import FeatureTable.Proofs.FileSystem.Growth
import FeatureTable.Proofs.Run.Steps

namespace FeatureTable

open FileSystem (Grows)

namespace Host

def left (action : StateM Workspace α) (w : Workspace) : Workspace :=
  (action.run w).2

theorem left_bind (action : StateM Workspace α) (next : α → StateM Workspace β) (w : Workspace) :
    left (action >>= next) w = left (next (action.run w).1) (left action w) := rfl

theorem left_settle (path : String) (outcome : Except FileError Unit) (w : Workspace) :
    left (settle path outcome) w = w := by
  cases outcome with
  | ok => rfl
  | error e =>
      unfold settle
      rw [left_bind]
      split_ifs <;> rfl

theorem grows_createDirectory {path : String} {paths : List String} (hpath : path ∈ paths)
    (w : Workspace) : Grows paths w.files (left (createDirectory path) w).files := by
  simp only [left, createDirectory, Workspace.change, StateT.run]
  cases hcreate : w.files.createDirectory path with
  | error e => exact .refl _ _
  | ok files => exact FileSystem.grows_createDirectory hcreate hpath

/-- One attempt, and where it finds nothing to stand in, the parents and another attempt. -/
theorem grows_createAlong (paths : List String) (w : Workspace) :
    Grows paths w.files (left (createAlong paths) w).files := by
  induction paths generalizing w with
  | nil => exact .refl _ _
  | cons path parents ih =>
      unfold createAlong
      split_ifs
      · exact .refl _ _
      have hhead : path ∈ path :: parents := List.mem_cons_self
      have hfirst := grows_createDirectory hhead w
      rw [left_bind]
      generalize left (createDirectory path) w = v at hfirst ⊢
      split
      · rw [left_bind]
        have hparents := (ih v).mono (List.subset_cons_self path parents)
        generalize left (createAlong parents) v = u at hparents ⊢
        split
        · rw [left_bind, left_settle]
          exact (hfirst.trans hparents).trans (grows_createDirectory hhead u)
        · exact hfirst.trans hparents
      · rw [left_settle]
        exact hfirst

end Host

namespace LocalTime

theorem isDigit_of_mem_padded {width n : Nat} {c : Char} (h : c ∈ padded width n) : c.isDigit := by
  simp only [padded, List.mem_append, List.mem_replicate] at h
  rcases h with ⟨-, rfl⟩ | hdigit
  · rfl
  · exact Nat.isDigit_of_mem_toDigits (by decide) (by decide) hdigit

theorem slash_not_mem_padded (width n : Nat) : '/' ∉ padded width n := by
  intro h
  cases isDigit_of_mem_padded h

theorem slash_not_mem_yearDigits (year : Int) : '/' ∉ yearDigits year := by
  unfold yearDigits
  split_ifs <;> simp [slash_not_mem_padded]

theorem toList_runName (t : LocalTime) :
    t.runName.toList = "run_".toList ++ yearDigits t.year ++ padded 2 t.month ++ padded 2 t.day ++
      ['_'] ++ padded 2 t.hour ++ padded 2 t.minute ++ padded 2 t.second :=
  String.toList_ofList

theorem isName_runName (t : LocalTime) : Path.IsName t.runName := by
  have hslash : '/' ∉ t.runName.toList := by
    have hrun : '/' ∉ "run_".toList := by decide
    have hline : '/' ∉ ['_'] := by decide
    rw [toList_runName]
    simp only [List.mem_append, hrun, hline, slash_not_mem_padded, slash_not_mem_yearDigits,
      or_self, not_false_eq_true]
  have hfirst : t.runName.toList.head? = some 'r' := by
    rw [toList_runName]
    rfl
  have hne : ∀ name : String, name.toList.head? ≠ some 'r' → t.runName ≠ name := by
    rintro _ hname rfl
    exact hname hfirst
  exact ⟨hslash, hne "" (by decide), hne "." (by decide), hne ".." (by decide)⟩

end LocalTime

namespace RunDirectory

variable {settings : RunSettings} {now : LocalTime}

theorem root_eq (settings : RunSettings) (now : LocalTime) :
    (ofSettings settings now).root = Path.join settings.runsDirectory now.runName := by
  simp only [ofSettings]

end RunDirectory

namespace Run

variable {w w' : Workspace}

theorem grows_of_createDirectory {path : String} {outcome : Except RunError Unit}
    (h : (createDirectory path).on w = (outcome, w')) :
    Grows (Path.ancestors path) w.files w'.files := by
  rw [createDirectory, on_onFiles] at h
  cases h
  exact Host.grows_createAlong (Path.ancestors path) w

theorem step_of_createDirectory_error {path : String} {e : RunError}
    (h : (createDirectory path).on w = (.error e, w')) : e = ⟨.createDirectory path, .file⟩ :=
  eq_of_onFiles_error h

section CreateRunDirectory

variable {settings : RunSettings} {now : LocalTime}

theorem eq_of_createRunDirectory {d : RunDirectory}
    (h : (createRunDirectory settings now).on w = (.ok d, w')) :
    d = RunDirectory.ofSettings settings now := by
  unfold createRunDirectory at h
  obtain ⟨_, _, -, h⟩ := exists_of_on_bind h
  obtain ⟨_, _, -, h⟩ := exists_of_on_bind h
  obtain ⟨_, _, -, h⟩ := exists_of_on_bind h
  rw [on_pure] at h
  exact (Except.ok.inj (Prod.mk.inj h).1).symm

/-- Either directory may be the one that cannot be created. -/
theorem error_of_createRunDirectory {e : RunError}
    (h : (createRunDirectory settings now).on w = (.error e, w')) :
    (createDirectory (RunDirectory.ofSettings settings now).raw).on w = (.error e, w') ∨
      ∃ v, (createDirectory (RunDirectory.ofSettings settings now).raw).on w = (.ok (), v) ∧
        (createDirectory (RunDirectory.ofSettings settings now).processed).on v =
          (.error e, w') := by
  unfold createRunDirectory at h
  rcases error_of_on_bind h with h | ⟨⟨⟩, v, hraw, h⟩
  · exact .inl h
  rcases error_of_on_bind h with h | ⟨_, _, -, h⟩
  · exact .inr ⟨v, hraw, h⟩
  rcases error_of_on_bind h with h | ⟨_, _, -, h⟩ <;> cases h

theorem exists_of_createRunDirectory_error {e : RunError}
    (h : (createRunDirectory settings now).on w = (.error e, w')) :
    ∃ path, e = ⟨.createDirectory path, .file⟩ := by
  rcases error_of_createRunDirectory h with h | ⟨_, -, h⟩
  · exact ⟨_, step_of_createDirectory_error h⟩
  · exact ⟨_, step_of_createDirectory_error h⟩

/-- Whether or not all of it succeeds, only directories on the way to the two are new. -/
theorem grows_createRunDirectory {outcome : Except RunError RunDirectory}
    (h : (createRunDirectory settings now).on w = (outcome, w')) :
    Grows (Path.ancestors (RunDirectory.ofSettings settings now).raw ++
      Path.ancestors (RunDirectory.ofSettings settings now).processed) w.files w'.files := by
  have hraw {outcome v} (h : (createDirectory (RunDirectory.ofSettings settings now).raw).on w =
      (outcome, v)) := (grows_of_createDirectory h).mono (List.subset_append_left _
        (Path.ancestors (RunDirectory.ofSettings settings now).processed))
  have hprocessed {outcome v u} (h : (createDirectory
      (RunDirectory.ofSettings settings now).processed).on v = (outcome, u)) :=
    (grows_of_createDirectory h).mono (List.subset_append_right
      (Path.ancestors (RunDirectory.ofSettings settings now).raw) _)
  cases outcome with
  | error e =>
      rcases error_of_createRunDirectory h with h | ⟨v, hfirst, h⟩
      · exact hraw h
      · exact (hraw hfirst).trans (hprocessed h)
  | ok d =>
      obtain ⟨⟨⟩, v, hfirst, h⟩ := exists_of_on_bind h
      obtain ⟨⟨⟩, u, hsecond, h⟩ := exists_of_on_bind h
      obtain ⟨⟨⟩, _, hinfo, h⟩ := exists_of_on_bind h
      rw [on_info, Prod.mk.injEq] at hinfo
      rw [on_pure, Prod.mk.injEq] at h
      obtain ⟨-, rfl⟩ := hinfo
      obtain ⟨-, rfl⟩ := h
      have hgrown := (hraw hfirst).trans (hprocessed hsecond)
      exact hgrown

end CreateRunDirectory

end Run

end FeatureTable
