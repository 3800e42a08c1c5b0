import FeatureTable.Failure
import FeatureTable.Proofs.Table.Build

namespace FeatureTable.Table

theorem firstRepeatAfter_eq_none_iff {earlier names : List String} :
    firstRepeatAfter earlier names = none ↔ names.Nodup ∧ ∀ name ∈ names, name ∉ earlier := by
  induction names generalizing earlier with
  | nil => simp [firstRepeatAfter]
  | cons name names ih =>
      rw [firstRepeatAfter]
      by_cases hname : name ∈ earlier
      · simp [hname]
      · rw [if_neg (by simpa using hname), ih, List.nodup_cons, List.forall_mem_cons]
        constructor
        · rintro ⟨hnodup, hfresh⟩
          exact ⟨⟨fun hmem => hfresh name hmem List.mem_cons_self, hnodup⟩, hname,
            fun other hother hmem => hfresh other hother (List.mem_cons_of_mem _ hmem)⟩
        · rintro ⟨⟨hmem, hnodup⟩, -, hfresh⟩
          refine ⟨hnodup, fun other hother hcons => ?_⟩
          rcases List.mem_cons.mp hcons with rfl | hearlier
          · exact hmem hother
          · exact hfresh other hother hearlier

theorem checkDistinct_eq_ok_iff {names : List String} :
    checkDistinct names = .ok () ↔ names.Nodup := by
  have hnone : firstRepeat? names = none ↔ names.Nodup := by
    rw [firstRepeat?, firstRepeatAfter_eq_none_iff]
    simp
  rw [← hnone, checkDistinct]
  cases firstRepeat? names <;> simp

def FirstRepeat (names : List String) (name : String) : Prop :=
  ∃ before after, names = before ++ name :: after ∧ before.Nodup ∧ name ∈ before

/-- The same where other names have come before. -/
structure RepeatSplit (earlier names before : List String) (name : String) (after : List String) :
    Prop where
  split : names = before ++ name :: after
  distinct : before.Nodup
  fresh : ∀ other ∈ before, other ∉ earlier
  repeated : name ∈ before ∨ name ∈ earlier

def RepeatsAfter (earlier names : List String) (name : String) : Prop :=
  ∃ before after, RepeatSplit earlier names before name after

variable {earlier names : List String} {first name : String}

theorem repeatsAfter_cons_of_mem (hfirst : first ∈ earlier) :
    RepeatsAfter earlier (first :: names) name ↔ first = name := by
  constructor
  · rintro ⟨before, after, h⟩
    cases before with
    | nil => exact (List.cons.inj h.split).1
    | cons other before =>
        obtain ⟨rfl, -⟩ := List.cons.inj h.split
        exact absurd hfirst (h.fresh first List.mem_cons_self)
  · rintro rfl
    exact ⟨[], names, rfl, List.nodup_nil, by simp, .inr hfirst⟩

theorem repeatsAfter_cons_of_not_mem (hfirst : first ∉ earlier) :
    RepeatsAfter earlier (first :: names) name ↔ RepeatsAfter (first :: earlier) names name := by
  constructor
  · rintro ⟨before, after, h⟩
    cases before with
    | nil =>
        obtain ⟨rfl, -⟩ := List.cons.inj h.split
        exact absurd (h.repeated.resolve_left List.not_mem_nil) hfirst
    | cons other before =>
        obtain ⟨rfl, hnames⟩ := List.cons.inj h.split
        obtain ⟨hother, hdistinct⟩ := List.nodup_cons.mp h.distinct
        refine ⟨before, after, hnames, hdistinct, fun second hsecond => ?_, ?_⟩
        · rw [List.mem_cons, not_or]
          exact ⟨fun heq => hother (heq ▸ hsecond), h.fresh second (List.mem_cons_of_mem _ hsecond)⟩
        · have hrepeated := h.repeated
          rw [List.mem_cons] at hrepeated ⊢
          tauto
  · rintro ⟨before, after, h⟩
    have hnew : first ∉ before := fun hmem => h.fresh first hmem List.mem_cons_self
    refine ⟨first :: before, after, congrArg _ h.split, List.nodup_cons.mpr ⟨hnew, h.distinct⟩,
      ?_, ?_⟩
    · refine List.forall_mem_cons.mpr ⟨hfirst, fun other hother hmem => ?_⟩
      exact h.fresh other hother (List.mem_cons_of_mem _ hmem)
    · have hrepeated := h.repeated
      rw [List.mem_cons] at hrepeated ⊢
      tauto

theorem firstRepeatAfter_eq_some_iff :
    firstRepeatAfter earlier names = some name ↔ RepeatsAfter earlier names name := by
  induction names generalizing earlier with
  | nil =>
      constructor
      · intro h
        cases h
      · rintro ⟨before, after, h⟩
        exact absurd h.split.symm (by simp)
  | cons first names ih =>
      rw [firstRepeatAfter]
      by_cases hfirst : first ∈ earlier
      · rw [if_pos (by simpa using hfirst), repeatsAfter_cons_of_mem hfirst, Option.some.injEq]
      · rw [if_neg (by simpa using hfirst), repeatsAfter_cons_of_not_mem hfirst, ih]

theorem firstRepeat?_eq_some_iff : firstRepeat? names = some name ↔ FirstRepeat names name := by
  rw [firstRepeat?, firstRepeatAfter_eq_some_iff]
  constructor
  · rintro ⟨before, after, h⟩
    exact ⟨before, after, h.split, h.distinct, h.repeated.resolve_right List.not_mem_nil⟩
  · rintro ⟨before, after, hsplit, hdistinct, hname⟩
    exact ⟨before, after, hsplit, hdistinct, by simp, .inl hname⟩

theorem FirstRepeat.not_nodup (h : FirstRepeat names name) : ¬ names.Nodup := by
  obtain ⟨before, after, rfl, -, hname⟩ := h
  intro hnodup
  rw [List.nodup_append] at hnodup
  exact hnodup.2.2 name hname name List.mem_cons_self rfl

def repeatFaults (names : List String) : List TableError :=
  (firstRepeat? names).toList.map .duplicateColumn

theorem reports_checkDistinct (names : List String) :
    Reports (fun _ => names.Nodup) (checkDistinct names) (repeatFaults names) := by
  have hdistinct := @checkDistinct_eq_ok_iff names
  unfold checkDistinct at hdistinct ⊢
  unfold repeatFaults
  cases hrepeat : firstRepeat? names with
  | none =>
      rw [hrepeat] at hdistinct
      exact .passes (hdistinct.mp rfl)
  | some name => exact .fails _ []

theorem repeatFaults_eq_nil_iff : repeatFaults names = [] ↔ names.Nodup := by
  rw [← checkDistinct_eq_ok_iff, ← (reports_checkDistinct names).exists_ok_iff]
  exact ⟨fun ⟨_, h⟩ => h, fun h => ⟨(), h⟩⟩

theorem head?_repeatFaults {fault : TableError} :
    (repeatFaults names).head? = some fault ↔
      ∃ name, FirstRepeat names name ∧ fault = .duplicateColumn name := by
  simp only [← firstRepeat?_eq_some_iff, repeatFaults]
  cases firstRepeat? names <;> simp [eq_comm]

theorem exists_firstRepeat (h : ¬ names.Nodup) : ∃ name, FirstRepeat names name := by
  obtain ⟨fault, later, hfaults⟩ := List.exists_cons_of_ne_nil (mt repeatFaults_eq_nil_iff.mp h)
  obtain ⟨name, hname, -⟩ := head?_repeatFaults.mp (congrArg List.head? hfaults)
  exact ⟨name, hname⟩

/-- The repeated name is reported as a failure of its own. -/
theorem head?_map_repeatFaults {fault : Failure} :
    ((repeatFaults names).map Failure.ofTableError).head? = some fault ↔
      ∃ name, FirstRepeat names name ∧ fault = .table (.duplicateColumn name) := by
  simp only [List.head?_map, Option.map_eq_some_iff, head?_repeatFaults]
  constructor
  · rintro ⟨_, ⟨name, hname, rfl⟩, rfl⟩
    exact ⟨name, hname, rfl⟩
  · rintro ⟨name, hname, rfl⟩
    exact ⟨_, ⟨name, hname, rfl⟩, rfl⟩

end FeatureTable.Table
