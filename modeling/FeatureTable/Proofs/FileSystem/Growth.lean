import FeatureTable.Proofs.FileSystem

namespace FeatureTable.FileSystem

/-- Whatever is new is a directory that one of the paths leads to. -/
structure Grows (paths : List String) (before after : FileSystem) : Prop where
  workingDirectory : after.workingDirectory = before.workingDirectory
  entry : ∀ location, after.entry? location = before.entry? location ∨
    before.entry? location = none ∧ after.entry? location = some .directory ∧
      ∃ path ∈ paths, after.locate path = .ok location

variable {fs fs' : FileSystem} {path : String}

namespace Grows

variable {paths : List String} {first second third : FileSystem}

theorem refl (paths : List String) (fs : FileSystem) : Grows paths fs fs :=
  ⟨rfl, fun _ => .inl rfl⟩

theorem entry_of_some (h : Grows paths first second) {location : Location} {entry : Entry}
    (hentry : first.entry? location = some entry) : second.entry? location = some entry := by
  rcases h.entry location with hsame | ⟨hnone, -, -⟩
  · rw [hsame, hentry]
  · rw [hnone] at hentry
    cases hentry

theorem keepsDirectories (h : Grows paths first second) : KeepsDirectories first second where
  workingDirectory := h.workingDirectory
  directory _ := h.entry_of_some

theorem trans (h : Grows paths first second) (h' : Grows paths second third) :
    Grows paths first third := by
  refine ⟨h'.workingDirectory.trans h.workingDirectory, fun location => ?_⟩
  rcases h.entry location with hsame | ⟨hnone, hdirectory, path, hpath, hlocate⟩
  · rw [← hsame]
    exact h'.entry location
  · -- what was created first is kept, and its path still leads there
    exact .inr ⟨hnone, h'.entry_of_some hdirectory, path, hpath,
      h'.keepsDirectories.locate hlocate⟩

theorem mono {others : List String} (h : Grows paths first second) (hsub : paths ⊆ others) :
    Grows others first second := by
  refine ⟨h.workingDirectory, fun location => (h.entry location).imp_right ?_⟩
  rintro ⟨hnone, hdirectory, path, hpath, hlocate⟩
  exact ⟨hnone, hdirectory, path, hsub hpath, hlocate⟩

/-- A file that was read is still there. -/
theorem read (h : Grows paths first second) {path : String} {bytes : List UInt8}
    (hread : first.read path = .ok bytes) : second.read path = .ok bytes := by
  obtain ⟨location, hlocate, hfile⟩ := exists_of_read hread
  rw [read_of_locate (h.keepsDirectories.locate hlocate), readAt, h.entry_of_some hfile]

end Grows

/-- What names an entry in a path: its last part that is not empty. -/
theorem parts_of_dropWhile {name : String} {before : List String}
    (h : (Path.parts path).reverse.dropWhile String.isEmpty = name :: before) :
    ∃ blank, (∀ part ∈ blank, part = "") ∧
      Path.parts path = before.reverse ++ [name] ++ blank := by
  refine ⟨((Path.parts path).reverse.takeWhile String.isEmpty).reverse, fun part hpart => ?_, ?_⟩
  · have hall := List.all_takeWhile (p := String.isEmpty) (l := (Path.parts path).reverse)
    rw [List.all_eq_true] at hall
    exact String.isEmpty_iff.mp (hall part (List.mem_reverse.mp hpart))
  · have hsplit :=
      List.takeWhile_append_dropWhile (p := String.isEmpty) (l := (Path.parts path).reverse)
    rw [h] at hsplit
    have hreverse := congrArg List.reverse hsplit
    simpa using hreverse.symm

theorem walk_put_directory {location created : Location} {before blank : List String}
    (hwalk : fs.walk location before = .ok created) (hnone : fs.entry? created = none)
    (hblank : ∀ part ∈ blank, part = "") :
    (fs.put created .directory).walk location (before ++ blank) = .ok created := by
  have hfile := isDirectory_of_absent hnone
  rw [walk_append_of_ok ((keepsDirectories_put hfile _).walk hwalk)]
  exact walk_blank (entry?_put_self (ne_nil_of_not_directory hfile) _) hblank

/-- A directory that was created is new, and its path leads there. -/
theorem exists_of_createDirectory (h : fs.createDirectory path = .ok fs') :
    ∃ location, fs.entry? location = none ∧ fs' = fs.put location .directory ∧
      fs'.locate path = .ok location := by
  unfold createDirectory at h
  split_ifs at h with hempty hzero
  split at h
  · cases h
  rename_i name before hparts
  obtain ⟨blank, hblank, hpath⟩ := parts_of_dropWhile hparts
  cases hwalk : fs.walk (fs.start path) before.reverse with
  | error e =>
      rw [hwalk] at h
      cases h
  | ok directory =>
      cases hstep : fs.step directory name with
      | error e =>
          simp only [hwalk, hstep, bind, Except.bind] at h
          cases h
      | ok location =>
          simp only [hwalk, hstep, bind, Except.bind, pure, Except.pure] at h
          split_ifs at h with hthere
          have hnone : fs.entry? location = none := by
            rw [← Option.not_isSome_iff_eq_none]
            exact fun hsome => hthere (.inr (.inr hsome))
          cases h
          have hreached : fs.walk (fs.start path) (before.reverse ++ [name]) = .ok location := by
            rw [walk_append_of_ok hwalk, walk_singleton, hstep]
          refine ⟨location, hnone, rfl, ?_⟩
          rw [locate, if_neg hempty, if_neg hzero, hpath]
          exact walk_put_directory hreached hnone hblank

theorem grows_createDirectory (h : fs.createDirectory path = .ok fs') {paths : List String}
    (hpath : path ∈ paths) : Grows paths fs fs' := by
  obtain ⟨created, hnone, rfl, hlocate⟩ := exists_of_createDirectory h
  have hroot := ne_nil_of_not_directory (isDirectory_of_absent hnone)
  refine ⟨rfl, fun location => ?_⟩
  by_cases hlocation : location = created
  · subst hlocation
    exact .inr ⟨hnone, entry?_put_self hroot _, path, hpath, hlocate⟩
  · exact .inl (entry?_put_of_ne hlocation _)

end FeatureTable.FileSystem
