import FeatureTable.FileSystem
import FeatureTable.Proofs.Path

namespace FeatureTable

namespace FileSystem

variable {fs : FileSystem} {path : String} {bytes : List UInt8}

theorem lookup_filter_ne {entries : List (Location × Entry)} {location other : Location}
    (h : other ≠ location) :
    (entries.filter (·.1 != location)).lookup other = entries.lookup other := by
  induction entries with
  | nil => rfl
  | cons entry entries ih =>
      by_cases hentry : entry.1 = location
      · have hother : (other == entry.1) = false := beq_false_of_ne (hentry ▸ h)
        rw [List.filter_cons_of_neg (by simpa using hentry), ih, List.lookup_cons, hother]
      · rw [List.filter_cons_of_pos (by simpa using hentry), List.lookup_cons, List.lookup_cons, ih]

theorem ne_nil_of_not_directory {location : Location} (h : fs.isDirectory location = false) :
    location ≠ [] := by
  rintro rfl
  cases h

theorem isDirectory_of_absent {location : Location} (h : fs.entry? location = none) :
    fs.isDirectory location = false := by
  rw [isDirectory, h]

theorem entry?_put_self {location : Location} (h : location ≠ []) (entry : Entry) :
    FileSystem.entry? (fs.put location entry) location = some entry := by
  unfold entry?
  simp [put, h]

theorem entry?_put_of_ne {location other : Location} (h : other ≠ location) (entry : Entry) :
    FileSystem.entry? (fs.put location entry) other = fs.entry? other := by
  have hother : (other == location) = false := beq_false_of_ne h
  unfold entry?
  simp only [put, List.lookup_cons, hother, lookup_filter_ne h]

theorem entry?_put {location : Location} (h : location ≠ []) (entry : Entry) (other : Location) :
    FileSystem.entry? (fs.put location entry) other =
      if other = location then some entry else fs.entry? other := by
  split_ifs with hother
  · rw [hother, entry?_put_self h]
  · exact entry?_put_of_ne hother entry

theorem isDirectory_iff {location : Location} :
    fs.isDirectory location = true ↔ fs.entry? location = some .directory := by
  unfold isDirectory
  split <;> simp_all

/-- A change that keeps the directories leaves every way that could be followed. -/
structure KeepsDirectories (before after : FileSystem) : Prop where
  workingDirectory : after.workingDirectory = before.workingDirectory
  directory : ∀ location, before.entry? location = some .directory →
    after.entry? location = some .directory

theorem keepsDirectories_put {target : Location} (htarget : fs.isDirectory target = false)
    (entry : Entry) : KeepsDirectories fs (fs.put target entry) where
  workingDirectory := rfl
  directory location h := by
    have hne : location ≠ target := by
      rintro rfl
      rw [isDirectory_iff.mpr h] at htarget
      cases htarget
    rw [entry?_put_of_ne hne, h]

/-- Only a directory can be left for a part. -/
theorem directory_of_step {location next : Location} {part : String}
    (h : fs.step location part = .ok next) : fs.entry? location = some .directory := by
  unfold step at h
  split at h
  · cases h
  · cases h
  · assumption

namespace KeepsDirectories

variable {fs' : FileSystem}

theorem step (hkeeps : KeepsDirectories fs fs') {location next : Location} {part : String}
    (h : fs.step location part = .ok next) : fs'.step location part = .ok next := by
  have hdirectory := directory_of_step h
  rw [FileSystem.step, hdirectory] at h
  rw [FileSystem.step, hkeeps.directory location hdirectory]
  exact h

theorem walk (hkeeps : KeepsDirectories fs fs') {location last : Location} {parts : List String}
    (h : fs.walk location parts = .ok last) : fs'.walk location parts = .ok last := by
  induction parts generalizing location with
  | nil => exact h
  | cons part parts ih =>
      rw [FileSystem.walk, List.foldlM_cons] at h ⊢
      cases hstep : fs.step location part with
      | error e =>
          rw [hstep] at h
          cases h
      | ok next =>
          rw [hstep] at h
          rw [hkeeps.step hstep]
          exact ih h

theorem start (hkeeps : KeepsDirectories fs fs') (path : String) :
    fs'.start path = fs.start path := by
  rw [FileSystem.start, FileSystem.start, hkeeps.workingDirectory]

theorem locate (hkeeps : KeepsDirectories fs fs') {location : Location}
    (h : fs.locate path = .ok location) : fs'.locate path = .ok location := by
  unfold FileSystem.locate at h ⊢
  split_ifs at h ⊢
  rw [hkeeps.start]
  exact hkeeps.walk h

theorem refl (fs : FileSystem) : KeepsDirectories fs fs :=
  ⟨rfl, fun _ => id⟩

theorem trans {fs'' : FileSystem} (h : KeepsDirectories fs fs') (h' : KeepsDirectories fs' fs'') :
    KeepsDirectories fs fs'' where
  workingDirectory := h'.workingDirectory.trans h.workingDirectory
  directory location hdirectory := h'.directory location (h.directory location hdirectory)

end KeepsDirectories

theorem locate_put {target : Location} (htarget : fs.isDirectory target = false) (entry : Entry)
    {location : Location} (h : fs.locate path = .ok location) :
    (fs.put target entry).locate path = .ok location :=
  (keepsDirectories_put htarget entry).locate h

theorem locateTarget_eq_ok_iff {location : Location} : fs.locateTarget path = .ok location ↔
    fs.locate path = .ok location ∧ fs.isDirectory location = false := by
  unfold locateTarget
  cases hlocate : fs.locate path with
  | error e => exact ⟨fun h => (by cases h), fun ⟨h, _⟩ => (by cases h)⟩
  | ok place =>
      cases hdirectory : fs.isDirectory place with
      | true =>
          refine ⟨fun h => ?_, fun ⟨hplace, hfile⟩ => ?_⟩
          · simp [bind, Except.bind, hdirectory, throw, throwThe, MonadExceptOf.throw] at h
          · cases hplace
            rw [hdirectory] at hfile
            cases hfile
      | false =>
          simp only [bind, Except.bind, hdirectory, pure, Except.pure, Bool.false_eq_true, if_false,
            Except.ok.injEq]
          refine ⟨fun h => ⟨h, ?_⟩, And.left⟩
          rw [← h, hdirectory]

theorem write_eq_ok_iff {fs' : FileSystem} : fs.write path bytes = .ok fs' ↔
    ∃ location, fs.locate path = .ok location ∧ fs.isDirectory location = false ∧
      fs' = fs.put location (.file bytes) := by
  rw [write]
  cases htarget : fs.locateTarget path with
  | error e =>
      refine ⟨fun h => (by cases h), fun ⟨location, hlocate, hfile, _⟩ => ?_⟩
      cases htarget.symm.trans (locateTarget_eq_ok_iff.mpr ⟨hlocate, hfile⟩)
  | ok location =>
      obtain ⟨hlocate, hfile⟩ := locateTarget_eq_ok_iff.mp htarget
      constructor
      · rintro ⟨⟩
        exact ⟨location, hlocate, hfile, rfl⟩
      · rintro ⟨other, hother, -, rfl⟩
        cases hlocate.symm.trans hother
        rfl

theorem read_of_locate {location : Location} (h : fs.locate path = .ok location) :
    fs.read path = fs.readAt location := by
  rw [read, h]
  rfl

theorem readAt_eq_ok_iff {location : Location} :
    fs.readAt location = .ok bytes ↔ fs.entry? location = some (.file bytes) := by
  unfold readAt
  split <;> simp_all

theorem exists_of_read (h : fs.read path = .ok bytes) :
    ∃ location, fs.locate path = .ok location ∧ fs.entry? location = some (.file bytes) := by
  cases hlocate : fs.locate path with
  | error e =>
      rw [read, hlocate] at h
      cases h
  | ok location =>
      rw [read_of_locate hlocate] at h
      exact ⟨location, rfl, readAt_eq_ok_iff.mp h⟩

theorem write_of_locateTarget {location : Location} (h : fs.locateTarget path = .ok location)
    (bytes : List UInt8) : fs.write path bytes = .ok (fs.put location (.file bytes)) := by
  rw [write, h]
  rfl

theorem read_of_write {fs' : FileSystem} (h : fs.write path bytes = .ok fs') :
    fs'.read path = .ok bytes := by
  obtain ⟨location, hlocate, hfile, rfl⟩ := write_eq_ok_iff.mp h
  rw [read_of_locate (locate_put hfile _ hlocate), readAt,
    entry?_put_self (ne_nil_of_not_directory hfile)]

/-- A file keeps its bytes while another one is written. -/
theorem read_of_write_of_ne {fs' : FileSystem} (h : fs.write path bytes = .ok fs')
    {location other : Location} {otherPath : String} (hpath : fs.locate path = .ok location)
    (hother : fs.locate otherPath = .ok other) (hne : other ≠ location) :
    fs'.read otherPath = fs.read otherPath := by
  obtain ⟨_, hlocate, hfile, rfl⟩ := write_eq_ok_iff.mp h
  cases hpath.symm.trans hlocate
  rw [read_of_locate (locate_put hfile _ hother), read_of_locate hother, readAt,
    entry?_put_of_ne hne, readAt]

theorem put_put (location : Location) (first second : Entry) :
    (fs.put location first).put location second = fs.put location second := by
  simp [put]

/-- A copy writes the bytes of its source, unless it has emptied the source by then. -/
theorem exists_copy_eq_write {source : String} {origin : Location}
    (hlocate : fs.locate source = .ok origin) (hfile : fs.entry? origin = some (.file bytes))
    (target : String) :
    ∃ copied, fs.copy source target = fs.write target copied ∧
      (fs.locate target = .ok origin → copied = []) ∧
      (fs.locate target ≠ .ok origin → copied = bytes) := by
  have horigin : fs.readAt origin = .ok bytes := by rw [readAt, hfile]
  cases htarget : fs.locateTarget target with
  | error e =>
      refine ⟨if fs.locate target = .ok origin then [] else bytes, ?_, fun h => if_pos h,
        fun h => if_neg h⟩
      rw [write, htarget]
      simp only [copy, hlocate, horigin, htarget, discard, bind, Except.bind, Functor.mapConst,
        Except.map, Function.comp]
  | ok location =>
      obtain ⟨hplace, hdirectory⟩ := locateTarget_eq_ok_iff.mp htarget
      have hsame : fs.locate target = .ok origin ↔ origin = location := by
        rw [hplace, Except.ok.injEq, eq_comm]
      have hemptied : (fs.put location (.file [])).readAt origin =
          .ok (if origin = location then [] else bytes) := by
        rw [readAt, entry?_put (ne_nil_of_not_directory hdirectory), hfile]
        split_ifs <;> rfl
      refine ⟨if origin = location then [] else bytes, ?_, fun h => if_pos (hsame.mp h),
        fun h => if_neg (mt hsame.mpr h)⟩
      rw [write_of_locateTarget htarget]
      simp only [copy, hlocate, horigin, htarget, hemptied, discard, bind, Except.bind,
        Functor.mapConst, Except.map, pure, Except.pure, Function.comp, put_put]

/-- A file at a place where nothing is, or nothing. -/
def putFile (fs : FileSystem) (location : Location) : Option (List UInt8) → FileSystem
  | some bytes => fs.put location (.file bytes)
  | none => fs

theorem entry?_putFile {location : Location} (hnone : fs.entry? location = none)
    (file : Option (List UInt8)) (other : Location) :
    FileSystem.entry? (fs.putFile location file) other =
      if other = location then file.map .file else fs.entry? other := by
  cases file with
  | some bytes => exact entry?_put (ne_nil_of_not_directory (isDirectory_of_absent hnone)) _ _
  | none =>
      split_ifs with hother
      · rw [hother]
        exact hnone
      · rfl

theorem keepsDirectories_putFile {location : Location} (hnone : fs.entry? location = none)
    (file : Option (List UInt8)) : KeepsDirectories fs (fs.putFile location file) := by
  cases file with
  | some bytes => exact keepsDirectories_put (isDirectory_of_absent hnone) _
  | none => exact .refl fs

theorem walk_append {location last : Location} {before after : List String}
    (h : fs.walk location (before ++ after) = .ok last) :
    ∃ middle, fs.walk location before = .ok middle ∧ fs.walk middle after = .ok last := by
  rw [walk, List.foldlM_append] at h
  cases hbefore : fs.walk location before with
  | error e =>
      rw [walk] at hbefore
      rw [hbefore] at h
      cases h
  | ok middle =>
      rw [walk] at hbefore
      rw [hbefore] at h
      exact ⟨middle, rfl, h⟩

theorem walk_append_of_ok {location middle : Location} {before : List String}
    (h : fs.walk location before = .ok middle) (after : List String) :
    fs.walk location (before ++ after) = fs.walk middle after := by
  rw [walk] at h
  rw [walk, List.foldlM_append, h]
  rfl

theorem walk_singleton (location : Location) (part : String) :
    fs.walk location [part] = fs.step location part := by
  simp [walk]

/-- Empty parts do not lead out of a directory. -/
theorem walk_blank {location : Location} (hdirectory : fs.entry? location = some .directory)
    {blank : List String} (hblank : ∀ part ∈ blank, part = "") :
    fs.walk location blank = .ok location := by
  induction blank with
  | nil => rfl
  | cons part blank ih =>
      obtain ⟨rfl, hrest⟩ := List.forall_mem_cons.mp hblank
      have hstep : fs.step location "" = .ok location := by
        rw [step, hdirectory]
        rfl
      rw [walk, List.foldlM_cons, hstep]
      exact ih hrest

theorem step_name {name : String} (hname : Path.IsName name) {location next : Location}
    (h : fs.step location name = .ok next) : next = name :: location := by
  rw [step, directory_of_step h] at h
  simp only [hname.nonempty, hname.notHere, hname.notUp, or_self, if_false] at h
  split_ifs at h
  exact (Except.ok.inj h).symm

theorem exists_of_locate_join {base name : String} (hname : Path.IsName name) {location : Location}
    (h : fs.locate (Path.join base name) = .ok location) :
    ∃ directory, location = name :: directory ∧ fs.entry? directory = some .directory ∧
      (base ≠ "" → fs.locate base = .ok directory) := by
  obtain ⟨before, blank, hbase, hblank, hparts⟩ := Path.parts_join base hname.noSlash
  unfold locate at h
  split_ifs at h with hempty hzero
  rw [hparts] at h
  obtain ⟨directory, hbefore, hlast⟩ := walk_append h
  rw [walk_singleton] at hlast
  have hdirectory := directory_of_step hlast
  refine ⟨directory, step_name hname hlast, hdirectory, fun hne => ?_⟩
  rw [start, Path.isAbsolute_join hne hname.noSlash, ← start] at hbefore
  have hclean : base.toList.contains '\x00' = false := by
    by_contra hcontains
    have hmem := (Path.prefix_join base hname.noSlash).subset (by simpa using hcontains)
    exact hzero (by simpa using hmem)
  rw [locate, if_neg (by simpa using hne), hclean, if_neg Bool.false_ne_true, hbase,
    walk_append_of_ok hbefore, walk_blank hdirectory hblank]

end FileSystem

end FeatureTable
