import FeatureTable.Proofs.Run.Artifacts

namespace FeatureTable

/-- Two paths lead to the same place. -/
def FileSystem.SameFile (fs : FileSystem) (path other : String) : Prop :=
  ∃ location, fs.locate path = .ok location ∧ fs.locate other = .ok location

instance (fs : FileSystem) (path other : String) : Decidable (fs.SameFile path other) :=
  match hpath : fs.locate path with
  | .ok location =>
      decidable_of_iff (fs.locate other = .ok location)
        ⟨fun hother => ⟨location, hpath, hother⟩,
          fun ⟨_, hlocate, hother⟩ => by cases hpath.symm.trans hlocate; exact hother⟩
  | .error _ => isFalse fun ⟨_, hlocate, _⟩ => by cases hpath.symm.trans hlocate

namespace Run

/-!
What becomes of the source of a run.  A run writes three files, and the paths of their directories
may lead anywhere.  The source keeps its bytes unless one of the files that the run has written is
the source itself, and then it holds what was written last.
-/

namespace Artifact

/-- What a run leaves in its source if it writes the file there.  A copy of the source onto itself
is empty; the later files are made from the copy. -/
def leaves (config : PipelineConfig) (source : List UInt8) :
    Artifact → Except RunError (List UInt8)
  | rawData => .ok []
  | cleanData => (datasetFrom config source).map saved
  | features => (datasetFrom config source >>= featuresFrom config).map saved

end Artifact

/-- The files that were written, as the end of a run tells. -/
def written (outcome : Except RunError RunDirectory) : List Artifact :=
  match outcome with
  | .ok _ => [.rawData, .cleanData, .features]
  | .error e =>
      match e.step with
      | .createDataset => [.rawData]
      | .saveDataset => [.rawData]
      | .generateFeatures => [.rawData, .cleanData]
      | .saveFeatures _ => [.rawData, .cleanData]
      | _ => []

/-- The file at a location, to which the path of the source leads, when some files were written. -/
structure SourceAt (config : PipelineConfig) (d : RunDirectory) (bytes : List UInt8)
    (origin : Location) (files : List Artifact) (fs : FileSystem) : Prop where
  leads : fs.locate config.settings.dataSource = .ok origin
  located : ∀ a ∈ files, ∃ location, fs.locate (a.path d) = .ok location
  kept : (∀ a ∈ files, fs.locate (a.path d) ≠ .ok origin) → fs.entry? origin = some (.file bytes)
  lost : ∀ a ∈ files, fs.locate (a.path d) = .ok origin →
    ∃ left, a.leaves config bytes = .ok left ∧ fs.entry? origin = some (.file left)

variable {config : PipelineConfig} {now : LocalTime} {d : RunDirectory} {bytes : List UInt8}
  {origin : Location} {files : List Artifact} {fs fs' : FileSystem} {w w' : Workspace}
  {a : Artifact} {outcome : Except RunError RunDirectory}

namespace SourceAt

/-- One more file is written, under a name that none of the files before has. -/
theorem write (h : SourceAt config d bytes origin files fs) (hnew : a ∉ files)
    {path : String} (hpath : a.path d = path) {content : List UInt8}
    (hwrite : fs.write path content = .ok fs')
    (hcontent : fs.locate path = .ok origin → a.leaves config bytes = .ok content) :
    SourceAt config d bytes origin (files ++ [a]) fs' := by
  subst hpath
  obtain ⟨location, hlocate, hfile, rfl⟩ := FileSystem.write_eq_ok_iff.mp hwrite
  have hplaces : ∀ {path place}, fs.locate path = .ok place →
      (fs.put location (.file content)).locate path = .ok place := FileSystem.locate_put hfile _
  have hsame : ∀ b ∈ files, (fs.put location (.file content)).locate (b.path d) = .ok origin →
      fs.locate (b.path d) = .ok origin := by
    intro b hb horigin
    obtain ⟨place, hplace⟩ := h.located b hb
    cases (hplaces hplace).symm.trans horigin
    exact hplace
  have hroot := FileSystem.ne_nil_of_not_directory hfile
  -- only one of the files can be at the origin: the new one, or one of those before
  refine ⟨hplaces h.leads, ?_, fun hnone => ?_, ?_⟩
  · refine List.forall_mem_append.mpr ⟨fun b hb => ?_, List.forall_mem_singleton.mpr ?_⟩
    · obtain ⟨place, hplace⟩ := h.located b hb
      exact ⟨place, hplaces hplace⟩
    · exact ⟨location, hplaces hlocate⟩
  · obtain ⟨hbefore, hlast⟩ := List.forall_mem_append.mp hnone
    have hne : origin ≠ location := by
      rintro rfl
      exact List.forall_mem_singleton.mp hlast (hplaces hlocate)
    rw [FileSystem.entry?_put_of_ne hne]
    refine h.kept fun b hb horigin => hbefore b hb (hplaces horigin)
  · refine List.forall_mem_append.mpr ⟨fun b hb horigin => ?_, List.forall_mem_singleton.mpr ?_⟩
    · have hearlier := hsame b hb horigin
      have hne : origin ≠ location := by
        rintro rfl
        cases Artifact.eq_of_locate hlocate hearlier
        exact hnew hb
      rw [FileSystem.entry?_put_of_ne hne]
      exact h.lost b hb hearlier
    · intro horigin
      cases (hplaces hlocate).symm.trans horigin
      exact ⟨content, hcontent hlocate, FileSystem.entry?_put_self hroot _⟩

/-- What the path of the source is read as. -/
theorem read (h : SourceAt config d bytes origin files fs) :
    ((∀ a ∈ files, ¬ fs.SameFile (a.path d) config.settings.dataSource) →
        fs.read config.settings.dataSource = .ok bytes) ∧
      ∀ a ∈ files, fs.SameFile (a.path d) config.settings.dataSource →
        ∃ left, a.leaves config bytes = .ok left ∧
          fs.read config.settings.dataSource = .ok left := by
  have hread : ∀ {content}, fs.entry? origin = some (.file content) →
      fs.read config.settings.dataSource = .ok content := by
    intro content hentry
    rw [FileSystem.read_of_locate h.leads, FileSystem.readAt_eq_ok_iff.mpr hentry]
  refine ⟨fun hnone => hread (h.kept fun a ha horigin => ?_), fun a ha hsame => ?_⟩
  · exact hnone a ha ⟨origin, horigin, h.leads⟩
  · obtain ⟨location, hpath, hsource⟩ := hsame
    cases h.leads.symm.trans hsource
    obtain ⟨left, hleft, hentry⟩ := h.lost a ha hpath
    exact ⟨left, hleft, hread hentry⟩

/-- Directories on the way change no file. -/
theorem grow (h : SourceAt config d bytes origin [] fs) {paths : List String}
    (hgrows : FileSystem.Grows paths fs fs') : SourceAt config d bytes origin [] fs' := by
  refine ⟨hgrows.keepsDirectories.locate h.leads, ?_, fun _ => ?_, ?_⟩
  · exact List.forall_mem_nil _
  · exact hgrows.entry_of_some (h.kept (List.forall_mem_nil _))
  · exact List.forall_mem_nil _

/-- A table is saved in one of the files, or it is not and nothing is written. -/
theorem saveTable (h : SourceAt config d bytes origin files w.files) (hnew : a ∉ files)
    {path : String} (hpath : a.path d = path) {t : Table}
    (hcontent : w.files.locate path = .ok origin → a.leaves config bytes = .ok (saved t))
    (step : RunStep) :
    (∃ v, (saveTable step t path).on w = (.ok (), v) ∧
        SourceAt config d bytes origin (files ++ [a]) v.files ∧
        FileSystem.KeepsDirectories w.files v.files) ∨
      ∃ v, (saveTable step t path).on w = (.error ⟨step, .stage (.csv .file)⟩, v) ∧
        SourceAt config d bytes origin files v.files := by
  rw [on_saveTable, ← saved]
  cases hwrite : w.files.write path (saved t) with
  | error e => exact .inr ⟨_, rfl, h⟩
  | ok fs' =>
      obtain ⟨_, -, hfile, hput⟩ := FileSystem.write_eq_ok_iff.mp hwrite
      refine .inl ⟨_, rfl, h.write hnew hpath hwrite hcontent, ?_⟩
      show FileSystem.KeepsDirectories w.files fs'
      rw [hput]
      exact FileSystem.keepsDirectories_put hfile _

end SourceAt

theorem sourceAt_generation {dataset : Table}
    (h : SourceAt config d bytes origin [.rawData, .cleanData] w.files)
    (hdataset : w.files.locate d.rawData ≠ .ok origin → datasetFrom config bytes = .ok dataset)
    (hrun : (generation config d dataset).on w = (outcome, w')) :
    SourceAt config d bytes origin (written outcome) w'.files := by
  unfold generation at hrun
  cases hfeatures : (generateFromYaml dataset config.features).outcome with
  | error failure =>
      rw [on_bind_of_error (on_compute_of_error hfeatures _ _)] at hrun
      cases hrun
      exact h
  | ok features =>
      rw [on_bind_of_ok (on_compute_of_ok hfeatures _ _)] at hrun
      have hcontent : w.files.locate d.features = .ok origin →
          Artifact.features.leaves config bytes = .ok (saved features) := by
        intro horigin
        have hmade := hdataset (Artifact.features.rawData_elsewhere (by decide) horigin)
        simp only [Artifact.leaves, hmade, bind, Except.bind, featuresFrom, hfeatures,
          Except.mapError, Except.map]
      have htold : SourceAt config d bytes origin [.rawData, .cleanData]
          (w.told (generateFromYaml dataset config.features).events).files := h
      have hsaving := htold.saveTable (by decide) (Artifact.path_features d) hcontent
      rcases hsaving (.saveFeatures none) with ⟨v, hsave, hv, -⟩ | ⟨v, hsave, hv⟩
      · rw [on_bind_of_ok hsave] at hrun
        cases hrun
        exact hv
      · rw [on_bind_of_error hsave] at hrun
        cases hrun
        exact hv

theorem sourceAt_saving {dataset : Table}
    (h : SourceAt config d bytes origin [.rawData] w.files)
    (hdataset : w.files.locate d.rawData ≠ .ok origin → datasetFrom config bytes = .ok dataset)
    (hrun : (saveTable .saveDataset dataset d.cleanData >>= fun _ =>
      generation config d dataset).on w = (outcome, w')) :
    SourceAt config d bytes origin (written outcome) w'.files := by
  have hcontent : w.files.locate d.cleanData = .ok origin →
      Artifact.cleanData.leaves config bytes = .ok (saved dataset) := by
    intro horigin
    have hmade := hdataset (Artifact.cleanData.rawData_elsewhere (by decide) horigin)
    rw [Artifact.leaves, hmade]
    rfl
  rcases h.saveTable (by decide) (Artifact.path_cleanData d) hcontent .saveDataset with
    ⟨v, hsave, hv, hkeeps⟩ | ⟨v, hsave, hv⟩
  · rw [on_bind_of_ok hsave] at hrun
    exact sourceAt_generation hv (fun hraw => hdataset (mt hkeeps.locate hraw)) hrun
  · rw [on_bind_of_error hsave] at hrun
    cases hrun
    exact hv

theorem step_of_datasetFrom_error {e : RunError} (h : datasetFrom config bytes = .error e) :
    e.step = .createDataset := by
  unfold datasetFrom at h
  cases hread : readDataset config.layout bytes with
  | error failure =>
      rw [hread] at h
      cases h
      rfl
  | ok dataset =>
      rw [hread] at h
      cases h

theorem sourceAt_loading {copied : List UInt8}
    (h : SourceAt config d bytes origin [.rawData] w.files)
    (hread : w.files.read d.rawData = .ok copied)
    (hcopied : w.files.locate d.rawData ≠ .ok origin → copied = bytes)
    (hrun : (loadDataset d.rawData config.layout >>= fun dataset =>
      saveTable .saveDataset dataset d.cleanData >>= fun _ => generation config d dataset).on w =
        (outcome, w')) :
    SourceAt config d bytes origin (written outcome) w'.files := by
  obtain ⟨v, hload, hfiles⟩ := on_loadDataset config hread
  rw [← hfiles] at h hcopied
  cases hdataset : datasetFrom config copied with
  | error e =>
      rw [hdataset] at hload
      rw [on_bind_of_error hload] at hrun
      cases hrun
      rw [written, step_of_datasetFrom_error hdataset]
      exact h
  | ok dataset =>
      rw [hdataset] at hload
      rw [on_bind_of_ok hload] at hrun
      exact sourceAt_saving h (fun hraw => hcopied hraw ▸ hdataset) hrun

theorem sourceAt_stages (h : SourceAt config d bytes origin [] w.files)
    (hrun : (stages config d).on w = (outcome, w')) :
    SourceAt config d bytes origin (written outcome) w'.files := by
  obtain ⟨copied, hcopy, hsame, hother⟩ :=
    FileSystem.exists_copy_eq_write h.leads (h.kept (List.forall_mem_nil _)) d.rawData
  unfold stages at hrun
  rw [on_bind, on_copyData, hcopy] at hrun
  cases hwrite : w.files.write d.rawData copied with
  | error e =>
      rw [hwrite] at hrun
      cases hrun
      exact h
  | ok fs' =>
      rw [hwrite] at hrun
      have hwritten : SourceAt config d bytes origin [.rawData] fs' :=
        h.write List.not_mem_nil (Artifact.path_rawData d) hwrite fun horigin => by
          rw [hsame horigin]
          rfl
      obtain ⟨_, -, hfile, rfl⟩ := FileSystem.write_eq_ok_iff.mp hwrite
      exact sourceAt_loading hwritten (FileSystem.read_of_write hwrite)
        (fun hraw => hother (mt (FileSystem.locate_put hfile _) hraw)) hrun

theorem sourceAt_pipeline {now : LocalTime}
    (h : SourceAt config (.ofSettings config.settings now) bytes origin [] w.files)
    (hrun : (pipeline config now).on w = (outcome, w')) :
    SourceAt config (.ofSettings config.settings now) bytes origin (written outcome) w'.files := by
  rw [pipeline_eq_stages] at hrun
  rcases hcreate : (createRunDirectory config.settings now).on w with ⟨e | d, v⟩
  · rw [on_bind_of_error hcreate] at hrun
    cases hrun
    obtain ⟨_, rfl⟩ := exists_of_createRunDirectory_error hcreate
    exact h.grow (grows_createRunDirectory hcreate)
  · rw [on_bind_of_ok hcreate] at hrun
    have hd := eq_of_createRunDirectory hcreate
    subst hd
    exact sourceAt_stages (h.grow (grows_createRunDirectory hcreate)) hrun

/-- The path of the source leads to the same place after a run that ends in any way.  The bytes
there are kept, unless the run has written one of its files there.  Then the source holds that file,
or nothing if it was to be copied onto itself. -/
theorem source_after_pipeline (config : PipelineConfig) (now : LocalTime) {w w' : Workspace}
    {bytes : List UInt8} {outcome : Except RunError RunDirectory}
    (hsource : w.files.read config.settings.dataSource = .ok bytes)
    (hrun : (pipeline config now).on w = (outcome, w')) :
    w'.files.locate config.settings.dataSource = w.files.locate config.settings.dataSource ∧
    ((∀ a ∈ written outcome, ¬ w'.files.SameFile
        (a.path (.ofSettings config.settings now)) config.settings.dataSource) →
      w'.files.read config.settings.dataSource = .ok bytes) ∧
    ∀ a ∈ written outcome,
      w'.files.SameFile (a.path (.ofSettings config.settings now)) config.settings.dataSource →
        ∃ left, a.leaves config bytes = .ok left ∧
          w'.files.read config.settings.dataSource = .ok left := by
  obtain ⟨origin, hleads, hfile⟩ := FileSystem.exists_of_read hsource
  have hbefore : SourceAt config (.ofSettings config.settings now) bytes origin [] w.files :=
    ⟨hleads, List.forall_mem_nil _, fun _ => hfile, List.forall_mem_nil _⟩
  have hafter := sourceAt_pipeline hbefore hrun
  exact ⟨hafter.leads.trans hleads.symm, hafter.read⟩

/-- A directory for the raw data that leads from the run back to its source. -/
def backToSource : PipelineConfig where
  settings := ⟨"in/clouds.data", "../../in", "processed", "runs"⟩
  layout := doubling.layout
  features := doubling.features

def sourceBelow : Workspace where
  files := { entries := [(["in"], .directory),
    (["clouds.data", "in"], .file "1\n2.5".toUTF8.toList)] }

def onlyDataset : PipelineConfig :=
  { doubling with features := .null }

theorem source_after_pipeline_back_to_source :
    ((pipeline backToSource noon).on sourceBelow).2.files.read "in/clouds.data" = .ok [] ∧
      ((pipeline onlyDataset noon).on twoLines).2.files.read "raw.data" =
        .ok "1\n2.5".toUTF8.toList := by
  constructor
  · obtain ⟨-, -, hlost⟩ := source_after_pipeline backToSource noon
      (show sourceBelow.files.read _ = .ok "1\n2.5".toUTF8.toList by decide +kernel) rfl
    obtain ⟨left, hleft, hread⟩ := hlost .rawData (by decide +kernel) (by decide +kernel)
    have hnothing : [] = left := Except.ok.inj hleft
    rw [hnothing]
    exact hread
  · obtain ⟨-, hkept, -⟩ := source_after_pipeline onlyDataset noon
      (show twoLines.files.read _ = .ok "1\n2.5".toUTF8.toList by decide +kernel) rfl
    exact hkept (by decide +kernel)

theorem pipeline_empties_source :
    ∃ (config : PipelineConfig) (now : LocalTime) (w : Workspace),
      w.files.read config.settings.dataSource = .ok "1\n2.5".toUTF8.toList ∧
        ((pipeline config now).on w).2.files.read config.settings.dataSource = .ok [] :=
  ⟨backToSource, noon, sourceBelow, by decide +kernel, by decide +kernel⟩

end Run

end FeatureTable
