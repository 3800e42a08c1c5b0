import FeatureTable.Proofs.Dataset
import FeatureTable.Proofs.Feature.Failures
import FeatureTable.Proofs.Run.Artifact
import FeatureTable.Proofs.Run.Saved

namespace FeatureTable

/-- A file could not be read or written. -/
def RunFault.OfFile : RunFault → Prop
  | .file => True
  | .stage .file => True
  | .stage (.csv .file) => True
  | _ => False

namespace Run

/-!
Features are generated from the dataset of a run, or later from the table in its file.  Both see the
same table, so both give the same bytes or the same failure.
-/

variable {w w' : Workspace} {config : PipelineConfig} {now : LocalTime} {e : RunError}

theorem ofDataset_of_loadDataset {path : String} {layout : DatasetLayout} {t : Table}
    (h : (loadDataset path layout).on w = (.ok t, w')) :
    ∃ text, (createDataset text layout).outcome = .ok t := by
  unfold loadDataset at h
  obtain ⟨text?, v, -, h⟩ := exists_of_on_bind h
  cases text? with
  | none =>
      obtain ⟨-, _, -, h⟩ := exists_of_on_bind h
      cases h
  | some text => exact ⟨text, (ok_of_on_compute h).1⟩

theorem step_of_createRunDirectory_error {settings : RunSettings}
    (h : (createRunDirectory settings now).on w = (.error e, w')) :
    e.step ≠ .generateFeatures := by
  obtain ⟨path, rfl⟩ := exists_of_createRunDirectory_error h
  exact RunStep.noConfusion

theorem step_of_copyData_error {source target : String}
    (h : (copyData source target).on w = (.error e, w')) : e.step ≠ .generateFeatures := by
  unfold copyData at h
  rcases error_of_on_bind h with h | ⟨_, _, -, h⟩
  · rw [eq_of_onFiles_error h]
    exact RunStep.noConfusion
  · cases h

theorem step_of_loadDataset_error {path : String} {layout : DatasetLayout}
    (h : (loadDataset path layout).on w = (.error e, w')) : e.step ≠ .generateFeatures := by
  unfold loadDataset at h
  rcases error_of_on_bind h with h | ⟨text?, _, -, h⟩
  · cases h
  cases text? with
  | none =>
      rcases error_of_on_bind h with h | ⟨_, _, -, h⟩
      · cases h
      · cases h
        exact RunStep.noConfusion
  | some text =>
      obtain ⟨failure, -, rfl, -⟩ := error_of_on_compute h
      exact RunStep.noConfusion

/-- The stages of a run up to its dataset in a file. -/
def preparation (config : PipelineConfig) (now : LocalTime) :
    Run (StateM Workspace) (RunDirectory × Table) := do
  let d ← createRunDirectory config.settings now
  copyData config.settings.dataSource d.rawData
  let dataset ← loadDataset d.rawData config.layout
  saveTable .saveDataset dataset d.cleanData
  return (d, dataset)

def generation (config : PipelineConfig) (d : RunDirectory) (dataset : Table) :
    Run (StateM Workspace) RunDirectory := do
  let features ← compute .generateFeatures (generateFromYaml dataset config.features)
  saveTable (.saveFeatures none) features d.features
  info s!"Pipeline finished, artifacts in {d.root}"
  return d

theorem pipeline_eq (config : PipelineConfig) (now : LocalTime) :
    pipeline config now =
      preparation config now >>= fun prepared => generation config prepared.1 prepared.2 := by
  simp only [pipeline, preparation, generation, bind_assoc, pure_bind]

theorem step_of_preparation_error (h : (preparation config now).on w = (.error e, w')) :
    e.step ≠ .generateFeatures := by
  unfold preparation at h
  rcases error_of_on_bind h with h | ⟨_, _, -, h⟩
  · exact step_of_createRunDirectory_error h
  rcases error_of_on_bind h with h | ⟨_, _, -, h⟩
  · exact step_of_copyData_error h
  rcases error_of_on_bind h with h | ⟨_, _, -, h⟩
  · exact step_of_loadDataset_error h
  rcases error_of_on_bind h with h | ⟨_, _, -, h⟩
  · rw [eq_of_saveTable_error h]
    exact RunStep.noConfusion
  · cases h

/-- What a run has reached once its dataset is saved. -/
structure DatasetSaved (config : PipelineConfig) (d : RunDirectory) (dataset : Table)
    (w : Workspace) : Prop where
  valid : dataset.Valid
  names : dataset.names = config.layout.columns ++ [classColumn]
  located : ∃ location, w.files.locate d.cleanData = .ok location
  read : w.files.read d.cleanData = .ok (saved dataset)

theorem datasetSaved_of_saveTable {d : RunDirectory} {dataset : Table} {text : String}
    (hdataset : (createDataset text config.layout).outcome = .ok dataset)
    (hsave : (saveTable .saveDataset dataset d.cleanData).on w = (.ok (), w')) :
    DatasetSaved config d dataset w' := by
  have hwrite := write_of_saveTable hsave
  obtain ⟨hvalid, hnames⟩ := valid_of_createDataset hdataset
  obtain ⟨location, hlocate, hfile, hfiles⟩ := FileSystem.write_eq_ok_iff.mp hwrite
  refine ⟨hvalid, hnames, ⟨location, ?_⟩, FileSystem.read_of_write hwrite⟩
  rw [hfiles]
  exact FileSystem.locate_put hfile _ hlocate

theorem datasetSaved_of_preparation {d : RunDirectory} {dataset : Table}
    (h : (preparation config now).on w = (.ok (d, dataset), w')) :
    d = .ofSettings config.settings now ∧ DatasetSaved config d dataset w' := by
  obtain ⟨created, _, hdirectory, h⟩ := exists_of_on_bind h
  obtain ⟨⟨⟩, _, -, h⟩ := exists_of_on_bind h
  obtain ⟨table, _, hload, h⟩ := exists_of_on_bind h
  obtain ⟨⟨⟩, _, hsave, h⟩ := exists_of_on_bind h
  cases h
  obtain ⟨text, hdataset⟩ := ofDataset_of_loadDataset hload
  exact ⟨eq_of_createRunDirectory hdirectory, datasetSaved_of_saveTable hdataset hsave⟩

theorem DatasetSaved.read_of_write {d : RunDirectory} {dataset : Table} {files : FileSystem}
    {bytes : List UInt8} (h : DatasetSaved config d dataset w)
    (hwrite : w.files.write d.features bytes = .ok files) :
    files.read d.cleanData = .ok (saved dataset) := by
  have hne : Artifact.cleanData ≠ .features := by decide
  exact (Artifact.read_of_write hne h.located hwrite).trans h.read

theorem on_generation_of_locateTarget {d : RunDirectory} {dataset f : Table}
    (hfeatures : (generateFromYaml dataset config.features).outcome = .ok f) {location : Location}
    (hplace : w.files.locateTarget d.features = .ok location) :
    ∃ events, (generation config d dataset).on w =
      (.ok d, ⟨w.files.put location (.file (saved f)), events⟩) := by
  unfold generation
  rw [on_bind_of_ok (on_compute_of_ok hfeatures _ _),
    on_bind_of_ok (on_saveTable_of_locateTarget (by exact hplace) _ _)]
  exact ⟨_, rfl⟩

theorem exists_of_generation {d d' : RunDirectory} {dataset : Table}
    (h : (generation config d dataset).on w = (.ok d', w')) :
    d' = d ∧ ∃ features, (generateFromYaml dataset config.features).outcome = .ok features ∧
      w.files.write d.features (saved features) = .ok w'.files := by
  obtain ⟨features, v₁, hgenerate, h⟩ := exists_of_on_bind h
  obtain ⟨⟨⟩, v₂, hsave, h⟩ := exists_of_on_bind h
  obtain ⟨⟨⟩, v₃, hinfo, h⟩ := exists_of_on_bind h
  cases h
  cases hinfo
  have hwrite := write_of_saveTable hsave
  obtain ⟨houtcome, rfl⟩ := ok_of_on_compute hgenerate
  exact ⟨rfl, features, houtcome, hwrite⟩

theorem failure_of_generation {d : RunDirectory} {dataset : Table}
    (h : (generation config d dataset).on w = (.error e, w'))
    (hstep : e.step = .generateFeatures) :
    ∃ failure, e = ⟨.generateFeatures, .stage failure⟩ ∧ w'.files = w.files ∧
      (generateFromYaml dataset config.features).outcome = .error failure := by
  rcases error_of_on_bind h with h | ⟨features, v₁, -, h⟩
  · obtain ⟨failure, houtcome, rfl, rfl⟩ := error_of_on_compute h
    exact ⟨failure, rfl, rfl, houtcome⟩
  rcases error_of_on_bind h with h | ⟨-, v₂, -, h⟩
  · rw [eq_of_saveTable_error h] at hstep
    cases hstep
  rcases error_of_on_bind h with h | ⟨-, v₃, -, h⟩
  · cases h
  · cases h

theorem on_features_of_failure {input output : String} {t : Table} {failure : Failure}
    (hload : (loadTable input).on w = (.ok t, w'))
    (hfailure : (generateFromYaml t config.features).outcome = .error failure) :
    (features config input output).on w =
      (.error ⟨.generateFeatures, .stage failure⟩,
        w'.told (generateFromYaml t config.features).events) := by
  unfold features
  rw [on_bind_of_ok hload, on_bind_of_error (on_compute_of_error hfailure _ _)]

theorem on_features_of_error {input output : String} {t : Table} {failure : Failure}
    (hload : (loadTable input).on w = (.ok t, w'))
    (hfailure : (generateFromYaml t config.features).outcome = .error failure) :
    ∃ v, (features config input output).on w =
      (.error ⟨.generateFeatures, .stage failure⟩, v) :=
  ⟨_, on_features_of_failure hload hfailure⟩

/-- Creates the directory of the output where its path names one. -/
def createOutputDirectory (output : String) : Run (StateM Workspace) Unit :=
  match Path.parent? output with
  | some parent => if parent.isEmpty then pure () else createDirectory parent
  | none => pure ()

def delivery (output : String) (f : Table) : Run (StateM Workspace) Unit := do
  createOutputDirectory output
  saveTable (.saveFeatures (some output)) f output

theorem on_features_of_ok {input output : String} {t f : Table}
    (hload : (loadTable input).on w = (.ok t, w'))
    (hfeatures : (generateFromYaml t config.features).outcome = .ok f) :
    (features config input output).on w =
      (delivery output f).on (w'.told (generateFromYaml t config.features).events) := by
  unfold features delivery createOutputDirectory
  rw [on_bind_of_ok hload, on_bind_of_ok (on_compute_of_ok hfeatures _ _)]
  cases Path.parent? output with
  | none => rfl
  | some parent => cases hparent : parent.isEmpty <;> simp [hparent]

theorem on_features_of_locateTarget {input output : String} {t f : Table}
    (hload : (loadTable input).on w = (.ok t, w'))
    (hfeatures : (generateFromYaml t config.features).outcome = .ok f)
    (hdirectory : createOutputDirectory output = pure ()) {location : Location}
    (hplace : w'.files.locateTarget output = .ok location) :
    ∃ v, (features config input output).on w = (.ok (), v) := by
  rw [on_features_of_ok hload hfeatures, delivery, hdirectory, pure_bind]
  exact ⟨_, on_saveTable_of_locateTarget (by exact hplace) _ _⟩

theorem read_of_delivery {output : String} {f : Table}
    (h : (delivery output f).on w = (.ok (), w')) : w'.files.read output = .ok (saved f) := by
  obtain ⟨_, _, -, hsave⟩ := exists_of_on_bind h
  exact FileSystem.read_of_write (write_of_saveTable hsave)

theorem fault_of_delivery_error {output : String} {f : Table}
    (h : (delivery output f).on w = (.error e, w')) : e.fault.OfFile := by
  rcases error_of_on_bind h with h | ⟨_, _, -, h⟩
  · unfold createOutputDirectory at h
    split at h
    · split_ifs at h
      · cases h
      · rw [step_of_createDirectory_error h]
        trivial
    · cases h
  · rw [eq_of_saveTable_error h]
    trivial

theorem head?_names {d : RunDirectory} {dataset : Table} (h : DatasetSaved config d dataset w)
    (hmark : ∀ first, config.layout.columns.head? = some first →
      first.toList.head? ≠ some '\uFEFF') :
    ∃ first, dataset.names.head? = some first ∧ first.toList.head? ≠ some '\uFEFF' := by
  rw [h.names]
  cases hcolumns : config.layout.columns with
  | nil => exact ⟨classColumn, rfl, by decide⟩
  | cons first rest => exact ⟨first, rfl, hmark first (by rw [hcolumns]; rfl)⟩

/-- A run over everything and a later run over its saved dataset end alike. -/
theorem features_agree_with_pipeline (config : PipelineConfig) (now : LocalTime) {w w' : Workspace}
    {outcome : Except RunError RunDirectory}
    (hmark : ∀ first, config.layout.columns.head? = some first →
      first.toList.head? ≠ some '\uFEFF')
    (hrun : (pipeline config now).on w = (outcome, w')) :
    (∀ d, outcome = .ok d →
      ∃ dataset bytes, w'.files.read d.cleanData = .ok dataset ∧
        w'.files.read d.features = .ok bytes ∧
        ∀ (u : Workspace) (input output : String), u.files.read input = .ok dataset →
          (∀ e v, (features config input output).on u = (.error e, v) → ¬ e.fault.OfFile) →
          ∃ v, (features config input output).on u = (.ok (), v) ∧
            v.files.read output = .ok bytes) ∧
    ∀ e, outcome = .error e → e.step = .generateFeatures →
      ∃ dataset,
        w'.files.read (RunDirectory.ofSettings config.settings now).cleanData = .ok dataset ∧
        ∀ (u : Workspace) (input output : String), u.files.read input = .ok dataset →
          ∃ v, (features config input output).on u = (.error e, v) := by
  rw [pipeline_eq] at hrun
  rcases hprepared : (preparation config now).on w with ⟨failed | ⟨d, dataset⟩, v⟩
  · rw [on_bind_of_error hprepared] at hrun
    cases hrun
    refine ⟨fun d h => (by cases h), ?_⟩
    rintro _ ⟨⟩ hstep
    exact absurd hstep (step_of_preparation_error hprepared)
  rw [on_bind_of_ok hprepared] at hrun
  obtain ⟨rfl, hsaved⟩ := datasetSaved_of_preparation hprepared
  -- whoever loads these bytes later generates from the table that the run generated from
  obtain ⟨first, hfirst, hfirstMark⟩ := head?_names hsaved hmark
  have hload : ∀ (u : Workspace) (input : String), u.files.read input = .ok (saved dataset) →
      ∃ loaded, (loadTable input).on u = (.ok dataset, loaded) := fun u input hinput =>
    ⟨_, on_loadTable_of_saved (t := ⟨dataset, hsaved.valid⟩) hfirst hfirstMark hinput⟩
  refine ⟨?_, ?_⟩
  · rintro d rfl
    obtain ⟨rfl, f, hfeatures, hwrite⟩ := exists_of_generation hrun
    refine ⟨saved dataset, saved f, hsaved.read_of_write hwrite,
      FileSystem.read_of_write hwrite, ?_⟩
    intro u input output hinput hfiles
    obtain ⟨loaded, hloaded⟩ := hload u input hinput
    rw [on_features_of_ok hloaded hfeatures] at hfiles ⊢
    rcases hdelivery : on (delivery output f) _ with ⟨e | ⟨⟩, v⟩
    · exact absurd (fault_of_delivery_error hdelivery) (hfiles e v hdelivery)
    · exact ⟨v, rfl, read_of_delivery hdelivery⟩
  · rintro e rfl hstep
    obtain ⟨failure, rfl, hfiles, hfailure⟩ := failure_of_generation hrun hstep
    refine ⟨saved dataset, ?_, ?_⟩
    · rw [hfiles, hsaved.read]
    · intro u input output hinput
      obtain ⟨loaded, hloaded⟩ := hload u input hinput
      exact on_features_of_error hloaded hfailure

section Doubling

open Expression

def doubling : PipelineConfig where
  settings := { dataSource := "raw.data", runsDirectory := "runs" }
  layout := { columns := ["x"], first := ⟨0, 1⟩, second := ⟨1, 2⟩ }
  features := .mapping
    [(.string "feature_col", .sequence [.string "x"]), (.string "target_col", .string "class"),
      (.string "feature_eng", .sequence [.mapping
        [(.string "target", .string "y"), (.string "operation", .string "add"),
          (.string "source1", .string "x"), (.string "source2", .string "x")]])]

def twoLines : Workspace where
  files := { entries := [(["raw.data"], .file "1\n2.5".toUTF8.toList)] }

def noon : LocalTime := ⟨2024, 3, 7, 12, 0, 0⟩

def prepared : Workspace := ((preparation doubling noon).on twoLines).2

def doublingDirectory : RunDirectory := .ofSettings doubling.settings noon

def doublingLocation : Location :=
  ["features.csv", "processed", "run_20240307_120000", "runs"]

def twoRows : Table := ⟨[("x", [1, 2.5]), ("class", [0, 1])]⟩

def twoRowsDoubled : Table := ⟨[("x", [1, 2.5]), ("class", [0, 1]), ("y", [1 + 1, 2.5 + 2.5])]⟩

theorem ofYaml_doubling : (FeaturePlan.ofYaml doubling.features).outcome =
    .ok ⟨["x"], "class", [⟨"y", overTwo .add (column "x") (column "x") none⟩]⟩ := by
  have hoperation : (readOperation (.mapping
      [(.string "target", .string "y"), (.string "operation", .string "add"),
        (.string "source1", .string "x"), (.string "source2", .string "x")])).outcome =
      .ok (overTwo .add (column "x") (column "x") none) := by
    cbv
  have hdefinition : (Definition.ofYaml (.mapping
      [(.string "target", .string "y"), (.string "operation", .string "add"),
        (.string "source1", .string "x"), (.string "source2", .string "x")])).outcome =
      .ok ⟨"y", overTwo .add (column "x") (column "x") none⟩ := by
    show ((readOperation _).recover _ >>= fun _ => _).outcome = _
    rw [Traced.outcome_bind, Traced.outcome_recover, hoperation]
    rfl
  show (List.mapM Definition.ofYaml _ >>= fun _ => _).outcome = _
  rw [Traced.outcome_bind, List.mapM_cons, Traced.outcome_bind, hdefinition]
  rfl

theorem generateFromYaml_doubling :
    (generateFromYaml twoRows doubling.features).outcome = .ok twoRowsDoubled := by
  have hgenerate : (generateFrom twoRows ["x", "class"]
      [⟨"y", overTwo .add (column "x") (column "x") none⟩]).outcome = .ok twoRowsDoubled := rfl
  rw [outcome_generateFromYaml, ofYaml_doubling]
  exact hgenerate

theorem features_agree_with_pipeline_doubling :
    ∃ d w', (pipeline doubling noon).on twoLines = (.ok d, w') ∧
      ∃ dataset bytes, w'.files.read d.cleanData = .ok dataset ∧
        w'.files.read d.features = .ok bytes ∧
        ∃ v, (features doubling d.cleanData "again.csv").on w' = (.ok (), v) ∧
          v.files.read "again.csv" = .ok bytes := by
  have hprepared : (preparation doubling noon).on twoLines =
      (.ok (doublingDirectory, twoRows), prepared) := on_eq_ok (by decide +kernel)
  have hplace : prepared.files.locateTarget doublingDirectory.features = .ok doublingLocation := by
    decide +kernel
  obtain ⟨events, hgenerated⟩ := on_generation_of_locateTarget generateFromYaml_doubling hplace
  have hrun := on_bind_of_ok (f := fun p => generation doubling p.1 p.2) hprepared
  rw [← pipeline_eq, hgenerated] at hrun
  obtain ⟨dataset, bytes, hdataset, hbytes, hagain⟩ :=
    (features_agree_with_pipeline doubling noon (by rintro _ ⟨⟩; decide) hrun).1 _ rfl
  refine ⟨_, _, hrun, dataset, bytes, hdataset, hbytes, hagain _ _ _ hdataset ?_⟩
  -- the second run writes where no other file is in its way
  have hsaved := (datasetSaved_of_preparation hprepared).2
  have hwrite := FileSystem.write_of_locateTarget hplace (saved twoRowsDoubled)
  have hload := on_loadTable_of_saved (w := ⟨_, events⟩) (t := ⟨_, hsaved.valid⟩) rfl (by decide)
    (hsaved.read_of_write hwrite)
  have houtput : (prepared.files.put doublingLocation (.file (saved twoRowsDoubled))).locateTarget
      "again.csv" = .ok ["again.csv"] := by
    decide +kernel
  obtain ⟨_, hsecond⟩ :=
    on_features_of_locateTarget hload generateFromYaml_doubling (by rfl) houtput
  intro e v herror
  cases hsecond.symm.trans herror

end Doubling

end Run

end FeatureTable
