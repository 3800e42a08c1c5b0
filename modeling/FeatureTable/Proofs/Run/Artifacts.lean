import FeatureTable.Proofs.Run.Agreement
import FeatureTable.Proofs.Run.Directories

namespace FeatureTable

namespace Run

/-- A file that is no text fails like one that cannot be read. -/
def readDataset (layout : DatasetLayout) (bytes : List UInt8) : Except Failure Table :=
  match String.fromUTF8? ⟨bytes.toArray⟩ with
  | some text => (createDataset text layout).outcome
  | none => .error .file

def datasetFrom (config : PipelineConfig) (bytes : List UInt8) : Except RunError Table :=
  (readDataset config.layout bytes).mapError fun failure => ⟨.createDataset, .stage failure⟩

def featuresFrom (config : PipelineConfig) (dataset : Table) : Except RunError Table :=
  (generateFromYaml dataset config.features).outcome.mapError fun failure =>
    ⟨.generateFeatures, .stage failure⟩

section Stages

variable (config : PipelineConfig) (d : RunDirectory) (source : Except FileError (List UInt8))

def rawOf : Except RunError (List UInt8) :=
  source.mapError fun _ => ⟨.copyData config.settings.dataSource d.rawData, .file⟩

def datasetOf : Except RunError Table :=
  rawOf config d source >>= datasetFrom config

def featuresOf : Except RunError Table :=
  datasetOf config d source >>= featuresFrom config

/-- What stands in a file of the run, if its stage was reached. -/
def Artifact.content : Artifact → Option (List UInt8)
  | rawData => (rawOf config d source).toOption
  | cleanData => (datasetOf config d source).toOption.map saved
  | features => (featuresOf config d source).toOption.map saved

/-- The files are put in their places one after another. -/
def withArtifacts (root : Location) (files : List Artifact) (fs : FileSystem) : FileSystem :=
  files.foldl (fun fs a => fs.putFile (a.place config.settings root) (a.content config d source)) fs

end Stages

/-- Different files are to come, and nothing is in their places. -/
structure Awaits (settings : RunSettings) (root : Location) (files : List Artifact)
    (fs : FileSystem) : Prop where
  distinct : files.Nodup
  vacant : ∀ a ∈ files, fs.entry? (a.place settings root) = none

/-- The directories of a run are there, and its files are not. -/
structure Ready (settings : RunSettings) (d : RunDirectory) (root : Location) (fs : FileSystem) :
    Prop where
  target : ∀ a : Artifact, fs.locateTarget (a.path d) = .ok (a.place settings root)
  awaits : Awaits settings root Artifact.all fs

variable {config : PipelineConfig} {now : LocalTime} {d : RunDirectory} {w : Workspace}
  {root location : Location} {fs : FileSystem} {source : Except FileError (List UInt8)}
  {a : Artifact} {files : List Artifact}

theorem on_readText {path : String} {bytes : List UInt8} (hread : w.files.read path = .ok bytes) :
    on (ExceptT.lift (readText path)) w = (.ok (String.fromUTF8? ⟨bytes.toArray⟩), w) := by
  have hfile : StateT.run (m := Id) (Host.readFile path) w = (.ok bytes, w) := by
    rw [← hread]
    rfl
  rw [on_lift, readText, StateT.run_bind, hfile]
  rfl

theorem on_loadDataset {path : String} {bytes : List UInt8} (config : PipelineConfig)
    (hread : w.files.read path = .ok bytes) :
    ∃ v, (loadDataset path config.layout).on w = (datasetFrom config bytes, v) ∧
      v.files = w.files := by
  unfold loadDataset datasetFrom readDataset
  rw [on_bind_of_ok (on_readText hread)]
  cases String.fromUTF8? ⟨bytes.toArray⟩ with
  | some text => exact ⟨_, on_compute _ _ w, rfl⟩
  | none => exact ⟨_, rfl, rfl⟩

def stages (config : PipelineConfig) (d : RunDirectory) : Run (StateM Workspace) RunDirectory := do
  copyData config.settings.dataSource d.rawData
  let dataset ← loadDataset d.rawData config.layout
  saveTable .saveDataset dataset d.cleanData
  generation config d dataset

theorem pipeline_eq_stages (config : PipelineConfig) (now : LocalTime) :
    pipeline config now = createRunDirectory config.settings now >>= stages config := rfl

theorem Ready.vacant (h : Ready config.settings d root fs) (a : Artifact) :
    fs.entry? (a.place config.settings root) = none :=
  h.awaits.vacant a a.mem_all

namespace Awaits

/-- Once the first file is put in its place, the others are still to come. -/
theorem putFile (h : Awaits config.settings root (a :: files) fs) (file : Option (List UInt8)) :
    Awaits config.settings root files (fs.putFile (a.place config.settings root) file) := by
  obtain ⟨hnew, hdistinct⟩ := List.nodup_cons.mp h.distinct
  refine ⟨hdistinct, fun b hb => ?_⟩
  have hne : b.place config.settings root ≠ a.place config.settings root := fun heq =>
    hnew (Artifact.place_inj heq ▸ hb)
  rw [FileSystem.entry?_putFile (h.vacant a List.mem_cons_self), if_neg hne,
    h.vacant b (List.mem_cons_of_mem _ hb)]

theorem keepsDirectories (h : Awaits config.settings root files fs) :
    FileSystem.KeepsDirectories fs (withArtifacts config d source root files fs) := by
  induction files generalizing fs with
  | nil => exact .refl fs
  | cons a files ih =>
      exact (FileSystem.keepsDirectories_putFile (h.vacant a List.mem_cons_self) _).trans
        (ih (h.putFile _))

end Awaits

namespace Ready

variable (h : Ready config.settings d root fs)

include h

end Ready

end Run

end FeatureTable
