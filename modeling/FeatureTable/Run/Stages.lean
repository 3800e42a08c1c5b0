import FeatureTable.Csv.Table
import FeatureTable.Dataset.Create
import FeatureTable.Feature.Generate
import FeatureTable.Run.Directory
import FeatureTable.Run.Error
import FeatureTable.Run.Host
import FeatureTable.Run.Overrides

namespace FeatureTable

/-- The stages of a run on a host.  The first stage that fails ends the run; what was written before
stays. -/
abbrev Run (m : Type → Type) := ExceptT RunError m

namespace Run

variable {m : Type → Type} [Monad m] [Host m]

def info (message : String) : Run m Unit :=
  ExceptT.lift (Host.report ⟨.info, message⟩)

def onFiles (step : RunStep) (action : m (Except FileError α)) : Run m α := do
  match ← ExceptT.lift action with
  | .ok a => return a
  | .error _ => throw ⟨step, .file⟩

/-- A step that computes; what it records is reported. -/
def compute (step : RunStep) (x : Traced Failure α) : Run m α := do
  x.events.forM fun event => ExceptT.lift (Host.report event)
  match x.outcome with
  | .ok a => return a
  | .error failure => throw ⟨step, .stage failure⟩

def readText (path : String) : m (Option String) := do
  match ← Host.readFile path with
  | .ok bytes => return String.fromUTF8? ⟨bytes.toArray⟩
  | .error _ => return none

def saveTable (step : RunStep) (t : Table) (path : String) : Run m Unit := do
  match ← ExceptT.lift (Host.writeFile path (Csv.writeTable t).toUTF8.toList) with
  | .ok () => info s!"Saved table to {path}"
  | .error _ => do
      ExceptT.lift (Host.report ⟨.error, s!"Failed to save table to {path}"⟩)
      throw ⟨step, .stage (.csv .file)⟩

/-- The rows are counted before they become a table. -/
def loadTable (path : String) : Run m Table := do
  let step := RunStep.loadTable path
  match ← ExceptT.lift (Host.readFile path) with
  | .error _ => throw ⟨step, .stage (.csv .file)⟩
  | .ok bytes =>
      let contents ← compute step (Traced.ofExcept (Csv.readContents bytes))
      info s!"Loaded {contents.rows.length} rows from {path}"
      compute step (Traced.ofExcept contents.toTable)

/-- A raw file that is no text fails like one that cannot be read. -/
def loadDataset (path : String) (layout : DatasetLayout) : Run m Table := do
  match ← ExceptT.lift (readText path) with
  | some text => compute .createDataset (createDataset text layout)
  | none => do
      ExceptT.lift (Host.report ⟨.error, s!"Failed to read raw data from {path}"⟩)
      throw ⟨.createDataset, .stage .file⟩

def loadConfig (path : String) (environment : Environment) : Run m PipelineConfig := do
  let text ← match ← ExceptT.lift (readText path) with
    | some text => pure text
    | none => throw ⟨.readConfig path, .file⟩
  let config ← match PipelineConfig.ofText text with
    | .ok config => pure config
    | .error e => throw ⟨.parseConfig path, .document e⟩
  let settings ← match config.settings.override environment with
    | .ok settings => pure settings
    | .error e => throw ⟨.overrideSettings, .settings e⟩
  info s!"Loaded configuration from {path}"
  return { config with settings }

def createDirectory (path : String) : Run m Unit :=
  onFiles (.createDirectory path) (Host.createDirectories path)

def createRunDirectory (settings : RunSettings) (now : LocalTime) : Run m RunDirectory := do
  let d := RunDirectory.ofSettings settings now
  createDirectory d.raw
  createDirectory d.processed
  info s!"Created run directory {d.root}"
  return d

def copyData (source target : String) : Run m Unit := do
  onFiles (.copyData source target) (Host.copyFile source target)
  info s!"Raw data written to {target}"

/-- Every stage, in a directory of its own. -/
def pipeline (config : PipelineConfig) (now : LocalTime) : Run m RunDirectory := do
  let d ← createRunDirectory config.settings now
  copyData config.settings.dataSource d.rawData
  let dataset ← loadDataset d.rawData config.layout
  saveTable .saveDataset dataset d.cleanData
  let features ← compute .generateFeatures (generateFromYaml dataset config.features)
  saveTable (.saveFeatures none) features d.features
  info s!"Pipeline finished, artifacts in {d.root}"
  return d

/-- The directory of the output is created only once there are features to save. -/
def features (config : PipelineConfig) (input output : String) : Run m Unit := do
  let t ← loadTable input
  let features ← compute .generateFeatures (generateFromYaml t config.features)
  match Path.parent? output with
  | some parent => if !parent.isEmpty then createDirectory parent
  | none => pure ()
  saveTable (.saveFeatures (some output)) features output

end Run

end FeatureTable
