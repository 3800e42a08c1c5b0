import FeatureTable.Failure
import FeatureTable.Run.Overrides

namespace FeatureTable

inductive RunStep where
  | readConfig (path : String)
  | parseConfig (path : String)
  | overrideSettings
  | createDirectory (path : String)
  | copyData (source target : String)
  | createDataset
  | saveDataset
  | loadTable (path : String)
  | generateFeatures
  /-- Features are saved in the run directory, or under a path of their own. -/
  | saveFeatures (path : Option String)
deriving Repr, DecidableEq

def RunStep.message : RunStep → String
  | readConfig path => s!"Failed to read config file {path}"
  | parseConfig path => s!"Failed to parse config file {path}"
  | overrideSettings => "Failed to deserialize run settings"
  | createDirectory path => s!"Failed to create directory {path}"
  | copyData source target => s!"Failed to copy raw data from {source} to {target}"
  | createDataset => "Dataset creation failed"
  | saveDataset => "Failed to save clean dataset"
  | loadTable path => s!"Failed to load table from {path}"
  | generateFeatures => "Feature generation failed"
  | saveFeatures none => "Failed to save features"
  | saveFeatures (some path) => s!"Failed to save features to {path}"

inductive RunFault where
  | file
  | document (error : Yaml.Error)
  | settings (error : Overrides.SettingError)
  | stage (failure : Failure)
deriving Repr, DecidableEq

def RunFault.message : RunFault → String
  | file => "file cannot be read or written"
  | document error => error.message
  | settings error => error.message
  | stage failure => failure.message

structure RunError where
  step : RunStep
  fault : RunFault
deriving Repr, DecidableEq

/-- The step that failed, then the reason. -/
def RunError.message (e : RunError) : String :=
  s!"{e.step.message}: {e.fault.message}"

/-- What is told first about a failure: the step, and of settings also the reason. -/
def RunError.headline (e : RunError) : String :=
  match e.fault with
  | .settings _ => e.message
  | _ => e.step.message

end FeatureTable
