import FeatureTable.Dataset.Layout

namespace FeatureTable

open Yaml Yaml.Document

structure RunSettings where
  dataSource : String
  rawDirectory : String := "raw"
  processedDirectory : String := "processed"
  runsDirectory : String
deriving Repr, DecidableEq

/-- A configuration document.  The plan of the features is read by the stage that needs it. -/
structure PipelineConfig where
  settings : RunSettings
  layout : DatasetLayout
  features : Value
deriving Repr

namespace RunSettings

def readText? (d : Document) (fields : Fields) (name : String) : DocumentReader (Option String) :=
  (fields.lookup name).mapM d.readText

def read (d : Document) (node : Node Nat) : DocumentReader RunSettings := do
  let fields ← d.readFields ["data_source", "data_dir", "output"] node
  let dataSource ← d.readText (← require fields "data_source")
  let directories ← (fields.lookup "data_dir").mapM (d.readFields ["raw", "processed"])
  let raw ← readText? d (directories.getD []) "raw"
  let processed ← readText? d (directories.getD []) "processed"
  let output ← d.readFields ["runs"] (← require fields "output")
  let runsDirectory ← d.readText (← require output "runs")
  return {
    dataSource
    rawDirectory := raw.getD "raw"
    processedDirectory := processed.getD "processed"
    runsDirectory }

end RunSettings

namespace PipelineConfig

def read (d : Document) (node : Node Nat) : DocumentReader PipelineConfig := do
  let fields ← d.readFields ["run_config", "create_dataset", "generate_features"] node
  let settings ← RunSettings.read d (← require fields "run_config")
  let layout ← DatasetLayout.read d (← require fields "create_dataset")
  let features ← d.readValue (maxDepth - 1) (← require fields "generate_features")
  return { settings, layout, features }

def ofText (text : String) : Except Yaml.Error PipelineConfig :=
  Document.read text fun d => read d d.root

end PipelineConfig

end FeatureTable
