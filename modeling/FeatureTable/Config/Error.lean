import FeatureTable.Yaml.Error
import FeatureTable.Yaml.Value.Basic

namespace FeatureTable

/-- What a configuration may be asked to hold somewhere. -/
inductive Expected where
  | string
  | list
  | mapping
  | operand
deriving Repr, DecidableEq

def Expected.name : Expected → String
  | string => "string"
  | list => "list"
  | mapping => "mapping"
  | operand => "column name or operation mapping"

structure Place where
  field : String
  index : Option Nat := none
deriving Repr, DecidableEq

def Place.name (p : Place) : String :=
  match p.index with
  | none => p.field
  | some index => s!"{p.field}[{index}]"

inductive ConfigError where
  | yaml (error : Yaml.Error)
  | missingField (field : String)
  | typeMismatch (place : Place) (expected : Expected) (actual : Yaml.Value.Kind)
  | unsupportedOperator (name : String)
  | unknownFunction (name : String)
  | blankTarget
deriving Repr, DecidableEq

def ConfigError.message : ConfigError → String
  | yaml error => s!"YAML parsing error: {error.message}"
  | missingField field => s!"Missing required field: {field}"
  | typeMismatch place expected actual =>
      s!"Type mismatch for field '{place.name}': expected {expected.name}, got {actual.name}"
  | unsupportedOperator name => s!"Unsupported operation: {name}"
  | unknownFunction name => s!"Unknown function: {name}"
  | blankTarget => "Invalid value for field 'target': target column name cannot be empty"

end FeatureTable
