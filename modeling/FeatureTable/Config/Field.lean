import FeatureTable.Config.Error

namespace FeatureTable.Config

open Yaml (Value)

def mismatch (field : String) (expected : Expected) (actual : Value) : ConfigError :=
  .typeMismatch { field } expected actual.kind

def getString (v : Value) (field : String) : Except ConfigError String :=
  match v.field? field with
  | none => .error (.missingField field)
  | some (.string s) => .ok s
  | some other => .error (mismatch field .string other)

def getList (v : Value) (field : String) : Except ConfigError (List Value) :=
  match v.field? field with
  | none => .error (.missingField field)
  | some (.sequence items) => .ok items
  | some other => .error (mismatch field .list other)

/-- The index in an error counts from `index` on. -/
def stringItems (field : String) (index : Nat) : List Value → Except ConfigError (List String)
  | [] => .ok []
  | .string s :: items => (stringItems field (index + 1) items).map (s :: ·)
  | other :: _ => .error (.typeMismatch { field, index } .string other.kind)

/-- A string alone is not a list of one string. -/
def getStrings (v : Value) (field : String) : Except ConfigError (List String) := do
  stringItems field 0 (← getList v field)

end FeatureTable.Config
