import FeatureTable.Text.EditDistance
import FeatureTable.Yaml.Value.Basic

namespace FeatureTable.Config

open Yaml (Value)

/-- A field that is not known where it stands, and the field that may be meant. -/
structure UnknownField where
  field : String
  suggestion : Option String
deriving Repr, DecidableEq

def UnknownField.message (u : UnknownField) (context : String) : String :=
  let question :=
    match u.suggestion with
    | some suggestion => s!" Did you mean '{suggestion}'?"
    | none => ""
  s!"Unknown field '{u.field}' in {context}." ++ question

/-- Common slips and what they stand for. -/
def corrections : List (String × String) :=
  [("op", "operation"),
    ("operator", "operation"),
    ("source", "source1"),
    ("source_1", "source1"),
    ("source_2", "source2"),
    ("func", "function"),
    ("fn", "function"),
    ("name", "target"),
    ("feature_cols", "feature_col"),
    ("features", "feature_col"),
    ("target_column", "target_col"),
    ("feature_engineering", "feature_eng")]

/-- The first of the fields with the least distance. -/
def nearestField (field : String) : List String → Option String
  | [] => none
  | known :: rest =>
      match nearestField field rest with
      | none => some known
      | some other =>
          if Text.editDistance field other < Text.editDistance field known then some other
          else some known

def similarField (field : String) (known : List String) : Option String :=
  nearestField field (known.filter fun other => Text.editDistance field other ≤ 2)

def suggest (field : String) (known : List String) : Option String :=
  (corrections.lookup field).or (similarField field known)

/-- One finding for each key that is a string and not known, in the order of the mapping. -/
def unknownFields (v : Value) (known : List String) : List UnknownField :=
  (v.entries?.getD []).filterMap fun (key, _) =>
    match key.asString? with
    | some field => if known.contains field then none else some ⟨field, suggest field known⟩
    | none => none

end FeatureTable.Config
