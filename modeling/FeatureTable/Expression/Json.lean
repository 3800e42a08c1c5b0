import FeatureTable.Expression.Basic
import FeatureTable.Json

namespace FeatureTable.Expression

/-!
A stored expression is an object with one field: `ColumnRef` with a name, or `Operation` with an
object.  Reading takes the fields of an operation in any order, lets `source2` and `function` be
absent and passes over fields with other names.
-/

def functionToJson : Option Transform → Json
  | none => .null
  | some f => .string f.name

def operationToJson (operator : Operator) (source₁ source₂ : Json) (function : Option Transform) :
    Json :=
  .object
    [("Operation",
      .object
        [("kind", .string operator.name), ("source1", source₁), ("source2", source₂),
          ("function", functionToJson function)])]

def toJson : Expression → Json
  | .column name => .object [("ColumnRef", .string name)]
  | .overOne operator source function => operationToJson operator source.toJson .null function
  | .overTwo operator source₁ source₂ function =>
      operationToJson operator source₁.toJson source₂.toJson function

/-- A name stands as a string, or as the only field of an object with nothing under it. -/
def nameOfJson? : Json → Option String
  | .string name => some name
  | .object [(name, .null)] => some name
  | _ => none

def functionOfJson? : Option Json → Option (Option Transform)
  | none => some none
  | some .null => some none
  | some json => ((nameOfJson? json).bind Transform.ofCanonicalName?).map some

def operatorOfJson? (json : Option Json) : Option Operator :=
  (json.bind nameOfJson?).bind Operator.ofName?

theorem sizeOf_field_lt {name : String} {fields : List (String × Json)} {json : Json}
    (h : Json.field? name fields = some json) : sizeOf json < sizeOf fields := by
  unfold Json.field? at h
  induction fields with
  | nil => simp at h
  | cons field fields ih =>
      obtain ⟨key, value⟩ := field
      simp only [List.lookup_cons] at h
      split at h
      · cases h
        simp
        omega
      · have := ih h
        simp
        omega

def ofJson? : Json → Option Expression
  | .object [("ColumnRef", .string name)] => some (.column name)
  | .object [("Operation", .object fields)] =>
      match _hfirst : Json.field? "source1" fields with
      | none => none
      | some first => do
          let operator ← operatorOfJson? (Json.field? "kind" fields)
          let source₁ ← ofJson? first
          let source₂ ←
            match _hsecond : Json.field? "source2" fields with
            | none => some none
            | some .null => some none
            | some second => (ofJson? second).map some
          let function ← functionOfJson? (Json.field? "function" fields)
          return operation operator source₁ source₂ function
  | _ => none
termination_by json => sizeOf json
decreasing_by
  · have := sizeOf_field_lt _hfirst
    simp
    omega
  · have := sizeOf_field_lt _hsecond
    simp
    omega

end FeatureTable.Expression
