import FeatureTable.Json
import FeatureTable.Table.Basic

namespace FeatureTable.Table

/-!
A table is stored as its names and its columns, apart: an object with the fields `names` and
`columns`, or the two in an array.  A number that is not finite is stored as null and not read back.
-/

inductive StoredError where
  | missingField (name : String)
  | malformed
  | table (error : TableError)
deriving Repr, DecidableEq

/-- A malformed document has no message of its own. -/
def StoredError.message? : StoredError → Option String
  | .missingField name => some ("missing field `" ++ name ++ "`")
  | .malformed => none
  | .table error => some error.message

def numberToJson (x : Float) : Json :=
  if x.isNaN || x.isInf then .null else .number x

def toJson (t : Table) : Json :=
  .object
    [("names", .array (t.names.map .string)),
      ("columns", .array (t.columns.map fun entry => .array (entry.2.map numberToJson)))]

def namesOfJson? (json : Json) : Option (List String) :=
  json.asArray?.bind (List.mapM Json.asString?)

def columnsOfJson? (json : Json) : Option (List Column) :=
  json.asArray?.bind (List.mapM fun column => column.asArray?.bind (List.mapM Json.asNumber?))

def ofJsonParts (names columns : Json) : Except StoredError Table :=
  match namesOfJson? names, columnsOfJson? columns with
  | some names, some columns => (ofParts names columns).mapError .table
  | _, _ => .error .malformed

/-- A field that is present and malformed is reported before one that is absent. -/
def ofJson : Json → Except StoredError Table
  | .array [names, columns] => ofJsonParts names columns
  | .object fields =>
      match Json.field? "names" fields, Json.field? "columns" fields with
      | some names, some columns => ofJsonParts names columns
      | some names, none =>
          .error (if (namesOfJson? names).isSome then .missingField "columns" else .malformed)
      | none, some columns =>
          .error (if (columnsOfJson? columns).isSome then .missingField "names" else .malformed)
      | none, none => .error (.missingField "names")
  | _ => .error .malformed

end FeatureTable.Table
