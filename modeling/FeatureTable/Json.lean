namespace FeatureTable

inductive Json where
  | null
  | bool (value : Bool)
  | number (value : Float)
  | string (value : String)
  | array (items : List Json)
  | object (fields : List (String × Json))
deriving Repr, Inhabited

namespace Json

/-- A field that is absent and one that is null are told apart. -/
def field? (name : String) (fields : List (String × Json)) : Option Json :=
  fields.lookup name

def asString? : Json → Option String
  | .string s => some s
  | _ => none

def asNumber? : Json → Option Float
  | .number x => some x
  | _ => none

def asArray? : Json → Option (List Json)
  | .array items => some items
  | _ => none

end Json

end FeatureTable
