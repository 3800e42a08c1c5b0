namespace FeatureTable.Yaml

/-- A tree of data.  A tag is its name, without the mark that opens it. -/
inductive Value where
  | null
  | bool (value : Bool)
  | int (value : Int)
  | float (value : Float)
  | string (value : String)
  | sequence (items : List Value)
  | mapping (entries : List (Value × Value))
  | tagged (tag : String) (value : Value)
deriving Repr, Inhabited

namespace Value

inductive Kind where
  | null
  | boolean
  | number
  | string
  | list
  | mapping
  | tagged
deriving Repr, DecidableEq

def kind : Value → Kind
  | null => .null
  | bool _ => .boolean
  | int _ => .number
  | float _ => .number
  | string _ => .string
  | sequence _ => .list
  | mapping _ => .mapping
  | tagged _ _ => .tagged

def Kind.name : Kind → String
  | null => "null"
  | boolean => "boolean"
  | number => "number"
  | string => "string"
  | list => "list"
  | mapping => "mapping"
  | tagged => "tagged value"

def untagged : Value → Value
  | tagged _ value => value.untagged
  | value => value

def entries? (v : Value) : Option (List (Value × Value)) :=
  match v.untagged with
  | mapping entries => some entries
  | _ => none

def asString? (v : Value) : Option String :=
  match v.untagged with
  | string s => some s
  | _ => none

def isKey (name : String) : Value → Bool
  | string s => s == name
  | _ => false

def lookup? (name : String) : List (Value × Value) → Option Value
  | [] => none
  | (key, value) :: entries => if key.isKey name then some value else lookup? name entries

def field? (v : Value) (name : String) : Option Value :=
  v.entries?.bind (lookup? name)

theorem sizeOf_untagged_le (v : Value) : sizeOf v.untagged ≤ sizeOf v := by
  fun_induction untagged v with
  | case1 tag value ih =>
      simp
      omega
  | case2 => exact Nat.le_refl _

theorem sizeOf_lookup?_lt {name : String} {entries : List (Value × Value)} {value : Value}
    (h : lookup? name entries = some value) : sizeOf value < sizeOf entries := by
  induction entries with
  | nil => simp [lookup?] at h
  | cons entry entries ih =>
      obtain ⟨key, other⟩ := entry
      simp only [lookup?] at h
      split at h
      · cases h
        simp
        omega
      · have := ih h
        simp
        omega

theorem sizeOf_field?_lt {v : Value} {name : String} {value : Value}
    (h : v.field? name = some value) : sizeOf value < sizeOf v := by
  unfold field? entries? at h
  have hle := v.sizeOf_untagged_le
  split at h
  · rename_i entries hentries
    rw [hentries] at hle
    have := sizeOf_lookup?_lt h
    simp at hle
    omega
  · simp at h

end Value

end FeatureTable.Yaml
