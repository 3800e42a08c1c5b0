import FeatureTable.Table.Basic

namespace FeatureTable

/-- Tables that are changed in place, one call after another.  What a call has changed before it
fails stays changed. -/
abbrev Update (α : Type) := ExceptT TableError (StateM Table) α

namespace Update

/-- The length is checked before the column is put. -/
def insert (name : String) (values : Column) : Update Unit := do
  let t ← get
  let others := if t.contains name then t.width - 1 else t.width
  if 0 < others ∧ values.length ≠ t.height then
    throw (.lengthMismatch name t.height values.length)
  set (t.put name values)

def extendAt (index : Nat) (values : Column) (t : Table) : Table :=
  ⟨t.columns.modify index fun entry => (entry.1, entry.2 ++ values)⟩

def extendFrom (index : Nat) : List Column → Update Unit
  | [] => return ()
  | values :: rest => do
      modify (extendAt index values)
      extendFrom (index + 1) rest

/-- All columns of the other table are looked up before the first column is extended. -/
def append (other : Table) : Update Unit := do
  let t ← get
  if t.isEmpty then set other
  else do
    let incoming ← t.names.mapM fun name => ExceptT.mk (Pure.pure (other.get name))
    extendFrom 0 incoming

end Update

abbrev Tables := String → Table

namespace Tables

/-- A slot holds the table without columns until it is filled. -/
def initial : Tables := fun _ => .empty

def fill (tables : Tables) (slot : String) (t : Table) : Tables :=
  fun other => if other = slot then t else tables other

inductive Call where
  | new (slot : String)
  | ofColumns (slot : String) (columns : List (String × Column))
  | ofRows (slot : String) (names : List String) (rows : List (List Float))
  | ofParts (slot : String) (names : List String) (columns : List Column)
  | insert (slot : String) (name : String) (values : Column)
  | append (slot other : String)
  | select (source : String) (names : List String) (slot : String)
  | clone (source slot : String)
deriving Repr

namespace Call

abbrev Effect := ExceptT TableError (StateM Tables) Unit

def store (slot : String) (x : Except TableError Table) : Effect := do
  let t ← ExceptT.mk (Pure.pure x)
  modify fun tables => fill tables slot t

/-- Changes the table in a slot, which keeps what the change leaves. -/
def change (slot : String) (x : Update Unit) : Effect := fun tables =>
  let (outcome, t) := x (tables slot)
  (outcome, fill tables slot t)

def run : Call → Effect
  | new slot => store slot (.ok .empty)
  | ofColumns slot columns => store slot (Table.ofColumns columns)
  | ofRows slot names rows => store slot (Table.ofRows names rows)
  | ofParts slot names columns => store slot (Table.ofParts names columns)
  | insert slot name values => change slot (Update.insert name values)
  | append slot other => do change slot (Update.append ((← get) other))
  | select source names slot => do store slot (((← get) source).select names)
  | clone source slot => do store slot (.ok ((← get) source))

/-- The tables after a sequence of calls, those that failed included. -/
def runAll (calls : List Call) (tables : Tables) : Tables :=
  calls.foldl (fun tables call => (call.run tables).2) tables

end Call

end Tables

end FeatureTable
