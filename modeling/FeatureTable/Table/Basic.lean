namespace FeatureTable

abbrev Column := List Float

/-- Named columns in table order. -/
structure Table where
  columns : List (String × Column) := []
deriving Repr, BEq, DecidableEq, Inhabited

inductive TableError where
  | lengthMismatch (column : String) (expected actual : Nat)
  | rowWidthMismatch (row expected actual : Nat)
  | columnNotFound (name : String)
  | duplicateColumn (name : String)
  | columnCountMismatch (names columns : Nat)
deriving Repr, DecidableEq

def TableError.message : TableError → String
  | .lengthMismatch column expected actual =>
      s!"Column '{column}' has {actual} rows, table has {expected}"
  | .rowWidthMismatch row expected actual =>
      s!"Row {row} has {actual} values, expected {expected}"
  | .columnNotFound name => s!"Column not found: {name}"
  | .duplicateColumn name => s!"Duplicate column: {name}"
  | .columnCountMismatch names columns =>
      s!"Table has {names} column names but {columns} columns"

namespace Table

def empty : Table := {}

def names (t : Table) : List String :=
  t.columns.map Prod.fst

def width (t : Table) : Nat :=
  t.columns.length

/-- The number of rows; a table without columns has none. -/
def height (t : Table) : Nat :=
  match t.columns with
  | [] => 0
  | (_, values) :: _ => values.length

def isEmpty (t : Table) : Bool :=
  t.columns.isEmpty

def column? (t : Table) (name : String) : Option Column :=
  t.columns.lookup name

def contains (t : Table) (name : String) : Bool :=
  (t.column? name).isSome

/-- What every table built by the operations below satisfies. -/
structure Valid (t : Table) : Prop where
  distinct : t.names.Nodup
  aligned : ∀ entry ∈ t.columns, entry.2.length = t.height

theorem valid_empty : empty.Valid := ⟨List.nodup_nil, by simp [empty]⟩

/-- A column put under a name takes the place of the column that has the name, or the last place. -/
def putColumn (name : String) (values : Column) : List (String × Column) → List (String × Column)
  | [] => [(name, values)]
  | entry :: rest =>
      if entry.1 = name then (name, values) :: rest else entry :: putColumn name values rest

def put (t : Table) (name : String) (values : Column) : Table :=
  ⟨putColumn name values t.columns⟩

/-- The only column of a table may be replaced by one of any length. -/
def insert (t : Table) (name : String) (values : Column) : Except TableError Table :=
  let others := if t.contains name then t.width - 1 else t.width
  if 0 < others ∧ values.length ≠ t.height then
    .error (.lengthMismatch name t.height values.length)
  else .ok (t.put name values)

def insertAll (t : Table) (columns : List (String × Column)) : Except TableError Table :=
  columns.foldlM (fun table entry => table.insert entry.1 entry.2) t

def ofColumns (columns : List (String × Column)) : Except TableError Table :=
  empty.insertAll columns

def firstRepeatAfter (earlier : List String) : List String → Option String
  | [] => none
  | name :: rest =>
      if earlier.contains name then some name else firstRepeatAfter (name :: earlier) rest

def firstRepeat? (names : List String) : Option String :=
  firstRepeatAfter [] names

def checkDistinct (names : List String) : Except TableError Unit :=
  match firstRepeat? names with
  | some name => .error (.duplicateColumn name)
  | none => .ok ()

/-- Pairs names and columns that were stored apart. -/
def ofParts (names : List String) (columns : List Column) : Except TableError Table := do
  if names.length ≠ columns.length then
    throw (.columnCountMismatch names.length columns.length)
  checkDistinct names
  ofColumns (names.zip columns)

/-- Rows become columns by taking heads. -/
def columnsOfRows : List String → List (List Float) → List (String × Column)
  | [], _ => []
  | name :: names, rows =>
      (name, rows.filterMap List.head?) :: columnsOfRows names (rows.map List.tail)

def checkWidths (width : Nat) : Nat → List (List Float) → Except TableError Unit
  | _, [] => .ok ()
  | index, row :: rows =>
      if row.length = width then checkWidths width (index + 1) rows
      else .error (.rowWidthMismatch index width row.length)

def ofRows (names : List String) (rows : List (List Float)) : Except TableError Table := do
  checkDistinct names
  checkWidths names.length 0 rows
  return ⟨columnsOfRows names rows⟩

def row? (t : Table) (index : Nat) : Option (List Float) :=
  t.columns.mapM fun entry => entry.2[index]?

def rows (t : Table) : List (List Float) :=
  (List.range t.height).filterMap t.row?

def get (t : Table) (name : String) : Except TableError Column :=
  match t.column? name with
  | some values => .ok values
  | none => .error (.columnNotFound name)

/-- The named columns in the order of their first naming. -/
def select (t : Table) (names : List String) : Except TableError Table :=
  names.foldlM (fun selected name => do selected.insert name (← t.get name)) empty

/-- The rows of `other` below those of the table; the columns are matched by name. -/
def append (t other : Table) : Except TableError Table :=
  if t.isEmpty then .ok other
  else do
    let columns ← t.columns.mapM fun (name, values) => do
      return (name, values ++ (← other.get name))
    return ⟨columns⟩

end Table

/-- A table together with the proof of its validity. -/
structure ValidTable extends Table where
  valid : toTable.Valid

instance : Coe ValidTable Table := ⟨ValidTable.toTable⟩

def ValidTable.empty : ValidTable := ⟨Table.empty, Table.valid_empty⟩

end FeatureTable
