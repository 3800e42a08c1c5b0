import FeatureTable.Csv.Record
import FeatureTable.Decimal.Plain
import FeatureTable.Decimal.Read
import FeatureTable.Failure
import FeatureTable.Text.Blank

namespace FeatureTable.Csv

def writeTable (t : Table) : String :=
  String.ofList
    (writeRecord t.names ++ (t.rows.map fun row => writeRecord (row.map Decimal.plain)).flatten)

/-- Blanks around a number do not count. -/
def readCell (row : Nat) (column text : String) : Except Failure Float :=
  match Decimal.readChars? (Text.trim text.toList) with
  | some x => .ok x
  | none => .error (.data (.cell row column text))

def readCells (row : Nat) : List String → List String → Except Failure (List Float)
  | column :: columns, text :: texts => do
      let x ← readCell row column text
      return x :: (← readCells row columns texts)
  | _, _ => .ok []

def readRow (names : List String) (row : Nat) (record : List Field) :
    Except Failure (List Float) := do
  if record.length ≠ names.length then
    throw (.csv (.unequalLengths names.length record.length))
  match recordTexts? record with
  | none => throw (.csv .notText)
  | some texts => readCells row names texts

def readRows (names : List String) (row : Nat) :
    List (List Field) → Except Failure (List (List Float))
  | [] => .ok []
  | record :: records => do
      let values ← readRow names row record
      return values :: (← readRows names (row + 1) records)

structure Contents where
  names : List String
  rows : List (List Float)

/-- A file without records is the table without columns. -/
def readContents (bytes : List UInt8) : Except Failure Contents := do
  let all := records bytes
  let names ←
    match recordTexts? (all.headD []) with
    | some names => pure names
    | none => throw (.csv .notText)
  return ⟨names, ← readRows names 0 all.tail⟩

def Contents.toTable (contents : Contents) : Except Failure Table :=
  (Table.ofRows contents.names contents.rows).mapError .ofTableError

end FeatureTable.Csv
