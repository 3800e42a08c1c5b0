import FeatureTable.Dataset.Layout
import FeatureTable.Decimal.Read
import FeatureTable.Failure
import FeatureTable.Text.Blank

namespace FeatureTable

/-- The label of the rows of the first cloud is 0, that of the second 1. -/
def classColumn : String := "class"

/-- A cloud under the name that messages give it. -/
structure Cloud where
  name : String
  range : LineRange
  label : Float

namespace Cloud

/-- The marker `/n` may stand anywhere in a number. -/
def dropMarkers : List Char → List Char
  | '/' :: 'n' :: cs => dropMarkers cs
  | c :: cs => c :: dropMarkers cs
  | [] => []

def valueReason (cs : List Char) : String :=
  if cs.isEmpty then "cannot parse float from empty string" else "invalid float literal"

def readToken (line : Nat) (token : String) : Traced Failure Float :=
  let cs := dropMarkers token.toList
  match Decimal.readChars? cs with
  | some x => pure x
  | none => do
      Traced.record .error s!"Line {line}: cannot parse '{token}': {valueReason cs}"
      Traced.fail (.data (.lineValue line token))

/-- The row of a line: its values, then nothing but `NaN` up to the label. -/
def readRow (width : Nat) (label : Float) (line : Nat) (tokens : List String) :
    Traced Failure (List Float) := do
  if width < tokens.length then Traced.fail (.data (.longLine line tokens.length width))
  let values ← tokens.mapM (readToken line)
  return values ++ List.replicate (width - values.length) (0 / 0) ++ [label]

def readRows (width : Nat) (label : Float) (line : Nat) :
    List (List String) → Traced Failure (List (List Float))
  | [] => pure []
  | tokens :: rest => do
      let row ← readRow width label line tokens
      return row :: (← readRows width label (line + 1) rest)

def warnBoundary (c : Cloud) (width line : Nat) (tokens : List String) : Traced ε Unit := do
  if tokens.length ≠ width then
    Traced.record .warn
      s!"Line {line} of the {c.name} cloud has {tokens.length} values, expected {width}"

/-- The first and the last line of a cloud should fill all columns. -/
def warnBoundaries (c : Cloud) (width : Nat) (selected : List (List String)) : Traced ε Unit := do
  c.warnBoundary width c.range.left (selected.headD [])
  c.warnBoundary width (c.range.right - 1) (selected.getLastD [])

def select (range : LineRange) (lines : List α) : List α :=
  (lines.drop range.left).take (range.right - range.left)

def toTable (c : Cloud) (columns : List String) (lines : List (List String)) :
    Traced Failure Table := do
  if c.range.right ≤ c.range.left ∨ lines.length < c.range.right then
    Traced.fail (.data (.cloudRange c.name c.range.left c.range.right lines.length))
  let selected := select c.range lines
  c.warnBoundaries columns.length selected
  let rows ← readRows columns.length c.label c.range.left selected
  (Traced.ofExcept (Table.ofRows (columns ++ [classColumn]) rows)).mapError .ofTableError

end Cloud

def createDataset (text : String) (layout : DatasetLayout) : Traced Failure Table := do
  let lines := (Text.lines text).map Text.words
  let first ← Cloud.toTable ⟨"first", layout.first, 0⟩ layout.columns lines
  let second ← Cloud.toTable ⟨"second", layout.second, 1⟩ layout.columns lines
  let dataset ← (Traced.ofExcept (first.append second)).mapError .ofTableError
  Traced.record .info "Clean dataset created"
  return dataset

end FeatureTable
