import FeatureTable.Yaml.Token.Basic
import FeatureTable.Yaml.Token.Block
import FeatureTable.Yaml.Token.Name

namespace FeatureTable.Yaml

def readVersionNumber (c : Cursor) : Except Error (Nat × Cursor) :=
  let (digits, c) := c.takeWhile Char.isDigit
  if digits.isEmpty || 9 < digits.length then .error .malformedDirective
  else .ok (digits.foldl (fun n d => 10 * n + (d.toNat - '0'.toNat)) 0, c)

def readVersion (c : Cursor) : Except Error (Token × Cursor) := do
  let (major, c) ← readVersionNumber (c.skipWhile isSpace)
  if c.head? != some '.' then throw .malformedDirective
  let (minor, c) ← readVersionNumber (c.advance 1)
  return (.version major minor, c)

/-- A handle is an exclamation mark, or two around a name. -/
def readHandle (c : Cursor) : Except Error (String × Cursor) := do
  if c.head? != some '!' then throw .malformedDirective
  let (name, c) := (c.advance 1).takeWhile isWordChar
  if c.head? == some '!' then return (String.ofList ('!' :: name ++ ['!']), c.advance 1)
  if name.isEmpty then return ("!", c)
  throw .malformedDirective

def readTagHandle (c : Cursor) : Except Error (Token × Cursor) := do
  let (handle, c) ← readHandle (c.skipWhile isSpace)
  if !c.head?.any isSpace then throw .malformedDirective
  let (expansion, c) ← readTagSuffix true false (c.skipWhile isSpace)
  if !endsWord c.head? then throw .malformedDirective
  return (.tagHandle handle expansion, c)

def readDirective (c : Cursor) : Except Error (Token × Cursor) := do
  let (name, c) := c.takeWhile isWordChar
  if !endsWord c.head? then throw .malformedDirective
  let (token, c) ←
    match String.ofList name with
    | "YAML" => readVersion c
    | "TAG" => readTagHandle c
    | _ => throw .malformedDirective
  return (token, ← readLineEnd c)

end FeatureTable.Yaml
