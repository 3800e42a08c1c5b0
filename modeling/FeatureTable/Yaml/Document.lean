import FeatureTable.Yaml.Node.Link
import FeatureTable.Yaml.Node.OfTokens
import FeatureTable.Yaml.Scalar
import FeatureTable.Yaml.Token.Scan
import FeatureTable.Yaml.Value.Same

namespace FeatureTable.Yaml

/-- The value of a plain scalar is decided by its text, that of another one is the text itself. -/
def plainValue (text : String) : Except Error Value :=
  if text.isEmpty || isNull text then .ok .null
  else
    match readBool? text with
    | some b => .ok (.bool b)
    | none =>
        match readHeldInt text with
        | .held n => .ok (.int n)
        | .tooLarge => .error .malformedScalar
        | .none =>
            if hasLeadingZero text.toList then .ok (.string text)
            else .ok (((readFloat? text).map Value.float).getD (.string text))

def untaggedScalar (text : String) (style : Style) : Except Error Value :=
  if style == .plain then plainValue text else .ok (.string text)

/-- Only a tag of one's own changes the value of a collection. -/
def applyTag (tag : Option Tag) (value : Value) : Value :=
  match tag with
  | some (.own name) => .tagged name value
  | _ => value

def scalarValue (tag : Option Tag) (text : String) (style : Style) : Except Error Value :=
  let required : Option Value → Except Error Value
    | some v => .ok v
    | none => .error .malformedScalar
  match tag with
  | none => untaggedScalar text style
  | some .bool => required ((readBool? text).map .bool)
  | some .null => required (if isNull text then some .null else none)
  | some .float => required ((readFloat? text).map .float)
  | some .int =>
      match readHeldInt text with
      | .held n => .ok (.int n)
      | _ => .error .malformedScalar
  | some (.own name) => do return .tagged name (← untaggedScalar text style)
  | some .foreign => .ok (.string text)

namespace Document

/-- Puts the entries in order; no key may come twice. -/
def distinctEntries (entries : List (Value × Value)) : Except Error (List (Value × Value)) := do
  let reversed ← entries.foldlM (fun (seen : List (Value × Value)) entry =>
    if seen.any fun other => other.1.same entry.1 then .error .duplicateKey
    else .ok (entry :: seen)) []
  return reversed.reverse

/-- Collections may be nested `depth` deep; aliases count with what they stand for. -/
def readValue (d : Document) : Nat → Node Nat → DocumentReader Value
  | 0, node => do
      match ← d.follow node with
      | .scalar _ tag text style => scalarValue tag text style
      | _ => throw .nestedTooDeeply
  | depth + 1, node => do
      match ← d.follow node with
      | .scalar _ tag text style => scalarValue tag text style
      | .sequence _ tag items =>
          let items ← items.mapM (readValue d depth)
          return applyTag tag (.sequence items)
      | .mapping _ tag entries =>
          let entries ← entries.mapM fun (key, value) => do
            let key ← readValue d depth key
            return (key, ← readValue d depth value)
          return applyTag tag (.mapping (← distinctEntries entries))
      | .alias _ => throw .unknownAnchor

def readText (d : Document) (node : Node Nat) : DocumentReader String := do
  match ← d.follow node with
  | .scalar _ _ text _ => return text
  | _ => throw .unexpectedNode

def holdsInt (tag : Option Tag) : Style → Bool
  | .plain => true
  | .literal => tag == some .int
  | _ => false

def readIndex (d : Document) (node : Node Nat) : DocumentReader Nat := do
  match ← d.follow node with
  | .scalar _ tag text style =>
      match readIndex? text with
      | some n => if holdsInt tag style then return n else throw .unexpectedNode
      | none => throw .unexpectedNode
  | _ => throw .unexpectedNode

def isOmitted (text : String) (style : Style) : Bool :=
  text.isEmpty && style == .plain

/-- A list may be left out. -/
def readTexts (d : Document) (node : Node Nat) : DocumentReader (List String) := do
  match ← d.follow node with
  | .sequence _ _ items => items.mapM d.readText
  | .scalar _ _ text style => if isOmitted text style then return [] else throw .unexpectedNode
  | _ => throw .unexpectedNode

abbrev Fields := List (String × Node Nat)

/-- The fields of a mapping, which may be left out.  A known field may not come twice. -/
def readFields (d : Document) (known : List String) (node : Node Nat) : DocumentReader Fields := do
  match ← d.follow node with
  | .mapping _ _ entries =>
      entries.foldlM (fun (fields : Fields) (key, value) => do
        let name ← d.readText key
        if known.contains name && fields.any (·.1 == name) then throw .duplicateKey
        return fields ++ [(name, value)]) []
  | .scalar _ _ text style => if isOmitted text style then return [] else throw .unexpectedNode
  | _ => throw .unexpectedNode

def require (fields : Fields) (name : String) : DocumentReader (Node Nat) :=
  match fields.lookup name with
  | some node => return node
  | none => throw (.missingField name)

/-- A text without a document is read as a scalar that was left out. -/
def ofText (text : String) : Except Error Document := do
  let node ← Node.ofTokens? (← tokens text)
  ofNode (node.getD .empty)

def maxDepth : Nat := 128

def read (text : String) (reader : Document → DocumentReader α) : Except Error α := do
  let d ← ofText text
  return (← (reader d).run 0).1

end Document

def Value.ofText (text : String) : Except Error Value :=
  Document.read text fun d => d.readValue Document.maxDepth d.root

end FeatureTable.Yaml
