import FeatureTable.Yaml.Token.Gap

namespace FeatureTable.Yaml

/-!
A plain scalar ends at a comment, at a colon that ends a word and, inside brackets, at a flow
indicator.
-/

/-- Reads one word onto `text`, which holds its characters last first. -/
def readPlainWord (flow : Bool) (text : List Char) :
    List Char → Except Error (List Char × List Char)
  | [] => .ok (text, [])
  | c :: rest =>
      let next := rest.head?
      if endsWord (some c) then .ok (text, c :: rest)
      else if flow && c == ':' && next.any (fun d => isFlowIndicator d || d == '?') then
        .error .unexpectedCharacter
      else if (c == ':' && endsWord next) || (flow && isFlowIndicator c) then
        .ok (text, c :: rest)
      else readPlainWord flow (c :: text) rest

/-- A scalar and whether a line break follows it. -/
structure PlainScalar where
  text : List Char
  broken : Bool

/-- Reads words until the scalar ends.  A gap is written only when a word follows it. -/
def readPlainFrom (flow : Bool) (margin : Nat) (text : List Char) (pending : Gap) (c : Cursor) :
    Except Error (PlainScalar × Cursor) := do
  let broken := pending.firstBreak.isSome
  if c.atDocumentMarker || c.head? == some '#' then
    return ({ text, broken }, c)
  let (word, rest) ← readPlainWord flow [] c.rest
  let afterWord := c.moveTo rest
  let text := if word.isEmpty then text else word ++ pending.folded ++ text
  let pending := if word.isEmpty then pending else {}
  let broken := pending.firstBreak.isSome
  if !endsWord afterWord.head? || afterWord.rest.isEmpty then
    return ({ text, broken }, afterWord)
  let (gap, next) ← afterWord.readGap margin {}
  if !flow && next.column < margin then
    return ({ text, broken := gap.firstBreak.isSome }, next)
  if _progress : next.rest.length < c.rest.length then
    readPlainFrom flow margin text gap next
  else return ({ text, broken := gap.firstBreak.isSome }, next)
termination_by c.rest.length

def readPlain (flow : Bool) (margin : Nat) (c : Cursor) : Except Error (PlainScalar × Cursor) :=
  readPlainFrom flow margin [] {} c

end FeatureTable.Yaml
