import FeatureTable.Yaml.Token.Basic
import FeatureTable.Yaml.Token.Block
import FeatureTable.Yaml.Token.Directive
import FeatureTable.Yaml.Token.Name
import FeatureTable.Yaml.Token.Plain
import FeatureTable.Yaml.Token.Quoted

namespace FeatureTable.Yaml

/-!
Reading the tokens of a text.  Indentation opens and closes block collections.  That something is
a mapping key shows only at the colon behind it, so the place of everything that may still become a
key is remembered, one place for every level of brackets.
-/

/-- A place where a key may start: the number of the token and where it stands.  It is required
where nothing but a key fits the indentation. -/
structure KeyPlace where
  token : Nat
  required : Bool
  offset : Nat
  line : Nat
  column : Nat

/-- A key lies on one line and is at most 1024 bytes long. -/
def KeyPlace.isPassed (k : KeyPlace) (c : Cursor) : Bool :=
  k.line < c.line || k.offset + 1024 < c.offset

structure Layout where
  cursor : Cursor
  tokens : Array Token := #[]
  /-- The indentation of the innermost block collection; outside all of them it is -1. -/
  indent : Int := -1
  outerIndents : List Int := []
  keyPlace : Option KeyPlace := none
  /-- The places at the levels outside the innermost brackets. -/
  outerPlaces : List (Option KeyPlace) := []
  keyAllowed : Bool := true

namespace Layout

def inFlow (s : Layout) : Bool :=
  !s.outerPlaces.isEmpty

def push (s : Layout) (t : Token) : Layout :=
  { s with tokens := s.tokens.push t }

def advance (s : Layout) (count : Nat) : Layout :=
  { s with cursor := s.cursor.advance count }

def allowKey (s : Layout) (allowed : Bool) : Layout :=
  { s with keyAllowed := allowed }

def forgetPassed (c : Cursor) : Option KeyPlace → Except Error (Option KeyPlace)
  | none => .ok none
  | some k =>
      if !k.isPassed c then .ok (some k)
      else if k.required then .error .missingColon
      else .ok none

def dropPassedPlaces (s : Layout) : Except Error Layout := do
  let keyPlace ← forgetPassed s.cursor s.keyPlace
  let outerPlaces ← s.outerPlaces.mapM (forgetPassed s.cursor)
  return { s with keyPlace, outerPlaces }

def dropPlace (s : Layout) : Except Error Layout :=
  match s.keyPlace with
  | some k => if k.required then .error .missingColon else .ok { s with keyPlace := none }
  | none => .ok s

def savePlace (s : Layout) : Except Error Layout :=
  if s.keyAllowed then do
    let s ← s.dropPlace
    let required := !s.inFlow && s.indent == s.cursor.column
    let c := s.cursor
    return { s with keyPlace := some ⟨s.tokens.size, required, c.offset, c.line, c.column⟩ }
  else .ok s

/-- Indentation means nothing inside brackets. -/
def closeBlocks (indents : List Int) (column indent : Int) (tokens : Array Token) :
    List Int × Int × Array Token :=
  match indents with
  | outer :: rest =>
      if column < indent then closeBlocks rest column outer (tokens.push .blockEnd)
      else (indents, indent, tokens)
  | [] => ([], indent, tokens)

def unroll (s : Layout) (column : Int) : Layout :=
  if s.inFlow then s
  else
    let (outerIndents, indent, tokens) := closeBlocks s.outerIndents column s.indent s.tokens
    { s with outerIndents, indent, tokens }

/-- Opens a block collection at a column right of the indentation, before the token numbered
`token`. -/
def roll (s : Layout) (column token : Nat) (start : Token) : Layout :=
  if s.inFlow || (column : Int) ≤ s.indent then s
  else
    { s with
      outerIndents := s.indent :: s.outerIndents
      indent := column
      tokens := s.tokens.insertIdxIfInBounds token start }

def rollHere (s : Layout) (start : Token) : Layout :=
  s.roll s.cursor.column s.tokens.size start

/-! Blanks, comments and line breaks before a token.  Outside brackets a key may follow a line
break, and no tab stands where a key may.  A mark of byte order may open any line; it takes a
column, so what follows it is indented. -/

def isGapChar (flow keyAllowed : Bool) (column : Nat) (c : Char) : Bool :=
  c == ' ' || (c == '\t' && (flow || !keyAllowed)) || (c == '\ufeff' && column == 0)

def gapBefore (flow keyAllowed comment : Bool) (offset line column : Nat) :
    List Char → Cursor × Bool
  | '\r' :: '\n' :: rest =>
      gapBefore flow (keyAllowed || !flow) false (offset + 2) (line + 1) 0 rest
  | c :: rest =>
      if isBreak c then
        gapBefore flow (keyAllowed || !flow) false (offset + c.utf8Size) (line + 1) 0 rest
      else if comment || c == '#' then
        gapBefore flow keyAllowed true (offset + c.utf8Size) line (column + 1) rest
      else if isGapChar flow keyAllowed column c then
        gapBefore flow keyAllowed false (offset + c.utf8Size) line (column + 1) rest
      else ({ rest := c :: rest, offset, line, column }, keyAllowed)
  | [] => ({ rest := [], offset, line, column }, keyAllowed)

def skipGap (s : Layout) : Layout :=
  let c := s.cursor
  let (cursor, keyAllowed) := gapBefore s.inFlow s.keyAllowed false c.offset c.line c.column c.rest
  { s with cursor, keyAllowed }

def atDirective (s : Layout) (c : Cursor) : Except Error Layout := do
  let s ← (s.unroll (-1)).dropPlace
  let (token, cursor) ← readDirective (c.advance 1)
  return { s.push token with cursor, keyAllowed := false }

def atDocumentMarker (s : Layout) (token : Token) : Except Error Layout := do
  let s ← (s.unroll (-1)).dropPlace
  return ((s.push token).advance 3).allowKey false

def atFlowStart (s : Layout) (token : Token) : Except Error Layout := do
  let s ← s.savePlace
  let s := { s with keyPlace := none, outerPlaces := s.keyPlace :: s.outerPlaces }
  return ((s.push token).advance 1).allowKey true

def atFlowEnd (s : Layout) (token : Token) : Except Error Layout := do
  let s ← s.dropPlace
  let s :=
    match s.outerPlaces with
    | keyPlace :: outerPlaces => { s with keyPlace, outerPlaces }
    | [] => s
  return ((s.push token).advance 1).allowKey false

def atFlowEntry (s : Layout) : Except Error Layout := do
  let s ← s.dropPlace
  return ((s.push .flowEntry).advance 1).allowKey true

def atBlockEntry (s : Layout) : Except Error Layout := do
  if !s.inFlow && !s.keyAllowed then throw .misplacedIndicator
  let s ← (s.rollHere .blockSequenceStart).dropPlace
  return ((s.push .blockEntry).advance 1).allowKey true

def atKey (s : Layout) : Except Error Layout := do
  if !s.inFlow && !s.keyAllowed then throw .misplacedIndicator
  let s ← (s.rollHere .blockMappingStart).dropPlace
  return ((s.push .key).advance 1).allowKey !s.inFlow

/-- The colon turns what stands at the remembered place into a key. -/
def atValue (s : Layout) : Except Error Layout :=
  match s.keyPlace with
  | some k =>
      let s := { s with tokens := s.tokens.insertIdxIfInBounds k.token .key, keyPlace := none }
      let s := s.roll k.column k.token .blockMappingStart
      .ok (((s.push .value).advance 1).allowKey false)
  | none =>
      if !s.inFlow && !s.keyAllowed then .error .misplacedIndicator
      else
        let s := s.rollHere .blockMappingStart
        .ok (((s.push .value).advance 1).allowKey !s.inFlow)

def atAnchor (s : Layout) (token : String → Token) : Except Error Layout := do
  let s ← s.savePlace
  let (name, cursor) ← readAnchor (s.cursor.advance 1)
  return { s.push (token name) with cursor, keyAllowed := false }

def atTag (s : Layout) : Except Error Layout := do
  let s ← s.savePlace
  let ((handle, suffix), cursor) ← readTag s.inFlow s.cursor
  return { s.push (.tag handle suffix) with cursor, keyAllowed := false }

def atBlockScalar (s : Layout) (style : Style) : Except Error Layout := do
  let s ← s.dropPlace
  let (text, cursor) ← readBlock (style == .folded) s.indent (s.cursor.advance 1)
  return { s.push (.scalar text style) with cursor, keyAllowed := true }

def atQuoted (s : Layout) (style : Style) : Except Error Layout := do
  let s ← s.savePlace
  let (text, cursor) ← readQuoted (style == .doubleQuoted) (s.cursor.advance 1)
  return { s.push (.scalar text style) with cursor, keyAllowed := false }

def atPlain (s : Layout) : Except Error Layout := do
  let s ← s.savePlace
  let (scalar, cursor) ← readPlain s.inFlow (s.indent + 1).toNat s.cursor
  let text := String.ofList scalar.text.reverse
  return { s.push (.scalar text .plain) with cursor, keyAllowed := scalar.broken }

def startsPlain (flow : Bool) (c : Char) (next : Option Char) : Bool :=
  if c == '-' then !next.any isSpace
  else if c == '?' || c == ':' then !flow && !endsWord next
  else !endsWord (some c) && !",[]\x7b\x7d#&*!|>'\"%@`".toList.contains c

def readToken (s : Layout) (first : Char) : Except Error Layout :=
  let c := s.cursor
  let next := c.second?
  let indicates := s.inFlow || endsWord next
  if c.column == 0 && first == '%' then s.atDirective c
  else if c.atMarker '-' then s.atDocumentMarker .documentStart
  else if c.atMarker '.' then s.atDocumentMarker .documentEnd
  else if first == '[' then s.atFlowStart .flowSequenceStart
  else if first == '\x7b' then s.atFlowStart .flowMappingStart
  else if first == ']' then s.atFlowEnd .flowSequenceEnd
  else if first == '\x7d' then s.atFlowEnd .flowMappingEnd
  else if first == ',' then s.atFlowEntry
  else if first == '-' && endsWord next then s.atBlockEntry
  else if first == '?' && indicates then s.atKey
  else if first == ':' && indicates then s.atValue
  else if first == '*' then s.atAnchor .alias
  else if first == '&' then s.atAnchor .anchor
  else if first == '!' then s.atTag
  else if first == '|' && !s.inFlow then s.atBlockScalar .literal
  else if first == '>' && !s.inFlow then s.atBlockScalar .folded
  else if first == '\'' then s.atQuoted .singleQuoted
  else if first == '"' then s.atQuoted .doubleQuoted
  else if startsPlain s.inFlow first next then s.atPlain
  else .error .unexpectedCharacter

def finish (s : Layout) : Except Error (Array Token) := do
  return (← (s.unroll (-1)).dropPlace).tokens

def readTokens (s : Layout) : Except Error (Array Token) := do
  let afterGap ← s.skipGap.dropPassedPlaces
  let here := afterGap.unroll afterGap.cursor.column
  match here.cursor.head? with
  | none => here.finish
  | some first =>
      let next ← here.readToken first
      if _progress : next.cursor.rest.length < s.cursor.rest.length then readTokens next
      else throw .unexpectedCharacter
termination_by s.cursor.rest.length

end Layout

def tokens (text : String) : Except Error (List Token) := do
  let chars := text.toList
  if !chars.all isAllowed then throw .forbiddenCharacter
  return (← Layout.readTokens { cursor := { rest := chars } }).toList

end FeatureTable.Yaml
