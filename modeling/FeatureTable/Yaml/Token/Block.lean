import FeatureTable.Yaml.Cursor

namespace FeatureTable.Yaml

inductive Chomping where
  | strip
  | clip
  | keep
deriving DecidableEq

structure BlockHeader where
  chomping : Chomping := .clip
  increment : Nat := 0

def chomping? : Char → Option Chomping
  | '+' => some .keep
  | '-' => some .strip
  | _ => none

def readIncrement (c : Cursor) : Except Error (Nat × Cursor) :=
  match c.head? with
  | some d =>
      if d == '0' then .error .malformedIndentation
      else if d.isDigit then .ok (d.toNat - '0'.toNat, c.advance 1)
      else .ok (0, c)
  | none => .ok (0, c)

def readChomping (c : Cursor) : Chomping × Cursor :=
  match c.head?.bind chomping? with
  | some chomping => (chomping, c.advance 1)
  | none => (.clip, c)

/-- The two marks come in either order. -/
def readBlockHeader (c : Cursor) : Except Error (BlockHeader × Cursor) := do
  match c.head?.bind chomping? with
  | some chomping =>
      let (increment, c) ← readIncrement (c.advance 1)
      return ({ chomping, increment }, c)
  | none =>
      let (increment, c) ← readIncrement c
      if increment = 0 then return ({}, c)
      let (chomping, c) := readChomping c
      return ({ chomping, increment }, c)

/-- Only blanks and a comment may fill the rest of a line. -/
def readLineEnd (c : Cursor) : Except Error Cursor :=
  let c := c.skipWhile isSpace
  let c := if c.head? == some '#' then c.skipToBreak else c
  if endsLine c.head? then .ok c.skipBreak else .error .unexpectedCharacter

structure BlockBreaks where
  breaks : List Char := []
  deepest : Nat := 0

/-- Reads empty lines and the indentation of the line after them.  An `indent` of zero is not known
yet: then all leading spaces count. -/
def readBlockBreaks (indent : Nat) (b : BlockBreaks) (offset line column : Nat) :
    List Char → Except Error (BlockBreaks × Cursor)
  | [] => .ok ({ b with deepest := max b.deepest column }, { rest := [], offset, line, column })
  | c :: rest =>
      let indenting := indent == 0 || column < indent
      if indenting && c == ' ' then readBlockBreaks indent b (offset + 1) line (column + 1) rest
      else
        let b := { b with deepest := max b.deepest column }
        if indenting && c == '\t' then .error .malformedIndentation
        else if isBreak c then
          let b := { b with breaks := breakText c :: b.breaks }
          match c, rest with
          | '\r', '\n' :: rest => readBlockBreaks indent b (offset + 2) (line + 1) 0 rest
          | _, rest => readBlockBreaks indent b (offset + c.utf8Size) (line + 1) 0 rest
        else .ok (b, { rest := c :: rest, offset, line, column })

def Cursor.readBlockBreaks (c : Cursor) (indent : Nat) : Except Error (BlockBreaks × Cursor) :=
  Yaml.readBlockBreaks indent {} c.offset c.line c.column c.rest

structure BlockText where
  text : List Char := []
  lastBreak : List Char := []
  emptyLines : List Char := []
  afterBlank : Bool := false

/-- The text before the next line.  A folded scalar joins two lines that start with no blank. -/
def BlockText.joined (b : BlockText) (folded startsBlank : Bool) : List Char :=
  if folded && b.lastBreak == ['\n'] && !b.afterBlank && !startsBlank then
    if b.emptyLines.isEmpty then ' ' :: b.text else b.emptyLines ++ b.text
  else b.emptyLines ++ b.lastBreak ++ b.text

def BlockText.chomped (b : BlockText) : Chomping → List Char
  | .strip => b.text
  | .clip => b.lastBreak ++ b.text
  | .keep => b.emptyLines ++ b.lastBreak ++ b.text

def readBlockLines (folded : Bool) (indent : Nat) (b : BlockText) (c : Cursor) :
    Except Error (BlockText × Cursor) := do
  if c.column != indent || c.rest.isEmpty then return (b, c)
  let startsBlank := c.head?.any isSpace
  let (line, lineEnd) := c.takeWhile fun d => !isBreak d
  let text := line.reverse ++ b.joined folded startsBlank
  let lastBreak := (lineEnd.head?.map breakText).toList
  let (breaks, next) ← lineEnd.skipBreak.readBlockBreaks indent
  let b := { text, lastBreak, emptyLines := breaks.breaks, afterBlank := startsBlank }
  if _progress : next.rest.length < c.rest.length then readBlockLines folded indent b next
  else return (b, next)
termination_by c.rest.length

/-- Reads a scalar behind its indicator; `margin` is the least indentation of its lines. -/
def readBlock (folded : Bool) (parent : Int) (c : Cursor) : Except Error (String × Cursor) := do
  let (header, c) ← readBlockHeader c
  let c ← readLineEnd c
  let stated := if header.increment = 0 then 0 else (max parent 0).toNat + header.increment
  let (breaks, c) ← c.readBlockBreaks stated
  let indent := if stated = 0 then max breaks.deepest (max (parent + 1).toNat 1) else stated
  let (b, c) ← readBlockLines folded indent { emptyLines := breaks.breaks } c
  return (String.ofList (b.chomped header.chomping).reverse, c)

end FeatureTable.Yaml
