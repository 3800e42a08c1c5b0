import FeatureTable.Yaml.Cursor

namespace FeatureTable.Yaml

/-!
Names of anchors, tags and directives.  A tag is a handle and a suffix: `!suffix` has the handle
`!`, `!name!suffix` the handle `!name!`, and a verbatim tag `!<suffix>` none.  The bare tag `!` is
all suffix.
-/

def endsAnchor : Option Char → Bool
  | none => true
  | some c => endsWord (some c) || ['?', ':', ',', ']', '\x7d', '%', '@', '\x60'].contains c

def readAnchor (c : Cursor) : Except Error (String × Cursor) :=
  let (name, c) := c.takeWhile isWordChar
  if name.isEmpty || !endsAnchor c.head? then .error .malformedAnchor
  else .ok (String.ofList name, c)

/-- How many bytes the character has whose first byte is given. -/
def encodedLength? (byte : Nat) : Option Nat :=
  if byte < 0x80 then some 1
  else if byte / 0x20 = 6 then some 2
  else if byte / 0x10 = 14 then some 3
  else if byte / 8 = 30 then some 4
  else none

/-- The escapes that stand for one character: a percent sign and two digits for every byte.  Only
the length of the character is checked.  The bytes come last first. -/
def readEncoded (left : Nat) (bytes : List UInt8) :
    List Char → Except Error (List UInt8 × List Char)
  | '%' :: high :: low :: rest =>
      match hexValue? high, hexValue? low with
      | some high, some low =>
          let byte := 16 * high + low
          if left = 0 then
            match encodedLength? byte with
            | none => .error .malformedTag
            | some 1 => .ok ([byte.toUInt8], rest)
            | some length => readEncoded (length - 1) [byte.toUInt8] rest
          else if byte / 64 ≠ 2 then .error .malformedTag
          else if left = 1 then .ok (byte.toUInt8 :: bytes, rest)
          else readEncoded (left - 1) (byte.toUInt8 :: bytes) rest
      | _, _ => .error .malformedTag
  | _ => .error .malformedTag

def isTagChar (verbatim : Bool) (c : Char) : Bool :=
  isWordChar c || ";/?:@&=+$.!~*'()".toList.contains c ||
    (verbatim && (c == ',' || c == '[' || c == ']'))

def asciiBytes (cs : List Char) : List UInt8 :=
  cs.map fun c => c.toNat.toUInt8

/-- Reads the characters of a tag onto `bytes`, last byte first. -/
def readTagBytes (verbatim : Bool) (bytes : List UInt8) (rest : List Char) :
    Except Error (List UInt8 × List Char) := do
  if rest.head? == some '%' then
    let (encoded, next) ← readEncoded 0 [] rest
    if _progress : next.length < rest.length then
      readTagBytes verbatim (encoded ++ bytes) next
    else throw .malformedTag
  else
    let (plain, next) := (rest.takeWhile (isTagChar verbatim), rest.dropWhile (isTagChar verbatim))
    let bytes := (asciiBytes plain).reverse ++ bytes
    if next.head? == some '%' then
      if _progress : next.length < rest.length then readTagBytes verbatim bytes next
      else throw .malformedTag
    else return (bytes, next)
termination_by rest.length

/-- Reads at least one character of a tag, unless some were read before.  A zero byte ends what is
kept of it. -/
def readTagSuffix (verbatim optional : Bool) (c : Cursor) :
    Except Error (List UInt8 × Cursor) := do
  let (bytes, rest) ← readTagBytes verbatim [] c.rest
  if !optional && rest.length = c.rest.length then throw .malformedTag
  return (bytes.reverse.takeWhile (· != 0), c.moveTo rest)

def readVerbatim (c : Cursor) : Except Error ((String × List UInt8) × Cursor) := do
  let (suffix, c) ← readTagSuffix true false c
  if c.head? != some '>' then throw .malformedTag
  return (("", suffix), c.advance 1)

/-- Reads a handle and a suffix; the cursor stands on the exclamation mark. -/
def readShorthand (c : Cursor) : Except Error ((String × List UInt8) × Cursor) := do
  let (name, afterName) := (c.advance 1).takeWhile isWordChar
  if afterName.head? == some '!' then
    let (suffix, next) ← readTagSuffix false false (afterName.advance 1)
    return ((String.ofList ('!' :: name ++ ['!']), suffix), next)
  else
    let (rest, next) ← readTagSuffix false true afterName
    let suffix := asciiBytes name ++ rest
    return (if suffix.isEmpty then ("", asciiBytes ['!']) else ("!", suffix), next)

/-- A blank, or inside brackets a comma, must follow a tag. -/
def readTag (flow : Bool) (c : Cursor) : Except Error ((String × List UInt8) × Cursor) := do
  let (tag, next) ←
    if c.second? == some '<' then readVerbatim (c.advance 2) else readShorthand c
  if !(flow && next.head? == some ',') && !endsWord next.head? then throw .malformedTag
  return (tag, next)

end FeatureTable.Yaml
