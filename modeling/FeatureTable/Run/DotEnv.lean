import FeatureTable.Run.Overrides
import FeatureTable.Text.Alphanumeric
import FeatureTable.Text.Blank
import FeatureTable.Text.ByteOrderMark

namespace FeatureTable.DotEnv

/-!
A file of variables holds one assignment a line.  Quoted values and escaped line ends continue a
line.  The first line that cannot be read ends the file; what stands before it counts.
-/

inductive Quoting where
  | none
  /-- Right behind a blank, where a comment may start. -/
  | gap
  | escape
  | single
  | singleEscape
  | double
  | doubleEscape
deriving Repr, DecidableEq

def Quoting.open : Char → Quoting
  | '\\' => .escape
  | '"' => .double
  | '\'' => .single
  | _ => .none

/-- A blank behind a blank opens nothing. -/
def Quoting.next (c : Char) : Quoting → Quoting
  | .none =>
      if Text.isBlank c && c != '\n' && c != '\r' then .gap else Quoting.open c
  | .gap => Quoting.open c
  | .escape => .none
  | .single => if c = '\\' then .singleEscape else if c = '\'' then .none else .single
  | .singleEscape => .single
  | .double => if c = '\\' then .doubleEscape else if c = '"' then .none else .double
  | .doubleEscape => .double

/-- Where a line ends: with a comment, whose mark does not count, or in a state of quoting.  The
characters are held last first. -/
inductive LineEnd where
  | comment (before : List Char)
  | line (quoting : Quoting) (chars : List Char)

def scanLine (quoting : Quoting) (before : List Char) : List Char → LineEnd
  | [] => .line quoting before
  | c :: cs =>
      if quoting = .gap ∧ c = '#' then .comment before
      else scanLine (quoting.next c) (c :: before) cs

def opensComment (cs : List Char) : Bool :=
  (cs.dropWhile Text.isBlank).head? == some '#'

/-- The assignments of the lines, each line given with its line feed.  A comment line gives an empty
one; one that is still open at the end is none. -/
def joinLines (quoting : Quoting) (before : List Char) : List (List Char) → List (List Char)
  | [] => []
  | line :: lines =>
      if opensComment (before.reverse ++ line) then [] :: joinLines .none [] lines
      else
        match scanLine quoting before line with
        | .comment before => before.reverse :: joinLines .none [] lines
        | .line .none before => before.reverse :: joinLines .none [] lines
        | .line quoting before => joinLines quoting before lines

def isKeyStart (c : Char) : Bool :=
  c.isAlpha || c == '_'

def isKeyChar (c : Char) : Bool :=
  c.isAlphanum || c == '_' || c == '.'

def skipBlanks (cs : List Char) : List Char :=
  cs.dropWhile Text.isBlank

def readKey? (cs : List Char) : Option (String × List Char) :=
  if cs.head?.any isKeyStart then
    some (String.ofList (cs.takeWhile isKeyChar), skipBlanks (cs.dropWhile isKeyChar))
  else none

def readEquals? : List Char → Option (List Char)
  | '=' :: cs => some (skipBlanks cs)
  | _ => none

/-- The word `export` may stand before the key, or be the key. -/
def readKeyEquals? (cs : List Char) : Option (String × List Char) := do
  let (key, rest) ← readKey? cs
  match readEquals? rest with
  | some rest => return (key, rest)
  | none =>
      if key = "export" then
        let (key, rest) ← readKey? rest
        return (key, ← readEquals? rest)
      else none

inductive Place where
  | bare
  | single
  | double
  /-- Behind the value, where only a comment may follow. -/
  | ended
deriving Repr, DecidableEq

inductive Pending where
  | none
  | escape
  /-- In a name, held last first. -/
  | name (chars : List Char)
  | braced (chars : List Char)
deriving Repr, DecidableEq

def valueOf (environment : Environment) (reversedName : List Char) : List Char :=
  ((environment.lookup (String.ofList reversedName.reverse)).getD "").toList

def escaped? (c : Char) : Option Char :=
  if c = 'n' then some '\n'
  else if c = '\\' ∨ c = '\'' ∨ c = '"' ∨ c = '$' ∨ c = ' ' then some c
  else none

/-- A character that is not in a name, and not escaped. -/
def readPlain (c : Char) : Place → Place × Pending × List Char
  | .single => if c = '\'' then (.bare, .none, []) else (.single, .none, [c])
  | .double =>
      if c = '$' then (.double, .name [], [])
      else if c = '"' then (.bare, .none, [])
      else if c = '\\' then (.double, .escape, [])
      else (.double, .none, [c])
  | place =>
      if c = '$' then (place, .name [], [])
      else if c = '\'' then (.single, .none, [])
      else if c = '"' then (.double, .none, [])
      else if c = '\\' then (place, .escape, [])
      else if c = ' ' ∨ c = '\t' then (.ended, .none, [])
      else (place, .none, [c])

/-- The value at hand is held last first.  The character that ends a name is taken as it is. -/
def readValueFrom (environment : Environment) (place : Place) (pending : Pending)
    (value : List Char) : List Char → Option (List Char)
  | [] =>
      match place, pending with
      | .single, _ => none
      | .double, _ => none
      | _, .braced _ => none
      | _, .name chars => some (value.reverse ++ valueOf environment chars)
      | _, _ => some value.reverse
  | c :: cs =>
      match place, pending with
      | .ended, _ =>
          if c = ' ' ∨ c = '\t' then readValueFrom environment .ended .none value cs
          else if c = '#' then some value.reverse
          else none
      | place, .escape => do
          readValueFrom environment place .none ((← escaped? c) :: value) cs
      | place, .name chars =>
          if Text.isAlphanumeric c then
            readValueFrom environment place (.name (c :: chars)) value cs
          else if c = '\x7b' ∧ chars = [] then
            readValueFrom environment place (.braced []) value cs
          else
            let value := (valueOf environment chars).reverse ++ value
            if c = '$' then readValueFrom environment place (.name []) value cs
            else readValueFrom environment place .none (c :: value) cs
      | place, .braced chars =>
          if c = '\x7d' then
            readValueFrom environment place .none ((valueOf environment chars).reverse ++ value) cs
          else readValueFrom environment place (.braced (c :: chars)) value cs
      | place, .none =>
          let (place, pending, output) := readPlain c place
          readValueFrom environment place pending (output ++ value) cs

def readValue? (environment : Environment) (cs : List Char) : Option String :=
  (readValueFrom environment .bare .none [] cs).map String.ofList

inductive Line where
  | blank
  | assignment (key value : String)
deriving Repr, DecidableEq

def readLine? (environment : Environment) (line : List Char) : Option Line :=
  let cs := Text.trim line
  if cs.isEmpty || cs.head? == some '#' then some .blank
  else do
    let (key, rest) ← readKeyEquals? cs
    if rest.isEmpty || rest.head? == some '#' then return .assignment key ""
    return .assignment key (← readValue? environment rest)

/-- A variable that has a value keeps it. -/
def define (environment : Environment) (key value : String) : Environment :=
  if (environment.lookup key).isSome then environment else environment ++ [(key, value)]

def loadLines (environment : Environment) : List (List Char) → Environment
  | [] => environment
  | line :: lines =>
      match readLine? environment line with
      | none => environment
      | some .blank => loadLines environment lines
      | some (.assignment key value) => loadLines (define environment key value) lines

def byteLines (line : List UInt8) : List UInt8 → List (List UInt8)
  | [] => if line.isEmpty then [] else [line.reverse]
  | b :: rest =>
      if b = 10 then (b :: line).reverse :: byteLines [] rest else byteLines (b :: line) rest

def textLines : List (List UInt8) → List (List Char)
  | [] => []
  | line :: lines =>
      match String.fromUTF8? ⟨line.toArray⟩ with
      | some text => text.toList :: textLines lines
      | none => []

def load (environment : Environment) (bytes : List UInt8) : Environment :=
  let lines := textLines (byteLines [] (Text.dropByteOrderMark bytes))
  loadLines environment (joinLines .none [] lines)

end FeatureTable.DotEnv
