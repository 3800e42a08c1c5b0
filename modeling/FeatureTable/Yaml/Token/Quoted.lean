import FeatureTable.Yaml.Token.Gap

namespace FeatureTable.Yaml

/-- What a backslash and this character stand for in double quotes. -/
def escaped? : Char → Option Char
  | '0' => some '\x00'
  | 'a' => some '\x07'
  | 'b' => some '\x08'
  | 't' => some '\t'
  | '\t' => some '\t'
  | 'n' => some '\n'
  | 'v' => some '\x0b'
  | 'f' => some '\x0c'
  | 'r' => some '\r'
  | 'e' => some '\x1b'
  | ' ' => some ' '
  | '"' => some '"'
  | '/' => some '/'
  | '\\' => some '\\'
  | 'N' => some '\u0085'
  | '_' => some '\u00a0'
  | 'L' => some '\u2028'
  | 'P' => some '\u2029'
  | _ => none

def escapeLength? : Char → Option Nat
  | 'x' => some 2
  | 'u' => some 4
  | 'U' => some 8
  | _ => none

def charOfCode? (n : Nat) : Option Char :=
  if n.isValidChar then some (Char.ofNat n) else none

inductive WordEnd where
  | quote
  | gap
  | escapedBreak

/-- The hexadecimal digits still to come and the value of those read. -/
structure CodeEscape where
  left : Nat
  value : Nat

/-- Reads one word onto `text`, which holds its characters last first; `code` is an escape whose
digits are being read. -/
def readQuotedWord (double : Bool) (code : Option CodeEscape) (text : List Char) :
    List Char → Except Error (List Char × WordEnd × List Char)
  | [] => if code.isSome then .error .malformedEscape else .ok (text, .gap, [])
  | c :: rest =>
      match code with
      | some code =>
          match hexValue? c with
          | none => .error .malformedEscape
          | some digit =>
              let value := 16 * code.value + digit
              if code.left = 1 then
                match charOfCode? value with
                | some d => readQuotedWord double none (d :: text) rest
                | none => .error .malformedEscape
              else readQuotedWord double (some ⟨code.left - 1, value⟩) text rest
      | none =>
          if endsWord (some c) then .ok (text, .gap, c :: rest)
          else if !double && c == '\'' then
            match rest with
            | '\'' :: rest => readQuotedWord double none ('\'' :: text) rest
            | rest => .ok (text, .quote, rest)
          else if double && c == '"' then .ok (text, .quote, rest)
          else if double && c == '\\' then
            match rest with
            | [] => .error .malformedEscape
            | d :: rest =>
                if isBreak d then .ok (text, .escapedBreak, d :: rest)
                else
                  match escaped? d, escapeLength? d with
                  | some e, _ => readQuotedWord double none (e :: text) rest
                  | none, some left => readQuotedWord double (some ⟨left, 0⟩) text rest
                  | none, none => .error .malformedEscape
          else readQuotedWord double none (c :: text) rest

def readQuotedFrom (double : Bool) (text : List Char) (c : Cursor) :
    Except Error (List Char × Cursor) := do
  if c.atDocumentMarker then throw .unexpectedCharacter
  if c.rest.isEmpty then throw .unclosedScalar
  let (text, ending, rest) ← readQuotedWord double none text c.rest
  let afterWord := c.moveTo rest
  match ending with
  | .quote => return (text, afterWord)
  | .gap =>
      let (gap, next) ← afterWord.readGap 0 {}
      if _progress : next.rest.length < c.rest.length then
        readQuotedFrom double (gap.folded ++ text) next
      else throw .unclosedScalar
  | .escapedBreak =>
      let (gap, next) ← afterWord.skipBreak.readGap 0 { firstBreak := some [] }
      if _progress : next.rest.length < c.rest.length then
        readQuotedFrom double (gap.folded ++ text) next
      else throw .unclosedScalar
termination_by c.rest.length

def readQuoted (double : Bool) (c : Cursor) : Except Error (String × Cursor) := do
  let (text, c) ← readQuotedFrom double [] c
  return (String.ofList text.reverse, c)

end FeatureTable.Yaml
