import FeatureTable.Yaml.Node.Basic

namespace FeatureTable.Yaml

/-- What tag handles stand for.  Two of them are known without a directive. -/
abbrev Handles := List (String × List UInt8)

def defaultHandles : Handles :=
  [("!", "!".toUTF8.toList), ("!!", Tag.standardHandle)]

def resolveTag (handles : Handles) (handle : String) (suffix : List UInt8) :
    Except Error (List UInt8) :=
  if handle.isEmpty then .ok suffix
  else
    match handles.lookup handle with
    | some expansion => .ok (expansion ++ suffix)
    | none => .error .undefinedHandle

abbrev TokenReader := StateT (List Token) (Except Error)

namespace TokenReader

def skip : TokenReader Unit :=
  modify List.tail

def takes (token : Token) : TokenReader Bool := do
  if (← get).head? == some token then
    skip
    return true
  else return false

def expect (token : Token) : TokenReader Unit := do
  if !(← takes token) then throw .unexpectedToken

def sees (choices : List Token) : TokenReader Bool := do
  return (← get).head?.any choices.contains

end TokenReader

open TokenReader

structure Properties where
  anchor : Option String := none
  tagBytes : Option (List UInt8) := none

def Properties.tag (p : Properties) : Option Tag :=
  p.tagBytes.bind Tag.ofBytes?

/-- An anchor and a tag stand before a node in either order. -/
def readProperties (handles : Handles) : TokenReader Properties := do
  match ← get with
  | .anchor anchor :: .tag handle suffix :: rest => do
      set rest
      return { anchor, tagBytes := ← resolveTag handles handle suffix }
  | .tag handle suffix :: .anchor anchor :: rest => do
      set rest
      return { anchor, tagBytes := ← resolveTag handles handle suffix }
  | .anchor anchor :: rest => do
      set rest
      return { anchor }
  | .tag handle suffix :: rest => do
      set rest
      return { tagBytes := ← resolveTag handles handle suffix }
  | _ => return {}

/-!
The calls of the readers nest at most three deep for every token consumed, so a bound of three times
the number of tokens is never reached.

A block sequence that is a key or a value of a mapping may stand at the indentation of the mapping;
it then has no start and no end.
-/

mutual

def readNode (handles : Handles) : Nat → Bool → TokenReader (Node String)
  | 0, _ => throw .nestedTooDeeply
  | bound + 1, indentless => do
      if let .alias name :: rest := ← get then
        set rest
        return .alias name
      let p ← readProperties handles
      match ← get with
      | .scalar text style :: rest => do
          set rest
          return .scalar p.anchor p.tag text style
      | .flowSequenceStart :: rest => do
          set rest
          return .sequence p.anchor p.tag (← readFlowItems handles bound)
      | .flowMappingStart :: rest => do
          set rest
          return .mapping p.anchor p.tag (← readFlowEntries handles bound)
      | .blockSequenceStart :: rest => do
          set rest
          return .sequence p.anchor p.tag (← readBlockItems handles bound)
      | .blockMappingStart :: rest => do
          set rest
          return .mapping p.anchor p.tag (← readBlockEntries handles bound)
      | tokens => do
          if indentless && tokens.head? == some .blockEntry then
            return .sequence p.anchor p.tag (← readIndentlessItems handles bound)
          if p.anchor.isNone && p.tagBytes.isNone then throw .unexpectedToken
          return .scalar p.anchor p.tag "" .plain

def readBlockItems (handles : Handles) : Nat → TokenReader (List (Node String))
  | 0 => throw .nestedTooDeeply
  | bound + 1 => do
      if ← takes .blockEnd then return []
      expect .blockEntry
      let item ← readUnless [.blockEntry, .blockEnd] handles bound false
      return item :: (← readBlockItems handles bound)

def readIndentlessItems (handles : Handles) : Nat → TokenReader (List (Node String))
  | 0 => throw .nestedTooDeeply
  | bound + 1 => do
      if !(← takes .blockEntry) then return []
      let item ← readUnless [.blockEntry, .key, .value, .blockEnd] handles bound false
      return item :: (← readIndentlessItems handles bound)

def readBlockEntries (handles : Handles) : Nat → TokenReader (List (Node String × Node String))
  | 0 => throw .nestedTooDeeply
  | bound + 1 => do
      if ← takes .blockEnd then return []
      expect .key
      let key ← readUnless [.key, .value, .blockEnd] handles bound true
      let value ← readValue [.key, .value, .blockEnd] handles bound true
      return (key, value) :: (← readBlockEntries handles bound)

/-- Reads up to the closing bracket; a comma may stand before it. -/
def readFlowItems (handles : Handles) : Nat → TokenReader (List (Node String))
  | 0 => throw .nestedTooDeeply
  | bound + 1 => do
      if ← takes .flowSequenceEnd then return []
      let item ←
        if ← takes .key then readFlowPair handles bound else readNode handles bound false
      if ← takes .flowSequenceEnd then return [item]
      expect .flowEntry
      return item :: (← readFlowItems handles bound)

/-- Reads an entry that stands in a sequence.  A key that is left out takes the token after it
along. -/
def readFlowPair (handles : Handles) : Nat → TokenReader (Node String)
  | 0 => throw .nestedTooDeeply
  | bound + 1 => do
      let omitted ← sees [.value, .flowEntry, .flowSequenceEnd]
      let key ← readUnless [.value, .flowEntry, .flowSequenceEnd] handles bound false
      if omitted then skip
      let value ← readValue [.flowEntry, .flowSequenceEnd] handles bound false
      return .mapping none none [(key, value)]

/-- A key without an indicator has no value. -/
def readFlowEntries (handles : Handles) : Nat → TokenReader (List (Node String × Node String))
  | 0 => throw .nestedTooDeeply
  | bound + 1 => do
      if ← takes .flowMappingEnd then return []
      let entry ←
        if ← takes .key then do
          let key ← readUnless [.value, .flowEntry, .flowMappingEnd] handles bound false
          pure (key, ← readValue [.flowEntry, .flowMappingEnd] handles bound false)
        else do
          pure (← readNode handles bound false, Node.empty)
      if ← takes .flowMappingEnd then return [entry]
      expect .flowEntry
      return entry :: (← readFlowEntries handles bound)

/-- A node that one of the tokens in `ends` shows to be left out. -/
def readUnless (ends : List Token) (handles : Handles) : Nat → Bool → TokenReader (Node String)
  | 0, _ => throw .nestedTooDeeply
  | bound + 1, indentless => do
      if ← sees ends then return .empty
      readNode handles bound indentless

def readValue (ends : List Token) (handles : Handles) : Nat → Bool → TokenReader (Node String)
  | 0, _ => throw .nestedTooDeeply
  | bound + 1, indentless => do
      if !(← takes .value) then return .empty
      readUnless ends handles bound indentless

end

/-- Directives stand before a document that is started explicitly. -/
structure Directives where
  versioned : Bool := false
  handles : Handles := []

def readDirectives (d : Directives) : List Token → Except Error (Directives × List Token)
  | .version major minor :: rest =>
      if d.versioned || major != 1 || !(minor == 1 || minor == 2) then .error .malformedDirective
      else readDirectives { d with versioned := true } rest
  | .tagHandle handle expansion :: rest =>
      if d.handles.any (·.1 == handle) then .error .malformedDirective
      else readDirectives { d with handles := (handle, expansion) :: d.handles } rest
  | rest => .ok (d, rest)

def isDirective : Token → Bool
  | .version _ _ => true
  | .tagHandle _ _ => true
  | _ => false

def endsDocument (tokens : List Token) : Bool :=
  tokens.head?.all fun token =>
    isDirective token || token == .documentStart || token == .documentEnd

/-- The node of the only document; a text without tokens has none. -/
def Node.ofTokens? (tokens : List Token) : Except Error (Option (Node String)) := do
  let some first := tokens.head? | return none
  let bound := 3 * tokens.length + 3
  let (root, rest) ←
    if isDirective first || first == .documentStart then do
      let (directives, rest) ← readDirectives {} tokens
      let ((), rest) ← (expect .documentStart).run rest
      if endsDocument rest then pure (Node.empty, rest)
      else (readNode (directives.handles ++ defaultHandles) bound false).run rest
    else (readNode defaultHandles bound false).run tokens
  if (rest.dropWhile (· == .documentEnd)).isEmpty then return some root
  throw .severalDocuments

end FeatureTable.Yaml
