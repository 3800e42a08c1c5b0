import FeatureTable.Decimal.Read
import FeatureTable.Run.Settings
import FeatureTable.Text.Quoted

namespace FeatureTable

abbrev Environment := List (String × String)

namespace Overrides

/-!
Variables may replace run settings.  Without regard to case a name is `featurize__` and a path, in
which `__` stands for a point; values are taken as they are.
-/

/-- The settings as a tree.  Elements of a list that nothing was put at are unset. -/
inductive Setting where
  | unset
  | text (value : String)
  | list (items : List Setting)
  | table (entries : List (String × Setting))
deriving Repr, Inhabited

inductive Step where
  | key (name : String)
  | index (position : Int)
deriving Repr, DecidableEq

def isNameChar (c : Char) : Bool :=
  c.isAlphanum || c == ' ' || c == '_' || c == '-'

def readName? (cs : List Char) : Option Step :=
  if !cs.isEmpty && cs.all isNameChar then some (.key (String.ofList cs)) else none

def isGap (c : Char) : Bool :=
  c == ' ' || c == '\t'

def readPosition? (cs : List Char) : Option Step :=
  let cs := cs.dropWhile isGap
  let negative := cs.head? == some '-'
  let (digits, rest) := Decimal.splitDigits (if negative then cs.tail else cs)
  let n := Decimal.digitsValue digits
  let position : Int := if negative then -n else n
  if digits.isEmpty || rest.dropWhile isGap != [']'] then none
  else if -(Nat.pow 2 63) ≤ position ∧ position < Nat.pow 2 63 then some (.index position)
  else none

/-- The pieces of a path, each but the first with the mark that opens it. -/
def pieces (piece : List Char) : List Char → List (List Char)
  | [] => [piece.reverse]
  | c :: cs =>
      if c = '.' ∨ c = '[' then piece.reverse :: pieces [c] cs else pieces (c :: piece) cs

def readStep? : List Char → Option Step
  | '.' :: name => readName? name
  | '[' :: position => readPosition? position
  | _ => none

def readPath? (cs : List Char) : Option (List Step) :=
  match pieces [] cs with
  | first :: rest => do
      let name ← readName? first
      return name :: (← rest.mapM readStep?)
  | [] => none

/-- What does not read as a path is one name. -/
def pathOf (cs : List Char) : List Step :=
  (readPath? cs).getD [.key (String.ofList cs)]

namespace Setting

def entries : Setting → List (String × Setting)
  | .table entries => entries
  | _ => []

def items : Setting → List Setting
  | .list items => items
  | _ => []

def changeEntry (name : String) (f : Setting → Setting) :
    List (String × Setting) → List (String × Setting)
  | [] => [(name, f .unset)]
  | entry :: rest =>
      if entry.1 = name then (name, f entry.2) :: rest else entry :: changeEntry name f rest

def changeItem (f : Setting → Setting) : Nat → List Setting → List Setting
  | 0, [] => [f .unset]
  | 0, item :: rest => f item :: rest
  | n + 1, [] => .unset :: changeItem f n []
  | n + 1, item :: rest => item :: changeItem f n rest

/-- A negative index counts from the end. -/
def positionIn (length : Nat) (position : Int) : Nat :=
  if 0 ≤ position then position.toNat else length - position.natAbs

def put (value : String) : List Step → Setting → Setting
  | [], _ => .text value
  | .key name :: path, s => .table (changeEntry name (put value path) s.entries)
  | .index position :: path, s =>
      .list (changeItem (put value path) (positionIn s.items.length position) s.items)

end Setting

/-- Of the letters outside ASCII only the Kelvin sign is a capital letter of an ASCII letter. -/
def lower (c : Char) : Char :=
  if c = '\u212a' then 'k' else c.toLower

def openingName : List Char := "featurize__".toList

def points : List Char → List Char
  | '_' :: '_' :: cs => '.' :: points cs
  | c :: cs => c :: points cs
  | [] => []

def path? (name : String) : Option (List Step) :=
  let name := name.toList.map lower
  if openingName.isPrefixOf name then some (pathOf (points (name.drop openingName.length)))
  else none

def putVariable (s : Setting) (entry : String × String) : Setting :=
  match path? entry.1 with
  | some path => s.put entry.2 path
  | none => s

def ofSettings (settings : RunSettings) : Setting :=
  .table
    [("data_source", .text settings.dataSource),
      ("data_dir",
        .table
          [("raw", .text settings.rawDirectory), ("processed", .text settings.processedDirectory)]),
      ("output", .table [("runs", .text settings.runsDirectory)])]

/-- Why a tree does not hold the settings. -/
inductive SettingError where
  | notText (key found : String)
  | notGroup (group found : String)
  | missingField (name : String)
deriving Repr, DecidableEq

def SettingError.message : SettingError → String
  | notText key found => s!"invalid type: {found}, expected a string for key `{key}`"
  | notGroup group found => s!"invalid type: {found}, expected struct {group}"
  | missingField name => s!"missing field `{name}`"

def Setting.describe : Setting → String
  | .unset => "unit value"
  | .text value => "string " ++ Text.quoted value
  | .list _ => "sequence"
  | .table _ => "map"

def asText (key : String) : Setting → Except SettingError String
  | .text value => .ok value
  | s => .error (.notText key s.describe)

/-- A field of a group that is given as a table, or as a list of its fields in order; the key of the
field comes with it. -/
def member? (group key name : String) (index : Nat) :
    Setting → Except SettingError (Option (String × Setting))
  | .table entries => .ok ((entries.lookup name).map (s!"{key}.{name}", ·))
  | .list items => .ok (items[index]?.map (s!"{key}[{index}]", ·))
  | s => .error (.notGroup group s.describe)

def memberText (group key name : String) (index : Nat) (fallback : Option String) (s : Setting) :
    Except SettingError String := do
  match ← member? group key name index s, fallback with
  | some (key, value), _ => asText key value
  | none, some text => return text
  | none, none => throw (.missingField name)

def entry (s : Setting) (name : String) : Except SettingError Setting :=
  match s.entries.lookup name with
  | some value => .ok value
  | none => .error (.missingField name)

def toSettings (s : Setting) : Except SettingError RunSettings := do
  let dataSource ← asText "data_source" (← entry s "data_source")
  let directories ← entry s "data_dir"
  let raw ← memberText "DataDirs" "data_dir" "raw" 0 (some "raw") directories
  let processed ← memberText "DataDirs" "data_dir" "processed" 1 (some "processed") directories
  let runs ← memberText "OutputConfig" "output" "runs" 0 none (← entry s "output")
  return { dataSource, rawDirectory := raw, processedDirectory := processed, runsDirectory := runs }

end Overrides

/-- The settings with the overrides among the variables, applied in order. -/
def RunSettings.override (settings : RunSettings) (environment : Environment) :
    Except Overrides.SettingError RunSettings :=
  Overrides.toSettings (environment.foldl Overrides.putVariable (Overrides.ofSettings settings))

end FeatureTable
