namespace FeatureTable

inductive Command where
  | run (config : String)
  | features (config input output : String)
deriving Repr, DecidableEq

namespace Command

/-! Options are read from left to right, up to the first request for help or the first fault. -/

inductive Request (α : Type) where
  | accepted (value : α)
  | help
  | misuse
deriving Repr, DecidableEq

/-- An option with a value.  It is named by a letter behind a dash or by a word behind two. -/
inductive OptionName where
  | config
  | input
  | output
deriving Repr, DecidableEq

def OptionName.letter : OptionName → Char
  | config => 'c'
  | input => 'i'
  | output => 'o'

def OptionName.word : OptionName → String
  | config => "config"
  | input => "input"
  | output => "output"

abbrev Values := List (OptionName × String)

inductive Argument where
  | help
  | attached (option : OptionName) (value : String)
  | separate (option : OptionName)
  | separator
  | unknown
deriving Repr, DecidableEq

/-- A word option takes its value behind an equals sign. -/
def readWord (known : List OptionName) (cs : List Char) : Argument :=
  let name := String.ofList (cs.takeWhile (· != '='))
  match known.find? (·.word == name), cs.dropWhile (· != '=') with
  | some option, _ :: value => .attached option (String.ofList value)
  | some option, [] => .separate option
  | none, [] => if name = "help" then .help else .unknown
  | none, _ :: _ => .unknown

/-- A letter option takes its value right behind the letter or behind an equals sign. -/
def readLetter (known : List OptionName) (letter : Char) (rest : List Char) : Argument :=
  match known.find? (·.letter == letter), rest with
  | some option, [] => .separate option
  | some option, '=' :: value => .attached option (String.ofList value)
  | some option, value => .attached option (String.ofList value)
  | none, _ => if letter = 'h' then .help else .unknown

def readArgument (known : List OptionName) (text : String) : Argument :=
  match text.toList with
  | ['-', '-'] => .separator
  | '-' :: '-' :: cs => readWord known cs
  | '-' :: letter :: rest => readLetter known letter rest
  | _ => .unknown

/-- A dash alone is a value. -/
def isValue (text : String) : Bool :=
  match text.toList with
  | '-' :: _ :: _ => false
  | _ => true

/-- A value may not be empty, and no option comes twice. -/
def accept? (values : Values) (option : OptionName) (value : String) : Option Values :=
  if value.isEmpty || (values.lookup option).isSome then none
  else some (values ++ [(option, value)])

/-- Nothing may follow a separator. -/
def readValues (known : List OptionName) (values : Values) : List String → Request Values
  | [] => .accepted values
  | text :: rest =>
      match readArgument known text, rest with
      | .help, _ => .help
      | .attached option value, rest =>
          match accept? values option value with
          | some values => readValues known values rest
          | none => .misuse
      | .separate option, value :: rest =>
          if isValue value then
            match accept? values option value with
            | some values => readValues known values rest
            | none => .misuse
          else .misuse
      | .separate _, [] => .misuse
      | .separator, [] => .accepted values
      | .separator, _ :: _ => .misuse
      | .unknown, _ => .misuse

def defaultConfig : String := "config/config.yaml"

def configOf (values : Values) : String :=
  (values.lookup .config).getD defaultConfig

def readRun (arguments : List String) : Request Command :=
  match readValues [.config] [] arguments with
  | .accepted values => .accepted (.run (configOf values))
  | .help => .help
  | .misuse => .misuse

def readFeatures (arguments : List String) : Request Command :=
  match readValues [.config, .input, .output] [] arguments with
  | .accepted values =>
      match values.lookup .input, values.lookup .output with
      | some input, some output => .accepted (.features (configOf values) input output)
      | _, _ => .misuse
  | .help => .help
  | .misuse => .misuse

/-- Help may name one command. -/
def readHelp : List String → Request Command
  | [] => .help
  | [name] => if ["run", "features", "help"].contains name then .help else .misuse
  | _ => .misuse

def read : List String → Request Command
  | [] => .misuse
  | "run" :: arguments => readRun arguments
  | "features" :: arguments => readFeatures arguments
  | "help" :: arguments => readHelp arguments
  | first :: _ =>
      match readArgument [] first with
      | .help => .help
      | _ => .misuse

end Command

end FeatureTable
