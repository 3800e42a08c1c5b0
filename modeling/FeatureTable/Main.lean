import FeatureTable.Run.Command
import Std.Time.Zoned

namespace FeatureTable

def FileError.ofFailure : IO.Error → FileError
  | .noFileOrDirectory .. => .notFound
  | .alreadyExists .. => .alreadyExists
  | .inappropriateType .. => .isADirectory
  | _ => .unusablePath

def attempt (action : IO α) : IO (Except FileError α) := do
  match ← action.toBaseIO with
  | .ok a => return .ok a
  | .error e => return .error (.ofFailure e)

def Level.name : Level → String
  | error => "ERROR"
  | warn => "WARN"
  | info => "INFO"
  | debug => "DEBUG"

instance : Host IO where
  readFile path := attempt do return (← IO.FS.readBinFile path).toList
  writeFile path bytes := attempt (IO.FS.writeBinFile path ⟨bytes.toArray⟩)
  copyFile source target := attempt do
    discard (IO.FS.readBinFile source)
    IO.FS.writeBinFile target .empty
    IO.FS.writeBinFile target (← IO.FS.readBinFile source)
  createDirectory path := attempt (IO.FS.createDir path)
  isDirectory path := do
    match ← attempt do (← IO.FS.realPath path).isDir with
    | .ok found => return found
    | .error _ => return false
  workingDirectory := return s!"{← IO.currentDir}"
  report event := do
    if event.level ≠ .debug then IO.println s!"{event.level.name} {event.message}"

def localTime : IO LocalTime := do
  let now ← Std.Time.PlainDateTime.now
  return {
    year := now.date.year.toInt
    month := now.date.month.val.toNat
    day := now.date.day.val.toNat
    hour := now.time.hour.val.toNat
    minute := now.time.minute.val.toNat
    second := now.time.second.val.toNat }

/-- The variables of a process, as the system lists them: `name=value`, each ended by a zero. -/
def readVariables (listing : String) : Environment :=
  (listing.splitOn "\x00").filterMap fun entry =>
    match entry.splitOn "=" with
    | name :: value :: rest => some (name, "=".intercalate (value :: rest))
    | _ => none

def processEnvironment : IO Environment := do
  match String.fromUTF8? (← IO.FS.readBinFile "/proc/self/environ") with
  | some listing => return readVariables listing
  | none => return []

end FeatureTable

def main (arguments : List String) : IO UInt32 := do
  let ending ← FeatureTable.Command.perform arguments (← FeatureTable.processEnvironment)
    (← FeatureTable.localTime)
  if let some complaint := ending.complaint then IO.eprintln complaint
  return ending.code.toUInt32
