import FeatureTable.Path

namespace FeatureTable

inductive FileError where
  | notFound
  | notADirectory
  | isADirectory
  | alreadyExists
  | unusablePath
deriving Repr, DecidableEq

inductive Entry where
  | file (bytes : List UInt8)
  | directory
deriving Repr, DecidableEq

/-- The names that lead from the root to an entry, last first. -/
abbrev Location := List String

structure FileSystem where
  entries : List (Location × Entry) := []
  workingDirectory : Location := []
deriving Repr, DecidableEq

namespace FileSystem

/-- The root is always there. -/
def entry? (fs : FileSystem) (location : Location) : Option Entry :=
  if location.isEmpty then some .directory else fs.entries.lookup location

def put (fs : FileSystem) (location : Location) (entry : Entry) : FileSystem :=
  { fs with entries := (location, entry) :: fs.entries.filter (·.1 != location) }

def isDirectory (fs : FileSystem) (location : Location) : Bool :=
  match fs.entry? location with
  | some .directory => true
  | _ => false

def workingPath (fs : FileSystem) : String :=
  "/" ++ "/".intercalate fs.workingDirectory.reverse

/-! Paths are followed part by part.  All but the last must be directories, and two dots lead out of
the directory that was reached. -/

/-- A name has at most 255 bytes. -/
def step (fs : FileSystem) (location : Location) (part : String) : Except FileError Location :=
  match fs.entry? location with
  | none => .error .notFound
  | some (.file _) => .error .notADirectory
  | some .directory =>
      if part = "" ∨ part = "." then .ok location
      else if part = ".." then .ok location.tail
      else if 255 < part.utf8ByteSize then .error .unusablePath
      else .ok (part :: location)

def walk (fs : FileSystem) (location : Location) (parts : List String) :
    Except FileError Location :=
  parts.foldlM fs.step location

def start (fs : FileSystem) (path : String) : Location :=
  if Path.isAbsolute path then [] else fs.workingDirectory

/-- The empty path leads nowhere. -/
def locate (fs : FileSystem) (path : String) : Except FileError Location :=
  if path.isEmpty then .error .notFound
  else if path.toList.contains '\x00' then .error .unusablePath
  else fs.walk (fs.start path) (Path.parts path)

def readAt (fs : FileSystem) (location : Location) : Except FileError (List UInt8) :=
  match fs.entry? location with
  | some (.file bytes) => .ok bytes
  | some .directory => .error .isADirectory
  | none => .error .notFound

def read (fs : FileSystem) (path : String) : Except FileError (List UInt8) := do
  fs.readAt (← fs.locate path)

def locateTarget (fs : FileSystem) (path : String) : Except FileError Location := do
  let location ← fs.locate path
  if fs.isDirectory location then throw .isADirectory
  return location

def write (fs : FileSystem) (path : String) (bytes : List UInt8) : Except FileError FileSystem := do
  return fs.put (← fs.locateTarget path) (.file bytes)

/-- The target is emptied before the source is read, so a file copied onto itself is lost. -/
def copy (fs : FileSystem) (source target : String) : Except FileError FileSystem := do
  let origin ← fs.locate source
  discard (fs.readAt origin)
  let destination ← fs.locateTarget target
  let emptied := fs.put destination (.file [])
  return emptied.put destination (.file (← emptied.readAt origin))

/-- Creates one directory.  Slashes at the end of its path do not count. -/
def createDirectory (fs : FileSystem) (path : String) : Except FileError FileSystem :=
  if path.isEmpty then .error .notFound
  else if path.toList.contains '\x00' then .error .unusablePath
  else
    match (Path.parts path).reverse.dropWhile String.isEmpty with
    | [] => .error .alreadyExists
    | name :: before => do
        let location ← fs.step (← fs.walk (fs.start path) before.reverse) name
        if name = "." ∨ name = ".." ∨ (fs.entry? location).isSome then throw .alreadyExists
        return fs.put location .directory

def isDirectoryPath (fs : FileSystem) (path : String) : Bool :=
  match fs.locate path with
  | .ok location => fs.isDirectory location
  | .error _ => false

end FileSystem

end FeatureTable
