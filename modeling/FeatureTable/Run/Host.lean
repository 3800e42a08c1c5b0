import FeatureTable.FileSystem
import FeatureTable.Traced

namespace FeatureTable

/-- What a run needs from its surroundings: files, and someone to tell what happens. -/
class Host (m : Type → Type) where
  readFile (path : String) : m (Except FileError (List UInt8))
  writeFile (path : String) (bytes : List UInt8) : m (Except FileError Unit)
  copyFile (source target : String) : m (Except FileError Unit)
  createDirectory (path : String) : m (Except FileError Unit)
  isDirectory (path : String) : m Bool
  workingDirectory : m String
  report (event : Event) : m Unit

namespace Host

variable {m : Type → Type} [Monad m] [Host m]

/-- A directory that could not be created may be there already. -/
def settle (path : String) (outcome : Except FileError Unit) : m (Except FileError Unit) := do
  match outcome with
  | .ok () => return .ok ()
  | .error e => if ← isDirectory path then return .ok () else return .error e

/-- Creates the first of the paths; where that finds no directory to create it in, the others first.
Each of the others is the parent of the one before it.  What was created before a failure stays. -/
def createAlong : List String → m (Except FileError Unit)
  | [] => return .error .notFound
  | path :: parents => do
      if path.isEmpty then return .ok ()
      match ← createDirectory path with
      | .error .notFound =>
          match ← createAlong parents with
          | .ok () => settle path (← createDirectory path)
          | .error e => return .error e
      | outcome => settle path outcome

/-- A dot at the end names no part of a path, so the directory that it stands in is not created. -/
def createDirectories (path : String) : m (Except FileError Unit) :=
  createAlong (Path.ancestors path)

end Host

/-- A host that is a value: a file system and the events reported so far. -/
structure Workspace where
  files : FileSystem := {}
  events : List Event := []
deriving Repr, DecidableEq

namespace Workspace

def change (step : FileSystem → Except FileError FileSystem) :
    StateM Workspace (Except FileError Unit) := fun w =>
  match step w.files with
  | .ok files => (.ok (), { w with files })
  | .error e => (.error e, w)

instance : Host (StateM Workspace) where
  readFile path := fun w => (w.files.read path, w)
  writeFile path bytes := change fun files => files.write path bytes
  copyFile source target := change fun files => files.copy source target
  createDirectory path := change fun files => files.createDirectory path
  isDirectory path := fun w => (w.files.isDirectoryPath path, w)
  workingDirectory := fun w => (w.files.workingPath, w)
  report event := fun w => ((), { w with events := w.events ++ [event] })

end Workspace

end FeatureTable
