import FeatureTable.Run.Arguments
import FeatureTable.Run.DotEnv
import FeatureTable.Run.Stages

namespace FeatureTable.Command

structure Exit where
  code : Nat
  complaint : Option String := none
deriving Repr, DecidableEq

variable {m : Type → Type} [Monad m] [Host m]

/-- The paths of a file in a directory and in those around it, where the names that lead to the
directory are given last first. -/
def candidates (file : String) : List String → List String
  | [] => ["/" ++ file]
  | name :: names =>
      ("/" ++ "/".intercalate (file :: name :: names).reverse) :: candidates file names

/-- The variables with those of the nearest file; the search ends where a file cannot be read. -/
def loadVariables (environment : Environment) : List String → m Environment
  | [] => return environment
  | path :: paths => do
      match ← Host.readFile path with
      | .ok bytes => return DotEnv.load environment bytes
      | .error .notFound => loadVariables environment paths
      | .error .isADirectory => loadVariables environment paths
      | .error _ => return environment

def config : Command → String
  | run config => config
  | features config _ _ => config

def execute (command : Command) (environment : Environment) (now : LocalTime) : Run m Unit := do
  let directory ← ExceptT.lift (m := m) Host.workingDirectory
  let names := ((Path.parts directory).filter (!·.isEmpty)).reverse
  let environment ← ExceptT.lift (loadVariables environment (candidates ".env" names))
  let config ← Run.loadConfig command.config environment
  match command with
  | run _ => do
      let d ← Run.pipeline config now
      Run.info s!"Run artifacts saved to {d.root}"
  | features _ input output => do
      Run.features config input output
      Run.info s!"Features saved to {output}"

/-- Runs the command that the arguments ask for.  A failure is told by its step. -/
def perform (arguments : List String) (environment : Environment) (now : LocalTime) : m Exit := do
  match read arguments with
  | .help => return { code := 0 }
  | .misuse => return { code := 2 }
  | .accepted command =>
      match ← (execute command environment now).run with
      | .ok () => return { code := 0 }
      | .error e =>
          Host.report ⟨.error, s!"Pipeline failed: {e.message}"⟩
          return { code := 1, complaint := some s!"Error: {e.headline}" }

end FeatureTable.Command
