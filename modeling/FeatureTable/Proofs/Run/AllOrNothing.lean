import FeatureTable.Proofs.Run.Agreement
import FeatureTable.Proofs.Run.Directories
import FeatureTable.Proofs.Run.Loaded

namespace FeatureTable

/-- The paths of the directories on the way to what a path names. -/
def Path.above (path : String) : List String :=
  (Path.parent? path).elim [] Path.ancestors

namespace Host

def Silent (action : StateM Workspace α) : Prop :=
  ∀ w events, action.run (Workspace.told w events) =
    ((action.run w).1, (action.run w).2.told events)

variable {action : StateM Workspace α} {next : α → StateM Workspace β}

theorem Silent.bind (h : Silent action) (hnext : ∀ a, Silent (next a)) :
    Silent (action >>= next) := by
  intro w events
  rw [StateT.run_bind, StateT.run_bind, h w events]
  exact hnext _ _ events

end Host

namespace Run

variable {w w' : Workspace} {config : PipelineConfig} {input output : String} {t f : Table}

end Run

end FeatureTable
