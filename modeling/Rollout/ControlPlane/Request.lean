import Rollout.ControlPlane.Output
import Rollout.Duration
import Rollout.Failure.Cause

/-!
# The control plane

The system that owns the state of the cluster.  It is asked to apply or to delete the objects of a
manifest, or to show one object, and it answers with the output of a command, or with an error when
no command could be run at all.  Its state, of any type, changes with every answer, so an answer may
depend on everything that came before.
-/

namespace Rollout

/-- What the control plane can be asked. -/
inductive Request
  /-- Apply or delete every object of a manifest file. -/
  | manifest (action : Action) (file : Path)
  /-- Show one object. -/
  | get (kind name : String) (clusterScoped : Bool)
  deriving DecidableEq, Repr, Inhabited

/-- An answer of the control plane. -/
structure Reply where
  output : Output
  elapsed : Duration
  deriving DecidableEq, Repr, Inhabited

/-- A control plane with states of type `σ`. -/
structure ControlPlane (σ : Type) where
  answer : Request → σ → Except Failure Reply × σ
  wait : Duration → σ → σ
  /-- The command that would carry out an action on a manifest, as a user would type it. -/
  render : Action → Path → String

/-- The request that queries a target. -/
def Target.request (target : Target) : Request :=
  .get target.kind target.resource target.clusterScoped

end Rollout
