import Rollout.ControlPlane.Request
import Rollout.Manifest.Order

/-!
# Plans

The order of a run together with the commands that it would use, without running anything.
-/

namespace Rollout

/-- A step of a plan. -/
structure PlanEntry where
  /-- The position in the plan, counted from one. -/
  position : Nat
  name : String
  stage : Stage
  /-- The command of the step, as a user would type it. -/
  command : String
  deriving DecidableEq, Repr, Inhabited

namespace Plan

variable {σ : Type}

/-- The planned steps for the given steps, when `completed` stand before them. -/
def planFrom (plane : ControlPlane σ) (action : Action) : (completed : Nat) → List Step →
    List PlanEntry
  | _, [] => []
  | completed, step :: rest =>
      ⟨completed + 1, step.name, step.stage, plane.render action step.file⟩ ::
        planFrom plane action (completed + 1) rest

/-- The plan of an action on a set: its steps in the order in which they would be handled. -/
def build (plane : ControlPlane σ) (set : Manifests) (action : Action) : List PlanEntry :=
  planFrom plane action 0 (set.order action)

@[simp]
theorem length_planFrom (plane : ControlPlane σ) (action : Action) (completed : Nat)
    (steps : List Step) : (planFrom plane action completed steps).length = steps.length := by
  induction steps generalizing completed with
  | nil => rfl
  | cons step rest ih => simp [planFrom, ih]

end Plan
end Rollout
