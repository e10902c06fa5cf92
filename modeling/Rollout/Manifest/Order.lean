import Rollout.Manifest.Step

/-!
# The order of a manifest set

A manifest set holds the steps of a deployment as they were declared.  They are installed stage by
stage, in the order of declaration within a stage, and uninstalled in the exact reverse.

## Strategy

Installation order is a stable insertion sort by stage: a step goes in front of the first step whose
stage is not earlier than its own, and steps are inserted from the last to the first.
-/

namespace Rollout

/-- The manifests of one deployment, in the order of declaration. -/
structure Manifests where
  steps : List Step
  deriving DecidableEq, Repr, Inhabited

namespace Manifests

/-! ## Sorting by stage -/

/-- Puts a step in front of the first step whose stage is not earlier. -/
def insertByStage (step : Step) : List Step → List Step
  | [] => [step]
  | first :: rest =>
      if step.stage.rank ≤ first.stage.rank then step :: first :: rest
      else first :: insertByStage step rest

/-- The steps sorted by stage; steps of one stage keep their order. -/
def sortByStage : List Step → List Step
  | [] => []
  | step :: rest => insertByStage step (sortByStage rest)

/-- Insertion keeps all steps and adds one. -/
theorem insertByStage_perm (step : Step) (steps : List Step) :
    (insertByStage step steps).Perm (step :: steps) := by
  induction steps with
  | nil => exact List.Perm.refl _
  | cons first rest ih =>
      simp only [insertByStage]
      split
      · exact List.Perm.refl _
      · exact (ih.cons first).trans (List.Perm.swap step first rest)

/-- Sorting keeps all steps. -/
theorem sortByStage_perm (steps : List Step) : (sortByStage steps).Perm steps := by
  induction steps with
  | nil => exact List.Perm.refl _
  | cons step rest ih => exact (insertByStage_perm step _).trans (ih.cons step)

/-! ## Orders -/

/-- The steps in the order in which they are installed. -/
def installOrder (set : Manifests) : List Step :=
  sortByStage set.steps

/-- The steps in the order in which they are uninstalled. -/
def uninstallOrder (set : Manifests) : List Step :=
  set.installOrder.reverse

/-- The steps in the order in which an action handles them. -/
def order (set : Manifests) : Action → List Step
  | .apply => set.installOrder
  | .delete => set.uninstallOrder

/-- The steps that have an object to query, in the order of installation. -/
def verifiable (set : Manifests) : List Step :=
  set.installOrder.filter (·.target?.isSome)

/-- The objects to query, in the order of installation. -/
def targets (set : Manifests) : List Target :=
  set.verifiable.filterMap Step.target?

/-- The number of steps. -/
def size (set : Manifests) : Nat := set.steps.length

/-- The set of the given steps, with their files looked up in a base directory. -/
def resolve (base : Path) (steps : List Step) : Manifests :=
  ⟨steps.map (Step.resolve base)⟩

@[simp]
theorem order_apply (set : Manifests) : set.order .apply = set.installOrder := rfl

@[simp]
theorem order_delete (set : Manifests) : set.order .delete = set.installOrder.reverse := rfl

/-- Every declared step is installed once. -/
@[simp]
theorem length_installOrder (set : Manifests) : set.installOrder.length = set.size :=
  (sortByStage_perm set.steps).length_eq

/-- An action handles every declared step once. -/
theorem order_perm (set : Manifests) (action : Action) : (set.order action).Perm set.steps := by
  cases action with
  | apply => exact sortByStage_perm set.steps
  | delete => exact (List.reverse_perm _).trans (sortByStage_perm set.steps)

end Manifests
end Rollout
