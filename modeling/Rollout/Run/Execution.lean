import Rollout.Manifest.Order
import Rollout.Run.Work

/-!
# Carrying out a run

A run carries out one action on a list of steps, one after the other, and stops at the first step
that fails.  A dry run asks nothing of the control plane and only shows the commands.

A delete that fails because the object does not exist counts as done, and so does one that succeeds
and has nothing to say, so that a run of deletes may be repeated.
-/

namespace Rollout

/-- What became of a step of a run, and how. -/
structure Completion where
  step : String
  operation : Operation
  outcome : Outcome
  elapsed : Duration
  /-- The standard output of the command, or the command itself when it was only planned. -/
  output : String
  deriving DecidableEq, Repr, Inhabited

namespace Run

/-! ## Judging an answer -/

/-- What an output means for the step that it answers; nothing if the step has failed. -/
def outcome? (action : Action) (output : Output) : Option Outcome :=
  match action, output.success with
  | .apply, true => some .applied
  | .apply, false => none
  | .delete, true => if Text.isBlankText output.stdout then some .alreadyAbsent else some .deleted
  | .delete, false => if output.meansAbsence then some .alreadyAbsent else none

/-- An apply is done exactly when it succeeds. -/
@[simp]
theorem outcome?_apply (output : Output) :
    outcome? .apply output = if output.success then some .applied else none := by
  cases hsuccess : output.success <;> simp [outcome?, hsuccess]

/-- A step has failed when its command failed, unless that was a delete of something absent. -/
theorem outcome?_eq_none_iff (action : Action) (output : Output) :
    outcome? action output = none ↔
      output.success = false ∧ (action = .apply ∨ output.meansAbsence = false) := by
  cases action <;> cases hsuccess : output.success <;> simp [outcome?, hsuccess]
  split <;> simp

/-! ## One step -/

variable {σ : Type}

/-- The result of a step that was only planned. -/
def planned (plane : ControlPlane σ) (action : Action) (step : Step) : Completion :=
  ⟨step.name, action.operation, .planned, .zero, plane.render action step.file⟩

/-- The events that follow an answer which completes a step. -/
def noteTolerance (step : Step) (output : Output) : Work σ Unit :=
  if output.success then pure () else Work.report (.toleratedAbsence step.name output.stderr)

/-- Carries out an action on the manifest of a step. -/
def perform (plane : ControlPlane σ) (action : Action) (step : Step) : Work σ Completion := do
  let reply ← Work.ask plane (.manifest action step.file)
  let output := reply.output
  Work.report (.answered action step.name output.stdout)
  match outcome? action output with
  | none =>
      Work.fail (.commandFailed step.name action.operation output.exitCode? output.stderr)
  | some outcome =>
      noteTolerance step output
      return ⟨step.name, action.operation, outcome, reply.elapsed, output.stdout⟩

/-- Carries out an action on the manifest of a step, or only plans it. -/
def handle (plane : ControlPlane σ) (action : Action) (dryRun : Bool) (step : Step) :
    Work σ Completion :=
  if dryRun then pure (planned plane action step) else perform plane action step

/-! ## All steps -/

/-- Handles the remaining steps of a run over `count` steps, of which `completed` are done. -/
def handleFrom (plane : ControlPlane σ) (action : Action) (dryRun : Bool) (count : Nat) :
    (completed : Nat) → List Step → Work σ (List Completion)
  | _, [] => pure []
  | completed, step :: rest => do
      let position := completed + 1
      let result ← Work.reportingFailure (.failed position count step.name)
        (handle plane action dryRun step)
      Work.report (.finished position count result.step result.outcome result.elapsed)
      let results ← handleFrom plane action dryRun count position rest
      return result :: results

/-- Carries out an action on the given steps. -/
def execute (plane : ControlPlane σ) (action : Action) (executionId : String) (dryRun : Bool)
    (steps : List Step) : Work σ (List Completion) := do
  Work.report (.started executionId action steps.length dryRun)
  handleFrom plane action dryRun steps.length 0 steps

/-- Applies every manifest of a set, stage by stage.  What was applied before a failure stays. -/
def install (plane : ControlPlane σ) (set : Manifests) (executionId : String) (dryRun : Bool) :
    Work σ (List Completion) :=
  execute plane .apply executionId dryRun set.installOrder

/-- Deletes every manifest of a set, in the reverse order. -/
def uninstall (plane : ControlPlane σ) (set : Manifests) (executionId : String) (dryRun : Bool) :
    Work σ (List Completion) :=
  execute plane .delete executionId dryRun set.uninstallOrder

/-- Carries out an action on a set. -/
def run (plane : ControlPlane σ) (set : Manifests) (action : Action) (executionId : String)
    (dryRun : Bool) : Work σ (List Completion) :=
  execute plane action executionId dryRun (set.order action)

@[simp]
theorem run_apply (plane : ControlPlane σ) (set : Manifests) (executionId : String)
    (dryRun : Bool) :
    run plane set .apply executionId dryRun = install plane set executionId dryRun := rfl

@[simp]
theorem run_delete (plane : ControlPlane σ) (set : Manifests) (executionId : String)
    (dryRun : Bool) :
    run plane set .delete executionId dryRun = uninstall plane set executionId dryRun := rfl

end Run
end Rollout
