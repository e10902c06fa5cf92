import Rollout.Json.Reader
import Rollout.Manifest.Order
import Rollout.Run.Work

/-!
# Verification

Asks the control plane for every object that a manifest set declares and tells which of them are
ready.  Objects that are not ready are asked for again, up to a number of passes and with a pause
before each; an object that was ready once is not asked for again.

## Strategy

The first pass asks for every target.  A later pass goes over the statuses of the pass before it and
replaces those that are not ready.  `poll` counts the passes that are left, so it recurses on them.
-/

namespace Rollout

/-- The readiness of one object. -/
structure Status where
  target : Target
  readiness : Readiness
  deriving DecidableEq, Repr, Inhabited

/-- Whether the object of a status is ready. -/
def Status.isReady (status : Status) : Bool := status.readiness.isReady

/-- The result of a verification. -/
structure Verification where
  statuses : List Status
  passes : Nat
  deriving DecidableEq, Repr, Inhabited

namespace Verification

/-- Whether every object is ready. -/
def allReady (report : Verification) : Bool :=
  report.statuses.all (·.isReady)

/-- The statuses that are not ready. -/
def pending (report : Verification) : List Status :=
  report.statuses.filter (!·.isReady)

/-- The report, or an error that names every object that is not ready. -/
def strict (report : Verification) : Except Failure Verification :=
  if report.allReady then .ok report
  else .error (.notReady (report.pending.map (·.target.label)))

theorem strict_of_allReady {report : Verification} (hready : report.allReady = true) :
    report.strict = .ok report := by
  simp [strict, hready]

end Verification

/-- How often and at which interval a verification looks at the objects. -/
structure Polling where
  /-- The greatest number of passes; zero counts as one. -/
  attempts : Nat
  /-- The pause before each pass but the first. -/
  interval : Duration
  deriving DecidableEq, Repr, Inhabited

/-- One pass, without a pause. -/
def Polling.once : Polling := ⟨1, .zero⟩

namespace Verify

variable {σ : Type}

/-! ## One object -/

/-- What an output means for the object that was asked for. -/
def judge (target : Target) (output : Output) : Except Failure Readiness :=
  if output.success then
    match Json.parse output.stdout with
    | .ok object => .ok (Readiness.ofObject target.kind object)
    | .error fault => .error (.unreadableStatus target.label fault.message)
  else if output.meansAbsence then .ok .missing
  else .error (.commandFailed target.step .get output.exitCode? output.stderr)

/-- Looks at one object. -/
def check (plane : ControlPlane σ) (target : Target) : Work σ Status := do
  let reply ← Work.ask plane target.request
  match judge target reply.output with
  | .error error => Work.fail error
  | .ok readiness =>
      Work.report (.checked target readiness)
      return ⟨target, readiness⟩

/-! ## Passes -/

/-- Looks at every object. -/
def firstPass (plane : ControlPlane σ) : List Target → Work σ (List Status)
  | [] => pure []
  | target :: rest => do
      let status ← check plane target
      let statuses ← firstPass plane rest
      return status :: statuses

/-- Looks again at every object that was not ready. -/
def nextPass (plane : ControlPlane σ) : List Status → Work σ (List Status)
  | [] => pure []
  | status :: rest => do
      let status ← if status.isReady then pure status else check plane status.target
      let statuses ← nextPass plane rest
      return status :: statuses

/-- Makes up to `remaining` more passes after `passes` of them have led to the given statuses. -/
def poll (plane : ControlPlane σ) (interval : Duration) :
    (remaining passes : Nat) → List Status → Work σ Verification
  | 0, passes, statuses => pure ⟨statuses, passes⟩
  | remaining + 1, passes, statuses =>
      let report : Verification := ⟨statuses, passes⟩
      if report.allReady then pure report
      else do
        Work.report (.postponed report.pending.length interval)
        Work.pause plane interval
        let statuses ← nextPass plane statuses
        poll plane interval remaining (passes + 1) statuses

/-- Verifies the objects of a set: one pass over all of them, and more over those that are not
ready. -/
def verify (plane : ControlPlane σ) (polling : Polling) (set : Manifests) :
    Work σ Verification := do
  let statuses ← firstPass plane set.targets
  poll plane polling.interval (polling.attempts - 1) 1 statuses

/-! ## Equations -/

/-- Without further passes the statuses are final. -/
@[simp]
theorem poll_zero (plane : ControlPlane σ) (interval : Duration) (passes : Nat)
    (statuses : List Status) :
    poll plane interval 0 passes statuses = pure ⟨statuses, passes⟩ := rfl

/-- When every object is ready there are no further passes. -/
theorem poll_of_allReady (plane : ControlPlane σ) (interval : Duration) (remaining passes : Nat)
    {statuses : List Status}
    (hready : (Verification.mk statuses passes).allReady = true) :
    poll plane interval remaining passes statuses = pure ⟨statuses, passes⟩ := by
  cases remaining with
  | zero => rfl
  | succ remaining => simp [poll, hready]

end Verify
end Rollout
