import Rollout.Duration
import Rollout.Failure.Cause
import Rollout.Verify.Readiness

/-!
# Events

What a run tells about itself while it goes on: each event has a level and a message, and the first
event of a run also carries the identifier of the run.
-/

namespace Rollout

/-- What became of a step. -/
inductive Outcome
  | applied
  | deleted
  | alreadyAbsent
  /-- The step was only planned. -/
  | planned
  deriving DecidableEq, Repr, Inhabited

/-- The outcome as it is named in messages. -/
def Outcome.label : Outcome → String
  | .applied => "Applied"
  | .deleted => "Deleted"
  | .alreadyAbsent => "AlreadyAbsent"
  | .planned => "Planned"

/-- The readiness as it is named in messages. -/
def Readiness.label : Readiness → String
  | .ready => "Ready"
  | .notReady count desired => "NotReady \x7b reason: \"" ++ reason count desired ++ "\" \x7d"
  | .missing => "Missing"

/-- How important an event is. -/
inductive Level
  | debug
  | info
  | warn
  | error
  deriving DecidableEq, Repr, Inhabited

/-- What can happen in a run. -/
inductive Event
  /-- A run over so many manifests begins. -/
  | started (executionId : String) (action : Action) (count : Nat) (dryRun : Bool)
  /-- The control plane has answered for a step. -/
  | answered (action : Action) (step stdout : String)
  /-- A failed delete counts as done, because there was nothing to delete. -/
  | toleratedAbsence (step stderr : String)
  /-- A step is done. -/
  | finished (position count : Nat) (step : String) (outcome : Outcome) (elapsed : Duration)
  /-- A step has failed. -/
  | failed (position count : Nat) (step : String) (error : Failure)
  /-- An object has been looked at. -/
  | checked (target : Target) (readiness : Readiness)
  /-- So many objects are not ready and will be looked at again. -/
  | postponed (count : Nat) (interval : Duration)
  deriving DecidableEq, Repr, Inhabited

namespace Event

/-- How important an event is. -/
def level : Event → Level
  | answered .. | checked .. => .debug
  | started .. | finished .. | postponed .. => .info
  | toleratedAbsence .. => .warn
  | failed .. => .error

/-- A position in a run, such as `2/7`. -/
def positionText (position count : Nat) : String :=
  toString position ++ "/" ++ toString count

/-- The event in words. -/
def message : Event → String
  | started _ action count dryRun =>
      "🎬 Starting " ++ action.name ++ " of " ++ toString count ++ " manifests" ++
        (if dryRun then " (dry run)" else "")
  | answered action step stdout => action.name ++ " " ++ step ++ ": " ++ Text.trim stdout
  | toleratedAbsence step stderr => "⏭️ " ++ step ++ " already absent: " ++ Text.trim stderr
  | finished position count step outcome elapsed =>
      "✅ " ++ positionText position count ++ " " ++ step ++ " (" ++ outcome.label ++ ", " ++
        elapsed.text ++ ")"
  | failed position count step error =>
      "❌ Step " ++ positionText position count ++ " '" ++ step ++ "' failed: " ++ error.message
  | checked target readiness => target.label ++ ": " ++ readiness.label
  | postponed count interval =>
      "⏳ " ++ toString count ++ " resource(s) not ready, checking again in " ++ interval.text

/-- The identifier of the run, where an event carries it. -/
def executionId? : Event → Option String
  | started executionId .. => some executionId
  | _ => none

end Event
end Rollout
