import Rollout.CommandLine.Options
import Rollout.Config.Settings
import Rollout.Failure.Guidance
import Rollout.Run.Plan
import Rollout.Run.Execution
import Rollout.Text.Numeral

/-!
# What the program shows

The lines that the program prints about a run, a verification, a plan and an error.
-/

namespace Rollout.Display

/-- Lines as text, each with its line end. -/
def unlines (lines : List String) : String :=
  String.join (lines.map (· ++ "\n"))

/-! ## Runs -/

/-- The line about a step of a run. -/
def resultLine (position : Nat) (result : Completion) : String :=
  "  " ++ toString position ++ ". " ++
    match result.outcome with
    | .planned => result.step ++ ": " ++ result.output
    | .applied => "✅ " ++ result.step ++ " applied in " ++ result.elapsed.text
    | .deleted => "🗑️ " ++ result.step ++ " deleted in " ++ result.elapsed.text
    | .alreadyAbsent => "⏭️ " ++ result.step ++ " already absent"

/-- The lines about the steps of a run, of which `completed` have been shown. -/
def resultLines : (completed : Nat) → List Completion → List String
  | _, [] => []
  | completed, result :: rest =>
      resultLine (completed + 1) result :: resultLines (completed + 1) rest

/-- How long the steps of a run took together. -/
def totalElapsed (results : List Completion) : Duration :=
  .sum (results.map (·.elapsed))

/-- The lines about a run. -/
def runLines (action : Action) (executionId : String) (results : List Completion) : List String :=
  ("📝 " ++ action.title ++ " steps (" ++ executionId ++ "):") :: resultLines 0 results ++
    ["✅ " ++ action.title ++ " completed: " ++ toString results.length ++ " steps in " ++
      (totalElapsed results).text]

/-- The line about a report that was written. -/
def reportLine (path : Path) : String := "📊 Report written to: " ++ path.text

/-! ## Verifications -/

/-- The readiness of an object in words. -/
def readinessText : Readiness → String
  | .ready => "✅ ready"
  | .notReady count desired => "⏳ not ready (" ++ Readiness.reason count desired ++ ")"
  | .missing => "❌ missing"

/-- The line about an object. -/
def statusLine (status : Status) : String :=
  "  " ++ Text.padEnd 20 status.target.step ++ " " ++ status.target.label ++ " " ++
    readinessText status.readiness

/-- The last line about a verification. -/
def summaryLine (report : Verification) : String :=
  let pending := report.pending.length
  let total := toString report.statuses.length
  if pending = 0 then "✅ All " ++ total ++ " resources ready"
  else
    "⚠️ " ++ toString pending ++ " of " ++ total ++ " resources not ready after " ++
      toString report.passes ++ " check(s)"

/-- The lines about a verification. -/
def statusLines (report : Verification) : List String :=
  "🔍 Resource status:" :: report.statuses.map statusLine ++ [summaryLine report]

/-! ## Plans -/

/-- The lines about a step of a plan. -/
def plannedLines (planned : PlanEntry) : List String :=
  ["  " ++ toString planned.position ++ ". [" ++ planned.stage.name ++ "] " ++ planned.name,
    "     " ++ planned.command]

/-- The lines about a plan. -/
def planLines (action : Action) (name : String) (plan : List PlanEntry) : List String :=
  ("📋 " ++ action.title ++ " plan for '" ++ name ++ "':") :: plan.flatMap plannedLines

/-! ## Errors -/

/-- The lines about an error. -/
def errorLines (error : Failure) : List String :=
  ["❌ " ++ error.friendly, "💡 Suggestion: " ++ error.suggestion]

end Rollout.Display
