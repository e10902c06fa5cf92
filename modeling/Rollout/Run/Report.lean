import Rollout.Json.Printer
import Rollout.Run.Execution

/-!
# Run reports

The record of a run as it is kept in a file: what was done to each step and how long it took, in
whole milliseconds, and a summary.  Milliseconds are sixty-four bit words.
-/

namespace Rollout

/-- The record of one step. -/
structure ReportedStep where
  name : String
  outcome : Outcome
  milliseconds : UInt64
  deriving DecidableEq, Repr, Inhabited

/-- The summary of a run. -/
structure ReportSummary where
  totalSteps : Nat
  totalMilliseconds : UInt64
  executedSteps : List String
  deriving DecidableEq, Repr, Inhabited

/-- The record of a run. -/
structure Report where
  executionId : String
  timestamp : String
  deployment : String
  operation : Operation
  dryRun : Bool
  steps : List ReportedStep
  summary : ReportSummary
  deriving DecidableEq, Repr, Inhabited

/-- The outcome as it is named in reports. -/
def Outcome.name : Outcome → String
  | .applied => "applied"
  | .deleted => "deleted"
  | .alreadyAbsent => "already_absent"
  | .planned => "planned"

/-! ## Making a report -/

/-- The record of a result.  The time is that of whole milliseconds, in sixty-four bits. -/
def ReportedStep.ofResult (result : Completion) : ReportedStep :=
  ⟨result.step, result.outcome, UInt64.ofNat result.elapsed.milliseconds⟩

/-- The summary of the records of a run. -/
def ReportSummary.ofRecords (records : List ReportedStep) : ReportSummary :=
  ⟨records.length, records.foldl (fun total record => total + record.milliseconds) 0,
    records.map (·.name)⟩

/-- The report of a run with the given results. -/
def Report.ofResults (executionId timestamp deployment : String) (operation : Operation)
    (dryRun : Bool) (results : List Completion) : Report :=
  let records := results.map ReportedStep.ofResult
  ⟨executionId, timestamp, deployment, operation, dryRun, records, .ofRecords records⟩

@[simp]
theorem totalSteps_ofRecords (records : List ReportedStep) :
    (ReportSummary.ofRecords records).totalSteps = records.length := rfl

@[simp]
theorem executedSteps_ofRecords (records : List ReportedStep) :
    (ReportSummary.ofRecords records).executedSteps = records.map (·.name) := rfl

/-! ## The written form -/

/-- The record as it is written. -/
def ReportedStep.toJson (record : ReportedStep) : Json :=
  .object [
    ("name", .string record.name),
    ("outcome", .string record.outcome.name),
    ("duration_ms", .natural record.milliseconds.toNat)]

/-- The summary as it is written. -/
def ReportSummary.toJson (summary : ReportSummary) : Json :=
  .object [
    ("total_steps", .natural summary.totalSteps),
    ("total_duration_ms", .natural summary.totalMilliseconds.toNat),
    ("executed_steps", .array (summary.executedSteps.map Json.string))]

/-- The report as it is written. -/
def Report.toJson (report : Report) : Json :=
  .object [
    ("execution_id", .string report.executionId),
    ("timestamp", .string report.timestamp),
    ("deployment", .string report.deployment),
    ("operation", .string report.operation.name),
    ("dry_run", .bool report.dryRun),
    ("steps", .array (report.steps.map ReportedStep.toJson)),
    ("summary", report.summary.toJson)]

/-- The text of a report's file. -/
def Report.text (report : Report) : String :=
  report.toJson.pretty

end Rollout
