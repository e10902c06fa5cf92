import Mathlib.Data.Option.Basic
import Rollout.Proofs.Json.RoundTrip
import Rollout.Run.Report

/-!
# Written reports

The file of a report is JSON, and reading it gives back the report: the same fields with the same
values, and the same steps in the same order.

## Strategy

The JSON value of a report fits what is read back from its printed form (`Report.fits_toJson`), so
the text gives back that value.  Each record is then read member by member from its value.  The
number of steps is a word on the machine that writes the report; a larger number would be printed in
full and read back as a rounded one.
-/

namespace Rollout

/-! ## Reading a report -/

namespace Json

/-- The names of the members of an object, in order and with repetitions. -/
def memberNames : Json → List String
  | .object members => members.map (·.1)
  | _ => []

/-- The text that a value is. -/
def text? : Json → Option String
  | .string text => some text
  | _ => none

/-- The truth value that a value is. -/
def flag? : Json → Option Bool
  | .bool value => some value
  | _ => none

/-- The items of an array. -/
def items? : Json → Option (List Json)
  | .array items => some items
  | _ => none

end Json

/-- The outcome with a name. -/
def Outcome.named? (name : String) : Option Outcome :=
  [applied, deleted, alreadyAbsent, planned].find? (·.name = name)

/-- The operation with a name. -/
def Operation.named? (name : String) : Option Operation :=
  [apply, delete, get].find? (·.name = name)

@[simp]
theorem Outcome.named?_name (outcome : Outcome) : Outcome.named? outcome.name = some outcome := by
  cases outcome <;> decide +kernel

@[simp]
theorem Operation.named?_name (operation : Operation) :
    Operation.named? operation.name = some operation := by
  cases operation <;> decide +kernel

/-- Reads the record of a step. -/
def ReportedStep.ofJson? (value : Json) : Option ReportedStep := do
  let name ← (value.member? "name").bind Json.text?
  let outcome ← ((value.member? "outcome").bind Json.text?).bind Outcome.named?
  let milliseconds ← (value.member? "duration_ms").bind Json.word?
  return ⟨name, outcome, milliseconds⟩

/-- Reads a summary. -/
def ReportSummary.ofJson? (value : Json) : Option ReportSummary := do
  let totalSteps ← (value.member? "total_steps").bind Json.word?
  let totalMilliseconds ← (value.member? "total_duration_ms").bind Json.word?
  let executed ← (value.member? "executed_steps").bind Json.items?
  let executedSteps ← executed.mapM Json.text?
  return ⟨totalSteps.toNat, totalMilliseconds, executedSteps⟩

/-- Reads a report. -/
def Report.ofJson? (value : Json) : Option Report := do
  let executionId ← (value.member? "execution_id").bind Json.text?
  let timestamp ← (value.member? "timestamp").bind Json.text?
  let deployment ← (value.member? "deployment").bind Json.text?
  let operation ← ((value.member? "operation").bind Json.text?).bind Operation.named?
  let dryRun ← (value.member? "dry_run").bind Json.flag?
  let records ← (value.member? "steps").bind Json.items?
  let steps ← records.mapM ReportedStep.ofJson?
  let summary ← (value.member? "summary").bind ReportSummary.ofJson?
  return ⟨executionId, timestamp, deployment, operation, dryRun, steps, summary⟩

/-! ## Values of reports -/

/-- Reading every element of a list of written ones gives the list. -/
theorem mapM_map_eq_some {α β : Type} {write : α → β} {read? : β → Option α}
    (hread : ∀ element, read? (write element) = some element) (elements : List α) :
    (elements.map write).mapM read? = some elements := by
  have hpure : read? ∘ write = (pure : α → Option α) := funext hread
  rw [List.mapM_map, hpure]
  exact List.mapM_pure.trans (congrArg some (List.map_id _))

theorem ReportedStep.ofJson?_toJson (record : ReportedStep) :
    ReportedStep.ofJson? record.toJson = some record := by
  obtain ⟨name, outcome, milliseconds⟩ := record
  simp [ofJson?, toJson, Json.member?, Json.text?, Json.word?_natural milliseconds.toNat_lt]

theorem ReportSummary.ofJson?_toJson {summary : ReportSummary}
    (hsteps : summary.totalSteps < UInt64.size) :
    ReportSummary.ofJson? summary.toJson = some summary := by
  obtain ⟨totalSteps, totalMilliseconds, executedSteps⟩ := summary
  have htext : ∀ text, Json.text? (.string text) = some text := fun _ => rfl
  have hexecuted : (executedSteps.map Json.string).mapM Json.text? = some executedSteps :=
    mapM_map_eq_some htext executedSteps
  have hword : totalSteps < 18446744073709551616 := hsteps
  simp [ofJson?, toJson, Json.member?, Json.items?, hexecuted, Json.word?_natural hsteps,
    Json.word?_natural totalMilliseconds.toNat_lt, hword]

theorem Report.ofJson?_toJson {report : Report}
    (hsteps : report.summary.totalSteps < UInt64.size) :
    Report.ofJson? report.toJson = some report := by
  obtain ⟨executionId, timestamp, deployment, operation, dryRun, steps, summary⟩ := report
  have hrecords : (steps.map ReportedStep.toJson).mapM ReportedStep.ofJson? = some steps :=
    mapM_map_eq_some ReportedStep.ofJson?_toJson steps
  simp [ofJson?, toJson, Json.member?, Json.text?, Json.flag?, Json.items?, hrecords,
    ReportSummary.ofJson?_toJson hsteps]

/-! ## Texts of reports -/

theorem ReportedStep.fits_toJson (depth : Nat) (record : ReportedStep) :
    Json.Fits (depth + 1) record.toJson := by
  refine .object fun member hmember => ?_
  simp only [List.mem_cons, List.not_mem_nil, or_false] at hmember
  rcases hmember with rfl | rfl | rfl
  · exact .string _ _
  · exact .string _ _
  · exact .integer _ _ record.milliseconds.toNat_lt

theorem ReportSummary.fits_toJson (depth : Nat) {summary : ReportSummary}
    (hsteps : summary.totalSteps < UInt64.size) : Json.Fits (depth + 2) summary.toJson := by
  refine .object fun member hmember => ?_
  simp only [List.mem_cons, List.not_mem_nil, or_false] at hmember
  rcases hmember with rfl | rfl | rfl
  · exact .integer _ _ hsteps
  · exact .integer _ _ summary.totalMilliseconds.toNat_lt
  · refine .array fun item hitem => ?_
    obtain ⟨name, -, rfl⟩ := List.mem_map.mp hitem
    exact .string _ _

theorem Report.fits_toJson (depth : Nat) {report : Report}
    (hsteps : report.summary.totalSteps < UInt64.size) : Json.Fits (depth + 3) report.toJson := by
  refine .object fun member hmember => ?_
  simp only [List.mem_cons, List.not_mem_nil, or_false] at hmember
  rcases hmember with rfl | rfl | rfl | rfl | rfl | rfl | rfl
  · exact .string _ _
  · exact .string _ _
  · exact .string _ _
  · exact .string _ _
  · exact .bool _ _
  · refine .array fun item hitem => ?_
    obtain ⟨record, -, rfl⟩ := List.mem_map.mp hitem
    exact record.fits_toJson depth
  · exact ReportSummary.fits_toJson depth hsteps

/-- The text of a report is JSON, with the value that was printed. -/
theorem Report.parse_text {report : Report} (hsteps : report.summary.totalSteps < UInt64.size) :
    Json.parse report.text = .ok report.toJson :=
  Json.parse_pretty (Report.fits_toJson 124 hsteps)

/-- **A written report can be read back.**  Its text is JSON; the object that it writes has exactly
the members of a report, of its steps and of its summary, each once; and reading that object gives
the report again.  So two reports never have the same text.

The number of steps has to be a word, as it is on the machine that writes the report. -/
theorem written_report_reads_back {report : Report}
    (hsteps : report.summary.totalSteps < UInt64.size) :
    (∃ value, Json.parse report.text = .ok value ∧ Report.ofJson? value = some report ∧
      value.memberNames =
        ["execution_id", "timestamp", "deployment", "operation", "dry_run", "steps", "summary"] ∧
      (∃ records, value.member? "steps" = some (.array records) ∧
        records.length = report.steps.length ∧
        ∀ record ∈ records, record.memberNames = ["name", "outcome", "duration_ms"]) ∧
      ∃ summary, value.member? "summary" = some summary ∧
        summary.memberNames = ["total_steps", "total_duration_ms", "executed_steps"]) ∧
    ∀ other : Report, other.summary.totalSteps < UInt64.size → other.text = report.text →
      other = report := by
  constructor
  · refine ⟨report.toJson, Report.parse_text hsteps, Report.ofJson?_toJson hsteps, rfl,
      ⟨report.steps.map ReportedStep.toJson, rfl, List.length_map _, ?_⟩,
      report.summary.toJson, rfl, rfl⟩
    intro record hrecord
    obtain ⟨step, -, rfl⟩ := List.mem_map.mp hrecord
    rfl
  · intro other hother htext
    have hparsed : (.ok other.toJson : Except Json.Fault Json) = .ok report.toJson :=
      calc .ok other.toJson = Json.parse other.text := (Report.parse_text hother).symm
        _ = Json.parse report.text := congrArg Json.parse htext
        _ = .ok report.toJson := Report.parse_text hsteps
    have hread : some other = some report :=
      calc some other = Report.ofJson? other.toJson := (Report.ofJson?_toJson hother).symm
        _ = Report.ofJson? report.toJson := congrArg Report.ofJson? (Except.ok.inj hparsed)
        _ = some report := Report.ofJson?_toJson hsteps
    exact Option.some.inj hread

/-- A report with texts that have to be escaped, an empty name and the longest time. -/
def unusualReport : Report where
  executionId := "a\"b\\c\n\x01"
  timestamp := "2026-01-01T00:00:00+00:00"
  deployment := "é 😀 /\t\x7f"
  operation := .delete
  dryRun := false
  steps := [⟨"", .alreadyAbsent, 18446744073709551615⟩]
  summary := ⟨1, 18446744073709551615, [""]⟩

theorem unusualReport_reads_back :
    unusualReport.summary.totalSteps < UInt64.size ∧
      ∃ value, Json.parse unusualReport.text = .ok value ∧
        Report.ofJson? value = some unusualReport := by
  have hsteps : unusualReport.summary.totalSteps < UInt64.size := by decide
  obtain ⟨⟨value, hparse, hread, -⟩, -⟩ := written_report_reads_back hsteps
  exact ⟨hsteps, value, hparse, hread⟩

end Rollout
