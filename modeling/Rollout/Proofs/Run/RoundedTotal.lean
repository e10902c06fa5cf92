import Rollout.Program.Display
import Rollout.Proofs.Duration
import Rollout.Run.Report

/-!
# Rounded totals

A report keeps the time that each step took in whole milliseconds and adds these up.  The program
shows the sum of the exact times instead.  The two totals differ only by what is lost when the time
of each step is rounded down.

## Strategy

The report calculates with words.  A sum of words is the sum of the numbers up to a multiple of
`2 ^ 64` (`ReportSummary.toNat_totalMilliseconds`), so it is exact when that sum is small enough,
and with it every sum on the way.  What remains is a comparison of durations
(`Duration.sum_milliseconds_le`, `Duration.milliseconds_sum_lt`).
-/

namespace Rollout

/-! ## Sums of words -/

namespace ReportSummary

theorem toNat_totalMilliseconds (records : List ReportedStep) :
    (ofRecords records).totalMilliseconds.toNat =
      (records.map (·.milliseconds.toNat)).sum % 2 ^ 64 := by
  -- the same for a sum that is under way
  have hfrom : ∀ start : UInt64,
      (records.foldl (fun total record => total + record.milliseconds) start).toNat =
        (start.toNat + (records.map (·.milliseconds.toNat)).sum) % 2 ^ 64 := by
    induction records with
    | nil =>
        intro start
        exact (Nat.mod_eq_of_lt start.toNat_lt).symm
    | cons record rest ih =>
        intro start
        rw [List.foldl_cons, ih, UInt64.toNat_add, List.map_cons, List.sum_cons, Nat.mod_add_mod,
          Nat.add_assoc]
  rw [ofRecords, hfrom, UInt64.toNat_zero, Nat.zero_add]

/-- When the whole sum fits into a word, so does every sum on the way to it. -/
theorem toNat_totalMilliseconds_take {records : List ReportedStep}
    (hfits : (records.map (·.milliseconds.toNat)).sum < 2 ^ 64) (count : Nat) :
    (ofRecords (records.take count)).totalMilliseconds.toNat =
      ((records.take count).map (·.milliseconds.toNat)).sum := by
  have hle : ((records.take count).map (·.milliseconds.toNat)).sum ≤
      (records.map (·.milliseconds.toNat)).sum :=
    ((List.take_sublist count records).map _).sum_le_sum fun _ _ => Nat.zero_le _
  rw [toNat_totalMilliseconds, Nat.mod_eq_of_lt (hle.trans_lt hfits)]

end ReportSummary

theorem ReportedStep.toNat_milliseconds_ofResult (result : Completion) :
    (ofResult result).milliseconds.toNat = result.elapsed.milliseconds % 2 ^ 64 :=
  UInt64.toNat_ofNat'

/-- When the times of all steps fit into a word together, each of them does. -/
theorem ReportedStep.map_toNat_milliseconds {results : List Completion}
    (hfits : (results.map (·.elapsed.milliseconds)).sum < 2 ^ 64) :
    (results.map ofResult).map (·.milliseconds.toNat) =
      results.map (·.elapsed.milliseconds) := by
  rw [List.map_map]
  refine List.map_congr_left fun result hresult => ?_
  have hle : result.elapsed.milliseconds ≤ (results.map (·.elapsed.milliseconds)).sum :=
    List.single_le_sum (fun _ _ => Nat.zero_le _) _ (List.mem_map_of_mem hresult)
  exact (toNat_milliseconds_ofResult result).trans (Nat.mod_eq_of_lt (hle.trans_lt hfits))

/-! ## The two totals -/

namespace Report

/-- **The total of a report differs from the time that is shown only by rounding.**  When the whole
milliseconds of the steps come to less than `2 ^ 64`, every step is recorded with its time rounded
down, and the total is the sum of the records, as is every sum on the way to it.  The run shows the
sum of the exact times, whose seconds fit into a word.  In whole milliseconds it is no less than the
total and exceeds it by less than the number of steps. -/
theorem total_differs_only_by_rounding (executionId timestamp deployment : String)
    (operation : Operation) (dryRun : Bool) {results : List Completion}
    (hfits : (results.map (·.elapsed.milliseconds)).sum < 2 ^ 64) :
    let report := ofResults executionId timestamp deployment operation dryRun results
    let total := report.summary.totalMilliseconds.toNat
    let shown := Display.totalElapsed results
    report.steps.map (·.milliseconds.toNat) = results.map (·.elapsed.nanoseconds / 1000000) ∧
      total = (report.steps.map (·.milliseconds.toNat)).sum ∧
      (∀ count, (ReportSummary.ofRecords (report.steps.take count)).totalMilliseconds.toNat =
        ((report.steps.take count).map (·.milliseconds.toNat)).sum) ∧
      shown.nanoseconds = (results.map (·.elapsed.nanoseconds)).sum ∧
      (results.length ≤ 2 ^ 64 → shown.seconds < 2 ^ 64) ∧
      (∀ action, ∃ front, (Display.runLines action executionId results).getLast? =
        some (front ++ shown.text)) ∧
      total ≤ shown.milliseconds ∧
      (results ≠ [] → shown.milliseconds < total + results.length) ∧
      (results = [] → shown.milliseconds = total) := by
  intro report total shown
  have hrecords : report.steps.map (·.milliseconds.toNat) =
      results.map (·.elapsed.milliseconds) :=
    ReportedStep.map_toNat_milliseconds hfits
  have hpartial := ReportSummary.toNat_totalMilliseconds_take (hrecords ▸ hfits)
  have htotal : total = (report.steps.map (·.milliseconds.toNat)).sum := by
    have hall := hpartial report.steps.length
    rwa [List.take_length] at hall
  have helapsed : total = ((results.map (·.elapsed)).map Duration.milliseconds).sum := by
    rw [htotal, hrecords, List.map_map]
    rfl
  refine ⟨hrecords, htotal, hpartial, ?_, ?_, ?_, ?_, ?_, ?_⟩
  · have hsum := Duration.nanoseconds_sum (results.map (·.elapsed))
    rwa [List.map_map] at hsum
  · intro hcount
    rw [← List.length_map (·.elapsed)] at hcount
    refine Duration.seconds_sum_lt hcount ?_
    rwa [List.map_map]
  · intro action
    exact ⟨_, by rw [Display.runLines, List.getLast?_concat]⟩
  · rw [helapsed]
    exact Duration.sum_milliseconds_le _
  · intro hresults
    rw [helapsed, ← List.length_map (·.elapsed)]
    exact Duration.milliseconds_sum_lt (by simpa using hresults)
  · rintro rfl
    rw [helapsed]
    exact Nat.zero_div 1000000

/-- Three steps that each lose most of a millisecond, the first of them nearly as long as a report
can tell. -/
def longRun : List Completion := [
  ⟨"config", .apply, .applied, ⟨18446744073709551612900000⟩, "config created"⟩,
  ⟨"server", .apply, .applied, ⟨2800000⟩, "server created"⟩,
  ⟨"service", .apply, .applied, ⟨999999⟩, "service created"⟩]

/-- The report says two milliseconds less than the run shows, for three steps. -/
theorem totals_of_longRun :
    let report := ofResults "deploy_1" "now" "demo" .apply false longRun
    (longRun.map (·.elapsed.milliseconds)).sum < 2 ^ 64 ∧
      report.steps.map (·.milliseconds.toNat) = [18446744073709551612, 2, 0] ∧
      report.summary.totalMilliseconds.toNat = 18446744073709551614 ∧
      (Display.totalElapsed longRun).milliseconds = 18446744073709551616 ∧
      (Display.totalElapsed longRun).milliseconds <
        report.summary.totalMilliseconds.toNat + longRun.length := by
  have hfits : (longRun.map (·.elapsed.milliseconds)).sum < 2 ^ 64 := by decide
  obtain ⟨hrecords, htotal, -, -, -, -, -, hless, -⟩ :=
    total_differs_only_by_rounding "deploy_1" "now" "demo" .apply false hfits
  refine ⟨hfits, hrecords.trans (by decide), htotal.trans ?_, by decide, hless (by decide)⟩
  rw [hrecords]
  decide

end Report
end Rollout
