import Mathlib.Algebra.Order.BigOperators.Group.List
import Mathlib.Algebra.Order.Ring.Nat
import Rollout.Duration

/-!
# Sums of durations

Durations are added exactly.  Rounding each of several durations down to whole milliseconds loses
less than a millisecond for each of them, so the sum of the rounded durations is close to the
rounded sum.

## Strategy

A duration lies between its whole milliseconds and the next one.  Adding this up along the list
bounds the exact sum on both sides (`sum_milliseconds_mul_le`, `sum_nanoseconds_add_length_le`), and
the whole milliseconds of the sum are then a matter of one division.
-/

namespace Rollout.Duration

theorem nanoseconds_sum (durations : List Duration) :
    (sum durations).nanoseconds = (durations.map nanoseconds).sum := by
  have hfrom : ∀ start, (durations.foldl add start).nanoseconds =
      start.nanoseconds + (durations.map nanoseconds).sum := by
    induction durations with
    | nil => simp
    | cons duration rest ih =>
        intro start
        rw [List.foldl_cons, ih, nanoseconds_add, List.map_cons, List.sum_cons, Nat.add_assoc]
  rw [sum, hfrom, nanoseconds_zero, Nat.zero_add]

/-! ## Rounding down -/

theorem milliseconds_mul_le (duration : Duration) :
    duration.milliseconds * 1000000 ≤ duration.nanoseconds :=
  Nat.div_mul_le_self _ _

theorem nanoseconds_lt (duration : Duration) :
    duration.nanoseconds < (duration.milliseconds + 1) * 1000000 :=
  Nat.lt_mul_of_div_lt (Nat.lt_succ_self _) (by decide)

theorem sum_milliseconds_mul_le (durations : List Duration) :
    (durations.map milliseconds).sum * 1000000 ≤ (durations.map nanoseconds).sum := by
  induction durations with
  | nil => simp
  | cons duration rest ih =>
      have hfirst := duration.milliseconds_mul_le
      rw [List.map_cons, List.map_cons, List.sum_cons, List.sum_cons, Nat.add_mul]
      exact Nat.add_le_add hfirst ih

/-- Each of several durations loses less than a millisecond when it is rounded down. -/
theorem sum_nanoseconds_add_length_le (durations : List Duration) :
    (durations.map nanoseconds).sum + durations.length ≤
      ((durations.map milliseconds).sum + durations.length) * 1000000 := by
  induction durations with
  | nil => simp
  | cons duration rest ih =>
      have hfirst := duration.nanoseconds_lt
      simp only [List.map_cons, List.sum_cons, List.length_cons]
      omega

/-- Durations that are rounded down before they are added come to no more than their sum. -/
theorem sum_milliseconds_le (durations : List Duration) :
    (durations.map milliseconds).sum ≤ (sum durations).milliseconds := by
  rw [milliseconds, nanoseconds_sum, Nat.le_div_iff_mul_le (by decide)]
  exact sum_milliseconds_mul_le durations

theorem milliseconds_sum_lt {durations : List Duration} (hdurations : durations ≠ []) :
    (sum durations).milliseconds < (durations.map milliseconds).sum + durations.length := by
  have hsome := List.length_pos_iff.mpr hdurations
  have hlost := sum_nanoseconds_add_length_le durations
  rw [milliseconds, nanoseconds_sum, Nat.div_lt_iff_lt_mul (by decide)]
  omega

/-- The exact sum needs no more bits for its seconds than the rounded sum for its milliseconds. -/
theorem seconds_sum_lt {durations : List Duration} (hcount : durations.length ≤ 2 ^ 64)
    (hfits : (durations.map milliseconds).sum < 2 ^ 64) : (sum durations).seconds < 2 ^ 64 := by
  have hlost := sum_nanoseconds_add_length_le durations
  rw [seconds, nanoseconds_sum, Nat.div_lt_iff_lt_mul (by decide)]
  omega

end Rollout.Duration
