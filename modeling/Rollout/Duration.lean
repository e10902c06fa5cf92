/-!
# Durations

Lengths of time, exact to the nanosecond, and how they are shown: in the largest unit of seconds,
milliseconds, microseconds and nanoseconds that is not larger than the duration, with as many
decimals as it takes and no more.
-/

namespace Rollout

/-- A length of time. -/
structure Duration where
  nanoseconds : Nat
  deriving DecidableEq, Repr, Inhabited

namespace Duration

/-- No time at all. -/
def zero : Duration := ⟨0⟩

/-- So many seconds. -/
def ofSeconds (seconds : Nat) : Duration := ⟨seconds * 1000000000⟩

/-- A number of whole milliseconds. -/
def ofMilliseconds (milliseconds : Nat) : Duration := ⟨milliseconds * 1000000⟩

/-- The whole seconds in a duration. -/
def seconds (duration : Duration) : Nat := duration.nanoseconds / 1000000000

/-- The whole milliseconds in a duration. -/
def milliseconds (duration : Duration) : Nat := duration.nanoseconds / 1000000

/-- The time that two durations take one after the other. -/
def add (first second : Duration) : Duration := ⟨first.nanoseconds + second.nanoseconds⟩

/-- The time that all the durations take one after the other. -/
def sum (durations : List Duration) : Duration := durations.foldl add zero

@[simp]
theorem nanoseconds_zero : zero.nanoseconds = 0 := rfl

@[simp]
theorem nanoseconds_add (first second : Duration) :
    (first.add second).nanoseconds = first.nanoseconds + second.nanoseconds := rfl

/-! ## Showing a duration -/

/-- The decimals of `part / 10 ^ places`, without zeros at the end. -/
def decimals (places part : Nat) : List Char :=
  let digits := (toString part).toList
  let padded := List.replicate (places - digits.length) '0' ++ digits
  (padded.reverse.dropWhile (· = '0')).reverse

/-- The quotient `amount / 10 ^ places` as a decimal number, exactly. -/
def decimalText (places amount : Nat) : String :=
  let fraction := decimals places (amount % Nat.pow 10 places)
  let whole := toString (amount / Nat.pow 10 places)
  if fraction.isEmpty then whole else whole ++ "." ++ String.ofList fraction

/-- The duration as it is shown, such as `0ns`, `250ms`, `1.5s` or `60s`. -/
def text (duration : Duration) : String :=
  let amount := duration.nanoseconds
  if 1000000000 ≤ amount then decimalText 9 amount ++ "s"
  else if 1000000 ≤ amount then decimalText 6 amount ++ "ms"
  else if 1000 ≤ amount then decimalText 3 amount ++ "µs"
  else toString amount ++ "ns"

example : zero.text = "0ns" := by decide +kernel

example : (ofMilliseconds 1500).text = "1.5s" := by decide +kernel

example : (ofMilliseconds 123456).text = "123.456s" := by decide +kernel

example : (ofSeconds 60).text = "60s" := by decide +kernel

end Duration
end Rollout
