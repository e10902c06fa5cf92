import Rollout.Text.Numeral

/-!
# The calendar

Instants of universal time as dates and times of the Gregorian calendar, and the two texts made of
them: the identifier of a run and the time of a report.

## Strategy

Years are counted from the first of March, so a leap day is the last day of its year, and 400 such
years, of 146097 days, make a cycle.
-/

namespace Rollout

/-- An instant of universal time. -/
structure Instant where
  seconds : Nat
  nanoseconds : Nat := 0
  deriving DecidableEq, Repr, Inhabited

/-- A day of the calendar. -/
structure Day where
  year : Nat
  month : Nat
  day : Nat
  deriving DecidableEq, Repr, Inhabited

namespace Instant

/-! ## Days -/

/-- The days from the first of March of the year zero to the start of 1970. -/
def daysBefore1970 : Nat := 719468

/-- The days of a cycle of 400 years. -/
def cycleDays : Nat := 146097

/-- The year of a cycle, counted from March, in which a day of the cycle lies. -/
def yearOfCycle (day : Nat) : Nat :=
  (day - day / 1460 + day / 36524 - day / 146096) / 365

/-- The day of the calendar so many days after the start of 1970. -/
def dayOf (days : Nat) : Day :=
  -- the cycle, and the day in it
  let shifted := days + daysBefore1970
  let cycle := shifted / cycleDays
  let dayOfCycle := shifted % cycleDays
  -- the year counted from March, and the day in it
  let year := yearOfCycle dayOfCycle
  let dayOfYear := dayOfCycle - (365 * year + year / 4 - year / 100)
  -- five months from March or from August on have 153 days together
  let monthFromMarch := (5 * dayOfYear + 2) / 153
  let month := if monthFromMarch < 10 then monthFromMarch + 3 else monthFromMarch - 9
  { year := cycle * 400 + year + (if month ≤ 2 then 1 else 0)
    month
    day := dayOfYear - (153 * monthFromMarch + 2) / 5 + 1 }

/-- The day of an instant. -/
def day (instant : Instant) : Day := dayOf (instant.seconds / 86400)

/-- The full hours of the day that have passed. -/
def hour (instant : Instant) : Nat := instant.seconds / 3600 % 24

/-- The full minutes of the hour that have passed. -/
def minute (instant : Instant) : Nat := instant.seconds / 60 % 60

/-- The full seconds of the minute that have passed. -/
def second (instant : Instant) : Nat := instant.seconds % 60

/-! ## Texts -/

/-- The parts of a date or time, with a text between two of them. -/
def joinParts (between : String) (parts : List (Nat × Nat)) : String :=
  between.intercalate (parts.map fun part => Text.zeroPadded part.1 part.2)

/-- The year, month and day, with a text between two of them. -/
def dateText (between : String) (instant : Instant) : String :=
  joinParts between [(4, instant.day.year), (2, instant.day.month), (2, instant.day.day)]

/-- The hour, minute and second, with a text between two of them. -/
def timeText (between : String) (instant : Instant) : String :=
  joinParts between [(2, instant.hour), (2, instant.minute), (2, instant.second)]

/-- The identifier of a run that begins at an instant. -/
def executionId (instant : Instant) : String :=
  "deploy_" ++ instant.dateText "" ++ "_" ++ instant.timeText ""

/-- The fraction of the second in as many groups of three digits as it takes, and nothing if the
instant is at a full second. -/
def fractionText (instant : Instant) : String :=
  let nanoseconds := instant.nanoseconds
  if nanoseconds = 0 then ""
  else if nanoseconds % 1000000 = 0 then "." ++ Text.zeroPadded 3 (nanoseconds / 1000000)
  else if nanoseconds % 1000 = 0 then "." ++ Text.zeroPadded 6 (nanoseconds / 1000)
  else "." ++ Text.zeroPadded 9 nanoseconds

/-- The time of a report that is made at an instant. -/
def timestamp (instant : Instant) : String :=
  instant.dateText "-" ++ "T" ++ instant.timeText ":" ++ instant.fractionText ++ "+00:00"

/-- Whether a text has the form of an identifier that was made up. -/
def isExecutionId (text : String) : Bool :=
  let chars := text.toList
  let digits := chars.drop 7
  chars.take 7 = "deploy_".toList && digits.length = 15 &&
    (digits.take 8).all Text.isDecimal && (digits.drop 8).take 1 = ['_'] &&
    (digits.drop 9).all Text.isDecimal

example : executionId ⟨1767225599, 0⟩ = "deploy_20251231_235959" := by decide +kernel

example : timestamp ⟨951782400, 5000000⟩ = "2000-02-29T00:00:00.005+00:00" := by decide +kernel

example : isExecutionId (executionId ⟨0, 0⟩) = true := by decide +kernel

end Instant
end Rollout
