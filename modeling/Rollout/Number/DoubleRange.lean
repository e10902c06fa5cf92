/-!
# The range of a double

Which decimal numbers are too large for a double, that is for a binary floating point number with
fifty-three significant bits and exponents up to 1023.  All arithmetic is exact, on natural numbers.

## Two readers

A reader that rounds once refuses a number exactly when it lies at or above the midpoint between the
largest double and `2 ^ 1024` (`exceedsDouble`).  A reader that takes at most sixty-four bits of the
digits, rounds them, and multiplies by a rounded power of ten refuses a number when that product
does (`productExceedsDouble`).  The two differ only in the last places below the limit.
-/

namespace Rollout.Number

/-- The least number that a double cannot hold: the midpoint above the largest double, which rounds
up to the even neighbour. -/
def doubleLimit : Nat := Nat.pow 2 1024 - Nat.pow 2 970

/-- A natural number rounded to fifty-three significant bits, a tie going to the even neighbour. -/
def roundToDouble (value : Nat) : Nat :=
  let spare := Nat.log2 value - 52
  let unit := Nat.pow 2 spare
  let quotient := value / unit
  let remainder := value % unit
  if 2 * remainder < unit || (2 * remainder == unit && quotient % 2 == 0) then quotient * unit
  else (quotient + 1) * unit

/-- Whether `coefficient * 10 ^ exponent` rounds to infinity. -/
def exceedsDouble (coefficient : Nat) (exponent : Int) : Bool :=
  if coefficient = 0 then false
  else if 0 ≤ exponent then
    -- past this exponent the power of ten alone is too large, and it is not computed
    exponent > 310 || doubleLimit ≤ coefficient * Nat.pow 10 exponent.toNat
  else
    -- with more places than bits the number is below one
    let places := (-exponent).toNat
    places ≤ Nat.log2 coefficient && doubleLimit * Nat.pow 10 places ≤ coefficient

/-- Whether the product of the rounded coefficient and the rounded power of ten is infinite. -/
def productExceedsDouble (coefficient : Nat) (exponent : Int) : Bool :=
  if coefficient = 0 ∨ exponent < 0 then false
  else
    exponent > 308 ||
      doubleLimit ≤ roundToDouble coefficient * roundToDouble (Nat.pow 10 exponent.toNat)

example : exceedsDouble 17976931348623157 292 = false := by decide +kernel

example : exceedsDouble 1 309 = true := by decide +kernel

example : productExceedsDouble 1 308 = false := by decide +kernel

example : productExceedsDouble 1 400 = true := by decide +kernel

end Rollout.Number
