import Mathlib.Data.Nat.Digits.Defs
import Rollout.Text.Numeral

/-!
# Printed numbers

A natural number is printed in decimal digits, most significant digit first and without a zero in
front, and the digits write the number again.

## Strategy

The printed digits are those of `Nat.toDigits`, for which the library has `Nat.ofDigitChars` as the
way back.  On decimal digits this is the number that `digitsFrom` reads (`digitsFrom_of_isDigit`).
-/

namespace Rollout.Text

/-! ## Decimal digits -/

theorem digitValue?_of_isDigit {c : Char} (hc : c.isDigit = true) :
    digitValue? c = some (c.toNat - '0'.toNat) := by
  have hrange : '0'.val ≤ c.val ∧ c.val ≤ '9'.val := by simpa [Char.isDigit] using hc
  exact if_pos hrange

theorem isDecimal_of_isDigit {c : Char} (hc : c.isDigit = true) : isDecimal c = true := by
  obtain ⟨-, hnine⟩ := Char.isDigit_iff_toNat.mp hc
  have hvalue : c.toNat - '0'.toNat < 10 := by
    change c.toNat - 48 < 10
    change c.toNat ≤ 57 at hnine
    omega
  rw [isDecimal, isDigitOf, digitValue?_of_isDigit hc]
  exact decide_eq_true hvalue

/-- Further digits do not make a number smaller. -/
theorem le_digitsFrom (base value : Nat) (digits : List Char) (hbase : 0 < base) :
    value ≤ digitsFrom base value digits := by
  induction digits generalizing value with
  | nil => exact Nat.le_refl value
  | cons c rest ih =>
      calc value ≤ value * base := Nat.le_mul_of_pos_right value hbase
        _ ≤ value * base + (digitValue? c).getD 0 := Nat.le_add_right _ _
        _ ≤ digitsFrom base value (c :: rest) := ih _

/-- Reading decimal digits is the library's way back from printed digits. -/
theorem digitsFrom_of_isDigit {digits : List Char} (hdigits : ∀ c ∈ digits, c.isDigit = true)
    (value : Nat) : digitsFrom 10 value digits = Nat.ofDigitChars 10 digits value := by
  induction digits generalizing value with
  | nil => rfl
  | cons c rest ih =>
      obtain ⟨hc, hrest⟩ := List.forall_mem_cons.mp hdigits
      rw [Nat.ofDigitChars_cons, ← ih hrest, digitsFrom, List.foldl_cons, ← digitsFrom,
        digitValue?_of_isDigit hc, Option.getD_some, Nat.mul_comm]

/-! ## Printed numbers -/

theorem toList_toString (number : Nat) : (toString number).toList = Nat.toDigits 10 number := by
  rw [Nat.toString_eq_repr, Nat.toList_repr]

theorem isDigit_of_mem_toString {number : Nat} {c : Char} (hc : c ∈ (toString number).toList) :
    c.isDigit = true := by
  rw [toList_toString] at hc
  exact Nat.isDigit_of_mem_toDigits (by decide) (by decide) hc

theorem toList_toString_ne_nil (number : Nat) : (toString number).toList ≠ [] := by
  rw [toList_toString]
  exact Nat.toDigits_ne_nil

/-- The printed digits write the number. -/
theorem digitsValue_toString (number : Nat) :
    digitsValue 10 (toString number).toList = number := by
  rw [digitsValue, digitsFrom_of_isDigit fun c hc => isDigit_of_mem_toString hc, toList_toString]
  exact Nat.ofDigitChars_ten_toDigits

theorem decimal?_toString (number : Nat) : decimal? (toString number).toList = some number := by
  have hdecimal : (toString number).toList.all isDecimal = true :=
    List.all_eq_true.mpr fun c hc => isDecimal_of_isDigit (isDigit_of_mem_toString hc)
  have hnonempty : (toString number).toList.isEmpty = false :=
    List.isEmpty_eq_false_iff.mpr (toList_toString_ne_nil number)
  rw [decimal?, hdecimal, hnonempty, digitsValue_toString]
  rfl

/-- A printed number does not begin with a sign. -/
theorem head?_toString_ne_sign (number : Nat) :
    (toString number).toList.head? ≠ some '+' ∧ (toString number).toList.head? ≠ some '-' := by
  have hdigit : ∀ c, (toString number).toList.head? = some c → c.isDigit = true := fun c hc =>
    isDigit_of_mem_toString (List.mem_of_head? hc)
  exact ⟨fun hplus => absurd (hdigit '+' hplus) (by decide),
    fun hminus => absurd (hdigit '-' hminus) (by decide)⟩

theorem unsigned?_toString (number : Nat) : unsigned? (toString number) = some number := by
  obtain ⟨hplus, -⟩ := head?_toString_ne_sign number
  rw [unsigned?]
  split
  · next digits hdigits => exact absurd (by rw [hdigits]; rfl) hplus
  · exact decimal?_toString number

theorem signed?_toString (number : Nat) : signed? (toString number) = some (Int.ofNat number) := by
  obtain ⟨hplus, hminus⟩ := head?_toString_ne_sign number
  rw [signed?]
  split
  · next digits hdigits => exact absurd (by rw [hdigits]; rfl) hplus
  · next digits hdigits => exact absurd (by rw [hdigits]; rfl) hminus
  · rw [decimal?_toString]
    rfl

/-- A printed number does not begin with a zero, unless it is zero. -/
theorem head?_toDigits_ne_zero {number : Nat} (hpositive : 0 < number) :
    (Nat.toDigits 10 number).head? ≠ some '0' := by
  induction number using Nat.strong_induction_on with
  | h number ih =>
      rw [Nat.toDigits_eq_if (by decide)]
      split
      · have hdigit : number.digitChar ≠ '0' := fun hzero =>
          hpositive.ne' (Nat.digitChar_eq_zero.mp hzero)
        simpa using hdigit
      · next hlarge =>
          have hfront : (Nat.toDigits 10 (number / 10)).head?.isSome = true :=
            List.isSome_head?.mpr Nat.toDigits_ne_nil
          rw [List.head?_append, Option.or_of_isSome hfront]
          exact ih (number / 10) (by omega) (by omega)

/-- Only a number with a single digit is printed with a zero in front. -/
theorem length_toString_of_head? {number : Nat}
    (hhead : (toString number).toList.head? = some '0') : (toString number).toList.length = 1 := by
  rw [toList_toString] at hhead ⊢
  rcases Nat.eq_zero_or_pos number with rfl | hpositive
  · rfl
  · exact absurd hhead (head?_toDigits_ne_zero hpositive)

end Rollout.Text
