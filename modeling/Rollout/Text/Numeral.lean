/-!
# Numerals

Numbers written in ASCII digits, in bases up to sixteen, and the signed and unsigned whole numbers
that a command line takes.
-/

namespace Rollout.Text

/-! ## Digits -/

/-- The value of a digit in base sixteen, in either case. -/
def digitValue? (c : Char) : Option Nat :=
  if '0' ≤ c ∧ c ≤ '9' then some (c.toNat - '0'.toNat)
  else if 'a' ≤ c ∧ c ≤ 'f' then some (c.toNat - 'a'.toNat + 10)
  else if 'A' ≤ c ∧ c ≤ 'F' then some (c.toNat - 'A'.toNat + 10)
  else none

/-- Whether a character is a digit to the given base. -/
def isDigitOf (base : Nat) (c : Char) : Bool :=
  (digitValue? c).any (· < base)

/-- Whether a character is a decimal digit. -/
def isDecimal (c : Char) : Bool :=
  isDigitOf 10 c

/-- The number that the digits write after `value`, most significant digit first. -/
def digitsFrom (base value : Nat) (digits : List Char) : Nat :=
  digits.foldl (fun total c => total * base + (digitValue? c).getD 0) value

/-- The number that the digits write. -/
def digitsValue (base : Nat) (digits : List Char) : Nat :=
  digitsFrom base 0 digits

/-- A non-empty run of decimal digits, as a number. -/
def decimal? (chars : List Char) : Option Nat :=
  if !chars.isEmpty && chars.all isDecimal then some (digitsValue 10 chars) else none

/-! ## Whole numbers -/

/-- A whole number with an optional plus sign. -/
def unsigned? (text : String) : Option Nat :=
  match text.toList with
  | '+' :: digits => decimal? digits
  | digits => decimal? digits

/-- A whole number with an optional sign of either kind. -/
def signed? (text : String) : Option Int :=
  match text.toList with
  | '+' :: digits => (decimal? digits).map Int.ofNat
  | '-' :: digits => (decimal? digits).map fun value => -Int.ofNat value
  | digits => (decimal? digits).map Int.ofNat

/-- A fixed number of lowercase hexadecimal digits. -/
def hexDigits (width value : Nat) : List Char :=
  (List.range width).reverse.map fun place => Nat.digitChar (value / Nat.pow 16 place % 16)

/-- A decimal numeral filled with zeros on the left to the given width. -/
def zeroPadded (width value : Nat) : String :=
  let digits := toString value
  String.ofList (List.replicate (width - digits.length) '0') ++ digits

/-- A text filled with spaces on the right to the given number of characters. -/
def padEnd (width : Nat) (text : String) : String :=
  text ++ String.ofList (List.replicate (width - text.length) ' ')

end Rollout.Text
