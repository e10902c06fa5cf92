import Rollout.Text.Numeral
import Rollout.Toml.Value

/-!
# TOML scalars without quotes

Booleans, numbers, dates and times.  Such a value runs up to a blank, a line end, a comment, an
equals sign, a comma or a bracket, and it is read as a whole.  A date may be followed by one blank
and a time.

## Malformed numbers

What is written like a whole number is told from its first characters: a base, or decimal digits and
an underscore.  If it turns out to be no number after all it is still a value, because only those
who ask for the number have to know.
-/

namespace Rollout.Toml

/-! ## Numbers -/

/-- The digits of a numeral in which single underscores may stand between digits; `afterDigit` tells
whether a digit stands right before the characters. -/
def ungroup? (base : Nat) (afterDigit : Bool) : List Char → Option (List Char)
  | [] => if afterDigit then some [] else none
  | c :: rest =>
      if Text.isDigitOf base c then (ungroup? base true rest).map (c :: ·)
      else if c = '_' && afterDigit then ungroup? base false rest
      else none

/-- The sign in front of a number. -/
inductive Sign
  | plus
  | minus
  deriving DecidableEq, Repr

/-- The sign of a number, if there is one, and what follows it. -/
def splitSign : List Char → Option Sign × List Char
  | '-' :: rest => (some .minus, rest)
  | '+' :: rest => (some .plus, rest)
  | chars => (none, chars)

/-- A whole number with the given sign. -/
def signedInt (sign? : Option Sign) (digits : List Char) : Int :=
  if sign? = some .minus then -(Text.digitsValue 10 digits : Int) else Text.digitsValue 10 digits

/-- The digits of a decimal numeral.  It has no superfluous zeros at the front, but after a sign an
underscore may come first, and any digits follow it. -/
def wholeDigits? (signed : Bool) (chars : List Char) : Option (List Char) :=
  match chars with
  | '_' :: rest => if signed then ungroup? 10 false rest else none
  | chars =>
      match ungroup? 10 false chars with
      | some ('0' :: _ :: _) => none
      | digits? => digits?

/-- A whole number: decimal with an optional sign, or in base sixteen, eight or two without one. -/
def integer? : List Char → Option Int
  | '0' :: 'x' :: rest => (ungroup? 16 false rest).map fun digits => Text.digitsValue 16 digits
  | '0' :: 'o' :: rest => (ungroup? 8 false rest).map fun digits => Text.digitsValue 8 digits
  | '0' :: 'b' :: rest => (ungroup? 2 false rest).map fun digits => Text.digitsValue 2 digits
  | chars =>
      let (sign?, rest) := splitSign chars
      (wholeDigits? sign?.isSome rest).map (signedInt sign?)

/-- Whether every underscore stands between two digits of base sixteen; `afterDigit` tells whether
one stands right before the characters. -/
def isSpaced (afterDigit : Bool) : List Char → Bool
  | [] => true
  | c :: rest =>
      if c = '_' then afterDigit && rest.head?.any (Text.isDigitOf 16) && isSpaced false rest
      else isSpaced (Text.isDigitOf 16 c) rest

/-- Whether the characters are written like a whole number: a base without digits, or decimal digits
and underscores among which other characters may stand. -/
def isWholeLike (chars : List Char) : Bool :=
  if chars = ['0', 'x'] ∨ chars = ['0', 'o'] ∨ chars = ['0', 'b'] then true
  else
    let (sign?, rest) := splitSign chars
    let first := rest.takeWhile Text.isDecimal
    let later := rest.dropWhile Text.isDecimal
    (sign?.isSome || !first.isEmpty) && first.head? != some '0' && later.head? == some '_'
      -- a point or an exponent makes it a number with a fraction
      && !later.any (fun c => c = '.' || c = 'e' || c = 'E') && isSpaced true later

/-- Cuts characters at the first one of a kind: what stands before it, and what stands after it if
there is one. -/
def cutAt (p : Char → Bool) (chars : List Char) : List Char × Option (List Char) :=
  (chars.takeWhile (!p ·), (chars.dropWhile (!p ·)).tail?)

/-- The exponent of a number, zero if it has none. -/
def exponent? : Option (List Char) → Option Int
  | none => some 0
  | some chars =>
      let (sign?, rest) := splitSign chars
      (ungroup? 10 false rest).map (signedInt sign?)

/-- The digits after the point, none if there is no point. -/
def fraction? : Option (List Char) → Option (List Char)
  | none => some []
  | some chars => ungroup? 10 false chars

/-- A number with a fraction, an exponent or both, after its sign if it is signed. -/
def finite? (signed : Bool) (chars : List Char) : Option Real := do
  let (mantissa, power) := cutAt (fun c => c = 'e' || c = 'E') chars
  let (whole, decimals) := cutAt (· = '.') mantissa
  guard (power.isSome || decimals.isSome)
  let wholeDigits ← wholeDigits? signed whole
  let fraction ← fraction? decimals
  let exponent ← exponent? power
  return .finite (Text.digitsValue 10 (wholeDigits ++ fraction)) (exponent - fraction.length)

/-- A number with a fraction or an exponent, or a special one. -/
def real? (chars : List Char) : Option Real :=
  let (sign?, rest) := splitSign chars
  if rest = ['i', 'n', 'f'] then some .infinite
  else if rest = ['n', 'a', 'n'] then some .notNumber
  else finite? sign?.isSome rest

/-! ## Dates and times -/

/-- The number that two digits write. -/
def twoDigits? (a b : Char) : Option Nat :=
  if Text.isDecimal a && Text.isDecimal b then some (Text.digitsValue 10 [a, b]) else none

/-- Whether a year has a twenty-ninth of February. -/
def isLeapYear (year : Nat) : Bool :=
  year % 4 = 0 && (year % 100 ≠ 0 || year % 400 = 0)

/-- The number of days of a month, and zero if there is no such month. -/
def daysOfMonth (year month : Nat) : Nat :=
  if month = 2 then if isLeapYear year then 29 else 28
  else if month = 4 ∨ month = 6 ∨ month = 9 ∨ month = 11 then 30
  else if 1 ≤ month ∧ month ≤ 12 then 31
  else 0

/-- What follows a date, if a date comes first. -/
def afterDate? : List Char → Option (List Char)
  | a :: b :: c :: d :: '-' :: e :: f :: '-' :: g :: h :: rest => do
      guard ([a, b, c, d].all Text.isDecimal)
      let month ← twoDigits? e f
      let day ← twoDigits? g h
      guard (1 ≤ day ∧ day ≤ daysOfMonth (Text.digitsValue 10 [a, b, c, d]) month)
      return rest
  | _ => none

/-- What follows a fraction of a second; one that is there has digits. -/
def afterFraction? : List Char → Option (List Char)
  | '.' :: rest =>
      if (rest.takeWhile Text.isDecimal).isEmpty then none else some (rest.dropWhile Text.isDecimal)
  | chars => some chars

/-- What follows the seconds of a time; they may be left out. -/
def afterSeconds? : List Char → Option (List Char)
  | ':' :: a :: b :: rest => do
      let seconds ← twoDigits? a b
      guard (seconds ≤ 60)
      afterFraction? rest
  | ':' :: _ => none
  | chars => some chars

/-- What follows an hour and a minute. -/
def afterMinutes? : List Char → Option (List Char)
  | a :: b :: ':' :: c :: d :: rest => do
      let hours ← twoDigits? a b
      let minutes ← twoDigits? c d
      guard (hours ≤ 23 ∧ minutes ≤ 59)
      return rest
  | _ => none

/-- What follows a time, if a time comes first. -/
def afterTime? (chars : List Char) : Option (List Char) :=
  (afterMinutes? chars).bind afterSeconds?

/-- Whether the characters are a distance from universal time, or nothing. -/
def isOffset : List Char → Bool
  | [] => true
  | ['Z'] | ['z'] => true
  | '+' :: rest | '-' :: rest => afterMinutes? rest == some []
  | _ => false

/-- Whether a character may stand between a date and a time. -/
def isDateEnd (c : Char) : Bool := c = 'T' || c = 't' || c = ' '

/-- Whether the characters are a date, a time, or both. -/
def isMoment (chars : List Char) : Bool :=
  match afterDate? chars with
  | some [] => true
  | some (c :: rest) => isDateEnd c && (afterTime? rest).any isOffset
  | none => afterTime? chars == some []

/-! ## Scalars -/

/-- Whether a character may stand in a value without quotes. -/
def isScalarChar (c : Char) : Bool :=
  c ∉ [' ', '\t', '\r', '\n', '#', '=', ',', '[', ']', '\x7b', '\x7d']

/-- The characters of the value that comes next, and what follows them.  A blank joins a date to the
time after it. -/
def splitScalar (chars : List Char) : List Char × List Char :=
  let first := chars.takeWhile isScalarChar
  let rest := chars.dropWhile isScalarChar
  match rest with
  | ' ' :: c :: later =>
      -- a blank and a digit after a date begin its time
      if (afterDate? first == some []) && Text.isDecimal c then
        (first ++ ' ' :: (c :: later).takeWhile isScalarChar, (c :: later).dropWhile isScalarChar)
      else (first, rest)
  | _ => (first, rest)

/-- The value of a scalar without quotes. -/
def scalar? (chars : List Char) : Option Value :=
  if chars = ['t', 'r', 'u', 'e'] then some (.boolean true)
  else if chars = ['f', 'a', 'l', 's', 'e'] then some (.boolean false)
  else
    match integer? chars with
    | some value => some (.integer value)
    | none =>
        match real? chars with
        | some value => some (.real value)
        | none =>
            if isMoment chars then some (.moment (String.ofList chars))
            else if isWholeLike chars then some (.malformed (String.ofList chars))
            else none

/-- Reads a scalar without quotes. -/
def readScalar (chars : List Char) : Except Fault (Value × List Char) :=
  let (scalar, rest) := splitScalar chars
  match scalar? scalar with
  | some value => .ok (value, rest)
  | none => .error (.invalidScalar (String.ofList scalar))

example : integer? "1_000".toList = some 1000 := by decide +kernel

example : integer? "01".toList = none := by decide +kernel

example : isWholeLike "1_0z".toList = true := by decide +kernel

example : isMoment "1979-05-27 07:32:00-07:00".toList = true := by decide +kernel

example : isMoment "2023-02-29".toList = false := by decide +kernel

end Rollout.Toml
