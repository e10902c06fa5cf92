import Rollout.Json.Value
import Rollout.Number.DoubleRange
import Rollout.Text.Numeral

/-!
# Reading JSON

The grammar of RFC 8259, without extensions.  Beyond the grammar, three things are refused: an
escaped surrogate without its partner, a number too large for a double, and nesting of more than
127 arrays and objects.

## Strategy

The reader works on the list of characters that are left and returns the value together with the
characters after it.  Values, items and members call each other with a budget that shrinks at each
call; `parse` starts with a budget that the length of the text bounds.
-/

namespace Rollout.Json

/-- Why a text is no JSON value. -/
inductive Fault
  | endOfText
  | unexpected (c : Char)
  | controlCharacter
  | invalidEscape
  | loneSurrogate
  | invalidNumber
  | numberOutOfRange
  | nestingTooDeep
  | trailingText
  deriving DecidableEq, Repr

/-- The fault in words. -/
def Fault.message : Fault → String
  | .endOfText => "unexpected end of text"
  | .unexpected c => "unexpected character '" ++ c.toString ++ "'"
  | .controlCharacter => "control character in a string"
  | .invalidEscape => "invalid escape"
  | .loneSurrogate => "surrogate without its partner"
  | .invalidNumber => "invalid number"
  | .numberOutOfRange => "number out of range"
  | .nestingTooDeep => "too many nested arrays and objects"
  | .trailingText => "text after the value"

/-! ## Blanks and literals -/

/-- The four characters that may stand between tokens. -/
def isSpace (c : Char) : Bool :=
  c = ' ' || c = '\n' || c = '\t' || c = '\r'

/-- The characters after the leading white space. -/
def skipSpace (chars : List Char) : List Char :=
  chars.dropWhile isSpace

/-- The characters after a word that must come next. -/
def afterWord : List Char → List Char → Except Fault (List Char)
  | [], chars => .ok chars
  | _ :: _, [] => .error .endOfText
  | expected :: word, c :: rest =>
      if c = expected then afterWord word rest else .error (.unexpected c)

/-! ## Strings -/

/-- The UTF-16 unit that four hexadecimal digits write. -/
def unit? (a b c d : Char) : Option Nat :=
  if [a, b, c, d].all (Text.isDigitOf 16) then some (Text.digitsValue 16 [a, b, c, d]) else none

/-- The character of an escape with one letter. -/
def simpleEscape? (c : Char) : Option Char :=
  if c = '"' ∨ c = '\\' ∨ c = '/' then some c
  else if c = 'b' then some '\x08'
  else if c = 'f' then some '\x0c'
  else if c = 'n' then some '\n'
  else if c = 'r' then some '\r'
  else if c = 't' then some '\t'
  else none

/-- Whether a unit is one of a pair that stands for a single character. -/
def isSurrogate (value : Nat) : Bool := 0xD800 ≤ value && value < 0xE000

/-- Whether two surrogates are a pair, the high one first. -/
def isPair (high low : Nat) : Bool := high < 0xDC00 && 0xDC00 ≤ low && low < 0xE000

/-- The character that a pair of surrogates stands for. -/
def pairChar (high low : Nat) : Char :=
  Char.ofNat (0x10000 + (high - 0xD800) * 0x400 + (low - 0xDC00))

/-- Puts a character in front of a string that has been read. -/
def pushChar (c : Char) :
    Except Fault (List Char × List Char) → Except Fault (List Char × List Char)
  | .ok (chars, rest) => .ok (c :: chars, rest)
  | .error fault => .error fault

/-- Reads the rest of a string after its opening quote, and what follows its closing quote. -/
def stringBody : List Char → Except Fault (List Char × List Char)
  | [] => .error .endOfText
  | c :: rest =>
      if c = '"' then .ok ([], rest)
      else if c = '\\' then
        match rest with
        | [] => .error .endOfText
        | letter :: rest =>
            if letter = 'u' then
              match rest with
              | a :: b :: c :: d :: rest =>
                  match unit? a b c d with
                  | none => .error .invalidEscape
                  | some high =>
                      if !isSurrogate high then
                        pushChar (Char.ofNat high) (stringBody rest)
                      else
                        match rest with
                        | e :: f :: g :: h :: i :: j :: rest =>
                            match unit? g h i j with
                            | none => .error .invalidEscape
                            | some low =>
                                if e = '\\' && f = 'u' && isPair high low then
                                  pushChar (pairChar high low) (stringBody rest)
                                else .error .loneSurrogate
                        | _ => .error .loneSurrogate
              | _ => .error .endOfText
            else
              match simpleEscape? letter with
              | some plain => pushChar plain (stringBody rest)
              | none => .error .invalidEscape
      else if c.toNat < 0x20 then .error .controlCharacter
      else pushChar c (stringBody rest)

/-! ## Numbers -/

/-- The greatest number that the leading digits of a number may reach. -/
def leadingLimit : Nat := UInt64.size - 1

/-- The leading digits of a whole part as one number, and how many digits are left out. -/
def leadingDigits (value : Nat) : List Char → Nat × Nat
  | [] => (value, 0)
  | digit :: digits =>
      let next := value * 10 + (Text.digitValue? digit).getD 0
      if next ≤ leadingLimit then leadingDigits next digits else (value, digits.length + 1)

/-- The leading digits continued into a fraction, and how many digits of it are taken. -/
def fractionDigits (value taken : Nat) : List Char → Nat × Nat
  | [] => (value, taken)
  | digit :: digits =>
      let next := value * 10 + (Text.digitValue? digit).getD 0
      if next ≤ leadingLimit then fractionDigits next (taken + 1) digits else (value, taken)

/-- The digits after a decimal point, if one comes next, and what follows. -/
def fractionPart? : List Char → Except Fault (Option (List Char) × List Char)
  | '.' :: rest =>
      let digits := rest.takeWhile Text.isDecimal
      if digits.isEmpty then .error .invalidNumber
      else .ok (some digits, rest.dropWhile Text.isDecimal)
  | chars => .ok (none, chars)

/-- The exponent, if one comes next, and what follows. -/
def exponentPart? : List Char → Except Fault (Option Int × List Char)
  | [] => .ok (none, [])
  | c :: rest =>
      if c = 'e' ∨ c = 'E' then
        let (negative, rest) :=
          match rest with
          | '-' :: rest => (true, rest)
          | '+' :: rest => (false, rest)
          | rest => (false, rest)
        let digits := rest.takeWhile Text.isDecimal
        if digits.isEmpty then .error .invalidNumber
        else
          let size : Int := Text.digitsValue 10 digits
          .ok (some (if negative then -size else size), rest.dropWhile Text.isDecimal)
      else .ok (none, c :: rest)

/-- Reads a number after its sign, and what follows it. -/
def unsignedNumber (negative : Bool) (chars : List Char) :
    Except Fault (JsonNumber × List Char) := do
  let digits := chars.takeWhile Text.isDecimal
  -- a zero may come first only when it stands alone
  if digits.isEmpty || (digits.head? == some '0' && 1 < digits.length) then
    throw .invalidNumber
  let (fraction, rest) ← fractionPart? (chars.dropWhile Text.isDecimal)
  let (exponent, rest) ← exponentPart? rest
  -- digits that do not fit into a word any more only count towards the exponent
  let (leading, omitted) := leadingDigits 0 digits
  let (coefficient, taken) := fractionDigits leading 0 (fraction.getD [])
  let scale : Int := (omitted : Int) - taken + exponent.getD 0
  if fraction.isNone && exponent.isNone && omitted == 0 then
    return (.integer negative leading, rest)
  if Number.productExceedsDouble coefficient scale then
    throw .numberOutOfRange
  return (.decimal negative coefficient scale, rest)

/-- Reads a number, and what follows it. -/
def readNumber : List Char → Except Fault (JsonNumber × List Char)
  | '-' :: rest => unsignedNumber true rest
  | chars => unsignedNumber false chars

/-! ## Values -/

mutual

/-- Reads a value that starts at the first character; `depth` more levels of nesting are allowed. -/
def readValue : (budget depth : Nat) → List Char → Except Fault (Json × List Char)
  | 0, _, _ => .error .nestingTooDeep
  | _ + 1, _, [] => .error .endOfText
  | budget + 1, depth, c :: rest =>
      if c = '"' then do
        let (chars, rest) ← stringBody rest
        return (.string (String.ofList chars), rest)
      else if c = '[' then
        match depth with
        | 0 => .error .nestingTooDeep
        | depth + 1 =>
            match skipSpace rest with
            | ']' :: rest => .ok (.array [], rest)
            | rest => do
                let (items, rest) ← readItems budget depth rest
                return (.array items, rest)
      else if c = '\x7b' then
        match depth with
        | 0 => .error .nestingTooDeep
        | depth + 1 =>
            match skipSpace rest with
            | '\x7d' :: rest => .ok (.object [], rest)
            | rest => do
                let (members, rest) ← readMembers budget depth rest
                return (.object members, rest)
      else if c = 't' then do
        let rest ← afterWord ['r', 'u', 'e'] rest
        return (.bool true, rest)
      else if c = 'f' then do
        let rest ← afterWord ['a', 'l', 's', 'e'] rest
        return (.bool false, rest)
      else if c = 'n' then do
        let rest ← afterWord ['u', 'l', 'l'] rest
        return (.null, rest)
      else if c = '-' || Text.isDecimal c then do
        let (value, rest) ← readNumber (c :: rest)
        return (.number value, rest)
      else .error (.unexpected c)

/-- Reads at least one item, and what follows the closing bracket. -/
def readItems : (budget depth : Nat) → List Char → Except Fault (List Json × List Char)
  | 0, _, _ => .error .nestingTooDeep
  | budget + 1, depth, chars => do
      let (item, rest) ← readValue budget depth chars
      match skipSpace rest with
      | [] => throw .endOfText
      | c :: rest =>
          if c = ']' then return ([item], rest)
          else if c = ',' then
            let (items, rest) ← readItems budget depth (skipSpace rest)
            return (item :: items, rest)
          else throw (.unexpected c)

/-- Reads at least one member, and what follows the closing brace. -/
def readMembers : (budget depth : Nat) → List Char →
    Except Fault (List (String × Json) × List Char)
  | 0, _, _ => .error .nestingTooDeep
  | budget + 1, depth, chars => do
      let rest ← afterWord ['"'] chars
      let (name, rest) ← stringBody rest
      let rest ← afterWord [':'] (skipSpace rest)
      let (value, rest) ← readValue budget depth (skipSpace rest)
      match skipSpace rest with
      | [] => throw .endOfText
      | c :: rest =>
          if c = '\x7d' then return ([(String.ofList name, value)], rest)
          else if c = ',' then
            let (members, rest) ← readMembers budget depth (skipSpace rest)
            return ((String.ofList name, value) :: members, rest)
          else throw (.unexpected c)

end

/-- The number of arrays and objects that may lie inside one another. -/
def maxDepth : Nat := 127

/-- The value that a text writes. -/
def parse (text : String) : Except Fault Json := do
  let chars := skipSpace text.toList
  let (value, rest) ← readValue (2 * chars.length + 2) maxDepth chars
  if (skipSpace rest).isEmpty then return value else throw .trailingText

end Rollout.Json
