/-!
# Reading bytes as UTF-8

Two readings of a byte sequence.  The lossy one never fails: each maximal part that cannot be
completed to a character becomes one replacement character U+FFFD.  The strict one accepts exactly
well-formed UTF-8.

## Strategy

The lossy reader goes byte by byte.  Between two bytes it remembers how many continuation bytes the
current character still needs, the range that the next one must lie in, and the bits read so far.
The ranges after the lead bytes E0, ED, F0 and F4 are narrower than 80 to BF, which excludes
overlong forms, surrogates and code points above U+10FFFF.
-/

namespace Rollout.Text

/-! ## One byte -/

/-- A character that has been started and not finished. -/
structure Partial where
  /-- The number of continuation bytes that are still missing. -/
  missing : Nat
  /-- The least value that the next byte may have. -/
  least : UInt8
  /-- The greatest value that the next byte may have. -/
  greatest : UInt8
  /-- The bits of the code point read so far. -/
  bits : Nat
  deriving DecidableEq, Repr

/-- The character that stands for a part that cannot be read. -/
def replacement : Char := '\uFFFD'

/-- What a byte begins: a whole character, a longer character, or nothing at all. -/
def leadByte (byte : UInt8) : Char ⊕ Partial ⊕ Unit :=
  let value := byte.toNat
  if byte < 0x80 then .inl (Char.ofNat value)
  else if byte < 0xC2 then .inr (.inr ())
  else if byte < 0xE0 then .inr (.inl ⟨1, 0x80, 0xBF, value - 0xC0⟩)
  else if byte = 0xE0 then .inr (.inl ⟨2, 0xA0, 0xBF, 0⟩)
  else if byte = 0xED then .inr (.inl ⟨2, 0x80, 0x9F, value - 0xE0⟩)
  else if byte < 0xF0 then .inr (.inl ⟨2, 0x80, 0xBF, value - 0xE0⟩)
  else if byte = 0xF0 then .inr (.inl ⟨3, 0x90, 0xBF, 0⟩)
  else if byte < 0xF4 then .inr (.inl ⟨3, 0x80, 0xBF, value - 0xF0⟩)
  else if byte = 0xF4 then .inr (.inl ⟨3, 0x80, 0x8F, value - 0xF0⟩)
  else .inr (.inr ())

/-! ## The lossy reading -/

/-- Reads the remaining bytes, given the character that is under way. -/
def decodeFrom : Option Partial → List UInt8 → List Char
  | none, [] => []
  | some _, [] => [replacement]
  | none, byte :: rest =>
      match leadByte byte with
      | .inl c => c :: decodeFrom none rest
      | .inr (.inl started) => decodeFrom (some started) rest
      | .inr (.inr ()) => replacement :: decodeFrom none rest
  | some started, byte :: rest =>
      if started.least ≤ byte && byte ≤ started.greatest then
        let bits := started.bits * 64 + (byte.toNat - 0x80)
        if started.missing ≤ 1 then Char.ofNat bits :: decodeFrom none rest
        else decodeFrom (some ⟨started.missing - 1, 0x80, 0xBF, bits⟩) rest
      else
        match leadByte byte with
        | .inl c => replacement :: c :: decodeFrom none rest
        | .inr (.inl next) => replacement :: decodeFrom (some next) rest
        | .inr (.inr ()) => replacement :: replacement :: decodeFrom none rest

/-- The text of a byte sequence, with a replacement character for each part that is not UTF-8. -/
def decodeLossy (bytes : List UInt8) : String :=
  String.ofList (decodeFrom none bytes)

/-- A surrogate, written in three bytes, is three unreadable parts. -/
example : decodeFrom none [0xED, 0xA0, 0x80] = [replacement, replacement, replacement] := by decide

/-- A character that is cut off is one unreadable part. -/
example : decodeFrom none [0xE2, 0x82, 0x41] = [replacement, 'A'] := by decide

example : decodeFrom none [0xF0, 0x9F, 0x9A, 0x80] = ['🚀'] := by decide

/-! ## The strict reading -/

/-- The text of a byte sequence that is well-formed UTF-8. -/
def decode? (bytes : ByteArray) : Option String :=
  String.fromUTF8? bytes

end Rollout.Text
