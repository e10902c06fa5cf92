/-!
# Blank characters

Which characters count as blank, and how text is trimmed of them.  Blank means the Unicode property
White_Space, so a no-break space and an ideographic space are trimmed, while a zero-width space and
the separators U+001C to U+001F are kept.
-/

namespace Rollout.Text

/-! ## The property -/

/-- The code points with the property White_Space, as ranges that include both of their ends. -/
def blankRanges : List (Nat × Nat) :=
  [(0x09, 0x0D), (0x20, 0x20), (0x85, 0x85), (0xA0, 0xA0), (0x1680, 0x1680), (0x2000, 0x200A),
    (0x2028, 0x2029), (0x202F, 0x202F), (0x205F, 0x205F), (0x3000, 0x3000)]

/-- Whether a character is blank. -/
def isBlank (c : Char) : Bool :=
  blankRanges.any fun range => range.1 ≤ c.toNat && c.toNat ≤ range.2

/-- There are twenty-five blank characters. -/
example : (blankRanges.map fun range => range.2 - range.1 + 1).sum = 25 := by decide

/-! ## Trimming -/

/-- The characters after the leading blank ones. -/
def dropBlank (chars : List Char) : List Char :=
  chars.dropWhile isBlank

/-- The text without its leading and its trailing blank characters. -/
def trim (text : String) : String :=
  String.ofList (dropBlank (dropBlank text.toList).reverse).reverse

/-- Whether a text holds nothing but blank characters; the empty text does. -/
def isBlankText (text : String) : Bool :=
  text.toList.all isBlank

end Rollout.Text
