import Rollout.Text.Numeral
import Rollout.Toml.Value

/-!
# Blanks, strings and keys of TOML

The smallest parts of a TOML document.  Every reader works on the characters that are left and
returns what it has read together with the characters after it.

## Strings

A string is read in two steps: first its characters up to the closing quotes, with escapes as they
are written, then the escapes.  In a multi-line string up to two quotes may stand right before the
closing ones, so the quotes seen last are counted until something else follows them.
-/

namespace Rollout.Toml

/-! ## Blanks, comments and line ends -/

/-- Whether a character is a blank within a line. -/
def isBlank (c : Char) : Bool := c = ' ' || c = '\t'

/-- Whether a character may stand in comments and strings. -/
def isPlain (c : Char) : Bool := c = '\t' || (0x20 ≤ c.toNat && c.toNat ≠ 0x7F)

/-- The characters after the blanks. -/
def skipBlank (chars : List Char) : List Char := chars.dropWhile isBlank

/-- The characters after a comment, if one comes next. -/
def skipComment : List Char → List Char
  | '#' :: rest => rest.dropWhile isPlain
  | chars => chars

/-- The characters after a line end, if one comes next. -/
def afterNewline? : List Char → Option (List Char)
  | '\n' :: rest => some rest
  | '\r' :: '\n' :: rest => some rest
  | _ => none

/-- The characters after the rest of a line that holds nothing more. -/
def endOfLine (chars : List Char) : Except Fault (List Char) :=
  match skipComment (skipBlank chars) with
  | [] => .ok []
  | c :: rest =>
      match afterNewline? (c :: rest) with
      | some rest => .ok rest
      | none => .error (.unexpected c)

/-- The characters after blanks, comments and line ends; `comment` tells whether a comment is under
way. -/
def skipFiller (comment : Bool) : List Char → List Char
  | [] => []
  | c :: rest =>
      if c = '\n' || (c = '\r' && rest.head? == some '\n') then skipFiller false rest
      else if comment then if isPlain c then skipFiller true rest else c :: rest
      else if isBlank c then skipFiller false rest
      else if c = '#' then skipFiller true rest
      else c :: rest

/-! ## Escapes -/

/-- The character of an escape with one letter. -/
def simpleEscape? (c : Char) : Option Char :=
  if c = '"' ∨ c = '\\' then some c
  else if c = 'b' then some '\x08'
  else if c = 't' then some '\t'
  else if c = 'n' then some '\n'
  else if c = 'f' then some '\x0c'
  else if c = 'r' then some '\r'
  else if c = 'e' then some '\x1b'
  else none

/-- The character whose code point the digits write in base sixteen. -/
def codePoint? (digits : List Char) : Option Char :=
  let value := Text.digitsValue 16 digits
  if digits.all (Text.isDigitOf 16) ∧ value.isValidChar then some (Char.ofNat value) else none

/-- Whether the rest of a line holds only blanks. -/
def endsLine (chars : List Char) : Bool :=
  (afterNewline? (skipBlank chars)).isSome

/-- Puts a character in front of what is read after it. -/
def push {α : Type} (c : Char) (later : Except Fault (List Char × α)) :
    Except Fault (List Char × α) :=
  match later with
  | .ok (chars, rest) => .ok (c :: chars, rest)
  | .error fault => .error fault

/-- Puts a character that is there in front of what is read after it. -/
def pushDecoded (c? : Option Char) (later : Except Fault (List Char)) : Except Fault (List Char) :=
  match c?, later with
  | some c, .ok chars => .ok (c :: chars)
  | some _, .error fault => .error fault
  | none, _ => .error .invalidEscape

/-- The characters that a string stands for.  In a multi-line string a backslash at the end of a
line takes away the line end and all blanks and line ends after it; `trimming` tells whether that is
under way. -/
def decodeEscapes (multiline trimming : Bool) : List Char → Except Fault (List Char)
  | [] => .ok []
  | c :: rest =>
      if trimming && (isBlank c || c = '\n' || c = '\r') then decodeEscapes multiline true rest
      else if c ≠ '\\' then pushDecoded (some c) (decodeEscapes multiline false rest)
      else if multiline && endsLine rest then decodeEscapes multiline true rest
      else
        match rest with
        | [] => .error .invalidEscape
        | letter :: rest =>
            if letter = 'x' then
              match rest with
              | a :: b :: rest =>
                  pushDecoded (codePoint? [a, b]) (decodeEscapes multiline false rest)
              | _ => .error .invalidEscape
            else if letter = 'u' then
              match rest with
              | a :: b :: c :: d :: rest =>
                  pushDecoded (codePoint? [a, b, c, d]) (decodeEscapes multiline false rest)
              | _ => .error .invalidEscape
            else if letter = 'U' then
              match rest with
              | a :: b :: c :: d :: e :: f :: g :: h :: rest =>
                  pushDecoded (codePoint? [a, b, c, d, e, f, g, h])
                    (decodeEscapes multiline false rest)
              | _ => .error .invalidEscape
            else pushDecoded (simpleEscape? letter) (decodeEscapes multiline false rest)

/-! ## Strings -/

/-- The characters up to the closing quote of a string on one line; `escaped` tells whether a
backslash stands before them. -/
def lineBody (quote : Char) (escapes escaped : Bool) :
    List Char → Except Fault (List Char × List Char)
  | [] => .error .endOfText
  | c :: rest =>
      if !isPlain c then .error .controlCharacter
      else if escaped then push c (lineBody quote escapes false rest)
      else if c = quote then .ok ([], rest)
      else push c (lineBody quote escapes (escapes && c = '\\') rest)

/-- Puts quotes in front of what is read after them. -/
def pushQuotes (quote : Char) (count : Nat) (later : Except Fault (List Char × List Char)) :
    Except Fault (List Char × List Char) :=
  match later with
  | .ok (chars, rest) => .ok (List.replicate count quote ++ chars, rest)
  | .error fault => .error fault

/-- The characters up to the closing quotes of a multi-line string; `quotes` is the number of quotes
right before them. -/
def linesBody (quote : Char) (escapes escaped : Bool) (quotes : Nat) :
    List Char → Except Fault (List Char × List Char)
  | [] => if 3 ≤ quotes then .ok (List.replicate (quotes - 3) quote, []) else .error .endOfText
  | c :: rest =>
      if c = quote && !escaped && quotes < 5 then linesBody quote escapes false (quotes + 1) rest
      -- the last three quotes close the string, and up to two before them belong to its text
      else if 3 ≤ quotes then .ok (List.replicate (quotes - 3) quote, c :: rest)
      else if isPlain c || c = '\n' || (c = '\r' && rest.head? == some '\n') then
        pushQuotes quote quotes
          (push c (linesBody quote escapes (escapes && !escaped && c = '\\') 0 rest))
      else .error .controlCharacter

/-- The characters after a line end at the start of a multi-line string. -/
def dropFirstNewline (chars : List Char) : List Char :=
  (afterNewline? chars).getD chars

/-- Reads a string on one line after its opening quote. -/
def readLineString (quote : Char) (chars : List Char) : Except Fault (List Char × List Char) := do
  let escapes := quote = '"'
  let (body, rest) ← lineBody quote escapes false chars
  if escapes then return (← decodeEscapes false false body, rest) else return (body, rest)

/-- Reads a multi-line string after its opening quotes. -/
def readLinesString (quote : Char) (chars : List Char) : Except Fault (List Char × List Char) := do
  let escapes := quote = '"'
  let (body, rest) ← linesBody quote escapes false 0 (dropFirstNewline chars)
  if escapes then return (← decodeEscapes true false body, rest) else return (body, rest)

/-- Reads a string of either kind after its first quote. -/
def readString (quote : Char) : List Char → Except Fault (List Char × List Char)
  | first :: second :: rest =>
      if first = quote && second = quote then readLinesString quote rest
      else readLineString quote (first :: second :: rest)
  | chars => readLineString quote chars

/-! ## Keys -/

/-- Whether a character may stand in a key without quotes. -/
def isBareChar (c : Char) : Bool :=
  c.isAlphanum || c = '_' || c = '-'

/-- Reads one part of a key, in quotes of either kind or bare. -/
def readKeyPart : List Char → Except Fault (String × List Char)
  | '"' :: rest => do
      let (chars, rest) ← readLineString '"' rest
      return (String.ofList chars, rest)
  | '\'' :: rest => do
      let (chars, rest) ← readLineString '\'' rest
      return (String.ofList chars, rest)
  | chars =>
      let bare := chars.takeWhile isBareChar
      if bare.isEmpty then .error .missingKey
      else .ok (String.ofList bare, chars.dropWhile isBareChar)

/-- The greatest number of parts that a key may have. -/
def maxKeyParts : Nat := 80

/-- Reads a key of at most `allowed` parts, with the blanks around it. -/
def readKey : (allowed : Nat) → List Char → Except Fault (List String × List Char)
  | 0, _ => .error .keyTooLong
  | allowed + 1, chars => do
      let (part, rest) ← readKeyPart (skipBlank chars)
      match skipBlank rest with
      | '.' :: rest =>
          let (parts, rest) ← readKey allowed rest
          return (part :: parts, rest)
      | rest => return ([part], rest)

end Rollout.Toml
