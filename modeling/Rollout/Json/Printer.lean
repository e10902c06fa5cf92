import Rollout.Json.Value
import Rollout.Text.Numeral

/-!
# Printing JSON

The printed form of a JSON value: every member and every item on a line of its own, two spaces of
indentation for each level, and `[]` and `{}` for what is empty.  Strings escape quotes,
backslashes and control characters, and write every other character as it is.
-/

namespace Rollout.Json

/-! ## Strings and numbers -/

/-- A character inside a printed string. -/
def escapeChar (c : Char) : List Char :=
  if c = '"' then ['\\', '"']
  else if c = '\\' then ['\\', '\\']
  else if c = '\x08' then ['\\', 'b']
  else if c = '\x0c' then ['\\', 'f']
  else if c = '\n' then ['\\', 'n']
  else if c = '\r' then ['\\', 'r']
  else if c = '\t' then ['\\', 't']
  else if c.toNat < 0x20 then '\\' :: 'u' :: Text.hexDigits 4 c.toNat
  else [c]

/-- A text in double quotes. -/
def quoted (text : String) : List Char :=
  '"' :: text.toList.flatMap escapeChar ++ ['"']

/-- The sign of a printed number. -/
def signChars (negative : Bool) : List Char :=
  if negative then ['-'] else []

/-- A printed number. -/
def numberChars : JsonNumber → List Char
  | .integer negative magnitude => signChars negative ++ (toString magnitude).toList
  | .decimal negative coefficient exponent =>
      signChars negative ++ (toString coefficient).toList ++ 'e' :: (toString exponent).toList

/-! ## Values -/

/-- A line break and the indentation of a level. -/
def newLine (level : Nat) : List Char :=
  '\n' :: List.replicate (2 * level) ' '

mutual

/-- A printed value; `level` is the number of arrays and objects around it. -/
def valueChars (level : Nat) : Json → List Char
  | .null => ['n', 'u', 'l', 'l']
  | .bool true => ['t', 'r', 'u', 'e']
  | .bool false => ['f', 'a', 'l', 's', 'e']
  | .number value => numberChars value
  | .string text => quoted text
  | .array [] => ['[', ']']
  | .array (item :: items) =>
      '[' :: newLine (level + 1) ++ valueChars (level + 1) item ++ itemsChars (level + 1) items ++
        newLine level ++ [']']
  | .object [] => ['\x7b', '\x7d']
  | .object ((name, value) :: members) =>
      '\x7b' :: newLine (level + 1) ++ quoted name ++ ':' :: ' ' :: valueChars (level + 1) value ++
        membersChars (level + 1) members ++ newLine level ++ ['\x7d']

/-- The printed items after the first one, each with the comma before it. -/
def itemsChars (level : Nat) : List Json → List Char
  | [] => []
  | item :: items => ',' :: newLine level ++ valueChars level item ++ itemsChars level items

/-- The printed members after the first one, each with the comma before it. -/
def membersChars (level : Nat) : List (String × Json) → List Char
  | [] => []
  | (name, value) :: members =>
      ',' :: newLine level ++ quoted name ++ ':' :: ' ' :: valueChars level value ++
        membersChars level members

end

/-- The printed form of a value. -/
def pretty (value : Json) : String :=
  String.ofList (valueChars 0 value)

end Rollout.Json
