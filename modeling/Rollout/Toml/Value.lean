/-!
# TOML values

The values of a TOML document, and why a text is none.  Tables remember how they were written,
because that decides whether they may still grow; so do arrays.
-/

namespace Rollout.Toml

/-- Why a text is no TOML document. -/
inductive Fault
  | endOfText
  | unexpected (c : Char)
  | controlCharacter
  | invalidEscape
  | missingKey
  | invalidScalar (text : String)
  | nestingTooDeep
  | keyTooLong
  | duplicateKey (name : String)
  /-- A table or array that is complete, or no table at all, would have to grow. -/
  | closed (name : String)
  deriving DecidableEq, Repr

/-- The fault in words. -/
def Fault.message : Fault → String
  | .endOfText => "unexpected end of text"
  | .unexpected c => "unexpected character '" ++ c.toString ++ "'"
  | .controlCharacter => "control character in a string"
  | .invalidEscape => "invalid escape"
  | .missingKey => "a key is missing"
  | .invalidScalar text => "invalid value '" ++ text ++ "'"
  | .nestingTooDeep => "too many nested arrays and tables"
  | .keyTooLong => "too many parts in a key"
  | .duplicateKey name => "duplicate key '" ++ name ++ "'"
  | .closed name => "'" ++ name ++ "' cannot be extended"

/-- How a table was written. -/
inductive Origin
  /-- In braces. -/
  | braces
  /-- By a header of its own. -/
  | header
  /-- On the way to the table of a header. -/
  | implied
  /-- By a dotted key. -/
  | dotted
  deriving DecidableEq, Repr

/-- A number with a fraction or an exponent, or a special one. -/
inductive Real
  /-- The number `coefficient * 10 ^ exponent`, up to its sign. -/
  | finite (coefficient : Nat) (exponent : Int)
  | infinite
  | notNumber
  deriving DecidableEq, Repr

/-- A TOML value. -/
inductive Value
  | string (text : String)
  | integer (value : Int)
  /-- A text that is written like a whole number and is none.  It is a fault only where its value is
  asked for. -/
  | malformed (text : String)
  | real (value : Real)
  | boolean (value : Bool)
  /-- A date, a time, or both, as it was written. -/
  | moment (text : String)
  /-- An array.  Headers in double brackets make arrays of tables, which may grow. -/
  | array (growing : Bool) (items : List Value)
  | table (origin : Origin) (entries : List (String × Value))
  deriving Repr

/-- The entries of a table, in the order in which they were written. -/
abbrev Entries : Type := List (String × Value)

end Rollout.Toml
