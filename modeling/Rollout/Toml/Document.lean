import Rollout.Toml.Scalar
import Rollout.Toml.Table
import Rollout.Toml.Text

/-!
# Reading TOML

TOML 1.1: line ends are LF or CR LF, and a byte order mark may stand at the start.  Inside braces
line ends and comments may stand around keys, equals signs, values and commas, and a comma may
follow the last member.  Arrays and tables in braces may be nested 80 deep.  A malformed whole
number is no fault of the document.

## Strategy

A document is read as a list of statements, headers and keys with values, and the statements are
then carried out one after the other on the root table.  Values, items and members call each other
with a budget that shrinks at each call; `parse` starts with a budget that the length of the text
bounds.
-/

namespace Rollout.Toml

/-! ## Values -/

/-- The number of arrays and tables in braces that may lie inside one another. -/
def maxDepth : Nat := 80

/-- The characters after an equals sign, which comes next. -/
def afterEquals : List Char → Except Fault (List Char)
  | '=' :: rest => .ok rest
  | c :: _ => .error (.unexpected c)
  | [] => .error .endOfText

mutual

/-- Reads a value that starts at the first character; `depth` more levels of nesting are allowed. -/
def readValue : (budget depth : Nat) → List Char → Except Fault (Value × List Char)
  | 0, _, _ => .error .nestingTooDeep
  | _ + 1, _, [] => .error .endOfText
  | budget + 1, depth, c :: rest =>
      if c = '"' || c = '\'' then do
        let (chars, rest) ← readString c rest
        return (.string (String.ofList chars), rest)
      else if c = '[' then
        match depth with
        | 0 => .error .nestingTooDeep
        | depth + 1 => do
            let (items, rest) ← readItems budget depth (skipFiller false rest)
            return (.array false items, rest)
      else if c = '\x7b' then
        match depth with
        | 0 => .error .nestingTooDeep
        | depth + 1 => do
            let (entries, rest) ← readMembers budget depth [] (skipFiller false rest)
            return (.table .braces entries, rest)
      else readScalar (c :: rest)

/-- Reads the items of an array from an item or the closing bracket on. -/
def readItems : (budget depth : Nat) → List Char → Except Fault (List Value × List Char)
  | 0, _, _ => .error .nestingTooDeep
  | budget + 1, depth, chars =>
      match chars with
      | ']' :: rest => .ok ([], rest)
      | chars => do
          let (item, rest) ← readValue budget depth chars
          match skipFiller false rest with
          | [] => throw .endOfText
          | c :: rest =>
              if c = ']' then return ([item], rest)
              else if c = ',' then
                let (items, rest) ← readItems budget depth (skipFiller false rest)
                return (item :: items, rest)
              else throw (.unexpected c)

/-- Reads the members of a table from a member or the closing brace on, after `entries`. -/
def readMembers : (budget depth : Nat) → Entries → List Char → Except Fault (Entries × List Char)
  | 0, _, _, _ => .error .nestingTooDeep
  | budget + 1, depth, entries, chars =>
      match chars with
      | '\x7d' :: rest => .ok (entries, rest)
      | chars => do
          let (key, rest) ← readKey maxKeyParts chars
          let rest ← afterEquals (skipFiller false rest)
          let (value, rest) ← readValue budget depth (skipFiller false rest)
          let entries ← assign key value .braces entries
          match skipFiller false rest with
          | [] => throw .endOfText
          | c :: rest =>
              if c = '\x7d' then return (entries, rest)
              else if c = ',' then readMembers budget depth entries (skipFiller false rest)
              else throw (.unexpected c)

end

/-! ## Statements -/

/-- A line of a document that says something. -/
inductive Statement
  /-- A header, in double brackets if it opens an element of an array. -/
  | header (element : Bool) (key : List String)
  /-- A key with its value. -/
  | assignment (key : List String) (value : Value)
  deriving Repr

/-- Reads the closing brackets of a header. -/
def afterBrackets (element : Bool) : List Char → Except Fault (List Char)
  | ']' :: rest =>
      if !element then .ok rest
      else
        match rest with
        | ']' :: rest => .ok rest
        | c :: _ => .error (.unexpected c)
        | [] => .error .endOfText
  | c :: _ => .error (.unexpected c)
  | [] => .error .endOfText

/-- Reads a header after its opening brackets. -/
def readHeader (element : Bool) (chars : List Char) : Except Fault (Statement × List Char) := do
  let (key, rest) ← readKey maxKeyParts chars
  return (.header element key, ← afterBrackets element rest)

/-- Reads a header or a key with its value. -/
def readStatement (budget : Nat) : List Char → Except Fault (Statement × List Char)
  | '[' :: '[' :: rest => readHeader true rest
  | '[' :: rest => readHeader false rest
  | chars => do
      let (key, rest) ← readKey maxKeyParts chars
      let rest ← afterEquals rest
      let (value, rest) ← readValue budget maxDepth (skipBlank rest)
      return (.assignment key value, rest)

/-- Reads the statements of a document.  The limit on their number is met by every text that is not
shorter. -/
def readStatements (budget : Nat) : (limit : Nat) → List Char → Except Fault (List Statement)
  | 0, _ => .error .endOfText
  | limit + 1, chars =>
      match skipFiller false chars with
      | [] => .ok []
      | chars => do
          let (statement, rest) ← readStatement budget chars
          let statements ← readStatements budget limit (← endOfLine rest)
          return statement :: statements

/-! ## Documents -/

/-- Carries out statements on a root table, inside the table of the header `current`. -/
def build : (current : List String) → (root : Entries) → List Statement → Except Fault Entries
  | _, root, [] => .ok root
  | _, root, .header element key :: rest => do
      let root ← openHeader element key root
      build key root rest
  | current, root, .assignment key value :: rest => do
      let root ← editAt false (assign key value) current .header root
      build current root rest

/-- The characters without a byte order mark at the start. -/
def dropMark : List Char → List Char
  | '\uFEFF' :: rest => rest
  | chars => chars

/-- The root table of a document. -/
def parse (text : String) : Except Fault Entries := do
  let chars := dropMark text.toList
  let size := chars.length
  let statements ← readStatements (2 * size + 2) (size + 1) chars
  build [] [] statements

end Rollout.Toml
