/-!
# JSON values

The values of JSON, and how a value is found inside another one.  An object keeps its members in the
order in which they were written; of members with the same name the last one counts.
-/

namespace Rollout

/-- A number as it was written: a whole number, or one with a fraction or an exponent. -/
inductive JsonNumber
  /-- A whole number, given by its sign and its digits. -/
  | integer (negative : Bool) (magnitude : Nat)
  /-- The number `coefficient * 10 ^ exponent`, given by its sign and its leading digits. -/
  | decimal (negative : Bool) (coefficient : Nat) (exponent : Int)
  deriving DecidableEq, Repr

/-- A JSON value. -/
inductive Json
  | null
  | bool (value : Bool)
  | number (value : JsonNumber)
  | string (text : String)
  | array (items : List Json)
  | object (members : List (String × Json))
  deriving Repr

namespace Json

/-- A natural number as a value. -/
def natural (value : Nat) : Json :=
  .number (.integer false value)

/-- The member of an object with the given name, the last one if there are several.  A value that is
no object has no members. -/
def member? (name : String) : Json → Option Json
  | .object members => (members.reverse.find? (·.1 = name)).map (·.2)
  | _ => none

/-- The value that a sequence of member names leads to. -/
def at? : List String → Json → Option Json
  | [], value => some value
  | name :: rest, value => (value.member? name).bind (at? rest)

/-- A value as a sixty-four bit word.  Only whole numbers without a minus sign, a fraction or an
exponent are words. -/
def word? : Json → Option UInt64
  | .number (.integer false magnitude) =>
      if magnitude < UInt64.size then some (UInt64.ofNat magnitude) else none
  | _ => none

@[simp]
theorem at?_nil (value : Json) : at? [] value = some value := rfl

@[simp]
theorem at?_cons (name : String) (rest : List String) (value : Json) :
    at? (name :: rest) value = (value.member? name).bind (at? rest) := rfl

/-- A natural number that fits is the word of that value. -/
theorem word?_natural {value : Nat} (hvalue : value < UInt64.size) :
    (natural value).word? = some (UInt64.ofNat value) :=
  if_pos hvalue

end Json
end Rollout
