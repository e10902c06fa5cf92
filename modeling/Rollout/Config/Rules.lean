import Rollout.Failure.Cause

/-!
# Rules for configured values

What a value of each sort must look like.  A rule names the first thing that is wrong with a value,
or nothing.
-/

namespace Rollout.Rules

/-! ## Paths and texts -/

/-- A path is not empty and holds no NUL. -/
def pathFault? (value : String) : Option Reason :=
  if value.isEmpty then some .emptyPath
  else if '\x00' ∈ value.toList then some .nulInPath
  else none

/-- A text has something in it that is not blank. -/
def blankFault? (value : String) : Option Reason :=
  if Text.isBlankText value then some .blank else none

/-- A file name has one of the allowed extensions, exactly. -/
def extensionFault? (allowed : List String) (file : Path) : Option Reason :=
  match file.extension? with
  | none => some .missingExtension
  | some extension =>
      if extension ∈ allowed then none else some (.unsupportedExtension extension allowed)

/-- A number lies between two bounds, both included. -/
def rangeFault? (least greatest value : Int) : Option Reason :=
  if value < least ∨ greatest < value then some (.outOfRange least greatest) else none

/-! ## Names -/

/-- Whether a character is a lowercase letter or a digit. -/
def isLowerOrDigit (c : Char) : Bool :=
  c.isLower || c.isDigit

/-- Whether a character may occur in a name, which may be allowed to have dots. -/
def isNameChar (dots : Bool) (c : Char) : Bool :=
  isLowerOrDigit c || c = '-' || (dots && c = '.')

/-- A name has a limited number of bytes, at least one, consists of lowercase letters, digits,
hyphens and, if they are allowed, dots, and starts and ends with a letter or digit. -/
def nameFault? (greatest : Nat) (dots : Bool) (value : String) : Option Reason :=
  if value.isEmpty || greatest < value.utf8ByteSize then some (.badLength greatest)
  else if !value.toList.all (isNameChar dots) then some (.badCharacter dots)
  else if value.toList.head?.all isLowerOrDigit && value.toList.getLast?.all isLowerOrDigit then
    none
  else some .badEnds

/-- What is wrong with the name of an object. -/
def objectNameFault? : String → Option Reason := nameFault? 253 true

/-- What is wrong with a namespace. -/
def namespaceFault? : String → Option Reason := nameFault? 63 false

/-! ## Repetition -/

/-- The first of the values that has occurred before, among `seen` or among the values. -/
def firstRepeated? (seen : List String) : List String → Option String
  | [] => none
  | value :: rest => if value ∈ seen then some value else firstRepeated? (value :: seen) rest

/-- Nothing is repeated exactly when the values are distinct and none has been seen. -/
theorem firstRepeated?_eq_none_iff (seen values : List String) :
    firstRepeated? seen values = none ↔ values.Nodup ∧ ∀ value ∈ values, value ∉ seen := by
  induction values generalizing seen with
  | nil => simp [firstRepeated?]
  | cons value rest ih =>
      by_cases hseen : value ∈ seen
      · simp [firstRepeated?, hseen]
      · simp only [firstRepeated?, if_neg hseen, ih, List.nodup_cons, List.mem_cons, not_or]
        constructor
        · rintro ⟨hnodup, hrest⟩
          exact ⟨⟨fun hmem => (hrest value hmem).1 rfl, hnodup⟩, fun other hother => by
            rcases hother with rfl | hother
            · exact hseen
            · exact (hrest other hother).2⟩
        · rintro ⟨⟨hfresh, hnodup⟩, hall⟩
          exact ⟨hnodup, fun other hother =>
            ⟨fun heq => hfresh (heq ▸ hother), hall other (.inr hother)⟩⟩

/-! ## Checks -/

/-- Accepts a value that has no fault. -/
def require (field value : String) (fault? : Option Reason) : Except Failure Unit :=
  match fault? with
  | none => .ok ()
  | some reason => .error (.invalidValue field value reason)

/-- Accepts files that all have an allowed extension; otherwise names the first that has not. -/
def requireExtensions (field : String) (allowed : List String) :
    List String → Except Failure Unit
  | [] => .ok ()
  | file :: rest =>
      match extensionFault? allowed ⟨file⟩ with
      | none => requireExtensions field allowed rest
      | some reason => .error (.invalidValue field file reason)

/-- Accepts values of which none is repeated. -/
def requireDistinct (field : String) (values : List String) : Except Failure Unit :=
  match firstRepeated? [] values with
  | none => .ok ()
  | some value => .error (.configuration field (.duplicateEntry value))

theorem requireDistinct_eq_ok_iff (field : String) (values : List String) :
    requireDistinct field values = .ok () ↔ values.Nodup := by
  have hnone := firstRepeated?_eq_none_iff [] values
  unfold requireDistinct
  cases hfirst : firstRepeated? [] values with
  | none => simpa [hfirst] using hnone
  | some value => simpa [hfirst] using hnone

end Rollout.Rules
