/-!
# Placeholders

A placeholder `${NAME}` in a text stands for the value of an environment variable.  The name is
not empty and goes up to the next closing brace, whatever else it holds.  Placeholders are looked
for from left to right, and a value that was put in is not looked at again.  A variable that is not
set leaves its placeholder as it is.

## The environment

The environment is a list of texts `name=value`.  A variable is found as the first text that starts
with its name and an equals sign.
-/

namespace Rollout

/-! ## The environment -/

/-- The variables that are set, with their values. -/
structure Environment where
  entries : List (String × String)
  deriving DecidableEq, Repr, Inhabited

/-- What follows a given beginning. -/
def after? : List Char → List Char → Option (List Char)
  | [], chars => some chars
  | _ :: _, [] => none
  | expected :: beginning, c :: rest => if c = expected then after? beginning rest else none

/-- The value of a variable. -/
def Environment.value? (environment : Environment) (name : String) : Option String :=
  environment.entries.findSome? fun entry =>
    (after? (name.toList ++ ['=']) (entry.1.toList ++ '=' :: entry.2.toList)).map String.ofList

namespace Placeholder

/-! ## One placeholder -/

/-- The name at the start of the characters up to the closing brace, and what follows the brace. -/
def nameAndRest? (chars : List Char) : Option (List Char × List Char) :=
  match chars.takeWhile (· ≠ '\x7d'), chars.dropWhile (· ≠ '\x7d') with
  | c :: name, _ :: rest => some (c :: name, rest)
  | _, _ => none

/-- The placeholder at the start of the characters: its name, and what follows it. -/
def read? : List Char → Option (List Char × List Char)
  | '$' :: '\x7b' :: rest => nameAndRest? rest
  | _ => none

/-- A placeholder as it is written. -/
def written (name : List Char) : List Char :=
  '$' :: '\x7b' :: name ++ ['\x7d']

/-- A placeholder is read as its name and what follows it, and as nothing else. -/
theorem eq_written_of_read? {chars name rest : List Char}
    (hread : read? chars = some (name, rest)) :
    chars = written name ++ rest ∧ name ≠ [] ∧ '\x7d' ∉ name := by
  unfold read? at hread
  split at hread
  · rename_i tail
    unfold nameAndRest? at hread
    split at hread
    · rename_i c front close after htake hdrop
      simp only [Option.some.injEq, Prod.mk.injEq] at hread
      obtain ⟨rfl, rfl⟩ := hread
      have hclose : close = '\x7d' := by
        have hhead := List.head?_dropWhile_not (fun x : Char => decide (x ≠ '\x7d')) tail
        rw [hdrop] at hhead
        simpa using hhead
      refine ⟨?_, List.cons_ne_nil _ _, ?_⟩
      · have happend := List.takeWhile_append_dropWhile (p := fun x : Char => decide (x ≠ '\x7d'))
          (l := tail)
        rw [htake, hdrop, hclose] at happend
        rw [← happend]
        simp [written]
      · intro hmem
        rw [← htake] at hmem
        have hother := List.all_eq_true.1 List.all_takeWhile _ hmem
        simp at hother
    · simp at hread
  · simp at hread

/-! ## All placeholders -/

theorem length_lt_of_read? {chars name rest : List Char} (hread : read? chars = some (name, rest)) :
    rest.length < chars.length := by
  obtain ⟨rfl, -⟩ := eq_written_of_read? hread
  simp [written]
  omega

/-- What stands in the place of a placeholder. -/
def replacement (value? : String → Option String) (name : List Char) : List Char :=
  match value? (String.ofList name) with
  | some value => value.toList
  | none => written name

/-- The characters with every placeholder replaced. -/
def expandChars (value? : String → Option String) : List Char → List Char
  | [] => []
  | c :: rest =>
      match _hread : read? (c :: rest) with
      | some (name, after) => replacement value? name ++ expandChars value? after
      | none => c :: expandChars value? rest
termination_by chars => chars.length
decreasing_by
  · exact length_lt_of_read? (by assumption)
  · simp

/-- The text with every placeholder replaced. -/
def expand (value? : String → Option String) (text : String) : String :=
  String.ofList (expandChars value? text.toList)

/-- The names of the placeholders of a text, in order. -/
def names : List Char → List String
  | [] => []
  | c :: rest =>
      match _hread : read? (c :: rest) with
      | some (name, after) => String.ofList name :: names after
      | none => names rest
termination_by chars => chars.length
decreasing_by
  · exact length_lt_of_read? (by assumption)
  · simp

theorem expandChars_of_read? {value? : String → Option String} {c : Char}
    {rest name after : List Char} (hread : read? (c :: rest) = some (name, after)) :
    expandChars value? (c :: rest) = replacement value? name ++ expandChars value? after := by
  rw [expandChars]
  split
  · rename_i found foundAfter hfound
    rw [hread] at hfound
    simp only [Option.some.injEq, Prod.mk.injEq] at hfound
    obtain ⟨rfl, rfl⟩ := hfound
    rfl
  · rename_i hnone
    rw [hread] at hnone
    simp at hnone

theorem expandChars_of_read?_eq_none {value? : String → Option String} {c : Char}
    {rest : List Char} (hread : read? (c :: rest) = none) :
    expandChars value? (c :: rest) = c :: expandChars value? rest := by
  rw [expandChars]
  split
  · rename_i hsome
    rw [hread] at hsome
    simp at hsome
  · rfl

end Placeholder
end Rollout
