import Mathlib.Data.List.Infix
import Mathlib.Data.List.TakeWhile
import Rollout.Config.Placeholder

/-!
# Which placeholders are replaced

How a text that is put together is expanded: what stands before a placeholder, the placeholder and
what stands after it are expanded on their own.

## Strategy

Placeholders are looked for from left to right, and the name of a placeholder goes up to the next
closing brace.  An opening of a placeholder that finds no closing brace before its end would go on
into what follows, so the first part of a text is expanded on its own when every opening in it is
closed in it (`Closed`).  What an expansion depends on are the variables that are asked for
(`expandChars_congr`).
-/

namespace Rollout.Placeholder

/-! ## Reading one placeholder in a longer text -/

/-- A name that is closed does not depend on what follows. -/
theorem nameAndRest?_append {chars : List Char} (hclosed : '\x7d' ∈ chars) (later : List Char) :
    nameAndRest? (chars ++ later) =
      (nameAndRest? chars).map fun found => (found.1, found.2 ++ later) := by
  have hdrop : chars.dropWhile (· ≠ '\x7d') ≠ [] := by
    intro hnil
    have hall := List.dropWhile_eq_nil_iff.mp hnil _ hclosed
    simp at hall
  have htake : (chars.takeWhile (· ≠ '\x7d')).length ≠ chars.length := by
    intro hlength
    have happend := congrArg List.length
      (List.takeWhile_append_dropWhile (p := (decide <| · ≠ '\x7d')) (l := chars))
    rw [List.length_append, hlength] at happend
    exact hdrop (List.length_eq_zero_iff.mp (Nat.add_eq_left.mp happend))
  unfold nameAndRest?
  rw [List.takeWhile_append, if_neg htake, List.dropWhile_append,
    if_neg (by simpa using hdrop)]
  cases chars.takeWhile (· ≠ '\x7d') with
  | nil => rfl
  | cons c name =>
      cases hrest : chars.dropWhile (· ≠ '\x7d') with
      | nil => exact absurd hrest hdrop
      | cons close rest => rfl

/-- Every opening of a placeholder is closed, and the last character opens none. -/
structure Closed (chars : List Char) : Prop where
  mem_of_opening : ∀ before after, chars = before ++ '$' :: '\x7b' :: after → '\x7d' ∈ after
  getLast?_ne : chars.getLast? ≠ some '$'

theorem Closed.of_append {front rest : List Char} (hclosed : Closed (front ++ rest)) :
    Closed rest := by
  refine ⟨?_, ?_⟩
  · rintro before after rfl
    exact hclosed.mem_of_opening (front ++ before) after (by simp)
  · intro hlast
    apply hclosed.getLast?_ne
    simp [List.getLast?_append, hlast]

theorem closed_iff {chars : List Char} :
    Closed chars ↔
      (∀ tail ∈ chars.tails, tail.take 2 = ['$', '\x7b'] → '\x7d' ∈ tail.drop 2) ∧
        chars.getLast? ≠ some '$' := by
  constructor
  · rintro ⟨hopening, hlast⟩
    refine ⟨?_, hlast⟩
    intro tail htail htake
    obtain ⟨front, rfl⟩ := (List.mem_tails _ _).mp htail
    refine hopening front (tail.drop 2) ?_
    conv_lhs => rw [← List.take_append_drop 2 tail, htake]
    rfl
  · rintro ⟨htails, hlast⟩
    refine ⟨?_, hlast⟩
    rintro before after rfl
    exact htails _ ((List.mem_tails _ _).mpr (List.suffix_append before _)) rfl

instance (chars : List Char) : Decidable (Closed chars) := decidable_of_iff _ closed_iff.symm

theorem read?_append {c : Char} {chars : List Char} (hclosed : Closed (c :: chars))
    (later : List Char) :
    read? (c :: chars ++ later) =
      (read? (c :: chars)).map fun found => (found.1, found.2 ++ later) := by
  by_cases hopening : ∃ after, c :: chars = '$' :: '\x7b' :: after
  · obtain ⟨after, hopening⟩ := hopening
    rw [hopening]
    exact nameAndRest?_append (hclosed.mem_of_opening [] after hopening) later
  · -- what follows cannot complete an opening either
    have hnone : ∀ tail : List Char, (∀ after, c :: tail ≠ '$' :: '\x7b' :: after) →
        read? (c :: tail) = none := by
      intro tail hother
      unfold read?
      split
      · rename_i rest heq
        exact absurd heq (hother rest)
      · rfl
    rw [hnone chars fun after heq => hopening ⟨after, heq⟩]
    refine hnone (chars ++ later) fun after heq => ?_
    cases chars with
    | nil =>
        exact hclosed.getLast?_ne (congrArg some (List.cons.inj heq).1)
    | cons second rest =>
        rw [List.cons_append, List.cons.injEq, List.cons.injEq] at heq
        exact hopening ⟨rest, by rw [heq.1, heq.2.1]⟩

theorem read?_written {name : List Char} (hname : name ≠ []) (hclose : '\x7d' ∉ name)
    (later : List Char) : read? (written name ++ later) = some (name, later) := by
  have hother : ∀ c ∈ name, decide (c ≠ '\x7d') = true := by
    intro c hc
    rw [decide_eq_true_iff]
    rintro rfl
    exact hclose hc
  have hread : read? (written name ++ later) = nameAndRest? (name ++ '\x7d' :: later) := by
    simp [written, read?]
  rw [hread, nameAndRest?, List.takeWhile_append_of_pos hother,
    List.dropWhile_append_of_pos hother]
  cases name with
  | nil => exact absurd rfl hname
  | cons c name => simp

/-! ## Expanding a text part by part -/

section expand

variable (value? : String → Option String)

theorem expandChars_append {front : List Char} (hclosed : Closed front) (later : List Char) :
    expandChars value? (front ++ later) = expandChars value? front ++ expandChars value? later := by
  induction front using expandChars.induct with
  | case1 => rw [List.nil_append, expandChars, List.nil_append]
  | case2 c chars name after hread ih =>
      have hafter : Closed after := by
        obtain ⟨hwritten, -, -⟩ := eq_written_of_read? hread
        rw [hwritten] at hclosed
        exact hclosed.of_append
      have hlonger := read?_append hclosed later
      rw [hread, Option.map_some] at hlonger
      rw [expandChars_of_read? hread, List.append_assoc, ← ih hafter]
      exact expandChars_of_read? hlonger
  | case3 c chars hread ih =>
      have hchars : Closed chars := (show Closed ([c] ++ chars) from hclosed).of_append
      have hlonger := read?_append hclosed later
      rw [hread, Option.map_none] at hlonger
      rw [expandChars_of_read?_eq_none hread, List.cons_append, List.cons_append, ← ih hchars]
      exact expandChars_of_read?_eq_none hlonger

theorem expandChars_written {name : List Char} (hname : name ≠ []) (hclose : '\x7d' ∉ name)
    (later : List Char) :
    expandChars value? (written name ++ later) =
      replacement value? name ++ expandChars value? later :=
  expandChars_of_read? (read?_written hname hclose later)

end expand

theorem names_of_read? {c : Char} {rest name after : List Char}
    (hread : read? (c :: rest) = some (name, after)) :
    names (c :: rest) = String.ofList name :: names after := by
  rw [names]
  split
  · rename_i found foundAfter hfound
    rw [hread, Option.some.injEq, Prod.mk.injEq] at hfound
    rw [hfound.1, hfound.2]
  · rename_i hnone
    rw [hread] at hnone
    exact absurd hnone (by simp)

theorem names_of_read?_eq_none {c : Char} {rest : List Char} (hread : read? (c :: rest) = none) :
    names (c :: rest) = names rest := by
  rw [names]
  split
  · rename_i hsome
    rw [hread] at hsome
    exact absurd hsome (by simp)
  · rfl

/-- Only the variables that are asked for matter. -/
theorem expandChars_congr {first second : String → Option String} {chars : List Char}
    (hagree : ∀ name ∈ names chars, first name = second name) :
    expandChars first chars = expandChars second chars := by
  induction chars using names.induct with
  | case1 => rw [expandChars, expandChars]
  | case2 c chars name after hread ih =>
      rw [names_of_read? hread, List.forall_mem_cons] at hagree
      rw [expandChars_of_read? hread, expandChars_of_read? hread, ih hagree.2, replacement,
        replacement, hagree.1]
  | case3 c chars hread ih =>
      rw [names_of_read?_eq_none hread] at hagree
      rw [expandChars_of_read?_eq_none hread, expandChars_of_read?_eq_none hread, ih hagree]

end Rollout.Placeholder
