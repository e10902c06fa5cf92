import Rollout.Proofs.Config.LeftmostPlaceholders

/-!
# Expanding a text again

A text that was expanded with values that cannot take part in a placeholder is not changed by
another expansion.  Its placeholders are those of the first text whose variables are not set.

## Strategy

The cut of the expanded text is known: `Cut.settle` joins each value that was put in with the kept
text around it and keeps the placeholders that were left.  That this cut is leftmost again is a
matter of the borders between the pieces.  Kept text in front of a placeholder has no opening except
one that is closed at once, since another one would have taken the placeholder into its name; so
what follows that text may be exchanged as long as it does not complete an opening
(`Free.exchange`).
-/

namespace Rollout.Placeholder

/-! ## Openings -/

/-- A placeholder needs something for its name, and a closing brace. -/
theorem opens_iff {chars : List Char} :
    Opens chars ↔
      ∃ rest, chars = '$' :: '\x7b' :: rest ∧ rest.head? ≠ some '\x7d' ∧ '\x7d' ∈ rest := by
  constructor
  · rintro ⟨name, later, hname, hclose, rfl⟩
    refine ⟨name ++ '\x7d' :: later, by simp [written], ?_, by simp⟩
    obtain ⟨c, name, rfl⟩ := List.exists_cons_of_ne_nil hname
    rintro hhead
    exact hclose (Option.some.inj hhead ▸ List.mem_cons_self)
  · rintro ⟨rest, rfl, hhead, hclose⟩
    obtain ⟨name, later, rfl, hname⟩ := List.eq_append_cons_of_mem hclose
    refine ⟨name, later, ?_, hname, by simp [written]⟩
    rintro rfl
    exact hhead rfl

theorem free_append_iff {front middle rest : List Char} :
    Free (front ++ middle) rest ↔ Free front (middle ++ rest) ∧ Free middle rest := by
  induction front with
  | nil => simp [free_nil]
  | cons c front ih =>
      rw [List.cons_append, free_cons_iff, free_cons_iff, ih, List.append_assoc, and_assoc]

/-- Kept text in front of a placeholder stays free in front of anything that does not complete an
opening at its end. -/
theorem Free.exchange {front name later tail : List Char}
    (hfree : Free front (written name ++ later)) (htail : tail.head? ≠ some '\x7b') :
    Free front tail := by
  induction front with
  | nil => exact free_nil tail
  | cons c front ih =>
      obtain ⟨hhead, hrest⟩ := free_cons_iff.mp hfree
      refine free_cons_iff.mpr ⟨fun hopens => hhead ?_, ih hrest⟩
      obtain ⟨rest, hchars, hnotClosed, -⟩ := opens_iff.mp hopens
      obtain ⟨rfl, hsecond⟩ := List.cons.inj hchars
      cases front with
      | nil =>
          rw [List.nil_append] at hsecond
          rw [hsecond] at htail
          exact absurd rfl htail
      | cons second front =>
          obtain ⟨rfl, rfl⟩ := List.cons.inj hsecond
          -- the same opening finds the closing brace of the placeholder
          refine opens_iff.mpr ⟨front ++ (written name ++ later), rfl, ?_, by simp [written]⟩
          cases front with
          | nil => simp [written]
          | cons third front => exact hnotClosed

/-! ## Values that cannot take part in a placeholder -/

/-- The value is not empty and holds nothing that opens a placeholder.  A closing brace in it does
no harm. -/
structure Inert (value : List Char) : Prop where
  ne_nil : value ≠ []
  dollar_notMem : '$' ∉ value
  brace_notMem : '\x7b' ∉ value

theorem Inert.free {value : List Char} (hinert : Inert value) (rest : List Char) :
    Free value rest := by
  intro index hindex hopens
  obtain ⟨later, hchars, -⟩ := opens_iff.mp hopens
  have hdollar : (value ++ rest)[index]? = some '$' := by
    have hhead := congrArg List.head? hchars
    rwa [List.head?_drop] at hhead
  rw [List.getElem?_append_left hindex] at hdollar
  exact hinert.dollar_notMem (List.mem_of_getElem? hdollar)

theorem Inert.head?_append_ne {value : List Char} (hinert : Inert value) (rest : List Char) :
    (value ++ rest).head? ≠ some '\x7b' := by
  obtain ⟨c, value, rfl⟩ := List.exists_cons_of_ne_nil hinert.ne_nil
  intro hhead
  exact hinert.brace_notMem (Option.some.inj hhead ▸ List.mem_cons_self)

/-! ## The cut of the expanded text -/

namespace Cut

/-- The cut with more text in front of it. -/
def prepend (front : List Char) : Cut → Cut
  | last kept => last (front ++ kept)
  | next kept name rest => next (front ++ kept) name rest

/-- The cut in which values have become kept text and the other placeholders are left. -/
def settle (value? : String → Option String) : Cut → Cut
  | last kept => last kept
  | next kept name rest =>
      match value? (String.ofList name) with
      | none => next kept name (rest.settle value?)
      | some value => (rest.settle value?).prepend (kept ++ value.toList)

@[simp]
theorem text_prepend (front : List Char) (cut : Cut) :
    (cut.prepend front).text = front ++ cut.text := by
  cases cut <;> simp [prepend, text]

@[simp]
theorem names_prepend (front : List Char) (cut : Cut) : (cut.prepend front).names = cut.names := by
  cases cut <;> rfl

theorem Leftmost.prepend {front : List Char} {cut : Cut} (hleftmost : cut.Leftmost)
    (hfree : Free front cut.text) : (cut.prepend front).Leftmost := by
  cases cut with
  | last kept =>
      refine free_append_iff.mpr ⟨?_, hleftmost⟩
      rw [List.append_nil]
      exact hfree
  | next kept name rest =>
      obtain ⟨hkept, hrest⟩ := hleftmost
      exact ⟨free_append_iff.mpr ⟨hfree, hkept⟩, hrest⟩

section settle

variable {value? : String → Option String}

theorem text_settle (cut : Cut) : (cut.settle value?).text = cut.filled value? := by
  induction cut with
  | last kept => rfl
  | next kept name rest ih =>
      cases hvalue : value? (String.ofList name) <;> simp [settle, filled, text, hvalue, ih]

/-- The placeholders that are left are those whose variables are not set. -/
theorem names_settle (cut : Cut) :
    (cut.settle value?).names = cut.names.filter fun name => (value? name).isNone := by
  induction cut with
  | last kept => rfl
  | next kept name rest ih =>
      cases hvalue : value? (String.ofList name) <;> simp [settle, names, hvalue, ih]

/-- With values that cannot take part in a placeholder, the cut of the expanded text is leftmost. -/
theorem Leftmost.settle {cut : Cut} (hleftmost : cut.Leftmost)
    (hinert : ∀ name ∈ cut.names, ∀ value, value? name = some value → Inert value.toList) :
    (cut.settle value?).Leftmost := by
  induction cut with
  | last kept => exact hleftmost
  | next kept name rest ih =>
      obtain ⟨hfree, hname, hrest⟩ := hleftmost
      obtain ⟨hfirst, hlater⟩ := List.forall_mem_cons.mp hinert
      have hsettled := ih hrest hlater
      rw [Cut.settle]
      cases hvalue : value? (String.ofList name) with
      | none => exact ⟨hfree.exchange (by simp [written]), hname, hsettled⟩
      | some value =>
          have hvalueInert := hfirst value hvalue
          refine hsettled.prepend (free_append_iff.mpr ⟨?_, hvalueInert.free _⟩)
          exact hfree.exchange (hvalueInert.head?_append_ne _)

end settle

end Cut

/-- A variable with a value that looks like the end of a placeholder, and no other. -/
def lettered (name : String) : Option String := if name = "a" then some "x\x7d" else none

/-- An empty value may bring the two parts of an opening together. -/
example :
    let value? : String → Option String := fun name =>
      if name = "a" then some "" else if name = "b" then some "v" else none
    expand value? "$$\x7ba\x7d\x7bb\x7d" = "$\x7bb\x7d" ∧ expand value? "$\x7bb\x7d" = "v" := by
  decide +kernel

end Rollout.Placeholder
