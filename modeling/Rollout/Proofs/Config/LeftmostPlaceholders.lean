import Rollout.Proofs.Config.Substitution

/-!
# Texts cut at their placeholders

Every text is cut in exactly one way into kept text and placeholders such that each placeholder is
the first one that is complete in what is left of the text.  Expanding the text replaces the
placeholders of this cut, each by the value of its variable or by itself, and keeps everything else.

## Strategy

A `Cut` alternates between kept text and names, and `Cut.Leftmost` says that no placeholder starts
inside the kept text (`Free`), also none that is completed only behind it.  An expansion copies text
that is free (`expandChars_append_of_free`), so along a leftmost cut it does what `Cut.filled` says.
The first placeholder of a text is found at one place only, which makes the cut unique.
-/

namespace Rollout.Placeholder

/-! ## Where a placeholder starts -/

/-- A complete placeholder stands at the start of the characters. -/
def Opens (chars : List Char) : Prop :=
  ∃ name later, name ≠ [] ∧ '\x7d' ∉ name ∧ chars = written name ++ later

/-- No placeholder starts inside the first part, also none that goes on into the rest. -/
def Free (front rest : List Char) : Prop :=
  ∀ index < front.length, ¬ Opens ((front ++ rest).drop index)

theorem read?_eq_none_iff {chars : List Char} : read? chars = none ↔ ¬ Opens chars := by
  constructor
  · rintro hnone ⟨name, later, hname, hclose, rfl⟩
    rw [read?_written hname hclose] at hnone
    exact absurd hnone (by simp)
  · intro hopens
    cases hread : read? chars with
    | none => rfl
    | some found =>
        obtain ⟨hwritten, hname, hclose⟩ := eq_written_of_read? hread
        exact absurd ⟨found.1, found.2, hname, hclose, hwritten⟩ hopens

theorem free_nil (rest : List Char) : Free [] rest := by
  intro index hindex
  exact absurd hindex (Nat.not_lt_zero index)

theorem free_cons_iff {c : Char} {front rest : List Char} :
    Free (c :: front) rest ↔ ¬ Opens (c :: (front ++ rest)) ∧ Free front rest := by
  constructor
  · intro hfree
    refine ⟨hfree 0 (Nat.succ_pos _), fun index hindex => ?_⟩
    exact hfree (index + 1) (Nat.succ_lt_succ hindex)
  · rintro ⟨hhead, htail⟩ index hindex
    cases index with
    | zero => exact hhead
    | succ index => exact htail index (Nat.lt_of_succ_lt_succ hindex)

/-- A text that is free ends where the next placeholder starts, or before. -/
theorem length_le_of_free {front rest before tail : List Char} (hfree : Free front rest)
    (htext : front ++ rest = before ++ tail) (hopens : Opens tail) :
    front.length ≤ before.length := by
  refine Nat.le_of_not_lt fun hlt => hfree before.length hlt ?_
  rw [htext, List.drop_left]
  exact hopens

/-- An expansion copies text in which no placeholder starts. -/
theorem expandChars_append_of_free (value? : String → Option String) {front rest : List Char}
    (hfree : Free front rest) :
    expandChars value? (front ++ rest) = front ++ expandChars value? rest := by
  induction front with
  | nil => rfl
  | cons c front ih =>
      obtain ⟨hhead, htail⟩ := free_cons_iff.mp hfree
      rw [List.cons_append, List.cons_append, ← ih htail]
      exact expandChars_of_read?_eq_none (read?_eq_none_iff.mpr hhead)

theorem names_append_of_free {front rest : List Char} (hfree : Free front rest) :
    names (front ++ rest) = names rest := by
  induction front with
  | nil => rfl
  | cons c front ih =>
      obtain ⟨hhead, htail⟩ := free_cons_iff.mp hfree
      rw [← ih htail]
      exact names_of_read?_eq_none (read?_eq_none_iff.mpr hhead)

/-! ## Cuts -/

/-- A text in pieces: kept text, the name of a placeholder, kept text and so on. -/
inductive Cut
  | last (kept : List Char)
  | next (kept name : List Char) (rest : Cut)
  deriving DecidableEq, Repr

namespace Cut

/-- The text that was cut. -/
def text : Cut → List Char
  | last kept => kept
  | next kept name rest => kept ++ (written name ++ rest.text)

/-- The text with each placeholder replaced by the value of its variable, if that is set. -/
def filled (value? : String → Option String) : Cut → List Char
  | last kept => kept
  | next kept name rest =>
      kept ++
        ((value? (String.ofList name)).elim (written name) String.toList ++ rest.filled value?)

/-- The names of the placeholders, in order. -/
def names : Cut → List String
  | last _ => []
  | next _ name rest => String.ofList name :: rest.names

/-- Each placeholder is the first that is complete in what the placeholders before it leave, and the
last piece has none. -/
def Leftmost : Cut → Prop
  | last kept => Free kept []
  | next kept name rest =>
      Free kept (written name ++ rest.text) ∧ (name ≠ [] ∧ '\x7d' ∉ name) ∧ rest.Leftmost

/-- Every text has a leftmost cut. -/
theorem exists_leftmost (chars : List Char) : ∃ cut : Cut, cut.text = chars ∧ cut.Leftmost := by
  induction chars using Placeholder.names.induct with
  | case1 => exact ⟨last [], rfl, free_nil []⟩
  | case2 c chars name after hread ih =>
      obtain ⟨cut, rfl, hleftmost⟩ := ih
      obtain ⟨hwritten, hname, hclose⟩ := eq_written_of_read? hread
      exact ⟨next [] name cut, hwritten.symm, free_nil _, ⟨hname, hclose⟩, hleftmost⟩
  | case3 c chars hread ih =>
      obtain ⟨cut, rfl, hleftmost⟩ := ih
      have hhead : ¬ Opens (c :: cut.text) := read?_eq_none_iff.mp hread
      cases cut with
      | last kept =>
          refine ⟨last (c :: kept), rfl, free_cons_iff.mpr ⟨?_, hleftmost⟩⟩
          rw [List.append_nil]
          exact hhead
      | next kept name rest =>
          obtain ⟨hfree, hrest⟩ := hleftmost
          exact ⟨next (c :: kept) name rest, rfl, free_cons_iff.mpr ⟨hhead, hfree⟩, hrest⟩

/-- Text without a placeholder is not the text of a cut with one. -/
theorem ne_text_next_of_free {whole kept name : List Char} {rest : Cut} (hfree : Free whole [])
    (hname : name ≠ [] ∧ '\x7d' ∉ name) : whole ≠ (next kept name rest).text := by
  intro htext
  have hle := length_le_of_free hfree ((List.append_nil whole).trans htext)
    ⟨name, rest.text, hname.1, hname.2, rfl⟩
  have hlength := congrArg List.length htext
  simp only [text, written, List.length_append, List.length_cons] at hlength
  omega

/-- A text has one leftmost cut only. -/
theorem Leftmost.unique {first second : Cut} (hfirst : first.Leftmost) (hsecond : second.Leftmost)
    (htext : first.text = second.text) : first = second := by
  induction first generalizing second with
  | last kept =>
      cases second with
      | last other => exact congrArg last htext
      | next other name rest => exact absurd htext (ne_text_next_of_free hfirst hsecond.2.1)
  | next kept name rest ih =>
      cases second with
      | last other => exact absurd htext.symm (ne_text_next_of_free hsecond hfirst.2.1)
      | next other otherName otherRest =>
          obtain ⟨hfree, hname, hrest⟩ := hfirst
          obtain ⟨hotherFree, hotherName, hotherRest⟩ := hsecond
          have hle := length_le_of_free hfree htext ⟨_, _, hotherName.1, hotherName.2, rfl⟩
          have hge := length_le_of_free hotherFree htext.symm ⟨_, _, hname.1, hname.2, rfl⟩
          obtain ⟨rfl, hlater⟩ := List.append_inj htext (Nat.le_antisymm hle hge)
          have hread := read?_written hname.1 hname.2 rest.text
          rw [hlater, read?_written hotherName.1 hotherName.2, Option.some.injEq,
            Prod.mk.injEq] at hread
          obtain ⟨rfl, hrestText⟩ := hread
          rw [ih hrest hotherRest hrestText.symm]

theorem expandChars_text (value? : String → Option String) {cut : Cut} (hleftmost : cut.Leftmost) :
    expandChars value? cut.text = cut.filled value? := by
  induction cut with
  | last kept =>
      have hcopied := expandChars_append_of_free value? hleftmost
      rw [List.append_nil, expandChars, List.append_nil] at hcopied
      exact hcopied
  | next kept name rest ih =>
      obtain ⟨hfree, ⟨hname, hclose⟩, hrest⟩ := hleftmost
      rw [text, filled, expandChars_append_of_free value? hfree,
        expandChars_written value? hname hclose, ih hrest, replacement]
      cases value? (String.ofList name) <;> rfl

theorem names_text {cut : Cut} (hleftmost : cut.Leftmost) :
    Placeholder.names cut.text = cut.names := by
  induction cut with
  | last kept =>
      have hfree := names_append_of_free hleftmost
      rw [List.append_nil, Placeholder.names] at hfree
      exact hfree
  | next kept name rest ih =>
      obtain ⟨hfree, ⟨hname, hclose⟩, hrest⟩ := hleftmost
      rw [text, names, names_append_of_free hfree, ← ih hrest]
      exact names_of_read? (read?_written hname hclose rest.text)

/-- A text whose placeholders are not set is filled with itself. -/
theorem filled_of_unset {value? : String → Option String} {cut : Cut}
    (hunset : ∀ name ∈ cut.names, value? name = none) : cut.filled value? = cut.text := by
  induction cut with
  | last kept => rfl
  | next kept name rest ih =>
      obtain ⟨hname, hrest⟩ := List.forall_mem_cons.mp hunset
      rw [filled, text, hname, ih hrest]
      rfl

end Cut

/-- **An expansion replaces the leftmost placeholders.**  Every text is cut at its leftmost
placeholders in exactly one way.  Whatever the variables are, expanding the text gives the cut with
each placeholder replaced by the value of its variable, or left as it is written when the variable
is not set; so the text stays the same when none of them is set. -/
theorem expand_fills_leftmost_cut (text : String) :
    ∃ cut : Cut, cut.text = text.toList ∧ cut.Leftmost ∧
      (∀ other : Cut, other.text = text.toList → other.Leftmost → other = cut) ∧
      ∀ value? : String → Option String,
        expand value? text = String.ofList (cut.filled value?) ∧
        ((∀ name ∈ cut.names, value? name = none) → expand value? text = text) := by
  obtain ⟨cut, htext, hleftmost⟩ := Cut.exists_leftmost text.toList
  have hfilled : ∀ value?, expand value? text = String.ofList (cut.filled value?) := by
    intro value?
    rw [expand, ← htext, Cut.expandChars_text value? hleftmost]
  refine ⟨cut, htext, hleftmost, ?_, fun value? => ⟨hfilled value?, fun hunset => ?_⟩⟩
  · intro other hother hotherLeftmost
    exact hotherLeftmost.unique hleftmost (hother.trans htext.symm)
  · rw [hfilled, Cut.filled_of_unset hunset, htext, String.ofList_toList]

/-- An opening that is not closed at once takes what follows into its name, another opening too. -/
example : expand (fun name => if name = "b" then some "v" else none)
    "$\x7ba$\x7bb\x7d\x7d" = "$\x7ba$\x7bb\x7d\x7d" := by
  decide +kernel

end Rollout.Placeholder
