import Mathlib.Tactic.SplitIfs
import Rollout.Proofs.Toml.Nested

/-!
# Reading statements

Statements, like values, are read without looking further than needed, and neither the budget nor
the limit on their number matters when it is large enough.

## Strategy

Every statement takes at least one character, the opening bracket of its header or the equals sign
after its key, so a limit above the number of characters is met.
-/

namespace Rollout.Toml

variable {α : Type}

/-! ## Headers -/

/-- Reads the brackets that close a header, given the two characters that come next. -/
def afterBracketsAt (element : Bool) (head second : Option Char) (chars : List Char) :
    Except Fault (List Char) :=
  if head = some ']' then
    if element = true then
      if second = some ']' then .ok chars.tail.tail else .error (unexpected second)
    else .ok chars.tail
  else .error (unexpected head)

theorem afterBrackets_eq (element : Bool) (chars : List Char) :
    afterBrackets element chars = afterBracketsAt element chars.head? (second? chars) chars := by
  cases chars with
  | nil => rfl
  | cons c rest =>
      by_cases hc : c = ']'
      · subst hc
        cases element with
        | false => rfl
        | true =>
            cases rest with
            | nil => rfl
            | cons d rest =>
                by_cases hd : d = ']'
                · subst hd
                  rfl
                · simp [afterBrackets, afterBracketsAt, second?, unexpected, hd]
      · simp [afterBrackets, afterBracketsAt, unexpected, hc]

theorem local_afterBrackets (element : Bool) (value : α) :
    Local (Reads fun chars => afterBrackets element chars >>= fun rest => .ok (value, rest)) := by
  refine Local.ofHeads
    (fun head second chars => afterBracketsAt element head second chars >>= fun rest =>
      .ok (value, rest))
    (fun chars => by rw [afterBrackets_eq]) fun head second => ?_
  unfold afterBracketsAt
  by_cases hhead : head = some ']'
  · simp only [if_pos hhead]
    cases element with
    | false => exact (local_ok value).after local_tail
    | true =>
        by_cases hsecond : second = some ']'
        · simp only [if_pos hsecond]
          exact ((local_ok value).after local_tail).after local_tail
        · simp only [if_neg hsecond]
          exact local_error (unexpected second)
  · simp only [if_neg hhead]
    exact local_error (unexpected head)

theorem local_readHeader (element : Bool) : Local (Reads (readHeader element)) :=
  (local_readKey maxKeyParts).bind (fun _ => rfl) fun key =>
    local_afterBrackets element (Statement.header element key)

/-! ## Statements -/

/-- Reads a statement, given the two characters that come next. -/
def readStatementAt (budget : Nat) (head second : Option Char) (chars : List Char) :
    Except Fault (Statement × List Char) :=
  if head = some '[' then
    if second = some '[' then readHeader true chars.tail.tail else readHeader false chars.tail
  else readName id skipBlank chars >>= fun named =>
    readValue budget maxDepth named.2 >>= fun found => .ok (.assignment named.1 found.1, found.2)

theorem readStatement_eq (budget : Nat) (chars : List Char) :
    readStatement budget chars = readStatementAt budget chars.head? (second? chars) chars := by
  by_cases hhead : chars.head? = some '['
  · obtain ⟨rest, rfl⟩ := List.head?_eq_some_iff.mp hhead
    rw [readStatementAt, if_pos hhead]
    rcases rest with _ | ⟨c, rest⟩
    · rfl
    -- a second bracket makes it the header of an element
    by_cases hc : c = '['
    · subst hc
      rfl
    · rw [if_neg (by simpa [second?] using hc)]
      unfold readStatement
      split
      · rename_i heq
        exact absurd (List.cons.inj (List.cons.inj heq).2).1 hc
      · rename_i heq
        rw [(List.cons.inj heq).2]
        rfl
      · rename_i hother
        exact absurd rfl (hother _)
  · have hplain : ∀ rest, chars ≠ '[' :: rest := by
      rintro rest rfl
      exact hhead rfl
    rw [readStatementAt, if_neg hhead, readName]
    unfold readStatement
    split
    · exact absurd rfl (hplain _)
    · exact absurd rfl (hplain _)
    · cases readKey maxKeyParts chars with
      | error fault => rfl
      | ok named =>
          dsimp only [bind, Except.bind, id]
          cases afterEquals named.2 with
          | error fault => rfl
          | ok rest =>
              dsimp only [pure, Except.pure]

theorem local_id : Local (Skips id) := by
  refine ⟨?_, ?_⟩
  · rintro chars _ rest rfl
    exact List.suffix_refl chars
  · intro front tail _ rest hrest other
    rw [eq_of_append_quote hrest]
    rfl

theorem local_readStatement (budget : Nat) : Local (Reads (readStatement budget)) := by
  refine Local.ofHeads (readStatementAt budget) (readStatement_eq budget) fun head second => ?_
  unfold readStatementAt
  by_cases hhead : head = some '['
  · by_cases hsecond : second = some '['
    · simpa only [if_pos hhead, if_pos hsecond] using
        ((local_readHeader true).after local_tail).after local_tail
    · simpa only [if_pos hhead, if_neg hsecond] using
        (local_readHeader false).after local_tail
  · simp only [if_neg hhead]
    refine (local_readName local_id local_skipBlank).bind (fun _ => rfl) fun key => ?_
    dsimp only
    refine ((local_readNested budget).value maxDepth).bind (fun _ => rfl) fun value => ?_
    exact local_ok (Statement.assignment key value)

theorem length_lt_of_readName {after : List Char → List Char} (hafter : Local (Skips after))
    {chars rest : List Char} {key : List String}
    (hread : readName id after chars = .ok (key, rest)) :
    rest.length < chars.length := by
  obtain ⟨⟨found, between⟩, hkey, hread⟩ := bind_eq_ok.mp hread
  obtain ⟨later, hequals, hfound⟩ := bind_eq_ok.mp hread
  cases hfound
  have hbetween := ((local_readKey maxKeyParts).suffix hkey).length_le
  have hlater := (hafter.suffix (show Skips after later () _ from rfl)).length_le
  change afterEquals between = .ok later at hequals
  rw [afterEquals_eq] at hequals
  unfold afterEqualsAt at hequals
  split_ifs at hequals with hhead
  obtain ⟨tail, rfl⟩ := List.head?_eq_some_iff.mp hhead
  cases hequals
  rw [List.length_cons] at hbetween
  exact Nat.lt_of_le_of_lt hlater hbetween

/-- A statement takes a character at least. -/
theorem length_lt_of_readStatement {budget : Nat} {chars rest : List Char} {statement : Statement}
    (hread : readStatement budget chars = .ok (statement, rest)) : rest.length < chars.length := by
  rw [readStatement_eq, readStatementAt] at hread
  by_cases hhead : chars.head? = some '['
  · obtain ⟨later, rfl⟩ := List.head?_eq_some_iff.mp hhead
    have hlater : rest <:+ later := by
      rw [if_pos hhead] at hread
      split_ifs at hread
      · exact ((local_readHeader true).suffix hread).trans (List.tail_suffix later)
      · exact (local_readHeader false).suffix hread
    exact Nat.lt_succ_of_le hlater.length_le
  · rw [if_neg hhead] at hread
    obtain ⟨⟨key, named⟩, hname, hread⟩ := bind_eq_ok.mp hread
    obtain ⟨⟨value, between⟩, hvalue, hfound⟩ := bind_eq_ok.mp hread
    cases hfound
    have hnamed := length_lt_of_readName local_skipBlank hname
    have hbetween := (((local_readNested budget).value maxDepth).suffix hvalue).length_le
    exact Nat.lt_of_le_of_lt hbetween hnamed

/-! ## All statements -/

theorem readStatements_succ (budget limit : Nat) (chars : List Char) :
    readStatements budget (limit + 1) chars =
      if skipFiller false chars = [] then .ok []
      else readStatement budget (skipFiller false chars) >>= fun found =>
        endOfLine found.2 >>= fun rest =>
          readStatements budget limit rest >>= fun statements =>
            .ok (found.1 :: statements) := by
  rw [readStatements]
  cases skipFiller false chars <;> rfl

theorem readStatement_of_le {budget : Nat} {chars : List Char} {found : Statement × List Char}
    (hread : readStatement budget chars = .ok found) {larger : Nat}
    (hlarger : 2 * chars.length + 1 ≤ larger) : readStatement larger chars = .ok found := by
  rw [readStatement_eq, readStatementAt] at hread ⊢
  split_ifs at hread ⊢
  · exact hread
  · exact hread
  · obtain ⟨named, hname, hread⟩ := bind_eq_ok.mp hread
    obtain ⟨value, hvalue, hfound⟩ := bind_eq_ok.mp hread
    have hlength := ((local_readName local_id local_skipBlank).suffix hname).length_le
    refine bind_eq_ok.mpr ⟨named, hname, bind_eq_ok.mpr ⟨value, ?_, hfound⟩⟩
    exact (readNested_of_le budget).value hvalue (by omega)

theorem readStatements_of_le {budget limit : Nat} {chars : List Char}
    {statements : List Statement} (hread : readStatements budget limit chars = .ok statements)
    {largerBudget largerLimit : Nat} (hbudget : 2 * chars.length + 1 ≤ largerBudget)
    (hlimit : chars.length + 1 ≤ largerLimit) :
    readStatements largerBudget largerLimit chars = .ok statements := by
  induction limit generalizing chars statements largerLimit with
  | zero => simp [readStatements] at hread
  | succ limit ih =>
      obtain ⟨largerLimit, rfl⟩ := Nat.exists_eq_add_of_le' (Nat.one_le_of_lt hlimit)
      have hskip := length_skipFiller_le chars
      rw [readStatements_succ] at hread ⊢
      split_ifs at hread ⊢
      · exact hread
      obtain ⟨⟨statement, between⟩, hstatement, hread⟩ := bind_eq_ok.mp hread
      obtain ⟨rest, hend, hread⟩ := bind_eq_ok.mp hread
      obtain ⟨later, hlater, hfound⟩ := bind_eq_ok.mp hread
      have hshorter := length_lt_of_readStatement hstatement
      have hends : Passes endOfLine between () rest := hend
      have hrest := (local_endOfLine.suffix hends).length_le
      refine bind_eq_ok.mpr ⟨_, readStatement_of_le hstatement (by omega), ?_⟩
      refine bind_eq_ok.mpr ⟨rest, hend, bind_eq_ok.mpr ⟨later, ?_, hfound⟩⟩
      exact ih hlater (by omega) (by omega)

end Rollout.Toml
