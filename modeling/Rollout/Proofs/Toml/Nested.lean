import Mathlib.Tactic.SplitIfs
import Rollout.Proofs.Toml.Lookahead

/-!
# Reading nested values

The readers of values, of items and of members call each other.  Here each of them is written as one
equation, and from these equations it follows that they look no further than they have to and that
their budget does not matter as long as it is large enough.

## Strategy

Items and members are followed by the same thing, a comma or a closing bracket, so this is one
reader (`afterElement`).  Locality goes by induction on the budget.  A reader that succeeds with
some budget gives the same result with every budget that its characters bound: each call is on fewer
characters, except for the call of a value at the start of its items or members, which is why these
need one more.
-/

namespace Rollout.Toml

variable {α : Type}

/-! ## Scalars -/

/-- Goes on after the first characters of a scalar, given the two characters that come next.  A date
is joined to a time when a blank and a digit follow it. -/
def splitScalarAt (first : List Char) (head second : Option Char) (rest : List Char) :
    List Char × List Char :=
  if head = some ' ' ∧ afterDate? first = some [] ∧ second.any Text.isDecimal = true then
    (first ++ ' ' :: rest.tail.takeWhile isScalarChar, rest.tail.dropWhile isScalarChar)
  else (first, rest)

theorem splitScalar_eq (chars : List Char) :
    splitScalar chars =
      splitScalarAt (chars.takeWhile isScalarChar) (chars.dropWhile isScalarChar).head?
        (second? (chars.dropWhile isScalarChar)) (chars.dropWhile isScalarChar) := by
  unfold splitScalar splitScalarAt
  dsimp only
  generalize chars.takeWhile isScalarChar = first
  cases chars.dropWhile isScalarChar with
  | nil => rfl
  | cons blank rest =>
      by_cases hblank : blank = ' '
      · subst hblank
        cases rest with
        | nil => simp [second?]
        | cons c later => simp [second?]
      · split
        · rename_i heq
          exact absurd (List.cons.inj heq).1 hblank
        · simp [hblank]

theorem local_splitScalar : Local (Reads fun chars => .ok (splitScalar chars)) := by
  have htime : ∀ first, Local (Reads fun chars =>
      .ok (first ++ ' ' :: chars.takeWhile isScalarChar, chars.dropWhile isScalarChar)) := by
    intro first
    have hwhole : ∀ chars : List Char,
        (.ok (first ++ ' ' :: chars.takeWhile isScalarChar, chars.dropWhile isScalarChar)) =
        (Except.ok (chars.takeWhile isScalarChar, chars.dropWhile isScalarChar) :
            Except Fault (List Char × List Char)) >>= fun found =>
          .ok (first ++ ' ' :: found.1, found.2) := fun _ => rfl
    exact (local_span isScalarChar).bind hwhole fun time => local_ok (first ++ ' ' :: time)
  have hlater : ∀ first, Local (Reads fun rest =>
      .ok (splitScalarAt first rest.head? (second? rest) rest)) := by
    intro first
    refine Local.ofHeads (fun head second rest => .ok (splitScalarAt first head second rest))
      (fun _ => rfl) fun head second => ?_
    unfold splitScalarAt
    by_cases hjoined :
        head = some ' ' ∧ afterDate? first = some [] ∧ second.any Text.isDecimal = true
    · simpa only [if_pos hjoined] using (htime first).after local_tail
    · simpa only [if_neg hjoined] using local_ok first
  have hwhole : ∀ chars, .ok (splitScalar chars) =
      (Except.ok (chars.takeWhile isScalarChar, chars.dropWhile isScalarChar) :
          Except Fault (List Char × List Char)) >>= fun found =>
        .ok (splitScalarAt found.1 found.2.head? (second? found.2) found.2) :=
    fun chars => congrArg Except.ok (splitScalar_eq chars)
  exact (local_span isScalarChar).bind hwhole hlater

/-- The value that a scalar is read as. -/
def scalarValue (scalar : List Char) : Except Fault Value :=
  match scalar? scalar with
  | some value => .ok value
  | none => .error (.invalidScalar (String.ofList scalar))

theorem readScalar_eq (chars : List Char) :
    readScalar chars =
      (Except.ok (splitScalar chars) : Except Fault (List Char × List Char)) >>= fun found =>
        scalarValue found.1 >>= fun value => .ok (value, found.2) := by
  simp only [readScalar, bind, Except.bind, scalarValue]
  cases scalar? (splitScalar chars).1 <;> rfl

theorem local_readScalar : Local (Reads readScalar) :=
  local_splitScalar.bind readScalar_eq fun scalar => local_return (scalarValue scalar)

/-! ## Names -/

/-- What is wrong when another character has to come next. -/
def unexpected (head : Option Char) : Fault :=
  match head with
  | some c => .unexpected c
  | none => .endOfText

/-- Reads an equals sign, given the character that comes next. -/
def afterEqualsAt (head : Option Char) (chars : List Char) : Except Fault (List Char) :=
  if head = some '=' then .ok chars.tail else .error (unexpected head)

theorem afterEquals_eq (chars : List Char) :
    afterEquals chars = afterEqualsAt chars.head? chars := by
  cases chars with
  | nil => rfl
  | cons c rest =>
      by_cases hequals : c = '='
      · subst hequals
        rfl
      · have hhead : ¬(c :: rest).head? = some '=' := by simpa using hequals
        unfold afterEqualsAt
        rw [if_neg hhead]
        unfold afterEquals
        split
        · rename_i heq
          exact absurd (List.cons.inj heq).1 hequals
        · rename_i heq
          rw [List.head?_cons, (List.cons.inj heq).1]
          rfl
        · rename_i heq
          exact absurd heq (List.cons_ne_nil _ _)

theorem local_afterEquals {after : List Char → List Char} (hafter : Local (Skips after))
    (value : α) :
    Local (Reads fun chars => afterEquals chars >>= fun rest => .ok (value, after rest)) := by
  refine Local.ofHead
    (fun head chars => afterEqualsAt head chars >>= fun rest => .ok (value, after rest))
    (fun chars => by rw [afterEquals_eq]) fun head => ?_
  unfold afterEqualsAt
  by_cases hequals : head = some '='
  · simp only [if_pos hequals]
    exact ((local_ok value).after hafter).after local_tail
  · simp only [if_neg hequals]
    exact local_error (unexpected head)

/-- Reads a key and the equals sign after it.  What is skipped before the equals sign and after it
depends on where the key stands. -/
def readName (before after : List Char → List Char) (chars : List Char) :
    Except Fault (List String × List Char) :=
  readKey maxKeyParts chars >>= fun found =>
    afterEquals (before found.2) >>= fun rest => .ok (found.1, after rest)

theorem local_readName {before after : List Char → List Char} (hbefore : Local (Skips before))
    (hafter : Local (Skips after)) : Local (Reads (readName before after)) :=
  (local_readKey maxKeyParts).bind (fun _ => rfl) fun key =>
    (local_afterEquals hafter key).after hbefore

/-! ## Items and members -/

/-- Reads what follows an item or a member: the closing bracket, or a comma and more. -/
def afterElement (close : Char) (done : α) (more : List Char → Except Fault (α × List Char))
    (chars : List Char) : Except Fault (α × List Char) :=
  match skipFiller false chars with
  | [] => .error .endOfText
  | c :: rest =>
      if c = close then .ok (done, rest)
      else if c = ',' then more (skipFiller false rest)
      else .error (.unexpected c)

theorem afterElement_eq_ok {close : Char} (hclose : close ≠ ',') {done result : α}
    {more : List Char → Except Fault (α × List Char)} {chars rest : List Char} :
    afterElement close done more chars = .ok (result, rest) ↔
      (skipFiller false chars = close :: rest ∧ result = done) ∨
        ∃ later, skipFiller false chars = ',' :: later ∧
          more (skipFiller false later) = .ok (result, rest) := by
  unfold afterElement
  cases skipFiller false chars with
  | nil => simp
  | cons c between =>
      dsimp only
      split_ifs with hc hcomma
      · subst hc
        simp [hclose, and_comm, eq_comm]
      · subst hcomma
        simp [hc]
      · simp [hc, hcomma]

/-- Only what comes after a comma is left to the reader of more. -/
theorem afterElement_of_more {close : Char} {done : α}
    {more others : List Char → Except Fault (α × List Char)} {chars : List Char}
    {found : α × List Char} (hread : afterElement close done more chars = .ok found)
    (hothers : ∀ later, skipFiller false chars = ',' :: later →
      more (skipFiller false later) = .ok found → others (skipFiller false later) = .ok found) :
    afterElement close done others chars = .ok found := by
  unfold afterElement at hread ⊢
  cases hskip : skipFiller false chars with
  | nil => simp [hskip] at hread
  | cons c later =>
      rw [hskip] at hread hothers
      dsimp only at hread ⊢
      split_ifs at hread ⊢ with hclose hcomma
      · exact hread
      · subst hcomma
        exact hothers later rfl hread

/-- The same reader after the filler, given the character that comes next. -/
def afterFillerAt (close : Char) (done : α) (more : List Char → Except Fault (α × List Char))
    (head : Option Char) (chars : List Char) : Except Fault (α × List Char) :=
  match head with
  | none => .error .endOfText
  | some c =>
      if c = close then .ok (done, chars.tail)
      else if c = ',' then more (skipFiller false chars.tail)
      else .error (.unexpected c)

theorem local_afterElement (close : Char) (done : α)
    {more : List Char → Except Fault (α × List Char)} (hmore : Local (Reads more)) :
    Local (Reads (afterElement close done more)) := by
  have hfiller : Local (Reads fun chars => afterFillerAt close done more chars.head? chars) := by
    refine Local.ofHead (afterFillerAt close done more) (fun _ => rfl) fun head => ?_
    unfold afterFillerAt
    cases head with
    | none => exact local_error .endOfText
    | some c =>
        by_cases hc : c = close
        · simpa only [if_pos hc] using (local_ok done).after local_tail
        by_cases hcomma : c = ','
        · simpa only [if_neg hc, if_pos hcomma] using
            (hmore.after (local_skipFiller false)).after local_tail
        · simpa only [if_neg hc, if_neg hcomma] using local_error (.unexpected c)
  have hwhole : afterElement close done more = fun chars =>
      afterFillerAt close done more (skipFiller false chars).head? (skipFiller false chars) := by
    funext chars
    unfold afterElement
    cases skipFiller false chars <;> rfl
  rw [hwhole]
  exact hfiller.after (local_skipFiller false)

/-- Reads more items after an item. -/
def readMoreItems (budget depth : Nat) (item : Value) (chars : List Char) :
    Except Fault (List Value × List Char) :=
  readItems budget depth chars >>= fun found => .ok (item :: found.1, found.2)

/-- Reads items, given the character that comes next. -/
def readItemsAt (budget depth : Nat) (head : Option Char) (chars : List Char) :
    Except Fault (List Value × List Char) :=
  if head = some ']' then .ok ([], chars.tail)
  else readValue budget depth chars >>= fun found =>
    afterElement ']' [found.1] (readMoreItems budget depth found.1) found.2

theorem readItems_succ (budget depth : Nat) (chars : List Char) :
    readItems (budget + 1) depth chars = readItemsAt budget depth chars.head? chars := by
  by_cases hclose : chars.head? = some ']'
  · obtain ⟨rest, rfl⟩ := List.head?_eq_some_iff.mp hclose
    rfl
  · rw [readItemsAt, if_neg hclose, readItems]
    · rfl
    · rintro rest rfl
      exact hclose rfl

/-- Reads members, given the character that comes next. -/
def readMembersAt (budget depth : Nat) (entries : Entries) (head : Option Char)
    (chars : List Char) : Except Fault (Entries × List Char) :=
  if head = some '\x7d' then .ok (entries, chars.tail)
  else readName (skipFiller false) (skipFiller false) chars >>= fun named =>
    readValue budget depth named.2 >>= fun found =>
      assign named.1 found.1 .braces entries >>= fun grown =>
        afterElement '\x7d' grown (readMembers budget depth grown) found.2

theorem readMembers_succ (budget depth : Nat) (entries : Entries) (chars : List Char) :
    readMembers (budget + 1) depth entries chars =
      readMembersAt budget depth entries chars.head? chars := by
  by_cases hclose : chars.head? = some '\x7d'
  · obtain ⟨rest, rfl⟩ := List.head?_eq_some_iff.mp hclose
    rfl
  · rw [readMembersAt, if_neg hclose, readName, readMembers]
    · cases readKey maxKeyParts chars with
      | error fault => rfl
      | ok named =>
          dsimp only [bind, Except.bind]
          cases afterEquals (skipFiller false named.2) with
          | error fault => rfl
          | ok rest => rfl
    · rintro rest rfl
      exact hclose rfl

/-! ## Values -/

/-- Reads an array after its opening bracket. -/
def readArray (budget : Nat) : (depth : Nat) → List Char → Except Fault (Value × List Char)
  | 0, _ => .error .nestingTooDeep
  | depth + 1, chars =>
      readItems budget depth (skipFiller false chars) >>= fun found =>
        .ok (.array false found.1, found.2)

/-- Reads a table after its opening brace. -/
def readTable (budget : Nat) : (depth : Nat) → List Char → Except Fault (Value × List Char)
  | 0, _ => .error .nestingTooDeep
  | depth + 1, chars =>
      readMembers budget depth [] (skipFiller false chars) >>= fun found =>
        .ok (.table .braces found.1, found.2)

/-- Reads a value, given the character that comes next. -/
def readValueAt (budget depth : Nat) (head : Option Char) (chars : List Char) :
    Except Fault (Value × List Char) :=
  match head with
  | none => .error .endOfText
  | some c =>
      if c = '"' ∨ c = '\'' then
        readString c chars.tail >>= fun found => .ok (.string (String.ofList found.1), found.2)
      else if c = '[' then readArray budget depth chars.tail
      else if c = '\x7b' then readTable budget depth chars.tail
      else readScalar chars

theorem readValue_succ (budget depth : Nat) (chars : List Char) :
    readValue (budget + 1) depth chars = readValueAt budget depth chars.head? chars := by
  cases chars with
  | nil => rfl
  | cons c rest =>
      simp only [readValue, readValueAt, List.head?_cons, List.tail_cons, Bool.or_eq_true,
        decide_eq_true_eq]
      split_ifs
      · rfl
      · cases depth <;> rfl
      · cases depth <;> rfl
      · rfl

/-- With the given budget values, items and members are read locally. -/
structure NestedLocal (budget : Nat) : Prop where
  value : ∀ depth, Local (Reads (readValue budget depth))
  items : ∀ depth, Local (Reads (readItems budget depth))
  members : ∀ depth entries, Local (Reads (readMembers budget depth entries))

theorem NestedLocal.value_succ {budget : Nat} (hlocal : NestedLocal budget) (depth : Nat) :
    Local (Reads (readValue (budget + 1) depth)) := by
  -- the three forms of a value that are more than a scalar, without their first character
  have hstring : ∀ c, c = '"' ∨ c = '\'' → Local (Reads fun chars =>
      readString c chars >>= fun found => .ok (Value.string (String.ofList found.1), found.2)) := by
    intro c hquote
    have hplain : isPlain c = true := by
      rcases hquote with rfl | rfl <;> rfl
    exact (local_readString hplain).bind (fun _ => rfl) fun text =>
      local_ok (Value.string (String.ofList text))
  have harray : Local (Reads (readArray budget depth)) := by
    cases depth with
    | zero => exact local_error .nestingTooDeep
    | succ depth =>
        have hitems := (hlocal.items depth).after (local_skipFiller false)
        exact hitems.bind (fun _ => rfl) fun items => local_ok (Value.array false items)
  have htable : Local (Reads (readTable budget depth)) := by
    cases depth with
    | zero => exact local_error .nestingTooDeep
    | succ depth =>
        have hmembers := (hlocal.members depth []).after (local_skipFiller false)
        exact hmembers.bind (fun _ => rfl) fun entries => local_ok (Value.table .braces entries)
  refine Local.ofHead (readValueAt budget depth) (readValue_succ budget depth) fun head => ?_
  unfold readValueAt
  cases head with
  | none => exact local_error .endOfText
  | some c =>
      by_cases hquote : c = '"' ∨ c = '\''
      · simpa only [if_pos hquote] using (hstring c hquote).after local_tail
      by_cases hbracket : c = '['
      · simpa only [if_neg hquote, if_pos hbracket] using harray.after local_tail
      by_cases hbrace : c = '\x7b'
      · simpa only [if_neg hquote, if_neg hbracket, if_pos hbrace] using htable.after local_tail
      · simpa only [if_neg hquote, if_neg hbracket, if_neg hbrace] using local_readScalar

theorem NestedLocal.items_succ {budget : Nat} (hlocal : NestedLocal budget) (depth : Nat) :
    Local (Reads (readItems (budget + 1) depth)) := by
  refine Local.ofHead (readItemsAt budget depth) (readItems_succ budget depth) fun head => ?_
  unfold readItemsAt
  by_cases hclose : head = some ']'
  · simpa only [if_pos hclose] using (local_ok []).after local_tail
  · simp only [if_neg hclose]
    refine (hlocal.value depth).bind (fun _ => rfl) fun item => ?_
    have hmore : Local (Reads (readMoreItems budget depth item)) :=
      (hlocal.items depth).bind (fun _ => rfl) fun items => local_ok (item :: items)
    exact local_afterElement ']' [item] hmore

theorem NestedLocal.members_succ {budget : Nat} (hlocal : NestedLocal budget) (depth : Nat)
    (entries : Entries) : Local (Reads (readMembers (budget + 1) depth entries)) := by
  refine Local.ofHead (readMembersAt budget depth entries)
    (readMembers_succ budget depth entries) fun head => ?_
  unfold readMembersAt
  by_cases hclose : head = some '\x7d'
  · simpa only [if_pos hclose] using (local_ok entries).after local_tail
  · simp only [if_neg hclose]
    have hfiller := local_skipFiller false
    refine (local_readName hfiller hfiller).bind (fun _ => rfl) fun key => ?_
    dsimp only
    refine (hlocal.value depth).bind (fun _ => rfl) fun value => ?_
    exact Local.given (assign key value .braces entries) fun grown =>
      local_afterElement '\x7d' grown (hlocal.members depth grown)

theorem local_readNested (budget : Nat) : NestedLocal budget := by
  induction budget with
  | zero =>
      exact ⟨fun _ => local_error .nestingTooDeep, fun _ => local_error .nestingTooDeep,
        fun _ _ => local_error .nestingTooDeep⟩
  | succ budget ih => exact ⟨ih.value_succ, ih.items_succ, ih.members_succ⟩

/-! ## Budgets -/

theorem length_skipFiller_le (chars : List Char) :
    (skipFiller false chars).length ≤ chars.length :=
  (suffix_skipFiller false chars).length_le

theorem length_lt_of_skipFiller_eq {c : Char} {chars rest : List Char}
    (hskip : skipFiller false chars = c :: rest) : rest.length < chars.length := by
  have hle := length_skipFiller_le chars
  rw [hskip] at hle
  exact hle

/-- What is read with the given budget is read with every budget that the characters bound. -/
structure BudgetSuffices (budget : Nat) : Prop where
  value : ∀ {depth chars found larger}, readValue budget depth chars = .ok found →
    2 * chars.length + 1 ≤ larger → readValue larger depth chars = .ok found
  items : ∀ {depth chars found larger}, readItems budget depth chars = .ok found →
    2 * chars.length + 2 ≤ larger → readItems larger depth chars = .ok found
  members : ∀ {depth entries chars found larger},
    readMembers budget depth entries chars = .ok found → 2 * chars.length + 2 ≤ larger →
      readMembers larger depth entries chars = .ok found

section budgets

variable {budget larger depth : Nat} {entries : Entries} {chars : List Char}

theorem BudgetSuffices.value_succ (hbudget : BudgetSuffices budget) {found : Value × List Char}
    (hread : readValue (budget + 1) depth chars = .ok found)
    (hlarger : 2 * chars.length + 1 ≤ larger) : readValue larger depth chars = .ok found := by
  obtain ⟨larger, rfl⟩ := Nat.exists_eq_add_of_le' (Nat.one_le_of_lt hlarger)
  rw [readValue_succ] at hread ⊢
  cases chars with
  | nil => exact hread
  | cons c rest =>
      have hlength := length_skipFiller_le rest
      rw [List.length_cons] at hlarger
      simp only [readValueAt, List.head?_cons, List.tail_cons] at hread ⊢
      split_ifs at hread ⊢
      · exact hread
      · cases depth with
        | zero => exact hread
        | succ depth =>
            obtain ⟨items, hitems, hfound⟩ := bind_eq_ok.mp hread
            exact bind_eq_ok.mpr ⟨items, hbudget.items hitems (by omega), hfound⟩
      · cases depth with
        | zero => exact hread
        | succ depth =>
            obtain ⟨entries, hentries, hfound⟩ := bind_eq_ok.mp hread
            exact bind_eq_ok.mpr ⟨entries, hbudget.members hentries (by omega), hfound⟩
      · exact hread

theorem BudgetSuffices.items_succ (hbudget : BudgetSuffices budget)
    {found : List Value × List Char} (hread : readItems (budget + 1) depth chars = .ok found)
    (hlarger : 2 * chars.length + 2 ≤ larger) : readItems larger depth chars = .ok found := by
  obtain ⟨larger, rfl⟩ := Nat.exists_eq_add_of_le' (Nat.one_le_of_lt hlarger)
  rw [readItems_succ, readItemsAt] at hread ⊢
  split_ifs at hread ⊢
  · exact hread
  obtain ⟨⟨item, between⟩, hitem, hread⟩ := bind_eq_ok.mp hread
  have hbetween := (((local_readNested budget).value depth).suffix hitem).length_le
  -- the item is read from the same characters, which is why items need one more than values
  refine bind_eq_ok.mpr ⟨_, hbudget.value hitem (by omega), ?_⟩
  refine afterElement_of_more hread fun later hcomma hmore => ?_
  have hlater := length_skipFiller_le later
  have hlength : later.length < between.length := length_lt_of_skipFiller_eq hcomma
  obtain ⟨items, hitems, hfound⟩ := bind_eq_ok.mp hmore
  exact bind_eq_ok.mpr ⟨items, hbudget.items hitems (by omega), hfound⟩

theorem BudgetSuffices.members_succ (hbudget : BudgetSuffices budget) {found : Entries × List Char}
    (hread : readMembers (budget + 1) depth entries chars = .ok found)
    (hlarger : 2 * chars.length + 2 ≤ larger) :
    readMembers larger depth entries chars = .ok found := by
  obtain ⟨larger, rfl⟩ := Nat.exists_eq_add_of_le' (Nat.one_le_of_lt hlarger)
  rw [readMembers_succ, readMembersAt] at hread ⊢
  split_ifs at hread ⊢
  · exact hread
  have hfiller := local_skipFiller false
  obtain ⟨⟨key, named⟩, hname, hread⟩ := bind_eq_ok.mp hread
  obtain ⟨⟨item, between⟩, hitem, hread⟩ := bind_eq_ok.mp hread
  obtain ⟨grown, hgrown, hread⟩ := bind_eq_ok.mp hread
  have hnamed := ((local_readName hfiller hfiller).suffix hname).length_le
  have hbetween := (((local_readNested budget).value depth).suffix hitem).length_le
  dsimp only at hbetween
  have hvalue : readValue larger depth named = .ok (item, between) :=
    hbudget.value hitem (by omega)
  refine bind_eq_ok.mpr ⟨_, hname, bind_eq_ok.mpr ⟨_, hvalue, ?_⟩⟩
  refine bind_eq_ok.mpr ⟨grown, hgrown, ?_⟩
  refine afterElement_of_more hread fun later hcomma hmore => ?_
  have hlater := length_skipFiller_le later
  have hlength : later.length < between.length := length_lt_of_skipFiller_eq hcomma
  exact hbudget.members hmore (by omega)

end budgets

theorem readNested_of_le (budget : Nat) : BudgetSuffices budget := by
  induction budget with
  | zero => constructor <;> simp [readValue, readItems, readMembers]
  | succ budget ih => exact ⟨ih.value_succ, ih.items_succ, ih.members_succ⟩

end Rollout.Toml
