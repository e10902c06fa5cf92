import Mathlib.Tactic.SplitIfs
import Rollout.Proofs.Toml.Exchange
import Rollout.Proofs.Toml.Statements

/-!
# A quoted value at a place of a document

What a document says when the value at one place of it is a string in double quotes, as a function
of that string.

## Strategy

A document reaches a place when a value is read there (`Reaches`).  Up to the place the characters
are the same whatever the string is, and since nothing that is read before a quote depends on what
follows it, the reader gets to the place with every string.  There it reads the string as it is,
provided that it is plain, and goes on with the characters after it, which are the same again.  So
by induction on the way to the place the outcomes are alike except for the string (`Carried`).
-/

namespace Rollout.Toml

variable {α : Type}

/-! ## Reading with any budget -/

/-- A value is read, with a budget that is large enough. -/
def ReadsValue (depth : Nat) (chars : List Char) (value : Value) (rest : List Char) : Prop :=
  ∃ budget, readValue budget depth chars = .ok (value, rest)

/-- Items are read up to the closing bracket, with a budget that is large enough. -/
def ReadsItems (depth : Nat) (chars : List Char) (items : List Value) (rest : List Char) : Prop :=
  ∃ budget, readItems budget depth chars = .ok (items, rest)

/-- Members are read up to the closing brace and added to the entries. -/
def ReadsMembers (depth : Nat) (entries : Entries) (chars : List Char) (grown : Entries)
    (rest : List Char) : Prop :=
  ∃ budget, readMembers budget depth entries chars = .ok (grown, rest)

/-- One statement is read, and what follows it is left. -/
def ReadsStatement (chars : List Char) (statement : Statement) (rest : List Char) : Prop :=
  ∃ budget, readStatement budget chars = .ok (statement, rest)

/-- All statements of a document are read. -/
def ReadsStatements (chars : List Char) (statements : List Statement) : Prop :=
  ∃ budget limit, readStatements budget limit chars = .ok statements

/-- Reads the key of a member and the equals sign after it. -/
def readMemberName : List Char → Except Fault (List String × List Char) :=
  readName (skipFiller false) (skipFiller false)

/-- Reads the key of a statement and the equals sign after it. -/
def readStatementName : List Char → Except Fault (List String × List Char) :=
  readName id skipBlank

section reading

variable {depth : Nat} {chars between later rest : List Char} {value other item : Value}

theorem ReadsValue.of_le (hread : ReadsValue depth chars value rest) {budget : Nat}
    (hbudget : 2 * chars.length + 1 ≤ budget) :
    readValue budget depth chars = .ok (value, rest) := by
  obtain ⟨smaller, hread⟩ := hread
  exact (readNested_of_le smaller).value hread hbudget

theorem ReadsValue.unique {last : List Char} (hread : ReadsValue depth chars value rest)
    (hother : ReadsValue depth chars other last) : other = value ∧ last = rest := by
  have hsame := (hother.of_le (Nat.le_refl _)).symm.trans (hread.of_le (Nat.le_refl _))
  simpa using hsame

theorem local_readsValue (depth : Nat) : Local (ReadsValue depth) := by
  refine ⟨?_, ?_⟩
  · rintro chars value rest ⟨budget, hread⟩
    exact ((local_readNested budget).value depth).suffix hread
  · rintro front tail value rest ⟨budget, hread⟩ other
    exact ⟨budget, ((local_readNested budget).value depth).exchange hread other⟩

theorem readsValue_bracket : ReadsValue (depth + 1) ('[' :: chars) value rest ↔
    ∃ items, ReadsItems depth (skipFiller false chars) items rest ∧ value = .array false items := by
  constructor
  · rintro ⟨_ | budget, hread⟩
    · simp [readValue] at hread
    obtain ⟨⟨items, last⟩, hitems, hfound⟩ := bind_eq_ok.mp hread
    cases hfound
    exact ⟨items, ⟨budget, hitems⟩, rfl⟩
  · rintro ⟨items, ⟨budget, hitems⟩, rfl⟩
    exact ⟨budget + 1, bind_eq_ok.mpr ⟨(items, rest), hitems, rfl⟩⟩

theorem readsValue_brace : ReadsValue (depth + 1) ('\x7b' :: chars) value rest ↔
    ∃ entries, ReadsMembers depth [] (skipFiller false chars) entries rest ∧
      value = .table .braces entries := by
  constructor
  · rintro ⟨_ | budget, hread⟩
    · simp [readValue] at hread
    obtain ⟨⟨entries, last⟩, hmembers, hfound⟩ := bind_eq_ok.mp hread
    cases hfound
    exact ⟨entries, ⟨budget, hmembers⟩, rfl⟩
  · rintro ⟨entries, ⟨budget, hmembers⟩, rfl⟩
    exact ⟨budget + 1, bind_eq_ok.mpr ⟨(entries, rest), hmembers, rfl⟩⟩

theorem readsItems_iff {items : List Value} (hopen : chars.head? ≠ some ']') :
    ReadsItems depth chars items rest ↔
      ∃ item between, ReadsValue depth chars item between ∧
        ((skipFiller false between = ']' :: rest ∧ items = [item]) ∨
          ∃ later others, skipFiller false between = ',' :: later ∧
            ReadsItems depth (skipFiller false later) others rest ∧ items = item :: others) := by
  constructor
  · rintro ⟨_ | budget, hitems⟩
    · simp [readItems] at hitems
    rw [readItems_succ, readItemsAt, if_neg hopen] at hitems
    obtain ⟨⟨item, between⟩, hitem, hafter⟩ := bind_eq_ok.mp hitems
    refine ⟨item, between, ⟨budget, hitem⟩, ?_⟩
    rcases (afterElement_eq_ok (by decide)).mp hafter with hclose | ⟨later, hcomma, hmore⟩
    · exact .inl hclose
    · obtain ⟨⟨others, last⟩, hothers, hfound⟩ := bind_eq_ok.mp hmore
      cases hfound
      exact .inr ⟨later, others, hcomma, ⟨budget, hothers⟩, rfl⟩
  · rintro ⟨item, between, hitem, ⟨hclose, rfl⟩ | ⟨later, others, hcomma, ⟨smaller, hmore⟩, rfl⟩⟩
    · refine ⟨2 * chars.length + 1 + 1, ?_⟩
      rw [readItems_succ, readItemsAt, if_neg hopen]
      refine bind_eq_ok.mpr ⟨(item, between), hitem.of_le (Nat.le_refl _), ?_⟩
      exact (afterElement_eq_ok (by decide)).mpr (.inl ⟨hclose, rfl⟩)
    · -- one budget for the item and for the items after it
      let budget := 2 * chars.length + 2 * (skipFiller false later).length + 2
      have hothers : readItems budget depth (skipFiller false later) = .ok (others, rest) :=
        (readNested_of_le smaller).items hmore (by omega)
      refine ⟨budget + 1, ?_⟩
      rw [readItems_succ, readItemsAt, if_neg hopen]
      refine bind_eq_ok.mpr ⟨(item, between), hitem.of_le (by omega), ?_⟩
      refine (afterElement_eq_ok (by decide)).mpr (.inr ⟨later, hcomma, ?_⟩)
      exact bind_eq_ok.mpr ⟨(others, rest), hothers, rfl⟩

theorem readsMembers_iff {entries grown : Entries} (hopen : chars.head? ≠ some '\x7d') :
    ReadsMembers depth entries chars grown rest ↔
      ∃ key named value between wider, readMemberName chars = .ok (key, named) ∧
        ReadsValue depth named value between ∧ assign key value .braces entries = .ok wider ∧
          ((skipFiller false between = '\x7d' :: rest ∧ grown = wider) ∨
            ∃ later, skipFiller false between = ',' :: later ∧
              ReadsMembers depth wider (skipFiller false later) grown rest) := by
  constructor
  · rintro ⟨_ | budget, hmembers⟩
    · simp [readMembers] at hmembers
    rw [readMembers_succ, readMembersAt, if_neg hopen] at hmembers
    obtain ⟨⟨key, named⟩, hname, hmembers⟩ := bind_eq_ok.mp hmembers
    obtain ⟨⟨value, between⟩, hvalue, hmembers⟩ := bind_eq_ok.mp hmembers
    obtain ⟨wider, hwider, hafter⟩ := bind_eq_ok.mp hmembers
    refine ⟨key, named, value, between, wider, hname, ⟨budget, hvalue⟩, hwider, ?_⟩
    rcases (afterElement_eq_ok (by decide)).mp hafter with hclose | ⟨later, hcomma, hmore⟩
    · exact .inl hclose
    · exact .inr ⟨later, hcomma, budget, hmore⟩
  · rintro ⟨key, named, value, between, wider, hname, hvalue, hwider, hafter⟩
    have hbuild : ∀ budget, 2 * named.length + 1 ≤ budget →
        afterElement '\x7d' wider (readMembers budget depth wider) between = .ok (grown, rest) →
        readMembers (budget + 1) depth entries chars = .ok (grown, rest) := by
      intro budget hbudget hread
      rw [readMembers_succ, readMembersAt, if_neg hopen]
      refine bind_eq_ok.mpr ⟨(key, named), hname, ?_⟩
      refine bind_eq_ok.mpr ⟨(value, between), hvalue.of_le hbudget, ?_⟩
      exact bind_eq_ok.mpr ⟨wider, hwider, hread⟩
    rcases hafter with ⟨hclose, rfl⟩ | ⟨later, hcomma, smaller, hmore⟩
    · refine ⟨_, hbuild _ (Nat.le_refl _) ?_⟩
      exact (afterElement_eq_ok (by decide)).mpr (.inl ⟨hclose, rfl⟩)
    · let budget := 2 * named.length + 2 * (skipFiller false later).length + 2
      have hothers :
          readMembers budget depth wider (skipFiller false later) = .ok (grown, rest) :=
        (readNested_of_le smaller).members hmore (by omega)
      refine ⟨_, hbuild budget (by omega) ?_⟩
      exact (afterElement_eq_ok (by decide)).mpr (.inr ⟨later, hcomma, hothers⟩)

theorem readsStatement_iff {statement : Statement} (hplain : chars.head? ≠ some '[') :
    ReadsStatement chars statement rest ↔
      ∃ key named value, readStatementName chars = .ok (key, named) ∧
        ReadsValue maxDepth named value rest ∧ statement = .assignment key value := by
  constructor
  · rintro ⟨budget, hread⟩
    rw [readStatement_eq, readStatementAt, if_neg hplain] at hread
    obtain ⟨⟨key, named⟩, hname, hread⟩ := bind_eq_ok.mp hread
    obtain ⟨⟨value, last⟩, hvalue, hfound⟩ := bind_eq_ok.mp hread
    cases hfound
    exact ⟨key, named, value, hname, ⟨budget, hvalue⟩, rfl⟩
  · rintro ⟨key, named, value, hname, ⟨budget, hvalue⟩, rfl⟩
    refine ⟨budget, ?_⟩
    rw [readStatement_eq, readStatementAt, if_neg hplain]
    exact bind_eq_ok.mpr ⟨(key, named), hname, bind_eq_ok.mpr ⟨(value, rest), hvalue, rfl⟩⟩

theorem readsStatements_iff {statements : List Statement} (hsome : skipFiller false chars ≠ []) :
    ReadsStatements chars statements ↔
      ∃ statement between rest others, ReadsStatement (skipFiller false chars) statement between ∧
        endOfLine between = .ok rest ∧ ReadsStatements rest others ∧
          statements = statement :: others := by
  constructor
  · rintro ⟨budget, _ | limit, hread⟩
    · simp [readStatements] at hread
    rw [readStatements_succ, if_neg hsome] at hread
    obtain ⟨⟨statement, between⟩, hstatement, hread⟩ := bind_eq_ok.mp hread
    obtain ⟨rest, hend, hread⟩ := bind_eq_ok.mp hread
    obtain ⟨others, hothers, hfound⟩ := bind_eq_ok.mp hread
    cases hfound
    exact ⟨statement, between, rest, others, ⟨budget, hstatement⟩, hend, ⟨budget, limit, hothers⟩,
      rfl⟩
  · rintro ⟨statement, between, rest, others, ⟨first, hstatement⟩, hend, ⟨second, limit, hothers⟩,
      rfl⟩
    let budget := 2 * (skipFiller false chars).length + 2 * rest.length + 1
    refine ⟨budget, rest.length + 1 + 1, ?_⟩
    rw [readStatements_succ, if_neg hsome]
    refine bind_eq_ok.mpr ⟨(statement, between), readStatement_of_le hstatement (by omega), ?_⟩
    refine bind_eq_ok.mpr ⟨rest, hend, bind_eq_ok.mpr ⟨others, ?_, rfl⟩⟩
    exact readStatements_of_le hothers (by omega) (Nat.le_refl _)

theorem ReadsStatement.unique {statement twin : Statement} {last : List Char}
    (hread : ReadsStatement chars statement rest) (hother : ReadsStatement chars twin last) :
    twin = statement ∧ last = rest := by
  obtain ⟨first, hread⟩ := hread
  obtain ⟨second, hother⟩ := hother
  have hsame := (readStatement_of_le hother (Nat.le_refl _)).symm.trans
    (readStatement_of_le hread (Nat.le_refl _))
  simpa using hsame

theorem local_readsStatement : Local ReadsStatement := by
  refine ⟨?_, ?_⟩
  · rintro chars statement rest ⟨budget, hread⟩
    exact (local_readStatement budget).suffix hread
  · rintro front tail statement rest ⟨budget, hread⟩ other
    exact ⟨budget, (local_readStatement budget).exchange hread other⟩

end reading

/-! ## Places -/

/-- What is being read. -/
inductive Part
  | value (depth : Nat)
  | items (depth : Nat)
  | members (depth : Nat)
  | statements

/-- A part that is read from the given characters on has a value at the place, which is given by the
characters from there on. -/
inductive Reaches (place : List Char) : Part → List Char → Prop
  | here (depth : Nat) : Reaches place (.value depth) place
  | array {depth : Nat} {chars : List Char}
      (hitems : Reaches place (.items depth) (skipFiller false chars)) :
      Reaches place (.value (depth + 1)) ('[' :: chars)
  | table {depth : Nat} {chars : List Char}
      (hmembers : Reaches place (.members depth) (skipFiller false chars)) :
      Reaches place (.value (depth + 1)) ('\x7b' :: chars)
  | item {depth : Nat} {chars : List Char} (hopen : chars.head? ≠ some ']')
      (hvalue : Reaches place (.value depth) chars) : Reaches place (.items depth) chars
  | laterItem {depth : Nat} {chars between later : List Char} {item : Value}
      (hopen : chars.head? ≠ some ']') (hitem : ReadsValue depth chars item between)
      (hcomma : skipFiller false between = ',' :: later)
      (hitems : Reaches place (.items depth) (skipFiller false later)) :
      Reaches place (.items depth) chars
  | member {depth : Nat} {chars named : List Char} {key : List String}
      (hopen : chars.head? ≠ some '\x7d') (hname : readMemberName chars = .ok (key, named))
      (hvalue : Reaches place (.value depth) named) : Reaches place (.members depth) chars
  | laterMember {depth : Nat} {chars named between later : List Char} {key : List String}
      {value : Value} (hopen : chars.head? ≠ some '\x7d')
      (hname : readMemberName chars = .ok (key, named))
      (hvalue : ReadsValue depth named value between)
      (hcomma : skipFiller false between = ',' :: later)
      (hmembers : Reaches place (.members depth) (skipFiller false later)) :
      Reaches place (.members depth) chars
  | statement {chars named : List Char} {key : List String}
      (hplain : (skipFiller false chars).head? ≠ some '[')
      (hname : readStatementName (skipFiller false chars) = .ok (key, named))
      (hvalue : Reaches place (.value maxDepth) named) : Reaches place .statements chars
  | laterStatement {chars between rest : List Char} {statement : Statement}
      (hstatement : ReadsStatement (skipFiller false chars) statement between)
      (hend : endOfLine between = .ok rest) (hlater : Reaches place .statements rest) :
      Reaches place .statements chars

/-- A string in double quotes, with what follows it. -/
def quoted (text after : List Char) : List Char := '"' :: (text ++ '"' :: after)

/-- A character that stands for itself in a string in double quotes. -/
def StandsForItself (c : Char) : Prop := isPlain c = true ∧ c ≠ '"' ∧ c ≠ '\\'

instance (c : Char) : Decidable (StandsForItself c) := inferInstanceAs (Decidable (_ ∧ _))

theorem standsForItself_of_all {text : List Char}
    (hall : (text.all fun c => StandsForItself c) = true) : ∀ c ∈ text, StandsForItself c := by
  simpa using hall

theorem lineBody_of_plain {text : List Char} (hplain : ∀ c ∈ text, StandsForItself c)
    (after : List Char) : lineBody '"' true false (text ++ '"' :: after) = .ok (text, after) := by
  induction text with
  | nil => rfl
  | cons c text ih =>
      obtain ⟨⟨hc, hquote, hslash⟩, htext⟩ := List.forall_mem_cons.mp hplain
      rw [List.cons_append, lineBody]
      simp [hc, hquote, hslash, ih htext, push]

theorem decodeEscapes_of_plain {text : List Char} (hplain : ∀ c ∈ text, StandsForItself c) :
    decodeEscapes false false text = .ok text := by
  induction text with
  | nil => rfl
  | cons c text ih =>
      obtain ⟨⟨-, -, hslash⟩, htext⟩ := List.forall_mem_cons.mp hplain
      rw [decodeEscapes.eq_def]
      simp [hslash, ih htext, pushDecoded]

theorem readsValue_quoted {text after : List Char} (hplain : ∀ c ∈ text, StandsForItself c)
    (hafter : after.head? ≠ some '"') (depth : Nat) :
    ReadsValue depth (quoted text after) (.string (String.ofList text)) after := by
  have hline : readLineString '"' (text ++ '"' :: after) = .ok (text, after) := by
    simp [readLineString, lineBody_of_plain hplain, decodeEscapes_of_plain hplain, bind,
      Except.bind, pure, Except.pure]
  have hread : readString '"' (text ++ '"' :: after) = .ok (text, after) := by
    rw [readString_eq rfl, readStringAt]
    cases text with
    | nil => simp [hafter]
    | cons c text =>
        have hquote : c ≠ '"' := (hplain c (List.mem_cons_self ..)).2.1
        rwa [if_neg (by simpa using hquote)]
  exact ⟨1, bind_eq_ok.mpr ⟨(text, after), hread, rfl⟩⟩

/-! ## What is carried over to another text -/

/-- Members that follow the same characters grow the entries before them alike. -/
theorem follows_readMembers {old new : String} (budget depth : Nat) (chars : List Char)
    {entries others : Entries} (hentries : ExchangedEntries old new entries others) :
    Follows (fun grown changed => ExchangedEntries old new grown.1 changed.1 ∧ changed.2 = grown.2)
      (readMembers budget depth entries chars) (readMembers budget depth others chars) := by
  induction budget generalizing chars entries others with
  | zero => exact follows_error _ _
  | succ budget ih =>
      rw [readMembers_succ, readMembers_succ, readMembersAt, readMembersAt]
      split_ifs
      · exact follows_ok ⟨hentries, rfl⟩
      -- both read the same key and the same value, and only the entries differ
      refine (follows_self (fun _ => rfl) _).bind ?_
      rintro named _ rfl
      refine (follows_self (fun _ => rfl) _).bind ?_
      rintro found _ rfl
      refine (follows_assign named.1 (.same found.1) .braces hentries).bind
        fun wider twin hwider => ?_
      rintro ⟨grown, rest⟩ hread
      rcases (afterElement_eq_ok (by decide)).mp hread with ⟨hclose, rfl⟩ | ⟨later, hcomma, hmore⟩
      · exact ⟨(twin, rest), (afterElement_eq_ok (by decide)).mpr (.inl ⟨hclose, rfl⟩), hwider, rfl⟩
      · obtain ⟨⟨changed, last⟩, hothers, hsame⟩ := ih _ hwider _ hmore
        exact ⟨(changed, last),
          (afterElement_eq_ok (by decide)).mpr (.inr ⟨later, hcomma, hothers⟩), hsame⟩

theorem follows_readsMembers {old new : String} {depth : Nat} {chars rest : List Char}
    {entries others grown : Entries} (hentries : ExchangedEntries old new entries others)
    (hread : ReadsMembers depth entries chars grown rest) :
    ∃ changed, ReadsMembers depth others chars changed rest ∧
      ExchangedEntries old new grown changed := by
  obtain ⟨budget, hread⟩ := hread
  obtain ⟨⟨changed, last⟩, hothers, hchanged, rfl⟩ :=
    follows_readMembers budget depth chars hentries _ hread
  exact ⟨changed, ⟨budget, hothers⟩, hchanged⟩

/-- Whatever is read from `front` on with the text `old` at the place after it is read with the text
`new` as well, up to the exchange of the texts. -/
def Carried (old new after : List Char) : Part → List Char → Prop
  | .value depth, front => ∀ value rest, ReadsValue depth (front ++ quoted old after) value rest →
      ∃ other, ReadsValue depth (front ++ quoted new after) other rest ∧
        Exchanged (.ofList old) (.ofList new) value other
  | .items depth, front => ∀ items rest, ReadsItems depth (front ++ quoted old after) items rest →
      ∃ others, ReadsItems depth (front ++ quoted new after) others rest ∧
        ExchangedItems (.ofList old) (.ofList new) items others
  | .members depth, front => ∀ entries twins grown rest,
      ExchangedEntries (.ofList old) (.ofList new) entries twins →
      ReadsMembers depth entries (front ++ quoted old after) grown rest →
      ∃ others, ReadsMembers depth twins (front ++ quoted new after) others rest ∧
        ExchangedEntries (.ofList old) (.ofList new) grown others
  | .statements, front => ∀ statements, ReadsStatements (front ++ quoted old after) statements →
      ∃ others, ReadsStatements (front ++ quoted new after) others ∧
        List.Forall₂ (ExchangedStatement (.ofList old) (.ofList new)) statements others

/-- Where a step leads to the place with one text, it leads there with every text. -/
theorem Local.retext {step : List Char → α → List Char → Prop} (hstep : Local step)
    {old after chars front : List Char} {result : α}
    (hold : step chars result (front ++ quoted old after)) :
    ∃ before, chars = before ++ quoted old after ∧
      ∀ text, step (before ++ quoted text after) result (front ++ quoted text after) := by
  obtain ⟨before, rfl⟩ := exists_front_of_suffix (hstep.suffix hold)
  exact ⟨before, rfl, fun text => hstep.exchange hold _⟩

theorem skipFiller_retext {old after chars front : List Char}
    (hold : skipFiller false chars = front ++ quoted old after) :
    ∃ before, chars = before ++ quoted old after ∧
      ∀ text, skipFiller false (before ++ quoted text after) = front ++ quoted text after :=
  (local_skipFiller false).retext (show Skips (skipFiller false) chars () _ from hold)

theorem comma_retext {old after chars front : List Char}
    (hold : skipFiller false chars = ',' :: (front ++ quoted old after)) :
    ∃ before, chars = before ++ quoted old after ∧
      ∀ text, skipFiller false (before ++ quoted text after) =
        ',' :: (front ++ quoted text after) := by
  rw [← List.cons_append] at hold
  exact skipFiller_retext hold

theorem head?_ne_retext {front old after : List Char} {c : Char}
    (hold : (front ++ quoted old after).head? ≠ some c) (text : List Char) :
    (front ++ quoted text after).head? ≠ some c := by
  have hsame : (front ++ quoted old after).head? = (front ++ quoted text after).head? :=
    head?_exchange front _ _
  rwa [← hsame]

theorem local_readMemberName : Local (Reads readMemberName) :=
  local_readName (local_skipFiller false) (local_skipFiller false)

theorem local_readStatementName : Local (Reads readStatementName) :=
  local_readName local_id local_skipBlank

/-- The way to the place does not depend on the text there. -/
theorem Reaches.retext {old after chars : List Char} {part : Part}
    (hreaches : Reaches (quoted old after) part chars) :
    ∃ front, chars = front ++ quoted old after ∧
      ∀ text, Reaches (quoted text after) part (front ++ quoted text after) := by
  -- in each case from the place backwards over what is skipped or read on the way to it
  induction hreaches with
  | here depth => exact ⟨[], rfl, fun text => .here depth⟩
  | array hitems ih =>
      obtain ⟨inner, hinner, hreach⟩ := ih
      obtain ⟨front, rfl, hskip⟩ := skipFiller_retext hinner
      exact ⟨'[' :: front, rfl, fun text => .array ((hskip text).symm ▸ hreach text)⟩
  | table hmembers ih =>
      obtain ⟨inner, hinner, hreach⟩ := ih
      obtain ⟨front, rfl, hskip⟩ := skipFiller_retext hinner
      exact ⟨'\x7b' :: front, rfl, fun text => .table ((hskip text).symm ▸ hreach text)⟩
  | item hopen hvalue ih =>
      obtain ⟨front, rfl, hreach⟩ := ih
      exact ⟨front, rfl, fun text => .item (head?_ne_retext hopen text) (hreach text)⟩
  | @laterItem depth chars between later item hopen hitem hcomma hitems ih =>
      obtain ⟨inner, hinner, hreach⟩ := ih
      obtain ⟨beyond, rfl, hskip⟩ := skipFiller_retext hinner
      obtain ⟨middle, rfl, hcommas⟩ := comma_retext hcomma
      obtain ⟨front, rfl, hitems⟩ := (local_readsValue depth).retext hitem
      exact ⟨front, rfl, fun text => .laterItem (head?_ne_retext hopen text) (hitems text)
        (hcommas text) ((hskip text).symm ▸ hreach text)⟩
  | member hopen hname hvalue ih =>
      obtain ⟨inner, rfl, hreach⟩ := ih
      obtain ⟨front, rfl, hnames⟩ := local_readMemberName.retext hname
      exact ⟨front, rfl, fun text =>
        .member (head?_ne_retext hopen text) (hnames text) (hreach text)⟩
  | @laterMember depth chars named between later key value hopen hname hvalue hcomma hmembers ih =>
      obtain ⟨inner, hinner, hreach⟩ := ih
      obtain ⟨beyond, rfl, hskip⟩ := skipFiller_retext hinner
      obtain ⟨middle, rfl, hcommas⟩ := comma_retext hcomma
      obtain ⟨start, rfl, hvalues⟩ := (local_readsValue depth).retext hvalue
      obtain ⟨front, rfl, hnames⟩ := local_readMemberName.retext hname
      exact ⟨front, rfl, fun text => .laterMember (head?_ne_retext hopen text) (hnames text)
        (hvalues text) (hcommas text) ((hskip text).symm ▸ hreach text)⟩
  | statement hplain hname hvalue ih =>
      obtain ⟨inner, rfl, hreach⟩ := ih
      obtain ⟨start, hstart, hnames⟩ := local_readStatementName.retext hname
      obtain ⟨front, rfl, hskip⟩ := skipFiller_retext hstart
      rw [hstart] at hplain
      have hplains : ∀ text, (skipFiller false (front ++ quoted text after)).head? ≠ some '[' := by
        intro text
        rw [hskip]
        exact head?_ne_retext hplain text
      exact ⟨front, rfl, fun text => .statement (hplains text) ((hskip text).symm ▸ hnames text)
        (hreach text)⟩
  | laterStatement hstatement hend hlater ih =>
      obtain ⟨inner, rfl, hreach⟩ := ih
      obtain ⟨middle, rfl, hends⟩ :=
        local_endOfLine.retext (show Passes endOfLine _ () _ from hend)
      obtain ⟨start, hstart, hstatements⟩ := local_readsStatement.retext hstatement
      obtain ⟨front, rfl, hskip⟩ := skipFiller_retext hstart
      exact ⟨front, rfl, fun text => .laterStatement ((hskip text).symm ▸ hstatements text)
        (hends text) (hreach text)⟩

section carried

variable {old new after : List Char} {depth : Nat} {chars : List Char}

/-- What is carried over from the place is carried over from the given characters on. -/
def CarriedFrom (old new after : List Char) (part : Part) (chars : List Char) : Prop :=
  ∃ front, chars = front ++ quoted old after ∧ Carried old new after part front

theorem carried_array (hitems : CarriedFrom old new after (.items depth) (skipFiller false chars)) :
    CarriedFrom old new after (.value (depth + 1)) ('[' :: chars) := by
  obtain ⟨inner, hinner, hcarried⟩ := hitems
  obtain ⟨front, rfl, hskip⟩ := skipFiller_retext hinner
  refine ⟨'[' :: front, rfl, ?_⟩
  intro value rest hvalue
  rw [List.cons_append] at hvalue ⊢
  obtain ⟨items, hitems, rfl⟩ := readsValue_bracket.mp hvalue
  rw [hskip] at hitems
  obtain ⟨others, hothers, hexchanged⟩ := hcarried items rest hitems
  rw [← hskip] at hothers
  exact ⟨_, readsValue_bracket.mpr ⟨others, hothers, rfl⟩, .array hexchanged⟩

theorem carried_table
    (hmembers : CarriedFrom old new after (.members depth) (skipFiller false chars)) :
    CarriedFrom old new after (.value (depth + 1)) ('\x7b' :: chars) := by
  obtain ⟨inner, hinner, hcarried⟩ := hmembers
  obtain ⟨front, rfl, hskip⟩ := skipFiller_retext hinner
  refine ⟨'\x7b' :: front, rfl, ?_⟩
  intro value rest hvalue
  rw [List.cons_append] at hvalue ⊢
  obtain ⟨entries, hentries, rfl⟩ := readsValue_brace.mp hvalue
  rw [hskip] at hentries
  obtain ⟨others, hothers, hexchanged⟩ := hcarried [] [] entries rest .nil hentries
  rw [← hskip] at hothers
  exact ⟨_, readsValue_brace.mpr ⟨others, hothers, rfl⟩, .table hexchanged⟩

theorem carried_item (hopen : chars.head? ≠ some ']')
    (hvalue : CarriedFrom old new after (.value depth) chars) :
    CarriedFrom old new after (.items depth) chars := by
  obtain ⟨front, rfl, hcarried⟩ := hvalue
  refine ⟨front, rfl, ?_⟩
  intro items rest hitems
  have hopens : (front ++ quoted new after).head? ≠ some ']' := head?_ne_retext hopen new
  obtain ⟨item, between, hitem, hlater⟩ := (readsItems_iff hopen).mp hitems
  obtain ⟨other, hother, hexchanged⟩ := hcarried item between hitem
  rcases hlater with ⟨hclose, rfl⟩ | ⟨later, others, hcomma, hmore, rfl⟩
  · refine ⟨[other], (readsItems_iff hopens).mpr ⟨other, between, hother, .inl ⟨hclose, rfl⟩⟩, ?_⟩
    exact .cons hexchanged .nil
  · refine ⟨other :: others, (readsItems_iff hopens).mpr
      ⟨other, between, hother, .inr ⟨later, others, hcomma, hmore, rfl⟩⟩, ?_⟩
    exact .cons hexchanged (exchangedItems_self others)

theorem carried_laterItem {between later : List Char} {item : Value}
    (hopen : chars.head? ≠ some ']') (hitem : ReadsValue depth chars item between)
    (hcomma : skipFiller false between = ',' :: later)
    (hitems : CarriedFrom old new after (.items depth) (skipFiller false later)) :
    CarriedFrom old new after (.items depth) chars := by
  obtain ⟨inner, hinner, hcarried⟩ := hitems
  obtain ⟨beyond, rfl, hskip⟩ := skipFiller_retext hinner
  obtain ⟨middle, rfl, hcommas⟩ := comma_retext hcomma
  obtain ⟨front, rfl, hitems⟩ := (local_readsValue depth).retext hitem
  refine ⟨front, rfl, ?_⟩
  intro items rest hread
  have hopens : (front ++ quoted new after).head? ≠ some ']' := head?_ne_retext hopen new
  obtain ⟨found, between, hfound, hlater⟩ := (readsItems_iff hopen).mp hread
  obtain ⟨rfl, rfl⟩ := hitem.unique hfound
  -- the comma after the item rules out that the array is closed there
  rw [hcommas] at hlater
  rcases hlater with ⟨hclose, -⟩ | ⟨later, others, hmatch, hmore, rfl⟩
  · exact absurd (List.cons.inj hclose).1 (by decide)
  · obtain rfl : beyond ++ quoted old after = later := (List.cons.inj hmatch).2
    rw [hskip] at hmore
    obtain ⟨twins, htwins, hexchanged⟩ := hcarried others rest hmore
    rw [← hskip] at htwins
    refine ⟨found :: twins, (readsItems_iff hopens).mpr ⟨found, middle ++ quoted new after,
      hitems new, .inr ⟨beyond ++ quoted new after, twins, hcommas new, htwins, rfl⟩⟩, ?_⟩
    exact .cons (.same found) hexchanged

theorem carried_member {named : List Char} {key : List String} (hopen : chars.head? ≠ some '\x7d')
    (hname : readMemberName chars = .ok (key, named))
    (hvalue : CarriedFrom old new after (.value depth) named) :
    CarriedFrom old new after (.members depth) chars := by
  obtain ⟨inner, rfl, hcarried⟩ := hvalue
  obtain ⟨front, rfl, hnames⟩ := local_readMemberName.retext hname
  refine ⟨front, rfl, ?_⟩
  intro entries twins grown rest hentries hread
  have hopens : (front ++ quoted new after).head? ≠ some '\x7d' := head?_ne_retext hopen new
  obtain ⟨found, _, value, between, wider, hfound, hvalue, hwider, hlater⟩ :=
    (readsMembers_iff hopen).mp hread
  obtain ⟨rfl, rfl⟩ := Prod.mk.inj (Except.ok.inj (hname.symm.trans hfound))
  obtain ⟨other, hother, hexchanged⟩ := hcarried value between hvalue
  obtain ⟨changed, hchanged, hgrown⟩ := follows_assign key hexchanged .braces hentries wider hwider
  rcases hlater with ⟨hclose, rfl⟩ | ⟨later, hcomma, hmore⟩
  · exact ⟨changed, (readsMembers_iff hopens).mpr ⟨key, _, other, between, changed, hnames new,
      hother, hchanged, .inl ⟨hclose, rfl⟩⟩, hgrown⟩
  · obtain ⟨others, hothers, hfinal⟩ := follows_readsMembers hgrown hmore
    exact ⟨others, (readsMembers_iff hopens).mpr ⟨key, _, other, between, changed, hnames new,
      hother, hchanged, .inr ⟨later, hcomma, hothers⟩⟩, hfinal⟩

theorem carried_laterMember {named between later : List Char} {key : List String} {value : Value}
    (hopen : chars.head? ≠ some '\x7d') (hname : readMemberName chars = .ok (key, named))
    (hvalue : ReadsValue depth named value between)
    (hcomma : skipFiller false between = ',' :: later)
    (hmembers : CarriedFrom old new after (.members depth) (skipFiller false later)) :
    CarriedFrom old new after (.members depth) chars := by
  obtain ⟨inner, hinner, hcarried⟩ := hmembers
  obtain ⟨beyond, rfl, hskip⟩ := skipFiller_retext hinner
  obtain ⟨middle, rfl, hcommas⟩ := comma_retext hcomma
  obtain ⟨start, rfl, hvalues⟩ := (local_readsValue depth).retext hvalue
  obtain ⟨front, rfl, hnames⟩ := local_readMemberName.retext hname
  refine ⟨front, rfl, ?_⟩
  intro entries twins grown rest hentries hread
  have hopens : (front ++ quoted new after).head? ≠ some '\x7d' := head?_ne_retext hopen new
  obtain ⟨found, _, same, between, wider, hfound, hsame, hwider, hlater⟩ :=
    (readsMembers_iff hopen).mp hread
  obtain ⟨rfl, rfl⟩ := Prod.mk.inj (Except.ok.inj (hname.symm.trans hfound))
  obtain ⟨rfl, rfl⟩ := hvalue.unique hsame
  obtain ⟨changed, hchanged, hgrown⟩ :=
    follows_assign key (.same same) .braces hentries wider hwider
  rw [hcommas] at hlater
  rcases hlater with ⟨hclose, -⟩ | ⟨later, hmatch, hmore⟩
  · exact absurd (List.cons.inj hclose).1 (by decide)
  · obtain rfl : beyond ++ quoted old after = later := (List.cons.inj hmatch).2
    rw [hskip] at hmore
    obtain ⟨others, hothers, hfinal⟩ := hcarried wider changed grown rest hgrown hmore
    rw [← hskip] at hothers
    exact ⟨others, (readsMembers_iff hopens).mpr ⟨key, _, same, _, changed, hnames new,
      hvalues new, hchanged, .inr ⟨_, hcommas new, hothers⟩⟩, hfinal⟩

theorem carried_statement {named : List Char} {key : List String}
    (hplain : (skipFiller false chars).head? ≠ some '[')
    (hname : readStatementName (skipFiller false chars) = .ok (key, named))
    (hvalue : CarriedFrom old new after (.value maxDepth) named) :
    CarriedFrom old new after .statements chars := by
  obtain ⟨inner, rfl, hcarried⟩ := hvalue
  obtain ⟨start, hstart, hnames⟩ := local_readStatementName.retext hname
  obtain ⟨front, rfl, hskip⟩ := skipFiller_retext hstart
  refine ⟨front, rfl, ?_⟩
  have hsome : ∀ text, skipFiller false (front ++ quoted text after) ≠ [] := by
    intro text
    rw [hskip]
    simp [quoted]
  intro statements hread
  obtain ⟨statement, between, rest, others, hstatement, hend, hothers, rfl⟩ :=
    (readsStatements_iff (hsome old)).mp hread
  obtain ⟨found, _, value, hfound, hvalue, rfl⟩ := (readsStatement_iff hplain).mp hstatement
  obtain ⟨rfl, rfl⟩ := Prod.mk.inj (Except.ok.inj (hname.symm.trans hfound))
  obtain ⟨other, hother, hexchanged⟩ := hcarried value between hvalue
  have hplains : (skipFiller false (front ++ quoted new after)).head? ≠ some '[' := by
    rw [hskip] at hplain ⊢
    exact head?_ne_retext hplain new
  have htwin : ReadsStatement (skipFiller false (front ++ quoted new after))
      (.assignment key other) between := by
    refine (readsStatement_iff hplains).mpr ⟨key, _, other, ?_, hother, rfl⟩
    rw [hskip]
    exact hnames new
  refine ⟨.assignment key other :: others, (readsStatements_iff (hsome new)).mpr
    ⟨_, between, rest, others, htwin, hend, hothers, rfl⟩, ?_⟩
  exact .cons (.assignment key hexchanged) (List.forall₂_same.mpr fun s _ => .same s)

theorem carried_laterStatement {between rest : List Char} {statement : Statement}
    (hstatement : ReadsStatement (skipFiller false chars) statement between)
    (hend : endOfLine between = .ok rest)
    (hlater : CarriedFrom old new after .statements rest) :
    CarriedFrom old new after .statements chars := by
  obtain ⟨inner, rfl, hcarried⟩ := hlater
  obtain ⟨middle, rfl, hends⟩ :=
    local_endOfLine.retext (show Passes endOfLine between () _ from hend)
  obtain ⟨start, hstart, hstatements⟩ := local_readsStatement.retext hstatement
  obtain ⟨front, rfl, hskip⟩ := skipFiller_retext hstart
  refine ⟨front, rfl, ?_⟩
  have hsome : ∀ text, skipFiller false (front ++ quoted text after) ≠ [] := by
    intro text
    rw [hskip]
    simp [quoted]
  intro statements hread
  obtain ⟨found, between, rest, others, hfound, hfoundEnd, hothers, rfl⟩ :=
    (readsStatements_iff (hsome old)).mp hread
  obtain ⟨rfl, rfl⟩ := hstatement.unique hfound
  obtain rfl := Except.ok.inj (hend.symm.trans hfoundEnd)
  obtain ⟨twins, htwins, hexchanged⟩ := hcarried others hothers
  refine ⟨found :: twins, (readsStatements_iff (hsome new)).mpr
    ⟨found, _, _, twins, ?_, hends new, htwins, rfl⟩, .cons (.same found) hexchanged⟩
  rw [hskip]
  exact hstatements new

theorem carried_of_reaches (hold : ∀ c ∈ old, StandsForItself c)
    (hnew : ∀ c ∈ new, StandsForItself c) (hafter : after.head? ≠ some '"') {part : Part}
    {chars : List Char} (hreaches : Reaches (quoted old after) part chars) :
    CarriedFrom old new after part chars := by
  induction hreaches with
  | here depth =>
      refine ⟨[], rfl, ?_⟩
      intro value rest hvalue
      obtain ⟨rfl, rfl⟩ := (readsValue_quoted hold hafter depth).unique hvalue
      exact ⟨_, readsValue_quoted hnew hafter depth, .text⟩
  | array hitems ih => exact carried_array ih
  | table hmembers ih => exact carried_table ih
  | item hopen hvalue ih => exact carried_item hopen ih
  | laterItem hopen hitem hcomma hitems ih => exact carried_laterItem hopen hitem hcomma ih
  | member hopen hname hvalue ih => exact carried_member hopen hname ih
  | laterMember hopen hname hvalue hcomma hmembers ih =>
      exact carried_laterMember hopen hname hvalue hcomma ih
  | statement hplain hname hvalue ih => exact carried_statement hplain hname ih
  | laterStatement hstatement hend hlater ih => exact carried_laterStatement hstatement hend ih

end carried

/-! ## Documents -/

theorem dropMark_quote (front tail : List Char) :
    dropMark (front ++ '"' :: tail) = dropMark front ++ '"' :: tail := by
  cases front with
  | nil => rfl
  | cons c front =>
      by_cases hmark : c = '\uFEFF'
      · subst hmark
        rfl
      · have hkeep : ∀ rest, dropMark (c :: rest) = c :: rest := by
          intro rest
          unfold dropMark
          split
          · rename_i heq
            exact absurd (List.cons.inj heq).1 hmark
          · rfl
        rw [List.cons_append, hkeep, hkeep, List.cons_append]

theorem parse_eq_ok {text : String} {root : Entries} :
    parse text = .ok root ↔
      ∃ statements, ReadsStatements (dropMark text.toList) statements ∧
        build [] [] statements = .ok root := by
  constructor
  · intro hparse
    obtain ⟨statements, hread, hbuild⟩ := bind_eq_ok.mp hparse
    exact ⟨statements, ⟨_, _, hread⟩, hbuild⟩
  · rintro ⟨statements, ⟨budget, limit, hread⟩, hbuild⟩
    exact bind_eq_ok.mpr
      ⟨statements, readStatements_of_le hread (by omega) (Nat.le_refl _), hbuild⟩

/-- A document that reaches a place is, with one plain string or another there, alike except for the
string. -/
theorem parse_of_reaches {front seen old new after : List Char}
    (hreaches : Reaches (quoted seen after) .statements (dropMark (front ++ quoted seen after)))
    (hafter : after.head? ≠ some '"') (hold : ∀ c ∈ old, StandsForItself c)
    (hnew : ∀ c ∈ new, StandsForItself c) {root : Entries}
    (hroot : parse (.ofList (front ++ quoted old after)) = .ok root) :
    ∃ other, parse (.ofList (front ++ quoted new after)) = .ok other ∧
      ExchangedEntries (.ofList old) (.ofList new) root other := by
  have hdrop : ∀ text, dropMark (front ++ quoted text after) =
      dropMark front ++ quoted text after := fun text => dropMark_quote front _
  obtain ⟨start, hstart, hreach⟩ := hreaches.retext
  obtain rfl : start = dropMark front := by
    rw [hdrop] at hstart
    exact (List.append_cancel_right hstart).symm
  obtain ⟨inner, hinner, hcarried⟩ := carried_of_reaches hold hnew hafter (hreach old)
  obtain rfl : inner = dropMark front := (List.append_cancel_right hinner).symm
  obtain ⟨statements, hread, hbuild⟩ := parse_eq_ok.mp hroot
  rw [String.toList_ofList, hdrop] at hread
  obtain ⟨others, hothers, hexchanged⟩ := hcarried statements hread
  obtain ⟨other, hother, hroots⟩ := follows_build hexchanged [] .nil root hbuild
  refine ⟨other, parse_eq_ok.mpr ⟨others, ?_, hother⟩, hroots⟩
  rw [String.toList_ofList, hdrop]
  exact hothers

end Rollout.Toml
