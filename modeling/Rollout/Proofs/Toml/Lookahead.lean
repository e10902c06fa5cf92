import Mathlib.Tactic.SplitIfs
import Rollout.Toml.Document

/-!
# Reading looks no further than it has to

What a reader makes of a text depends on what it has read and on the first character after it.  So
when a reader stops before a double quote, what stands behind that quote does not matter.

## Strategy

A step is a relation between characters, a result and the characters that are left.  `Local` says
that a step leaves a suffix, and that what follows a quote which is left can be exchanged.  Steps
that are taken one after the other are local when each of them is (`Local.andThen`), so the readers
are gone through from the small ones to the large ones.
-/

namespace Rollout.Toml

variable {α β : Type}

theorem bind_eq_ok {ε : Type} {first : Except ε α} {next : α → Except ε β} {result : β} :
    (first >>= next) = .ok result ↔ ∃ value, first = .ok value ∧ next value = .ok result := by
  cases first <;> simp [Bind.bind, Except.bind]

/-! ## Local steps -/

/-- The step leaves a suffix, and when it leaves a double quote, what follows that quote does not
matter. -/
structure Local (step : List Char → α → List Char → Prop) : Prop where
  suffix : ∀ {chars result rest}, step chars result rest → rest <:+ chars
  exchange : ∀ {front tail result rest}, step (front ++ '"' :: tail) result (rest ++ '"' :: tail) →
    ∀ other, step (front ++ '"' :: other) result (rest ++ '"' :: other)

/-- The steps of a reader. -/
def Reads (read : List Char → Except Fault (α × List Char)) (chars : List Char) (result : α)
    (rest : List Char) : Prop :=
  read chars = .ok (result, rest)

/-- The steps that only leave something out. -/
def Skips (skip : List Char → List Char) (chars : List Char) (_ : Unit) (rest : List Char) : Prop :=
  skip chars = rest

/-- The steps that leave something out or fail. -/
def Passes (pass : List Char → Except Fault (List Char)) (chars : List Char) (_ : Unit)
    (rest : List Char) : Prop :=
  pass chars = .ok rest

/-- The steps that go on after something that has to be there. -/
def Finds (find : List Char → Option (List Char)) (chars : List Char) (_ : Unit)
    (rest : List Char) : Prop :=
  find chars = some rest

/-- One step and then another, which may depend on the result of the first. -/
def AndThen (first : List Char → α → List Char → Prop)
    (second : α → List Char → β → List Char → Prop) (chars : List Char) (result : β)
    (rest : List Char) : Prop :=
  ∃ value between, first chars value between ∧ second value between result rest

/-- A quote that is left in a suffix was there before. -/
theorem exists_front_of_suffix {chars rest tail : List Char}
    (hsuffix : rest ++ '"' :: tail <:+ chars) : ∃ front, chars = front ++ '"' :: tail := by
  obtain ⟨front, rfl⟩ := hsuffix
  exact ⟨front ++ rest, by simp⟩

/-- What follows a quote does not hold that quote. -/
theorem ne_of_suffix_tail {chars rest tail : List Char} (hchars : chars <:+ tail) :
    chars ≠ rest ++ '"' :: tail := by
  intro heq
  have hle := hchars.length_le
  rw [heq] at hle
  simp at hle
  omega

/-- What stands before a quote is known from the whole. -/
theorem eq_of_append_quote {front rest tail : List Char}
    (heq : front ++ '"' :: tail = rest ++ '"' :: tail) : rest = front :=
  (List.append_cancel_right heq).symm

/-- What comes next does not depend on what follows a quote. -/
theorem head?_exchange (front tail other : List Char) :
    (front ++ '"' :: tail).head? = (front ++ '"' :: other).head? := by
  cases front <;> rfl

theorem Local.andThen {first : List Char → α → List Char → Prop}
    {second : α → List Char → β → List Char → Prop} (hfirst : Local first)
    (hsecond : ∀ value, Local (second value)) : Local (AndThen first second) := by
  refine ⟨?_, ?_⟩
  · rintro chars result rest ⟨value, between, hvalue, hresult⟩
    exact ((hsecond value).suffix hresult).trans (hfirst.suffix hvalue)
  · rintro front tail result rest ⟨value, between, hvalue, hresult⟩ other
    obtain ⟨middle, rfl⟩ := exists_front_of_suffix ((hsecond value).suffix hresult)
    exact ⟨value, middle ++ '"' :: other, hfirst.exchange hvalue other,
      (hsecond value).exchange hresult other⟩

theorem Local.congr {first second : List Char → α → List Char → Prop} (hsecond : Local second)
    (hsame : ∀ chars result rest, first chars result rest ↔ second chars result rest) :
    Local first := by
  refine ⟨?_, ?_⟩
  · intro chars result rest hfirst
    exact hsecond.suffix ((hsame _ _ _).mp hfirst)
  · intro front tail result rest hfirst other
    exact (hsame _ _ _).mpr (hsecond.exchange ((hsame _ _ _).mp hfirst) other)

/-- One reader and then another. -/
theorem Local.bind {read : List Char → Except Fault (α × List Char)}
    {whole : List Char → Except Fault (β × List Char)}
    {next : α × List Char → Except Fault (β × List Char)} (hread : Local (Reads read))
    (hwhole : ∀ chars, whole chars = read chars >>= next)
    (hnext : ∀ value, Local (Reads fun chars => next (value, chars))) : Local (Reads whole) := by
  refine (hread.andThen hnext).congr ?_
  intro chars result rest
  unfold Reads AndThen
  rw [hwhole, bind_eq_ok]
  constructor
  · rintro ⟨⟨value, between⟩, hvalue, hresult⟩
    exact ⟨value, between, hvalue, hresult⟩
  · rintro ⟨value, between, hvalue, hresult⟩
    exact ⟨(value, between), hvalue, hresult⟩

theorem Local.after {read : List Char → Except Fault (α × List Char)} {skip : List Char → List Char}
    (hread : Local (Reads read)) (hskip : Local (Skips skip)) :
    Local (Reads fun chars => read (skip chars)) := by
  refine (hskip.andThen fun _ => hread).congr ?_
  intro chars result rest
  simp [Reads, Skips, AndThen]

/-- Which way a reader takes may depend on the next character. -/
theorem Local.ofHead {whole : List Char → Except Fault (α × List Char)}
    (read : Option Char → List Char → Except Fault (α × List Char))
    (hwhole : ∀ chars, whole chars = read chars.head? chars)
    (hread : ∀ head, Local (Reads (read head))) : Local (Reads whole) := by
  refine ⟨?_, ?_⟩
  · intro chars result rest hresult
    exact (hread chars.head?).suffix ((hwhole chars).symm.trans hresult)
  · intro front tail result rest hresult other
    have hsame := (hwhole _).symm.trans hresult
    rw [head?_exchange front tail other] at hsame
    exact (hwhole _).trans ((hread _).exchange hsame other)

/-- The character after the next one, which is not looked at when the next one is a quote. -/
def second? (chars : List Char) : Option Char :=
  if chars.head? = some '"' then none else chars.tail.head?

theorem Local.ofHeads {whole : List Char → Except Fault (α × List Char)}
    (read : Option Char → Option Char → List Char → Except Fault (α × List Char))
    (hwhole : ∀ chars, whole chars = read chars.head? (second? chars) chars)
    (hread : ∀ head second, Local (Reads (read head second))) : Local (Reads whole) := by
  have hsecond : ∀ front tail other,
      second? (front ++ '"' :: tail) = second? (front ++ '"' :: other) := by
    intro front tail other
    cases front with
    | nil => rfl
    | cons c front =>
        change (if some c = some '"' then none else (front ++ '"' :: tail).head?) = _
        rw [head?_exchange front tail other]
        rfl
  refine ⟨?_, ?_⟩
  · intro chars result rest hresult
    exact (hread chars.head? (second? chars)).suffix ((hwhole chars).symm.trans hresult)
  · intro front tail result rest hresult other
    have hsame := (hwhole _).symm.trans hresult
    rw [head?_exchange front tail other, hsecond front tail other] at hsame
    exact (hwhole _).trans ((hread _ _).exchange hsame other)

/-- The next character, whatever it is, may be passed over. -/
theorem local_tail : Local (Skips List.tail) := by
  refine ⟨?_, ?_⟩
  · rintro chars _ rest rfl
    exact List.tail_suffix chars
  · intro front tail _ rest hrest other
    cases front with
    | nil => exact absurd hrest (ne_of_suffix_tail (List.suffix_refl tail))
    | cons c front => exact congrArg (· ++ '"' :: other) (eq_of_append_quote hrest).symm

/-- Nothing is read. -/
theorem local_ok (value : α) : Local (Reads fun chars => .ok (value, chars)) := by
  refine ⟨?_, ?_⟩
  · intro chars result rest hread
    cases hread
    exact List.suffix_refl _
  · intro front tail result rest hread other
    simp only [Reads, Except.ok.injEq, Prod.mk.injEq] at hread ⊢
    exact ⟨hread.1, by rw [eq_of_append_quote hread.2]⟩

theorem local_error (fault : Fault) :
    Local (Reads fun _ => (.error fault : Except Fault (α × List Char))) := by
  refine ⟨fun hread => ?_, fun hread => ?_⟩
  · simp [Reads] at hread
  · simp [Reads] at hread

/-- Something that needs no characters comes before a reader. -/
theorem Local.given (result : Except Fault α)
    {next : α → List Char → Except Fault (β × List Char)}
    (hnext : ∀ value, Local (Reads (next value))) :
    Local (Reads fun chars => result >>= fun value => next value chars) := by
  cases result with
  | error fault => exact local_error fault
  | ok value => exact hnext value

/-- What is made of a result needs no characters. -/
theorem local_return (result : Except Fault α) :
    Local (Reads fun chars => do return (← result, chars)) :=
  Local.given result fun value => local_ok value

/-! ## Blanks, comments and line ends -/

theorem local_span (p : Char → Bool) :
    Local (Reads fun chars => .ok (chars.takeWhile p, chars.dropWhile p)) := by
  refine ⟨?_, ?_⟩
  · intro chars span rest hread
    cases hread
    exact List.dropWhile_suffix p
  · intro front tail span rest hread other
    simp only [Reads, Except.ok.injEq, Prod.mk.injEq] at hread ⊢
    obtain ⟨rfl, hrest⟩ := hread
    induction front with
    | nil =>
        cases hquote : p '"' with
        | true =>
            rw [List.nil_append, List.dropWhile_cons_of_pos hquote] at hrest
            have hsuffix := List.dropWhile_suffix p (l := tail)
            exact absurd hrest (ne_of_suffix_tail hsuffix)
        | false =>
            rw [List.nil_append, List.dropWhile_cons_of_neg (by simp [hquote])] at hrest
            have hnil : rest = [] := eq_of_append_quote hrest
            simp [hquote, hnil]
    | cons c front ih =>
        cases hc : p c with
        | true =>
            rw [List.cons_append, List.dropWhile_cons_of_pos hc] at hrest
            obtain ⟨htake, hdrop⟩ := ih hrest
            simp [hc, htake, hdrop]
        | false =>
            rw [List.cons_append, List.dropWhile_cons_of_neg (by simp [hc])] at hrest
            have hsame : rest = c :: front := eq_of_append_quote hrest
            simp [hc, hsame]

/-- What is left after the characters of a kind. -/
theorem dropWhile_exchange {p : Char → Bool} {front tail rest : List Char}
    (hrest : (front ++ '"' :: tail).dropWhile p = rest ++ '"' :: tail) (other : List Char) :
    (front ++ '"' :: other).dropWhile p = rest ++ '"' :: other := by
  have hread : Reads (fun chars => .ok (chars.takeWhile p, chars.dropWhile p))
      (front ++ '"' :: tail) ((front ++ '"' :: tail).takeWhile p) (rest ++ '"' :: tail) := by
    rw [Reads, hrest]
  have hother := (local_span p).exchange hread other
  simp only [Reads, Except.ok.injEq, Prod.mk.injEq] at hother
  exact hother.2

theorem local_skipBlank : Local (Skips skipBlank) := by
  refine ⟨?_, ?_⟩
  · rintro chars _ rest rfl
    exact List.dropWhile_suffix _
  · intro front tail _ rest hrest other
    exact dropWhile_exchange hrest other

theorem suffix_skipFiller (comment : Bool) (chars : List Char) :
    skipFiller comment chars <:+ chars := by
  induction chars generalizing comment with
  | nil => exact List.suffix_refl []
  | cons c rest ih =>
      have htail : ∀ later : Bool, skipFiller later rest <:+ c :: rest := fun later =>
        (ih later).trans (List.suffix_cons c rest)
      unfold skipFiller
      split_ifs
      all_goals first | exact htail _ | exact List.suffix_refl _

theorem local_skipFiller (comment : Bool) : Local (Skips (skipFiller comment)) := by
  refine ⟨?_, ?_⟩
  · rintro chars _ rest rfl
    exact suffix_skipFiller comment chars
  · intro front tail _ rest hrest other
    unfold Skips at hrest ⊢
    induction front generalizing comment with
    | nil =>
        cases comment with
        | true =>
            have hsuffix := suffix_skipFiller true tail
            have hskip : skipFiller true ('"' :: tail) = skipFiller true tail := rfl
            rw [List.nil_append, hskip] at hrest
            exact absurd hrest (ne_of_suffix_tail hsuffix)
        | false =>
            have hnil : rest = [] := eq_of_append_quote hrest
            rw [hnil]
            rfl
    | cons c front ih =>
        rw [List.cons_append, skipFiller] at hrest ⊢
        rw [← head?_exchange front tail other]
        split_ifs at hrest ⊢
        all_goals
          first
          | exact ih _ hrest
          | rw [show rest = c :: front from eq_of_append_quote hrest]; rfl

theorem local_skipComment : Local (Skips skipComment) := by
  refine ⟨?_, ?_⟩
  · rintro chars _ rest rfl
    unfold skipComment
    split
    · exact (List.dropWhile_suffix _).trans (List.suffix_cons _ _)
    · exact List.suffix_refl _
  · intro front tail _ rest hrest other
    unfold Skips at hrest ⊢
    by_cases hcomment : ∃ later, front = '#' :: later
    · obtain ⟨later, rfl⟩ := hcomment
      exact dropWhile_exchange hrest other
    · have hkeep : ∀ later, skipComment (front ++ '"' :: later) = front ++ '"' :: later := by
        intro later
        unfold skipComment
        split
        · rename_i heq
          cases front with
          | nil => simp at heq
          | cons c front =>
              rw [List.cons_append, List.cons.injEq] at heq
              exact absurd ⟨front, by rw [heq.1]⟩ hcomment
        · rfl
      rw [hkeep] at hrest ⊢
      rw [eq_of_append_quote hrest]

/-- Whether a line end comes next does not depend on what follows a quote. -/
theorem afterNewline?_append (front tail : List Char) :
    afterNewline? (front ++ '"' :: tail) = (afterNewline? front).map (· ++ '"' :: tail) := by
  rcases front with _ | ⟨c, _ | ⟨d, front⟩⟩
  · rfl
  · simp only [List.cons_append, List.nil_append]
    unfold afterNewline?
    split <;> simp_all
  · simp only [List.cons_append]
    unfold afterNewline?
    split <;> simp_all

theorem suffix_of_afterNewline? {chars rest : List Char} (hrest : afterNewline? chars = some rest) :
    rest <:+ chars := by
  unfold afterNewline? at hrest
  split at hrest
  · exact Option.some.inj hrest ▸ List.suffix_cons _ _
  · exact Option.some.inj hrest ▸ (List.suffix_cons _ _).trans (List.suffix_cons _ _)
  · exact absurd hrest (by simp)

theorem local_afterNewline? : Local (Finds afterNewline?) := by
  refine ⟨fun hrest => suffix_of_afterNewline? hrest, ?_⟩
  intro front tail _ rest hrest other
  unfold Finds at hrest ⊢
  rw [afterNewline?_append, Option.map_eq_some_iff] at hrest
  obtain ⟨later, hlater, heq⟩ := hrest
  rw [afterNewline?_append, hlater, eq_of_append_quote heq, Option.map_some]

theorem local_endOfLine : Local (Passes endOfLine) := by
  have hend : Local fun chars (done : Unit) rest =>
      chars = [] ∧ rest = [] ∨ Finds afterNewline? chars done rest := by
    refine ⟨?_, ?_⟩
    · rintro chars _ rest (⟨rfl, rfl⟩ | hrest)
      · exact List.suffix_refl []
      · exact local_afterNewline?.suffix hrest
    · rintro front tail _ rest (⟨hnil, -⟩ | hrest) other
      · simp at hnil
      · exact .inr (local_afterNewline?.exchange hrest other)
  refine (local_skipBlank.andThen fun _ => local_skipComment.andThen fun _ => hend).congr ?_
  intro chars _ rest
  simp only [Passes, AndThen, Skips, Finds, exists_const, exists_eq_left', endOfLine]
  cases skipComment (skipBlank chars) with
  | nil => simp [afterNewline?, eq_comm]
  | cons c later => cases hfind : afterNewline? (c :: later) <;> simp [hfind]

/-! ## Strings -/

theorem push_eq_ok {c : Char} {later : Except Fault (List Char × List Char)}
    {chars rest : List Char} (hpush : push c later = .ok (chars, rest)) :
    ∃ earlier, later = .ok (earlier, rest) ∧ chars = c :: earlier := by
  cases later with
  | error fault => simp [push] at hpush
  | ok read =>
      rw [push, Except.ok.injEq, Prod.mk.injEq] at hpush
      exact ⟨read.1, by rw [← hpush.2], hpush.1.symm⟩

theorem local_lineBody (quote : Char) (escapes escaped : Bool) :
    Local (Reads (lineBody quote escapes escaped)) := by
  have hsuffix : ∀ chars escaped body rest,
      lineBody quote escapes escaped chars = .ok (body, rest) → rest <:+ chars := by
    intro chars
    induction chars with
    | nil => simp [lineBody]
    | cons c chars ih =>
        intro escaped body rest hread
        rw [lineBody] at hread
        split_ifs at hread
        · obtain ⟨earlier, hlater, -⟩ := push_eq_ok hread
          exact (ih _ _ _ hlater).trans (List.suffix_cons c chars)
        · rw [Except.ok.injEq, Prod.mk.injEq] at hread
          exact hread.2 ▸ List.suffix_cons c chars
        · obtain ⟨earlier, hlater, -⟩ := push_eq_ok hread
          exact (ih _ _ _ hlater).trans (List.suffix_cons c chars)
  refine ⟨fun hread => hsuffix _ _ _ _ hread, ?_⟩
  intro front tail body rest hread other
  unfold Reads at hread ⊢
  induction front generalizing escaped body with
  | nil =>
      -- the quote is taken in any case, so what is left lies behind it
      have hleft : rest ++ '"' :: tail <:+ tail := by
        rw [List.nil_append, lineBody] at hread
        split_ifs at hread
        · obtain ⟨earlier, hlater, -⟩ := push_eq_ok hread
          exact hsuffix _ _ _ _ hlater
        · rw [Except.ok.injEq, Prod.mk.injEq] at hread
          exact hread.2 ▸ List.suffix_refl _
        · obtain ⟨earlier, hlater, -⟩ := push_eq_ok hread
          exact hsuffix _ _ _ _ hlater
      exact absurd rfl (ne_of_suffix_tail hleft)
  | cons c front ih =>
      rw [List.cons_append, lineBody] at hread ⊢
      split_ifs at hread ⊢
      · obtain ⟨earlier, hlater, rfl⟩ := push_eq_ok hread
        rw [ih _ hlater, push]
      · rw [Except.ok.injEq, Prod.mk.injEq] at hread
        rw [hread.1, eq_of_append_quote hread.2]
      · obtain ⟨earlier, hlater, rfl⟩ := push_eq_ok hread
        rw [ih _ hlater, push]

theorem pushQuotes_eq_ok {quote : Char} {count : Nat}
    {later : Except Fault (List Char × List Char)} {chars rest : List Char}
    (hpush : pushQuotes quote count later = .ok (chars, rest)) :
    ∃ earlier, later = .ok (earlier, rest) ∧ chars = List.replicate count quote ++ earlier := by
  cases later with
  | error fault => simp [pushQuotes] at hpush
  | ok read =>
      rw [pushQuotes, Except.ok.injEq, Prod.mk.injEq] at hpush
      exact ⟨read.1, by rw [← hpush.2], hpush.1.symm⟩

theorem suffix_of_linesBody {quote : Char} {escapes escaped : Bool} {quotes : Nat}
    {chars body rest : List Char}
    (hread : linesBody quote escapes escaped quotes chars = .ok (body, rest)) : rest <:+ chars := by
  induction chars generalizing escaped quotes body with
  | nil =>
      rw [linesBody] at hread
      split_ifs at hread
      rw [Except.ok.injEq, Prod.mk.injEq] at hread
      exact hread.2 ▸ List.suffix_refl _
  | cons c chars ih =>
      rw [linesBody] at hread
      split_ifs at hread
      · exact (ih hread).trans (List.suffix_cons c chars)
      · rw [Except.ok.injEq, Prod.mk.injEq] at hread
        exact hread.2 ▸ List.suffix_refl _
      · obtain ⟨earlier, hpush, -⟩ := pushQuotes_eq_ok hread
        obtain ⟨later, hlater, -⟩ := push_eq_ok hpush
        exact (ih hlater).trans (List.suffix_cons c chars)

theorem local_linesBody (quote : Char) (escapes escaped : Bool) (quotes : Nat) :
    Local (Reads (linesBody quote escapes escaped quotes)) := by
  refine ⟨fun hread => suffix_of_linesBody hread, ?_⟩
  intro front tail body rest hread other
  unfold Reads at hread ⊢
  induction front generalizing escaped quotes body with
  | nil =>
      -- the quote is left only when the closing quotes are complete before it
      have hplain : isPlain '"' = true := rfl
      rw [List.nil_append, linesBody] at hread ⊢
      simp only [hplain, Bool.true_or, if_true] at hread ⊢
      split_ifs at hread ⊢
      · exact absurd rfl (ne_of_suffix_tail (suffix_of_linesBody hread))
      · rw [Except.ok.injEq, Prod.mk.injEq] at hread
        have hnil : rest = [] := eq_of_append_quote hread.2
        rw [hread.1, hnil]
        rfl
      · obtain ⟨earlier, hpush, -⟩ := pushQuotes_eq_ok hread
        obtain ⟨later, hlater, -⟩ := push_eq_ok hpush
        exact absurd rfl (ne_of_suffix_tail (suffix_of_linesBody hlater))
  | cons c front ih =>
      rw [List.cons_append, linesBody] at hread ⊢
      rw [← head?_exchange front tail other]
      split_ifs at hread ⊢
      · exact ih _ _ hread
      · rw [Except.ok.injEq, Prod.mk.injEq] at hread
        rw [hread.1, show rest = c :: front from eq_of_append_quote hread.2]
        rfl
      · obtain ⟨earlier, hpush, rfl⟩ := pushQuotes_eq_ok hread
        obtain ⟨later, hlater, rfl⟩ := push_eq_ok hpush
        rw [ih _ _ hlater, push, pushQuotes]

theorem local_dropFirstNewline : Local (Skips dropFirstNewline) := by
  refine ⟨?_, ?_⟩
  · rintro chars _ rest rfl
    unfold dropFirstNewline
    cases hfirst : afterNewline? chars with
    | none => exact List.suffix_refl chars
    | some later => exact suffix_of_afterNewline? hfirst
  · intro front tail _ rest hrest other
    unfold Skips dropFirstNewline at hrest ⊢
    rw [afterNewline?_append] at hrest ⊢
    cases hfirst : afterNewline? front with
    | none =>
        rw [hfirst] at hrest
        rw [eq_of_append_quote hrest]
        rfl
    | some later =>
        rw [hfirst] at hrest
        rw [eq_of_append_quote hrest]
        rfl

theorem local_readLineString (quote : Char) : Local (Reads (readLineString quote)) := by
  refine (local_lineBody quote (quote = '"') false).bind (fun _ => rfl) fun body => ?_
  by_cases hquote : quote = '"'
  · simpa only [hquote, decide_true, if_true] using local_return (decodeEscapes false false body)
  · simp only [hquote, if_false]
    exact local_ok body

theorem local_readLinesString (quote : Char) : Local (Reads (readLinesString quote)) := by
  have hbody := (local_linesBody quote (quote = '"') false 0).after local_dropFirstNewline
  refine hbody.bind (fun _ => rfl) fun body => ?_
  by_cases hquote : quote = '"'
  · simpa only [hquote, decide_true, if_true] using local_return (decodeEscapes true false body)
  · simp only [hquote, if_false]
    exact local_ok body

/-- Reads a string after its opening quote, given the character that comes next. -/
def readStringAt (quote : Char) (head : Option Char) (chars : List Char) :
    Except Fault (List Char × List Char) :=
  if head = some quote then
    if chars.tail.head? = some quote then readLinesString quote chars.tail.tail
    else .ok ([], chars.tail)
  else readLineString quote chars

/-- A quote right after the opening one either closes an empty string or opens a multi-line one. -/
theorem readString_eq {quote : Char} (hquote : isPlain quote = true) (chars : List Char) :
    readString quote chars = readStringAt quote chars.head? chars := by
  have hempty : ∀ rest, readLineString quote (quote :: rest) = .ok ([], rest) := by
    intro rest
    simp [readLineString, lineBody, hquote, decodeEscapes, bind, Except.bind, pure, Except.pure]
  unfold readStringAt
  rcases chars with _ | ⟨first, _ | ⟨second, rest⟩⟩
  · rfl
  · by_cases hfirst : first = quote
    · subst hfirst
      simp [readString, hempty]
    · simp [readString, hfirst]
  · by_cases hfirst : first = quote
    · subst hfirst
      simp [readString, hempty]
    · simp [readString, hfirst]

theorem local_readString {quote : Char} (hquote : isPlain quote = true) :
    Local (Reads (readString quote)) := by
  have hsecond : Local (Reads fun chars =>
      if chars.head? = some quote then readLinesString quote chars.tail else .ok ([], chars)) := by
    refine Local.ofHead (fun head chars =>
      if head = some quote then readLinesString quote chars.tail else .ok ([], chars))
      (fun _ => rfl) fun head => ?_
    by_cases hhead : head = some quote
    · simpa only [if_pos hhead] using (local_readLinesString quote).after local_tail
    · simpa only [if_neg hhead] using local_ok []
  refine Local.ofHead (readStringAt quote) (fun chars => readString_eq hquote chars) fun head => ?_
  unfold readStringAt
  by_cases hhead : head = some quote
  · simpa only [if_pos hhead] using hsecond.after local_tail
  · simpa only [if_neg hhead] using local_readLineString quote

/-! ## Keys -/

/-- Reads a part of a key without quotes. -/
def readBareKey (chars : List Char) : Except Fault (String × List Char) :=
  if (chars.takeWhile isBareChar).isEmpty then .error .missingKey
  else .ok (String.ofList (chars.takeWhile isBareChar), chars.dropWhile isBareChar)

/-- Reads a part of a key after its opening quote. -/
def readQuotedKey (quote : Char) (chars : List Char) : Except Fault (String × List Char) := do
  let (chars, rest) ← readLineString quote chars
  return (String.ofList chars, rest)

/-- Reads a part of a key, given the character that comes next. -/
def readKeyPartAt (head : Option Char) (chars : List Char) : Except Fault (String × List Char) :=
  if head = some '"' then readQuotedKey '"' chars.tail
  else if head = some '\'' then readQuotedKey '\'' chars.tail
  else readBareKey chars

theorem readKeyPart_eq (chars : List Char) :
    readKeyPart chars = readKeyPartAt chars.head? chars := by
  unfold readKeyPart
  split
  · rfl
  · rfl
  · rename_i hdouble hsingle
    have hhead : ∀ quote, (∀ rest, chars ≠ quote :: rest) → chars.head? ≠ some quote := by
      intro quote hother hhead
      obtain ⟨rest, hrest⟩ := List.head?_eq_some_iff.mp hhead
      exact hother rest hrest
    rw [readKeyPartAt, if_neg (hhead _ hdouble), if_neg (hhead _ hsingle)]
    rfl

theorem local_readBareKey : Local (Reads readBareKey) := by
  have hwhole : ∀ chars, readBareKey chars =
      (Except.ok (chars.takeWhile isBareChar, chars.dropWhile isBareChar) :
          Except Fault (List Char × List Char)) >>= fun found =>
        if found.1.isEmpty then .error .missingKey else .ok (String.ofList found.1, found.2) :=
    fun _ => rfl
  refine (local_span isBareChar).bind hwhole fun bare => ?_
  cases hempty : bare.isEmpty with
  | true => simpa only [hempty, if_true] using local_error .missingKey
  | false => simpa [hempty] using local_ok (String.ofList bare)

theorem local_readQuotedKey (quote : Char) : Local (Reads (readQuotedKey quote)) :=
  (local_readLineString quote).bind (fun _ => rfl) fun chars => local_ok (String.ofList chars)

theorem local_readKeyPart : Local (Reads readKeyPart) := by
  refine Local.ofHead readKeyPartAt readKeyPart_eq fun head => ?_
  unfold readKeyPartAt
  by_cases hdouble : head = some '"'
  · simpa only [if_pos hdouble] using (local_readQuotedKey '"').after local_tail
  by_cases hsingle : head = some '\''
  · simpa only [if_neg hdouble, if_pos hsingle] using (local_readQuotedKey '\'').after local_tail
  · simpa only [if_neg hdouble, if_neg hsingle] using local_readBareKey

/-- Reads the parts of a key after `part`, given the character that comes next. -/
def readLaterParts (allowed : Nat) (part : String) (head : Option Char) (chars : List Char) :
    Except Fault (List String × List Char) :=
  if head = some '.' then do
    let (parts, rest) ← readKey allowed chars.tail
    return (part :: parts, rest)
  else .ok ([part], chars)

theorem readKey_succ (allowed : Nat) (chars : List Char) :
    readKey (allowed + 1) chars = readKeyPart (skipBlank chars) >>= fun found =>
      readLaterParts allowed found.1 (skipBlank found.2).head? (skipBlank found.2) := by
  rw [readKey]
  congr 1
  funext ⟨part, rest⟩
  dsimp only
  cases skipBlank rest with
  | nil => rfl
  | cons c rest =>
      by_cases hdot : c = '.'
      · subst hdot
        rfl
      · rw [readLaterParts, if_neg (by simpa using hdot)]
        split
        · rename_i heq
          exact absurd (List.cons.inj heq).1 hdot
        · rfl

theorem local_readKey (allowed : Nat) : Local (Reads (readKey allowed)) := by
  induction allowed with
  | zero => exact local_error .keyTooLong
  | succ allowed ih =>
      have hlater : ∀ part, Local (Reads fun chars =>
          readLaterParts allowed part chars.head? chars) := by
        intro part
        refine Local.ofHead (readLaterParts allowed part) (fun _ => rfl) fun head => ?_
        unfold readLaterParts
        by_cases hdot : head = some '.'
        · simp only [if_pos hdot]
          exact (ih.after local_tail).bind (fun _ => rfl) fun parts => local_ok (part :: parts)
        · simpa only [if_neg hdot] using local_ok [part]
      exact (local_readKeyPart.after local_skipBlank).bind (readKey_succ allowed) fun part =>
        (hlater part).after local_skipBlank

end Rollout.Toml
