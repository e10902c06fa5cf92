import Mathlib.Data.List.TakeWhile
import Rollout.Json.Printer
import Rollout.Json.Reader
import Rollout.Proofs.Text.Decimal

/-!
# Reading printed JSON

A printed value is read back as it was, if its numbers are whole and fit into a word, and if it is
not nested too deeply for the reader.

## Strategy

The reader is followed along the printed form, with any text behind it that does not continue a
number (`Stops`).  Strings go character by character (`stringBody_escapeChar`).  Arrays and objects
are an induction on `Fits` with an inner one along the items or members; what the reader spends of
its budget is bounded by the characters that it has read, two for each.
-/

namespace Rollout.Json

/-! ## What can be read back -/

/-- The numbers of a value are whole and fit into a word, and no more than so many arrays and
objects lie inside one another. -/
inductive Fits : Nat → Json → Prop
  | null (depth : Nat) : Fits depth .null
  | bool (depth : Nat) (value : Bool) : Fits depth (.bool value)
  | integer (depth : Nat) (negative : Bool) {magnitude : Nat} (hword : magnitude < UInt64.size) :
      Fits depth (.number (.integer negative magnitude))
  | string (depth : Nat) (text : String) : Fits depth (.string text)
  | array {depth : Nat} {items : List Json} (hitems : ∀ item ∈ items, Fits depth item) :
      Fits (depth + 1) (.array items)
  | object {depth : Nat} {members : List (String × Json)}
      (hmembers : ∀ member ∈ members, Fits depth member.2) : Fits (depth + 1) (.object members)

/-- A text does not continue a number in front of it. -/
def Stops (rest : List Char) : Prop :=
  ∀ c ∈ rest.head?, Text.isDecimal c = false ∧ c ≠ '.' ∧ c ≠ 'e' ∧ c ≠ 'E'

/-- A value at a level is read back from its printed form, and what follows it is left. -/
def ReadsBack (depth level : Nat) (value : Json) : Prop :=
  ∀ (budget : Nat) (rest : List Char), 2 * (valueChars level value).length ≤ budget → Stops rest →
    readValue budget depth (valueChars level value ++ rest) = .ok (value, rest)

theorem stops_nil : Stops [] := by
  intro c hc
  cases hc

theorem stops_cons {c : Char} {rest : List Char}
    (hc : Text.isDecimal c = false ∧ c ≠ '.' ∧ c ≠ 'e' ∧ c ≠ 'E') : Stops (c :: rest) := by
  intro first hfirst
  obtain rfl := Option.some.inj hfirst
  exact hc

/-! ## Strings -/

theorem stringBody_quote (rest : List Char) : stringBody ('"' :: rest) = .ok ([], rest) := by
  simp [stringBody.eq_def]

theorem stringBody_escape {letter plain : Char} (hletter : letter ≠ 'u')
    (hplain : simpleEscape? letter = some plain) (rest : List Char) :
    stringBody ('\\' :: letter :: rest) = pushChar plain (stringBody rest) := by
  rw [stringBody.eq_def]
  simp [hletter, hplain]

theorem stringBody_plain {c : Char} (hquote : c ≠ '"') (hbackslash : c ≠ '\\')
    (hplain : ¬ c.toNat < 0x20) (rest : List Char) :
    stringBody (c :: rest) = pushChar c (stringBody rest) := by
  rw [stringBody.eq_def]
  simp only [if_neg hquote, if_neg hbackslash, if_neg hplain]

theorem stringBody_unit {a b c d : Char} {value : Nat} (hunit : unit? a b c d = some value)
    (hvalue : isSurrogate value = false) (rest : List Char) :
    stringBody ('\\' :: 'u' :: a :: b :: c :: d :: rest) =
      pushChar (Char.ofNat value) (stringBody rest) := by
  rw [stringBody.eq_def]
  simp [hunit, hvalue]

/-- The four digits of a control character are its unit. -/
theorem unit?_of_control {value : Nat} (hvalue : value < 0x20) :
    unit? (Nat.digitChar (value / Nat.pow 16 3 % 16)) (Nat.digitChar (value / Nat.pow 16 2 % 16))
        (Nat.digitChar (value / Nat.pow 16 1 % 16)) (Nat.digitChar (value / Nat.pow 16 0 % 16)) =
      some value ∧ isSurrogate value = false := by
  revert value
  decide +kernel

/-- A character is printed as a letter after a backslash, as the four digits of a control character,
or as it is. -/
theorem escapeChar_cases (c : Char) :
    (∃ letter, letter ≠ 'u' ∧ simpleEscape? letter = some c ∧ escapeChar c = ['\\', letter]) ∨
    (c.toNat < 0x20 ∧ escapeChar c = '\\' :: 'u' :: Text.hexDigits 4 c.toNat) ∨
    (c ≠ '"' ∧ c ≠ '\\' ∧ ¬ c.toNat < 0x20 ∧ escapeChar c = [c]) := by
  unfold escapeChar
  split_ifs with hquote hbackslash hback hfeed hnewLine hreturn htab hcontrol
  · exact .inl ⟨'"', by decide, by rw [hquote]; rfl, rfl⟩
  · exact .inl ⟨'\\', by decide, by rw [hbackslash]; rfl, rfl⟩
  · exact .inl ⟨'b', by decide, by rw [hback]; rfl, rfl⟩
  · exact .inl ⟨'f', by decide, by rw [hfeed]; rfl, rfl⟩
  · exact .inl ⟨'n', by decide, by rw [hnewLine]; rfl, rfl⟩
  · exact .inl ⟨'r', by decide, by rw [hreturn]; rfl, rfl⟩
  · exact .inl ⟨'t', by decide, by rw [htab]; rfl, rfl⟩
  · exact .inr (.inl ⟨hcontrol, rfl⟩)
  · exact .inr (.inr ⟨hquote, hbackslash, hcontrol, rfl⟩)

/-- A printed character is read back. -/
theorem stringBody_escapeChar (c : Char) (rest : List Char) :
    stringBody (escapeChar c ++ rest) = pushChar c (stringBody rest) := by
  rcases escapeChar_cases c with ⟨letter, hletter, hplain, hprinted⟩ | ⟨hcontrol, hprinted⟩ |
    ⟨hquote, hbackslash, hplain, hprinted⟩
  · rw [hprinted]
    exact stringBody_escape hletter hplain rest
  · rw [hprinted]
    obtain ⟨hunit, hvalue⟩ := unit?_of_control hcontrol
    have hread := stringBody_unit hunit hvalue rest
    rwa [Char.ofNat_toNat] at hread
  · rw [hprinted]
    exact stringBody_plain hquote hbackslash hplain rest

theorem stringBody_flatMap (chars rest : List Char) :
    stringBody (chars.flatMap escapeChar ++ '"' :: rest) = .ok (chars, rest) := by
  induction chars with
  | nil => exact stringBody_quote rest
  | cons c chars ih =>
      rw [List.flatMap_cons, List.append_assoc, stringBody_escapeChar, ih]
      rfl

/-- A printed text is read back after its first quote. -/
theorem stringBody_quoted (text : String) (rest : List Char) :
    ∃ body, quoted text = '"' :: body ∧ stringBody (body ++ rest) = .ok (text.toList, rest) := by
  refine ⟨text.toList.flatMap escapeChar ++ ['"'], rfl, ?_⟩
  rw [List.append_assoc]
  exact stringBody_flatMap text.toList rest

/-! ## Numbers -/

/-- Digits are not left out of a number that fits into a word. -/
theorem leadingDigits_of_le {digits : List Char} {value : Nat}
    (hvalue : Text.digitsFrom 10 value digits ≤ leadingLimit) :
    leadingDigits value digits = (Text.digitsFrom 10 value digits, 0) := by
  induction digits generalizing value with
  | nil => rfl
  | cons c rest ih =>
      have hnext : value * 10 + (Text.digitValue? c).getD 0 ≤
          Text.digitsFrom 10 value (c :: rest) :=
        Text.le_digitsFrom 10 _ rest (by decide)
      rw [leadingDigits]
      simp only [if_pos (hnext.trans hvalue)]
      exact ih hvalue

theorem leadingDigits_toString {magnitude : Nat} (hword : magnitude < UInt64.size) :
    leadingDigits 0 (toString magnitude).toList = (magnitude, 0) := by
  have hvalue : Text.digitsFrom 10 0 (toString magnitude).toList = magnitude :=
    Text.digitsValue_toString magnitude
  rw [leadingDigits_of_le, hvalue]
  rw [hvalue, leadingLimit]
  omega

theorem fractionPart?_of_stops {rest : List Char} (hrest : Stops rest) :
    fractionPart? rest = .ok (none, rest) := by
  cases rest with
  | nil => rfl
  | cons c rest =>
      obtain ⟨-, hpoint, -⟩ := hrest c rfl
      unfold fractionPart?
      split
      · next heq => exact absurd (List.cons.inj heq).1 hpoint
      · rfl

theorem exponentPart?_of_stops {rest : List Char} (hrest : Stops rest) :
    exponentPart? rest = .ok (none, rest) := by
  cases rest with
  | nil => rfl
  | cons c rest =>
      obtain ⟨-, -, hsmall, hcapital⟩ := hrest c rfl
      exact if_neg (not_or.mpr ⟨hsmall, hcapital⟩)

/-- A printed number is read back. -/
theorem unsignedNumber_toString {magnitude : Nat} (hword : magnitude < UInt64.size)
    (negative : Bool) {rest : List Char} (hrest : Stops rest) :
    unsignedNumber negative ((toString magnitude).toList ++ rest) =
      .ok (.integer negative magnitude, rest) := by
  have hdigits : ∀ c ∈ (toString magnitude).toList, Text.isDecimal c = true :=
    fun c hc => Text.isDecimal_of_isDigit (Text.isDigit_of_mem_toString hc)
  have hafter : rest.takeWhile Text.isDecimal = [] ∧ rest.dropWhile Text.isDecimal = rest := by
    cases rest with
    | nil => exact ⟨rfl, rfl⟩
    | cons c rest => simp [(hrest c rfl).1]
  have htake : ((toString magnitude).toList ++ rest).takeWhile Text.isDecimal =
      (toString magnitude).toList := by
    rw [List.takeWhile_append_of_pos hdigits, hafter.1, List.append_nil]
  have hdrop : ((toString magnitude).toList ++ rest).dropWhile Text.isDecimal = rest := by
    rw [List.dropWhile_append_of_pos hdigits, hafter.2]
  have hzero : ((toString magnitude).toList.head? == some '0' &&
      decide (1 < (toString magnitude).toList.length)) = false := by
    rw [Bool.and_eq_false_iff, beq_eq_false_iff_ne, decide_eq_false_iff_not]
    by_cases hhead : (toString magnitude).toList.head? = some '0'
    · exact .inr (by rw [Text.length_toString_of_head? hhead]; decide)
    · exact .inl hhead
  have hnonempty : (toString magnitude).toList.isEmpty = false :=
    List.isEmpty_eq_false_iff.mpr (Text.toList_toString_ne_nil magnitude)
  simp only [unsignedNumber, htake, hdrop, hzero, hnonempty, fractionPart?_of_stops hrest,
    leadingDigits_toString hword, Bool.or_self, Bool.false_eq_true, if_false]
  change (exponentPart? rest >>= _) = _
  rw [exponentPart?_of_stops hrest]
  rfl

theorem readNumber_numberChars {magnitude : Nat} (hword : magnitude < UInt64.size)
    (negative : Bool) {rest : List Char} (hrest : Stops rest) :
    readNumber (numberChars (.integer negative magnitude) ++ rest) =
      .ok (.integer negative magnitude, rest) := by
  cases negative with
  | true => exact unsignedNumber_toString hword true hrest
  | false =>
      have hread := unsignedNumber_toString hword false hrest
      change readNumber ((toString magnitude).toList ++ rest) = _
      obtain ⟨c, digits, hchars⟩ :=
        List.exists_cons_of_ne_nil (Text.toList_toString_ne_nil magnitude)
      have hdigit : c.isDigit = true :=
        Text.isDigit_of_mem_toString (hchars ▸ List.mem_cons_self)
      have hsign : c ≠ '-' := by
        rintro rfl
        cases hdigit
      rw [hchars] at hread ⊢
      unfold readNumber
      split
      · next heq => exact absurd (List.cons.inj heq).1 hsign
      · exact hread

/-- A printed number begins with a sign or a digit. -/
theorem exists_numberChars_eq (number : JsonNumber) :
    ∃ c rest, numberChars number = c :: rest ∧ (c = '-' ∨ c.isDigit = true) := by
  have hsigned : ∀ (negative : Bool) (magnitude : Nat) (rest : List Char), ∃ c later,
      signChars negative ++ (toString magnitude).toList ++ rest = c :: later ∧
        (c = '-' ∨ c.isDigit = true) := by
    intro negative magnitude rest
    cases negative with
    | true => exact ⟨'-', _, rfl, .inl rfl⟩
    | false =>
        obtain ⟨c, digits, hchars⟩ :=
          List.exists_cons_of_ne_nil (Text.toList_toString_ne_nil magnitude)
        refine ⟨c, digits ++ rest, by rw [hchars]; rfl, .inr ?_⟩
        exact Text.isDigit_of_mem_toString (hchars ▸ List.mem_cons_self)
  cases number with
  | integer negative magnitude =>
      have hchars := hsigned negative magnitude []
      rwa [List.append_nil] at hchars
  | decimal negative coefficient exponent => exact hsigned negative coefficient _

/-! ## Space between tokens -/

theorem skipSpace_of_not_space {c : Char} (hc : isSpace c = false) (rest : List Char) :
    skipSpace (c :: rest) = c :: rest :=
  List.dropWhile_cons_of_neg (by simp [hc])

theorem skipSpace_newLine (level : Nat) (rest : List Char) :
    skipSpace (newLine level ++ rest) = skipSpace rest := by
  refine List.dropWhile_append_of_pos fun c hc => ?_
  rcases List.mem_cons.mp hc with rfl | hc
  · rfl
  · obtain rfl := List.eq_of_mem_replicate hc
    rfl

theorem stops_newLine (level : Nat) (rest : List Char) : Stops (newLine level ++ rest) :=
  stops_cons (by decide)

theorem not_space_of_isDigit {c : Char} (hdigit : c.isDigit = true) : isSpace c = false := by
  rw [Bool.eq_false_iff]
  intro hspace
  simp only [isSpace, Bool.or_eq_true, decide_eq_true_eq] at hspace
  rcases hspace with ((rfl | rfl) | rfl) | rfl <;> cases hdigit

/-- A printed value begins with a character that is no space and no closing bracket. -/
theorem exists_valueChars_eq (level : Nat) (value : Json) :
    ∃ c rest, valueChars level value = c :: rest ∧ isSpace c = false ∧ c ≠ ']' := by
  match value with
  | .null => exact ⟨'n', _, rfl, rfl, by decide⟩
  | .bool true => exact ⟨'t', _, rfl, rfl, by decide⟩
  | .bool false => exact ⟨'f', _, rfl, rfl, by decide⟩
  | .string text => exact ⟨'"', _, rfl, rfl, by decide⟩
  | .array [] => exact ⟨'[', _, rfl, rfl, by decide⟩
  | .array (item :: items) => exact ⟨'[', _, rfl, rfl, by decide⟩
  | .object [] => exact ⟨'\x7b', _, rfl, rfl, by decide⟩
  | .object ((name, inner) :: members) => exact ⟨'\x7b', _, rfl, rfl, by decide⟩
  | .number written =>
      obtain ⟨c, rest, hchars, rfl | hdigit⟩ := exists_numberChars_eq written
      · exact ⟨'-', rest, hchars, rfl, by decide⟩
      · refine ⟨c, rest, hchars, not_space_of_isDigit hdigit, ?_⟩
        rintro rfl
        cases hdigit

theorem skipSpace_valueChars (level : Nat) (value : Json) (rest : List Char) :
    skipSpace (valueChars level value ++ rest) = valueChars level value ++ rest := by
  obtain ⟨c, later, hchars, hspace, -⟩ := exists_valueChars_eq level value
  rw [hchars]
  exact skipSpace_of_not_space hspace _

theorem length_valueChars_pos (level : Nat) (value : Json) :
    0 < (valueChars level value).length := by
  obtain ⟨c, later, hchars, -⟩ := exists_valueChars_eq level value
  rw [hchars]
  exact Nat.succ_pos _

/-! ## Elements with commas between them -/

section Elements

variable {α : Type} {close : Char} {readOne : Nat → List Char → Except Fault (α × List Char)}
  {readAll : Nat → List Char → Except Fault (List α × List Char)} {printed : α → List Char}

/-- What readers of items and of members have in common: they read an element, and then either the
closing character or a comma and more elements. -/
def ReadsElements (close : Char) (readOne : Nat → List Char → Except Fault (α × List Char))
    (readAll : Nat → List Char → Except Fault (List α × List Char)) : Prop :=
  ∀ budget chars, readAll (budget + 1) chars = do
    let (element, rest) ← readOne budget chars
    match skipSpace rest with
    | [] => throw .endOfText
    | c :: rest =>
        if c = close then return ([element], rest)
        else if c = ',' then
          let (elements, rest) ← readAll budget (skipSpace rest)
          return (element :: elements, rest)
        else throw (.unexpected c)

/-- An element is read back from its printed form, which does not begin with space. -/
structure ElementReadsBack (readOne : Nat → List Char → Except Fault (α × List Char))
    (printed : α → List Char) (element : α) : Prop where
  reads : ∀ budget rest, 2 * (printed element).length ≤ budget → Stops rest →
    readOne budget (printed element ++ rest) = .ok (element, rest)
  begins : ∀ rest, skipSpace (printed element ++ rest) = printed element ++ rest

theorem ReadsElements.last (hreads : ReadsElements close readOne readAll) {budget : Nat}
    {chars after rest : List Char} {element : α}
    (hone : readOne budget chars = .ok (element, after))
    (hafter : skipSpace after = close :: rest) :
    readAll (budget + 1) chars = .ok ([element], rest) := by
  rw [hreads, hone]
  simp only [bind, Except.bind, hafter, if_true]
  rfl

theorem ReadsElements.more (hreads : ReadsElements close readOne readAll) (hclose : close ≠ ',')
    {budget : Nat} {chars after next rest : List Char} {element : α} {elements : List α}
    (hone : readOne budget chars = .ok (element, after)) (hafter : skipSpace after = ',' :: next)
    (hall : readAll budget (skipSpace next) = .ok (elements, rest)) :
    readAll (budget + 1) chars = .ok (element :: elements, rest) := by
  rw [hreads, hone]
  simp only [bind, Except.bind, hafter, if_neg hclose.symm, if_true, hall]
  rfl

/-- The elements after the first one, each on a line of its own after a comma. -/
def laterElements (printed : α → List Char) (level : Nat) (others : List α) : List Char :=
  others.flatMap fun other => ',' :: newLine level ++ printed other

theorem laterElements_cons (level : Nat) (second : α) (others : List α) :
    laterElements printed level (second :: others) =
      ',' :: (newLine level ++ (printed second ++ laterElements printed level others)) := by
  simp [laterElements]

/-- Printed elements are read back, up to the closing character. -/
theorem ReadsElements.elements (hreads : ReadsElements close readOne readAll)
    (hcomma : close ≠ ',') (hspace : isSpace close = false) (level outer : Nat) (rest : List Char)
    (others : List α) {first : α} {budget : Nat}
    (helements : ∀ element ∈ first :: others, ElementReadsBack readOne printed element)
    (hbudget : 2 * ((printed first).length + (laterElements printed level others).length) + 1 ≤
      budget) :
    readAll budget (printed first ++ (laterElements printed level others ++
      (newLine outer ++ close :: rest))) = .ok (first :: others, rest) := by
  -- each element costs one call, and its comma, which is read with it, pays for that
  induction others generalizing first budget with
  | nil =>
      obtain ⟨budget, rfl⟩ := Nat.exists_eq_succ_of_ne_zero (n := budget) (by omega)
      obtain ⟨hfirst, -⟩ := helements first List.mem_cons_self
      change readAll _ (printed first ++ (newLine outer ++ close :: rest)) = _
      refine hreads.last (hfirst budget _ (by omega) (stops_newLine outer _)) ?_
      rw [skipSpace_newLine, skipSpace_of_not_space hspace]
  | cons second others ih =>
      obtain ⟨budget, rfl⟩ := Nat.exists_eq_succ_of_ne_zero (n := budget) (by omega)
      obtain ⟨hfirst, -⟩ := helements first List.mem_cons_self
      obtain ⟨-, hsecond⟩ := helements second (List.mem_cons_of_mem _ List.mem_cons_self)
      rw [laterElements_cons] at hbudget ⊢
      simp only [List.length_cons, List.length_append] at hbudget
      rw [List.cons_append]
      refine hreads.more hcomma (hfirst budget _ (by omega) (stops_cons (by decide)))
        (skipSpace_of_not_space (by decide) _) ?_
      rw [List.append_assoc, List.append_assoc, skipSpace_newLine, hsecond]
      exact ih (fun element helement => helements element (List.mem_cons_of_mem _ helement))
        (by omega)

end Elements

/-! ## Values -/

section Values

variable {depth level : Nat}

theorem readsElements_items (depth : Nat) :
    ReadsElements ']' (readValue · depth) (readItems · depth) :=
  fun _ _ => rfl

/-- Reads a member. -/
def readMember (budget depth : Nat) (chars : List Char) :
    Except Fault ((String × Json) × List Char) := do
  let rest ← afterWord ['"'] chars
  let (name, rest) ← stringBody rest
  let rest ← afterWord [':'] (skipSpace rest)
  let (value, rest) ← readValue budget depth (skipSpace rest)
  return ((String.ofList name, value), rest)

theorem readsElements_members (depth : Nat) :
    ReadsElements '\x7d' (readMember · depth) (readMembers · depth) := by
  intro budget chars
  change readMembers (budget + 1) depth chars = (readMember budget depth chars >>= _)
  unfold readMembers readMember
  -- a fault of any part is the fault of both sides
  cases afterWord ['"'] chars with
  | error fault => rfl
  | ok rest =>
      cases hname : stringBody rest with
      | error fault => simp [bind, Except.bind, hname]
      | ok read =>
          obtain ⟨name, rest⟩ := read
          cases hcolon : afterWord [':'] (skipSpace rest) with
          | error fault => simp [bind, Except.bind, hname, hcolon]
          | ok rest =>
              cases hvalue : readValue budget depth (skipSpace rest) with
              | error fault => simp [bind, Except.bind, hname, hcolon, hvalue]
              | ok read => simp [bind, Except.bind, hname, hcolon, hvalue]; rfl

/-- A printed member. -/
def memberChars (level : Nat) (member : String × Json) : List Char :=
  quoted member.1 ++ ':' :: ' ' :: valueChars level member.2

theorem itemsChars_eq (items : List Json) :
    itemsChars level items = laterElements (valueChars level) level items := by
  induction items with
  | nil => rfl
  | cons item items ih => simp [itemsChars, ih, laterElements]

theorem membersChars_eq (members : List (String × Json)) :
    membersChars level members = laterElements (memberChars level) level members := by
  induction members with
  | nil => rfl
  | cons member members ih =>
      obtain ⟨name, value⟩ := member
      simp [membersChars, ih, laterElements, memberChars]

/-- There is a call to spend on the value itself. -/
theorem readsBack_of_succ {value : Json}
    (hread : ∀ budget rest, 2 * (valueChars level value).length ≤ budget + 1 → Stops rest →
      readValue (budget + 1) depth (valueChars level value ++ rest) = .ok (value, rest)) :
    ReadsBack depth level value := by
  intro budget rest hbudget hrest
  have hpositive := length_valueChars_pos level value
  obtain ⟨budget, rfl⟩ := Nat.exists_eq_succ_of_ne_zero (n := budget) (by omega)
  exact hread budget rest hbudget hrest

theorem readValue_number {c : Char} (hc : c = '-' ∨ c.isDigit = true) (budget : Nat)
    (rest : List Char) : readValue (budget + 1) depth (c :: rest) =
      (readNumber (c :: rest)).map fun read => (.number read.1, read.2) := by
  have hnumber : (decide (c = '-') || Text.isDecimal c) = true := by
    rcases hc with rfl | hdigit
    · rfl
    · rw [Text.isDecimal_of_isDigit hdigit, Bool.or_true]
  have hother : ∀ other ∈ ['"', '[', '\x7b', 't', 'f', 'n'], c ≠ other := by
    rintro other hmem rfl
    simp only [List.mem_cons, List.not_mem_nil, or_false] at hmem
    rcases hc with rfl | hdigit
    · rcases hmem with h | h | h | h | h | h <;> cases h
    · rcases hmem with rfl | rfl | rfl | rfl | rfl | rfl <;> cases hdigit
  unfold readValue
  rw [if_neg (hother '"' (by decide)), if_neg (hother '[' (by decide)),
    if_neg (hother '\x7b' (by decide)), if_neg (hother 't' (by decide)),
    if_neg (hother 'f' (by decide)), if_neg (hother 'n' (by decide)), if_pos hnumber]
  cases readNumber (c :: rest) <;> rfl

theorem readsBack_number {negative : Bool} {magnitude : Nat} (hword : magnitude < UInt64.size) :
    ReadsBack depth level (.number (.integer negative magnitude)) := by
  refine readsBack_of_succ fun budget rest _ hrest => ?_
  have hread := readNumber_numberChars hword negative hrest
  change readValue (budget + 1) depth (numberChars (.integer negative magnitude) ++ rest) = _
  obtain ⟨c, later, hchars, hc⟩ := exists_numberChars_eq (.integer negative magnitude)
  rw [hchars, List.cons_append] at hread ⊢
  rw [readValue_number hc, hread]
  rfl

theorem readsBack_string (text : String) : ReadsBack depth level (.string text) := by
  refine readsBack_of_succ fun budget rest _ _ => ?_
  obtain ⟨body, hquoted, hbody⟩ := stringBody_quoted text rest
  change readValue (budget + 1) depth (quoted text ++ rest) = _
  rw [hquoted]
  change (stringBody (body ++ rest) >>= _) = _
  rw [hbody]
  simp [bind, Except.bind, pure, Except.pure]

/-- Items after an opening bracket, on a new line. -/
theorem readValue_bracket (outer : Nat) {budget : Nat} {chars rest : List Char} {items : List Json}
    (hitems : readItems budget depth chars = .ok (items, rest))
    (hbegins : ∃ c later, chars = c :: later ∧ isSpace c = false ∧ c ≠ ']') :
    readValue (budget + 1) (depth + 1) ('[' :: (newLine outer ++ chars)) =
      .ok (.array items, rest) := by
  obtain ⟨c, later, rfl, hspace, hbracket⟩ := hbegins
  have hskip : skipSpace (newLine outer ++ c :: later) = c :: later := by
    rw [skipSpace_newLine, skipSpace_of_not_space hspace]
  unfold readValue
  rw [if_neg (by decide), if_pos rfl]
  simp only [hskip]
  split
  · next heq => exact absurd (List.cons.inj heq).1 hbracket
  · rw [hitems]
    rfl

/-- Members after an opening brace, on a new line. -/
theorem readValue_brace (outer : Nat) {budget : Nat} {chars rest : List Char}
    {members : List (String × Json)}
    (hmembers : readMembers budget depth chars = .ok (members, rest))
    (hbegins : ∃ later, chars = '"' :: later) :
    readValue (budget + 1) (depth + 1) ('\x7b' :: (newLine outer ++ chars)) =
      .ok (.object members, rest) := by
  obtain ⟨later, rfl⟩ := hbegins
  have hskip : skipSpace (newLine outer ++ '"' :: later) = '"' :: later := by
    rw [skipSpace_newLine, skipSpace_of_not_space (by decide)]
  unfold readValue
  rw [if_neg (by decide), if_neg (by decide), if_pos rfl]
  simp only [hskip]
  change (readMembers budget depth ('"' :: later) >>= _) = _
  rw [hmembers]
  rfl

theorem readsBack_array {items : List Json}
    (hitems : ∀ item ∈ items, ReadsBack depth (level + 1) item) :
    ReadsBack (depth + 1) level (.array items) := by
  refine readsBack_of_succ fun budget rest hbudget _ => ?_
  cases items with
  | nil => rfl
  | cons item items =>
      simp only [valueChars, itemsChars_eq, List.length_cons, List.length_append] at hbudget
      have hread : readItems budget depth (valueChars (level + 1) item ++
          (laterElements (valueChars (level + 1)) (level + 1) items ++
            (newLine level ++ ']' :: rest))) = .ok (item :: items, rest) :=
        (readsElements_items depth).elements (by decide) (by decide) (level + 1) level rest items
          (fun item hitem => ⟨hitems item hitem, skipSpace_valueChars (level + 1) item⟩) (by omega)
      obtain ⟨c, later, hchars, hspace, hbracket⟩ := exists_valueChars_eq (level + 1) item
      have hall := readValue_bracket (level + 1) hread
        ⟨c, _, by rw [hchars]; rfl, hspace, hbracket⟩
      simpa [valueChars, itemsChars_eq] using hall

/-- A printed member is read back when its value is. -/
theorem readsBack_member {name : String} {value : Json} (hvalue : ReadsBack depth level value) :
    ElementReadsBack (readMember · depth) (memberChars level) (name, value) := by
  constructor
  · intro budget rest hbudget hrest
    simp only [memberChars, List.length_append, List.length_cons] at hbudget
    have hread := hvalue budget rest (by omega) hrest
    obtain ⟨body, hquoted, hbody⟩ :=
      stringBody_quoted name (':' :: ' ' :: (valueChars level value ++ rest))
    have hskip : skipSpace (' ' :: (valueChars level value ++ rest)) =
        valueChars level value ++ rest := skipSpace_valueChars level value rest
    rw [memberChars, List.append_assoc, hquoted]
    change (stringBody (body ++ ':' :: ' ' :: (valueChars level value ++ rest)) >>= _) = _
    rw [hbody]
    change (readValue budget depth (skipSpace (' ' :: (valueChars level value ++ rest))) >>= _) = _
    rw [hskip, hread]
    simp [bind, Except.bind, pure, Except.pure]
  · intro rest
    exact skipSpace_of_not_space (by decide) _

theorem readsBack_object {members : List (String × Json)}
    (hmembers : ∀ member ∈ members, ReadsBack depth (level + 1) member.2) :
    ReadsBack (depth + 1) level (.object members) := by
  refine readsBack_of_succ fun budget rest hbudget _ => ?_
  match members with
  | [] => rfl
  | (name, value) :: members =>
      simp only [valueChars, membersChars_eq, List.length_cons, List.length_append] at hbudget
      have hread : readMembers budget depth (memberChars (level + 1) (name, value) ++
          (laterElements (memberChars (level + 1)) (level + 1) members ++
            (newLine level ++ '\x7d' :: rest))) = .ok ((name, value) :: members, rest) :=
        (readsElements_members depth).elements (by decide) (by decide) (level + 1) level rest
          members (fun member hmember => readsBack_member (hmembers member hmember))
          (by simp only [memberChars, List.length_append, List.length_cons]; omega)
      have hall := readValue_brace (level + 1) hread ⟨_, rfl⟩
      simpa [valueChars, membersChars_eq, memberChars] using hall

end Values

/-- Every value that fits is read back, at any level. -/
theorem Fits.readsBack {depth : Nat} {value : Json} (hfits : Fits depth value) (level : Nat) :
    ReadsBack depth level value := by
  induction hfits generalizing level with
  | null depth => exact readsBack_of_succ fun _ _ _ _ => rfl
  | bool depth value =>
      cases value with
      | true => exact readsBack_of_succ fun _ _ _ _ => rfl
      | false => exact readsBack_of_succ fun _ _ _ _ => rfl
  | integer depth negative hword => exact readsBack_number hword
  | string depth text => exact readsBack_string text
  | array hitems ih => exact readsBack_array fun item hitem => ih item hitem (level + 1)
  | object hmembers ih => exact readsBack_object fun member hmember => ih member hmember (level + 1)

/-- **A printed value is read back as it was.** -/
theorem parse_pretty {value : Json} (hfits : Fits maxDepth value) :
    parse value.pretty = .ok value := by
  have hskip : skipSpace (valueChars 0 value) = valueChars 0 value := by
    simpa using skipSpace_valueChars 0 value []
  have hread := hfits.readsBack 0 (2 * (valueChars 0 value).length + 2) [] (by omega) stops_nil
  rw [List.append_nil] at hread
  simp only [parse, pretty, String.toList_ofList, hskip]
  rw [hread]
  rfl

end Rollout.Json
