import Mathlib.Computability.Language
import Rollout.Proofs.Config.Usable

/-!
# Labels of domain names

A label consists of lowercase letters, digits and hyphens, and begins and ends with a letter or
digit.  Namespaces are labels of at most sixty-three characters.

## Strategy

Labels are described twice, by a grammar (`labels`) and by what their characters are (`IsLabel`).  A
word of the grammar is one letter or digit, or begins with one, ends with another and has anything
that is allowed between them; those are the labels (`mem_labels_iff`).  A name without dots is one
of them (`isName_iff_isLabel`), and the rule for names reports the first of its requirements that
is broken (`require_name_eq_error_iff`).
-/

namespace Rollout

open Requirement (AllHold FirstBroken)
open scoped Computability

/-! ## The grammar -/

/-- A character that may stand inside a label. -/
def IsLabelChar (c : Char) : Prop := IsLowerOrDigit c ∨ c = '-'

/-- The words of one allowed character. -/
def oneOf (allowed : Char → Prop) : Language Char := { word | ∃ c, allowed c ∧ word = [c] }

/-- The words of the expression `[a-z0-9]([a-z0-9-]*[a-z0-9])?`. -/
def labels : Language Char :=
  oneOf IsLowerOrDigit * (1 + (oneOf IsLabelChar)∗ * oneOf IsLowerOrDigit)

/-- What the characters of a label are.  It is not empty, since it has ends. -/
structure IsLabel (label : List Char) : Prop where
  alphabet : ∀ c ∈ label, IsLabelChar c
  first : ∃ c ∈ label.head?, IsLowerOrDigit c
  last : ∃ c ∈ label.getLast?, IsLowerOrDigit c

/-! ## Words of the grammar -/

theorem mem_kstar_oneOf_iff (allowed : Char → Prop) (word : List Char) :
    word ∈ (oneOf allowed)∗ ↔ ∀ c ∈ word, allowed c := by
  rw [Language.mem_kstar]
  constructor
  · rintro ⟨pieces, rfl, hpieces⟩ c hc
    obtain ⟨piece, hpiece, hmem⟩ := List.mem_flatten.mp hc
    obtain ⟨_, hallowed, rfl⟩ := hpieces piece hpiece
    rwa [List.mem_singleton.mp hmem]
  · intro hword
    refine ⟨word.map fun c => [c], by simp [← List.flatMap_def], fun piece hpiece => ?_⟩
    obtain ⟨c, hc, rfl⟩ := List.mem_map.mp hpiece
    exact ⟨c, hword c hc, rfl⟩

theorem isLabel_singleton {c : Char} (hc : IsLowerOrDigit c) : IsLabel [c] where
  alphabet _ hother := .inl (List.mem_singleton.mp hother ▸ hc)
  first := ⟨c, rfl, hc⟩
  last := ⟨c, rfl, hc⟩

theorem isLabel_of_ends {first last : Char} {inner : List Char} (hfirst : IsLowerOrDigit first)
    (hinner : ∀ c ∈ inner, IsLabelChar c) (hlast : IsLowerOrDigit last) :
    IsLabel (first :: (inner ++ [last])) where
  alphabet := by
    rw [List.forall_mem_cons, List.forall_mem_append]
    exact ⟨.inl hfirst, hinner, (isLabel_singleton hlast).alphabet⟩
  first := ⟨first, rfl, hfirst⟩
  last := ⟨last, by simp [List.getLast?_cons], hlast⟩

/-- The words of the grammar are the labels. -/
theorem mem_labels_iff (label : List Char) : label ∈ labels ↔ IsLabel label := by
  simp only [labels, Language.mem_mul, Language.mem_add, Language.mem_one, mem_kstar_oneOf_iff]
  constructor
  · rintro ⟨_, ⟨first, hfirst, rfl⟩, _, rfl | ⟨inner, hinner, _, ⟨last, hlast, rfl⟩, rfl⟩, rfl⟩
    · exact isLabel_singleton hfirst
    · exact isLabel_of_ends hfirst hinner hlast
  · rintro ⟨halphabet, ⟨first, hfirst, hfirm⟩, ⟨last, hlast, hfirm'⟩⟩
    obtain ⟨rest, rfl⟩ := List.head?_eq_some_iff.mp hfirst
    refine ⟨[first], ⟨first, hfirm, rfl⟩, rest, ?_, rfl⟩
    -- what follows the first character is empty or has a last one
    rcases rest.eq_nil_or_concat with rfl | ⟨inner, other, rfl⟩
    · exact .inl rfl
    · rw [List.concat_eq_append] at halphabet hlast ⊢
      obtain rfl : other = last := by simpa [List.getLast?_cons] using hlast
      exact .inr ⟨inner, fun c hc => halphabet c (by simp [hc]), [other], ⟨other, hfirm', rfl⟩, rfl⟩

/-! ## Names -/

section names

variable (field value : String) (greatest : Nat) (dots : Bool)

theorem require_name_eq_ok_iff :
    Rules.require field value (Rules.nameFault? greatest dots value) = .ok () ↔
      IsName greatest dots value := by
  rw [← check_nameRequirements, Requirement.check_eq_ok_iff, allHold_nameRequirements]

theorem require_name_eq_error_iff (error : Failure) :
    Rules.require field value (Rules.nameFault? greatest dots value) = .error error ↔
      FirstBroken (nameRequirements field value greatest dots) error := by
  rw [← check_nameRequirements, Requirement.check_eq_error_iff]

theorem isNameChar_false_iff (c : Char) : IsNameChar false c ↔ IsLabelChar c := by
  simp [IsNameChar, IsLabelChar]

/-- A name without dots is a label. -/
theorem isName_iff_isLabel :
    IsName greatest false value ↔ value.length ≤ greatest ∧ IsLabel value.toList := by
  constructor
  · rintro ⟨hlength, halphabet, first, hfirst, last, hlast, hfirm, hfirm'⟩
    exact ⟨hlength, fun c hc => (isNameChar_false_iff c).mp (halphabet c hc),
      ⟨first, hfirst, hfirm⟩, ⟨last, hlast, hfirm'⟩⟩
  · rintro ⟨hlength, halphabet, ⟨first, hfirst, hfirm⟩, ⟨last, hlast, hfirm'⟩⟩
    exact ⟨hlength, fun c hc => (isNameChar_false_iff c).mpr (halphabet c hc),
      first, hfirst, last, hlast, hfirm, hfirm'⟩

variable {value greatest dots}

/-- A name without dots stays one where dots or more characters are allowed. -/
theorem IsName.mono {larger : Nat} (hname : IsName greatest false value)
    (hle : greatest ≤ larger) : IsName larger dots value where
  length_le := hname.length_le.trans hle
  alphabet c hc := by
    rcases hname.alphabet c hc with hfirm | hhyphen | ⟨hfalse, -⟩
    · exact .inl hfirm
    · exact .inr (.inl hhyphen)
    · exact absurd hfalse (by decide)
  ends := hname.ends

/-- Characters of names are ASCII. -/
theorem toNat_lt_of_isNameChar {c : Char} (hc : IsNameChar dots c) : c.toNat < 128 :=
  Nat.lt_succ_of_le (Char.utf8Size_eq_one_iff.mp (utf8Size_of_isNameChar hc))

/-- A name with a character beyond ASCII is too long by its bytes or else has a bad character. -/
theorem require_name_of_not_ascii {c : Char} (hc : c ∈ value.toList) (hbeyond : 128 ≤ c.toNat) :
    Rules.require field value (Rules.nameFault? greatest dots value) =
      .error (.invalidValue field value
        (if greatest < value.utf8ByteSize then .badLength greatest else .badCharacter dots)) := by
  have hnonempty : value.utf8ByteSize ≠ 0 := by
    intro hzero
    rw [String.utf8ByteSize_eq_zero_iff.mp hzero] at hc
    simp at hc
  rw [← check_nameRequirements, nameRequirements]
  by_cases hlong : greatest < value.utf8ByteSize
  · rw [Requirement.check_cons_of_broken _ (by simp only; omega), if_pos hlong]
  · rw [Requirement.check_cons_of_holds _ (by simp only; omega), if_neg hlong]
    refine Requirement.check_cons_of_broken _ fun halphabet => ?_
    exact absurd (toNat_lt_of_isNameChar (halphabet c hc)) (by omega)

end names

/-! ## Namespaces -/

/-- **Namespaces are the labels of at most sixty-three characters.**  What else is given for one is
refused with the first of three reasons, its length in bytes, its alphabet or its ends; so a text
beyond ASCII is too long if it has more than sixty-three bytes, and otherwise has a bad character.
Every namespace could be the name of an object as well. -/
theorem namespaces_are_short_labels (field value : String) :
    let verdict := Rules.require field value (Rules.namespaceFault? value)
    (verdict = .ok () ↔ value.length ≤ 63 ∧ IsLabel value.toList) ∧
      (IsLabel value.toList ↔ value.toList ∈ labels) ∧
      (∀ error, verdict = .error error ↔
        FirstBroken [
          { holds := 1 ≤ value.utf8ByteSize ∧ value.utf8ByteSize ≤ 63
            error := .invalidValue field value (.badLength 63) },
          { holds := ∀ c ∈ value.toList, IsNameChar false c
            error := .invalidValue field value (.badCharacter false) },
          { holds := HasFirmEnds value
            error := .invalidValue field value .badEnds }] error) ∧
      (∀ c ∈ value.toList, 128 ≤ c.toNat → verdict = .error (.invalidValue field value
        (if 63 < value.utf8ByteSize then .badLength 63 else .badCharacter false))) ∧
      (verdict = .ok () → ∀ other,
        Rules.require other value (Rules.objectNameFault? value) = .ok ()) := by
  refine ⟨?_, (mem_labels_iff _).symm, require_name_eq_error_iff field value 63 false,
    fun c hc hbeyond => require_name_of_not_ascii field hc hbeyond, fun haccepted other => ?_⟩
  · exact (require_name_eq_ok_iff field value 63 false).trans (isName_iff_isLabel value 63)
  · have hname := (require_name_eq_ok_iff field value 63 false).mp haccepted
    exact (require_name_eq_ok_iff other value 253 true).mpr (hname.mono (by decide))

/-- A label is a namespace and the name of an object.  A text of sixty-six bytes beyond ASCII is too
long for one. -/
theorem verdicts_on_namespaces :
    Rules.require "namespace" "spire-demo" (Rules.namespaceFault? "spire-demo") = .ok () ∧
      Rules.require "resource" "spire-demo" (Rules.objectNameFault? "spire-demo") = .ok () ∧
      Rules.require "namespace" "日日日日日日日日日日日日日日日日日日日日日日"
          (Rules.namespaceFault? "日日日日日日日日日日日日日日日日日日日日日日") =
        .error (.invalidValue "namespace" "日日日日日日日日日日日日日日日日日日日日日日"
          (.badLength 63)) := by
  have haccepted : Rules.require "namespace" "spire-demo" (Rules.namespaceFault? "spire-demo") =
      .ok () := by
    decide +kernel
  obtain ⟨-, -, -, -, hobject⟩ := namespaces_are_short_labels "namespace" "spire-demo"
  obtain ⟨-, -, -, hbeyond, -⟩ :=
    namespaces_are_short_labels "namespace" "日日日日日日日日日日日日日日日日日日日日日日"
  exact ⟨haccepted, hobject haccepted "resource",
    hbeyond '日' (by decide +kernel) (by decide +kernel)⟩

end Rollout
