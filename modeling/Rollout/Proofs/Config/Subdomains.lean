import Mathlib.Data.List.Chain
import Rollout.Proofs.Config.Labels

/-!
# Names of objects and subdomains

A subdomain is a sequence of labels with dots between them, of at most 253 characters.  The rule for
names of objects looks at the two ends of a name but not at the ends of each label, so it accepts
every subdomain and other names besides: those in which a dot stands beside a dot or a hyphen.

## Strategy

The first dot of a text takes off one label.  The text before it is a label and the text after it
has firm ends and firm dots exactly when the whole has firm ends and firm dots
(`isDotted_append_dot_iff`), so by induction along the dots everything between them is a label
(`forall_labelsOf_iff`).
-/

namespace Rollout

/-! ## Subdomains -/

/-- What stands between the dots of a text. -/
def labelsOf (chars : List Char) : List (List Char) := chars.splitOn '.'

/-- Labels with dots between them, with at most 253 characters in all. -/
structure IsSubdomain (value : String) : Prop where
  length_le : value.length ≤ 253
  labels : ∀ label ∈ labelsOf value.toList, IsLabel label

/-- Of two characters that stand side by side, the one beside a dot is a letter or digit. -/
def FirmBeside (a b : Char) : Prop :=
  (a = '.' → IsLowerOrDigit b) ∧ (b = '.' → IsLowerOrDigit a)

/-- Letters and digits stand on both sides of every dot. -/
def HasFirmDots (value : String) : Prop := value.toList.IsChain FirmBeside

/-! ## Texts with dots -/

/-- The characters of a name whose dots are firm. -/
structure IsDotted (chars : List Char) : Prop where
  alphabet : ∀ c ∈ chars, IsNameChar true c
  first : ∃ c ∈ chars.head?, IsLowerOrDigit c
  last : ∃ c ∈ chars.getLast?, IsLowerOrDigit c
  dots : chars.IsChain FirmBeside

theorem not_isLowerOrDigit_dot : ¬ IsLowerOrDigit '.' := by decide

theorem isNameChar_true_iff (c : Char) : IsNameChar true c ↔ IsLabelChar c ∨ c = '.' := by
  simp [IsNameChar, IsLabelChar, or_assoc]

section

variable {label rest : List Char} (hlabel : '.' ∉ label)

include hlabel

theorem isDotted_iff_of_notMem : IsDotted label ↔ IsLabel label := by
  constructor
  · rintro ⟨halphabet, hfirst, hlast, -⟩
    refine ⟨fun c hc => ?_, hfirst, hlast⟩
    have hdot : c ≠ '.' := ne_of_mem_of_not_mem hc hlabel
    exact ((isNameChar_true_iff c).mp (halphabet c hc)).resolve_right hdot
  · rintro ⟨halphabet, hfirst, hlast⟩
    refine ⟨fun c hc => (isNameChar_true_iff c).mpr (.inl (halphabet c hc)), hfirst, hlast, ?_⟩
    refine (List.pairwise_of_forall_mem_list fun a ha b hb => ?_).isChain
    exact ⟨fun h => absurd (h ▸ ha) hlabel, fun h => absurd (h ▸ hb) hlabel⟩

theorem isLabel_of_append_dot (hdotted : IsDotted (label ++ '.' :: rest)) : IsLabel label := by
  obtain ⟨hbefore, -, hbeside⟩ := List.isChain_append.mp hdotted.dots
  -- the text does not begin with the dot
  have hnonempty : label ≠ [] := by
    rintro rfl
    obtain ⟨first, hfirst, hfirm⟩ := hdotted.first
    exact not_isLowerOrDigit_dot (Option.some.inj hfirst ▸ hfirm)
  have hend := List.getLast?_eq_some_getLast hnonempty
  refine (isDotted_iff_of_notMem hlabel).mp ⟨?_, ?_, ⟨_, hend, ?_⟩, hbefore⟩
  · exact (List.forall_mem_append.mp hdotted.alphabet).1
  · have hfirst := hdotted.first
    rwa [List.head?_append_of_ne_nil _ hnonempty] at hfirst
  · exact (hbeside _ hend '.' rfl).2 rfl

omit hlabel in
theorem isDotted_of_append_dot (hdotted : IsDotted (label ++ '.' :: rest)) : IsDotted rest := by
  obtain ⟨-, hafter, -⟩ := List.isChain_append.mp hdotted.dots
  obtain ⟨hbeside, hdots⟩ := List.isChain_cons.mp hafter
  have hlast := hdotted.last
  rw [List.getLast?_append_of_ne_nil _ (List.cons_ne_nil _ _)] at hlast
  -- the text does not end with the dot
  have hnonempty : rest ≠ [] := by
    rintro rfl
    obtain ⟨last, hlast, hfirm⟩ := hlast
    obtain rfl : '.' = last := by simpa using hlast
    exact not_isLowerOrDigit_dot hfirm
  have hstart := List.head?_eq_some_head hnonempty
  refine ⟨?_, ⟨_, hstart, (hbeside _ hstart).1 rfl⟩, ?_, hdots⟩
  · exact (List.forall_mem_cons.mp (List.forall_mem_append.mp hdotted.alphabet).2).2
  · rwa [List.getLast?_cons_of_ne_nil hnonempty] at hlast

theorem isDotted_append_dot (hword : IsLabel label) (hrest : IsDotted rest) :
    IsDotted (label ++ '.' :: rest) := by
  have hbefore := (isDotted_iff_of_notMem hlabel).mpr hword
  obtain ⟨first, hfirst, hfirm⟩ := hword.first
  obtain ⟨last, hlast, hfirm'⟩ := hrest.last
  refine ⟨?_, ⟨first, ?_, hfirm⟩, ⟨last, ?_, hfirm'⟩, ?_⟩
  · rw [List.forall_mem_append, List.forall_mem_cons]
    exact ⟨hbefore.alphabet, (isNameChar_true_iff '.').mpr (.inr rfl), hrest.alphabet⟩
  · simp [Option.mem_def.mp hfirst]
  · simp [List.getLast?_append, List.getLast?_cons, Option.mem_def.mp hlast]
  · rw [List.isChain_append, List.isChain_cons]
    refine ⟨hbefore.dots, ⟨?_, hrest.dots⟩, ?_⟩
    · obtain ⟨after, hafter, hfirm⟩ := hrest.first
      intro c hc
      obtain rfl := Option.some.inj (hc.symm.trans hafter)
      exact ⟨fun _ => hfirm, fun h => absurd (h ▸ hfirm) not_isLowerOrDigit_dot⟩
    · obtain ⟨before, hend, hfirm⟩ := hword.last
      intro c hc dot hdot
      obtain rfl := Option.some.inj (hc.symm.trans hend)
      obtain rfl := Option.some.inj hdot
      exact ⟨fun h => absurd (h ▸ hfirm) not_isLowerOrDigit_dot, fun _ => hfirm⟩

/-- The first dot divides a label from a text of the same sort. -/
theorem isDotted_append_dot_iff :
    IsDotted (label ++ '.' :: rest) ↔ IsLabel label ∧ IsDotted rest :=
  ⟨fun hdotted => ⟨isLabel_of_append_dot hlabel hdotted, isDotted_of_append_dot hdotted⟩,
    fun h => isDotted_append_dot hlabel h.1 h.2⟩

end

/-- Everything between the dots of a text is a label exactly when the text has firm ends and firm
dots. -/
theorem forall_labelsOf_iff (chars : List Char) :
    (∀ label ∈ labelsOf chars, IsLabel label) ↔ IsDotted chars := by
  induction hlength : chars.length using Nat.strong_induction_on generalizing chars with
  | _ length ih =>
      by_cases hdot : '.' ∈ chars
      · obtain ⟨label, rest, rfl, hlabel⟩ := List.eq_append_cons_of_mem hdot
        have hshorter : rest.length < length := by
          rw [← hlength, List.length_append, List.length_cons]
          omega
        rw [labelsOf, List.splitOn_append_cons_self_of_not_mem hlabel, List.forall_mem_cons,
          isDotted_append_dot_iff hlabel]
        exact and_congr_right fun _ => ih _ hshorter rest rfl
      · rw [labelsOf, List.splitOn_eq_singleton hdot, List.forall_mem_singleton,
          isDotted_iff_of_notMem hdot]

/-- A subdomain is a name with firm dots. -/
theorem isSubdomain_iff (value : String) :
    IsSubdomain value ↔ IsName 253 true value ∧ HasFirmDots value := by
  constructor
  · rintro ⟨hlength, hlabels⟩
    obtain ⟨halphabet, ⟨first, hfirst, hfirm⟩, ⟨last, hlast, hfirm'⟩, hdots⟩ :=
      (forall_labelsOf_iff _).mp hlabels
    exact ⟨⟨hlength, halphabet, first, hfirst, last, hlast, hfirm, hfirm'⟩, hdots⟩
  · rintro ⟨⟨hlength, halphabet, first, hfirst, last, hlast, hfirm, hfirm'⟩, hdots⟩
    exact ⟨hlength, (forall_labelsOf_iff _).mpr
      ⟨halphabet, ⟨first, hfirst, hfirm⟩, ⟨last, hlast, hfirm'⟩, hdots⟩⟩

/-! ## Names of objects -/

/-- **The names of objects are the subdomains and the names that have a loose dot.**  A name is
accepted when it has at most 253 characters, which are lowercase letters, digits, hyphens and dots,
with a letter or digit at both ends.  All subdomains are among these names, and they are those in
which a letter or digit stands on both sides of every dot. -/
theorem subdomains_among_object_names (field value : String) :
    let accepted := Rules.require field value (Rules.objectNameFault? value) = .ok ()
    (accepted ↔ value.length ≤ 253 ∧ (∀ c ∈ value.toList, IsNameChar true c) ∧
      HasFirmEnds value) ∧
      (IsSubdomain value ↔ accepted ∧ HasFirmDots value) := by
  intro accepted
  have haccepted : accepted ↔ IsName 253 true value := require_name_eq_ok_iff field value 253 true
  rw [haccepted, isSubdomain_iff]
  refine ⟨⟨?_, ?_⟩, Iff.rfl⟩
  · rintro ⟨hlength, halphabet, hends⟩
    exact ⟨hlength, halphabet, hends⟩
  · rintro ⟨hlength, halphabet, hends⟩
    exact ⟨hlength, halphabet, hends⟩

/-- Two dots side by side enclose an empty label, and the rule lets them pass. -/
theorem accepted_name_with_empty_label :
    Rules.require "resource" "a..b" (Rules.objectNameFault? "a..b") = .ok () ∧
      ¬ IsSubdomain "a..b" := by
  refine ⟨by decide +kernel, fun hsubdomain => ?_⟩
  have hempty : [] ∈ labelsOf "a..b".toList := by decide +kernel
  obtain ⟨first, hfirst, -⟩ := (hsubdomain.labels [] hempty).first
  simp at hfirst

end Rollout
