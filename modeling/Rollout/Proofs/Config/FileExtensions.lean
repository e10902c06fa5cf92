import Rollout.Config.Rules
import Rollout.Proofs.Manifest.FileNames

/-!
# Extensions of files

Files are accepted when each of them has an allowed extension.  Otherwise the error is about the
first that has not.

## Strategy

The rule for one file says what is wrong with it (`extensionFault?_eq_some_iff`), if anything is
(`extensionFault?_eq_none_iff`).  A list of files is checked from the front, so the first file that
the rule finds fault with ends the check (`requireExtensions_eq_error_iff`).
-/

namespace Rollout.Rules

/-! ## Single files -/

/-- A file with an allowed extension, compared letter by letter. -/
def IsAllowed (allowed : List String) (file : String) : Prop :=
  ∃ extension ∈ allowed, Path.HasExtension file extension

/-- Why a file is not acceptable. -/
inductive ExtensionFault (allowed : List String) (file : String) : Reason → Prop
  /-- It has an extension, perhaps the empty one, which is none of the allowed ones. -/
  | unsupported {extension : String} : Path.HasExtension file extension → extension ∉ allowed →
      ExtensionFault allowed file (.unsupportedExtension extension allowed)
  | missing : (∀ extension, ¬ Path.HasExtension file extension) →
      ExtensionFault allowed file .missingExtension

variable {allowed : List String} {file : String}

theorem extensionFault_of_eq_some {reason : Reason}
    (hfault : extensionFault? allowed ⟨file⟩ = some reason) :
    ExtensionFault allowed file reason := by
  unfold extensionFault? at hfault
  split at hfault
  · next hnone =>
      obtain rfl := Option.some.inj hfault
      refine .missing fun extension hextension => ?_
      rw [← Path.extension?_eq_some_iff, hnone] at hextension
      exact absurd hextension (by simp)
  · next extension hsome =>
      split at hfault
      · simp at hfault
      · next hforbidden =>
          obtain rfl := Option.some.inj hfault
          exact .unsupported ((Path.extension?_eq_some_iff _ _).mp hsome) hforbidden

theorem isAllowed_of_eq_none (hfault : extensionFault? allowed ⟨file⟩ = none) :
    IsAllowed allowed file := by
  unfold extensionFault? at hfault
  split at hfault
  · simp at hfault
  · next extension hsome =>
      split at hfault
      · next hallowed => exact ⟨extension, hallowed, (Path.extension?_eq_some_iff _ _).mp hsome⟩
      · simp at hfault

theorem extensionFault?_eq_none_iff :
    extensionFault? allowed ⟨file⟩ = none ↔ IsAllowed allowed file := by
  refine ⟨isAllowed_of_eq_none, ?_⟩
  rintro ⟨extension, hallowed, hextension⟩
  rw [extensionFault?, (Path.extension?_eq_some_iff _ _).mpr hextension]
  exact if_pos hallowed

theorem extensionFault?_eq_some_iff (reason : Reason) :
    extensionFault? allowed ⟨file⟩ = some reason ↔ ExtensionFault allowed file reason := by
  refine ⟨extensionFault_of_eq_some, fun hfault => ?_⟩
  cases hfault with
  | unsupported hextension hforbidden =>
      rw [extensionFault?, (Path.extension?_eq_some_iff _ _).mpr hextension]
      exact if_neg hforbidden
  | missing hmissing =>
      have hnone : Path.extension? ⟨file⟩ = none := by
        rw [Option.eq_none_iff_forall_ne_some]
        exact fun extension h => hmissing extension ((Path.extension?_eq_some_iff _ _).mp h)
      rw [extensionFault?, hnone]

/-! ## Lists of files -/

theorem requireExtensions_eq_ok_iff (field : String) (allowed files : List String) :
    requireExtensions field allowed files = .ok () ↔
      ∀ file ∈ files, extensionFault? allowed ⟨file⟩ = none := by
  induction files with
  | nil => simp [requireExtensions]
  | cons file rest ih =>
      rw [requireExtensions, List.forall_mem_cons]
      cases hfault : extensionFault? allowed ⟨file⟩ with
      | none => simp [ih]
      | some reason => simp

theorem requireExtensions_eq_error_iff (field : String) (allowed files : List String)
    (error : Failure) :
    requireExtensions field allowed files = .error error ↔
      ∃ before file after reason, files = before ++ file :: after ∧
        (∀ earlier ∈ before, extensionFault? allowed ⟨earlier⟩ = none) ∧
        extensionFault? allowed ⟨file⟩ = some reason ∧
        error = .invalidValue field file reason := by
  induction files with
  | nil => simp [requireExtensions]
  | cons file rest ih =>
      rw [requireExtensions]
      cases hfault : extensionFault? allowed ⟨file⟩ with
      -- a file without fault is one of those before, and the first fault is found later
      | none =>
          refine ih.trans ⟨?_, ?_⟩
          · rintro ⟨before, first, after, reason, rfl, hbefore, hfirst, herror⟩
            exact ⟨file :: before, first, after, reason, rfl,
              List.forall_mem_cons.mpr ⟨hfault, hbefore⟩, hfirst, herror⟩
          · rintro ⟨before, first, after, reason, hsplit, hbefore, hfirst, herror⟩
            cases before with
            | nil =>
                obtain ⟨rfl, -⟩ := List.cons.inj hsplit
                rw [hfault] at hfirst
                exact absurd hfirst (by simp)
            | cons earlier before =>
                obtain ⟨-, rfl⟩ := List.cons.inj hsplit
                exact ⟨before, first, after, reason, rfl, (List.forall_mem_cons.mp hbefore).2,
                  hfirst, herror⟩
      -- a file at fault is the first one, so there is none before
      | some reason =>
          constructor
          · intro herror
            exact ⟨[], file, rest, reason, rfl, by simp, hfault, (Except.error.inj herror).symm⟩
          · rintro ⟨before, first, after, other, hsplit, hbefore, hfirst, rfl⟩
            cases before with
            | nil =>
                obtain ⟨rfl, -⟩ := List.cons.inj hsplit
                obtain rfl := Option.some.inj (hfault.symm.trans hfirst)
                rfl
            | cons earlier before =>
                obtain ⟨rfl, -⟩ := List.cons.inj hsplit
                have hfine := hbefore file List.mem_cons_self
                rw [hfault] at hfine
                exact absurd hfine (by simp)

/-- **Files are accepted when all of them have an allowed extension, and otherwise the first that
has none is to blame.**  The error names that file.  It states the extension that the file has,
which may be the empty one, or says that there is none. -/
theorem first_file_without_allowed_extension (field : String) (allowed files : List String) :
    (requireExtensions field allowed files = .ok () ↔ ∀ file ∈ files, IsAllowed allowed file) ∧
      ∀ error, requireExtensions field allowed files = .error error ↔
        ∃ before file after reason, files = before ++ file :: after ∧
          (∀ earlier ∈ before, IsAllowed allowed earlier) ∧ ExtensionFault allowed file reason ∧
          error = .invalidValue field file reason := by
  simp only [← extensionFault?_eq_none_iff, ← extensionFault?_eq_some_iff]
  exact ⟨requireExtensions_eq_ok_iff field allowed files,
    requireExtensions_eq_error_iff field allowed files⟩

/-- The second file ends in a dot. -/
example :
    requireExtensions "steps" ["yaml", "yml"] ["k8s/a.tar.yaml/./", "b.", ".yaml"] =
      .error (.invalidValue "steps" "b." (.unsupportedExtension "" ["yaml", "yml"])) := by
  decide +kernel

end Rollout.Rules
