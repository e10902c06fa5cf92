import Rollout.Config.Validation

/-!
# Requirements in order

A requirement is a condition together with the error that is reported when it does not hold.  A list
of requirements is checked from the first to the last, and the first that does not hold decides.

## Strategy

`Requirement.check` is the one recursion.  It is a check of two lists one after the other on their
concatenation (`check_append`), so a validation that is written as a sequence of checks is the check
of one list of requirements, whatever the checks are about.  `check_eq_ok_iff` and
`check_eq_error_iff` then say when that list is accepted and which error it is refused with.
-/

namespace Rollout

/-- A condition, and the error when it does not hold. -/
structure Requirement where
  holds : Prop
  [decidable : Decidable holds]
  error : Failure

namespace Requirement

attribute [instance] Requirement.decidable

/-- Goes through the requirements in order, up to the first that does not hold. -/
def check : List Requirement → Except Failure Unit
  | [] => .ok ()
  | requirement :: rest => if requirement.holds then check rest else .error requirement.error

/-- Nothing that is required is broken. -/
def AllHold (requirements : List Requirement) : Prop :=
  ∀ requirement ∈ requirements, requirement.holds

/-- The first of the requirements that does not hold has the given error. -/
def FirstBroken (requirements : List Requirement) (error : Failure) : Prop :=
  ∃ met broken rest, requirements = met ++ broken :: rest ∧ AllHold met ∧ ¬ broken.holds ∧
    broken.error = error

/-! ## All of several requirements -/

@[simp]
theorem allHold_nil : AllHold [] := by
  simp [AllHold]

@[simp]
theorem allHold_cons (requirement : Requirement) (rest : List Requirement) :
    AllHold (requirement :: rest) ↔ requirement.holds ∧ AllHold rest :=
  List.forall_mem_cons

@[simp]
theorem allHold_append (first second : List Requirement) :
    AllHold (first ++ second) ↔ AllHold first ∧ AllHold second :=
  List.forall_mem_append

@[simp]
theorem allHold_flatMap {α : Type} (values : List α) (requirements : α → List Requirement) :
    AllHold (values.flatMap requirements) ↔ ∀ value ∈ values, AllHold (requirements value) := by
  induction values with
  | nil => simp
  | cons value rest ih => rw [List.flatMap_cons, allHold_append, ih, List.forall_mem_cons]

/-- Either the first requirement is broken, or it holds and another is the first that is broken. -/
theorem firstBroken_cons (requirement : Requirement) (rest : List Requirement) (error : Failure) :
    FirstBroken (requirement :: rest) error ↔
      (¬ requirement.holds ∧ requirement.error = error) ∨
        (requirement.holds ∧ FirstBroken rest error) := by
  constructor
  · rintro ⟨met, broken, later, hsplit, hmet, hbroken, herror⟩
    cases met with
    | nil =>
        obtain ⟨rfl, rfl⟩ := List.cons.inj hsplit
        exact .inl ⟨hbroken, herror⟩
    | cons first met =>
        obtain ⟨rfl, rfl⟩ := List.cons.inj hsplit
        obtain ⟨hfirst, hothers⟩ := (allHold_cons _ _).mp hmet
        exact .inr ⟨hfirst, met, broken, later, rfl, hothers, hbroken, herror⟩
  · rintro (⟨hbroken, herror⟩ | ⟨hholds, met, broken, later, rfl, hmet, hbroken, herror⟩)
    · exact ⟨[], requirement, rest, rfl, allHold_nil, hbroken, herror⟩
    · exact ⟨requirement :: met, broken, later, rfl, (allHold_cons _ _).mpr ⟨hholds, hmet⟩,
        hbroken, herror⟩

/-! ## Checks -/

theorem check_cons_of_holds {requirement : Requirement} (rest : List Requirement)
    (hholds : requirement.holds) : check (requirement :: rest) = check rest :=
  if_pos hholds

theorem check_cons_of_broken {requirement : Requirement} (rest : List Requirement)
    (hbroken : ¬ requirement.holds) : check (requirement :: rest) = .error requirement.error :=
  if_neg hbroken

theorem check_append (first second : List Requirement) :
    check (first ++ second) = check first >>= fun _ => check second := by
  induction first with
  | nil => rfl
  | cons requirement rest ih =>
      by_cases hholds : requirement.holds
      · rw [List.cons_append, check_cons_of_holds _ hholds, ih, check_cons_of_holds _ hholds]
      · rw [List.cons_append, check_cons_of_broken _ hholds, check_cons_of_broken _ hholds]
        rfl

/-- The requirements for a value that may be missing. -/
theorem check_optional {α : Type} (requirements : α → List Requirement) (value? : Option α) :
    check (value?.toList.flatMap requirements) =
      checkOptional (fun value => check (requirements value)) value? := by
  cases value? with
  | none => rfl
  | some value => simp

theorem check_eq_ok_iff (requirements : List Requirement) :
    check requirements = .ok () ↔ AllHold requirements := by
  induction requirements with
  | nil => simp [check]
  | cons requirement rest ih =>
      by_cases hholds : requirement.holds
      · rw [check_cons_of_holds _ hholds, ih, allHold_cons]
        exact ⟨fun hrest => ⟨hholds, hrest⟩, fun hall => hall.2⟩
      · simp [check_cons_of_broken _ hholds, hholds]

theorem check_eq_error_iff (requirements : List Requirement) (error : Failure) :
    check requirements = .error error ↔ FirstBroken requirements error := by
  induction requirements with
  | nil => simp [check, FirstBroken]
  | cons requirement rest ih =>
      rw [firstBroken_cons]
      by_cases hholds : requirement.holds
      · rw [check_cons_of_holds _ hholds, ih]
        simp [hholds]
      · rw [check_cons_of_broken _ hholds, Except.error.injEq]
        simp [hholds]

end Requirement
end Rollout
