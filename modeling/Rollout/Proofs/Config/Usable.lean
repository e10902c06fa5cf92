import Rollout.Proofs.Config.Requirement

/-!
# When a configuration can be used

What a configuration must satisfy to be accepted, first as a property of its own (`Config.Usable`)
and then as a list of requirements in the order in which they are reported (`Config.requirements`).
Missing values count as the values that stand in for them.

## Strategy

Each sort of value has a property (`IsWord`, `IsPath`, `IsName`) and a list of requirements that
hold together exactly when the value has the property.  The check of that list is the rule for this
sort of value, reason by reason.  The lists are then joined along the sections of the configuration
(`Requirement.check_append`), steps by induction.

Two rules are written differently from what they mean.  The length of a name is counted in bytes;
names that pass the other rules consist of characters of one byte each.  That names do not repeat
is required entry by entry, so that the requirement that is broken first belongs to the first entry
that repeats an earlier one.
-/

namespace Rollout

open Requirement (AllHold FirstBroken check allHold_cons allHold_append allHold_nil check_append)

/-! ## Sorts of values -/

/-- A text with something in it that is not blank. -/
def IsWord (value : String) : Prop := ∃ c ∈ value.toList, Text.isBlank c = false

/-- The text can be a path: it is not empty and has no NUL. -/
def IsPath (value : String) : Prop := value ≠ "" ∧ '\x00' ∉ value.toList

/-- A lowercase letter or a digit. -/
def IsLowerOrDigit (c : Char) : Prop := ('a' ≤ c ∧ c ≤ 'z') ∨ ('0' ≤ c ∧ c ≤ '9')

/-- A character that may stand in a name, which may or may not have dots. -/
def IsNameChar (dots : Bool) (c : Char) : Prop :=
  IsLowerOrDigit c ∨ c = '-' ∨ (dots = true ∧ c = '.')

/-- The first and the last character are lowercase letters or digits. -/
def HasFirmEnds (value : String) : Prop :=
  ∃ first ∈ value.toList.head?, ∃ last ∈ value.toList.getLast?,
    IsLowerOrDigit first ∧ IsLowerOrDigit last

/-- A name of at most `greatest` characters.  It is not empty, since it has ends. -/
structure IsName (greatest : Nat) (dots : Bool) (value : String) : Prop where
  length_le : value.length ≤ greatest
  alphabet : ∀ c ∈ value.toList, IsNameChar dots c
  ends : HasFirmEnds value

section decidable

variable (value : String) (dots : Bool)

instance : Decidable (IsWord value) :=
  List.decidableBEx (Text.isBlank · = false) value.toList

instance : DecidablePred IsLowerOrDigit := fun _ => inferInstanceAs (Decidable (_ ∨ _))

instance : DecidablePred (IsNameChar dots) := fun _ => inferInstanceAs (Decidable (_ ∨ _))

instance : Decidable (∀ c ∈ value.toList, IsNameChar dots c) :=
  List.decidableBAll (IsNameChar dots) value.toList

instance : Decidable (HasFirmEnds value) :=
  @Option.decidableExistsMem _ _ (fun _ => Option.decidableExistsMem value.toList.getLast?)
    value.toList.head?

end decidable

theorem isWord_iff (value : String) : IsWord value ↔ Text.isBlankText value = false := by
  simp [IsWord, Text.isBlankText]

theorem isLowerOrDigit_iff (c : Char) : Rules.isLowerOrDigit c = true ↔ IsLowerOrDigit c := by
  have hlower : c.isLower = (decide ('a' ≤ c) && decide (c ≤ 'z')) := rfl
  simp [Rules.isLowerOrDigit, hlower, Char.isDigit, IsLowerOrDigit, Char.le_def]

theorem isNameChar_iff (dots : Bool) (c : Char) :
    Rules.isNameChar dots c = true ↔ IsNameChar dots c := by
  simp [Rules.isNameChar, isLowerOrDigit_iff, IsNameChar, or_assoc]

theorem hasFirmEnds_iff {value : String} (hvalue : value ≠ "") :
    HasFirmEnds value ↔ (value.toList.head?.all Rules.isLowerOrDigit &&
      value.toList.getLast?.all Rules.isLowerOrDigit) = true := by
  unfold HasFirmEnds
  cases hchars : value.toList with
  | nil => exact absurd (String.toList_eq_nil_iff.mp hchars) hvalue
  | cons first rest => simp [List.getLast?_cons, isLowerOrDigit_iff]

theorem ne_empty_of_hasFirmEnds {value : String} (hends : HasFirmEnds value) : value ≠ "" := by
  rintro rfl
  obtain ⟨first, hfirst, -⟩ := hends
  simp at hfirst

/-- The characters of names are written with one byte each. -/
theorem utf8Size_of_isNameChar {dots : Bool} {c : Char} (hchar : IsNameChar dots c) :
    c.utf8Size = 1 := by
  rw [Char.utf8Size_eq_one_iff]
  rcases hchar with (⟨-, hle⟩ | ⟨-, hle⟩) | rfl | ⟨-, rfl⟩
  · exact UInt32.le_trans hle (by decide)
  · exact UInt32.le_trans hle (by decide)
  · decide
  · decide

theorem size_utf8Encode_of_isNameChar {dots : Bool} {chars : List Char}
    (hchars : ∀ c ∈ chars, IsNameChar dots c) : chars.utf8Encode.size = chars.length := by
  induction chars with
  | nil => rfl
  | cons c rest ih =>
      obtain ⟨hc, hrest⟩ := List.forall_mem_cons.mp hchars
      have hsize : [c].utf8Encode.size = 1 := by
        rw [List.utf8Encode_singleton, List.size_toByteArray, String.length_utf8EncodeChar,
          utf8Size_of_isNameChar hc]
      rw [List.utf8Encode_cons, ByteArray.size_append, hsize, ih hrest, List.length_cons]
      omega

theorem utf8ByteSize_of_isNameChar {dots : Bool} {value : String}
    (hchars : ∀ c ∈ value.toList, IsNameChar dots c) : value.utf8ByteSize = value.length := by
  have hsize := size_utf8Encode_of_isNameChar hchars
  rw [String.utf8Encode_toList] at hsize
  rw [← String.length_toList]
  exact hsize

/-! ## Requirements for one value -/

section values

variable (field value : String)

/-- What is required of a word. -/
def wordRequirements : List Requirement :=
  [{ holds := IsWord value, error := .invalidValue field value .blank }]

/-- What is required of a path. -/
def pathRequirements : List Requirement :=
  [{ holds := value ≠ "", error := .invalidValue field value .emptyPath },
    { holds := '\x00' ∉ value.toList, error := .invalidValue field value .nulInPath }]

/-- What is required of a name: its length, its characters and its ends, in this order. -/
def nameRequirements (greatest : Nat) (dots : Bool) : List Requirement :=
  [{ holds := 1 ≤ value.utf8ByteSize ∧ value.utf8ByteSize ≤ greatest
     error := .invalidValue field value (.badLength greatest) },
    { holds := ∀ c ∈ value.toList, IsNameChar dots c
      error := .invalidValue field value (.badCharacter dots) },
    { holds := HasFirmEnds value, error := .invalidValue field value .badEnds }]

/-- What is required of the extension of a file: that there is one, and that it is that of a
manifest. -/
def extensionRequirements (file : Path) : List Requirement :=
  { holds := file.extension?.isSome = true
    error := .invalidValue field file.text .missingExtension } ::
  file.extension?.toList.map fun extension =>
    { holds := extension ∈ manifestExtensions
      error := .invalidValue field file.text (.unsupportedExtension extension manifestExtensions) }

/-- What is required of a number within bounds. -/
def rangeRequirements (least greatest number : Nat) : List Requirement :=
  [{ holds := least ≤ number ∧ number ≤ greatest
     error := .invalidValue field (toString number) (.outOfRange least greatest) }]

/-- A value is not among the earlier ones. -/
def freshRequirement (earlier : List String) : Requirement where
  holds := value ∉ earlier
  error := .configuration field (.duplicateEntry value)

/-- No entry of a list repeats an earlier one. -/
def distinctRequirements (values : List String) : List Requirement :=
  values.mapIdx fun i value => freshRequirement field value (values.take i)

/-! ### What they mean together -/

@[simp]
theorem allHold_wordRequirements : AllHold (wordRequirements field value) ↔ IsWord value := by
  simp [wordRequirements]

@[simp]
theorem allHold_pathRequirements : AllHold (pathRequirements field value) ↔ IsPath value := by
  simp [pathRequirements, IsPath]

@[simp]
theorem allHold_nameRequirements (greatest : Nat) (dots : Bool) :
    AllHold (nameRequirements field value greatest dots) ↔ IsName greatest dots value := by
  simp only [nameRequirements, allHold_cons, allHold_nil, and_true]
  constructor
  · rintro ⟨⟨-, hle⟩, halphabet, hends⟩
    rw [utf8ByteSize_of_isNameChar halphabet] at hle
    exact ⟨hle, halphabet, hends⟩
  · rintro ⟨hle, halphabet, hends⟩
    have hsize := utf8ByteSize_of_isNameChar halphabet
    have hpos : value.utf8ByteSize ≠ 0 := fun hzero =>
      ne_empty_of_hasFirmEnds hends (String.utf8ByteSize_eq_zero_iff.mp hzero)
    exact ⟨⟨by omega, by omega⟩, halphabet, hends⟩

@[simp]
theorem allHold_extensionRequirements (file : Path) :
    AllHold (extensionRequirements field file) ↔
      ∃ extension ∈ manifestExtensions, file.extension? = some extension := by
  cases hextension : file.extension? <;> simp [extensionRequirements, hextension]

@[simp]
theorem allHold_rangeRequirements (least greatest number : Nat) :
    AllHold (rangeRequirements field least greatest number) ↔
      least ≤ number ∧ number ≤ greatest := by
  simp [rangeRequirements]

/-! ### What their check is -/

/-- A rule names the fault of its first requirement, or else what the other requirements find. -/
theorem check_cons_eq_require {holds fault : Prop} [Decidable holds] [Decidable fault]
    {field value : String} {reason : Reason} {fault? : Option Reason} {rest : List Requirement}
    (hfault : fault ↔ ¬ holds)
    (hrest : holds → check rest = Rules.require field value fault?) :
    check ({ holds := holds, error := .invalidValue field value reason } :: rest) =
      Rules.require field value (if fault then some reason else fault?) := by
  by_cases hholds : holds
  · have hfine : ¬ fault := fun h => hfault.mp h hholds
    rw [Requirement.check_cons_of_holds rest hholds, if_neg hfine, hrest hholds]
  · rw [Requirement.check_cons_of_broken rest hholds, if_pos (hfault.mpr hholds)]
    rfl

theorem check_wordRequirements : check (wordRequirements field value) =
    Rules.require field value (Rules.blankFault? value) :=
  check_cons_eq_require (by simp [isWord_iff]) fun _ => rfl

theorem check_pathRequirements : check (pathRequirements field value) =
    Rules.require field value (Rules.pathFault? value) :=
  check_cons_eq_require (by simp) fun _ => check_cons_eq_require (by simp) fun _ => rfl

theorem check_nameRequirements (greatest : Nat) (dots : Bool) :
    check (nameRequirements field value greatest dots) =
      Rules.require field value (Rules.nameFault? greatest dots value) := by
  unfold nameRequirements Rules.nameFault?
  refine check_cons_eq_require ?_ fun hlength => check_cons_eq_require ?_ fun _ => ?_
  · rw [Bool.or_eq_true, String.isEmpty_iff, decide_eq_true_iff, ← String.utf8ByteSize_eq_zero_iff]
    omega
  · simp [isNameChar_iff]
  · have hvalue : value ≠ "" := by
      rintro rfl
      simp at hlength
    rw [← ite_not]
    exact check_cons_eq_require (by rw [hasFirmEnds_iff hvalue]) fun _ => rfl

theorem check_extensionRequirements (file : Path) :
    check (extensionRequirements field file) =
      Rules.requireExtensions field manifestExtensions [file.text] := by
  unfold extensionRequirements Rules.requireExtensions Rules.extensionFault?
  cases hextension : file.extension? with
  | none => exact Requirement.check_cons_of_broken _ (by simp)
  | some extension =>
      rw [Requirement.check_cons_of_holds _ rfl]
      by_cases hallowed : extension ∈ manifestExtensions <;>
        simp [check, hallowed, Rules.requireExtensions]

theorem check_rangeRequirements (least greatest number : Nat) :
    check (rangeRequirements field least greatest number) =
      requireBetween field least greatest number :=
  check_cons_eq_require (by omega) fun _ => rfl

/-- The same with values `before` the list, which the rule has seen in some order. -/
theorem check_mapIdx_fresh {before seen : List String}
    (hseen : ∀ value, value ∈ seen ↔ value ∈ before) (values : List String) :
    check (values.mapIdx fun i value => freshRequirement field value (before ++ values.take i)) =
      match Rules.firstRepeated? seen values with
      | none => .ok ()
      | some value => .error (.configuration field (.duplicateEntry value)) := by
  induction values generalizing before seen with
  | nil => rfl
  | cons value rest ih =>
      have hlater : ∀ other, other ∈ value :: seen ↔ other ∈ before ++ [value] := by
        intro other
        simp [hseen, or_comm]
      rw [List.mapIdx_cons, Rules.firstRepeated?, List.take_zero, List.append_nil]
      by_cases hmem : value ∈ seen
      · have hbroken : ¬ (freshRequirement field value before).holds := by
          simpa [freshRequirement, hseen] using hmem
        rw [if_pos hmem, Requirement.check_cons_of_broken _ hbroken]
        rfl
      · have hholds : (freshRequirement field value before).holds := by
          simpa [freshRequirement, hseen] using hmem
        rw [if_neg hmem, Requirement.check_cons_of_holds _ hholds, ← ih hlater]
        simp only [List.take_succ_cons, List.append_assoc, List.singleton_append]

theorem check_distinctRequirements (values : List String) :
    check (distinctRequirements field values) = Rules.requireDistinct field values :=
  check_mapIdx_fresh field (fun value => Iff.refl (value ∈ [])) values

@[simp]
theorem allHold_distinctRequirements (values : List String) :
    AllHold (distinctRequirements field values) ↔ values.Nodup := by
  rw [← Requirement.check_eq_ok_iff, check_distinctRequirements, Rules.requireDistinct_eq_ok_iff]

end values

/-! ## Steps -/

/-- A step that can be carried out. -/
structure Step.Usable (step : Step) : Prop where
  name : IsWord step.name
  file : IsPath step.file.text
  extension : ∃ extension ∈ manifestExtensions, step.file.extension? = some extension
  /-- Kind and resource are declared together or not at all. -/
  target_complete : step.kind?.isSome = true ↔ step.resource?.isSome = true
  kind : ∀ kind ∈ step.kind?, IsWord kind
  resource : ∀ resource ∈ step.resource?, IsName 253 true resource

/-- What is required of the object that a step declares. -/
def Step.targetRequirements (step : Step) : List Requirement :=
  { holds := step.kind?.isSome = true ↔ step.resource?.isSome = true
    error := .configuration step.field .incompleteTarget } ::
  (step.kind?.toList.flatMap (wordRequirements (step.field ++ ".kind")) ++
    step.resource?.toList.flatMap fun resource =>
      nameRequirements (step.field ++ ".resource") resource 253 true)

/-- What is required of a step, in the order in which it is checked. -/
def Step.requirements (step : Step) : List Requirement :=
  wordRequirements "manifests.steps.name" step.name ++
    pathRequirements (step.field ++ ".file") step.file.text ++
    extensionRequirements (step.field ++ ".file") step.file ++ step.targetRequirements

theorem Step.allHold_requirements (step : Step) : AllHold step.requirements ↔ step.Usable := by
  simp only [requirements, targetRequirements, allHold_append, allHold_cons,
    Requirement.allHold_flatMap, Option.mem_toList, allHold_wordRequirements,
    allHold_pathRequirements, allHold_extensionRequirements, allHold_nameRequirements]
  constructor
  · rintro ⟨⟨⟨hname, hfile⟩, hextension⟩, hcomplete, hkind, hresource⟩
    exact ⟨hname, hfile, hextension, hcomplete, hkind, hresource⟩
  · rintro ⟨hname, hfile, hextension, hcomplete, hkind, hresource⟩
    exact ⟨⟨⟨hname, hfile⟩, hextension⟩, hcomplete, hkind, hresource⟩

theorem Step.check_targetRequirements (step : Step) :
    check step.targetRequirements = step.validateTarget := by
  unfold targetRequirements validateTarget
  cases hkind : step.kind? <;> cases hresource : step.resource?
  case none.none => rfl
  case some.some =>
      rw [Requirement.check_cons_of_holds _ (by simp), check_append, Requirement.check_optional,
        Requirement.check_optional]
      simp only [checkOptional_some, check_wordRequirements, check_nameRequirements]
      rfl
  all_goals exact Requirement.check_cons_of_broken _ (by simp)

theorem Step.check_requirements (step : Step) : check step.requirements = step.validate := by
  simp only [requirements, check_append, check_wordRequirements, check_pathRequirements,
    check_extensionRequirements, check_targetRequirements, bind_assoc]
  rfl

theorem check_flatMap_requirements (steps : List Step) :
    check (steps.flatMap Step.requirements) = validateSteps steps := by
  induction steps with
  | nil => rfl
  | cons step rest ih =>
      rw [List.flatMap_cons, check_append, step.check_requirements, ih]
      rfl

/-! ## The other sections -/

/-- Options with which kubectl can be called. -/
structure KubectlSection.Usable (options : KubectlSection) : Prop where
  binary : ∀ value ∈ options.binary?, IsPath value
  kubeconfig : ∀ value ∈ options.kubeconfig?, IsPath value
  context : ∀ value ∈ options.context?, IsWord value
  namespaceName : ∀ value ∈ options.namespaceName?, IsName 63 false value

/-- What is required of the options for kubectl, in the order in which they are checked. -/
def KubectlSection.requirements (options : KubectlSection) : List Requirement :=
  options.binary?.toList.flatMap (pathRequirements "kubectl.binary") ++
    options.kubeconfig?.toList.flatMap (pathRequirements "kubectl.kubeconfig") ++
    options.context?.toList.flatMap (wordRequirements "kubectl.context") ++
    options.namespaceName?.toList.flatMap fun value =>
      nameRequirements "kubectl.namespace" value 63 false

theorem KubectlSection.allHold_requirements (options : KubectlSection) :
    AllHold options.requirements ↔ options.Usable := by
  simp only [requirements, allHold_append, Requirement.allHold_flatMap, Option.mem_toList,
    allHold_wordRequirements, allHold_pathRequirements, allHold_nameRequirements]
  constructor
  · rintro ⟨⟨⟨hbinary, hkubeconfig⟩, hcontext⟩, hnamespace⟩
    exact ⟨hbinary, hkubeconfig, hcontext, hnamespace⟩
  · rintro ⟨hbinary, hkubeconfig, hcontext, hnamespace⟩
    exact ⟨⟨⟨hbinary, hkubeconfig⟩, hcontext⟩, hnamespace⟩

theorem KubectlSection.check_requirements (options : KubectlSection) :
    check options.requirements = options.validate := by
  simp only [requirements, check_append, Requirement.check_optional, check_pathRequirements,
    check_wordRequirements, check_nameRequirements, bind_assoc]
  rfl

/-- Options with which a deployment can be verified. -/
structure VerifySection.Usable (options : VerifySection) : Prop where
  attempts : ∀ attempts ∈ options.waitAttempts?, 1 ≤ attempts.toNat ∧ attempts.toNat ≤ 1000
  interval : ∀ seconds ∈ options.waitIntervalSeconds?, seconds.toNat ≤ 3600

/-- What is required of the options for the verification. -/
def VerifySection.requirements (options : VerifySection) : List Requirement :=
  (options.waitAttempts?.toList.flatMap fun attempts =>
      rangeRequirements "verify.wait_attempts" 1 1000 attempts.toNat) ++
    options.waitIntervalSeconds?.toList.flatMap fun seconds =>
      rangeRequirements "verify.wait_interval_seconds" 0 3600 seconds.toNat

theorem VerifySection.allHold_requirements (options : VerifySection) :
    AllHold options.requirements ↔ options.Usable := by
  simp only [requirements, allHold_append, Requirement.allHold_flatMap, Option.mem_toList,
    allHold_rangeRequirements, Nat.zero_le, true_and]
  exact ⟨fun h => ⟨h.1, h.2⟩, fun h => ⟨h.attempts, h.interval⟩⟩

theorem VerifySection.check_requirements (options : VerifySection) :
    check options.requirements = options.validate := by
  simp only [requirements, check_append, Requirement.check_optional, check_rangeRequirements]
  rfl

/-! ## The configuration -/

namespace Config

/-- A configuration that settings can be taken from. -/
structure Usable (config : Config) : Prop where
  name : IsWord config.deployment.name
  directory : IsPath config.directory
  kubectl : ∀ options ∈ config.kubectl?, options.Usable
  steps_ne_nil : config.steps ≠ []
  names_nodup : (config.steps.map (·.name)).Nodup
  steps : ∀ step ∈ config.steps, step.Usable
  verify : ∀ options ∈ config.verify?, options.Usable

/-- What a configuration must satisfy, in the order in which it is reported. -/
def requirements (config : Config) : List Requirement :=
  wordRequirements "deployment.name" config.deployment.name ++
    pathRequirements "manifests.directory" config.directory ++
    config.kubectl?.toList.flatMap KubectlSection.requirements ++
    [{ holds := config.steps ≠ [], error := .missingValue "manifests.steps" }] ++
    distinctRequirements "manifests.steps.name" (config.steps.map (·.name)) ++
    config.steps.flatMap Step.requirements ++
    config.verify?.toList.flatMap VerifySection.requirements

theorem allHold_requirements (config : Config) : AllHold config.requirements ↔ config.Usable := by
  simp only [requirements, allHold_append, allHold_cons, allHold_nil, and_true,
    Requirement.allHold_flatMap, Option.mem_toList, allHold_wordRequirements,
    allHold_pathRequirements, allHold_distinctRequirements, KubectlSection.allHold_requirements,
    Step.allHold_requirements, VerifySection.allHold_requirements]
  constructor
  · rintro ⟨⟨⟨⟨⟨⟨hname, hdirectory⟩, hkubectl⟩, hsteps⟩, hnames⟩, hall⟩, hverify⟩
    exact ⟨hname, hdirectory, hkubectl, hsteps, hnames, hall, hverify⟩
  · rintro ⟨hname, hdirectory, hkubectl, hsteps, hnames, hall, hverify⟩
    exact ⟨⟨⟨⟨⟨⟨hname, hdirectory⟩, hkubectl⟩, hsteps⟩, hnames⟩, hall⟩, hverify⟩

theorem check_requirements (config : Config) : check config.requirements = config.validate := by
  simp only [requirements, check_append, Requirement.check_optional, check_wordRequirements,
    check_pathRequirements, check_distinctRequirements, check_flatMap_requirements,
    KubectlSection.check_requirements, VerifySection.check_requirements, bind_assoc]
  have hsteps : check [{ holds := config.steps ≠ [], error := .missingValue "manifests.steps" }] =
      if config.steps.isEmpty then .error (.missingValue "manifests.steps") else .ok () := by
    cases config.steps <;> rfl
  rw [hsteps]
  unfold validate
  cases config.steps.isEmpty with
  | true => rfl
  | false => rfl

/-- **A configuration is accepted exactly when it is usable, and otherwise the error is that of the
first requirement that is broken.**  This is so however many requirements are broken at once, in
whatever sections and steps. -/
theorem validate_reports_first_broken (config : Config) :
    (config.validate = .ok () ↔ config.Usable) ∧
      (config.Usable ↔ AllHold config.requirements) ∧
      ∀ error, config.validate = .error error ↔ FirstBroken config.requirements error := by
  rw [← config.check_requirements, ← config.allHold_requirements]
  exact ⟨Requirement.check_eq_ok_iff _, Iff.rfl, Requirement.check_eq_error_iff _⟩

/-- Of two steps without a name the repetition is reported, not that the first has no name. -/
example :
    let nameless : Step := { name := " ", file := ⟨"a.txt"⟩, stage := .config }
    validate { manifests := { steps? := some [nameless, nameless] } } =
      .error (.configuration "manifests.steps.name" (.duplicateEntry " ")) := rfl

end Config
end Rollout
