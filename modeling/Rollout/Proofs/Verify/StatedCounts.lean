import Mathlib.Data.List.TakeWhile
import Rollout.Proofs.Text.Decimal
import Rollout.Verify.Readiness

/-!
# What readiness depends on

The readiness of an object depends on its kind, up to the group and the case, and on two counts that
the object states.  More ready pods never make it unready, more wanted pods never make it ready, and
the reason why it is not ready gives back both counts.

## Strategy

Kinds are alike when they agree in front of the first dot, up to case (`Alike`); this is what
`bareKind` decides (`alike_iff`).  What an object states is a matter of following member names, the
last member of a name being the one that counts (`Leads`, which `Json.at?` decides).  The rule for
counts compares two words, so that its laws are those of their order.
-/

namespace Rollout

/-! ## Alike kinds -/

/-- What stands in a kind before its first dot, or all of it if it has none. -/
structure HasHead (kind : String) (head : List Char) : Prop where
  dot_notMem : '.' ∉ head
  begins : kind.toList = head ∨ ∃ group, kind.toList = head ++ '.' :: group

/-- The kinds agree in front of the first dot, up to the case of ASCII letters. -/
def Alike (first second : String) : Prop :=
  ∃ head other, HasHead first head ∧ HasHead second other ∧
    head.map Char.toLower = other.map Char.toLower

theorem exists_hasHead (kind : String) : ∃ head, HasHead kind head := by
  by_cases hdot : '.' ∈ kind.toList
  · obtain ⟨head, group, hkind, hhead⟩ := List.eq_append_cons_of_mem hdot
    exact ⟨head, hhead, .inr ⟨group, hkind⟩⟩
  · exact ⟨kind.toList, hdot, .inl rfl⟩

theorem bareKind_of_hasHead {kind : String} {head : List Char} (hhead : HasHead kind head) :
    bareKind kind = String.ofList (head.map Char.toLower) := by
  have hplain : ∀ c ∈ head, decide (c ≠ '.') = true := by
    intro c hc
    exact decide_eq_true fun hdot => hhead.dot_notMem (hdot ▸ hc)
  have htake : kind.toList.takeWhile (· ≠ '.') = head := by
    rcases hhead.begins with hkind | ⟨group, hkind⟩
    · rw [hkind]
      exact List.takeWhile_eq_self_iff.mpr hplain
    · rw [hkind, List.takeWhile_append_of_pos hplain]
      simp
  rw [bareKind, htake]

/-- Kinds are alike exactly when they are the same without group and case. -/
theorem alike_iff (first second : String) :
    Alike first second ↔ bareKind first = bareKind second := by
  constructor
  · rintro ⟨head, other, hhead, hother, hcase⟩
    rw [bareKind_of_hasHead hhead, bareKind_of_hasHead hother, hcase]
  · intro hbare
    obtain ⟨head, hhead⟩ := exists_hasHead first
    obtain ⟨other, hother⟩ := exists_hasHead second
    rw [bareKind_of_hasHead hhead, bareKind_of_hasHead hother] at hbare
    exact ⟨head, other, hhead, hother, String.ofList_injective hbare⟩

/-- A group does not matter, whether or not there is one already. -/
theorem alike_group (kind group : String) : Alike (kind ++ "." ++ group) kind := by
  obtain ⟨head, hhead⟩ := exists_hasHead kind
  refine ⟨head, head, ⟨hhead.dot_notMem, ?_⟩, hhead, rfl⟩
  rcases hhead.begins with hkind | ⟨older, hkind⟩
  · exact .inr ⟨group.toList, by simp [hkind]⟩
  · exact .inr ⟨older ++ '.' :: group.toList, by simp [hkind]⟩

/-- Only a dot becomes a dot in lower case. -/
theorem toLower_eq_dot_iff (c : Char) : c.toLower = '.' ↔ c = '.' := by
  constructor
  · intro hlower
    unfold Char.toLower at hlower
    split at hlower
    case isTrue hupper =>
      -- a capital letter goes to `97` or above, and the dot stands at `46`
      have hlow := UInt32.le_iff_toNat_le.mp hupper.1
      have hhigh := UInt32.le_iff_toNat_le.mp hupper.2
      have hsum : (c.val + 32).toNat = 46 := congrArg (·.val.toNat) hlower
      rw [UInt32.toNat_add] at hsum
      simp at hlow hhigh hsum
      omega
    case isFalse => exact hlower
  · rintro rfl
    rfl

/-- The case does not matter. -/
theorem alike_of_toLower {first second : String}
    (hcase : first.toList.map Char.toLower = second.toList.map Char.toLower) :
    Alike first second := by
  have hbare : ∀ kind, bareKind kind =
      String.ofList ((kind.toList.map Char.toLower).takeWhile (· ≠ '.')) := by
    intro kind
    simp only [bareKind, List.takeWhile_map, Function.comp_def, ne_eq, toLower_eq_dot_iff]
  rw [alike_iff, hbare, hbare, hcase]

/-! ## The counts that an object states -/

/-- Member names that lead from a value to another one: through objects only, and through the last
member of each name. -/
inductive Leads : List String → Json → Json → Prop
  | here (value : Json) : Leads [] value value
  | into {name : String} {path : List String} {inner value : Json}
      {before after : List (String × Json)} (hlast : ∀ member ∈ after, member.1 ≠ name)
      (hinner : Leads path inner value) :
      Leads (name :: path) (.object (before ++ (name, inner) :: after)) value

/-- An object states a word where the member names lead: a whole number without a sign that fits.
Nothing else that may be found there is a word, and neither is a missing member. -/
def States (object : Json) (path : List String) (word : UInt64) : Prop :=
  Leads path object (.natural word.toNat)

theorem member?_eq_some_iff {name : String} {members : List (String × Json)} {value : Json} :
    (Json.object members).member? name = some value ↔
      ∃ before after, members = before ++ (name, value) :: after ∧
        ∀ member ∈ after, member.1 ≠ name := by
  constructor
  · intro hmember
    obtain ⟨⟨found, inner⟩, hfind, rfl⟩ := Option.map_eq_some_iff.mp hmember
    obtain ⟨hname, after, before, hmembers, hafter⟩ := List.find?_eq_some_iff_append.mp hfind
    obtain rfl : found = name := of_decide_eq_true hname
    refine ⟨before.reverse, after.reverse, ?_, ?_⟩
    · simpa using congrArg List.reverse hmembers
    · intro member hmem
      simpa using hafter member (List.mem_reverse.mp hmem)
  · rintro ⟨before, after, rfl, hafter⟩
    refine Option.map_eq_some_iff.mpr ⟨(name, value), ?_, rfl⟩
    rw [List.find?_eq_some_iff_append]
    refine ⟨by simp, after.reverse, before.reverse, by simp, ?_⟩
    intro member hmem
    simpa using hafter member (List.mem_reverse.mp hmem)

theorem leads_iff {path : List String} {object value : Json} :
    Leads path object value ↔ object.at? path = some value := by
  constructor
  · intro hleads
    induction hleads with
    | here value => rfl
    | @into name path inner value before after hlast _ ih =>
        rw [Json.at?_cons, member?_eq_some_iff.mpr ⟨before, after, rfl, hlast⟩]
        exact ih
  · intro hat
    induction path generalizing object with
    | nil =>
        obtain rfl := Option.some.inj hat
        exact .here _
    | cons name path ih =>
        rw [Json.at?_cons] at hat
        obtain ⟨inner, hmember, hinner⟩ := Option.bind_eq_some_iff.mp hat
        cases object with
        | object members =>
            obtain ⟨before, after, rfl, hafter⟩ := member?_eq_some_iff.mp hmember
            exact .into hafter (ih hinner)
        | _ => cases hmember

theorem word?_eq_some_iff {value : Json} {word : UInt64} :
    value.word? = some word ↔ value = .natural word.toNat := by
  constructor
  · intro hword
    unfold Json.word? at hword
    split at hword
    · next magnitude =>
        split at hword
        · next hfits =>
            obtain rfl := Option.some.inj hword
            rw [UInt64.toNat_ofNat_of_lt' hfits]
            rfl
        · cases hword
    · cases hword
  · rintro rfl
    rw [Json.word?_natural word.toNat_lt, UInt64.ofNat_toNat]

/-- A count is the word that is stated, and its default where none is. -/
theorem of_eq_iff (count : Count) (object : Json) (value : UInt64) :
    count.of object = value ↔
      States object count.path value ∨
        value = count.absent ∧ ∀ word, ¬ States object count.path word := by
  have hstates : ∀ word, States object count.path word ↔
      (object.at? count.path).bind Json.word? = some word := by
    intro word
    rw [States, leads_iff, Option.bind_eq_some_iff]
    constructor
    · intro hat
      exact ⟨_, hat, word?_eq_some_iff.mpr rfl⟩
    · rintro ⟨found, hat, hword⟩
      rw [hat, word?_eq_some_iff.mp hword]
  simp only [hstates, Count.of]
  cases (object.at? count.path).bind Json.word? with
  | none => simp [eq_comm]
  | some word => simp

/-! ## The rule -/

/-- The objects state the same counts, as far as counts matter for the kind. -/
def AgreeOnCounts (kind : String) (first second : Json) : Prop :=
  ∀ controller, controllerOf? kind = some controller →
    controller.ready.of first = controller.ready.of second ∧
      controller.desired.of first = controller.desired.of second

theorem controllerOf?_congr {first second : String} (halike : Alike first second) :
    controllerOf? first = controllerOf? second := by
  rw [controllerOf?, controllerOf?, (alike_iff first second).mp halike]

/-- A kind is a controller when it is like one of the known names, and then of that family. -/
theorem controllerOf?_of_alike {kind name : String} (halike : Alike kind name) :
    (name ∈ replicaKinds → controllerOf? kind = some replicaController) ∧
      (name ∈ nodeKinds → controllerOf? kind = some nodeController) := by
  have hreplica : ∀ name ∈ replicaKinds, controllerOf? name = some replicaController := by
    decide +kernel
  have hnode : ∀ name ∈ nodeKinds, controllerOf? name = some nodeController := by
    decide +kernel
  rw [controllerOf?_congr halike]
  exact ⟨hreplica name, hnode name⟩

/-- Any other kind is none. -/
theorem controllerOf?_eq_none {kind : String}
    (hother : ∀ name ∈ replicaKinds ++ nodeKinds, ¬ Alike kind name) :
    controllerOf? kind = none := by
  have hplain : ∀ name ∈ replicaKinds ++ nodeKinds, bareKind name = name := by
    decide +kernel
  have hnone : bareKind kind ∉ replicaKinds ++ nodeKinds := by
    intro hmem
    exact hother _ hmem ((alike_iff _ _).mpr (hplain _ hmem).symm)
  rw [List.mem_append, not_or] at hnone
  rw [controllerOf?, if_neg hnone.1, if_neg hnone.2]

namespace Readiness

theorem ofObject_of_controller {kind : String} {controller : Controller}
    (hcontroller : controllerOf? kind = some controller) (object : Json) :
    ofObject kind object =
      ofCounts (controller.ready.of object) (controller.desired.of object) := by
  rw [ofObject, hcontroller]

theorem ofObject_congr {kind other : String} {object another : Json} (halike : Alike other kind)
    (hcounts : AgreeOnCounts kind object another) :
    ofObject other another = ofObject kind object := by
  rw [ofObject, ofObject, controllerOf?_congr halike]
  cases hcontroller : controllerOf? kind with
  | none => rfl
  | some controller =>
      obtain ⟨hready, hdesired⟩ := hcounts controller hcontroller
      simp only [hready, hdesired]

theorem ofCounts_eq_ready_iff (ready desired : UInt64) :
    ofCounts ready desired = .ready ↔ desired ≤ ready := by
  unfold ofCounts
  split <;> simp_all

theorem ofCounts_eq_notReady_iff (ready desired first second : UInt64) :
    ofCounts ready desired = .notReady first second ↔
      ready < desired ∧ first = ready ∧ second = desired := by
  unfold ofCounts
  split
  · next hle => simp [UInt64.not_lt.mpr hle]
  · next hlt => simp [UInt64.not_le.mp hlt, eq_comm]

theorem ofObject_ne_missing (kind : String) (object : Json) : ofObject kind object ≠ .missing := by
  unfold ofObject
  split
  · unfold ofCounts
    split <;> simp
  · simp

/-! ## Reading a reason -/

/-- The two numbers that a text states in front of its first space, with a slash between them. -/
def countsIn? (text : String) : Option (Nat × Nat) :=
  let numbers := text.toList.takeWhile (· ≠ ' ')
  match Text.decimal? (numbers.takeWhile (· ≠ '/')),
      Text.decimal? ((numbers.dropWhile (· ≠ '/')).drop 1) with
  | some first, some second => some (first, second)
  | _, _ => none

/-- The reason gives back both counts. -/
theorem countsIn?_reason (ready desired : UInt64) :
    countsIn? (reason ready desired) = some (ready.toNat, desired.toNat) := by
  have hdigits : ∀ (number : Nat) (mark : Char), mark.isDigit = false →
      ∀ c ∈ (toString number).toList, decide (c ≠ mark) = true := by
    intro number mark hmark c hc
    refine decide_eq_true fun heq => ?_
    rw [← heq, Text.isDigit_of_mem_toString hc] at hmark
    cases hmark
  have hreason : (reason ready desired).toList = (toString ready.toNat).toList ++
      '/' :: ((toString desired.toNat).toList ++ ' ' :: "replicas ready".toList) := by
    simp [reason, String.toList_append]
  have hnumbers : (reason ready desired).toList.takeWhile (· ≠ ' ') =
      (toString ready.toNat).toList ++ '/' :: (toString desired.toNat).toList := by
    rw [hreason, List.takeWhile_append_of_pos (hdigits _ ' ' rfl), List.takeWhile_cons_of_pos rfl,
      List.takeWhile_append_of_pos (hdigits _ ' ' rfl), List.takeWhile_cons_of_neg (by simp),
      List.append_nil]
  have hbefore := hdigits ready.toNat '/' rfl
  rw [countsIn?, hnumbers, List.takeWhile_append_of_pos hbefore,
    List.dropWhile_append_of_pos hbefore, List.takeWhile_cons_of_neg (by simp),
    List.dropWhile_cons_of_neg (by simp), List.append_nil, List.drop_one, List.tail_cons,
    Text.decimal?_toString, Text.decimal?_toString]

/-! ## All that decides -/

/-- **Readiness is a matter of the kind and of two counts.**

* Objects of alike kinds that agree on the counts of the kind are equally ready; neither a group nor
  the case matters.  A kind that is like none of the known controllers is ready once it exists.
* A count is the word that the object states where the count is kept, and its default where it
  states none.
* Raising the ready count keeps a controller ready, and raising the wanted count keeps it unready.
* It is not ready exactly when fewer pods are ready than wanted, for a reason that gives back both
  counts, and no object that was found is missing. -/
theorem readiness_is_decided_by_kind_and_counts (kind : String) (object : Json) :
    ((∀ other another, Alike other kind → AgreeOnCounts kind object another →
        ofObject other another = ofObject kind object) ∧
      (∀ group, ofObject (kind ++ "." ++ group) object = ofObject kind object) ∧
      (∀ other : String, other.toList.map Char.toLower = kind.toList.map Char.toLower →
        ofObject other object = ofObject kind object) ∧
      (∀ name, Alike kind name →
        (name ∈ replicaKinds → controllerOf? kind = some replicaController) ∧
          (name ∈ nodeKinds → controllerOf? kind = some nodeController)) ∧
      ((∀ name ∈ replicaKinds ++ nodeKinds, ¬ Alike kind name) → ofObject kind object = .ready)) ∧
    (∀ (count : Count) (value : UInt64), count.of object = value ↔
      States object count.path value ∨
        value = count.absent ∧ ∀ word, ¬ States object count.path word) ∧
    (∀ controller, controllerOf? kind = some controller →
      (∀ raised, controller.ready.of object ≤ controller.ready.of raised →
        controller.desired.of raised = controller.desired.of object →
        ofObject kind object = .ready → ofObject kind raised = .ready) ∧
      (∀ raised, controller.desired.of object ≤ controller.desired.of raised →
        controller.ready.of raised = controller.ready.of object →
        ofObject kind object ≠ .ready → ofObject kind raised ≠ .ready) ∧
      ∀ ready desired, ofObject kind object = .notReady ready desired ↔
        controller.ready.of object < controller.desired.of object ∧
          ready = controller.ready.of object ∧ desired = controller.desired.of object) ∧
    ofObject kind object ≠ .missing ∧
    ∀ ready desired, countsIn? (reason ready desired) = some (ready.toNat, desired.toNat) := by
  have hsame : ∀ other, Alike other kind → ofObject other object = ofObject kind object := by
    intro other halike
    exact ofObject_congr halike fun controller _ => ⟨rfl, rfl⟩
  refine ⟨⟨?_, ?_, ?_, ?_, ?_⟩, fun count value => of_eq_iff count object value, ?_,
    ofObject_ne_missing kind object, countsIn?_reason⟩
  · intro other another halike hcounts
    exact ofObject_congr halike hcounts
  · intro group
    exact hsame _ (alike_group kind group)
  · intro other hcase
    exact hsame other (alike_of_toLower hcase)
  · intro name halike
    exact controllerOf?_of_alike halike
  · intro hother
    rw [ofObject, controllerOf?_eq_none hother]
  · intro controller hcontroller
    simp only [ofObject_of_controller hcontroller, ne_eq, ofCounts_eq_ready_iff,
      ofCounts_eq_notReady_iff, implies_true, and_true]
    constructor
    · intro raised hready hdesired henough
      rw [hdesired]
      exact UInt64.le_trans henough hready
    · intro raised hdesired hready hmissing henough
      rw [hready] at henough
      exact hmissing (UInt64.le_trans hdesired henough)

/-- A deployment with so many pods ready and so many wanted. -/
def pods (ready desired : Nat) : Json :=
  .object [
    ("spec", .object [("replicas", .natural desired)]),
    ("status", .object [("readyReplicas", .natural ready)])]

/-- One pod ready and three wanted, with other members around the counts and a count that does not
hold. -/
def restated : Json :=
  .object [
    ("kind", .string "Deployment"),
    ("status", .object [("replicas", .natural 7), ("readyReplicas", .natural 1)]),
    ("spec", .object [("replicas", .natural 1), ("replicas", .natural 3)])]

/-- A deployment whose kind is in capitals and has a group, before and after a count is raised. -/
theorem readiness_of_deployment :
    ofObject "DEPLOYMENTS.apps" (pods 1 3) = .notReady 1 3 ∧
      ofObject "deployments" restated = .notReady 1 3 ∧
      ofObject "DEPLOYMENTS.apps" (pods 4 3) = .ready ∧
      ofObject "DEPLOYMENTS.apps" (pods 1 5) ≠ .ready ∧
      countsIn? (reason 1 3) = some (1, 3) := by
  have hcontroller : controllerOf? "DEPLOYMENTS.apps" = some replicaController := by decide +kernel
  obtain ⟨⟨hcongr, -⟩, -, hlaws, -, hreason⟩ :=
    readiness_is_decided_by_kind_and_counts "DEPLOYMENTS.apps" (pods 1 3)
  obtain ⟨-, hwanted, hnotReady⟩ := hlaws replicaController hcontroller
  obtain ⟨-, -, hlaws', -⟩ :=
    readiness_is_decided_by_kind_and_counts "DEPLOYMENTS.apps" (pods 3 3)
  obtain ⟨hready, -⟩ := hlaws' replicaController hcontroller
  have hunready : ofObject "DEPLOYMENTS.apps" (pods 1 3) = .notReady 1 3 :=
    (hnotReady 1 3).mpr (by decide +kernel)
  refine ⟨hunready, ?_, ?_, ?_, hreason 1 3⟩
  · rw [← hunready]
    refine hcongr "deployments" restated ((alike_iff _ _).mpr (by decide +kernel)) ?_
    intro controller hsome
    obtain rfl := Option.some.inj (hcontroller.symm.trans hsome)
    decide +kernel
  · exact hready (pods 4 3) (by decide +kernel) (by decide +kernel) (by decide +kernel)
  · exact hwanted (pods 1 5) (by decide +kernel) (by decide +kernel) (by simp [hunready])

/-- A negative count and one that is written as a text count as absent. -/
example :
    let object := Json.object [
      ("spec", .object [("replicas", .number (.integer true 2))]),
      ("status", .object [("readyReplicas", .string "1")])]
    ofObject "Deployment" object = .notReady 0 1 := by decide +kernel

end Readiness
end Rollout
