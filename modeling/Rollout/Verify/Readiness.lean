import Rollout.Json.Value

/-!
# Readiness

When a fetched object counts as ready.  Controllers of pods state how many of their pods are ready
and how many are wanted, and are ready when the first count reaches the second.  An object of any
other kind is ready once it exists.

A kind may be followed by a dot and its group, and its case does not matter.
-/

namespace Rollout

/-- Whether an object is ready. -/
inductive Readiness
  | ready
  /-- Fewer pods are ready than are wanted. -/
  | notReady (ready desired : UInt64)
  /-- The object does not exist. -/
  | missing
  deriving DecidableEq, Repr, Inhabited

namespace Readiness

/-- Whether an object is ready. -/
def isReady : Readiness → Bool
  | ready => true
  | notReady .. | missing => false

/-- Why pods are missing, in words. -/
def reason (ready desired : UInt64) : String :=
  toString ready.toNat ++ "/" ++ toString desired.toNat ++ " replicas ready"

@[simp]
theorem isReady_ready : isReady ready = true := rfl

@[simp]
theorem isReady_notReady (count desired : UInt64) : isReady (notReady count desired) = false := rfl

@[simp]
theorem isReady_missing : isReady missing = false := rfl

theorem isReady_iff (readiness : Readiness) : readiness.isReady = true ↔ readiness = ready := by
  cases readiness <;> simp

end Readiness

/-! ## Counts -/

/-- A count that an object states. -/
structure Count where
  /-- The names of the members that lead to the count. -/
  path : List String
  /-- The count when none is stated there. -/
  absent : UInt64
  deriving DecidableEq, Repr

/-- The count in an object.  Anything but a sixty-four bit word counts as absent. -/
def Count.of (count : Count) (object : Json) : UInt64 :=
  ((object.at? count.path).bind Json.word?).getD count.absent

/-- The two counts that decide whether a controller is ready. -/
structure Controller where
  ready : Count
  desired : Count
  deriving DecidableEq, Repr

/-- Controllers that keep a number of replicas, one if they state none. -/
def replicaController : Controller :=
  ⟨⟨["status", "readyReplicas"], 0⟩, ⟨["spec", "replicas"], 1⟩⟩

/-- Controllers that keep a pod on every node that is scheduled. -/
def nodeController : Controller :=
  ⟨⟨["status", "numberReady"], 0⟩, ⟨["status", "desiredNumberScheduled"], 0⟩⟩

/-- The kinds that keep a number of replicas, with their plurals and short names. -/
def replicaKinds : List String :=
  ["deployment", "deployments", "deploy", "statefulset", "statefulsets", "sts"]

/-- The kinds that keep a pod on every node, with their plurals and short names. -/
def nodeKinds : List String := ["daemonset", "daemonsets", "ds"]

/-- A kind without its group, in lower case. -/
def bareKind (kind : String) : String :=
  String.ofList ((kind.toList.takeWhile (· ≠ '.')).map Char.toLower)

/-- The counts that matter for a kind, if it is a controller. -/
def controllerOf? (kind : String) : Option Controller :=
  let bare := bareKind kind
  if bare ∈ replicaKinds then some replicaController
  else if bare ∈ nodeKinds then some nodeController
  else none

/-! ## The rule -/

/-- The readiness of a controller with so many pods ready and so many wanted. -/
def Readiness.ofCounts (ready desired : UInt64) : Readiness :=
  if desired ≤ ready then .ready else .notReady ready desired

/-- The readiness of a fetched object. -/
def Readiness.ofObject (kind : String) (object : Json) : Readiness :=
  match controllerOf? kind with
  | some controller => .ofCounts (controller.ready.of object) (controller.desired.of object)
  | none => .ready

example : bareKind "Deployments.apps" = "deployments" := by decide +kernel

end Rollout
