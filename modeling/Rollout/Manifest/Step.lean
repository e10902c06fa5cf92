import Rollout.Path

/-!
# Manifest steps

A step of a deployment: one manifest file, the stage it belongs to and, optionally, the object that
shows whether the step has taken effect.  The stages order the steps; the action says whether the
manifests are applied or deleted.
-/

namespace Rollout

/-! ## Stages -/

/-- The stages of a deployment, earliest first. -/
inductive Stage
  | config
  | workloads
  | identityBindings
  | services
  deriving DecidableEq, Repr, Inhabited

namespace Stage

/-- All stages, earliest first. -/
def all : List Stage := [config, workloads, identityBindings, services]

/-- The position of a stage, counted from zero. -/
def rank : Stage → Nat
  | config => 0
  | workloads => 1
  | identityBindings => 2
  | services => 3

/-- The name of a stage, in configuration files and in plans. -/
def name : Stage → String
  | config => "config"
  | workloads => "workloads"
  | identityBindings => "identity-bindings"
  | services => "services"

/-- The stage with a name. -/
def named? (text : String) : Option Stage :=
  all.find? (·.name = text)

end Stage

/-! ## Actions and operations -/

/-- What is done with the manifests of a deployment. -/
inductive Action
  | apply
  | delete
  deriving DecidableEq, Repr, Inhabited

/-- What is asked of the control plane. -/
inductive Operation
  | apply
  | delete
  | get
  deriving DecidableEq, Repr, Inhabited

/-- The name of an operation, in messages and reports. -/
def Operation.name : Operation → String
  | .apply => "apply"
  | .delete => "delete"
  | .get => "get"

namespace Action

/-- The operation that carries out an action. -/
def operation : Action → Operation
  | apply => .apply
  | delete => .delete

/-- The name of an action is that of its operation. -/
def name (action : Action) : String := action.operation.name

/-- The name of a run that carries out an action. -/
def title : Action → String
  | apply => "Install"
  | delete => "Uninstall"

end Action

/-! ## Steps -/

/-- An object that shows whether a step has taken effect. -/
structure Target where
  step : String
  kind : String
  resource : String
  clusterScoped : Bool
  deriving DecidableEq, Repr, Inhabited

/-- The object as it is named in messages. -/
def Target.label (target : Target) : String :=
  target.kind ++ "/" ++ target.resource

/-- One manifest file and what it creates. -/
structure Step where
  name : String
  file : Path
  stage : Stage
  kind? : Option String := none
  resource? : Option String := none
  clusterScoped : Bool := false
  deriving DecidableEq, Repr, Inhabited

namespace Step

/-- The object to query.  There is one when both its kind and its name are declared. -/
def target? (step : Step) : Option Target :=
  match step.kind?, step.resource? with
  | some kind, some resource => some ⟨step.name, kind, resource, step.clusterScoped⟩
  | _, _ => none

/-- The step with its file looked up in a base directory. -/
def resolve (base : Path) (step : Step) : Step :=
  { step with file := base.join step.file }

@[simp]
theorem stage_resolve (base : Path) (step : Step) : (step.resolve base).stage = step.stage := rfl

@[simp]
theorem name_resolve (base : Path) (step : Step) : (step.resolve base).name = step.name := rfl

@[simp]
theorem file_resolve (base : Path) (step : Step) :
    (step.resolve base).file = base.join step.file := rfl

@[simp]
theorem target?_resolve (base : Path) (step : Step) :
    (step.resolve base).target? = step.target? := rfl

/-- A step has an object to query exactly when it declares a kind and a name. -/
theorem isSome_target?_iff (step : Step) :
    step.target?.isSome ↔ step.kind?.isSome ∧ step.resource?.isSome := by
  cases hkind : step.kind? <;> cases hresource : step.resource? <;>
    simp [target?, hkind, hresource]

end Step
end Rollout
