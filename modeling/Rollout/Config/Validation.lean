import Rollout.Config.Basic
import Rollout.Config.Rules

/-!
# Validation

Whether a configuration can be used.  The rules are checked in a fixed order, and the first one that
is broken is the error: the deployment's name, the directory, the options of kubectl, the steps as a
whole, each step on its own, and the bounds of the verification.
-/

namespace Rollout

/-- The extensions of manifest files. -/
def manifestExtensions : List String := ["yaml", "yml", "json"]

/-- Checks a value that may be missing. -/
def checkOptional {α : Type} (check : α → Except Failure Unit) :
    Option α → Except Failure Unit
  | none => .ok ()
  | some value => check value

@[simp]
theorem checkOptional_none {α : Type} (check : α → Except Failure Unit) :
    checkOptional check none = .ok () := rfl

@[simp]
theorem checkOptional_some {α : Type} (check : α → Except Failure Unit) (value : α) :
    checkOptional check (some value) = check value := rfl

/-! ## Sections -/

/-- Accepts the options for kubectl, or names the first that is not acceptable. -/
def KubectlSection.validate (options : KubectlSection) : Except Failure Unit := do
  checkOptional (fun value => Rules.require "kubectl.binary" value (Rules.pathFault? value))
    options.binary?
  checkOptional (fun value => Rules.require "kubectl.kubeconfig" value (Rules.pathFault? value))
    options.kubeconfig?
  checkOptional (fun value => Rules.require "kubectl.context" value (Rules.blankFault? value))
    options.context?
  checkOptional (fun value => Rules.require "kubectl.namespace" value (Rules.namespaceFault? value))
    options.namespaceName?

/-- The place of a step in messages. -/
def Step.field (step : Step) : String := "manifests.steps." ++ step.name

/-- Checks the object that a step declares: kind and name come together or not at all. -/
def Step.validateTarget (step : Step) : Except Failure Unit :=
  match step.kind?, step.resource? with
  | some kind, some resource => do
      Rules.require (step.field ++ ".kind") kind (Rules.blankFault? kind)
      Rules.require (step.field ++ ".resource") resource (Rules.objectNameFault? resource)
  | none, none => .ok ()
  | _, _ => .error (.configuration step.field .incompleteTarget)

/-- Checks a step. -/
def Step.validate (step : Step) : Except Failure Unit := do
  Rules.require "manifests.steps.name" step.name (Rules.blankFault? step.name)
  let file := step.file.text
  Rules.require (step.field ++ ".file") file (Rules.pathFault? file)
  Rules.requireExtensions (step.field ++ ".file") manifestExtensions [file]
  step.validateTarget

/-- Checks steps one after the other. -/
def validateSteps : List Step → Except Failure Unit
  | [] => .ok ()
  | step :: rest => do
      step.validate
      validateSteps rest

/-- Checks that a number lies between two bounds. -/
def requireBetween (field : String) (least greatest value : Nat) : Except Failure Unit :=
  Rules.require field (toString value) (Rules.rangeFault? least greatest value)

/-- Checks the bounds of the verification. -/
def VerifySection.validate (options : VerifySection) : Except Failure Unit := do
  checkOptional (fun attempts => requireBetween "verify.wait_attempts" 1 1000 attempts.toNat)
    options.waitAttempts?
  checkOptional
    (fun seconds => requireBetween "verify.wait_interval_seconds" 0 3600 seconds.toNat)
    options.waitIntervalSeconds?

/-! ## The configuration -/

/-- Checks a configuration. -/
def Config.validate (config : Config) : Except Failure Unit := do
  let name := config.deployment.name
  Rules.require "deployment.name" name (Rules.blankFault? name)
  Rules.require "manifests.directory" config.directory (Rules.pathFault? config.directory)
  checkOptional KubectlSection.validate config.kubectl?
  if config.steps.isEmpty then throw (.missingValue "manifests.steps")
  Rules.requireDistinct "manifests.steps.name" (config.steps.map (·.name))
  validateSteps config.steps
  checkOptional VerifySection.validate config.verify?

/-- The configuration without anything written is valid. -/
example : (Config.validate {}).isOk = true := by decide +kernel

/-- Steps are checked one after the other. -/
theorem validateSteps_eq_ok_iff (steps : List Step) :
    validateSteps steps = .ok () ↔ ∀ step ∈ steps, step.validate = .ok () := by
  induction steps with
  | nil => simp [validateSteps]
  | cons step rest ih =>
      cases hstep : step.validate with
      | error error => simp [validateSteps, hstep, bind, Except.bind]
      | ok done => simp [validateSteps, hstep, bind, Except.bind, ih]

end Rollout
