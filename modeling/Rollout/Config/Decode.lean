import Rollout.Config.Basic
import Rollout.Config.Placeholder
import Rollout.Number.DoubleRange
import Rollout.Toml.Document

/-!
# Configuration files

How a TOML document is read as a configuration.  Placeholders are replaced in the text before it is
read.

## Shapes

A record is written as a table whose keys are the names of its fields, or as an array of all its
fields in order; further elements are not looked at.  A date or time is a record without any known
key.  Keys that are not known are ignored, but the numbers in their values must be well formed and
within the range of what can be read.  A stage is written as its name, or as a table with its name
as the only key and something empty as its value.
-/

namespace Rollout.Config

open Toml (Value Entries)

/-- Why a document is no configuration. -/
inductive Mismatch
  | expected (shape : String)
  | missingField (name : String)
  | outOfRange (value : Int)
  | realOutOfRange
  | malformedNumber (text : String)
  | unknownStage (name : String)
  deriving DecidableEq, Repr

/-- The mismatch in words. -/
def Mismatch.message : Mismatch → String
  | .expected shape => "expected " ++ shape
  | .missingField name => "missing field '" ++ name ++ "'"
  | .outOfRange value => "number " ++ toString value ++ " out of range"
  | .realOutOfRange => "floating point number out of range"
  | .malformedNumber text => "malformed number '" ++ text ++ "'"
  | .unknownStage name => "unknown stage '" ++ name ++ "'"

/-! ## Values that are ignored -/

/-- The least whole number that can be read at all. -/
def leastInteger : Int := -Int.ofNat (Nat.pow 2 127)

/-- The greatest whole number that can be read at all. -/
def greatestInteger : Int := Int.ofNat (Nat.pow 2 128 - 1)

/-- Whether a number can be read at all. -/
def isReadableReal : Toml.Real → Bool
  | .finite coefficient exponent => !Number.exceedsDouble coefficient exponent
  | .infinite | .notNumber => true

mutual

/-- Looks through a value that is ignored. -/
def ignore : Value → Except Mismatch Unit
  | .integer value =>
      if leastInteger ≤ value ∧ value ≤ greatestInteger then .ok () else .error (.outOfRange value)
  | .malformed text => .error (.malformedNumber text)
  | .real value => if isReadableReal value then .ok () else .error .realOutOfRange
  | .array _ items => ignoreItems items
  | .table _ entries => ignoreEntries entries
  | .string _ | .boolean _ | .moment _ => .ok ()

/-- Looks through values that are ignored. -/
def ignoreItems : List Value → Except Mismatch Unit
  | [] => .ok ()
  | item :: rest => do
      ignore item
      ignoreItems rest

/-- Looks through the values of a table that is ignored. -/
def ignoreEntries : List (String × Value) → Except Mismatch Unit
  | [] => .ok ()
  | (_, value) :: rest => do
      ignore value
      ignoreEntries rest

end

/-! ## Single values -/

/-- A text. -/
def decodeText : Value → Except Mismatch String
  | .string text => .ok text
  | _ => .error (.expected "a string")

/-- A truth value. -/
def decodeFlag : Value → Except Mismatch Bool
  | .boolean value => .ok value
  | _ => .error (.expected "a boolean")

/-- A natural number below a limit. -/
def decodeNatural (limit : Nat) : Value → Except Mismatch Nat
  | .integer value =>
      if 0 ≤ value ∧ value < limit then .ok value.toNat else .error (.outOfRange value)
  | _ => .error (.expected "a whole number")

/-- A word of thirty-two bits. -/
def decodeWord32 (value : Value) : Except Mismatch UInt32 :=
  (decodeNatural UInt32.size value).map UInt32.ofNat

/-- A word of sixty-four bits. -/
def decodeWord64 (value : Value) : Except Mismatch UInt64 :=
  (decodeNatural UInt64.size value).map UInt64.ofNat

/-- The stage with a name. -/
def decodeStageName (name : String) : Except Mismatch Stage :=
  match Stage.named? name with
  | some stage => .ok stage
  | none => .error (.unknownStage name)

/-- Whether a value has nothing in it. -/
def isEmptyValue : Value → Bool
  | .array _ items => items.isEmpty
  | .table _ entries => entries.isEmpty
  | _ => false

/-- A stage, given by its name or by a table whose only key is the name and whose value is empty. -/
def decodeStage : Value → Except Mismatch Stage
  | .string name => decodeStageName name
  | .table _ [(name, value)] => do
      let stage ← decodeStageName name
      if isEmptyValue value then return stage else throw (.expected "something empty")
  | _ => .error (.expected "a stage")

/-! ## Records -/

/-- The written form of a record. -/
inductive Shape
  /-- Fields by their names. -/
  | named (entries : Entries)
  /-- Fields by their positions. -/
  | positional (items : List Value)

/-- The fields of a record; those of a table that are not among the known names are ignored. -/
def shapeOf (known : List String) : Value → Except Mismatch Shape
  | .table _ entries => do
      ignoreEntries (entries.filter (·.1 ∉ known))
      return .named entries
  | .array _ items => .ok (.positional items)
  | .moment _ => .ok (.named [])
  | _ => .error (.expected "a table")

/-- The value of a field, given by its name and its position. -/
def Shape.field? (name : String) (position : Nat) : Shape → Option Value
  | .named entries => entries.lookup name
  | .positional items => items[position]?

/-- A field that may be left out of a table, but not of an array. -/
def optionalField {α : Type} (decode : Value → Except Mismatch α) (name : String) (position : Nat)
    (shape : Shape) : Except Mismatch (Option α) :=
  match shape.field? name position, shape with
  | some value, _ => (decode value).map some
  | none, .named _ => .ok none
  | none, .positional _ => .error (.missingField name)

/-- A field that may not be left out. -/
def requiredField {α : Type} (decode : Value → Except Mismatch α) (name : String) (position : Nat)
    (shape : Shape) : Except Mismatch α :=
  match shape.field? name position with
  | some value => decode value
  | none => .error (.missingField name)

/-- A field that has a value of its own when it is left out. -/
def defaultedField {α : Type} (decode : Value → Except Mismatch α) (default : α) (name : String)
    (position : Nat) (shape : Shape) : Except Mismatch α :=
  match shape.field? name position with
  | some value => decode value
  | none => .ok default

/-! ## Sections -/

/-- The section about the deployment, which has to name it. -/
def decodeDeployment (value : Value) : Except Mismatch DeploymentSection := do
  let shape ← shapeOf ["name", "description", "version"] value
  return {
    name := ← requiredField decodeText "name" 0 shape
    description? := ← optionalField decodeText "description" 1 shape
    version? := ← optionalField decodeText "version" 2 shape }

/-- How kubectl is called. -/
def decodeKubectl (value : Value) : Except Mismatch KubectlSection := do
  let shape ← shapeOf ["binary", "kubeconfig", "context", "namespace"] value
  return {
    binary? := ← optionalField decodeText "binary" 0 shape
    kubeconfig? := ← optionalField decodeText "kubeconfig" 1 shape
    context? := ← optionalField decodeText "context" 2 shape
    namespaceName? := ← optionalField decodeText "namespace" 3 shape }

/-- One step.  Its name, file and stage must be there. -/
def decodeStep (value : Value) : Except Mismatch Step := do
  let shape ← shapeOf ["name", "file", "stage", "kind", "resource", "cluster_scoped"] value
  return {
    name := ← requiredField decodeText "name" 0 shape
    file := ⟨← requiredField decodeText "file" 1 shape⟩
    stage := ← requiredField decodeStage "stage" 2 shape
    kind? := ← optionalField decodeText "kind" 3 shape
    resource? := ← optionalField decodeText "resource" 4 shape
    clusterScoped := ← defaultedField decodeFlag false "cluster_scoped" 5 shape }

/-- Steps, one after the other. -/
def decodeStepList : List Value → Except Mismatch (List Step)
  | [] => .ok []
  | item :: rest => do
      let step ← decodeStep item
      let steps ← decodeStepList rest
      return step :: steps

/-- The list of steps. -/
def decodeSteps : Value → Except Mismatch (List Step)
  | .array _ items => decodeStepList items
  | _ => .error (.expected "an array")

/-- Which manifests are deployed. -/
def decodeManifests (value : Value) : Except Mismatch ManifestsSection := do
  let shape ← shapeOf ["directory", "steps"] value
  return {
    directory? := ← optionalField decodeText "directory" 0 shape
    steps? := ← optionalField decodeSteps "steps" 1 shape }

/-- How the deployment is verified. -/
def decodeVerify (value : Value) : Except Mismatch VerifySection := do
  let shape ← shapeOf ["wait_attempts", "wait_interval_seconds", "strict"] value
  return {
    waitAttempts? := ← optionalField decodeWord32 "wait_attempts" 0 shape
    waitIntervalSeconds? := ← optionalField decodeWord64 "wait_interval_seconds" 1 shape
    strict? := ← optionalField decodeFlag "strict" 2 shape }

/-- The configuration that a document describes. -/
def decode (root : Entries) : Except Mismatch Config := do
  let shape ← shapeOf ["deployment", "kubectl", "manifests", "verify"] (.table .header root)
  return {
    deployment := ← defaultedField decodeDeployment {} "deployment" 0 shape
    kubectl? := ← optionalField decodeKubectl "kubectl" 1 shape
    manifests := ← defaultedField decodeManifests {} "manifests" 2 shape
    verify? := ← optionalField decodeVerify "verify" 3 shape }

/-! ## Texts and files -/

/-- The error of a text that is no configuration. -/
def unreadable (detail : String) : Failure :=
  .configuration "toml_parsing" (.unreadable detail)

/-- The configuration that a document describes. -/
def ofDocument (text : String) : Except Failure Config :=
  match Toml.parse text with
  | .error fault => .error (unreadable fault.message)
  | .ok root =>
      match decode root with
      | .error mismatch => .error (unreadable mismatch.message)
      | .ok config => .ok config

/-- The configuration that a text describes, once its placeholders are replaced. -/
def ofText (lookup : String → Option String) (text : String) :
    Except Failure Config :=
  ofDocument (Placeholder.expand lookup text)

/-- The configuration that a file describes, once its placeholders have been replaced. -/
def ofFile (lookup : String → Option String) (read : Path → Except IoFault String)
    (file : Path) : Except Failure Config :=
  match read file with
  | .error fault => .error (.io fault)
  | .ok text => ofText lookup text

end Rollout.Config
