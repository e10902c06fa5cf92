import Rollout.Failure.Cause

/-!
# What an error means for the user

Each error has a category, a severity, an exit code for the program, a short message for a person
and a suggestion of what to do next.
-/

namespace Rollout

/-- The part of the program's work that an error belongs to. -/
inductive Category
  | configuration
  | manifest
  | controlPlane
  | verification
  | system
  deriving DecidableEq, Repr, Inhabited

/-- How bad an error is. -/
inductive Severity
  | low
  | medium
  | high
  | critical
  deriving DecidableEq, Repr, Inhabited

/-- The exit code that stands for a severity. -/
def Severity.exitCode : Severity → Int
  | .low => 0
  | .medium => 2
  | .high => 1
  | .critical => 3

namespace Failure

/-- The part of the program's work that the error belongs to. -/
def category : Failure → Category
  | configuration .. | invalidValue .. | missingValue .. => .configuration
  | manifestNotFound .. => .manifest
  | commandNotStarted .. | commandFailed .. => .controlPlane
  | unreadableStatus .. | notReady .. => .verification
  | io .. | serialization .. => .system

/-- How bad the error is. -/
def severity : Failure → Severity
  | notReady .. => .medium
  | io .. | commandNotStarted .. => .critical
  | _ => .high

/-- The exit code of the program.  A failed command passes its own exit code on, unless that is
zero; every other error has the code of its severity. -/
def exitCode : Failure → Int
  | commandFailed _ _ (some code) _ => if code = 0 then Severity.high.exitCode else code
  | error => error.severity.exitCode

/-- What the user can do about the error. -/
def suggestion : Failure → String
  | configuration field _ | invalidValue field _ _ =>
      "Fix the '" ++ field ++ "' setting in the config file or on the command line"
  | missingValue field => "Provide a value for '" ++ field ++ "'"
  | manifestNotFound _ => "Check --manifest-dir or the [manifests] section of the config file"
  | commandNotStarted program _ =>
      "Make sure '" ++ program ++ "' is installed and on PATH, or pass --kubectl <path>"
  | commandFailed _ .apply _ _ =>
      "Fix the failing manifest and run install again; applied steps are kept"
  | commandFailed _ .delete _ _ =>
      "Resolve the error and run uninstall again; it is safe to repeat"
  | commandFailed _ .get _ _ => "Check cluster connectivity with 'kubectl get nodes'"
  | unreadableStatus .. => "Check that the configured kind is correct for the resource"
  | notReady _ => "Wait for the workloads to start or raise --wait-attempts"
  | io _ | serialization _ => "Check file permissions and available disk space"

/-- The error in few words, for a person. -/
def friendly : Failure → String
  | commandFailed step operation _ _ =>
      "kubectl " ++ operation.name ++ " failed at step '" ++ step ++ "'"
  | commandNotStarted program _ => "Could not start '" ++ program ++ "'"
  | notReady resources => "Not ready: " ++ ", ".intercalate resources
  | error => error.message

/-- A command that reports success in its exit code and still counts as failed has the code of its
severity. -/
example : (commandFailed "step" .delete (some 0) "").exitCode = 1 := rfl

end Failure
end Rollout
