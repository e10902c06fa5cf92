import Rollout.Manifest.Step
import Rollout.Text.Blank

/-!
# What can go wrong

Everything that can end a run, as causes.  The wording of a cause is in one function each:
`IoFault.message`, `Reason.message`, `ConfigProblem.message` and `Failure.message`.
-/

namespace Rollout

/-! ## Input and output -/

/-- Why the operating system refused a request. -/
inductive IoFault
  | notFound
  | permissionDenied
  | notDirectory
  | isDirectory
  | nameTooLong
  /-- A file that should be text is not UTF-8. -/
  | notText
  /-- A path holds the character NUL. -/
  | nulInPath
  /-- A program, or an argument for it, holds the character NUL. -/
  | nulInArgument
  /-- A refusal that the system describes in its own words. -/
  | described (text : String)
  deriving DecidableEq, Repr, Inhabited

/-- The words of the operating system. -/
def IoFault.message : IoFault → String
  | .notFound => "No such file or directory (os error 2)"
  | .permissionDenied => "Permission denied (os error 13)"
  | .notDirectory => "Not a directory (os error 20)"
  | .isDirectory => "Is a directory (os error 21)"
  | .nameTooLong => "File name too long (os error 36)"
  | .notText => "stream did not contain valid UTF-8"
  | .nulInPath => "file name contained an unexpected NUL byte"
  | .nulInArgument => "nul byte found in provided data"
  | .described text => text

/-! ## Values -/

/-- Why a configured value is not acceptable. -/
inductive Reason
  | emptyPath
  | nulInPath
  | blank
  | missingExtension
  | unsupportedExtension (extension : String) (allowed : List String)
  | outOfRange (least greatest : Int)
  | badLength (greatest : Nat)
  /-- A character outside the alphabet of a name, which may include dots. -/
  | badCharacter (dots : Bool)
  | badEnds
  | described (text : String)
  deriving DecidableEq, Repr, Inhabited

/-- The reason in words. -/
def Reason.message : Reason → String
  | .emptyPath => "Path cannot be empty"
  | .nulInPath => "Path contains null bytes"
  | .blank => "Value cannot be empty or whitespace-only"
  | .missingExtension => "File has no extension or invalid filename"
  | .unsupportedExtension extension allowed =>
      "Unsupported file extension: " ++ extension ++ ". Allowed extensions: " ++
        ", ".intercalate allowed
  | .outOfRange least greatest =>
      "Value must be between " ++ toString least ++ " and " ++ toString greatest
  | .badLength greatest => "Must be 1 to " ++ toString greatest ++ " characters long"
  | .badCharacter true => "May only contain lowercase letters, digits, '-' and '.'"
  | .badCharacter false => "May only contain lowercase letters, digits and '-'"
  | .badEnds => "Must start and end with a letter or digit"
  | .described text => text

/-- Why a configuration does not hold together. -/
inductive ConfigProblem
  /-- The configuration file cannot be read as one. -/
  | unreadable (detail : String)
  | duplicateEntry (value : String)
  /-- Only one of a kind and a resource is declared. -/
  | incompleteTarget
  | described (text : String)
  deriving DecidableEq, Repr, Inhabited

/-- The problem in words. -/
def ConfigProblem.message : ConfigProblem → String
  | .unreadable detail => "TOML parsing error: " ++ detail
  | .duplicateEntry value => "Duplicate entry '" ++ value ++ "'"
  | .incompleteTarget => "'kind' and 'resource' must be set together"
  | .described text => text

/-! ## Errors -/

/-- What ends a run. -/
inductive Failure
  | io (fault : IoFault)
  | serialization (detail : String)
  | configuration (field : String) (problem : ConfigProblem)
  | invalidValue (field value : String) (reason : Reason)
  | missingValue (field : String)
  | manifestNotFound (path : Path)
  /-- A command could not be started at all. -/
  | commandNotStarted (program : String) (fault : IoFault)
  /-- A command was started and failed; without an exit code, a signal ended it. -/
  | commandFailed (step : String) (operation : Operation) (exitCode? : Option Int) (stderr : String)
  /-- The status of an object is no JSON. -/
  | unreadableStatus (resource detail : String)
  | notReady (resources : List String)
  deriving DecidableEq, Repr, Inhabited

namespace Failure

/-- How a failed command ended, in words. -/
def endingText : Option Int → String
  | some code => "exit code " ++ toString code
  | none => "terminated by signal"

/-- The error in words. -/
def message : Failure → String
  | io fault => "IO error: " ++ fault.message
  | serialization detail => "Serialization error: " ++ detail
  | configuration field problem =>
      "Configuration error in '" ++ field ++ "': " ++ problem.message
  | invalidValue field value reason =>
      "Invalid value '" ++ value ++ "' for '" ++ field ++ "': " ++ reason.message
  | missingValue field => "Missing required configuration: " ++ field
  | manifestNotFound path => "Manifest file not found: " ++ path.text
  | commandNotStarted program fault => "Failed to run '" ++ program ++ "': " ++ fault.message
  | commandFailed step operation exitCode? stderr =>
      operation.name ++ " failed for step '" ++ step ++ "' (" ++ endingText exitCode? ++ "): " ++
        Text.trim stderr
  | unreadableStatus resource detail =>
      "Could not read status of " ++ resource ++ ": " ++ detail
  | notReady resources =>
      toString resources.length ++ " resource(s) not ready: " ++ ", ".intercalate resources

end Failure
end Rollout
