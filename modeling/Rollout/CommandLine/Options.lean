import Rollout.Config.Basic
import Rollout.Text.Numeral

/-!
# The command line

What a user can ask for on the command line: a subcommand with its own options, and options that
hold for every subcommand.
-/

namespace Rollout

/-! ## What was asked for -/

/-- The options of an installation or an uninstallation. -/
structure RunOptions where
  dryRun : Bool := false
  report? : Option String := none
  executionId? : Option String := none
  deriving DecidableEq, Repr, Inhabited

/-- The options of a verification. -/
structure VerifyOptions where
  strict : Bool := false
  waitAttempts? : Option UInt32 := none
  waitInterval? : Option UInt64 := none
  deriving DecidableEq, Repr, Inhabited

/-- A subcommand with its own options. -/
inductive Command
  | install (options : RunOptions)
  | verify (options : VerifyOptions)
  | uninstall (options : RunOptions)
  /-- A plan, of the uninstallation if it is reversed. -/
  | plan (reverse : Bool)
  deriving DecidableEq, Repr, Inhabited

/-- A command line. -/
structure CommandLine where
  config? : Option String := none
  manifestDirectory? : Option String := none
  kubectl? : Option String := none
  context? : Option String := none
  kubeconfig? : Option String := none
  namespaceName? : Option String := none
  verbose : Bool := false
  jsonLogs : Bool := false
  command : Command
  deriving DecidableEq, Repr, Inhabited

/-! ## How it is written -/

/-- The options that can be written, of all subcommands. -/
inductive CommandOption
  | config
  | manifestDirectory
  | kubectl
  | context
  | kubeconfig
  | namespaceName
  | verbose
  | jsonLogs
  | dryRun
  | report
  | executionId
  | strict
  | waitAttempts
  | waitInterval
  | reverse
  | help
  | version
  deriving DecidableEq, Repr, Inhabited

namespace CommandOption

/-- The name of an option after two hyphens. -/
def long : CommandOption → String
  | config => "config"
  | manifestDirectory => "manifest-dir"
  | kubectl => "kubectl"
  | context => "context"
  | kubeconfig => "kubeconfig"
  | namespaceName => "namespace"
  | verbose => "verbose"
  | jsonLogs => "json-logs"
  | dryRun => "dry-run"
  | report => "report"
  | executionId => "execution-id"
  | strict => "strict"
  | waitAttempts => "wait-attempts"
  | waitInterval => "wait-interval"
  | reverse => "reverse"
  | help => "help"
  | version => "version"

/-- The letter of an option after one hyphen, if it has one. -/
def short? : CommandOption → Option Char
  | config => some 'c'
  | namespaceName => some 'n'
  | verbose => some 'v'
  | help => some 'h'
  | version => some 'V'
  | _ => none

/-- Whether an option is written with a value; otherwise it is a flag. -/
def takesValue : CommandOption → Bool
  | config | manifestDirectory | kubectl | context | kubeconfig | namespaceName | report
  | executionId | waitAttempts | waitInterval => true
  | verbose | jsonLogs | dryRun | strict | reverse | help | version => false

/-- Whether a text can be the value of an option.  Two options take numbers: the first a word of
thirty-two bits with an optional sign, the second a word of sixty-four bits with an optional plus
sign. -/
def accepts : CommandOption → String → Bool
  | waitAttempts, value =>
      (Text.signed? value).any fun number => 0 ≤ number && number < Int.ofNat UInt32.size
  | waitInterval, value => (Text.unsigned? value).any (· < UInt64.size)
  | _, _ => true

/-- The options that hold for every subcommand, and may stand before it or after it. -/
def shared : List CommandOption :=
  [config, manifestDirectory, kubectl, context, kubeconfig, namespaceName, verbose, jsonLogs]

end CommandOption

/-- The names of the subcommands. -/
inductive Subcommand
  | install
  | verify
  | uninstall
  | plan
  deriving DecidableEq, Repr, Inhabited

namespace Subcommand

/-- All subcommands. -/
def all : List Subcommand := [install, verify, uninstall, plan]

/-- The word that names a subcommand. -/
def word : Subcommand → String
  | install => "install"
  | verify => "verify"
  | uninstall => "uninstall"
  | plan => "plan"

/-- The subcommand that a word stands for. -/
def named? (word : String) : Option Subcommand :=
  all.find? (·.word = word)

@[simp]
theorem named?_word (subcommand : Subcommand) : named? subcommand.word = some subcommand := by
  cases subcommand <;> rfl

/-- The options that only this subcommand has. -/
def ownOptions : Subcommand → List CommandOption
  | install | uninstall => [.dryRun, .report, .executionId]
  | verify => [.strict, .waitAttempts, .waitInterval]
  | plan => [.reverse]

end Subcommand

/-- Why a command line is not understood, or not meant to be carried out. -/
inductive UsageFault
  | helpRequested
  | versionRequested
  /-- Nothing was given at all. -/
  | nothingGiven
  | missingSubcommand
  | unknownSubcommand
  | unknownArgument
  | repeatedArgument
  | missingValue
  | unexpectedValue
  | invalidValue
  deriving DecidableEq, Repr, Inhabited

end Rollout
