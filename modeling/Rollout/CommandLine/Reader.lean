import Rollout.CommandLine.Options

/-!
# Reading a command line

The arguments before the subcommand and those after it are two levels.  On each level an option is
given at most once.  A shared option may be given on both levels, and then the one after the
subcommand counts.

## Strategy

A level is read argument by argument.  An option that takes its value from the next argument stays
pending until the argument after the value has been looked at, and only then its value is checked.
So a fault of the later argument itself, such as an unknown name, comes before a fault of the value.
-/

namespace Rollout.CommandLine

/-! ## One level -/

/-- An option that was given, with its value; a flag has the empty value. -/
abbrev Given : Type := CommandOption × String

/-- How far a level has been read. -/
structure Scan where
  given : List Given := []
  /-- An option whose value is an argument of its own, and that value once it is there. -/
  pending : Option (CommandOption × Option String) := none
  /-- Whether two hyphens on their own have ended the options. -/
  trailing : Bool := false
  deriving DecidableEq, Repr, Inhabited

namespace Scan

/-- Whether the next argument is needed as a value. -/
def isAwaiting (scan : Scan) : Bool :=
  scan.pending.any (·.2.isNone)

/-- Takes in an option with its value. -/
def record (option : CommandOption) (value : String) (scan : Scan) : Except UsageFault Scan :=
  if option ∈ scan.given.map (·.1) then .error .repeatedArgument
  else if option = .help then .error .helpRequested
  else if option = .version then .error .versionRequested
  else if option.accepts value then .ok { scan with given := scan.given ++ [(option, value)] }
  else .error .invalidValue

/-- Takes in the pending option. -/
def settle (scan : Scan) : Except UsageFault Scan :=
  match scan.pending with
  | none => .ok scan
  | some (_, none) => .error .missingValue
  | some (option, some value) => { scan with pending := none }.record option value

/-- Takes in an option with its value, after the pending one. -/
def give (option : CommandOption) (value : String) (scan : Scan) : Except UsageFault Scan := do
  let scan ← scan.settle
  scan.record option value

/-- Makes an option the pending one. -/
def await (option : CommandOption) (scan : Scan) : Except UsageFault Scan := do
  let scan ← scan.settle
  return { scan with pending := some (option, none) }

/-- Gives the pending option its value. -/
def supply (value : String) (scan : Scan) : Scan :=
  { scan with pending := scan.pending.map fun (option, _) => (option, some value) }

end Scan

/-! ## Arguments -/

/-- A name and, after an equals sign, a value. -/
def splitEquals (chars : List Char) : String × Option String :=
  (String.ofList (chars.takeWhile (· ≠ '=')),
    (chars.dropWhile (· ≠ '=')).tail?.map String.ofList)

/-- Reads an option after two hyphens. -/
def readLong (available : List CommandOption) (chars : List Char) (scan : Scan) :
    Except UsageFault Scan :=
  let (name, value?) := splitEquals chars
  match available.find? (·.long = name) with
  | none => .error .unknownArgument
  | some option =>
      match option.takesValue, value? with
      | true, some value => scan.give option value
      | true, none => scan.await option
      | false, none => scan.give option ""
      | false, some _ => .error .unexpectedValue

/-- The value of an option that follows its letter. -/
def attachedValue : List Char → String
  | '=' :: rest => String.ofList rest
  | chars => String.ofList chars

/-- Reads the letters of options after one hyphen. -/
def readLetters (available : List CommandOption) : List Char → Scan → Except UsageFault Scan
  | [], scan => .ok scan
  | letter :: rest, scan =>
      match available.find? (·.short? = some letter) with
      | none => .error .unknownArgument
      | some option =>
          if !option.takesValue then do
            let scan ← scan.give option ""
            readLetters available rest scan
          else if rest.isEmpty then scan.await option
          else scan.give option (attachedValue rest)

/-- Reads an argument; `stray` is the fault of an argument that is no option and no value.  After
two hyphens on their own no argument is a value, not even for an option that still needs one. -/
def readArgument (available : List CommandOption) (stray : Scan → UsageFault) (argument : String)
    (scan : Scan) : Except UsageFault Scan :=
  let plain : Except UsageFault Scan :=
    if scan.isAwaiting then .ok (scan.supply argument) else .error (stray scan)
  if scan.trailing then .error (stray scan)
  else
    match argument.toList with
    | ['-', '-'] => .ok { scan with trailing := true }
    | '-' :: '-' :: name => readLong available name scan
    | ['-'] => plain
    | '-' :: letters => readLetters available letters scan
    | _ => plain

/-! ## The level after the subcommand -/

/-- The options of a subcommand's level. -/
def subcommandOptions (subcommand : Subcommand) : List CommandOption :=
  CommandOption.shared ++ subcommand.ownOptions ++ [.help]

/-- Reads the arguments after a subcommand. -/
def readSubcommand (subcommand : Subcommand) : List String → Scan → Except UsageFault (List Given)
  | [], scan => do
      let scan ← scan.settle
      return scan.given
  | argument :: rest, scan => do
      let scan ← readArgument (subcommandOptions subcommand) (fun _ => .unknownArgument) argument
        scan
      readSubcommand subcommand rest scan

/-! ## The level before the subcommand -/

/-- The options that may stand before a subcommand. -/
def rootOptions : List CommandOption := CommandOption.shared ++ [.help, .version]

/-- The word that asks for help. -/
def helpWord : String := "help"

/-- Whether a word stands for a subcommand or for help. -/
def isCommandWord (word : String) : Bool :=
  (Subcommand.named? word).isSome || word = helpWord

/-- What becomes of a request for help on the given words. -/
def helpFault : List String → UsageFault
  | [] => .helpRequested
  | [word] => if isCommandWord word then .helpRequested else .unknownSubcommand
  | _ => .unknownSubcommand

/-- The fault of an argument before the subcommand that is no option and no value. -/
def strayBefore (argument : String) (scan : Scan) : UsageFault :=
  if scan.trailing && isCommandWord argument then .unknownArgument else .unknownSubcommand

/-- The options before the subcommand, the subcommand, and the options after it. -/
structure Levels where
  before : List Given
  subcommand : Subcommand
  after : List Given
  deriving DecidableEq, Repr

/-- Reads the arguments from the first level on. -/
def readRoot : List String → Scan → Except UsageFault Levels
  | [], scan => do
      let scan ← scan.settle
      if scan.given.isEmpty then throw .nothingGiven else throw .missingSubcommand
  | argument :: rest, scan =>
      let named? := if scan.trailing || scan.isAwaiting then none else some argument
      match named?.bind Subcommand.named? with
      | some subcommand => do
          -- a fault after the subcommand comes before a fault of the option that is still pending
          let after ← readSubcommand subcommand rest {}
          let scan ← scan.settle
          return ⟨scan.given, subcommand, after⟩
      | none =>
          if named? = some helpWord then .error (helpFault rest)
          else do
            let scan ← readArgument rootOptions (strayBefore argument) argument scan
            readRoot rest scan

/-! ## The command line -/

namespace Levels

/-- Whether a flag was given. -/
def isGiven (option : CommandOption) (levels : Levels) : Bool :=
  option ∈ (levels.before ++ levels.after).map (·.1)

/-- The value of an option; the one after the subcommand counts. -/
def value? (option : CommandOption) (levels : Levels) : Option String :=
  (levels.after.lookup option).or (levels.before.lookup option)

/-- The command that the options on both levels describe. -/
def command (levels : Levels) : Command :=
  let run : RunOptions :=
    ⟨levels.isGiven .dryRun, levels.value? .report, levels.value? .executionId⟩
  match levels.subcommand with
  | .install => .install run
  | .uninstall => .uninstall run
  | .verify =>
      .verify {
        strict := levels.isGiven .strict
        waitAttempts? := ((levels.value? .waitAttempts).bind Text.signed?).map fun number =>
          UInt32.ofNat number.toNat
        waitInterval? := ((levels.value? .waitInterval).bind Text.unsigned?).map UInt64.ofNat }
  | .plan => .plan (levels.isGiven .reverse)

/-- The command line that the levels make up. -/
def commandLine (levels : Levels) : CommandLine where
  config? := levels.value? .config
  manifestDirectory? := levels.value? .manifestDirectory
  kubectl? := levels.value? .kubectl
  context? := levels.value? .context
  kubeconfig? := levels.value? .kubeconfig
  namespaceName? := levels.value? .namespaceName
  verbose := levels.isGiven .verbose
  jsonLogs := levels.isGiven .jsonLogs
  command := levels.command

end Levels

/-- Reads a command line, given without the name of the program. -/
def read (arguments : List String) : Except UsageFault CommandLine := do
  let levels ← readRoot arguments {}
  return levels.commandLine

end Rollout.CommandLine
