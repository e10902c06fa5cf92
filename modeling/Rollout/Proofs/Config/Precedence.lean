import Mathlib.Control.Monad.Basic
import Mathlib.Data.Option.Basic
import Rollout.CommandLine.Overrides
import Rollout.Proofs.Config.Usable

/-!
# The command line goes before the file

The settings take every value from the command line if it is given there, else from the
configuration file, else from what stands in for it.  Nothing but the outcome is validated.

## Strategy

A configuration may leave a section out or write an empty one, and putting the command line over a
file makes such empty sections.  `Config.contents` says what a configuration holds value by value,
whatever its sections are.  Writing all sections out changes neither what is validated nor what is
described (`settings_written`), so the settings depend on the contents alone (`settings_congr`), and
what remains is what the command line does to the contents (`contents_override`).
-/

namespace Rollout

open Requirement (FirstBroken)

/-! ## What a configuration holds -/

/-- The values of a configuration, whatever sections they are written in. -/
structure Contents where
  deployment : DeploymentSection
  directory? : Option String
  steps? : Option (List Step)
  binary? : Option String
  kubeconfig? : Option String
  context? : Option String
  namespaceName? : Option String
  waitAttempts? : Option UInt32
  waitIntervalSeconds? : Option UInt64
  strict? : Option Bool
  deriving DecidableEq, Repr

/-- What is written in a configuration, whatever sections it is written in. -/
def Config.contents (config : Config) : Contents where
  deployment := config.deployment
  directory? := config.manifests.directory?
  steps? := config.manifests.steps?
  binary? := config.kubectl?.bind (·.binary?)
  kubeconfig? := config.kubectl?.bind (·.kubeconfig?)
  context? := config.kubectl?.bind (·.context?)
  namespaceName? := config.kubectl?.bind (·.namespaceName?)
  waitAttempts? := config.verify?.bind (·.waitAttempts?)
  waitIntervalSeconds? := config.verify?.bind (·.waitIntervalSeconds?)
  strict? := config.verify?.bind (·.strict?)

/-- The configuration with all sections written out. -/
def Contents.written (contents : Contents) : Config where
  deployment := contents.deployment
  kubectl? := some ⟨contents.binary?, contents.kubeconfig?, contents.context?,
    contents.namespaceName?⟩
  manifests := ⟨contents.directory?, contents.steps?⟩
  verify? := some ⟨contents.waitAttempts?, contents.waitIntervalSeconds?, contents.strict?⟩

namespace Config

theorem kubectlOptions_written (config : Config) :
    config.contents.written.kubectlOptions = config.kubectlOptions := by
  cases hkubectl : config.kubectl? <;> simp [kubectlOptions, Contents.written, contents, hkubectl]

theorem verifySettings_written (config : Config) :
    config.contents.written.verifySettings = config.verifySettings := by
  cases hverify : config.verify? <;> simp [verifySettings, Contents.written, contents, hverify]

/-- An empty section has nothing to check. -/
theorem validate_written (config : Config) :
    config.contents.written.validate = config.validate := by
  have hkubectl : checkOptional KubectlSection.validate config.contents.written.kubectl? =
      checkOptional KubectlSection.validate config.kubectl? := by
    cases hsection : config.kubectl? with
    | none =>
        simp only [Contents.written, contents, hsection]
        rfl
    | some options => simp [Contents.written, contents, hsection]
  have hverify : checkOptional VerifySection.validate config.contents.written.verify? =
      checkOptional VerifySection.validate config.verify? := by
    cases hsection : config.verify? with
    | none =>
        simp only [Contents.written, contents, hsection]
        rfl
    | some options => simp [Contents.written, contents, hsection]
  simp only [validate, hkubectl, hverify]
  rfl

theorem described_written (config : Config) :
    config.contents.written.described = config.described := by
  simp only [described, kubectlOptions_written, verifySettings_written]
  rfl

theorem settings_written (config : Config) :
    config.contents.written.settings = config.settings := by
  rw [settings, settings, validate_written, described_written]

/-- The settings depend on nothing but the values of a configuration. -/
theorem settings_congr {first second : Config} (hcontents : first.contents = second.contents) :
    first.settings = second.settings := by
  rw [← settings_written first, ← settings_written second, hcontents]

/-! ## When there are settings -/

theorem usable_iff (config : Config) : config.Usable ↔ config.validate = .ok () := by
  rw [← config.allHold_requirements, ← Requirement.check_eq_ok_iff, config.check_requirements]

theorem usable_written_iff (config : Config) :
    config.contents.written.Usable ↔ config.Usable := by
  rw [usable_iff, usable_iff, validate_written]

theorem settings_eq_ok_iff (config : Config) (settings : Settings) :
    config.settings = .ok settings ↔ config.Usable ∧ settings = config.described := by
  rw [usable_iff]
  cases hvalidate : config.validate with
  | error error => simp [settings_of_validate_error hvalidate]
  | ok done => simp [settings_of_validate_ok hvalidate, eq_comm]

theorem settings_eq_error_iff (config : Config) (error : Failure) :
    config.settings = .error error ↔ FirstBroken config.requirements error := by
  rw [← Requirement.check_eq_error_iff, config.check_requirements]
  cases hvalidate : config.validate with
  | error error => simp [settings_of_validate_error hvalidate]
  | ok done => simp [settings_of_validate_ok hvalidate]

end Config

/-- The settings hold these values, and what stands in for those that are missing. -/
structure Resolves (contents : Contents) (settings : Settings) : Prop where
  name_eq : settings.name = contents.deployment.name
  directory_eq : settings.directory = ⟨contents.directory?.getD defaultDirectory⟩
  manifests_eq : settings.manifests =
    .resolve settings.directory (contents.steps?.getD defaultSteps)
  binary_eq : settings.kubectl.binary = contents.binary?.getD "kubectl"
  kubeconfig_eq : settings.kubectl.kubeconfig? = contents.kubeconfig?
  context_eq : settings.kubectl.context? = contents.context?
  namespaceName_eq : settings.kubectl.namespaceName? = contents.namespaceName?
  attempts_eq : settings.verify.polling.attempts =
    (contents.waitAttempts?.map UInt32.toNat).getD 1
  interval_eq : settings.verify.polling.interval =
    .ofSeconds ((contents.waitIntervalSeconds?.map UInt64.toNat).getD 5)
  strict_eq : settings.verify.strict = contents.strict?.getD false

theorem resolves_described (config : Config) : Resolves config.contents config.described := by
  rw [← config.described_written]
  constructor <;> rfl

/-! ## What the command line adds -/

namespace Command

/-- The number of passes that a command asks for; only a verification can. -/
def waitAttempts? : Command → Option UInt32
  | verify options => options.waitAttempts?
  | _ => none

/-- The interval between two passes that a command asks for. -/
def waitInterval? : Command → Option UInt64
  | verify options => options.waitInterval?
  | _ => none

/-- A command can demand strictness, but not rule it out. -/
def strict? : Command → Option Bool
  | verify options => if options.strict then some true else none
  | _ => none

end Command

namespace CommandLine

/-- The values of a file, with those of the command line before them. -/
def before (line : CommandLine) (file : Contents) : Contents where
  deployment := file.deployment
  directory? := line.manifestDirectory?.or file.directory?
  steps? := file.steps?
  binary? := line.kubectl?.or file.binary?
  kubeconfig? := line.kubeconfig?.or file.kubeconfig?
  context? := line.context?.or file.context?
  namespaceName? := line.namespaceName?.or file.namespaceName?
  waitAttempts? := line.command.waitAttempts?.or file.waitAttempts?
  waitIntervalSeconds? := line.command.waitInterval?.or file.waitIntervalSeconds?
  strict? := line.command.strict?.or file.strict?

/-- The command line leaves all values to the file. -/
structure LeavesAll (line : CommandLine) : Prop where
  directory : line.manifestDirectory? = none
  binary : line.kubectl? = none
  kubeconfig : line.kubeconfig? = none
  context : line.context? = none
  namespaceName : line.namespaceName? = none
  attempts : line.command.waitAttempts? = none
  interval : line.command.waitInterval? = none
  strict : line.command.strict? = none

/-- The values that the command line gives are acceptable. -/
structure Usable (line : CommandLine) : Prop where
  directory : ∀ value ∈ line.manifestDirectory?, IsPath value
  binary : ∀ value ∈ line.kubectl?, IsPath value
  kubeconfig : ∀ value ∈ line.kubeconfig?, IsPath value
  context : ∀ value ∈ line.context?, IsWord value
  namespaceName : ∀ value ∈ line.namespaceName?, IsName 63 false value
  attempts : ∀ attempts ∈ line.command.waitAttempts?,
    1 ≤ attempts.toNat ∧ attempts.toNat ≤ 1000
  interval : ∀ seconds ∈ line.command.waitInterval?, seconds.toNat ≤ 3600

theorem contents_override (line : CommandLine) (file : Config) :
    (line.override file).contents = line.before file.contents := by
  have hkubectl : ∀ {α : Type} (value? : KubectlSection → Option α), value? {} = none →
      value? (file.kubectl?.getD {}) = file.kubectl?.bind value? := by
    intro α value? hempty
    cases file.kubectl? with
    | none => exact hempty
    | some options => rfl
  have hverify : ∀ {α : Type} (value? : VerifySection → Option α), value? {} = none →
      value? (file.verify?.getD {}) = file.verify?.bind value? := by
    intro α value? hempty
    cases file.verify? with
    | none => exact hempty
    | some options => rfl
  have hbinary := hkubectl (·.binary?) rfl
  have hkubeconfig := hkubectl (·.kubeconfig?) rfl
  have hcontext := hkubectl (·.context?) rfl
  have hnamespace := hkubectl (·.namespaceName?) rfl
  have hattempts := hverify (·.waitAttempts?) rfl
  have hinterval := hverify (·.waitIntervalSeconds?) rfl
  have hstrictness := hverify (·.strict?) rfl
  -- only a verification writes to the section about it
  cases hcommand : line.command with
  | verify options =>
      cases hstrict : options.strict <;>
        simp [override, overrideKubectl, VerifyOptions.override, Config.contents, before, hcommand,
          hbinary, hkubeconfig, hcontext, hnamespace, hattempts, hinterval, hstrictness, hstrict,
          Command.waitAttempts?, Command.waitInterval?, Command.strict?]
  | install | uninstall | plan =>
      simp [override, overrideKubectl, Config.contents, before, hcommand, hbinary, hkubeconfig,
        hcontext, hnamespace, Command.waitAttempts?, Command.waitInterval?, Command.strict?]

theorem before_of_leavesAll {line : CommandLine} (hleaves : line.LeavesAll) (file : Contents) :
    line.before file = file := by
  simp only [before, hleaves.directory, hleaves.binary, hleaves.kubeconfig, hleaves.context,
    hleaves.namespaceName, hleaves.attempts, hleaves.interval, hleaves.strict, Option.none_or]

theorem or_eq_some_of_mem {α : Type} {given? : Option α} {value : α} (hgiven : value ∈ given?)
    (held? : Option α) : given?.or held? = some value := by
  rw [hgiven, Option.some_or]

/-- A configuration that holds the values of the command line is usable only if they are. -/
theorem usable_of_contents {line : CommandLine} {file : Contents} {merged : Config}
    (hmerged : merged.contents = line.before file) (husable : merged.Usable) : line.Usable := by
  have hwritten : (line.before file).written.Usable := by
    rw [← hmerged, merged.usable_written_iff]
    exact husable
  -- what the command line gives stands in the sections that are written out
  have hkubectl := hwritten.kubectl _ rfl
  have hverify := hwritten.verify _ rfl
  refine ⟨fun value hvalue => ?_, fun value hvalue => ?_, fun value hvalue => ?_,
    fun value hvalue => ?_, fun value hvalue => ?_, fun value hvalue => ?_, fun value hvalue => ?_⟩
  · have hpath := hwritten.directory
    rw [Config.directory, Contents.written, before, or_eq_some_of_mem hvalue] at hpath
    exact hpath
  · exact hkubectl.binary value (or_eq_some_of_mem hvalue _)
  · exact hkubectl.kubeconfig value (or_eq_some_of_mem hvalue _)
  · exact hkubectl.context value (or_eq_some_of_mem hvalue _)
  · exact hkubectl.namespaceName value (or_eq_some_of_mem hvalue _)
  · exact hverify.attempts value (or_eq_some_of_mem hvalue _)
  · exact hverify.interval value (or_eq_some_of_mem hvalue _)

/-! ## The settings of a command line -/

variable {line : CommandLine} {lookup : String → Option String}
  {read : Path → Except IoFault String} {file : Config}

theorem settings_of_baseConfig (hfile : line.baseConfig lookup read = .ok file) :
    line.settings lookup read = (line.override file).settings := by
  rw [settings, hfile]
  rfl

theorem settings_of_baseConfig_error {error : Failure}
    (hfile : line.baseConfig lookup read = .error error) :
    line.settings lookup read = .error error := by
  rw [settings, hfile]
  rfl

/-- **The command line goes before the file, and the file before what stands in for missing
values.**  The settings are those of any configuration that holds the values of the command line
where they are given and those of the file elsewhere, in whatever sections.  They, and the error,
come from validating that configuration only: a file that differs in values which the command line
replaces leads to the same, and what the command line gives has to be acceptable by itself.  A
command line that gives nothing leads to the settings, or the error, of the file alone. -/
theorem settings_of_command_line_over_file (hfile : line.baseConfig lookup read = .ok file) :
    (∀ merged : Config, merged.contents = line.before file.contents →
      line.settings lookup read = merged.settings ∧
      (∀ settings, line.settings lookup read = .ok settings ↔
        merged.Usable ∧ settings = merged.described) ∧
      ∀ error, line.settings lookup read = .error error ↔
        FirstBroken merged.requirements error) ∧
    (line.override file).contents = line.before file.contents ∧
    (∀ settings, line.settings lookup read = .ok settings →
      Resolves (line.before file.contents) settings ∧ line.Usable) ∧
    (∀ other : Config, line.before other.contents = line.before file.contents →
      line.settings lookup read = (line.override other).settings) ∧
    (line.LeavesAll → line.settings lookup read = file.settings) := by
  have hmerge : ∀ merged : Config, merged.contents = line.before file.contents →
      line.settings lookup read = merged.settings := by
    intro merged hmerged
    rw [settings_of_baseConfig hfile]
    exact Config.settings_congr ((contents_override line file).trans hmerged.symm)
  refine ⟨fun merged hmerged => ?_, contents_override line file, fun settings hsettings => ?_,
    fun other hother => ?_, fun hleaves => ?_⟩
  · rw [hmerge merged hmerged]
    exact ⟨rfl, merged.settings_eq_ok_iff, merged.settings_eq_error_iff⟩
  · rw [settings_of_baseConfig hfile, Config.settings_eq_ok_iff] at hsettings
    obtain ⟨husable, rfl⟩ := hsettings
    rw [← contents_override]
    exact ⟨resolves_described _, usable_of_contents (contents_override line file) husable⟩
  · exact hmerge _ ((contents_override line other).trans hother)
  · exact hmerge file (before_of_leavesAll hleaves file.contents).symm

/-! ## A bad file made good, and a good one made bad -/

/-- A file whose namespace and number of passes are not acceptable. -/
def badFile : Config where
  kubectl? := some { context? := some "kind", namespaceName? := some "Bad_NS" }
  verify? := some { waitAttempts? := some 0 }

/-- A configuration file with two values that are not acceptable. -/
def badFileText : String :=
  "[kubectl]\ncontext = \"kind\"\nnamespace = \"Bad_NS\"\n[verify]\nwait_attempts = 0\n"

/-- A command line that replaces both of these values. -/
def mendingLine : CommandLine where
  config? := some "spire.toml"
  namespaceName? := some "demo"
  command := .verify { strict := true, waitAttempts? := some 3 }

/-- The same file with acceptable values in their place, and a strict verification. -/
def mendedFile : Config where
  kubectl? := some { context? := some "kind", namespaceName? := some "demo" }
  verify? := some { waitAttempts? := some 3, strict? := some true }

/-- The same command line with a context that is not acceptable. -/
def spoilingLine : CommandLine := { mendingLine with context? := some " " }

/-- The file alone is refused, with the first command line there are settings, and the second is
refused although the context of the file is acceptable. -/
theorem settings_of_mendingLine :
    mendingLine.baseConfig (fun _ => none) (fun _ => .ok badFileText) = .ok badFile ∧
      (∃ error, badFile.settings = .error error) ∧
      mendingLine.settings (fun _ => none) (fun _ => .ok badFileText) =
        .ok mendedFile.described ∧
      ∃ error, spoilingLine.settings (fun _ => none) (fun _ => .ok badFileText) =
        .error error := by
  have hmending : mendingLine.baseConfig (fun _ => none) (fun _ => .ok badFileText) =
      .ok badFile := by decide +kernel
  have hspoiling : spoilingLine.baseConfig (fun _ => none) (fun _ => .ok badFileText) =
      .ok badFile := by decide +kernel
  refine ⟨hmending, ⟨_, rfl⟩, ?_, ?_⟩
  · exact ((settings_of_command_line_over_file hmending).1 mendedFile rfl).1
  · have hresult := (settings_of_command_line_over_file hspoiling).2.2.1
    cases hsettings : spoilingLine.settings (fun _ => none) (fun _ => .ok badFileText) with
    | error error => exact ⟨error, rfl⟩
    | ok settings =>
        have hword := (hresult settings hsettings).2.context " " rfl
        exact absurd ((isWord_iff _).mp hword) (by decide)

end CommandLine
end Rollout
