import Rollout.CommandLine.Options
import Rollout.Config.Decode
import Rollout.Config.Settings

/-!
# From the command line to the settings

An option of the command line goes before the configuration file, and the file goes before what
stands in for missing values.  Only the outcome is validated.
-/

namespace Rollout

/-- The options of kubectl with those of the command line put over them. -/
def CommandLine.overrideKubectl (line : CommandLine) (options : KubectlSection) :
    KubectlSection where
  binary? := line.kubectl?.or options.binary?
  kubeconfig? := line.kubeconfig?.or options.kubeconfig?
  context? := line.context?.or options.context?
  namespaceName? := line.namespaceName?.or options.namespaceName?

/-- The options of the verification with those of the command line put over them. -/
def VerifyOptions.override (given : VerifyOptions) (options : VerifySection) : VerifySection where
  waitAttempts? := given.waitAttempts?.or options.waitAttempts?
  waitIntervalSeconds? := given.waitInterval?.or options.waitIntervalSeconds?
  strict? := if given.strict then some true else options.strict?

namespace CommandLine

/-- The configuration with the options of the command line put over it. -/
def override (line : CommandLine) (config : Config) : Config where
  deployment := config.deployment
  kubectl? := some (line.overrideKubectl (config.kubectl?.getD {}))
  manifests := {
    directory? := line.manifestDirectory?.or config.manifests.directory?
    steps? := config.manifests.steps? }
  verify? :=
    match line.command with
    | .verify options => some (options.override (config.verify?.getD {}))
    | _ => config.verify?

/-- The configuration that a command line starts from: that of its file, or the one without anything
written. -/
def baseConfig (line : CommandLine) (lookup : String → Option String)
    (read : Path → Except IoFault String) : Except Failure Config :=
  match line.config? with
  | some file => Config.ofFile lookup read ⟨file⟩
  | none => .ok {}

/-- The settings that a command line leads to, or the first fault in them. -/
def settings (line : CommandLine) (lookup : String → Option String)
    (read : Path → Except IoFault String) : Except Failure Settings := do
  let config ← line.baseConfig lookup read
  (line.override config).settings

end CommandLine
end Rollout
