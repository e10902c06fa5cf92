import Rollout.Config.Validation

/-!
# Settings

Everything that a run needs to know, taken from a valid configuration: missing values are filled in
and the manifest files are looked up in the manifest directory.
-/

namespace Rollout

/-- The settings of a run. -/
structure Settings where
  name : String
  kubectl : Kubectl.Options
  directory : Path
  manifests : Manifests
  verify : VerifySettings
  deriving DecidableEq, Repr, Inhabited

namespace Config

/-- The settings that a configuration describes. -/
def described (config : Config) : Settings where
  name := config.deployment.name
  kubectl := config.kubectlOptions
  directory := ⟨config.directory⟩
  manifests := .resolve ⟨config.directory⟩ config.steps
  verify := config.verifySettings

/-- The settings of a configuration, or the first fault in it. -/
def settings (config : Config) : Except Failure Settings := do
  config.validate
  return config.described

theorem settings_of_validate_ok {config : Config} (hvalid : config.validate = .ok ()) :
    config.settings = .ok config.described := by
  simp [settings, hvalid, bind, Except.bind, pure, Except.pure]

theorem settings_of_validate_error {config : Config} {error : Failure}
    (hinvalid : config.validate = .error error) : config.settings = .error error := by
  simp [settings, hinvalid, bind, Except.bind]

end Config

/-! ## Presence of the manifests -/

/-- Accepts steps whose files all exist; otherwise names the first file that does not. -/
def requireFiles (isFile : Path → Bool) : List Step → Except Failure Unit
  | [] => .ok ()
  | step :: rest =>
      if isFile step.file then requireFiles isFile rest else .error (.manifestNotFound step.file)

/-- Accepts a manifest set whose files all exist.  They are looked at in the order of
installation. -/
def Manifests.requirePresent (isFile : Path → Bool) (set : Manifests) :
    Except Failure Unit :=
  requireFiles isFile set.installOrder

end Rollout
