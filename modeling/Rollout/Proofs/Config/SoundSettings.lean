import Rollout.Proofs.Config.Precedence
import Rollout.Proofs.Manifest.JoinedPaths
import Rollout.Proofs.Manifest.Positions

/-!
# Accepted settings are sound

What every run may rely on once a configuration has been accepted.  Validation looks at the values
as they are configured, but a run uses files that were looked up in the manifest directory and
values that stand in for missing ones.

## Strategy

A usable step stays usable when its file is looked up (`Step.Usable.resolve`): a joined path is a
path because its parts are, and it keeps its extension.  Nothing else of a step changes, so the
names stay distinct.  The bounds of the polling hold of what is written in the configuration, if
anything is, and of the values that stand in for it (`Config.Usable.polling_bounded`).  Together
they are what a usable configuration promises (`Config.Usable.sound`).
-/

namespace Rollout

/-! ## Steps -/

theorem IsPath.join {base path : Path} (hbase : IsPath base.text) (hpath : IsPath path.text) :
    IsPath (base.join path).text := by
  constructor
  · intro hempty
    rcases Path.toList_join base path with hsame | ⟨directory, hjoined⟩
    · rw [hempty] at hsame
      exact hpath.1 (String.toList_eq_nil_iff.mp hsame.symm)
    · simp [hempty] at hjoined
  · intro hnul
    rcases Path.mem_text_join hnul with hmem | hmem | hslash
    · exact hbase.2 hmem
    · exact hpath.2 hmem
    · exact absurd hslash (by decide)

/-- The step is the configured one but for its file.  An absolute file is kept; a relative one comes
after the directory, with one slash between the two. -/
structure Step.ResolvedFrom (directory : Path) (configured resolved : Step) : Prop where
  same : { resolved with file := configured.file } = configured
  absolute : configured.file.isAbsolute = true → resolved.file = configured.file
  relative : configured.file.isAbsolute = false → resolved.file.text =
    if directory.text.toList.getLast? = some '/' then directory.text ++ configured.file.text
    else directory.text ++ "/" ++ configured.file.text

section steps

variable {directory : Path} {step : Step}

theorem Step.resolvedFrom_resolve (hdirectory : IsPath directory.text) (step : Step) :
    step.ResolvedFrom directory (step.resolve directory) where
  same := rfl
  absolute habsolute := by simp [habsolute]
  relative hrelative := Path.text_join_of_relative hrelative hdirectory.1

/-- A usable step stays usable when its file is looked up. -/
theorem Step.Usable.resolve (husable : step.Usable) (hdirectory : IsPath directory.text) :
    (step.resolve directory).Usable where
  name := husable.name
  file := hdirectory.join husable.file
  extension := by
    obtain ⟨extension, hallowed, hextension⟩ := husable.extension
    exact ⟨extension, hallowed, Path.extension?_join hextension⟩
  target_complete := husable.target_complete
  kind := husable.kind
  resource := husable.resource

theorem Step.Usable.isSome_target?_iff (husable : step.Usable) :
    step.target?.isSome = true ↔ step.kind?.isSome = true := by
  rw [step.isSome_target?_iff, ← husable.target_complete, and_self]

end steps

theorem validateSteps_of_usable {steps : List Step} (husable : ∀ step ∈ steps, step.Usable) :
    validateSteps steps = .ok () := by
  rw [validateSteps_eq_ok_iff]
  intro step hstep
  rw [← step.check_requirements, Requirement.check_eq_ok_iff, step.allHold_requirements]
  exact husable step hstep

/-! ## Names -/

namespace Manifests

/-- The name belongs to exactly one of the manifests. -/
def NamesOne (set : Manifests) (name : String) : Prop :=
  ∃! position : Fin set.size, (set.stepAt position).name = name

variable {set : Manifests} {name : String}

theorem namesOne_of_mem (hnodup : (set.steps.map (·.name)).Nodup)
    (hname : name ∈ set.steps.map (·.name)) : set.NamesOne name := by
  obtain ⟨step, hstep, rfl⟩ := List.mem_map.mp hname
  obtain ⟨position, rfl⟩ := List.mem_iff_get.mp hstep
  refine ⟨position, rfl, fun other hother => ?_⟩
  have hinjective := List.inj_on_of_nodup_map hnodup (List.get_mem _ other)
    (List.get_mem _ position) hother
  exact (List.Nodup.of_map _ hnodup).injective_get hinjective

end Manifests

/-! ## Settings -/

/-- A verification makes at least one pass and at most a thousand, and never waits for more than an
hour at a time. -/
structure Polling.Bounded (polling : Polling) : Prop where
  one_le_attempts : 1 ≤ polling.attempts
  attempts_le : polling.attempts ≤ 1000
  interval : ∃ seconds ≤ 3600, polling.interval = .ofSeconds seconds

/-- What every run with the settings may rely on. -/
structure Settings.Sound (settings : Settings) : Prop where
  steps_ne_nil : settings.manifests.steps ≠ []
  names_nodup : (settings.manifests.steps.map (·.name)).Nodup
  steps : ∀ step ∈ settings.manifests.steps, step.Usable
  polling : settings.verify.polling.Bounded

namespace Config

variable {config : Config}

theorem Usable.resolvedFrom (husable : config.Usable) :
    List.Forall₂ (Step.ResolvedFrom ⟨config.directory⟩) config.steps
      config.described.manifests.steps := by
  refine List.forall₂_map_right_iff.mpr (List.forall₂_same.mpr fun step _ => ?_)
  exact Step.resolvedFrom_resolve husable.directory step

/-- The bounds hold of what is written, and of what stands in for what is not. -/
theorem Usable.polling_bounded (husable : config.Usable) :
    config.verifySettings.polling.Bounded := by
  cases hverify : config.verify? with
  | none =>
      simp only [verifySettings, hverify]
      exact ⟨by decide, by decide, 5, by decide, rfl⟩
  | some options =>
      have hoptions := husable.verify options hverify
      simp only [verifySettings, hverify]
      refine ⟨?_, ?_, _, ?_, rfl⟩
      · cases hattempts : options.waitAttempts? with
        | none => exact Nat.le_refl 1
        | some attempts => exact (hoptions.attempts attempts hattempts).1
      · cases hattempts : options.waitAttempts? with
        | none => exact show 1 ≤ 1000 by decide
        | some attempts => exact (hoptions.attempts attempts hattempts).2
      · cases hinterval : options.waitIntervalSeconds? with
        | none => decide
        | some seconds => exact hoptions.interval seconds hinterval

theorem Usable.sound (husable : config.Usable) : config.described.Sound where
  steps_ne_nil := by simpa [described, Manifests.resolve] using husable.steps_ne_nil
  names_nodup := by
    have hnames : config.described.manifests.steps.map (·.name) = config.steps.map (·.name) := by
      simp [described, Manifests.resolve]
    exact hnames ▸ husable.names_nodup
  steps := by
    intro step hstep
    obtain ⟨configured, hconfigured, rfl⟩ := List.mem_map.mp hstep
    exact (husable.steps configured hconfigured).resolve husable.directory
  polling := husable.polling_bounded

end Config

/-- What a command line leads to is the settings of a configuration that is accepted. -/
theorem CommandLine.sound_of_settings {line : CommandLine} {lookup : String → Option String}
    {read : Path → Except IoFault String} {settings : Settings}
    (hloaded : line.settings lookup read = .ok settings) : settings.Sound := by
  cases hfile : line.baseConfig lookup read with
  | error error =>
      rw [CommandLine.settings, hfile] at hloaded
      exact absurd hloaded (by simp [bind, Except.bind])
  | ok file =>
      rw [settings_of_baseConfig hfile, Config.settings_eq_ok_iff] at hloaded
      obtain ⟨husable, rfl⟩ := hloaded
      exact husable.sound

end Rollout
