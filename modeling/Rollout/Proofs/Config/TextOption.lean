import Rollout.Config.Basic

/-!
# The texts of a configuration

A configuration holds texts at named places, its text options, and other things around them.  Here
the texts are changed all at once, each one depending on its option.

## Strategy

`Config.mapTexts` changes every text and nothing else.  Putting a value into one option is a case of
it, and so is leaving out all texts.  A configuration is made of what remains without its texts and
of the texts that its options read, which is why two configurations are equal when they agree on
both (`Config.eq_of_texts`).
-/

namespace Rollout

/-! ## Options -/

/-- The texts of a step. -/
inductive StepText
  | name
  | file
  | kind
  | resource
  deriving DecidableEq, Repr

/-- The options of a configuration whose values are texts. -/
inductive TextOption
  | deploymentName
  | description
  | version
  | binary
  | kubeconfig
  | context
  | namespaceName
  | directory
  | step (index : Nat) (text : StepText)
  deriving DecidableEq, Repr

/-- A text of a step, if the step has it. -/
def StepText.read? (step : Step) : StepText → Option String
  | name => some step.name
  | file => some step.file.text
  | kind => step.kind?
  | resource => step.resource?

namespace TextOption

/-- The value of an option as the configuration has it, without what stands in for a missing one. -/
def read? (config : Config) : TextOption → Option String
  | deploymentName => some config.deployment.name
  | description => config.deployment.description?
  | version => config.deployment.version?
  | binary => config.kubectl?.bind (·.binary?)
  | kubeconfig => config.kubectl?.bind (·.kubeconfig?)
  | context => config.kubectl?.bind (·.context?)
  | namespaceName => config.kubectl?.bind (·.namespaceName?)
  | directory => config.manifests.directory?
  | step index text =>
      config.manifests.steps?.bind fun steps => steps[index]?.bind fun step => text.read? step

end TextOption

/-! ## Changing the texts -/

/-- The step with its texts changed. -/
def Step.mapTexts (change : StepText → String → String) (step : Step) : Step :=
  { step with
    name := change .name step.name
    file := ⟨change .file step.file.text⟩
    kind? := step.kind?.map (change .kind)
    resource? := step.resource?.map (change .resource) }

namespace Config

/-- The configuration with its texts changed, and everything else as it is. -/
def mapTexts (change : TextOption → String → String) (config : Config) : Config where
  deployment := {
    name := change .deploymentName config.deployment.name
    description? := config.deployment.description?.map (change .description)
    version? := config.deployment.version?.map (change .version) }
  kubectl? := config.kubectl?.map fun kubectl => {
    binary? := kubectl.binary?.map (change .binary)
    kubeconfig? := kubectl.kubeconfig?.map (change .kubeconfig)
    context? := kubectl.context?.map (change .context)
    namespaceName? := kubectl.namespaceName?.map (change .namespaceName) }
  manifests := {
    directory? := config.manifests.directory?.map (change .directory)
    steps? := config.manifests.steps?.map fun steps =>
      steps.mapIdx fun index step => step.mapTexts fun text => change (.step index text) }
  verify? := config.verify?

/-- The configuration with its texts left out. -/
def withoutTexts (config : Config) : Config := config.mapTexts fun _ _ => ""

end Config

/-- The configuration with a value in the place of the text of an option. -/
def TextOption.put (value : String) (config : Config) (option : TextOption) : Config :=
  config.mapTexts fun other text => if other = option then value else text

namespace Config

variable (first second : TextOption → String → String) (config : Config)

theorem mapTexts_mapTexts :
    (config.mapTexts first).mapTexts second =
      config.mapTexts fun option text => second option (first option text) := by
  simp [mapTexts, Step.mapTexts, Function.comp_def]

theorem mapTexts_self : (config.mapTexts fun _ text => text) = config := by
  have hstep : ∀ step : Step, step.mapTexts (fun _ text => text) = step := by
    intro step
    simp [Step.mapTexts]
  have hsteps : ∀ steps : List Step, (steps.mapIdx fun _ step => step) = steps := by
    intro steps
    apply List.ext_getElem?
    simp
  simp [mapTexts, hstep, hsteps]

theorem read?_mapTexts (option : TextOption) :
    option.read? (config.mapTexts first) = (option.read? config).map (first option) := by
  cases option with
  | step index text =>
      cases hsteps : config.manifests.steps? with
      | none => simp [TextOption.read?, mapTexts, hsteps]
      | some steps =>
          cases hstep : steps[index]? with
          | none => simp [TextOption.read?, mapTexts, hsteps, hstep]
          | some step =>
              cases text <;>
                simp [TextOption.read?, mapTexts, hsteps, hstep, StepText.read?, Step.mapTexts]
  | _ =>
      cases hkubectl : config.kubectl? <;> simp [TextOption.read?, mapTexts, hkubectl]

/-- Only what happens to the texts that are there matters. -/
theorem mapTexts_congr
    (hsame : ∀ option text, option.read? config = some text →
      first option text = second option text) :
    config.mapTexts first = config.mapTexts second := by
  have hdeployment : (config.mapTexts first).deployment = (config.mapTexts second).deployment := by
    simp only [mapTexts, DeploymentSection.mk.injEq]
    exact ⟨hsame .deploymentName _ rfl, Option.map_congr (hsame .description),
      Option.map_congr (hsame .version)⟩
  have hkubectl : (config.mapTexts first).kubectl? = (config.mapTexts second).kubectl? := by
    refine Option.map_congr fun kubectl hsome => ?_
    have hfield : ∀ (option : TextOption) (field : KubectlSection → Option String),
        option.read? config = config.kubectl?.bind field →
        (field kubectl).map (first option) = (field kubectl).map (second option) := by
      intro option field hread
      rw [hsome, Option.bind_some] at hread
      exact Option.map_congr fun text htext => hsame option text (hread.trans htext)
    rw [KubectlSection.mk.injEq]
    exact ⟨hfield .binary _ rfl, hfield .kubeconfig _ rfl, hfield .context _ rfl,
      hfield .namespaceName _ rfl⟩
  have hsteps : (config.mapTexts first).manifests.steps? =
      (config.mapTexts second).manifests.steps? := by
    refine Option.map_congr fun steps hsome => ?_
    apply List.ext_getElem?
    intro index
    rw [List.getElem?_mapIdx, List.getElem?_mapIdx]
    refine Option.map_congr fun step hstep => ?_
    have htext : ∀ text value, text.read? step = some value →
        first (.step index text) value = second (.step index text) value := by
      intro text value hvalue
      refine hsame _ value ?_
      rw [TextOption.read?, hsome, Option.bind_some, hstep, Option.bind_some, hvalue]
    simp only [Step.mapTexts, Step.mk.injEq, Path.mk.injEq, true_and]
    exact ⟨htext .name _ rfl, htext .file _ rfl, Option.map_congr (htext .kind),
      Option.map_congr (htext .resource), trivial⟩
  have hdirectory : (config.mapTexts first).manifests.directory? =
      (config.mapTexts second).manifests.directory? := Option.map_congr (hsame .directory)
  have hmanifests : (config.mapTexts first).manifests = (config.mapTexts second).manifests :=
    ManifestsSection.mk.injEq .. ▸ ⟨hdirectory, hsteps⟩
  exact Config.mk.injEq .. ▸ ⟨hdeployment, hkubectl, hmanifests, rfl⟩

/-- A configuration consists of its texts and of what remains without them. -/
theorem eq_of_texts {config other : Config} (hrest : other.withoutTexts = config.withoutTexts)
    (htexts : ∀ option : TextOption, option.read? other = option.read? config) :
    other = config := by
  have hbuild : ∀ config : Config,
      config = config.withoutTexts.mapTexts fun option _ => (option.read? config).getD "" := by
    intro config
    have hsame : ∀ (option : TextOption) (text : String), option.read? config = some text →
        text = (option.read? config).getD "" := by
      intro option text htext
      rw [htext, Option.getD_some]
    calc config
      _ = config.mapTexts fun _ text => text := (mapTexts_self config).symm
      _ = config.mapTexts fun option _ => (option.read? config).getD "" :=
          mapTexts_congr _ _ config hsame
      _ = config.withoutTexts.mapTexts fun option _ => (option.read? config).getD "" :=
          (mapTexts_mapTexts (fun _ _ => "") (fun option _ => (option.read? config).getD "")
            config).symm
  rw [hbuild other, hrest, funext htexts, ← hbuild config]

end Config

namespace TextOption

variable (option : TextOption) (value : String) (config : Config)

theorem read?_put_self :
    option.read? (option.put value config) = (option.read? config).map fun _ => value := by
  simp [put, Config.read?_mapTexts]

theorem read?_put_of_ne {other : TextOption} (hother : other ≠ option) :
    other.read? (option.put value config) = other.read? config := by
  simp [put, Config.read?_mapTexts, hother]

theorem withoutTexts_put : (option.put value config).withoutTexts = config.withoutTexts :=
  Config.mapTexts_mapTexts _ _ config

end TextOption
end Rollout
