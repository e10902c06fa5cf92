import Rollout.Proofs.Config.ExchangedText
import Rollout.Proofs.Toml.KeyedValue

/-!
# Options in the sections of a configuration

A text option has a section, and a key in it.  Two documents that differ in the value of one key of
a section, and in nothing else, are read as configurations that differ in the option with this
section and this key, and in nothing else.  The texts of the steps are all under one key, so the key
does not tell them apart.

## Strategy

A section is read from what its name finds in the root table (`ReadFrom`).  If this is a table, then
an option is read from what its key finds there (`ReadFrom.read?_of_key`).  So an option reads the
same when its section is the same, or when its key finds the same in the section.  The only option
to which neither applies is the one with the key that finds something else.
-/

namespace Rollout

namespace TextOption

/-- The name of the section that an option belongs to. -/
def title : TextOption → String
  | deploymentName | description | version => "deployment"
  | binary | kubeconfig | context | namespaceName => "kubectl"
  | directory | step .. => "manifests"

/-- The key of an option in its section. -/
def key : TextOption → String
  | deploymentName => "name"
  | description => "description"
  | version => "version"
  | binary => "binary"
  | kubeconfig => "kubeconfig"
  | context => "context"
  | namespaceName => "namespace"
  | directory => "directory"
  | step .. => "steps"

/-- The text of an option as the value of its key gives it. -/
def readValue? : TextOption → Toml.Value → Option String
  | step index text, value => (Config.decodeSteps value).toOption.bind fun steps =>
      steps[index]?.bind fun step => text.read? step
  | _, value => (Config.decodeText value).toOption

/-- An option that is no text of a step is told by its section and its key. -/
theorem eq_of_key {option other : TextOption} (hstep : option.key ≠ "steps")
    (htitle : other.title = option.title) (hkey : other.key = option.key) : other = option := by
  cases option <;> cases other <;> first | rfl | exact absurd rfl hstep | simp_all [title, key]

theorem readValue?_string {option : TextOption} (hstep : option.key ≠ "steps") (text : String) :
    option.readValue? (.string text) = some text := by
  cases option with
  | step => exact absurd rfl hstep
  | _ => rfl

end TextOption

namespace Config

open Toml

variable {α : Type} {root other inner inners : Entries} {origin : Origin}
  {config loaded : Config}

/-! ## Fields of tables -/

section fields

variable {decode : Value → Except Mismatch α} {name : String} {position : Nat} {value : Value}

theorem eq_named_of_shapeOf {known : List String} {shape : Shape}
    (hshape : shapeOf known (.table origin inner) = .ok shape) : shape = .named inner := by
  obtain ⟨_, _, hfound⟩ := bind_eq_ok.mp hshape
  exact (Except.ok.inj hfound).symm

theorem defaultedField_of_lookup (hvalue : inner.lookup name = some value) (default : α) :
    defaultedField decode default name position (.named inner) = decode value := by
  simp only [defaultedField, Shape.field?, hvalue]

theorem defaultedField_congr (hsame : inners.lookup name = inner.lookup name) (default : α) :
    defaultedField decode default name position (.named inners) =
      defaultedField decode default name position (.named inner) := by
  simp only [defaultedField, Shape.field?, hsame]

theorem exists_of_optionalField {found? : Option α} (hvalue : inner.lookup name = some value)
    (hfield : optionalField decode name position (.named inner) = .ok found?) :
    ∃ found, decode value = .ok found ∧ found? = some found := by
  simp only [optionalField, Shape.field?] at hfield
  rw [hvalue] at hfield
  have hmap : (decode value).map some = .ok found? := hfield
  cases hdecode : decode value with
  | error mismatch => rw [hdecode] at hmap; cases hmap
  | ok found =>
      rw [hdecode] at hmap
      exact ⟨found, rfl, (Except.ok.inj hmap).symm⟩

theorem eq_of_optionalField {found? : Option α}
    (hfield : optionalField decode name position (.named inner) = .ok found?) :
    found? = (inner.lookup name).bind fun value => (decode value).toOption := by
  cases hvalue : inner.lookup name with
  | none =>
      simp only [optionalField, Shape.field?] at hfield
      rw [hvalue] at hfield
      exact (Except.ok.inj hfield).symm
  | some value =>
      obtain ⟨found, hdecode, rfl⟩ := exists_of_optionalField hvalue hfield
      rw [Option.bind_some, hdecode]
      rfl

theorem eq_of_requiredField {found : α}
    (hfield : requiredField decode name position (.named inner) = .ok found) :
    some found = (inner.lookup name).bind fun value => (decode value).toOption := by
  simp only [requiredField, Shape.field?] at hfield
  cases hvalue : inner.lookup name with
  | none => rw [hvalue] at hfield; cases hfield
  | some value =>
      rw [hvalue] at hfield
      have hdecode : decode value = .ok found := hfield
      rw [Option.bind_some, hdecode]
      rfl

end fields

/-- What the section about the deployment is read from when it is a table. -/
theorem texts_of_decodeDeployment {part : DeploymentSection}
    (hdecode : decodeDeployment (.table origin inner) = .ok part) :
    let text? := fun name => (inner.lookup name).bind fun value => (decodeText value).toOption
    some part.name = text? "name" ∧ part.description? = text? "description" ∧
      part.version? = text? "version" := by
  obtain ⟨shape, hshape, hdecode⟩ := bind_eq_ok.mp hdecode
  obtain rfl := eq_named_of_shapeOf hshape
  obtain ⟨name, hname, hdecode⟩ := bind_eq_ok.mp hdecode
  obtain ⟨description?, hdescription, hdecode⟩ := bind_eq_ok.mp hdecode
  obtain ⟨version?, hversion, hdecode⟩ := bind_eq_ok.mp hdecode
  obtain rfl := Except.ok.inj hdecode
  exact ⟨eq_of_requiredField hname, eq_of_optionalField hdescription, eq_of_optionalField hversion⟩

/-- What the options for kubectl are read from when they are a table. -/
theorem texts_of_decodeKubectl {part : KubectlSection}
    (hdecode : decodeKubectl (.table origin inner) = .ok part) :
    let text? := fun name => (inner.lookup name).bind fun value => (decodeText value).toOption
    part.binary? = text? "binary" ∧ part.kubeconfig? = text? "kubeconfig" ∧
      part.context? = text? "context" ∧ part.namespaceName? = text? "namespace" := by
  obtain ⟨shape, hshape, hdecode⟩ := bind_eq_ok.mp hdecode
  obtain rfl := eq_named_of_shapeOf hshape
  obtain ⟨binary?, hbinary, hdecode⟩ := bind_eq_ok.mp hdecode
  obtain ⟨kubeconfig?, hkubeconfig, hdecode⟩ := bind_eq_ok.mp hdecode
  obtain ⟨context?, hcontext, hdecode⟩ := bind_eq_ok.mp hdecode
  obtain ⟨namespaceName?, hnamespace, hdecode⟩ := bind_eq_ok.mp hdecode
  obtain rfl := Except.ok.inj hdecode
  exact ⟨eq_of_optionalField hbinary, eq_of_optionalField hkubeconfig,
    eq_of_optionalField hcontext, eq_of_optionalField hnamespace⟩

/-- What the section about the manifests is read from when it is a table. -/
theorem fields_of_decodeManifests {part : ManifestsSection}
    (hdecode : decodeManifests (.table origin inner) = .ok part) :
    part.directory? =
        ((inner.lookup "directory").bind fun value => (decodeText value).toOption) ∧
      part.steps? = (inner.lookup "steps").bind fun value => (decodeSteps value).toOption := by
  obtain ⟨shape, hshape, hdecode⟩ := bind_eq_ok.mp hdecode
  obtain rfl := eq_named_of_shapeOf hshape
  obtain ⟨directory?, hdirectory, hdecode⟩ := bind_eq_ok.mp hdecode
  obtain ⟨steps?, hsteps, hdecode⟩ := bind_eq_ok.mp hdecode
  obtain rfl := Except.ok.inj hdecode
  exact ⟨eq_of_optionalField hdirectory, eq_of_optionalField hsteps⟩

/-! ## What an option is read from -/

/-- The configuration has the sections that are read from a root table. -/
structure ReadFrom (root : Entries) (config : Config) : Prop where
  deployment : defaultedField decodeDeployment {} "deployment" 0 (.named root) =
    .ok config.deployment
  kubectl : optionalField decodeKubectl "kubectl" 1 (.named root) = .ok config.kubectl?
  manifests : defaultedField decodeManifests {} "manifests" 2 (.named root) = .ok config.manifests

theorem readFrom_of_decode (hdecode : decode root = .ok config) : ReadFrom root config := by
  obtain ⟨shape, hshape, hdecode⟩ := bind_eq_ok.mp hdecode
  obtain rfl := eq_named_of_shapeOf hshape
  obtain ⟨deployment, hdeployment, hdecode⟩ := bind_eq_ok.mp hdecode
  obtain ⟨kubectl?, hkubectl, hdecode⟩ := bind_eq_ok.mp hdecode
  obtain ⟨manifests, hmanifests, hdecode⟩ := bind_eq_ok.mp hdecode
  obtain ⟨verify?, _, hdecode⟩ := bind_eq_ok.mp hdecode
  obtain rfl := Except.ok.inj hdecode
  exact ⟨hdeployment, hkubectl, hmanifests⟩

namespace ReadFrom

/-- An option reads the same when its section is the same. -/
theorem read?_of_title (hroot : ReadFrom root config) (hother : ReadFrom other loaded)
    {option : TextOption} (hsame : other.lookup option.title = root.lookup option.title) :
    option.read? loaded = option.read? config := by
  cases option with
  | deploymentName | description | version =>
      have hdeployment : loaded.deployment = config.deployment :=
        Except.ok.inj (hother.deployment.symm.trans
          ((defaultedField_congr hsame _).trans hroot.deployment))
      simp only [TextOption.read?, hdeployment]
  | binary | kubeconfig | context | namespaceName =>
      have hkubectl : loaded.kubectl? = config.kubectl? :=
        (eq_of_optionalField hother.kubectl).trans
          (hsame ▸ (eq_of_optionalField hroot.kubectl).symm)
      simp only [TextOption.read?, hkubectl]
  | directory | step =>
      have hmanifests : loaded.manifests = config.manifests :=
        Except.ok.inj (hother.manifests.symm.trans
          ((defaultedField_congr hsame _).trans hroot.manifests))
      simp only [TextOption.read?, hmanifests]

/-- An option whose section is a table reads what its key finds there. -/
theorem read?_of_key (hroot : ReadFrom root config) {option : TextOption}
    (htable : root.lookup option.title = some (.table origin inner)) :
    option.read? config = (inner.lookup option.key).bind option.readValue? := by
  cases option with
  | deploymentName | description | version =>
      have hpart : decodeDeployment (.table origin inner) = .ok config.deployment :=
        (defaultedField_of_lookup htable _).symm.trans hroot.deployment
      obtain ⟨hname, hdescription, hversion⟩ := texts_of_decodeDeployment hpart
      first | exact hname | exact hdescription | exact hversion
  | binary | kubeconfig | context | namespaceName =>
      obtain ⟨part, hpart, hsome⟩ := exists_of_optionalField htable hroot.kubectl
      obtain ⟨hbinary, hkubeconfig, hcontext, hnamespace⟩ := texts_of_decodeKubectl hpart
      rw [TextOption.read?, hsome]
      first | exact hbinary | exact hkubeconfig | exact hcontext | exact hnamespace
  | directory | step =>
      have hpart : decodeManifests (.table origin inner) = .ok config.manifests :=
        (defaultedField_of_lookup htable _).symm.trans hroot.manifests
      obtain ⟨hdirectory, hsteps⟩ := fields_of_decodeManifests hpart
      first
        | exact hdirectory
        | rw [TextOption.read?, hsteps, Option.bind_assoc]; rfl

end ReadFrom

/-! ## Documents that differ in one key -/

/-- When documents differ in the key of an option and in nothing else, the option has the text that
its document gives to the key, and all other options are the same. -/
theorem read?_of_differ {old new : String} {option : TextOption} (hstep : option.key ≠ "steps")
    (hdiffer : TablesDifferAt old new [option.title, option.key] root other)
    (hroot : decode root = .ok config) (hother : decode other = .ok loaded) :
    option.read? config = some old ∧ option.read? loaded = some new ∧
      ∀ asked, asked ≠ option → asked.read? loaded = asked.read? config := by
  have hfirst := readFrom_of_decode hroot
  have hsecond := readFrom_of_decode hother
  obtain ⟨htable, htwin, hsection, haside⟩ := hdiffer
  cases hsection with
  | table origin hinner =>
      obtain ⟨hold, hnew, hvalue, hrest⟩ := hinner
      cases hvalue with
      | table _ hnone => cases hnone
      | text =>
          refine ⟨?_, ?_, fun asked hasked => ?_⟩
          · rw [hfirst.read?_of_key htable, hold, Option.bind_some,
              option.readValue?_string hstep]
          · rw [hsecond.read?_of_key htwin, hnew, Option.bind_some,
              option.readValue?_string hstep]
          by_cases htitle : asked.title = option.title
          · have hkey : asked.key ≠ option.key := fun hkey =>
              hasked (TextOption.eq_of_key hstep htitle hkey)
            rw [← htitle] at htable htwin
            rw [hfirst.read?_of_key htable, hsecond.read?_of_key htwin, hrest _ hkey]
          · exact hfirst.read?_of_title hsecond (haside _ htitle)

end Config
end Rollout
