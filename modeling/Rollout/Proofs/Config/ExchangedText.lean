import Rollout.Config.Decode
import Rollout.Proofs.Config.TextOption
import Rollout.Proofs.Toml.Exchange

/-!
# Configurations in which a text is exchanged

Documents that are alike except that texts `old` may be exchanged for `new` are read as
configurations that are alike in the same way, provided that `old` names no stage.

## Strategy

Values that are ignored are ignored whatever texts are in them, numbers and truth values hold no
text, and a stage is read from a text that names one and from no other.  So the texts that the
documents do not share can only be texts of the configurations, and those are read as they are.  The
fields of a record are gone through one after the other (`Toml.Follows.bind`).

If only one option tells two documents apart, then a third document that is alike to both of them
differs in this option alone, and there it has its own text (`eq_put_of_exchanged`).
-/

namespace Rollout.Config

open Toml

variable {α : Type} {old new : String}

/-! ## Values without texts of their own -/

mutual

theorem ignore_of_exchanged {value other : Value} :
    Exchanged old new value other → ignore other = ignore value
  | .same _ => rfl
  | .text => rfl
  | .array hitems => ignoreItems_of_exchanged hitems
  | .table hentries => ignoreEntries_of_exchanged hentries

theorem ignoreItems_of_exchanged {items others : List Value} :
    ExchangedItems old new items others → ignoreItems others = ignoreItems items
  | .nil => rfl
  | .cons hitem hitems => by
      rw [ignoreItems, ignoreItems, ignore_of_exchanged hitem, ignoreItems_of_exchanged hitems]

theorem ignoreEntries_of_exchanged {entries others : Entries} :
    ExchangedEntries old new entries others → ignoreEntries others = ignoreEntries entries
  | .nil => rfl
  | .cons _ hvalue hentries => by
      rw [ignoreEntries, ignoreEntries, ignore_of_exchanged hvalue,
        ignoreEntries_of_exchanged hentries]

end

theorem follows_decodeFlag (value other : Value) (hvalue : Exchanged old new value other) :
    Follows Eq (decodeFlag value) (decodeFlag other) := by
  cases hvalue with
  | same => exact follows_self (fun _ => rfl) _
  | _ => exact follows_error _ _

theorem follows_decodeNatural (limit : Nat) {value other : Value}
    (hvalue : Exchanged old new value other) :
    Follows Eq (decodeNatural limit value) (decodeNatural limit other) := by
  cases hvalue with
  | same => exact follows_self (fun _ => rfl) _
  | _ => exact follows_error _ _

theorem follows_decodeWord32 (value other : Value) (hvalue : Exchanged old new value other) :
    Follows Eq (decodeWord32 value) (decodeWord32 other) :=
  (follows_decodeNatural _ hvalue).map fun _ _ => congrArg UInt32.ofNat

theorem follows_decodeWord64 (value other : Value) (hvalue : Exchanged old new value other) :
    Follows Eq (decodeWord64 value) (decodeWord64 other) :=
  (follows_decodeNatural _ hvalue).map fun _ _ => congrArg UInt64.ofNat

theorem isEmptyValue_of_exchanged {value other : Value} (hvalue : Exchanged old new value other) :
    isEmptyValue other = isEmptyValue value := by
  cases hvalue with
  | same => rfl
  | text => rfl
  | array hitems => cases hitems <;> rfl
  | table hentries => cases hentries <;> rfl

theorem follows_decodeStage (hold : Stage.named? old = none) (value other : Value)
    (hvalue : Exchanged old new value other) :
    Follows Eq (decodeStage value) (decodeStage other) := by
  cases hvalue with
  | same => exact follows_self (fun _ => rfl) _
  | text =>
      rw [decodeStage, decodeStageName, hold]
      exact follows_error _ _
  | array => exact follows_error _ _
  | table hentries =>
      cases hentries with
      | nil => exact follows_error _ _
      | cons name hvalue hentries =>
          cases hentries with
          | nil =>
              rw [decodeStage, decodeStage, isEmptyValue_of_exchanged hvalue]
              exact follows_self (fun _ => rfl) _
          | cons => exact follows_error _ _

/-! ## Texts -/

/-- The second text is the first one, or `old` is exchanged for `new`. -/
def ExchangedText (old new text other : String) : Prop := other = text ∨ text = old ∧ other = new

theorem follows_decodeText (value other : Value) (hvalue : Exchanged old new value other) :
    Follows (ExchangedText old new) (decodeText value) (decodeText other) := by
  cases hvalue with
  | same => exact follows_self (fun _ => .inl rfl) _
  | text => exact follows_ok (.inr ⟨rfl, rfl⟩)
  | array => exact follows_error _ _
  | table => exact follows_error _ _

/-! ## Records -/

/-- The fields are alike in the same way, whether they stand under names or in positions. -/
inductive ExchangedShape (old new : String) : Shape → Shape → Prop
  | named {entries others : Entries} (hentries : ExchangedEntries old new entries others) :
      ExchangedShape old new (.named entries) (.named others)
  | positional {items others : List Value} (hitems : ExchangedItems old new items others) :
      ExchangedShape old new (.positional items) (.positional others)

theorem exchangedEntries_filter {entries others : Entries}
    (hentries : ExchangedEntries old new entries others) (p : String → Bool) :
    ExchangedEntries old new (entries.filter (p ·.1)) (others.filter (p ·.1)) := by
  induction entries generalizing others with
  | nil => cases hentries; exact .nil
  | cons entry entries ih =>
      cases hentries with
      | cons name hvalue hentries =>
          rw [List.filter_cons, List.filter_cons]
          dsimp only
          split
          · exact .cons name hvalue (ih hentries)
          · exact ih hentries

theorem follows_shapeOf (known : List String) {value other : Value}
    (hvalue : Exchanged old new value other) :
    Follows (ExchangedShape old new) (shapeOf known value) (shapeOf known other) := by
  have hself : ∀ shape : Shape, ExchangedShape old new shape shape := by
    intro shape
    cases shape with
    | named entries => exact .named (exchangedEntries_self entries)
    | positional items => exact .positional (exchangedItems_self items)
  cases hvalue with
  | same => exact follows_self hself _
  | text => exact follows_error _ _
  | array hitems => exact follows_ok (.positional hitems)
  | table hentries =>
      have hunknown := ignoreEntries_of_exchanged
        (exchangedEntries_filter hentries (decide <| · ∉ known))
      rw [shapeOf, shapeOf, hunknown]
      refine (follows_self (fun _ => rfl) _).bind fun _ _ _ => ?_
      exact follows_ok (.named hentries)

theorem exchanged_getElem? {items others : List Value}
    (hitems : ExchangedItems old new items others) (position : Nat) :
    Option.Rel (Exchanged old new) items[position]? others[position]? := by
  induction items generalizing others position with
  | nil => cases hitems; exact .none
  | cons item items ih =>
      cases hitems with
      | cons hitem hitems =>
          cases position with
          | zero => exact .some hitem
          | succ position => exact ih hitems position

theorem ExchangedShape.field? {shape other : Shape} (hshape : ExchangedShape old new shape other)
    (name : String) (position : Nat) :
    Option.Rel (Exchanged old new) (shape.field? name position) (other.field? name position) := by
  cases hshape with
  | named hentries => exact hentries.lookup name
  | positional hitems => exact exchanged_getElem? hitems position

section fields

variable {related : α → α → Prop} {decode : Value → Except Mismatch α} {shape other : Shape}
  (hshape : ExchangedShape old new shape other)
  (hdecode : ∀ value other, Exchanged old new value other →
    Follows related (decode value) (decode other))

include hshape hdecode

theorem follows_requiredField (name : String) (position : Nat) :
    Follows related (requiredField decode name position shape)
      (requiredField decode name position other) := by
  have hfield := hshape.field? name position
  unfold requiredField
  generalize shape.field? name position = found?, other.field? name position = twin? at hfield ⊢
  cases hfield with
  | none => exact follows_error _ _
  | some hvalue => exact hdecode _ _ hvalue

theorem follows_defaultedField {default : α} (hdefault : related default default) (name : String)
    (position : Nat) :
    Follows related (defaultedField decode default name position shape)
      (defaultedField decode default name position other) := by
  have hfield := hshape.field? name position
  unfold defaultedField
  generalize shape.field? name position = found?, other.field? name position = twin? at hfield ⊢
  cases hfield with
  | none => exact follows_ok hdefault
  | some hvalue => exact hdecode _ _ hvalue

theorem follows_optionalField (name : String) (position : Nat) :
    Follows (Option.Rel related) (optionalField decode name position shape)
      (optionalField decode name position other) := by
  have hfield := hshape.field? name position
  unfold optionalField
  generalize shape.field? name position = found?, other.field? name position = twin? at hfield ⊢
  cases hfield with
  | none =>
      cases hshape with
      | named => exact follows_ok .none
      | positional => exact follows_error _ _
  | some hvalue => exact (hdecode _ _ hvalue).map fun _ _ hrelated => .some hrelated

end fields

/-! ## Sections -/

/-- Two optional texts are both missing, or alike up to the exchange. -/
abbrev ExchangedOption (old new : String) : Option String → Option String → Prop :=
  Option.Rel (ExchangedText old new)

/-- The sections about the deployment are alike up to the exchange. -/
structure ExchangedDeployment (old new : String) (section₁ section₂ : DeploymentSection) :
    Prop where
  name : ExchangedText old new section₁.name section₂.name
  description : ExchangedOption old new section₁.description? section₂.description?
  version : ExchangedOption old new section₁.version? section₂.version?

/-- The options for kubectl are alike up to the exchange. -/
structure ExchangedKubectl (old new : String) (section₁ section₂ : KubectlSection) : Prop where
  binary : ExchangedOption old new section₁.binary? section₂.binary?
  kubeconfig : ExchangedOption old new section₁.kubeconfig? section₂.kubeconfig?
  context : ExchangedOption old new section₁.context? section₂.context?
  namespaceName : ExchangedOption old new section₁.namespaceName? section₂.namespaceName?

/-- The steps are alike up to the exchange, and what is no text in them is the same. -/
structure ExchangedStep (old new : String) (step other : Step) : Prop where
  name : ExchangedText old new step.name other.name
  file : ExchangedText old new step.file.text other.file.text
  stage : step.stage = other.stage
  kind : ExchangedOption old new step.kind? other.kind?
  resource : ExchangedOption old new step.resource? other.resource?
  clusterScoped : step.clusterScoped = other.clusterScoped

/-- The sections about the manifests are alike up to the exchange. -/
structure ExchangedManifests (old new : String) (section₁ section₂ : ManifestsSection) : Prop where
  directory : ExchangedOption old new section₁.directory? section₂.directory?
  steps : Option.Rel (List.Forall₂ (ExchangedStep old new)) section₁.steps? section₂.steps?

/-- The second configuration is the first one, except that texts `old` may be exchanged for
`new`. -/
structure ExchangedConfig (old new : String) (config other : Config) : Prop where
  deployment : ExchangedDeployment old new config.deployment other.deployment
  kubectl : Option.Rel (ExchangedKubectl old new) config.kubectl? other.kubectl?
  manifests : ExchangedManifests old new config.manifests other.manifests
  verify : config.verify? = other.verify?

theorem follows_decodeDeployment (value other : Value) (hvalue : Exchanged old new value other) :
    Follows (ExchangedDeployment old new) (decodeDeployment value) (decodeDeployment other) := by
  unfold decodeDeployment
  refine (follows_shapeOf _ hvalue).bind fun _ _ hshape => ?_
  have hoptional := follows_optionalField hshape follows_decodeText
  refine (follows_requiredField hshape follows_decodeText "name" 0).bind fun _ _ hname => ?_
  refine (hoptional "description" 1).bind fun _ _ hdescription => ?_
  refine (hoptional "version" 2).bind fun _ _ hversion => ?_
  exact follows_ok ⟨hname, hdescription, hversion⟩

theorem follows_decodeKubectl (value other : Value) (hvalue : Exchanged old new value other) :
    Follows (ExchangedKubectl old new) (decodeKubectl value) (decodeKubectl other) := by
  unfold decodeKubectl
  refine (follows_shapeOf _ hvalue).bind fun _ _ hshape => ?_
  have hoptional := follows_optionalField hshape follows_decodeText
  refine (hoptional "binary" 0).bind fun _ _ hbinary => ?_
  refine (hoptional "kubeconfig" 1).bind fun _ _ hkubeconfig => ?_
  refine (hoptional "context" 2).bind fun _ _ hcontext => ?_
  refine (hoptional "namespace" 3).bind fun _ _ hnamespace => ?_
  exact follows_ok ⟨hbinary, hkubeconfig, hcontext, hnamespace⟩

theorem follows_decodeStep (hold : Stage.named? old = none) {value other : Value}
    (hvalue : Exchanged old new value other) :
    Follows (ExchangedStep old new) (decodeStep value) (decodeStep other) := by
  unfold decodeStep
  refine (follows_shapeOf _ hvalue).bind fun _ _ hshape => ?_
  have hrequired := follows_requiredField hshape follows_decodeText
  have hoptional := follows_optionalField hshape follows_decodeText
  refine (hrequired "name" 0).bind fun _ _ hname => ?_
  refine (hrequired "file" 1).bind fun _ _ hfile => ?_
  refine (follows_requiredField hshape (follows_decodeStage hold) "stage" 2).bind
    fun _ _ hstage => ?_
  refine (hoptional "kind" 3).bind fun _ _ hkind => ?_
  refine (hoptional "resource" 4).bind fun _ _ hresource => ?_
  refine (follows_defaultedField hshape follows_decodeFlag rfl "cluster_scoped" 5).bind
    fun _ _ hscope => ?_
  exact follows_ok ⟨hname, hfile, hstage, hkind, hresource, hscope⟩

theorem follows_decodeStepList (hold : Stage.named? old = none) {items others : List Value}
    (hitems : ExchangedItems old new items others) :
    Follows (List.Forall₂ (ExchangedStep old new)) (decodeStepList items)
      (decodeStepList others) := by
  induction items generalizing others with
  | nil => cases hitems; exact follows_ok .nil
  | cons item items ih =>
      cases hitems with
      | cons hitem hitems =>
          refine (follows_decodeStep hold hitem).bind fun _ _ hstep => ?_
          refine (ih hitems).bind fun _ _ hsteps => ?_
          exact follows_ok (.cons hstep hsteps)

theorem follows_decodeSteps (hold : Stage.named? old = none) (value other : Value)
    (hvalue : Exchanged old new value other) :
    Follows (List.Forall₂ (ExchangedStep old new)) (decodeSteps value) (decodeSteps other) := by
  cases value with
  | array growing items =>
      obtain ⟨others, rfl, hitems⟩ := hvalue.array_inv
      exact follows_decodeStepList hold hitems
  | _ => exact follows_error _ _

theorem follows_decodeManifests (hold : Stage.named? old = none) (value other : Value)
    (hvalue : Exchanged old new value other) :
    Follows (ExchangedManifests old new) (decodeManifests value) (decodeManifests other) := by
  unfold decodeManifests
  refine (follows_shapeOf _ hvalue).bind fun _ _ hshape => ?_
  refine (follows_optionalField hshape follows_decodeText "directory" 0).bind
    fun _ _ hdirectory => ?_
  refine (follows_optionalField hshape (follows_decodeSteps hold) "steps" 1).bind
    fun _ _ hsteps => ?_
  exact follows_ok ⟨hdirectory, hsteps⟩

theorem eq_of_rel {first second : Option α} (hrel : Option.Rel Eq first second) :
    first = second := by
  cases hrel with
  | none => rfl
  | some heq => exact congrArg some heq

theorem follows_decodeVerify (value other : Value) (hvalue : Exchanged old new value other) :
    Follows Eq (decodeVerify value) (decodeVerify other) := by
  unfold decodeVerify
  refine (follows_shapeOf _ hvalue).bind fun _ _ hshape => ?_
  refine (follows_optionalField hshape follows_decodeWord32 "wait_attempts" 0).bind
    fun _ _ hattempts => ?_
  refine (follows_optionalField hshape follows_decodeWord64 "wait_interval_seconds" 1).bind
    fun _ _ hinterval => ?_
  refine (follows_optionalField hshape follows_decodeFlag "strict" 2).bind fun _ _ hstrict => ?_
  rw [eq_of_rel hattempts, eq_of_rel hinterval, eq_of_rel hstrict]
  exact follows_ok rfl

/-- What is read as a configuration with some texts is read as one with other texts, too. -/
theorem follows_decode (hold : Stage.named? old = none) {root other : Entries}
    (hroot : ExchangedEntries old new root other) :
    Follows (ExchangedConfig old new) (decode root) (decode other) := by
  unfold decode
  refine (follows_shapeOf _ (.table hroot)).bind fun _ _ hshape => ?_
  have hdefault : ExchangedDeployment old new {} {} := ⟨.inl rfl, .none, .none⟩
  refine (follows_defaultedField hshape follows_decodeDeployment hdefault "deployment" 0).bind
    fun _ _ hdeployment => ?_
  refine (follows_optionalField hshape follows_decodeKubectl "kubectl" 1).bind
    fun _ _ hkubectl => ?_
  refine (follows_defaultedField hshape (follows_decodeManifests hold) ⟨.none, .none⟩
    "manifests" 2).bind fun _ _ hmanifests => ?_
  refine (follows_optionalField hshape follows_decodeVerify "verify" 3).bind
    fun _ _ hverify => ?_
  exact follows_ok ⟨hdeployment, hkubectl, hmanifests, eq_of_rel hverify⟩

/-! ## Options that tell configurations apart -/

section options

variable {config other : Config}

theorem map_eq_of_rel {β : Type} {related : α → α → Prop} {first second : Option α}
    (hrel : Option.Rel related first second) {change : α → β}
    (hsame : ∀ value twin, related value twin → change twin = change value) :
    second.map change = first.map change := by
  cases hrel with
  | none => rfl
  | some hrelated => exact congrArg some (hsame _ _ hrelated)

theorem rel_bind {β : Type} {related : α → α → Prop} {after : β → β → Prop}
    {first second : Option α} (hrel : Option.Rel related first second)
    {next later : α → Option β}
    (hnext : ∀ value twin, related value twin → Option.Rel after (next value) (later twin)) :
    Option.Rel after (first.bind next) (second.bind later) := by
  cases hrel with
  | none => exact .none
  | some hrelated => exact hnext _ _ hrelated

theorem rel_getElem? {related : α → α → Prop} {first second : List α}
    (hlists : List.Forall₂ related first second) (index : Nat) :
    Option.Rel related first[index]? second[index]? := by
  induction hlists generalizing index with
  | nil => exact .none
  | cons hhead _ ih =>
      cases index with
      | zero => exact .some hhead
      | succ index => exact ih index

theorem ExchangedOption.withoutText_eq {first second : Option String}
    (hoption : ExchangedOption old new first second) :
    (second.map fun _ => "") = first.map fun _ => "" :=
  map_eq_of_rel hoption fun _ _ _ => rfl

theorem ExchangedStep.withoutTexts_eq {step twin : Step} (hstep : ExchangedStep old new step twin) :
    (twin.mapTexts fun _ _ => "") = step.mapTexts fun _ _ => "" := by
  have hkind := ExchangedOption.withoutText_eq hstep.kind
  have hresource := ExchangedOption.withoutText_eq hstep.resource
  simp [Step.mapTexts, hstep.stage, hstep.clusterScoped, hkind, hresource]

theorem ExchangedConfig.withoutTexts_eq (hconfig : ExchangedConfig old new config other) :
    other.withoutTexts = config.withoutTexts := by
  obtain ⟨hdeployment, hkubectl, hmanifests, hverify⟩ := hconfig
  unfold withoutTexts mapTexts
  rw [Config.mk.injEq]
  refine ⟨?_, ?_, ?_, hverify.symm⟩
  · rw [ExchangedOption.withoutText_eq hdeployment.description,
      ExchangedOption.withoutText_eq hdeployment.version]
  · refine map_eq_of_rel hkubectl fun _ _ hsection => ?_
    rw [ExchangedOption.withoutText_eq hsection.binary,
      ExchangedOption.withoutText_eq hsection.kubeconfig,
      ExchangedOption.withoutText_eq hsection.context,
      ExchangedOption.withoutText_eq hsection.namespaceName]
  · rw [ManifestsSection.mk.injEq]
    refine ⟨ExchangedOption.withoutText_eq hmanifests.directory, ?_⟩
    refine map_eq_of_rel hmanifests.steps fun _ _ hsteps => ?_
    apply List.ext_getElem?
    intro index
    rw [List.getElem?_mapIdx, List.getElem?_mapIdx]
    exact map_eq_of_rel (rel_getElem? hsteps index) fun _ _ hstep => hstep.withoutTexts_eq

theorem ExchangedConfig.read? (hconfig : ExchangedConfig old new config other)
    (option : TextOption) :
    ExchangedOption old new (option.read? config) (option.read? other) := by
  obtain ⟨hdeployment, hkubectl, hmanifests, -⟩ := hconfig
  cases option with
  | deploymentName => exact .some hdeployment.name
  | description => exact hdeployment.description
  | version => exact hdeployment.version
  | binary => exact rel_bind hkubectl fun _ _ hsection => hsection.binary
  | kubeconfig => exact rel_bind hkubectl fun _ _ hsection => hsection.kubeconfig
  | context => exact rel_bind hkubectl fun _ _ hsection => hsection.context
  | namespaceName => exact rel_bind hkubectl fun _ _ hsection => hsection.namespaceName
  | directory => exact hmanifests.directory
  | step index text =>
      refine rel_bind hmanifests.steps fun _ _ hsteps => ?_
      refine rel_bind (rel_getElem? hsteps index) fun _ _ hstep => ?_
      cases text with
      | name => exact .some hstep.name
      | file => exact .some hstep.file
      | kind => exact hstep.kind
      | resource => exact hstep.resource

/-- A configuration that is alike to two configurations which only the text of one option tells
apart has its own text there. -/
theorem eq_put_of_exchanged {first second third : String} (hne : first ≠ second)
    {option : TextOption}
    (hfirst : ExchangedConfig first third config other)
    (hsecond : ExchangedConfig second third (option.put second config) other)
    (hread : option.read? config = some first) : other = option.put third config := by
  apply eq_of_texts
  · rw [hfirst.withoutTexts_eq, option.withoutTexts_put]
  intro asked
  have hone := hfirst.read? asked
  have htwo := hsecond.read? asked
  by_cases hasked : asked = option
  · subst hasked
    rw [hread] at hone
    rw [asked.read?_put_self, hread] at htwo ⊢
    generalize asked.read? other = found? at hone htwo ⊢
    cases hone with
    | some hone =>
        cases htwo with
        | some htwo =>
            rcases hone with rfl | ⟨-, rfl⟩
            · rcases htwo with heq | ⟨-, rfl⟩
              · exact absurd heq hne
              · rfl
            · rfl
  · rw [option.read?_put_of_ne second config hasked] at htwo
    rw [option.read?_put_of_ne third config hasked]
    generalize asked.read? config = text?, asked.read? other = found? at hone htwo ⊢
    cases hone with
    | none => rfl
    | some hone =>
        cases htwo with
        | some htwo =>
            -- a text that is exchanged would have to be both of the two
            rcases hone with rfl | ⟨rfl, rfl⟩
            · rfl
            · rcases htwo with rfl | ⟨heq, -⟩
              · rfl
              · exact absurd heq hne

end options

end Rollout.Config
