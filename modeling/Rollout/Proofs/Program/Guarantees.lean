import Rollout.Kubectl.Client
import Rollout.Proofs.Config.SoundSettings
import Rollout.Proofs.Duration
import Rollout.Proofs.Run.Results
import Rollout.Proofs.Verify.Passes

/-!
# What accepted settings guarantee

Validation looks at a configuration before anything is done with it.  This file says what that is
worth later: to the settings that are made of the configuration, and to every run that uses them,
for an arbitrary control plane.

## Strategy

That the settings are sound is known (`Config.Usable.sound`).  Runs and verifications take the names
that they speak of from the steps of the set, in their results and statuses as well as in their
errors, and sound settings have no name twice (`names_run`, `names_verify`).  A verification pauses
once less than it makes passes (`Verify.Verified.exists_passes`), so the bounds of the polling bound
the time that it waits.
-/

namespace Rollout

variable {σ : Type}

/-! ## Names -/

/-- An error about a failed command names exactly one of the manifests, unless it is an answer of
the control plane itself. -/
def Manifests.Attributes (set : Manifests) (answers : List (Except Failure Reply))
    (error : Failure) : Prop :=
  ∀ step operation exitCode? stderr, error = .commandFailed step operation exitCode? stderr →
    set.NamesOne step ∨ .error error ∈ answers

/-- The names that a run speaks of, in its results or in its error. -/
structure Run.Names (plane : ControlPlane σ) (set : Manifests) (state : σ)
    (trace : Trace σ (List Completion)) : Prop where
  results : ∀ results, trace.result = .ok results → ∀ result ∈ results, set.NamesOne result.step
  error : ∀ error, trace.result = .error error →
    set.Attributes (plane.answers trace.journal state) error

/-- The names that a verification speaks of. -/
structure Verify.Names (plane : ControlPlane σ) (set : Manifests) (state : σ)
    (trace : Trace σ Verification) : Prop where
  statuses : ∀ report, trace.result = .ok report →
    ∀ status ∈ report.statuses, set.NamesOne status.target.step
  error : ∀ error, trace.result = .error error →
    set.Attributes (plane.answers trace.journal state) error

section names

variable {set : Manifests} (hnodup : (set.steps.map (·.name)).Nodup) (plane : ControlPlane σ)
  (state : σ)

include hnodup

theorem names_run (action : Action) (executionId : String) (dryRun : Bool) :
    Run.Names plane set state (Run.run plane set action executionId dryRun state) := by
  constructor
  · intro results hresult result hmem
    have hnames := (Run.ended_of_ok executionId hresult).names_eq
    have hname : result.step ∈ (set.order action).map (·.name) :=
      hnames ▸ List.mem_map_of_mem hmem
    exact Manifests.namesOne_of_mem hnodup (((set.order_perm action).map _).mem_iff.mp hname)
  · rintro error hresult step operation exitCode? stderr rfl
    obtain ⟨stopping, answer, herror, hstopped⟩ := Run.stopped_of_error executionId hresult
    cases answer with
    | error given =>
        obtain rfl : _ = given := herror
        exact .inr hstopped.answer_mem
    | ok reply =>
        obtain ⟨rfl, -⟩ := Failure.commandFailed.inj herror
        have hstep := (set.order_perm action).mem_iff.mp hstopped.step_mem
        exact .inl (Manifests.namesOne_of_mem hnodup (List.mem_map_of_mem hstep))

theorem namesOne_of_mem_targets {target : Target} (htarget : target ∈ set.targets) :
    set.NamesOne target.step := by
  obtain ⟨step, hstep, hdeclared⟩ := List.mem_filterMap.mp htarget
  have hmem : step ∈ set.steps :=
    (set.order_perm .apply).mem_iff.mp (List.mem_of_mem_filter hstep)
  rw [← (Verify.describes_of_target? hdeclared).1]
  exact Manifests.namesOne_of_mem hnodup (List.mem_map_of_mem hmem)

theorem names_verify (polling : Polling) :
    Verify.Names plane set state (Verify.verify plane polling set state) := by
  rcases Verify.verified_verify plane polling set state with
    ⟨rows, report, hresult, hcompleted⟩ | ⟨rows, seen, target, error, hresult, haborted⟩
  · refine ⟨fun found hfound status hstatus => ?_, fun error herror => ?_⟩
    · obtain rfl : report = found := Except.ok.inj (hresult.symm.trans hfound)
      have htarget : status.target ∈ set.targets :=
        hcompleted.targets_eq ▸ List.mem_map_of_mem hstatus
      exact namesOne_of_mem_targets hnodup htarget
    · exact absurd (hresult.symm.trans herror) (by simp)
  · refine ⟨fun report hreport => absurd (hresult.symm.trans hreport) (by simp), ?_⟩
    rintro found hfound step operation exitCode? stderr rfl
    obtain rfl : error = _ := Except.error.inj (hresult.symm.trans hfound)
    obtain ⟨earlier, last, hanswers, -, hends⟩ := haborted.answered
    cases hends with
    | unanswered => exact .inr (by simp [hanswers])
    | refused hfailed hpresent =>
        exact .inl (namesOne_of_mem_targets hnodup
          (List.mem_of_getElem? haborted.reaches.target_eq))

end names

/-- Kubectl itself never says that a command has failed; it only may not be there to be started. -/
theorem Kubectl.answers_controlPlane (launcher : Launcher σ) (options : Options)
    (journal : List Entry) (state : σ) :
    ∀ error, .error error ∈ (controlPlane launcher options).answers journal state →
      ∃ fault, error = .commandNotStarted options.binary fault := by
  intro error hanswer
  induction journal generalizing state with
  | nil => simp at hanswer
  | cons entry rest ih =>
      cases entry with
      | waited interval | reported event => exact ih _ hanswer
      | asked request =>
          rcases List.mem_cons.mp hanswer with hfirst | hrest
          · simp only [controlPlane] at hfirst
            cases hlaunch :
                (launcher.launch options.binary (options.arguments request) state).1 with
            | ok finished => simp [hlaunch, reply] at hfirst
            | error fault =>
                rw [hlaunch] at hfirst
                exact ⟨fault, Except.error.inj hfirst⟩
          · exact ih _ hrest

/-! ## Time -/

/-- Time passes by pausing, and by nothing else. -/
theorem Trace.nanoseconds_waited {α : Type} (trace : Trace σ α) :
    trace.waited.nanoseconds =
      ((trace.journal.filterMap Entry.pause?).map Duration.nanoseconds).sum := by
  rw [waited, Duration.nanoseconds_sum]
  induction trace.journal with
  | nil => rfl
  | cons entry rest ih =>
      cases entry <;> simp [Entry.waiting, Entry.pause?, List.filterMap_cons, -List.map_map, ih]

namespace Verify

/-- A verification pauses once less than it makes passes, the one that an answer has ended
included. -/
theorem Verified.exists_passes {plane : ControlPlane σ} {interval : Duration} {bound : Nat}
    {targets : List Target} {result : Except Failure Verification} {journal : List Entry}
    {state : σ} (hverified : Verified plane interval bound targets result journal state) :
    ∃ passes, passes ≤ bound ∧ (∀ report, result = .ok report → report.passes = passes) ∧
      journal.filterMap Entry.pause? = List.replicate (passes - 1) interval := by
  rcases hverified with
    ⟨rows, report, rfl, hcompleted⟩ | ⟨rows, seen, target, error, rfl, haborted⟩
  · refine ⟨report.passes, hcompleted.passes_le, ?_, ?_⟩
    · rintro _ ⟨⟩
      rfl
    · rw [hcompleted.journal_eq, filterMap_pause?_journalOf, hcompleted.passes_eq]
  · refine ⟨rows.length + 1, haborted.length_lt, by simp, ?_⟩
    rw [haborted.journal_eq]
    simp only [List.filterMap_append, filterMap_pause?_journalOf, filterMap_pause?_passEntries]
    -- the pause before the last pass, if it was not the only one
    cases rows with
    | nil => simp [Entry.pause?]
    | cons row rows =>
        rw [leadIn_of_ne_nil interval (by simp)]
        simp [Entry.pause?, List.filterMap_cons, List.replicate_succ']

end Verify

/-- A verification makes at least one pass and no more than it may, and it waits no longer than
the pauses between so many passes take. -/
structure Polling.Bounds (polling : Polling) (plane : ControlPlane σ) (set : Manifests) (state : σ)
    (trace : Trace σ Verification) : Prop where
  verified : Verify.Verified plane polling.interval polling.attempts set.targets trace.result
    trace.journal state
  pauses : ∃ passes ≤ polling.attempts,
    (∀ report, trace.result = .ok report → report.passes = passes) ∧
    trace.journal.filterMap Entry.pause? = List.replicate (passes - 1) polling.interval
  waited_le : trace.waited.nanoseconds ≤
    (polling.attempts - 1) * polling.interval.nanoseconds

theorem bounds_verify {polling : Polling} (hbounded : polling.Bounded) (plane : ControlPlane σ)
    (set : Manifests) (state : σ) :
    polling.Bounds plane set state (Verify.verify plane polling set state) := by
  have hverified := Verify.verified_verify plane polling set state
  rw [Nat.max_eq_left hbounded.one_le_attempts] at hverified
  obtain ⟨passes, hpasses, hreport, hpauses⟩ := Verify.Verified.exists_passes hverified
  refine ⟨hverified, ⟨passes, hpasses, hreport, hpauses⟩, ?_⟩
  rw [Trace.nanoseconds_waited, hpauses, List.map_replicate, List.sum_replicate_nat]
  exact Nat.mul_le_mul_right _ (Nat.sub_le_sub_right hpasses 1)

/-! ## The settings and their runs -/

namespace Program

/-- **What validation has accepted holds of the settings and of every run with them.**  The set has
the configured steps in the order of declaration, and only their files are changed: an absolute one
is kept, and a relative one is looked up in the directory.  All of them would be accepted again.  A
step can be verified exactly when it declares a kind, and then it declares the name of an object.
Whatever a run or a verification says about a step, in its results or in its error, names exactly
one manifest, unless the control plane has said it, and kubectl never does.  A verification keeps to
the passes that it may make and to the time of the pauses between them. -/
theorem accepted_settings_hold {config : Config} {settings : Settings}
    (hsettings : config.settings = .ok settings) :
    (settings.directory = ⟨config.directory⟩ ∧
      List.Forall₂ (Step.ResolvedFrom settings.directory) config.steps
        settings.manifests.steps) ∧
    settings.Sound ∧
    (∀ step ∈ settings.manifests.steps, IsPath step.file.text ∧
      ∃ extension ∈ manifestExtensions, step.file.extension? = some extension) ∧
    validateSteps settings.manifests.steps = .ok () ∧
    (∀ step, step ∈ settings.manifests.verifiable ↔
      step ∈ settings.manifests.steps ∧ step.kind?.isSome = true) ∧
    (∀ step ∈ settings.manifests.verifiable,
      ∃ resource, step.resource? = some resource ∧ IsName 253 true resource) ∧
    ∀ (σ : Type) (state : σ),
      (∀ plane : ControlPlane σ,
        (∀ action executionId dryRun, Run.Names plane settings.manifests state
          (Run.run plane settings.manifests action executionId dryRun state)) ∧
        let trace := Verify.verify plane settings.verify.polling settings.manifests state
        Verify.Names plane settings.manifests state trace ∧
        settings.verify.polling.Bounds plane settings.manifests state trace) ∧
      ∀ (launcher : Launcher σ) options journal step operation exitCode? stderr,
        .error (.commandFailed step operation exitCode? stderr) ∉
          (Kubectl.controlPlane launcher options).answers journal state := by
  rw [Config.settings_eq_ok_iff] at hsettings
  obtain ⟨husable, rfl⟩ := hsettings
  have hsound := husable.sound
  have hmem : ∀ step, step ∈ config.described.manifests.installOrder ↔
      step ∈ config.described.manifests.steps := fun _ =>
    (config.described.manifests.order_perm .apply).mem_iff
  have hverifiable : ∀ step, step ∈ config.described.manifests.verifiable ↔
      step ∈ config.described.manifests.steps ∧ step.kind?.isSome = true := by
    intro step
    rw [Manifests.verifiable, List.mem_filter, hmem]
    exact and_congr_right fun hstep => (hsound.steps step hstep).isSome_target?_iff
  refine ⟨⟨rfl, husable.resolvedFrom⟩, hsound, fun step hstep => ?_,
    validateSteps_of_usable hsound.steps, hverifiable, fun step hstep => ?_,
    fun σ state => ⟨fun plane => ⟨?_, ?_, ?_⟩, ?_⟩⟩
  · exact ⟨(hsound.steps step hstep).file, (hsound.steps step hstep).extension⟩
  · obtain ⟨hdeclared, hkind⟩ := (hverifiable step).mp hstep
    have husable := hsound.steps step hdeclared
    obtain ⟨resource, hresource⟩ := Option.isSome_iff_exists.mp (husable.target_complete.mp hkind)
    exact ⟨resource, hresource, husable.resource resource hresource⟩
  · exact names_run hsound.names_nodup plane state
  · exact names_verify hsound.names_nodup plane state _
  · exact bounds_verify hsound.polling plane _ state
  · intro launcher options journal step operation exitCode? stderr hanswer
    obtain ⟨fault, hfault⟩ := Kubectl.answers_controlPlane launcher options journal state _ hanswer
    exact absurd hfault (by simp)

/-- Manifests of which one is named absolutely, in a directory that is written with a slash. -/
def scattered : Config where
  manifests := {
    directory? := some "k8s/"
    steps? := some [
      { name := "config", file := ⟨"/opt/a.yaml"⟩, stage := .config },
      { name := "server", file := ⟨"./b.yml"⟩, stage := .workloads, kind? := some "Deployment",
        resource? := some "server" },
      { name := "service", file := ⟨"c.json/"⟩, stage := .services }] }
  verify? := some { waitAttempts? := some 3, waitIntervalSeconds? := some 2 }

/-- They are accepted, would be accepted again as they are found, and are never waited for longer
than four seconds. -/
theorem settings_of_scattered :
    scattered.settings = .ok scattered.described ∧
      scattered.described.manifests.steps.map (·.file.text) =
        ["/opt/a.yaml", "k8s/./b.yml", "k8s/c.json/"] ∧
      validateSteps scattered.described.manifests.steps = .ok () ∧
      ∀ (σ : Type) (plane : ControlPlane σ) (state : σ),
        (Verify.verify plane ⟨3, .ofSeconds 2⟩ scattered.described.manifests
          state).waited.nanoseconds ≤ 2 * 2000000000 := by
  have hsettings : scattered.settings = .ok scattered.described := rfl
  obtain ⟨-, -, -, hagain, -, -, hruns⟩ := accepted_settings_hold hsettings
  refine ⟨hsettings, by decide +kernel, hagain, fun σ plane state => ?_⟩
  exact ((hruns σ state).1 plane).2.2.waited_le

end Program
end Rollout
