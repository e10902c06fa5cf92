import Rollout.Program.Conclusion
import Rollout.Proofs.Run.FailFast
import Rollout.Proofs.Verify.Passes

/-!
# Nothing is asked too early

What the whole program may ask of the control plane, and when, for arbitrary surroundings and an
arbitrary control plane.  Every request stands for one external command, so what is said about
requests here is said about commands.

## Strategy

The pieces of work that the program is made of ask for one operation each (`asksOnly_execute`,
`asksOnly_verify`), so a command leads to requests for its own operation only
(`Command.operation?`).  Work begins only after the settings have been loaded and, for a command
that reads manifests, after `requireFiles` has found all of them; until then a conclusion is one
that was refused, and a refused conclusion has an empty journal.
-/

namespace Rollout

/-! ## Commands and their requests -/

/-- The operation that a run may ask for, unless it is dry. -/
def RunOptions.operation? (options : RunOptions) (action : Action) : Option Operation :=
  if options.dryRun then none else some action.operation

namespace Command

/-- Whether a command hands manifest files to the control plane. -/
def readsManifests : Command → Bool
  | install _ | uninstall _ => true
  | verify _ | plan _ => false

/-- The operation that a command may ask for; none for plans and dry runs. -/
def operation? : Command → Option Operation
  | install options => options.operation? .apply
  | uninstall options => options.operation? .delete
  | verify _ => some .get
  | plan _ => none

end Command

/-- The requests of the whole program, in order. -/
def Conclusion.requests {σ : Type} (conclusion : Conclusion σ) : List Request :=
  conclusion.journal.filterMap Entry.request?

@[simp]
theorem Conclusion.journal_refused {σ : Type} (error : Failure) (state : σ) :
    (Conclusion.refused error state).journal = [] := rfl

@[simp]
theorem Conclusion.requests_refused {σ : Type} (error : Failure) (state : σ) :
    (Conclusion.refused error state).requests = [] := rfl

@[simp]
theorem Conclusion.state_refused {σ : Type} (error : Failure) (state : σ) :
    (Conclusion.refused error state).state = state := rfl

/-! ## Missing files -/

/-- The first of the steps whose file is missing. -/
def FirstMissing (isFile : Path → Bool) (steps : List Step) (missing : Step) : Prop :=
  ∃ present rest, steps = present ++ missing :: rest ∧
    (∀ step ∈ present, isFile step.file = true) ∧ isFile missing.file = false

/-- All files are there, or the error names the first that is not. -/
theorem requireFiles_cases (isFile : Path → Bool) (steps : List Step) :
    (requireFiles isFile steps = .ok () ∧ ∀ step ∈ steps, isFile step.file = true) ∨
      ∃ missing, FirstMissing isFile steps missing ∧
        requireFiles isFile steps = .error (.manifestNotFound missing.file) := by
  induction steps with
  | nil => exact .inl ⟨rfl, by simp⟩
  | cons step rest ih =>
      rw [requireFiles]
      cases hfile : isFile step.file with
      | false => exact .inr ⟨step, ⟨[], rest, rfl, by simp, hfile⟩, rfl⟩
      | true =>
          rcases ih with ⟨hrest, hall⟩ | ⟨missing, ⟨present, others, rfl, hpresent, habsent⟩, hrest⟩
          · exact .inl ⟨hrest, List.forall_mem_cons.mpr ⟨hfile, hall⟩⟩
          · refine .inr ⟨missing, ⟨step :: present, others, rfl, ?_, habsent⟩, hrest⟩
            exact List.forall_mem_cons.mpr ⟨hfile, hpresent⟩

/-- The manifests of a set are looked at in the order of installation, and that is all of them. -/
theorem Manifests.requirePresent_cases (set : Manifests) (isFile : Path → Bool) :
    (set.requirePresent isFile = .ok () ∧ ∀ step ∈ set.steps, isFile step.file = true) ∨
      ∃ missing, FirstMissing isFile set.installOrder missing ∧
        set.requirePresent isFile = .error (.manifestNotFound missing.file) := by
  have hmem : ∀ step, step ∈ set.steps → step ∈ set.installOrder := fun step =>
    (sortByStage_perm set.steps).mem_iff.mpr
  rcases requireFiles_cases isFile set.installOrder with ⟨hrequire, hall⟩ | hmissing
  · exact .inl ⟨hrequire, fun step hstep => hall step (hmem step hstep)⟩
  · exact .inr hmissing

/-- Where a file is missing, not all files are there. -/
theorem FirstMissing.not_present {set : Manifests} {isFile : Path → Bool} {missing : Step}
    (hfirst : FirstMissing isFile set.installOrder missing) :
    ¬ ∀ step ∈ set.steps, isFile step.file = true := by
  obtain ⟨present, rest, hsplit, -, habsent⟩ := hfirst
  have hmem : missing ∈ set.installOrder := by simp [hsplit]
  exact fun hall => absurd (hall missing ((set.order_perm .apply).mem_iff.mp hmem))
    (by simp [habsent])

namespace Program

variable {σ : Type}

/-! ## What a conclusion takes from a trace -/

theorem journal_runConclusion (occasion : Occasion) (settings : Settings) (action : Action)
    (options : RunOptions) (executionId : String) (trace : Trace σ (List Completion)) :
    (runConclusion occasion settings action options executionId trace).journal = trace.journal ∧
      (runConclusion occasion settings action options executionId trace).state = trace.state := by
  unfold runConclusion
  split <;> exact ⟨rfl, rfl⟩

theorem journal_verifyConclusion (settings : Settings) (trace : Trace σ Verification) :
    (verifyConclusion settings trace).journal = trace.journal ∧
      (verifyConclusion settings trace).state = trace.state := by
  unfold verifyConclusion
  split <;> exact ⟨rfl, rfl⟩

/-- The control plane is left as the journal says, all requests are for one operation, and without
an operation the control plane is left alone. -/
structure Restrained (plane : ControlPlane σ) (operation? : Option Operation) (state : σ)
    (conclusion : Conclusion σ) : Prop where
  state_eq : conclusion.state = plane.after conclusion.journal state
  operation_eq : ∀ request ∈ conclusion.requests, operation? = some request.operation
  state_eq_of_none : operation? = none → conclusion.state = state

theorem Restrained.requests_eq_nil {plane : ControlPlane σ} {state : σ}
    {conclusion : Conclusion σ} (hrestrained : Restrained plane none state conclusion) :
    conclusion.requests = [] := by
  refine List.eq_nil_iff_forall_not_mem.mpr fun request hrequest => ?_
  exact absurd (hrestrained.operation_eq request hrequest) (by simp)

/-- A conclusion drawn from work that asks for one operation only. -/
theorem restrained_of_asksOnly {α : Type} {plane : ControlPlane σ} {operation? : Option Operation}
    {permitted : Request → Prop} {work : Work σ α} {state : σ} {conclusion : Conclusion σ}
    (hwork : work.AsksOnly plane permitted)
    (hoperation : ∀ request, permitted request → operation? = some request.operation)
    (hconclusion : conclusion.journal = (work state).journal ∧
      conclusion.state = (work state).state)
    (hnone : operation? = none → (work state).state = state) :
    Restrained plane operation? state conclusion := by
  obtain ⟨hjournal, hstate⟩ := hconclusion
  refine ⟨?_, fun request hrequest => ?_, fun hidle => hstate.trans (hnone hidle)⟩
  · rw [hstate, hjournal]
    exact hwork.recorded state
  · rw [Conclusion.requests, hjournal] at hrequest
    exact hoperation request (hwork.permitted_of_mem hrequest)

/-! ## The subcommands -/

section subcommands

variable (surroundings : Surroundings) (occasion : Occasion) (plane : ControlPlane σ)
  (settings : Settings) (state : σ)

theorem restrained_run (action : Action) (options : RunOptions) (executionId : String) :
    Restrained plane (options.operation? action) state
      (runConclusion occasion settings action options executionId
        (Run.run plane settings.manifests action executionId options.dryRun state)) := by
  have hpermitted : options.dryRun = false → ∀ step ∈ settings.manifests.order action,
      options.operation? action = some (Request.manifest action step.file).operation := by
    intro hreal step _
    simp [RunOptions.operation?, hreal, Request.operation]
  have hwork := Run.asksOnly_execute plane
    (fun request => options.operation? action = some request.operation) action executionId
    options.dryRun hpermitted
  refine restrained_of_asksOnly hwork (fun _ hoperation => hoperation)
    (journal_runConclusion _ _ _ _ _ _) fun hnone => ?_
  have hdry : options.dryRun = true := by
    cases hdryRun : options.dryRun with
    | true => rfl
    | false => simp [RunOptions.operation?, hdryRun] at hnone
  rw [hdry, Run.state_execute, (Run.execute_dry executionId).2, plane.after_nil]

/-- A run is refused because of the first missing file, or all files are there and it is carried
out. -/
theorem deploy_eq (action : Action) (options : RunOptions) :
    let executionId := options.executionId?.getD occasion.executionId
    (∃ missing, FirstMissing surroundings.isFile settings.manifests.installOrder missing ∧
      deploy surroundings occasion plane settings action options state =
        .refused (.manifestNotFound missing.file) state) ∨
    (∀ step ∈ settings.manifests.steps, surroundings.isFile step.file = true) ∧
      deploy surroundings occasion plane settings action options state =
        runConclusion occasion settings action options executionId
          (Run.run plane settings.manifests action executionId options.dryRun state) := by
  intro executionId
  rcases settings.manifests.requirePresent_cases surroundings.isFile with
    ⟨hrequire, hall⟩ | ⟨missing, hfirst, hrequire⟩
  · exact .inr ⟨hall, by simp only [deploy, hrequire, executionId]⟩
  · exact .inl ⟨missing, hfirst, by simp only [deploy, hrequire]⟩

theorem deploy_cases (action : Action) (options : RunOptions) :
    let conclusion := deploy surroundings occasion plane settings action options state
    (∃ missing, FirstMissing surroundings.isFile settings.manifests.installOrder missing ∧
      conclusion = .refused (.manifestNotFound missing.file) state) ∨
    (∀ step ∈ settings.manifests.steps, surroundings.isFile step.file = true) ∧
      Restrained plane (options.operation? action) state conclusion := by
  intro conclusion
  rcases deploy_eq surroundings occasion plane settings state action options with
    hmissing | ⟨hall, hcarried⟩
  · exact .inl hmissing
  · refine .inr ⟨hall, ?_⟩
    rw [show conclusion = _ from hcarried]
    exact restrained_run occasion plane settings state action options _

theorem carryOut_cases (command : Command) :
    let conclusion := carryOut surroundings occasion plane settings command state
    (command.readsManifests = true ∧
      ∃ missing, FirstMissing surroundings.isFile settings.manifests.installOrder missing ∧
        conclusion = .refused (.manifestNotFound missing.file) state) ∨
    (command.readsManifests = true →
        ∀ step ∈ settings.manifests.steps, surroundings.isFile step.file = true) ∧
      Restrained plane command.operation? state conclusion := by
  cases command with
  | install options =>
      exact (deploy_cases surroundings occasion plane settings state .apply options).imp
        (fun hmissing => ⟨rfl, hmissing⟩) (fun hpresent => ⟨fun _ => hpresent.1, hpresent.2⟩)
  | uninstall options =>
      exact (deploy_cases surroundings occasion plane settings state .delete options).imp
        (fun hmissing => ⟨rfl, hmissing⟩) (fun hpresent => ⟨fun _ => hpresent.1, hpresent.2⟩)
  | verify options =>
      refine .inr ⟨by simp [Command.readsManifests], ?_⟩
      refine restrained_of_asksOnly (Verify.asksOnly_verify plane _ _) ?_
        (journal_verifyConclusion _ _) (by simp [Command.operation?])
      intro request hquery
      exact congrArg some hquery.symm
  | plan reverse =>
      refine .inr ⟨by simp [Command.readsManifests], rfl, ?_, fun _ => rfl⟩
      simp [Conclusion.requests, carryOut, plan]

end subcommands

/-! ## The whole program -/

/-- The settings of a command line have been loaded, and the files that the command reads are
there. -/
structure Cleared (surroundings : Surroundings) (line : CommandLine) (settings : Settings) :
    Prop where
  loaded : line.settings surroundings.lookup surroundings.read = .ok settings
  present : line.command.readsManifests = true →
    ∀ step ∈ settings.manifests.steps, surroundings.isFile step.file = true

section refused

variable {surroundings : Surroundings} {line : CommandLine} (occasion : Occasion)
  (plane : Kubectl.Options → ControlPlane σ) (state : σ)

theorem run_of_settings_error {error : Failure}
    (hloaded : line.settings surroundings.lookup surroundings.read = .error error) :
    run surroundings occasion plane line state = .refused error state := by
  simp only [run, hloaded]

theorem run_of_settings {settings : Settings}
    (hloaded : line.settings surroundings.lookup surroundings.read = .ok settings) :
    run surroundings occasion plane line state =
      carryOut surroundings occasion (plane settings.kubectl) settings line.command state := by
  simp only [run, hloaded]

/-- A command that reads manifests is refused because of the first that is missing. -/
theorem run_of_missing {settings : Settings}
    (hloaded : line.settings surroundings.lookup surroundings.read = .ok settings)
    (hreads : line.command.readsManifests = true)
    (hmissing : ∃ step ∈ settings.manifests.steps, surroundings.isFile step.file = false) :
    ∃ missing, FirstMissing surroundings.isFile settings.manifests.installOrder missing ∧
      run surroundings occasion plane line state =
        .refused (.manifestNotFound missing.file) state := by
  rw [run_of_settings occasion plane state hloaded]
  rcases carryOut_cases surroundings occasion (plane settings.kubectl) settings state
    line.command with ⟨-, hrefused⟩ | ⟨hpresent, -⟩
  · exact hrefused
  · obtain ⟨step, hstep, habsent⟩ := hmissing
    exact absurd (hpresent hreads step hstep) (by simp [habsent])

end refused

/-- **Nothing is asked too early, and nothing but what the command is for.**  Without settings, and
without all the files when the command reads them, the program is refused: it asks for nothing,
leaves the control plane alone and has no report.  Of missing files the error names the first in the
order of installation.  All requests are for the operation of the command, and plans and dry runs
make none. -/
theorem nothing_is_asked_too_early (surroundings : Surroundings) (occasion : Occasion)
    (plane : Kubectl.Options → ControlPlane σ) (line : CommandLine) (state : σ) :
    let loaded := line.settings surroundings.lookup surroundings.read
    let conclusion := run surroundings occasion plane line state
    (∀ error, loaded = .error error → conclusion = .refused error state) ∧
    (∀ settings, loaded = .ok settings → line.command.readsManifests = true →
      (∃ step ∈ settings.manifests.steps, surroundings.isFile step.file = false) →
      ∃ missing, FirstMissing surroundings.isFile settings.manifests.installOrder missing ∧
        conclusion = .refused (.manifestNotFound missing.file) state) ∧
    (∀ request ∈ conclusion.requests, line.command.operation? = some request.operation ∧
      ∃ settings, Cleared surroundings line settings) ∧
    (∀ settings, loaded = .ok settings →
      conclusion.state = (plane settings.kubectl).after conclusion.journal state) ∧
    (line.command.operation? = none → conclusion.requests = [] ∧ conclusion.state = state) := by
  intro loaded conclusion
  cases hloaded : loaded with
  | error error =>
      have hrefused : conclusion = .refused error state :=
        run_of_settings_error occasion plane state hloaded
      refine ⟨?_, by simp, by simp [hrefused], by simp, by simp [hrefused]⟩
      rintro _ ⟨⟩
      exact hrefused
  | ok settings =>
      have hmissing := run_of_missing occasion plane state hloaded
      have hcases := carryOut_cases surroundings occasion (plane settings.kubectl) settings state
        line.command
      rw [← run_of_settings occasion plane state hloaded] at hcases
      rcases hcases with ⟨-, missing, -, hrefused⟩ | ⟨hpresent, hrestrained⟩
      · have hrefused : conclusion = .refused (.manifestNotFound missing.file) state := hrefused
        refine ⟨by simp, ?_, by simp [hrefused], by simp [hrefused], by simp [hrefused]⟩
        rintro _ ⟨⟩
        exact hmissing
      · refine ⟨by simp, ?_, ?_, ?_, ?_⟩
        · rintro _ ⟨⟩
          exact hmissing
        · intro request hrequest
          exact ⟨hrestrained.operation_eq request hrequest, settings, hloaded, hpresent⟩
        · rintro _ ⟨⟩
          exact hrestrained.state_eq
        · intro hidle
          exact ⟨(hidle ▸ hrestrained).requests_eq_nil, hrestrained.state_eq_of_none hidle⟩

/-! ## One file too few -/

/-- One of the files of the demonstration workloads. -/
def registrationEntry : Path := ⟨"./k8s/registration-entry.yaml"⟩

/-- Surroundings with no file that can be read, and with all manifests but that one. -/
def lackingEntry : Surroundings where
  lookup _ := none
  read _ := .error .notFound
  isFile path := path ≠ registrationEntry

/-- The program as it runs there on an empty cluster. -/
def runLacking (line : CommandLine) : Conclusion Cluster :=
  run lackingEntry ⟨"r", "now"⟩ (fun _ => Cluster.controlPlane) line {}

/-- A dry uninstallation is refused because of the file that is missing, a verification does not
need it and asks for objects only, and without its configuration file the program is refused. -/
theorem runs_lacking_a_file :
    runLacking { command := .uninstall { dryRun := true } } =
        .refused (.manifestNotFound registrationEntry) {} ∧
      (∀ request ∈ (runLacking { command := .verify {} }).requests, request.operation = .get) ∧
      runLacking { config? := some "spire.toml", command := .install {} } =
        .refused (.io .notFound) {} := by
  have early := fun line : CommandLine => nothing_is_asked_too_early lackingEntry ⟨"r", "now"⟩
    (fun _ => Cluster.controlPlane) line {}
  refine ⟨?_, ?_, ?_⟩
  · have hloaded : CommandLine.settings { command := .uninstall { dryRun := true } }
        lackingEntry.lookup lackingEntry.read = .ok (Config.described {}) := rfl
    have habsent : ∃ step ∈ (Config.described {}).manifests.steps,
        lackingEntry.isFile step.file = false := by
      decide +kernel
    obtain ⟨missing, ⟨_, _, _, _, hfile⟩, hrefused⟩ :=
      (early { command := .uninstall { dryRun := true } }).2.1 _ hloaded rfl habsent
    have heq : missing.file = registrationEntry := by simpa [lackingEntry] using hfile
    exact heq ▸ hrefused
  · intro request hrequest
    have hoperation := ((early { command := .verify {} }).2.2.1 request hrequest).1
    exact (Option.some.inj hoperation).symm
  · exact (early { config? := some "spire.toml", command := .install {} }).1 _ rfl

end Program
end Rollout
