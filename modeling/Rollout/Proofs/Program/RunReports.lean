import Rollout.Proofs.Config.SoundSettings
import Rollout.Proofs.Program.Preflight
import Rollout.Proofs.Run.Results

/-!
# Reports of runs

When an installation or an uninstallation leaves a report to be written, and what the report then
says about the run, for an arbitrary control plane and arbitrary surroundings.

## Strategy

A run that is carried out has either stopped or come to its end, and only one that has come to its
end has results (`Run.ok_execute_iff`).  A report is made of these results alone, so everything that
it says is read off them (`truthful_ofResults`).  That no manifest occurs twice in it is owed to
the settings, which come from an accepted configuration.
-/

namespace Rollout

variable {σ : Type}

/-- The action and the options of a command that installs or uninstalls. -/
def Command.run? : Command → Option (Action × RunOptions)
  | install options => some (.apply, options)
  | uninstall options => some (.delete, options)
  | verify _ | plan _ => none

theorem Command.readsManifests_of_run? {command : Command} {run : Action × RunOptions}
    (hrun : command.run? = some run) : command.readsManifests = true := by
  cases command <;> first | rfl | simp [run?] at hrun

/-! ## What a report says -/

namespace Run

/-- The record of a step that was only planned. -/
def plannedRecord (step : Step) : ReportedStep := ⟨step.name, .planned, 0⟩

/-- The record of a step with the given reply. -/
def answeredRecord (action : Action) (step : Step) (reply : Reply) : ReportedStep :=
  ⟨step.name, countsAs action reply.output, UInt64.ofNat reply.elapsed.milliseconds⟩

/-- Nothing is spent on a step that was only planned. -/
theorem ofResult_planned (plane : ControlPlane σ) (action : Action) (step : Step) :
    ReportedStep.ofResult (planned plane action step) = plannedRecord step := by
  have hnone : UInt64.ofNat Duration.zero.milliseconds = 0 := by decide
  exact congrArg (ReportedStep.mk step.name .planned) hnone

end Run

/-- The report has one record for each manifest, in the order in which the action handles them.
Those of a dry run are planned and nothing was asked for; those of a real run say what the answers
to its requests say, one for each manifest and none of them fatal. -/
structure Truthful (plane : ControlPlane σ) (set : Manifests) (action : Action)
    (options : RunOptions) (state : σ) (conclusion : Conclusion σ) (report : Report) : Prop where
  operation_eq : report.operation = action.operation
  dryRun_eq : report.dryRun = options.dryRun
  names_eq : report.steps.map (·.name) = report.summary.executedSteps
  installed : action = .apply →
    report.summary.executedSteps = set.installOrder.map (·.name)
  uninstalled : action = .delete →
    report.summary.executedSteps = (set.installOrder.map (·.name)).reverse
  executed_perm : report.summary.executedSteps.Perm (set.steps.map (·.name))
  executed_nodup : report.summary.executedSteps.Nodup
  totalSteps_eq : report.summary.totalSteps = set.size
  planned_iff : report.dryRun = true ↔ ∀ record ∈ report.steps, record.outcome = .planned
  dry : options.dryRun = true → conclusion.requests = [] ∧
    report.steps = (set.order action).map Run.plannedRecord
  real : options.dryRun = false →
    conclusion.requests = (set.order action).map (fun step => .manifest action step.file) ∧
    ∃ replies : List Reply, plane.answers conclusion.journal state = replies.map .ok ∧
      replies.length = (set.order action).length ∧
      (∀ reply ∈ replies, ¬ Run.Fatal action (.ok reply)) ∧
      report.steps = List.zipWith (Run.answeredRecord action) (set.order action) replies

section truthful

variable {plane : ControlPlane σ} {set : Manifests} {action : Action} {options : RunOptions}
  {state : σ} {conclusion : Conclusion σ} {trace : Trace σ (List Completion)}
  {results : List Completion}

/-- A report of the results of a run that has come to its end. -/
theorem truthful_ofResults (hnodup : (set.steps.map (·.name)).Nodup) (hsteps : set.steps ≠ [])
    (hended : Run.Ended plane action options.dryRun (set.order action) state trace results)
    (hjournal : conclusion.journal = trace.journal) (executionId timestamp deployment : String) :
    Truthful plane set action options state conclusion (.ofResults executionId timestamp deployment
      action.operation options.dryRun results) := by
  have hrequests : conclusion.requests = trace.requests := by
    rw [Conclusion.requests, hjournal, Trace.requests]
  -- the names that are recorded, which all the lists of the report follow
  have hexecuted : (Report.ofResults executionId timestamp deployment action.operation
      options.dryRun results).summary.executedSteps = (set.order action).map (·.name) := by
    rw [← hended.names_eq]
    simp only [Report.ofResults, executedSteps_ofRecords, List.map_map]
    rfl
  have hperm := (set.order_perm action).map (·.name)
  rw [← hexecuted] at hperm
  have hlength : results.length = (set.order action).length := by
    simpa using congrArg List.length hended.names_eq
  have hresults : results ≠ [] := by
    rintro rfl
    exact hsteps (List.eq_nil_of_length_eq_zero
      ((set.order_perm action).length_eq.symm.trans hlength.symm))
  refine ⟨rfl, rfl, rfl, ?_, ?_, hperm, hperm.nodup_iff.mpr hnodup, ?_, ?_, fun hdry => ?_,
    fun hreal => ?_⟩
  · rintro rfl
    exact hexecuted
  · rintro rfl
    rw [← List.map_reverse]
    exact hexecuted
  · rw [Manifests.size, ← (set.order_perm action).length_eq, ← hlength]
    exact List.length_map _
  · simp only [Report.ofResults, List.forall_mem_map]
    refine ⟨fun hdry result hresult => (hended.planned_iff result hresult).mpr hdry, ?_⟩
    intro hplanned
    -- a report without steps would say nothing about the run
    obtain ⟨result, hresult⟩ := List.exists_mem_of_ne_nil results hresults
    exact (hended.planned_iff result hresult).mp (hplanned result hresult)
  · obtain ⟨hnone, rfl⟩ := hended.dry hdry
    refine ⟨hrequests.trans hnone, ?_⟩
    simp only [Report.ofResults, List.map_map]
    exact List.map_congr_left fun step _ => Run.ofResult_planned plane action step
  · obtain ⟨hasked, replies, hreplies, hanswered, hcompleting, rfl⟩ := hended.real hreal
    refine ⟨hrequests.trans hasked, replies, hjournal ▸ hreplies, hanswered, hcompleting, ?_⟩
    simp only [Report.ofResults, List.map_zipWith]
    rfl

end truthful

namespace Program

/-! ## When there is a report -/

section deploy

variable (surroundings : Surroundings) (occasion : Occasion) (plane : ControlPlane σ)
  (settings : Settings) (action : Action) (options : RunOptions) (state : σ)

theorem isSome_report?_deploy_iff :
    (deploy surroundings occasion plane settings action options state).report?.isSome = true ↔
      options.report?.isSome = true ∧
      (∀ step ∈ settings.manifests.steps, surroundings.isFile step.file = true) ∧
      Run.Completes plane action options.dryRun (settings.manifests.order action) state := by
  rcases deploy_eq surroundings occasion plane settings state action options with
    ⟨missing, hfirst, hrefused⟩ | ⟨hpresent, hcarried⟩
  · simp [hrefused, Conclusion.refused, hfirst.not_present]
  · rw [hcarried, Run.run, ← Run.ok_execute_iff (options.executionId?.getD occasion.executionId),
      runConclusion]
    split
    · next error hresult => simp [hresult]
    · next results hresult => simpa [hresult, reportOf] using fun _ => hpresent

theorem truthful_deploy (hsound : settings.Sound) {path : Path} {report : Report}
    (hreport : (deploy surroundings occasion plane settings action options state).report? =
      some (path, report)) :
    options.report? = some path.text ∧ Truthful plane settings.manifests action options state
      (deploy surroundings occasion plane settings action options state) report := by
  rcases deploy_eq surroundings occasion plane settings state action options with
    ⟨missing, -, hrefused⟩ | ⟨-, hcarried⟩
  · simp [hrefused, Conclusion.refused] at hreport
  · rw [hcarried] at hreport ⊢
    have hjournal := (journal_runConclusion occasion settings action options
      (options.executionId?.getD occasion.executionId) (Run.run plane settings.manifests action
        (options.executionId?.getD occasion.executionId) options.dryRun state)).1
    rw [runConclusion] at hreport
    split at hreport
    · simp at hreport
    · next results hresult =>
        obtain ⟨given, hgiven, hpair⟩ := Option.map_eq_some_iff.mp hreport
        obtain ⟨rfl, rfl⟩ := Prod.mk.inj hpair
        exact ⟨hgiven, truthful_ofResults hsound.names_nodup hsound.steps_ne_nil
          (Run.ended_of_ok _ hresult) hjournal _ _ _⟩

end deploy

/-! ## The whole program -/

section program

variable (surroundings : Surroundings) (occasion : Occasion)
  (plane : Kubectl.Options → ControlPlane σ) (line : CommandLine) (state : σ)

/-- A report is left only by a run that was loaded and carried out. -/
theorem run_eq_deploy_of_report? {found : Path × Report}
    (hreport : (run surroundings occasion plane line state).report? = some found) :
    ∃ action options settings, line.command.run? = some (action, options) ∧
      line.settings surroundings.lookup surroundings.read = .ok settings ∧
      run surroundings occasion plane line state =
        deploy surroundings occasion (plane settings.kubectl) settings action options state := by
  cases hloaded : line.settings surroundings.lookup surroundings.read with
  | error error => simp [run, hloaded, Conclusion.refused] at hreport
  | ok settings =>
      simp only [run, hloaded] at hreport ⊢
      cases hcommand : line.command with
      | install options => exact ⟨.apply, options, settings, rfl, rfl, rfl⟩
      | uninstall options => exact ⟨.delete, options, settings, rfl, rfl, rfl⟩
      | verify options =>
          rw [hcommand, carryOut, verify, verifyConclusion] at hreport
          split at hreport <;> simp at hreport
      | plan reverse => simp [hcommand, carryOut, plan] at hreport

theorem run_eq_deploy {action : Action} {options : RunOptions} {settings : Settings}
    (hrun : line.command.run? = some (action, options))
    (hloaded : line.settings surroundings.lookup surroundings.read = .ok settings) :
    run surroundings occasion plane line state =
      deploy surroundings occasion (plane settings.kubectl) settings action options state := by
  simp only [run, hloaded]
  cases hcommand : line.command with
  | install given | uninstall given =>
      rw [hcommand] at hrun
      obtain ⟨rfl, rfl⟩ := Prod.mk.inj (Option.some.inj hrun)
      rfl
  | verify _ | plan _ => simp [hcommand, Command.run?] at hrun

end program

/-- **A report tells what was done, and there is none of a run that was not finished.**  It is
left to be written exactly when one was asked for, the settings could be loaded, all manifests were
there and nothing has stopped the run.  It then names every manifest of the set exactly once, in
the order of installation or in the exact reverse, with what the control plane has really made of
it, and it is that of a dry run exactly when everything in it is only planned. -/
theorem reports_tell_what_was_done (surroundings : Surroundings) (occasion : Occasion)
    (plane : Kubectl.Options → ControlPlane σ) (line : CommandLine) (state : σ) :
    let conclusion := run surroundings occasion plane line state
    (conclusion.report?.isSome = true ↔ ∃ action options settings,
      line.command.run? = some (action, options) ∧ options.report?.isSome = true ∧
      Cleared surroundings line settings ∧
      Run.Completes (plane settings.kubectl) action options.dryRun
        (settings.manifests.order action) state) ∧
    ∀ path report, conclusion.report? = some (path, report) → ∃ action options settings,
      line.command.run? = some (action, options) ∧ options.report? = some path.text ∧
      Cleared surroundings line settings ∧ settings.manifests.steps ≠ [] ∧
      Truthful (plane settings.kubectl) settings.manifests action options state conclusion
        report := by
  intro conclusion
  constructor
  · constructor
    · intro hreport
      obtain ⟨found, hfound⟩ := Option.isSome_iff_exists.mp hreport
      obtain ⟨action, options, settings, hrun, hloaded, hconclusion⟩ :=
        run_eq_deploy_of_report? surroundings occasion plane line state hfound
      rw [show conclusion = _ from hconclusion, isSome_report?_deploy_iff] at hreport
      obtain ⟨hasked, hpresent, hcompletes⟩ := hreport
      exact ⟨action, options, settings, hrun, hasked, ⟨hloaded, fun _ => hpresent⟩, hcompletes⟩
    · rintro ⟨action, options, settings, hrun, hasked, hcleared, hcompletes⟩
      have hconclusion : conclusion = _ :=
        run_eq_deploy surroundings occasion plane line state hrun hcleared.loaded
      rw [hconclusion, isSome_report?_deploy_iff]
      exact ⟨hasked, hcleared.present (Command.readsManifests_of_run? hrun), hcompletes⟩
  · intro path report hreport
    obtain ⟨action, options, settings, hrun, hloaded, hconclusion⟩ :=
      run_eq_deploy_of_report? surroundings occasion plane line state hreport
    have hsound := CommandLine.sound_of_settings hloaded
    rw [show conclusion = _ from hconclusion] at hreport ⊢
    have hpresent := ((isSome_report?_deploy_iff surroundings occasion (plane settings.kubectl)
      settings action options state).mp (Option.isSome_of_eq_some hreport)).2.1
    obtain ⟨hgiven, htruthful⟩ := truthful_deploy surroundings occasion (plane settings.kubectl)
      settings action options state hsound hreport
    exact ⟨action, options, settings, hrun, hgiven, ⟨hloaded, fun _ => hpresent⟩,
      hsound.steps_ne_nil, htruthful⟩

/-- An installation that is refused its first manifest leaves no report, but a dry one does. -/
example :
    let surroundings : Surroundings := ⟨fun _ => none, fun _ => .error .notFound, fun _ => true⟩
    let refusing : Cluster :=
      { queues := [("apply ./k8s/configmap.yaml", [.output (.failed 1 "refused")])] }
    [false, true].map (fun dryRun =>
      (run surroundings ⟨"r", "now"⟩ (fun _ => Cluster.controlPlane)
        { command := .install { dryRun, report? := some "report.json" } } refusing).report?.map
          fun (path, report) => (path.text, report.summary.totalSteps)) =
      [none, some ("report.json", 7)] := by
  decide +kernel

end Program
end Rollout
