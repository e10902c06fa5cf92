import Rollout.Proofs.Program.LastAnswer

/-!
# What a strict verification demands

When a verification ends with a report, when the report passes as a strict one, and what this means
for the command, for an arbitrary control plane and any number of passes.

## Strategy

An answer is `Inconclusive` when it says nothing about the object that was asked for.  A
verification goes on after any other answer, so it fails exactly when one of its answers is
inconclusive (`fails_iff`).  A report holds the last answers in the order of the targets, and its
three readings of readiness are brought to that one (`judged_of_statuses`).  The command then only
adds the switch.
-/

namespace Rollout

variable {σ : Type}

/-! ## Answers that say nothing -/

/-- The answer to a query does not tell how ready the object is: the query has failed otherwise than
for want of the object, or what it shows is no JSON. -/
def Inconclusive (answer : Except Failure Reply) : Prop :=
  Final .get answer ∨ ∃ reply fault, answer = .ok reply ∧ reply.output.success = true ∧
    Json.parse reply.output.stdout = .error fault

namespace Verify

theorem Shows.not_inconclusive {target : Target} {answer : Except Failure Reply}
    {readiness : Readiness} (hshows : Shows target answer readiness) : ¬ Inconclusive answer := by
  rintro (hfinal | ⟨reply, fault, rfl, hsuccess, hfault⟩)
  · exact hshows.not_final hfinal
  · cases hshows with
    | shown _ hobject => simp [hobject] at hfault
    | absent habsence => simp [hsuccess] at habsence

theorem Ends.inconclusive {target : Target} {answer : Except Failure Reply} {error : Failure}
    (hends : Ends target answer error) : Inconclusive answer := by
  cases hends with
  | unanswered => exact .inl trivial
  | unreadable hsuccess hfault => exact .inr ⟨_, _, rfl, hsuccess, hfault⟩
  | refused hfailed hpresent => exact .inl ⟨hfailed, fun _ => hpresent⟩

/-- An object that does not exist is an answer like any other. -/
theorem not_inconclusive_of_absence {reply : Reply}
    (habsence : reply.output.meansAbsence = true) : ¬ Inconclusive (.ok reply) :=
  (@Shows.absent default reply habsence).not_inconclusive

theorem not_inconclusive_of_answered {statuses : List Status}
    {answers : List (Except Failure Reply)} (hanswered : Answered statuses answers) :
    ∀ answer ∈ answers, ¬ Inconclusive answer := by
  induction hanswered with
  | nil => simp
  | cons hshows _ ih => exact List.forall_mem_cons.mpr ⟨hshows.not_inconclusive, ih⟩

/-- A verification fails exactly when an answer says nothing. -/
theorem fails_iff (plane : ControlPlane σ) (polling : Polling) (set : Manifests) (state : σ) :
    let trace := verify plane polling set state
    (∃ error, trace.result = .error error) ↔
      ∃ answer ∈ plane.answers trace.journal state, Inconclusive answer := by
  intro trace
  rcases verified_verify plane polling set state with
    ⟨rows, report, hresult, hcompleted⟩ | ⟨rows, seen, target, error, hresult, haborted⟩
  · constructor
    · rintro ⟨error, herror⟩
      exact absurd (hresult.symm.trans herror) (by simp)
    · rintro ⟨answer, hanswer, hinconclusive⟩
      exact absurd hinconclusive
        (not_inconclusive_of_answered hcompleted.answered answer hanswer)
  · obtain ⟨earlier, last, hanswers, -, hends⟩ := haborted.answered
    refine ⟨fun _ => ⟨last, ?_, hends.inconclusive⟩, fun _ => ⟨error, hresult⟩⟩
    rw [hanswers]
    exact List.mem_append_right _ (List.mem_singleton_self last)

theorem reports_iff (plane : ControlPlane σ) (polling : Polling) (set : Manifests) (state : σ) :
    let trace := verify plane polling set state
    (∃ report, trace.result = .ok report) ↔
      ∀ answer ∈ plane.answers trace.journal state, ¬ Inconclusive answer := by
  intro trace
  have hfails : (∃ error, trace.result = .error error) ↔ _ := fails_iff plane polling set state
  cases hresult : trace.result with
  | error error =>
      obtain ⟨answer, hanswer, hinconclusive⟩ := hfails.mp ⟨error, hresult⟩
      simpa using ⟨answer, hanswer, hinconclusive⟩
  | ok report =>
      refine ⟨fun _ answer hanswer hinconclusive => ?_, fun _ => ⟨report, rfl⟩⟩
      obtain ⟨error, herror⟩ := hfails.mpr ⟨answer, hanswer, hinconclusive⟩
      exact absurd (hresult.symm.trans herror) (by simp)

/-! ## Reports -/

/-- The objects that the last answers do not show ready, as they are named in messages. -/
def unreadyLabels (targets : List Target) (latest : Row) : List String :=
  (targets.zip latest).filterMap fun entry =>
    if entry.2 = some .ready then none else some (entry.1.kind ++ "/" ++ entry.1.resource)

/-- The readings of a report agree on whether everything is ready, and as a strict one it names what
is not: the objects of its statuses, in their order and as often as they occur. -/
structure Judged (targets : List Target) (latest : Row) (report : Verification) : Prop where
  statuses_iff : (∀ status ∈ report.statuses, status.readiness = .ready) ↔ AllReady latest
  allReady_iff : report.allReady = true ↔ AllReady latest
  pending_iff : report.pending = [] ↔ AllReady latest
  strict_iff : report.strict = .ok report ↔ AllReady latest
  strict_of_unready : ¬ AllReady latest →
    report.strict = .error (.notReady (unreadyLabels targets latest))
  labels_eq : unreadyLabels targets latest =
    (report.statuses.filter (·.readiness ≠ .ready)).map fun status =>
      status.target.kind ++ "/" ++ status.target.resource

theorem unreadyLabels_of_statuses (statuses : List Status) :
    unreadyLabels (statuses.map Status.target) (statuses.map fun status => some status.readiness) =
      (statuses.filter (·.readiness ≠ .ready)).map fun status =>
        status.target.kind ++ "/" ++ status.target.resource := by
  induction statuses with
  | nil => rfl
  | cons status rest ih =>
      by_cases hready : status.readiness = .ready
      · simpa [unreadyLabels, hready] using ih
      · simpa [unreadyLabels, hready] using ih

theorem map_label_pending (report : Verification) :
    report.pending.map (·.target.label) =
      (report.statuses.filter (·.readiness ≠ .ready)).map fun status =>
        status.target.kind ++ "/" ++ status.target.resource := by
  have hunready : ∀ status : Status, (!status.isReady) = decide (status.readiness ≠ .ready) := by
    intro status
    cases hreadiness : status.readiness <;> simp [Status.isReady, hreadiness]
  simp only [Verification.pending, hunready]
  rfl

/-- A report is judged by the last answers that it holds. -/
theorem judged_of_statuses {targets : List Target} {latest : Row} {report : Verification}
    (htargets : report.statuses.map Status.target = targets)
    (hlatest : (report.statuses.map fun status => some status.readiness) = latest) :
    Judged targets latest report := by
  have hlabels : unreadyLabels targets latest = _ :=
    htargets ▸ hlatest ▸ unreadyLabels_of_statuses report.statuses
  have hready : report.allReady = true ↔ AllReady latest :=
    hlatest ▸ allReady_iff report.statuses report.passes
  refine ⟨?_, hready, ?_, ?_, ?_, hlabels⟩
  · rw [← hready]
    simp [Verification.allReady, Status.isReady, Readiness.isReady_iff]
  · rw [← hready]
    simp [Verification.pending, Verification.allReady, List.filter_eq_nil_iff]
  · rw [← hready]
    refine ⟨fun hstrict => ?_, Verification.strict_of_allReady⟩
    by_contra hunready
    simp [Verification.strict, hunready] at hstrict
  · intro hunready
    rw [← hready] at hunready
    rw [Verification.strict, if_neg hunready, hlabels, map_label_pending]

/-- Every report is judged by the last answers of the passes that have led to it. -/
theorem exists_completed_judged {plane : ControlPlane σ} {polling : Polling} {set : Manifests}
    {state : σ} {report : Verification}
    (hresult : (verify plane polling set state).result = .ok report) :
    ∃ rows, Completed plane polling.interval (max polling.attempts 1) set.targets rows report
        (verify plane polling set state).journal state ∧
      Judged set.targets (latest set.targets rows) report := by
  rcases verified_verify plane polling set state with
    ⟨rows, found, hfound, hcompleted⟩ | ⟨rows, seen, target, error, herror, -⟩
  · obtain rfl : found = report := Except.ok.inj (hfound.symm.trans hresult)
    exact ⟨rows, hcompleted, judged_of_statuses hcompleted.targets_eq hcompleted.latest_eq⟩
  · exact absurd (herror.symm.trans hresult) (by simp)

end Verify

/-! ## The switch -/

/-- A verification is strict when the command line or the file says so. -/
theorem CommandLine.strict_settings_iff {line : CommandLine} {options : VerifyOptions}
    {lookup : String → Option String} {read : Path → Except IoFault String} {file : Config}
    {settings : Settings} (hcommand : line.command = .verify options)
    (hfile : line.baseConfig lookup read = .ok file)
    (hloaded : line.settings lookup read = .ok settings) :
    settings.verify.strict = true ↔
      options.strict = true ∨ file.verifySettings.strict = true := by
  rw [settings_of_baseConfig hfile, Config.settings_eq_ok_iff] at hloaded
  obtain ⟨-, rfl⟩ := hloaded
  have hfrom : file.verifySettings.strict = (file.contents.strict?.getD false) :=
    (resolves_described file).strict_eq
  rw [(resolves_described (line.override file)).strict_eq, contents_override, hfrom, before,
    hcommand]
  cases hstrict : options.strict <;> simp [Command.strict?, hstrict]

namespace Program

/-! ## The command -/

/-- How the verification command ends.  An answer that says nothing is always an error.  Apart from
that, a verification that is not strict succeeds whatever its report says, and a strict one exactly
when the last answers show everything ready. -/
structure Decided (plane : ControlPlane σ) (settings : Settings) (state : σ)
    (conclusion : Conclusion σ) : Prop where
  error_of_inconclusive :
    (∃ answer ∈ plane.answers conclusion.journal state, Inconclusive answer) →
      conclusion.error? ≠ none
  lenient_iff : settings.verify.strict = false → (conclusion.error? = none ↔
    ∀ answer ∈ plane.answers conclusion.journal state, ¬ Inconclusive answer)
  lenient_of_report : settings.verify.strict = false → ∀ report,
    (Verify.verify plane settings.verify.polling settings.manifests state).result = .ok report →
      conclusion.error? = none
  strict_iff : settings.verify.strict = true → (conclusion.error? = none ↔
    ∃ rows report,
      (Verify.verify plane settings.verify.polling settings.manifests state).result =
        .ok report ∧
      Verify.Completed plane settings.verify.polling.interval
        (max settings.verify.polling.attempts 1) settings.manifests.targets rows report
        conclusion.journal state ∧
      Verify.AllReady (Verify.latest settings.manifests.targets rows))
  error_of_strict : settings.verify.strict = true → ∀ report error,
    (Verify.verify plane settings.verify.polling settings.manifests state).result = .ok report →
      report.strict = .error error → conclusion.error? = some error

section verify

variable (plane : ControlPlane σ) (settings : Settings) (state : σ)

/-- The command succeeds with a report in which everything is ready, if that is asked for. -/
theorem error?_verify_eq_none_iff :
    (verify plane settings state).error? = none ↔ ∃ report,
      (Verify.verify plane settings.verify.polling settings.manifests state).result =
        .ok report ∧ (settings.verify.strict = true → report.allReady = true) := by
  cases hresult :
      (Verify.verify plane settings.verify.polling settings.manifests state).result with
  | error error => simp [verify, error?_verifyConclusion_of_error settings hresult]
  | ok report =>
      rw [verify, error?_verifyConclusion_of_ok settings hresult]
      cases hready : report.allReady <;> simp [hready]

theorem decided_verify : Decided plane settings state (verify plane settings state) := by
  have hsucceeds := error?_verify_eq_none_iff plane settings state
  have hjournal : (verify plane settings state).journal =
      (Verify.verify plane settings.verify.polling settings.manifests state).journal :=
    (journal_verifyConclusion settings _).1
  -- there is a report exactly when every answer says something
  have hreport : (∃ report,
      (Verify.verify plane settings.verify.polling settings.manifests state).result =
        .ok report) ↔
      ∀ answer ∈ plane.answers (verify plane settings state).journal state,
        ¬ Inconclusive answer := by
    rw [hjournal]
    exact Verify.reports_iff plane settings.verify.polling settings.manifests state
  refine ⟨?_, ?_, ?_, ?_, ?_⟩
  · rintro ⟨answer, hanswer, hinconclusive⟩ hnone
    obtain ⟨report, hresult, -⟩ := hsucceeds.mp hnone
    exact hreport.mp ⟨report, hresult⟩ answer hanswer hinconclusive
  · intro hlenient
    simpa [hlenient, hreport] using hsucceeds
  · intro hlenient report hresult
    exact hsucceeds.mpr ⟨report, hresult, by simp [hlenient]⟩
  · intro hstrict
    rw [hsucceeds, hjournal]
    constructor
    · rintro ⟨report, hresult, hready⟩
      obtain ⟨rows, hcompleted, hjudged⟩ := Verify.exists_completed_judged hresult
      exact ⟨rows, report, hresult, hcompleted, hjudged.allReady_iff.mp (hready hstrict)⟩
    · rintro ⟨rows, report, hresult, hcompleted, hready⟩
      have hjudged := Verify.judged_of_statuses hcompleted.targets_eq hcompleted.latest_eq
      exact ⟨report, hresult, fun _ => hjudged.allReady_iff.mpr hready⟩
  · intro hstrict report error hresult herror
    simp [verify, verifyConclusion, hresult, hstrict, herror]

end verify

/-- Two steps that declare one missing object are both named, and only by a strict verification. -/
example :
    let step : Step :=
      { name := "config", file := ⟨"a.yaml"⟩, stage := .config, kind? := "ConfigMap",
        resource? := "c" }
    let settings : Settings :=
      { (default : Settings) with manifests := ⟨[step, { step with name := "copy" }]⟩ }
    [false, true].map (fun strict =>
      (verify Cluster.controlPlane { settings with verify := { strict } } {}).error?) =
        [none, some (.notReady ["ConfigMap/c", "ConfigMap/c"])] := by
  decide +kernel

end Program
end Rollout
