import Rollout.Proofs.Config.Precedence
import Rollout.Proofs.Program.Preflight

/-!
# The last answer

When the program ends with an error that blames the control plane, the last answer of the control
plane says that error, and whenever the last answer says an error the program ends with it.

## Strategy

An exchange is a request with its answer.  Work ends at the first answer that is `Final`, and the
error is then the one that the answer says (`lastError`).  `Accounted` says both directions of this
for a list of exchanges, and leaves open the errors of other categories.  It holds of a run of steps
(`Run.accounted_execute`), of a verification (`Verify.accounted_verify`) and of what does not ask at
all, hence of every command (`Program.accounted_carryOut`).
-/

namespace Rollout

/-! ## Final answers -/

/-- The answer ends the work: no command could be run, or it failed and, unless it was to apply
something, did not only say that there is no such object. -/
def Final (operation : Operation) : Except Failure Reply → Prop
  | .error _ => True
  | .ok reply =>
      reply.output.success = false ∧ (operation ≠ .apply → reply.output.meansAbsence = false)

/-- The error that a final answer says, if it was given for the named step. -/
def lastError (step : String) (operation : Operation) : Except Failure Reply → Failure
  | .error error => error
  | .ok reply => .commandFailed step operation reply.output.exitCode? reply.output.stderr

theorem Run.fatal_iff_final (action : Action) (answer : Except Failure Reply) :
    Run.Fatal action answer ↔ Final action.operation answer := by
  cases answer with
  | error error => exact Iff.rfl
  | ok reply => cases action <;> simp [Run.Fatal, Final, Action.operation]

theorem Run.failure_eq_lastError (action : Action) (step : Step)
    (answer : Except Failure Reply) :
    Run.failure action step answer = lastError step.name action.operation answer := by
  cases answer <;> rfl

theorem Verify.Shows.not_final {target : Target} {answer : Except Failure Reply}
    {readiness : Readiness} (hshows : Verify.Shows target answer readiness) :
    ¬ Final .get answer := by
  cases hshows with
  | shown hsuccess hobject => simp [Final, hsuccess]
  | absent habsence => simp [Final, habsence]

/-! ## Exchanges -/

variable {σ : Type}

/-- The requests of a journal, each with its answer. -/
def ControlPlane.exchanges (plane : ControlPlane σ) (journal : List Entry) (state : σ) :
    List (Request × Except Failure Reply) :=
  (journal.filterMap Entry.request?).zip (plane.answers journal state)

/-- The error, if there is one, is what the last exchange says, as far as it says anything. -/
structure Accounted (exchanges : List (Request × Except Failure Reply)) (error? : Option Failure) :
    Prop where
  error_of_final : ∀ request answer, exchanges.getLast? = some (request, answer) →
    Final request.operation answer → ∃ step, error? = some (lastError step request.operation answer)
  final_of_error : ∀ error, error? = some error → error.category = .controlPlane →
    ∃ request answer step, exchanges.getLast? = some (request, answer) ∧
      Final request.operation answer ∧ error = lastError step request.operation answer

/-- None of the answers is final, and the error does not blame the control plane. -/
theorem accounted_of_not_final {exchanges : List (Request × Except Failure Reply)}
    {error? : Option Failure}
    (hgoing : ∀ exchange ∈ exchanges, ¬ Final exchange.1.operation exchange.2)
    (herror : ∀ error, error? = some error → error.category ≠ .controlPlane) :
    Accounted exchanges error? := by
  refine ⟨fun request answer hlast hfinal => ?_, fun error hsome hcategory => ?_⟩
  · exact absurd hfinal (hgoing _ (List.mem_of_getLast? hlast))
  · exact absurd hcategory (herror error hsome)

/-- An error that does not blame the control plane may come after all answers have been given. -/
theorem Accounted.of_none {exchanges : List (Request × Except Failure Reply)}
    {error? : Option Failure} (haccounted : Accounted exchanges none)
    (herror : ∀ error, error? = some error → error.category ≠ .controlPlane) :
    Accounted exchanges error? := by
  refine ⟨fun request answer hlast hfinal => ?_, fun error hsome hcategory => ?_⟩
  · obtain ⟨step, hnone⟩ := haccounted.error_of_final request answer hlast hfinal
    exact absurd hnone (by simp)
  · exact absurd hcategory (herror error hsome)

theorem accounted_of_final {exchanges : List (Request × Except Failure Reply)}
    {error? : Option Failure} {request : Request} {answer : Except Failure Reply} (step : String)
    (hlast : exchanges.getLast? = some (request, answer)) (hfinal : Final request.operation answer)
    (herror : error? = some (lastError step request.operation answer)) :
    Accounted exchanges error? := by
  refine ⟨fun other given hother _ => ?_, fun error hsome _ => ?_⟩
  · obtain ⟨rfl, rfl⟩ := Prod.mk.inj (Option.some.inj (hlast.symm.trans hother))
    exact ⟨step, herror⟩
  · exact ⟨request, answer, step, hlast, hfinal, Option.some.inj (hsome.symm.trans herror)⟩

namespace ControlPlane

variable (plane : ControlPlane σ)

theorem exchanges_filter_isContact (journal : List Entry) (state : σ) :
    plane.exchanges (journal.filter Entry.isContact) state = plane.exchanges journal state := by
  have hrequests : (journal.filter Entry.isContact).filterMap Entry.request? =
      journal.filterMap Entry.request? := by
    induction journal with
    | nil => rfl
    | cons entry rest ih => cases entry <;> simp [Entry.request?, List.filterMap_cons, ih]
  rw [exchanges, exchanges, hrequests, plane.answers_filter_isContact]

/-- One more request leads to one more exchange. -/
theorem exchanges_concat (before : List Entry) (request : Request) (state : σ) :
    plane.exchanges (before ++ [.asked request]) state =
      plane.exchanges before state ++
        [(request, (plane.answer request (plane.after before state)).1)] := by
  have hlength := plane.length_answers before state
  rw [exchanges, plane.answers_append, List.filterMap_append, List.zip_append hlength.symm]
  rfl

/-- Of a request in an exchange and of its answer, one knows what one knows of all. -/
theorem not_final_of_mem_exchanges {journal : List Entry} {state : σ} (operation : Operation)
    (hrequests : ∀ request ∈ journal.filterMap Entry.request?, request.operation = operation)
    (hanswers : ∀ answer ∈ plane.answers journal state, ¬ Final operation answer) :
    ∀ exchange ∈ plane.exchanges journal state, ¬ Final exchange.1.operation exchange.2 := by
  rintro ⟨request, answer⟩ hexchange
  obtain ⟨hrequest, hanswer⟩ := List.of_mem_zip hexchange
  rw [hrequests request hrequest]
  exact hanswers answer hanswer

end ControlPlane

/-! ## The pieces of work -/

/-- The error in which a trace has ended. -/
def Trace.error? {α : Type} (trace : Trace σ α) : Option Failure :=
  match trace.result with
  | .error error => some error
  | .ok _ => none

theorem Run.accounted_execute (plane : ControlPlane σ) (action : Action) (executionId : String)
    (dryRun : Bool) (steps : List Step) (state : σ) :
    let trace := execute plane action executionId dryRun steps state
    Accounted (plane.exchanges trace.journal state) trace.error? := by
  intro trace
  rw [← plane.exchanges_filter_isContact, Trace.error?]
  cases dryRun with
  | true =>
      have hresult : trace.result = .ok (steps.map (planned plane action)) :=
        (execute_dry executionId).1
      have hcontacts : trace.journal.filter Entry.isContact = [] := (execute_dry executionId).2
      rw [hcontacts, hresult]
      exact accounted_of_not_final (by simp [ControlPlane.exchanges]) (by simp)
  | false =>
      rcases unhindered_or_stopsAt plane action steps state with
        hunhindered | ⟨done, step, rest, rfl, hstops⟩
      · -- no answer is fatal, so there is no error to account for
        obtain ⟨replies, hreplies, -⟩ := exists_replies_of_unhindered hunhindered
        obtain ⟨hresult, hcontacts⟩ := execute_of_unhindered executionId hunhindered hreplies
        unfold Trace.contacts at hcontacts
        rw [hcontacts, hresult]
        have hgoing := plane.not_final_of_mem_exchanges action.operation
          (by simp [filterMap_request?_calls, Request.operation])
          fun answer hanswer hfinal =>
            hunhindered answer hanswer ((fatal_iff_final action answer).mpr hfinal)
        exact accounted_of_not_final hgoing (by simp)
      · -- the run stops at the last exchange, and its error is made from that answer
        obtain ⟨hresult, hcontacts⟩ := execute_of_stopsAt executionId rest hstops
        unfold Trace.contacts at hcontacts
        rw [hcontacts, hresult]
        have hlast : (plane.exchanges (calls action (done ++ [step])) state).getLast? =
            some (.manifest action step.file, answerFor plane action done step state) := by
          rw [calls_append, calls_cons, calls_nil, plane.exchanges_concat, List.getLast?_concat]
          rfl
        have hfinal := (fatal_iff_final action _).mp hstops.fatal
        rw [failure_eq_lastError]
        exact accounted_of_final step.name hlast hfinal rfl

theorem Verify.not_final_of_answered {statuses : List Status}
    {answers : List (Except Failure Reply)} (hanswered : Answered statuses answers) :
    ∀ answer ∈ answers, ¬ Final .get answer := by
  induction hanswered with
  | nil => simp
  | cons hshows _ ih => exact List.forall_mem_cons.mpr ⟨hshows.not_final, ih⟩

theorem Verify.accounted_verify (plane : ControlPlane σ) (polling : Polling) (set : Manifests)
    (state : σ) :
    let trace := verify plane polling set state
    Accounted (plane.exchanges trace.journal state) trace.error? := by
  intro trace
  have hqueries : ∀ request ∈ trace.requests, request.operation = .get := fun request hrequest =>
    (asksOnly_verify plane polling set).permitted_of_mem hrequest
  rw [Trace.error?]
  rcases verified_verify plane polling set state with
    ⟨rows, report, hresult, hcompleted⟩ | ⟨rows, seen, target, error, hresult, haborted⟩
  · rw [hresult]
    exact accounted_of_not_final (plane.not_final_of_mem_exchanges .get hqueries
      (not_final_of_answered hcompleted.answered)) (by simp)
  · obtain ⟨earlier, last, hanswers, hanswered, hends⟩ := haborted.answered
    have hlast : (plane.exchanges trace.journal state).getLast? = some (target.request, last) := by
      have hjournal := haborted.journal_eq
      rw [hjournal, plane.answers_append] at hanswers
      rw [show trace.journal = _ from hjournal, plane.exchanges_concat, List.getLast?_concat,
        ← List.singleton_inj.mp (List.append_inj' hanswers rfl).2]
    rw [hresult]
    cases hends with
    | unanswered error => exact accounted_of_final target.step hlast trivial rfl
    | refused hfailed hpresent =>
        exact accounted_of_final target.step hlast ⟨hfailed, fun _ => hpresent⟩ rfl
    | unreadable hsuccess hfault =>
        refine accounted_of_not_final (plane.not_final_of_mem_exchanges .get hqueries ?_) ?_
        · rw [hanswers]
          refine List.forall_mem_append.mpr ⟨not_final_of_answered hanswered, ?_⟩
          simp [Final, hsuccess]
        · rintro _ ⟨⟩
          simp [Failure.category]

/-! ## Errors before the work begins -/

namespace Requirement

/-- Each of the requirements, if it is broken, is reported as a matter of configuration. -/
def BlameConfig (requirements : List Requirement) : Prop :=
  ∀ requirement ∈ requirements, requirement.error.category = .configuration

@[simp]
theorem blameConfig_nil : BlameConfig [] := by
  simp [BlameConfig]

@[simp]
theorem blameConfig_cons (requirement : Requirement) (rest : List Requirement) :
    BlameConfig (requirement :: rest) ↔
      requirement.error.category = .configuration ∧ BlameConfig rest :=
  List.forall_mem_cons

@[simp]
theorem blameConfig_append (first second : List Requirement) :
    BlameConfig (first ++ second) ↔ BlameConfig first ∧ BlameConfig second :=
  List.forall_mem_append

@[simp]
theorem blameConfig_flatMap {α : Type} (values : List α) (requirements : α → List Requirement) :
    BlameConfig (values.flatMap requirements) ↔
      ∀ value ∈ values, BlameConfig (requirements value) := by
  simp only [BlameConfig, List.mem_flatMap]
  grind

@[simp]
theorem blameConfig_map {α : Type} (values : List α) (requirement : α → Requirement) :
    BlameConfig (values.map requirement) ↔
      ∀ value ∈ values, (requirement value).error.category = .configuration :=
  List.forall_mem_map

end Requirement

open Requirement

theorem blameConfig_distinctRequirements (field : String) (values : List String) :
    BlameConfig (distinctRequirements field values) := by
  intro requirement hrequirement
  obtain ⟨position, hposition, rfl⟩ := List.mem_mapIdx.mp hrequirement
  rfl

theorem Step.blameConfig_requirements (step : Step) : BlameConfig step.requirements := by
  simp [requirements, targetRequirements, wordRequirements, pathRequirements, nameRequirements,
    extensionRequirements, Failure.category]

theorem Config.blameConfig_requirements (config : Config) : BlameConfig config.requirements := by
  simp [requirements, KubectlSection.requirements, VerifySection.requirements, wordRequirements,
    pathRequirements, nameRequirements, rangeRequirements, blameConfig_distinctRequirements,
    Step.blameConfig_requirements, Failure.category]

theorem Config.exists_eq_unreadable {lookup : String → Option String} {text : String}
    {error : Failure} (htext : ofText lookup text = .error error) :
    ∃ detail, error = unreadable detail := by
  unfold ofText ofDocument at htext
  split at htext
  · exact ⟨_, (Except.error.inj htext).symm⟩
  · split at htext
    · exact ⟨_, (Except.error.inj htext).symm⟩
    · exact absurd htext (by simp)

theorem CommandLine.category_of_baseConfig_eq_error {line : CommandLine}
    {lookup : String → Option String} {read : Path → Except IoFault String} {error : Failure}
    (hfile : line.baseConfig lookup read = .error error) : error.category ≠ .controlPlane := by
  unfold baseConfig at hfile
  split at hfile
  · rename_i file hconfig
    unfold Config.ofFile at hfile
    split at hfile
    · simp [← Except.error.inj hfile, Failure.category]
    · obtain ⟨detail, rfl⟩ := Config.exists_eq_unreadable hfile
      simp [Config.unreadable, Failure.category]
  · exact absurd hfile (by simp)

theorem CommandLine.category_of_settings_eq_error {line : CommandLine}
    {lookup : String → Option String} {read : Path → Except IoFault String} {error : Failure}
    (hsettings : line.settings lookup read = .error error) : error.category ≠ .controlPlane := by
  cases hfile : line.baseConfig lookup read with
  | ok file =>
      rw [settings_of_baseConfig hfile, Config.settings_eq_error_iff] at hsettings
      obtain ⟨met, broken, rest, hrequirements, -, -, rfl⟩ := hsettings
      have hcategory := (line.override file).blameConfig_requirements broken
        (by simp [hrequirements])
      simp [hcategory]
  | error fault =>
      rw [settings_of_baseConfig_error hfile] at hsettings
      obtain rfl := Except.error.inj hsettings
      exact category_of_baseConfig_eq_error hfile

/-! ## The whole program -/

namespace Program

theorem error?_runConclusion (occasion : Occasion) (settings : Settings) (action : Action)
    (options : RunOptions) (executionId : String) (trace : Trace σ (List Completion)) :
    (runConclusion occasion settings action options executionId trace).error? = trace.error? := by
  unfold runConclusion Trace.error?
  cases trace.result <;> rfl

theorem error?_verifyConclusion_of_error (settings : Settings) {trace : Trace σ Verification}
    {error : Failure} (hresult : trace.result = .error error) :
    (verifyConclusion settings trace).error? = some error := by
  simp [verifyConclusion, hresult]

/-- Only when it is asked for, objects that are not ready are an error. -/
theorem error?_verifyConclusion_of_ok (settings : Settings) {trace : Trace σ Verification}
    {report : Verification} (hresult : trace.result = .ok report) :
    (verifyConclusion settings trace).error? =
      if settings.verify.strict = true ∧ report.allReady = false then
        some (.notReady (report.pending.map (·.target.label)))
      else none := by
  cases hstrict : settings.verify.strict <;> cases hready : report.allReady <;>
    simp [verifyConclusion, hresult, hstrict, Verification.strict, hready]

theorem status_verifyConclusion_of_ok (settings : Settings) {trace : Trace σ Verification}
    {report : Verification} (hresult : trace.result = .ok report) :
    (verifyConclusion settings trace).status =
      if settings.verify.strict = true ∧ report.allReady = false then 2 else 0 := by
  rw [Conclusion.status, Conclusion.exitCode, error?_verifyConclusion_of_ok settings hresult]
  by_cases hunready : settings.verify.strict = true ∧ report.allReady = false
  · rw [if_pos hunready, if_pos hunready]
    rfl
  · rw [if_neg hunready, if_neg hunready]
    rfl

theorem accounted_refused (plane : ControlPlane σ) {error : Failure}
    (hcategory : error.category ≠ .controlPlane) (state : σ) :
    Accounted (plane.exchanges (Conclusion.refused error state).journal state) (some error) := by
  refine accounted_of_not_final (by simp [ControlPlane.exchanges]) ?_
  rintro _ ⟨⟩
  exact hcategory

section subcommands

variable (surroundings : Surroundings) (occasion : Occasion) (plane : ControlPlane σ)
  (settings : Settings) (state : σ)

theorem accounted_deploy (action : Action) (options : RunOptions) :
    let conclusion := deploy surroundings occasion plane settings action options state
    Accounted (plane.exchanges conclusion.journal state) conclusion.error? := by
  intro conclusion
  rcases deploy_eq surroundings occasion plane settings state action options with
    ⟨missing, -, hrefused⟩ | ⟨-, hcarried⟩
  · simp only [conclusion, hrefused]
    exact accounted_refused plane (by simp [Failure.category]) state
  · simp only [conclusion, hcarried, error?_runConclusion, (journal_runConclusion _ _ _ _ _ _).1]
    exact Run.accounted_execute plane action _ options.dryRun _ state

theorem accounted_verify :
    let conclusion := verify plane settings state
    Accounted (plane.exchanges conclusion.journal state) conclusion.error? := by
  have haccounted :=
    Verify.accounted_verify plane settings.verify.polling settings.manifests state
  simp only [verify, (journal_verifyConclusion _ _).1]
  cases hresult : (Verify.verify plane settings.verify.polling settings.manifests state).result with
  | error error =>
      rw [error?_verifyConclusion_of_error settings hresult]
      simpa only [Trace.error?, hresult] using haccounted
  | ok report =>
      -- with a report, the only error is that something is not ready
      rw [error?_verifyConclusion_of_ok settings hresult]
      simp only [Trace.error?, hresult] at haccounted
      refine haccounted.of_none fun error herror => ?_
      split at herror
      · simp [← Option.some.inj herror, Failure.category]
      · exact absurd herror (by simp)

theorem accounted_carryOut (command : Command) :
    let conclusion := carryOut surroundings occasion plane settings command state
    Accounted (plane.exchanges conclusion.journal state) conclusion.error? := by
  cases command with
  | install options =>
      exact accounted_deploy surroundings occasion plane settings state .apply options
  | uninstall options =>
      exact accounted_deploy surroundings occasion plane settings state .delete options
  | verify options => exact accounted_verify plane settings state
  | plan reverse =>
      exact accounted_of_not_final (by simp [ControlPlane.exchanges, carryOut, plan])
        (by simp [carryOut, plan])

end subcommands

end Program

end Rollout
