import Rollout.ControlPlane.Cluster
import Rollout.Proofs.ControlPlane.History
import Rollout.Run.Execution

/-!
# Runs stop at the first fatal answer

What a run that is not dry asks, what it returns and how it leaves the control plane, for an
arbitrary control plane whose answers may depend on everything that came before.

## Strategy

`Fatal` says which answers end a run.  A list of steps is `Unhindered` when none of the answers that
the control plane gives for it, one after the other, is fatal; otherwise the list splits at the
first step whose answer is (`StopsAt`).  `result_perform_of_completing` and
`result_perform_of_fatal` say what one step does in the two cases, and an induction on the steps
carries them over to a run.
-/

namespace Rollout.Run

variable {σ : Type}

/-! ## What an answer means -/

/-- Whether an answer ends the run: no command could be run, or it failed and did not only say that
there was nothing to delete. -/
def Fatal (action : Action) : Except Failure Reply → Prop
  | .error _ => True
  | .ok reply =>
      reply.output.success = false ∧ (action = .delete → reply.output.meansAbsence = false)

instance (action : Action) : DecidablePred (Fatal action)
  | .error _ => isTrue trivial
  | .ok reply =>
      inferInstanceAs (Decidable (reply.output.success = false ∧
        (action = .delete → reply.output.meansAbsence = false)))

/-- How a step counts whose answer is not fatal. -/
def countsAs (action : Action) (output : Output) : Outcome :=
  match action with
  | .apply => .applied
  | .delete =>
      if output.meansAbsence ∨ (output.success ∧ Text.isBlankText output.stdout) then .alreadyAbsent
      else .deleted

/-- The result of a step with the given reply, which is not fatal. -/
def completion (action : Action) (step : Step) (reply : Reply) : Completion :=
  ⟨step.name, action.operation, countsAs action reply.output, reply.elapsed, reply.output.stdout⟩

/-- The error with which a fatal answer for a step ends the run. -/
def failure (action : Action) (step : Step) : Except Failure Reply → Failure
  | .error error => error
  | .ok reply =>
      .commandFailed step.name action.operation reply.output.exitCode? reply.output.stderr

/-- An answer that is not fatal is the output of a command. -/
theorem exists_reply_of_not_fatal {action : Action} {answer : Except Failure Reply}
    (hanswer : ¬ Fatal action answer) : ∃ reply, answer = .ok reply := by
  cases answer with
  | error error => exact absurd trivial hanswer
  | ok reply => exact ⟨reply, rfl⟩

theorem not_fatal_apply_iff (reply : Reply) :
    ¬ Fatal .apply (.ok reply) ↔ reply.output.success = true := by
  simp [Fatal]

theorem not_fatal_delete_iff (reply : Reply) :
    ¬ Fatal .delete (.ok reply) ↔
      reply.output.success = true ∨ reply.output.meansAbsence = true := by
  cases hsuccess : reply.output.success <;> simp [Fatal, hsuccess]

/-- A step counts as done exactly when the answer is not fatal. -/
theorem outcome?_of_not_fatal {action : Action} {reply : Reply}
    (hreply : ¬ Fatal action (.ok reply)) :
    outcome? action reply.output = some (countsAs action reply.output) := by
  cases action with
  | apply =>
      rw [not_fatal_apply_iff] at hreply
      simp [hreply, countsAs]
  | delete =>
      rw [not_fatal_delete_iff] at hreply
      cases hsuccess : reply.output.success with
      | true =>
          by_cases hblank : Text.isBlankText reply.output.stdout <;>
            simp [outcome?, countsAs, hsuccess, hblank]
      | false =>
          have habsence : reply.output.meansAbsence = true := by simpa [hsuccess] using hreply
          simp [outcome?, countsAs, hsuccess, habsence]

theorem outcome?_of_fatal {action : Action} {reply : Reply} (hreply : Fatal action (.ok reply)) :
    outcome? action reply.output = none := by
  rw [outcome?_eq_none_iff]
  refine ⟨hreply.1, ?_⟩
  cases action with
  | apply => exact .inl rfl
  | delete => exact .inr (hreply.2 rfl)

/-! ## What a run may ask -/

section asksOnly

variable (plane : ControlPlane σ) (permitted : Request → Prop) (action : Action)

theorem asksOnly_perform {step : Step} (hpermitted : permitted (.manifest action step.file)) :
    (perform plane action step).AsksOnly plane permitted := by
  refine (Work.AsksOnly.ask hpermitted).bind fun reply => (Work.AsksOnly.report _).bind fun _ => ?_
  cases outcome? action reply.output with
  | none => exact .fail _
  | some outcome =>
      refine Work.AsksOnly.bind ?_ fun _ => .pure _
      unfold noteTolerance
      split
      · exact .pure _
      · exact .report _

theorem asksOnly_handleFrom (dryRun : Bool) (count completed : Nat) {steps : List Step}
    (hpermitted : dryRun = false → ∀ step ∈ steps, permitted (.manifest action step.file)) :
    (handleFrom plane action dryRun count completed steps).AsksOnly plane permitted := by
  induction steps generalizing completed with
  | nil => exact .pure _
  | cons step rest ih =>
      have hhandle : (handle plane action dryRun step).AsksOnly plane permitted := by
        cases dryRun with
        | true => exact .pure _
        | false => exact asksOnly_perform plane permitted action (hpermitted rfl step (by simp))
      have hrest := ih (completed + 1) fun hreal later hlater =>
        hpermitted hreal later (List.mem_cons_of_mem step hlater)
      exact (hhandle.reportingFailure _).bind fun _ => (Work.AsksOnly.report _).bind fun _ =>
        hrest.bind fun _ => .pure _

/-- A run asks for nothing but its steps, and for nothing at all when it is dry. -/
theorem asksOnly_execute (executionId : String) (dryRun : Bool) {steps : List Step}
    (hpermitted : dryRun = false → ∀ step ∈ steps, permitted (.manifest action step.file)) :
    (execute plane action executionId dryRun steps).AsksOnly plane permitted :=
  (Work.AsksOnly.report _).bind fun _ =>
    asksOnly_handleFrom plane permitted action dryRun _ _ hpermitted

end asksOnly

/-- The journal of a run leaves nothing out. -/
theorem recorded_execute (plane : ControlPlane σ) (action : Action) (executionId : String)
    (dryRun : Bool) (steps : List Step) :
    (execute plane action executionId dryRun steps).Recorded plane :=
  (asksOnly_execute plane (fun _ => True) action executionId dryRun fun _ _ _ => trivial).recorded

/-! ## One step -/

/-- The requests for an action on the given steps, one for each step. -/
def calls (action : Action) (steps : List Step) : List Entry :=
  steps.map fun step => .asked (.manifest action step.file)

/-- The answer for a step, when the control plane has answered for the steps in `done`. -/
def answerFor (plane : ControlPlane σ) (action : Action) (done : List Step) (step : Step)
    (state : σ) : Except Failure Reply :=
  (plane.answer (.manifest action step.file) (plane.after (calls action done) state)).1

/-- A step whose answer is not fatal has the result that the answer says. -/
theorem result_perform_of_completing {plane : ControlPlane σ} {action : Action} {step : Step}
    {state : σ} {reply : Reply}
    (hreply : (plane.answer (.manifest action step.file) state).1 = .ok reply)
    (hcompleting : ¬ Fatal action (.ok reply)) :
    (perform plane action step state).result = .ok (completion action step reply) := by
  have houtcome := outcome?_of_not_fatal hcompleting
  by_cases hsuccess : reply.output.success <;>
    simp [perform, Trace.andThen, hreply, houtcome, noteTolerance, hsuccess, completion]

/-- A step whose answer is fatal ends with the error that the answer says. -/
theorem result_perform_of_fatal {plane : ControlPlane σ} {action : Action} {step : Step} {state : σ}
    (hfatal : Fatal action (plane.answer (.manifest action step.file) state).1) :
    (perform plane action step state).result =
      .error (failure action step (plane.answer (.manifest action step.file) state).1) := by
  cases hanswer : (plane.answer (.manifest action step.file) state).1 with
  | error error => simp [perform, Trace.andThen, hanswer, failure]
  | ok reply =>
      rw [hanswer] at hfatal
      simp [perform, Trace.andThen, hanswer, outcome?_of_fatal hfatal, failure]

/-- Whatever the answer, a step makes one request. -/
theorem contacts_perform (plane : ControlPlane σ) (action : Action) (step : Step) (state : σ) :
    (perform plane action step state).contacts = [.asked (.manifest action step.file)] := by
  cases hanswer : (plane.answer (.manifest action step.file) state).1 with
  | error error => simp [perform, Trace.andThen, hanswer, Trace.contacts]
  | ok reply =>
      cases houtcome : outcome? action reply.output with
      | none => simp [perform, Trace.andThen, hanswer, houtcome, Trace.contacts]
      | some outcome =>
          by_cases hsuccess : reply.output.success <;>
            simp [perform, Trace.andThen, hanswer, houtcome, noteTolerance, hsuccess,
              Trace.contacts]

theorem state_perform (plane : ControlPlane σ) (action : Action) (step : Step) (state : σ) :
    (perform plane action step state).state =
      (plane.answer (.manifest action step.file) state).2 := by
  have hperform : (perform plane action step).AsksOnly plane fun _ => True :=
    asksOnly_perform plane _ action trivial
  rw [hperform.recorded.state_eq_after_contacts, contacts_perform, plane.after_asked,
    plane.after_nil]

/-! ## What the control plane makes of a list of steps -/

/-- None of the answers for the steps, asked for one after the other, is fatal. -/
def Unhindered (plane : ControlPlane σ) (action : Action) (steps : List Step) (state : σ) : Prop :=
  ∀ answer ∈ plane.answers (calls action steps) state, ¬ Fatal action answer

/-- The first fatal answer is the one for `step`, after the steps in `done`. -/
structure StopsAt (plane : ControlPlane σ) (action : Action) (done : List Step) (step : Step)
    (state : σ) : Prop where
  unhindered : Unhindered plane action done state
  fatal : Fatal action (answerFor plane action done step state)

@[simp]
theorem calls_nil (action : Action) : calls action [] = [] := rfl

@[simp]
theorem calls_cons (action : Action) (step : Step) (rest : List Step) :
    calls action (step :: rest) = .asked (.manifest action step.file) :: calls action rest := rfl

@[simp]
theorem calls_append (action : Action) (first second : List Step) :
    calls action (first ++ second) = calls action first ++ calls action second :=
  List.map_append

/-- The requests among the calls. -/
theorem filterMap_request?_calls (action : Action) (steps : List Step) :
    (calls action steps).filterMap Entry.request? =
      steps.map fun step => .manifest action step.file := by
  induction steps with
  | nil => rfl
  | cons step rest ih => simp [Entry.request?, ih]

theorem length_answers_calls (plane : ControlPlane σ) (action : Action) (steps : List Step)
    (state : σ) : (plane.answers (calls action steps) state).length = steps.length := by
  rw [plane.length_answers, filterMap_request?_calls, List.length_map]

@[simp]
theorem unhindered_nil (plane : ControlPlane σ) (action : Action) (state : σ) :
    Unhindered plane action [] state := by
  simp [Unhindered]

theorem unhindered_cons {plane : ControlPlane σ} {action : Action} {step : Step}
    {rest : List Step} {state : σ} :
    Unhindered plane action (step :: rest) state ↔
      ¬ Fatal action (plane.answer (.manifest action step.file) state).1 ∧
        Unhindered plane action rest (plane.answer (.manifest action step.file) state).2 := by
  simp [Unhindered]

/-- Nothing stops two lists of steps when nothing stops the first, nor the second after it. -/
theorem unhindered_append {plane : ControlPlane σ} {action : Action} {first second : List Step}
    {state : σ} :
    Unhindered plane action (first ++ second) state ↔
      Unhindered plane action first state ∧
        Unhindered plane action second (plane.after (calls action first) state) := by
  simp only [Unhindered, calls_append, plane.answers_append, List.forall_mem_append]

/-- Every list of steps is unhindered, or splits at its first fatal answer. -/
theorem unhindered_or_stopsAt (plane : ControlPlane σ) (action : Action) (steps : List Step)
    (state : σ) :
    Unhindered plane action steps state ∨
      ∃ done step rest, steps = done ++ step :: rest ∧ StopsAt plane action done step state := by
  induction steps generalizing state with
  | nil => exact .inl (unhindered_nil plane action state)
  | cons step rest ih =>
      by_cases hfatal : Fatal action (plane.answer (.manifest action step.file) state).1
      · exact .inr ⟨[], step, rest, rfl, unhindered_nil plane action state, hfatal⟩
      · rcases ih (plane.answer (.manifest action step.file) state).2 with
          hrest | ⟨done, later, rest, rfl, hstops⟩
        · exact .inl (unhindered_cons.mpr ⟨hfatal, hrest⟩)
        · exact .inr ⟨step :: done, later, rest, rfl,
            unhindered_cons.mpr ⟨hfatal, hstops.unhindered⟩, hstops.fatal⟩

/-- When none of the answers is fatal, the control plane answers with an output for each step. -/
theorem exists_replies_of_unhindered {plane : ControlPlane σ} {action : Action}
    {steps : List Step} {state : σ} (hunhindered : Unhindered plane action steps state) :
    ∃ replies : List Reply, plane.answers (calls action steps) state = replies.map .ok ∧
      replies.length = steps.length := by
  induction steps generalizing state with
  | nil => exact ⟨[], rfl, rfl⟩
  | cons step rest ih =>
      obtain ⟨hcompleting, hrest⟩ := unhindered_cons.mp hunhindered
      obtain ⟨reply, hreply⟩ := exists_reply_of_not_fatal hcompleting
      obtain ⟨replies, hreplies, hlength⟩ := ih hrest
      exact ⟨reply :: replies, by simp [hreply, hreplies], by simp [hlength]⟩

/-! ## A run -/

section handleFrom

variable {plane : ControlPlane σ} {action : Action} {step : Step} {state : σ}
  (count completed : Nat) (rest : List Step)

/-- After a step that is done the run goes on with the remaining steps. -/
theorem handleFrom_cons_of_completing {reply : Reply}
    (hreply : (plane.answer (.manifest action step.file) state).1 = .ok reply)
    (hcompleting : ¬ Fatal action (.ok reply)) :
    let later := handleFrom plane action false count (completed + 1) rest
      (plane.answer (.manifest action step.file) state).2
    (handleFrom plane action false count completed (step :: rest) state).result =
        later.result.map (completion action step reply :: ·) ∧
      (handleFrom plane action false count completed (step :: rest) state).contacts =
        .asked (.manifest action step.file) :: later.contacts := by
  have hfirst : (Work.reportingFailure (.failed (completed + 1) count step.name)
      (handle plane action false step) state).result = .ok (completion action step reply) := by
    simpa [handle] using result_perform_of_completing hreply hcompleting
  have hcontacts := contacts_perform plane action step state
  rw [handleFrom, Work.bind_of_ok hfirst]
  simp only [Work.report_bind_apply, Work.bind_pure_apply, Work.reportingFailure_apply,
    Trace.state_noteError, handle, Bool.false_eq_true, if_false, state_perform]
  refine ⟨trivial, ?_⟩
  rw [← Trace.contacts_noteError] at hcontacts
  unfold Trace.contacts at hcontacts ⊢
  rw [List.filter_append, hcontacts]
  rfl

/-- After a fatal answer the run is over. -/
theorem handleFrom_cons_of_fatal
    (hfatal : Fatal action (plane.answer (.manifest action step.file) state).1) :
    (handleFrom plane action false count completed (step :: rest) state).result =
        .error (failure action step (plane.answer (.manifest action step.file) state).1) ∧
      (handleFrom plane action false count completed (step :: rest) state).contacts =
        [.asked (.manifest action step.file)] := by
  have hfirst : (Work.reportingFailure (.failed (completed + 1) count step.name)
      (handle plane action false step) state).result =
      .error (failure action step (plane.answer (.manifest action step.file) state).1) := by
    simpa [handle] using result_perform_of_fatal hfatal
  have hcontacts := contacts_perform plane action step state
  rw [← Trace.contacts_noteError] at hcontacts
  rw [handleFrom, Work.bind_of_error hfirst]
  exact ⟨rfl, hcontacts⟩

/-- A run that nothing stops asks for every step and has one result for each. -/
theorem handleFrom_of_unhindered {steps : List Step} {replies : List Reply}
    (hunhindered : Unhindered plane action steps state)
    (hreplies : plane.answers (calls action steps) state = replies.map .ok) :
    (handleFrom plane action false count completed steps state).result =
        .ok (List.zipWith (completion action) steps replies) ∧
      (handleFrom plane action false count completed steps state).contacts =
        calls action steps := by
  induction steps generalizing completed state replies with
  | nil => exact ⟨rfl, rfl⟩
  | cons step rest ih =>
      obtain ⟨hcompleting, hrest⟩ := unhindered_cons.mp hunhindered
      cases replies with
      | nil => simp at hreplies
      | cons reply replies =>
          simp only [calls_cons, ControlPlane.answers_asked, List.map_cons, List.cons.injEq]
            at hreplies
          obtain ⟨hreply, hreplies⟩ := hreplies
          rw [hreply] at hcompleting
          obtain ⟨hresult, hcontacts⟩ :=
            handleFrom_cons_of_completing count completed rest hreply hcompleting
          obtain ⟨hlater, hasked⟩ := ih (completed + 1) hrest hreplies
          rw [hresult, hcontacts, hlater, hasked]
          exact ⟨rfl, rfl⟩

/-- A run that an answer stops asks for the steps up to the one that the answer is for. -/
theorem handleFrom_of_stopsAt {done : List Step} (hstops : StopsAt plane action done step state) :
    (handleFrom plane action false count completed (done ++ step :: rest) state).result =
        .error (failure action step (answerFor plane action done step state)) ∧
      (handleFrom plane action false count completed (done ++ step :: rest) state).contacts =
        calls action (done ++ [step]) := by
  induction done generalizing completed state with
  | nil => exact handleFrom_cons_of_fatal count completed rest hstops.fatal
  | cons first done ih =>
      obtain ⟨hcompleting, hdone⟩ := unhindered_cons.mp hstops.unhindered
      obtain ⟨reply, hreply⟩ := exists_reply_of_not_fatal hcompleting
      rw [hreply] at hcompleting
      obtain ⟨hresult, hcontacts⟩ :=
        handleFrom_cons_of_completing count completed (done ++ step :: rest) hreply hcompleting
      obtain ⟨hlater, hasked⟩ := ih (completed + 1) ⟨hdone, hstops.fatal⟩
      rw [List.cons_append, hresult, hcontacts, hlater, hasked]
      exact ⟨rfl, rfl⟩

end handleFrom

section execute

variable {plane : ControlPlane σ} {action : Action} {steps : List Step} {state : σ}

/-- A run that nothing stops: one request and one result for each step, in order. -/
theorem execute_of_unhindered (executionId : String) {replies : List Reply}
    (hunhindered : Unhindered plane action steps state)
    (hreplies : plane.answers (calls action steps) state = replies.map .ok) :
    (execute plane action executionId false steps state).result =
        .ok (List.zipWith (completion action) steps replies) ∧
      (execute plane action executionId false steps state).contacts = calls action steps :=
  handleFrom_of_unhindered steps.length 0 hunhindered hreplies

/-- A run that an answer stops: one request for each step up to that one, and no result. -/
theorem execute_of_stopsAt (executionId : String) {done : List Step} {step : Step}
    (rest : List Step) (hstops : StopsAt plane action done step state) :
    (execute plane action executionId false (done ++ step :: rest) state).result =
        .error (failure action step (answerFor plane action done step state)) ∧
      (execute plane action executionId false (done ++ step :: rest) state).contacts =
        calls action (done ++ [step]) :=
  handleFrom_of_stopsAt (done ++ step :: rest).length 0 rest hstops

/-- A dry run has one planned result for each step and asks for nothing. -/
theorem handleFrom_dry (plane : ControlPlane σ) (action : Action) (count completed : Nat)
    (steps : List Step) (state : σ) :
    (handleFrom plane action true count completed steps state).result =
        .ok (steps.map (planned plane action)) ∧
      (handleFrom plane action true count completed steps state).contacts = [] := by
  induction steps generalizing completed with
  | nil => exact ⟨rfl, rfl⟩
  | cons step rest ih =>
      obtain ⟨hresult, hcontacts⟩ := ih (completed + 1)
      have hfirst : (Work.reportingFailure (.failed (completed + 1) count step.name)
          (handle plane action true step) state).result = .ok (planned plane action step) := rfl
      rw [handleFrom, Work.bind_of_ok hfirst]
      simp only [Work.report_bind_apply, Work.bind_pure_apply]
      exact ⟨congrArg (Except.map _) hresult, hcontacts⟩

theorem execute_dry (executionId : String) :
    (execute plane action executionId true steps state).result =
        .ok (steps.map (planned plane action)) ∧
      (execute plane action executionId true steps state).contacts = [] :=
  handleFrom_dry plane action steps.length 0 steps state

/-- Whether a run is dry or not, it asks for the steps from the first up to some step. -/
theorem exists_contacts_execute_eq (plane : ControlPlane σ) (action : Action)
    (executionId : String) (dryRun : Bool) (steps : List Step) (state : σ) :
    ∃ count, (execute plane action executionId dryRun steps state).contacts =
      calls action (steps.take count) := by
  cases dryRun with
  | true => exact ⟨0, (execute_dry executionId).2⟩
  | false =>
      rcases unhindered_or_stopsAt plane action steps state with
        hunhindered | ⟨done, step, rest, rfl, hstops⟩
      · obtain ⟨replies, hreplies, -⟩ := exists_replies_of_unhindered hunhindered
        refine ⟨steps.length, ?_⟩
        rw [(execute_of_unhindered executionId hunhindered hreplies).2, List.take_length]
      · refine ⟨done.length + 1, ?_⟩
        rw [(execute_of_stopsAt executionId rest hstops).2, List.take_length_add_append]
        rfl

/-- The state after a run is the one that its requests lead to. -/
theorem state_execute (executionId : String) (dryRun : Bool) :
    (execute plane action executionId dryRun steps state).state =
      plane.after (execute plane action executionId dryRun steps state).contacts state :=
  (recorded_execute plane action executionId dryRun steps).state_eq_after_contacts state

/-- **A run stops at the first fatal answer, and at no other.**  It asks for one step after the
other up to that answer and waits for nothing.  Without a fatal answer it has one result for each
step; with one it has the error that the answer says.  Either way it leaves the control plane in the
state that exactly these requests lead to. -/
theorem execute_stops_at_first_fatal_answer (plane : ControlPlane σ) (action : Action)
    (executionId : String) (steps : List Step) (state : σ) :
    let trace := execute plane action executionId false steps state
    (Unhindered plane action steps state →
      trace.contacts = calls action steps ∧
      trace.state = plane.after (calls action steps) state ∧
      ∃ replies : List Reply, plane.answers (calls action steps) state = replies.map .ok ∧
        replies.length = steps.length ∧
        trace.result = .ok (List.zipWith (completion action) steps replies)) ∧
    (∀ done step rest, steps = done ++ step :: rest → StopsAt plane action done step state →
      trace.contacts = calls action (done ++ [step]) ∧
      trace.state = plane.after (calls action (done ++ [step])) state ∧
      trace.result = .error (failure action step (answerFor plane action done step state))) ∧
    (Unhindered plane action steps state ∨
      ∃ done step rest, steps = done ++ step :: rest ∧ StopsAt plane action done step state) := by
  intro trace
  have hstate : trace.state = plane.after trace.contacts state := state_execute executionId false
  refine ⟨?_, ?_, unhindered_or_stopsAt plane action steps state⟩
  · intro hunhindered
    obtain ⟨replies, hreplies, hlength⟩ := exists_replies_of_unhindered hunhindered
    obtain ⟨hresult, hcontacts⟩ := execute_of_unhindered executionId hunhindered hreplies
    exact ⟨hcontacts, hcontacts ▸ hstate, replies, hreplies, hlength, hresult⟩
  · rintro done step rest rfl hstops
    obtain ⟨hresult, hcontacts⟩ := execute_of_stopsAt executionId rest hstops
    exact ⟨hcontacts, hcontacts ▸ hstate, hresult⟩

end execute

/-! ## A refused delete -/

/-- Three manifests, one after the other. -/
def chain : List Step :=
  [{ name := "config", file := ⟨"a.yaml"⟩, stage := .config },
    { name := "server", file := ⟨"b.yaml"⟩, stage := .workloads },
    { name := "service", file := ⟨"c.yaml"⟩, stage := .services }]

/-- A cluster that refuses to delete the second of them. -/
def guarded : Cluster :=
  { applied := [⟨"a.yaml"⟩, ⟨"b.yaml"⟩]
    queues := [("delete b.yaml", [.output (.failed 1 "Error from server (Forbidden): b")])] }

/-- On this cluster all three can be applied, but the run of deletes ends with the second, and the
third is not touched. -/
theorem chain_on_guarded :
    Unhindered Cluster.controlPlane .apply chain guarded ∧
      (execute Cluster.controlPlane .apply "r" false chain guarded).contacts =
        calls .apply chain ∧
      StopsAt Cluster.controlPlane .delete (chain.take 1) chain[1] guarded ∧
      (execute Cluster.controlPlane .delete "r" false chain guarded).contacts =
        calls .delete (chain.take 2) ∧
      (execute Cluster.controlPlane .delete "r" false chain guarded).result =
        .error (.commandFailed "server" .delete (some 1) "Error from server (Forbidden): b") := by
  have happly : Unhindered Cluster.controlPlane .apply chain guarded := by
    unfold Unhindered
    decide +kernel
  have hdelete : StopsAt Cluster.controlPlane .delete (chain.take 1) chain[1] guarded := by
    refine ⟨?_, ?_⟩
    · unfold Unhindered
      decide +kernel
    · decide +kernel
  have hfailure : failure .delete chain[1]
      (answerFor Cluster.controlPlane .delete (chain.take 1) chain[1] guarded) =
        .commandFailed "server" .delete (some 1) "Error from server (Forbidden): b" := by
    decide +kernel
  obtain ⟨happlied, -, -⟩ :=
    (execute_stops_at_first_fatal_answer Cluster.controlPlane .apply "r" chain guarded).1 happly
  obtain ⟨hdeleted, -, hresult⟩ :=
    (execute_stops_at_first_fatal_answer Cluster.controlPlane .delete "r" chain guarded).2.1
      (chain.take 1) chain[1] (chain.drop 2) rfl hdelete
  exact ⟨happly, happlied, hdelete, hdeleted, hfailure ▸ hresult⟩

end Rollout.Run
