import Rollout.Proofs.Run.Plans

/-!
# The results of a run

A run, dry or real, either comes to its end and has one result for each step, or it stops at one of
its steps and says so.

## Strategy

What a run does when nothing stops it, when an answer stops it and when it is dry is known from
elsewhere.  Here the three are put together along `Completes`, which decides between the two ways to
end (`ended_execute` and `stopped_execute`), and the answers are those that the journal of the run
itself has led to.
-/

namespace Rollout.Run

variable {σ : Type}

/-- Nothing stops the run: it is dry, or none of the answers for its steps is fatal. -/
def Completes (plane : ControlPlane σ) (action : Action) (dryRun : Bool) (steps : List Step)
    (state : σ) : Prop :=
  dryRun = true ∨ Unhindered plane action steps state

/-- A run that has come to its end.  A dry one asks for nothing and has planned results.  A real one
asks for every step, in order; none of the answers is fatal, and the results are what they say. -/
structure Ended (plane : ControlPlane σ) (action : Action) (dryRun : Bool) (steps : List Step)
    (state : σ) (trace : Trace σ (List Completion)) (results : List Completion) : Prop where
  result_eq : trace.result = .ok results
  dry : dryRun = true → trace.requests = [] ∧ results = steps.map (planned plane action)
  real : dryRun = false → trace.requests = steps.map (fun step => .manifest action step.file) ∧
    ∃ replies : List Reply, plane.answers trace.journal state = replies.map .ok ∧
      replies.length = steps.length ∧ (∀ reply ∈ replies, ¬ Fatal action (.ok reply)) ∧
      results = List.zipWith (completion action) steps replies

/-- A run that has stopped at one of its steps, because of an answer that it was given. -/
structure Stopped (plane : ControlPlane σ) (action : Action) (steps : List Step) (state : σ)
    (trace : Trace σ (List Completion)) (step : Step) (answer : Except Failure Reply) : Prop where
  result_eq : trace.result = .error (failure action step answer)
  step_mem : step ∈ steps
  answer_mem : answer ∈ plane.answers trace.journal state

theorem requests_of_contacts {α : Type} {trace : Trace σ α} {action : Action} {steps : List Step}
    (hcontacts : trace.contacts = calls action steps) :
    trace.requests = steps.map fun step => .manifest action step.file := by
  rw [trace.requests_eq_filterMap_contacts, hcontacts, filterMap_request?_calls]

/-- What a trace has been answered depends on its contacts alone. -/
theorem answers_of_contacts {α : Type} (plane : ControlPlane σ) {trace : Trace σ α}
    {entries : List Entry} (hcontacts : trace.contacts = entries) (state : σ) :
    plane.answers trace.journal state = plane.answers entries state := by
  rw [← hcontacts, Trace.contacts, plane.answers_filter_isContact]

section execute

variable {plane : ControlPlane σ} {action : Action} {dryRun : Bool} {steps : List Step} {state : σ}
  (executionId : String)

theorem ended_execute (hcompletes : Completes plane action dryRun steps state) :
    ∃ results, Ended plane action dryRun steps state
      (execute plane action executionId dryRun steps state) results := by
  cases dryRun with
  | true =>
      obtain ⟨hresult, hcontacts⟩ := @execute_dry σ plane action steps state executionId
      have hrequests : (execute plane action executionId true steps state).requests = [] :=
        @requests_of_contacts σ _ _ action [] hcontacts
      exact ⟨_, hresult, fun _ => ⟨hrequests, rfl⟩, by simp⟩
  | false =>
      have hunhindered : Unhindered plane action steps state := by
        simpa [Completes] using hcompletes
      obtain ⟨replies, hreplies, hlength⟩ := exists_replies_of_unhindered hunhindered
      obtain ⟨hresult, hcontacts⟩ := execute_of_unhindered executionId hunhindered hreplies
      refine ⟨_, hresult, by simp, fun _ => ⟨requests_of_contacts hcontacts, replies, ?_, hlength,
        ?_, rfl⟩⟩
      · rw [answers_of_contacts plane hcontacts, hreplies]
      · rw [Unhindered, hreplies] at hunhindered
        exact fun reply hreply => hunhindered _ (List.mem_map_of_mem hreply)

theorem stopped_execute (hcompletes : ¬ Completes plane action dryRun steps state) :
    ∃ step answer, Stopped plane action steps state
      (execute plane action executionId dryRun steps state) step answer := by
  obtain ⟨hreal, hhindered⟩ := not_or.mp hcompletes
  obtain rfl : dryRun = false := Bool.eq_false_iff.mpr hreal
  rcases unhindered_or_stopsAt plane action steps state with
    hunhindered | ⟨done, step, rest, rfl, hstops⟩
  · exact absurd hunhindered hhindered
  · obtain ⟨hresult, hcontacts⟩ := execute_of_stopsAt executionId rest hstops
    refine ⟨step, answerFor plane action done step state, hresult, by simp, ?_⟩
    -- the answer is that to the last of the calls
    rw [answers_of_contacts plane hcontacts, calls_append, plane.answers_append]
    exact List.mem_append_right _ (List.mem_singleton_self _)

/-- A run has results exactly when nothing stops it. -/
theorem ok_execute_iff :
    (∃ results, (execute plane action executionId dryRun steps state).result = .ok results) ↔
      Completes plane action dryRun steps state := by
  refine ⟨?_, fun hcompletes => ?_⟩
  · rintro ⟨results, hresult⟩
    refine Classical.byContradiction fun hcompletes => ?_
    obtain ⟨step, answer, hstopped⟩ := stopped_execute executionId hcompletes
    exact absurd (hresult.symm.trans hstopped.result_eq) (by simp)
  · obtain ⟨results, hended⟩ := ended_execute executionId hcompletes
    exact ⟨results, hended.result_eq⟩

theorem ended_of_ok {results : List Completion}
    (hresult : (execute plane action executionId dryRun steps state).result = .ok results) :
    Ended plane action dryRun steps state
      (execute plane action executionId dryRun steps state) results := by
  obtain ⟨found, hended⟩ :=
    ended_execute executionId ((ok_execute_iff executionId).mp ⟨results, hresult⟩)
  obtain rfl : found = results := Except.ok.inj (hended.result_eq.symm.trans hresult)
  exact hended

theorem stopped_of_error {error : Failure}
    (hresult : (execute plane action executionId dryRun steps state).result = .error error) :
    ∃ step answer, error = failure action step answer ∧ Stopped plane action steps state
      (execute plane action executionId dryRun steps state) step answer := by
  have hcompletes : ¬ Completes plane action dryRun steps state := by
    rw [← ok_execute_iff executionId]
    rintro ⟨results, hok⟩
    exact absurd (hok.symm.trans hresult) (by simp)
  obtain ⟨step, answer, hstopped⟩ := stopped_execute executionId hcompletes
  exact ⟨step, answer, Except.error.inj (hresult.symm.trans hstopped.result_eq), hstopped⟩

end execute

/-! ## What the results say -/

section ended

variable {plane : ControlPlane σ} {action : Action} {dryRun : Bool} {steps : List Step} {state : σ}
  {trace : Trace σ (List Completion)} {results : List Completion}

/-- There is one result for each step, in order. -/
theorem Ended.names_eq (hended : Ended plane action dryRun steps state trace results) :
    results.map (·.step) = steps.map (·.name) := by
  cases hdryRun : dryRun with
  | true =>
      rw [(hended.dry hdryRun).2, List.map_map]
      rfl
  | false =>
      obtain ⟨-, replies, -, hlength, -, rfl⟩ := hended.real hdryRun
      exact map_step_zipWith_completion action hlength

theorem countsAs_ne_planned (action : Action) (output : Output) :
    countsAs action output ≠ .planned := by
  cases action with
  | apply => simp [countsAs]
  | delete =>
      rw [countsAs]
      split <;> simp

/-- Results are planned in dry runs and only there. -/
theorem Ended.planned_iff (hended : Ended plane action dryRun steps state trace results) :
    ∀ result ∈ results, result.outcome = .planned ↔ dryRun = true := by
  intro result hresult
  cases hdryRun : dryRun with
  | true =>
      rw [(hended.dry hdryRun).2] at hresult
      obtain ⟨step, -, rfl⟩ := List.mem_map.mp hresult
      exact iff_of_true rfl rfl
  | false =>
      obtain ⟨-, replies, -, -, -, rfl⟩ := hended.real hdryRun
      rw [← List.map_uncurry_zip_eq_zipWith] at hresult
      obtain ⟨⟨step, reply⟩, -, rfl⟩ := List.mem_map.mp hresult
      exact iff_of_false (countsAs_ne_planned action reply.output) (by simp)

end ended

end Rollout.Run
