import Rollout.Proofs.Run.Results

/-!
# The log of a run

A run that fails has no results, so its log is the only record of what it has done before.  This
file proves that the log, which leaves out what is only of interest for debugging, agrees with the
requests of the run, the answers to them and the way the run ends.

## Strategy

A `Course` says what a run has done: the steps that it has completed, each with the reply that
completed it, and the step at which it has stopped.  `TakesCourse` ties a course to the requests,
the answers and the result of a trace, and `Course.log` is what should be told about it.

* **Two levels of events.**  The warning about a tolerated delete comes from the step itself, the
  numbered events come from the loop around it.  `log_perform_of_completing` and
  `log_perform_of_fatal` say what the step tells, and `log_handleFrom_cons_of_completing` puts both
  together.
* **The failing position.**  Completed steps only add to the log in front of what follows, so one
  induction on them (`log_handleFrom_append`) serves runs that come to their end and runs that stop.
-/

namespace Rollout

/-! ## Logs of traces -/

section log

variable {σ α β : Type}

/-- The event says that a step is done. -/
def Event.isFinished : Event → Bool
  | finished .. => true
  | _ => false

/-- The events of a trace that are not for debugging only, in order. -/
def Trace.log (trace : Trace σ α) : List Event :=
  trace.events.filter fun event => event.level ≠ .debug

namespace Work

theorem log_bind_of_ok {work : Work σ α} {next : α → Work σ β} {state : σ} {value : α}
    (hresult : (work state).result = .ok value) :
    ((work >>= next) state).log = (work state).log ++ (next value (work state).state).log := by
  rw [bind_of_ok hresult]
  simp [Trace.log, Trace.events]

theorem log_bind_of_error {work : Work σ α} {next : α → Work σ β} {state : σ} {error : Failure}
    (hresult : (work state).result = .error error) :
    ((work >>= next) state).log = (work state).log := by
  rw [bind_of_error hresult]
  rfl

/-- What is reported first stands first in the log. -/
theorem log_report_bind {event : Event} (hlevel : event.level ≠ .debug) (next : Unit → Work σ β)
    (state : σ) : ((report event >>= next) state).log = event :: (next () state).log := by
  rw [report_bind_apply]
  simp [Trace.log, Trace.events, Entry.event?, hlevel]

theorem log_bind_pure (work : Work σ α) (change : α → β) (state : σ) :
    ((work >>= fun value => pure (change value)) state).log = (work state).log := by
  rw [bind_pure_apply]
  rfl

end Work

theorem Trace.log_noteError_of_ok {trace : Trace σ α} {value : α} (event : Failure → Event)
    (hresult : trace.result = .ok value) : (trace.noteError event).log = trace.log := by
  simp [noteError, hresult]

theorem Trace.log_noteError_of_error {trace : Trace σ α} {error : Failure}
    {event : Failure → Event} (hresult : trace.result = .error error)
    (hlevel : (event error).level ≠ .debug) :
    (trace.noteError event).log = trace.log ++ [event error] := by
  simp [noteError, hresult, log, events, Entry.event?, hlevel]

end log

namespace Run

variable {σ : Type}

/-! ## What a run has done, and what is told about it -/

/-- A step that a run has completed, with the reply that completed it; a step that was only planned
has none. -/
structure CompletedStep where
  step : Step
  reply? : Option Reply

namespace CompletedStep

/-- The result of the step. -/
def result (plane : ControlPlane σ) (action : Action) : CompletedStep → Completion
  | ⟨step, none⟩ => planned plane action step
  | ⟨step, some reply⟩ => completion action step reply

/-- What has become of the step. -/
def outcome (action : Action) : CompletedStep → Outcome
  | ⟨_, none⟩ => .planned
  | ⟨_, some reply⟩ => countsAs action reply.output

/-- The time that the step has taken. -/
def elapsed : CompletedStep → Duration
  | ⟨_, none⟩ => .zero
  | ⟨_, some reply⟩ => reply.elapsed

/-- The warning about a delete that has failed because there was nothing to delete. -/
def warnings (action : Action) : CompletedStep → List Event
  | ⟨_, none⟩ => []
  | ⟨step, some reply⟩ =>
      if action = .delete ∧ reply.output.success = false ∧ reply.output.meansAbsence = true then
        [.toleratedAbsence step.name reply.output.stderr]
      else []

/-- The events about the step at a position of a run over `count` steps. -/
def told (action : Action) (count position : Nat) (completed : CompletedStep) : List Event :=
  completed.warnings action ++
    [.finished position count completed.step.name (completed.outcome action) completed.elapsed]

end CompletedStep

/-- The events about completed steps, the first of which has the given position. -/
def toldFrom (action : Action) (count position : Nat) (completed : List CompletedStep) :
    List Event :=
  (completed.zipIdx position).flatMap fun (entry, position) => entry.told action count position

/-- What a run has done until it ended: the steps that it has completed, in order, and the step at
which it has stopped, with the answer for this step. -/
structure Course where
  completed : List CompletedStep
  stopped? : Option (Step × Except Failure Reply)

namespace Course

/-- The steps that were completed and the one at which the run has stopped. -/
def steps (course : Course) : List Step :=
  course.completed.map (·.step) ++ course.stopped?.toList.map Prod.fst

/-- The answers that were given on the way. -/
def answers (course : Course) : List (Except Failure Reply) :=
  (course.completed.filterMap (·.reply?)).map .ok ++ course.stopped?.toList.map Prod.snd

/-- The result of the run: those of the completed steps, or the error of the step it has stopped
at. -/
def result (plane : ControlPlane σ) (action : Action) (course : Course) :
    Except Failure (List Completion) :=
  match course.stopped? with
  | none => .ok (course.completed.map (·.result plane action))
  | some (step, answer) => .error (failure action step answer)

/-- What should be told about a course: that the run begins, then about each completed step, and
then about the step at which it has stopped, counted after the steps that are told to be done. -/
def log (action : Action) (executionId : String) (dryRun : Bool) (count : Nat) (course : Course) :
    List Event :=
  let before := .started executionId action count dryRun ::
    toldFrom action count 1 course.completed
  before ++ course.stopped?.toList.map fun (step, answer) =>
    .failed (before.countP Event.isFinished + 1) count step.name (failure action step answer)

end Course

/-- The trace of a run takes a course: the steps of the course are the first ones of the run, and
all of them unless it stops; the requests, the answers and the result are those of the course; and
the run stops at the first fatal answer. -/
structure TakesCourse (plane : ControlPlane σ) (action : Action) (dryRun : Bool)
    (steps : List Step) (state : σ) (trace : Trace σ (List Completion)) (course : Course) :
    Prop where
  steps_prefix : course.steps <+: steps
  steps_eq : course.stopped? = none → course.steps = steps
  result_eq : trace.result = course.result plane action
  requests_eq : trace.requests =
    if dryRun then [] else course.steps.map fun step => .manifest action step.file
  answers_eq : plane.answers trace.journal state = course.answers
  planned_iff : ∀ entry ∈ course.completed, entry.reply? = none ↔ dryRun = true
  reply_not_fatal : ∀ entry ∈ course.completed, ∀ reply, entry.reply? = some reply →
    ¬ Fatal action (.ok reply)
  stopped_fatal : ∀ step answer, course.stopped? = some (step, answer) → Fatal action answer

/-! ## Completed steps -/

theorem toldFrom_cons (action : Action) (count position : Nat) (entry : CompletedStep)
    (later : List CompletedStep) :
    toldFrom action count position (entry :: later) =
      entry.told action count position ++ toldFrom action count (position + 1) later := by
  simp [toldFrom]

/-- Besides that a step is done, at most a tolerated delete is told about it. -/
theorem CompletedStep.exists_eq_of_mem_warnings {action : Action} {entry : CompletedStep}
    {event : Event} (hevent : event ∈ entry.warnings action) :
    ∃ step stderr, event = .toleratedAbsence step stderr := by
  obtain ⟨step, reply?⟩ := entry
  cases reply? with
  | none => cases hevent
  | some reply =>
      rw [warnings] at hevent
      split at hevent
      · exact ⟨_, _, List.mem_singleton.mp hevent⟩
      · cases hevent

/-- Each completed step is told to be done once. -/
theorem countP_isFinished_toldFrom (action : Action) (count position : Nat)
    (completed : List CompletedStep) :
    (toldFrom action count position completed).countP Event.isFinished = completed.length := by
  induction completed generalizing position with
  | nil => rfl
  | cons entry later ih =>
      have hwarnings : (entry.warnings action).countP Event.isFinished = 0 := by
        refine List.countP_eq_zero.mpr fun event hevent => ?_
        obtain ⟨step, stderr, rfl⟩ := CompletedStep.exists_eq_of_mem_warnings hevent
        simp [Event.isFinished]
      have htold : (entry.told action count position).countP Event.isFinished = 1 := by
        rw [CompletedStep.told, List.countP_append, hwarnings]
        rfl
      rw [toldFrom_cons, List.countP_append, htold, ih, List.length_cons]
      omega

theorem level_ne_error_of_mem_toldFrom {action : Action} {count position : Nat}
    {completed : List CompletedStep} {event : Event}
    (hevent : event ∈ toldFrom action count position completed) : event.level ≠ .error := by
  obtain ⟨⟨entry, place⟩, -, htold⟩ := List.mem_flatMap.mp hevent
  rcases List.mem_append.mp htold with hwarning | hfinished
  · obtain ⟨step, stderr, rfl⟩ := CompletedStep.exists_eq_of_mem_warnings hwarning
    simp [Event.level]
  · rw [List.mem_singleton.mp hfinished]
    simp [Event.level]

/-- Steps that a run completes with the given replies. -/
def completedBy (steps : List Step) (replies : List Reply) : List CompletedStep :=
  (steps.zip replies).map fun (step, reply) => ⟨step, some reply⟩

theorem completedBy_cons (step : Step) (steps : List Step) (reply : Reply)
    (replies : List Reply) :
    completedBy (step :: steps) (reply :: replies) =
      ⟨step, some reply⟩ :: completedBy steps replies := rfl

section completedBy

variable {steps : List Step} {replies : List Reply}

theorem map_step_completedBy (hlength : replies.length = steps.length) :
    (completedBy steps replies).map (·.step) = steps := by
  rw [completedBy, List.map_map]
  exact List.map_fst_zip (Nat.le_of_eq hlength.symm)

theorem filterMap_reply?_completedBy (hlength : replies.length = steps.length) :
    (completedBy steps replies).filterMap (·.reply?) = replies := by
  have hsnd : (completedBy steps replies).filterMap (·.reply?) =
      (steps.zip replies).map Prod.snd := by
    rw [completedBy, List.filterMap_map]
    exact congrFun (@List.filterMap_eq_map _ _ Prod.snd) (steps.zip replies)
  rw [hsnd, List.map_snd_zip (Nat.le_of_eq hlength)]

theorem map_result_completedBy (plane : ControlPlane σ) (action : Action) :
    (completedBy steps replies).map (·.result plane action) =
      List.zipWith (completion action) steps replies := by
  rw [completedBy, List.map_map, ← List.map_uncurry_zip_eq_zipWith]
  rfl

theorem exists_reply_of_mem_completedBy {entry : CompletedStep}
    (hentry : entry ∈ completedBy steps replies) :
    ∃ reply ∈ replies, entry.reply? = some reply := by
  obtain ⟨⟨step, reply⟩, hmem, rfl⟩ := List.mem_map.mp hentry
  exact ⟨reply, (List.of_mem_zip hmem).2, rfl⟩

end completedBy

/-! ## What one step tells -/

section perform

variable {plane : ControlPlane σ} {action : Action} {step : Step} {state : σ}

theorem log_noteTolerance {reply : Reply} (hreply : ¬ Fatal action (.ok reply)) (step : Step)
    (state : σ) :
    (noteTolerance step reply.output state : Trace σ Unit).log =
      CompletedStep.warnings action ⟨step, some reply⟩ := by
  cases hsuccess : reply.output.success with
  | true => simp [noteTolerance, CompletedStep.warnings, hsuccess, Trace.log, Trace.events]
  | false =>
      -- a failed command completes a step only if it is a delete of something absent
      have htolerated : action = .delete ∧ reply.output.meansAbsence = true := by
        simpa [Fatal, hsuccess] using hreply
      simp [noteTolerance, CompletedStep.warnings, hsuccess, htolerated, Trace.log, Trace.events,
        Entry.event?, Event.level]

/-- A step that is done tells at most that a failed delete was tolerated. -/
theorem log_perform_of_completing {reply : Reply}
    (hreply : (plane.answer (.manifest action step.file) state).1 = .ok reply)
    (hcompleting : ¬ Fatal action (.ok reply)) :
    (perform plane action step state).log =
      CompletedStep.warnings action ⟨step, some reply⟩ := by
  have hasked : (Work.ask plane (.manifest action step.file) state).result = .ok reply := hreply
  rw [perform, Work.log_bind_of_ok hasked, Work.log_bind_of_ok rfl,
    outcome?_of_not_fatal hcompleting]
  -- neither the request nor the answer itself is in the log
  rw [Work.log_bind_pure, log_noteTolerance hcompleting]
  rfl

/-- A step with a fatal answer tells nothing itself. -/
theorem log_perform_of_fatal
    (hfatal : Fatal action (plane.answer (.manifest action step.file) state).1) :
    (perform plane action step state).log = [] := by
  cases hanswer : (plane.answer (.manifest action step.file) state).1 with
  | error error => simp [perform, Trace.andThen, hanswer, Trace.log, Trace.events, Entry.event?]
  | ok reply =>
      rw [hanswer] at hfatal
      simp [perform, Trace.andThen, hanswer, outcome?_of_fatal hfatal, Trace.log, Trace.events,
        Entry.event?, Event.level]

end perform

/-! ## What a run tells -/

section handleFrom

variable {plane : ControlPlane σ} {action : Action} {step : Step} {state : σ}
  (count completed : Nat) (rest : List Step)

/-- A step that is done is told to be done, and the run goes on with the remaining steps. -/
theorem log_handleFrom_cons_of_completing {reply : Reply}
    (hreply : (plane.answer (.manifest action step.file) state).1 = .ok reply)
    (hcompleting : ¬ Fatal action (.ok reply)) :
    (handleFrom plane action false count completed (step :: rest) state).log =
      CompletedStep.told action count (completed + 1) ⟨step, some reply⟩ ++
        (handleFrom plane action false count (completed + 1) rest
          (plane.answer (.manifest action step.file) state).2).log := by
  have hresult := result_perform_of_completing hreply hcompleting
  have hlog := log_perform_of_completing hreply hcompleting
  have hfirst : (Work.reportingFailure (.failed (completed + 1) count step.name)
      (handle plane action false step) state).result = .ok (completion action step reply) := by
    simpa [handle] using hresult
  rw [handleFrom, Work.log_bind_of_ok hfirst, Work.log_report_bind (by simp [Event.level]),
    Work.log_bind_pure]
  simp only [Work.reportingFailure_apply, Trace.state_noteError, handle, Bool.false_eq_true,
    if_false, state_perform]
  rw [Trace.log_noteError_of_ok _ hresult, hlog, CompletedStep.told, List.append_assoc]
  rfl

/-- A fatal answer is told last. -/
theorem log_handleFrom_cons_of_fatal
    (hfatal : Fatal action (plane.answer (.manifest action step.file) state).1) :
    (handleFrom plane action false count completed (step :: rest) state).log =
      [.failed (completed + 1) count step.name
        (failure action step (plane.answer (.manifest action step.file) state).1)] := by
  have hresult := result_perform_of_fatal hfatal
  have hfirst : (Work.reportingFailure (.failed (completed + 1) count step.name)
      (handle plane action false step) state).result =
      .error (failure action step (plane.answer (.manifest action step.file) state).1) := by
    simpa [handle] using hresult
  rw [handleFrom, Work.log_bind_of_error hfirst]
  simp only [Work.reportingFailure_apply, handle, Bool.false_eq_true, if_false]
  rw [Trace.log_noteError_of_error hresult (by simp [Event.level]), log_perform_of_fatal hfatal]
  rfl

/-- Completed steps are told in front of what the run goes on to tell. -/
theorem log_handleFrom_append {done : List Step} {replies : List Reply}
    (hunhindered : Unhindered plane action done state)
    (hreplies : plane.answers (calls action done) state = replies.map .ok) :
    (handleFrom plane action false count completed (done ++ rest) state).log =
      toldFrom action count (completed + 1) (completedBy done replies) ++
        (handleFrom plane action false count (completed + done.length) rest
          (plane.after (calls action done) state)).log := by
  induction done generalizing completed state replies with
  | nil => rfl
  | cons first done ih =>
      obtain ⟨hcompleting, hdone⟩ := unhindered_cons.mp hunhindered
      cases replies with
      | nil => simp at hreplies
      | cons reply replies =>
          simp only [calls_cons, ControlPlane.answers_asked, List.map_cons, List.cons.injEq]
            at hreplies
          obtain ⟨hreply, hreplies⟩ := hreplies
          rw [hreply] at hcompleting
          have hcount : completed + (first :: done).length = completed + 1 + done.length := by
            rw [List.length_cons]
            omega
          rw [List.cons_append, log_handleFrom_cons_of_completing _ _ _ hreply hcompleting,
            ih (completed + 1) hdone hreplies, completedBy_cons, toldFrom_cons, hcount,
            List.append_assoc, calls_cons, plane.after_asked]

/-- A dry run tells each step to be planned. -/
theorem log_handleFrom_dry (steps : List Step) :
    (handleFrom plane action true count completed steps state).log =
      toldFrom action count (completed + 1) (steps.map (⟨·, none⟩)) := by
  induction steps generalizing completed with
  | nil => rfl
  | cons step rest ih =>
      have hfirst : (Work.reportingFailure (.failed (completed + 1) count step.name)
          (handle plane action true step) state).result = .ok (planned plane action step) := rfl
      rw [handleFrom, Work.log_bind_of_ok hfirst, Work.log_report_bind (by simp [Event.level]),
        Work.log_bind_pure, List.map_cons, toldFrom_cons]
      exact congrArg (List.cons _) (ih (completed + 1))

end handleFrom

/-! ## Courses -/

section course

variable {plane : ControlPlane σ} {action : Action} {steps : List Step} {state : σ}
  (executionId : String)

theorem Course.log_eq (dryRun : Bool) (count : Nat) (course : Course) :
    course.log action executionId dryRun count =
      .started executionId action count dryRun :: (toldFrom action count 1 course.completed ++
        course.stopped?.toList.map fun (step, answer) =>
          .failed (course.completed.length + 1) count step.name (failure action step answer)) := by
  have hcount : (Event.started executionId action count dryRun ::
      toldFrom action count 1 course.completed).countP Event.isFinished =
        course.completed.length :=
    countP_isFinished_toldFrom action count 1 course.completed
  simp only [Course.log, hcount, List.cons_append]

/-- A dry run only plans its steps. -/
theorem takesCourse_dry :
    TakesCourse plane action true steps state (execute plane action executionId true steps state)
      ⟨steps.map (⟨·, none⟩), none⟩ := by
  obtain ⟨hresult, hcontacts⟩ := @execute_dry σ plane action steps state executionId
  have hcalls : (execute plane action executionId true steps state).contacts = calls action [] :=
    hcontacts
  have hsteps : Course.steps ⟨steps.map (⟨·, none⟩), none⟩ = steps := by
    simp [Course.steps, Function.comp_def]
  refine ⟨⟨[], (List.append_nil _).trans hsteps⟩, fun _ => hsteps, ?_, requests_of_contacts hcalls,
    ?_, by simp, by simp, by simp⟩
  · rw [hresult, Course.result, List.map_map]
    rfl
  · rw [answers_of_contacts plane hcalls]
    simp [Course.answers]

section real

variable {done : List Step} {replies : List Reply}

theorem length_replies (hreplies : plane.answers (calls action done) state = replies.map .ok) :
    replies.length = done.length := by
  rw [← length_answers_calls plane action done state, hreplies, List.length_map]

theorem completes_of_mem_completedBy (hunhindered : Unhindered plane action done state)
    (hreplies : plane.answers (calls action done) state = replies.map .ok)
    {entry : CompletedStep} (hentry : entry ∈ completedBy done replies) :
    ∃ reply, entry.reply? = some reply ∧ ¬ Fatal action (.ok reply) := by
  obtain ⟨reply, hmem, hreply⟩ := exists_reply_of_mem_completedBy hentry
  rw [Unhindered, hreplies] at hunhindered
  exact ⟨reply, hreply, hunhindered _ (List.mem_map_of_mem hmem)⟩

/-- The course of a real run is known from its requests and its result. -/
theorem takesCourse_of_contacts {trace : Trace σ (List Completion)}
    {stopped? : Option (Step × Except Failure Reply)}
    (hunhindered : Unhindered plane action done state)
    (hreplies : plane.answers (calls action done) state = replies.map .ok)
    (hstopped : ∀ step answer, stopped? = some (step, answer) →
      StopsAt plane action done step state ∧ answer = answerFor plane action done step state)
    (hsplit : done ++ stopped?.toList.map Prod.fst <+: steps)
    (hall : stopped? = none → done = steps)
    (hcontacts : trace.contacts = calls action (done ++ stopped?.toList.map Prod.fst))
    (hresult : trace.result = Course.result plane action ⟨completedBy done replies, stopped?⟩) :
    TakesCourse plane action false steps state trace ⟨completedBy done replies, stopped?⟩ := by
  have hlength := length_replies hreplies
  have hsteps : Course.steps ⟨completedBy done replies, stopped?⟩ =
      done ++ stopped?.toList.map Prod.fst := by
    rw [Course.steps, map_step_completedBy hlength]
  refine ⟨hsteps ▸ hsplit, ?_, hresult, ?_, ?_, ?_, ?_, ?_⟩
  · rintro rfl
    rw [hsteps, hall rfl]
    exact List.append_nil steps
  · rw [requests_of_contacts hcontacts, hsteps]
    rfl
  · rw [answers_of_contacts plane hcontacts, calls_append, plane.answers_append, hreplies,
      Course.answers, filterMap_reply?_completedBy hlength]
    -- the last answer is the one at which the run has stopped
    cases stopped? with
    | none => rfl
    | some stopped =>
        obtain ⟨step, answer⟩ := stopped
        obtain ⟨-, rfl⟩ := hstopped step answer rfl
        rfl
  · intro entry hentry
    obtain ⟨reply, hreply, -⟩ := completes_of_mem_completedBy hunhindered hreplies hentry
    simp [hreply]
  · intro entry hentry reply hreply
    obtain ⟨found, hfound, hcompletes⟩ :=
      completes_of_mem_completedBy hunhindered hreplies hentry
    obtain rfl : found = reply := Option.some.inj (hfound.symm.trans hreply)
    exact hcompletes
  · intro step answer hsome
    obtain ⟨hstops, rfl⟩ := hstopped step answer hsome
    exact hstops.fatal

end real

/-! ## The log of a course -/

/-- The log of a course holds an error exactly if its result is one. -/
theorem Course.exists_error_iff (plane : ControlPlane σ) (action : Action) (dryRun : Bool)
    (count : Nat) (course : Course) :
    (∃ error, course.result plane action = .error error) ↔
      ∃ event ∈ course.log action executionId dryRun count, event.level = .error := by
  rw [Course.log_eq, Course.result]
  cases course.stopped? with
  | none =>
      refine iff_of_false (by simp) ?_
      rintro ⟨event, hevent, hlevel⟩
      rcases List.mem_cons.mp hevent with rfl | htold
      · cases hlevel
      · rw [Option.toList_none, List.map_nil, List.append_nil] at htold
        exact level_ne_error_of_mem_toldFrom htold hlevel
  | some stopped =>
      obtain ⟨step, answer⟩ := stopped
      exact iff_of_true ⟨failure action step answer, rfl⟩
        ⟨.failed (course.completed.length + 1) count step.name (failure action step answer),
          by simp, rfl⟩

/-- A run begins its log, and the steps do the rest. -/
theorem log_execute (plane : ControlPlane σ) (action : Action) (executionId : String)
    (dryRun : Bool) (steps : List Step) (state : σ) :
    (execute plane action executionId dryRun steps state).log =
      .started executionId action steps.length dryRun ::
        (handleFrom plane action dryRun steps.length 0 steps state).log :=
  Work.log_report_bind (by simp [Event.level]) _ state

theorem log_execute_dry (steps : List Step) :
    (execute plane action executionId true steps state).log =
      Course.log action executionId true steps.length ⟨steps.map (⟨·, none⟩), none⟩ := by
  rw [log_execute, log_handleFrom_dry, Course.log_eq]
  simp

theorem log_execute_of_unhindered {replies : List Reply}
    (hunhindered : Unhindered plane action steps state)
    (hreplies : plane.answers (calls action steps) state = replies.map .ok) :
    (execute plane action executionId false steps state).log =
      Course.log action executionId false steps.length ⟨completedBy steps replies, none⟩ := by
  have hlog := log_handleFrom_append steps.length 0 [] hunhindered hreplies
  rw [List.append_nil] at hlog
  rw [log_execute, hlog, Course.log_eq]
  rfl

theorem log_execute_of_stopsAt {done : List Step} {step : Step} {replies : List Reply}
    (rest : List Step) (hstops : StopsAt plane action done step state)
    (hreplies : plane.answers (calls action done) state = replies.map .ok) :
    (execute plane action executionId false (done ++ step :: rest) state).log =
      Course.log action executionId false (done ++ step :: rest).length
        ⟨completedBy done replies, some (step, answerFor plane action done step state)⟩ := by
  have hlog := log_handleFrom_append (done ++ step :: rest).length 0 (step :: rest)
    hstops.unhindered hreplies
  have hcount : (completedBy done replies).length = done.length := by
    rw [← List.length_map (·.step), map_step_completedBy (length_replies hreplies)]
  rw [log_execute, hlog, log_handleFrom_cons_of_fatal _ _ _ hstops.fatal, Course.log_eq, hcount,
    Nat.zero_add done.length]
  rfl

theorem exists_course_execute (plane : ControlPlane σ) (action : Action) (executionId : String)
    (dryRun : Bool) (steps : List Step) (state : σ) :
    ∃ course, TakesCourse plane action dryRun steps state
        (execute plane action executionId dryRun steps state) course ∧
      (execute plane action executionId dryRun steps state).log =
        course.log action executionId dryRun steps.length := by
  cases dryRun with
  | true => exact ⟨_, takesCourse_dry executionId, log_execute_dry executionId steps⟩
  | false =>
      rcases unhindered_or_stopsAt plane action steps state with
        hunhindered | ⟨done, step, rest, rfl, hstops⟩
      · obtain ⟨replies, hreplies, -⟩ := exists_replies_of_unhindered hunhindered
        obtain ⟨hresult, hcontacts⟩ := execute_of_unhindered executionId hunhindered hreplies
        refine ⟨_, takesCourse_of_contacts hunhindered hreplies (by simp) (by simp) (fun _ => rfl)
          ?_ ?_, log_execute_of_unhindered executionId hunhindered hreplies⟩
        · rw [hcontacts]
          simp
        · rw [hresult, Course.result, map_result_completedBy]
      · obtain ⟨replies, hreplies, -⟩ := exists_replies_of_unhindered hstops.unhindered
        obtain ⟨hresult, hcontacts⟩ := execute_of_stopsAt executionId rest hstops
        refine ⟨⟨completedBy done replies, some (step, answerFor plane action done step state)⟩,
          takesCourse_of_contacts hstops.unhindered hreplies ?_ ⟨rest, by simp⟩ (by simp) hcontacts
            hresult, log_execute_of_stopsAt executionId rest hstops hreplies⟩
        rintro _ _ ⟨⟩
        exact ⟨hstops, rfl⟩

/-- A delete that is tolerated and one that fails. -/
example :
    (execute Cluster.controlPlane .delete "r" false chain
      { applied := [⟨"a.yaml"⟩]
        queues := [("delete b.yaml", [.output (.failed 1 "Error from server (NotFound): b")]),
          ("delete c.yaml", [.output (.failed 1 "refused")])] }).log =
      [.started "r" .delete 3 false, .finished 1 3 "config" .deleted .zero,
        .toleratedAbsence "server" "Error from server (NotFound): b",
        .finished 2 3 "server" .alreadyAbsent .zero,
        .failed 3 3 "service" (.commandFailed "service" .delete (some 1) "refused")] := by
  decide +kernel

end course

end Run
end Rollout
