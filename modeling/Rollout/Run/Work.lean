import Rollout.ControlPlane.Request
import Rollout.Run.Event

/-!
# Work on a control plane

A piece of work asks the control plane, waits and reports events.  Run from a state of the control
plane it leaves a trace: a result or the error that ended it, everything that happened in order, and
the state that the control plane is left in.

## Strategy

Pieces of work are joined by `andThen`.  The journal of the whole is the journal of the first part
followed by that of the second, and after an error nothing more happens.  The equations for the
three fields of a joined trace are all that a proof about a run needs.
-/

namespace Rollout

/-! ## Traces -/

/-- One thing that happened. -/
inductive Entry
  | asked (request : Request)
  | waited (interval : Duration)
  | reported (event : Event)
  deriving DecidableEq, Repr, Inhabited

/-- The request of an entry that is one. -/
def Entry.request? : Entry → Option Request
  | asked request => some request
  | _ => none

/-- The event of an entry that is one. -/
def Entry.event? : Entry → Option Event
  | reported event => some event
  | _ => none

/-- The time that passes by waiting at an entry. -/
def Entry.waiting : Entry → Duration
  | waited interval => interval
  | _ => .zero

/-- What a piece of work leaves behind. -/
structure Trace (σ α : Type) where
  /-- The result, or the error that ended the work. -/
  result : Except Failure α
  journal : List Entry
  state : σ

namespace Trace

variable {σ α β : Type}

/-- The requests of a trace, in order. -/
def requests (trace : Trace σ α) : List Request :=
  trace.journal.filterMap Entry.request?

/-- The events of a trace, in order. -/
def events (trace : Trace σ α) : List Event :=
  trace.journal.filterMap Entry.event?

/-- The time that passed by waiting. -/
def waited (trace : Trace σ α) : Duration :=
  .sum (trace.journal.map Entry.waiting)

/-- Goes on from where a trace ends, unless it ended in an error. -/
def andThen (trace : Trace σ α) (next : α → σ → Trace σ β) : Trace σ β :=
  match trace.result with
  | .error error => ⟨.error error, trace.journal, trace.state⟩
  | .ok value =>
      let later := next value trace.state
      ⟨later.result, trace.journal ++ later.journal, later.state⟩

/-- Adds an entry at the end of a trace that ended in an error. -/
def noteError (trace : Trace σ α) (event : Failure → Event) : Trace σ α :=
  match trace.result with
  | .error error => { trace with journal := trace.journal ++ [.reported (event error)] }
  | .ok _ => trace

@[simp]
theorem andThen_ok (value : α) (journal : List Entry) (state : σ) (next : α → σ → Trace σ β) :
    (Trace.mk (.ok value) journal state).andThen next =
      ⟨(next value state).result, journal ++ (next value state).journal,
        (next value state).state⟩ := rfl

@[simp]
theorem andThen_error (error : Failure) (journal : List Entry) (state : σ)
    (next : α → σ → Trace σ β) :
    (Trace.mk (.error error) journal state).andThen next = ⟨.error error, journal, state⟩ := rfl

@[simp]
theorem noteError_ok (value : α) (journal : List Entry) (state : σ)
    (event : Failure → Event) :
    (Trace.mk (.ok value) journal state).noteError event = ⟨.ok value, journal, state⟩ := rfl

@[simp]
theorem noteError_error (error : Failure) (journal : List Entry) (state : σ)
    (event : Failure → Event) :
    (Trace.mk (.error error) journal state : Trace σ α).noteError event =
      ⟨.error error, journal ++ [.reported (event error)], state⟩ := rfl

/-- Noting an error changes neither the result nor the state. -/
@[simp]
theorem result_noteError (trace : Trace σ α) (event : Failure → Event) :
    (trace.noteError event).result = trace.result := by
  cases hresult : trace.result <;> simp [noteError, hresult]

@[simp]
theorem state_noteError (trace : Trace σ α) (event : Failure → Event) :
    (trace.noteError event).state = trace.state := by
  cases hresult : trace.result <;> simp [noteError, hresult]

/-- Going on twice is going on with the two continuations joined. -/
theorem andThen_assoc {γ : Type} (trace : Trace σ α) (next : α → σ → Trace σ β)
    (last : β → σ → Trace σ γ) :
    (trace.andThen next).andThen last =
      trace.andThen fun value state => (next value state).andThen last := by
  obtain ⟨result, journal, state⟩ := trace
  cases result with
  | error error => rfl
  | ok value =>
      simp only [andThen_ok]
      cases hnext : (next value state).result <;> simp [andThen, hnext]

end Trace

/-! ## Work -/

/-- Work on a control plane with states of type `σ`. -/
def Work (σ α : Type) : Type := σ → Trace σ α

namespace Work

variable {σ α β : Type}

/-- Work that is done already. -/
def done (value : α) : Work σ α := fun state => ⟨.ok value, [], state⟩

/-- Work that cannot go on. -/
def fail (error : Failure) : Work σ α := fun state => ⟨.error error, [], state⟩

/-- Asks the control plane. -/
def ask (plane : ControlPlane σ) (request : Request) : Work σ Reply := fun state =>
  let (result, state) := plane.answer request state
  ⟨result, [.asked request], state⟩

/-- Lets time pass. -/
def pause (plane : ControlPlane σ) (interval : Duration) : Work σ Unit := fun state =>
  ⟨.ok (), [.waited interval], plane.wait interval state⟩

/-- Reports an event. -/
def report (event : Event) : Work σ Unit := fun state => ⟨.ok (), [.reported event], state⟩

/-- Work that reports an event when it fails. -/
def reportingFailure (event : Failure → Event) (work : Work σ α) : Work σ α := fun state =>
  (work state).noteError event

instance : Monad (Work σ) where
  pure := done
  bind work next := fun state => (work state).andThen next

@[simp]
theorem pure_apply (value : α) (state : σ) :
    (pure value : Work σ α) state = ⟨.ok value, [], state⟩ := rfl

@[simp]
theorem bind_apply (work : Work σ α) (next : α → Work σ β) (state : σ) :
    (work >>= next) state = (work state).andThen next := rfl

/-- Work that is done already only hands its value on. -/
theorem pure_bind (value : α) (next : α → Work σ β) : (pure value >>= next) = next value := rfl

theorem bind_assoc {γ : Type} (work : Work σ α) (next : α → Work σ β) (last : β → Work σ γ) :
    (work >>= next) >>= last = work >>= fun value => next value >>= last :=
  funext fun state => Trace.andThen_assoc (work state) next last

@[simp]
theorem fail_apply (error : Failure) (state : σ) :
    (fail error : Work σ α) state = ⟨.error error, [], state⟩ := rfl

@[simp]
theorem ask_apply (plane : ControlPlane σ) (request : Request) (state : σ) :
    ask plane request state =
      ⟨(plane.answer request state).1, [.asked request], (plane.answer request state).2⟩ := rfl

@[simp]
theorem pause_apply (plane : ControlPlane σ) (interval : Duration) (state : σ) :
    pause plane interval state = ⟨.ok (), [.waited interval], plane.wait interval state⟩ := rfl

@[simp]
theorem report_apply (event : Event) (state : σ) :
    report event state = ⟨.ok (), [.reported event], state⟩ := rfl

@[simp]
theorem reportingFailure_apply (event : Failure → Event) (work : Work σ α) (state : σ) :
    reportingFailure event work state = (work state).noteError event := rfl

/-- What is reported first stands first in the journal. -/
theorem report_bind_apply (event : Event) (next : Unit → Work σ β) (state : σ) :
    (report event >>= next) state =
      ⟨(next () state).result, .reported event :: (next () state).journal,
        (next () state).state⟩ := rfl

theorem pause_bind_apply (plane : ControlPlane σ) (interval : Duration) (next : Unit → Work σ β)
    (state : σ) :
    (pause plane interval >>= next) state =
      ⟨(next () (plane.wait interval state)).result,
        .waited interval :: (next () (plane.wait interval state)).journal,
        (next () (plane.wait interval state)).state⟩ := rfl

/-- Work that ended with a value goes on with that value. -/
theorem bind_of_ok {work : Work σ α} {next : α → Work σ β} {state : σ} {value : α}
    (hresult : (work state).result = .ok value) :
    (work >>= next) state =
      ⟨(next value (work state).state).result,
        (work state).journal ++ (next value (work state).state).journal,
        (next value (work state).state).state⟩ := by
  simp [Trace.andThen, hresult]

/-- Work that ended in an error does not go on. -/
theorem bind_of_error {work : Work σ α} {next : α → Work σ β} {state : σ} {error : Failure}
    (hresult : (work state).result = .error error) :
    (work >>= next) state = ⟨.error error, (work state).journal, (work state).state⟩ := by
  simp [Trace.andThen, hresult]

/-- Work that goes on begins with what it has done before. -/
theorem journal_prefix_bind (work : Work σ α) (next : α → Work σ β) (state : σ) :
    (work state).journal <+: ((work >>= next) state).journal := by
  cases hresult : (work state).result with
  | error error => exact ⟨[], by rw [bind_of_error hresult, List.append_nil]⟩
  | ok value => exact ⟨_, by rw [bind_of_ok hresult]⟩

/-- Work whose value is only changed afterwards. -/
theorem bind_pure_apply (work : Work σ α) (change : α → β) (state : σ) :
    (work >>= fun value => pure (change value)) state =
      ⟨(work state).result.map change, (work state).journal, (work state).state⟩ := by
  cases hresult : (work state).result <;> simp [Trace.andThen, hresult, Except.map]

end Work
end Rollout
