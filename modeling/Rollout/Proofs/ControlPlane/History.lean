import Rollout.Run.Work

/-!
# The history of a control plane

Only requests and waiting change a control plane.  A journal therefore determines the state that it
leads to (`ControlPlane.after`) and the answers that were given on the way (`ControlPlane.answers`).

## Strategy

`Work.Recorded` says of a piece of work that its journal leaves out nothing that changes the control
plane.  The primitive pieces have this property and joining keeps it, so all work that is made of
them has it (`Work.AsksOnly.recorded`).  What a run leaves behind is then known as soon as its
journal is known, and of the journal only the contacts matter.
-/

namespace Rollout

/-! ## Contacts -/

/-- Whether an entry can change the control plane. -/
def Entry.isContact : Entry → Bool
  | asked _ | waited _ => true
  | reported _ => false

@[simp]
theorem filter_isContact_asked (request : Request) (rest : List Entry) :
    (Entry.asked request :: rest).filter Entry.isContact =
      .asked request :: rest.filter Entry.isContact := rfl

@[simp]
theorem filter_isContact_waited (interval : Duration) (rest : List Entry) :
    (Entry.waited interval :: rest).filter Entry.isContact =
      .waited interval :: rest.filter Entry.isContact := rfl

@[simp]
theorem filter_isContact_reported (event : Event) (rest : List Entry) :
    (Entry.reported event :: rest).filter Entry.isContact = rest.filter Entry.isContact := rfl

/-- The requests and pauses of a trace, in order. -/
def Trace.contacts {σ α : Type} (trace : Trace σ α) : List Entry :=
  trace.journal.filter Entry.isContact

/-- What is reported about an error is no contact. -/
@[simp]
theorem Trace.contacts_noteError {σ α : Type} (trace : Trace σ α) (event : Failure → Event) :
    (trace.noteError event).contacts = trace.contacts := by
  cases hresult : trace.result <;> simp [Trace.contacts, Trace.noteError, hresult]

/-- The requests of a trace are those among its contacts. -/
theorem Trace.requests_eq_filterMap_contacts {σ α : Type} (trace : Trace σ α) :
    trace.requests = trace.contacts.filterMap Entry.request? := by
  unfold Trace.requests Trace.contacts
  induction trace.journal with
  | nil => rfl
  | cons entry rest ih =>
      cases entry <;> simp [Entry.request?, List.filterMap_cons, ih]

namespace ControlPlane

variable {σ : Type} (plane : ControlPlane σ)

/-! ## States and answers along a journal -/

/-- The state that a control plane is in after the entries of a journal. -/
def after : List Entry → σ → σ
  | [], state => state
  | .asked request :: rest, state => after rest (plane.answer request state).2
  | .waited interval :: rest, state => after rest (plane.wait interval state)
  | .reported _ :: rest, state => after rest state

/-- The answers to the requests of a journal, in order. -/
def answers : List Entry → σ → List (Except Failure Reply)
  | [], _ => []
  | .asked request :: rest, state =>
      (plane.answer request state).1 :: answers rest (plane.answer request state).2
  | .waited interval :: rest, state => answers rest (plane.wait interval state)
  | .reported _ :: rest, state => answers rest state

@[simp]
theorem after_nil (state : σ) : plane.after [] state = state := rfl

@[simp]
theorem after_asked (request : Request) (rest : List Entry) (state : σ) :
    plane.after (.asked request :: rest) state =
      plane.after rest (plane.answer request state).2 := rfl

@[simp]
theorem after_waited (interval : Duration) (rest : List Entry) (state : σ) :
    plane.after (.waited interval :: rest) state =
      plane.after rest (plane.wait interval state) := rfl

@[simp]
theorem after_reported (event : Event) (rest : List Entry) (state : σ) :
    plane.after (.reported event :: rest) state = plane.after rest state := rfl

@[simp]
theorem answers_nil (state : σ) : plane.answers [] state = [] := rfl

@[simp]
theorem answers_asked (request : Request) (rest : List Entry) (state : σ) :
    plane.answers (.asked request :: rest) state =
      (plane.answer request state).1 :: plane.answers rest (plane.answer request state).2 := rfl

@[simp]
theorem answers_waited (interval : Duration) (rest : List Entry) (state : σ) :
    plane.answers (.waited interval :: rest) state =
      plane.answers rest (plane.wait interval state) := rfl

@[simp]
theorem answers_reported (event : Event) (rest : List Entry) (state : σ) :
    plane.answers (.reported event :: rest) state = plane.answers rest state := rfl

/-- A journal in two parts leads through the state between them. -/
theorem after_append (first second : List Entry) (state : σ) :
    plane.after (first ++ second) state = plane.after second (plane.after first state) := by
  induction first generalizing state with
  | nil => rfl
  | cons entry rest ih => cases entry <;> exact ih _

theorem answers_append (first second : List Entry) (state : σ) :
    plane.answers (first ++ second) state =
      plane.answers first state ++ plane.answers second (plane.after first state) := by
  induction first generalizing state with
  | nil => rfl
  | cons entry rest ih => cases entry <;> simp [ih]

/-- Every request is answered once. -/
theorem length_answers (journal : List Entry) (state : σ) :
    (plane.answers journal state).length = (journal.filterMap Entry.request?).length := by
  induction journal generalizing state with
  | nil => rfl
  | cons entry rest ih => cases entry <;> simp [Entry.request?, List.filterMap_cons, ih]

/-- Only contacts change the state. -/
theorem after_filter_isContact (journal : List Entry) (state : σ) :
    plane.after (journal.filter Entry.isContact) state = plane.after journal state := by
  induction journal generalizing state with
  | nil => rfl
  | cons entry rest ih => cases entry <;> simp [ih]

theorem answers_filter_isContact (journal : List Entry) (state : σ) :
    plane.answers (journal.filter Entry.isContact) state = plane.answers journal state := by
  induction journal generalizing state with
  | nil => rfl
  | cons entry rest ih => cases entry <;> simp [ih]

end ControlPlane

/-! ## Work whose journal leaves nothing out -/

namespace Work

variable {σ α β : Type} {plane : ControlPlane σ}

/-- The journal of the work leads to the state that the work leaves behind. -/
def Recorded (plane : ControlPlane σ) (work : Work σ α) : Prop :=
  ∀ state, (work state).state = plane.after (work state).journal state

theorem recorded_pure (value : α) : Recorded plane (pure value) := fun _ => rfl

theorem recorded_fail (error : Failure) : Recorded plane (fail error : Work σ α) := fun _ => rfl

theorem recorded_report (event : Event) : Recorded plane (report event) := fun _ => rfl

theorem recorded_ask (request : Request) : Recorded plane (ask plane request) := fun _ => rfl

theorem recorded_pause (interval : Duration) : Recorded plane (pause plane interval) :=
  fun _ => rfl

/-- Joining two pieces of work joins their journals. -/
theorem Recorded.bind {work : Work σ α} {next : α → Work σ β} (hwork : Recorded plane work)
    (hnext : ∀ value, Recorded plane (next value)) : Recorded plane (work >>= next) := by
  intro state
  cases hresult : (work state).result with
  | error error =>
      rw [bind_of_error hresult]
      exact hwork state
  | ok value =>
      rw [bind_of_ok hresult, plane.after_append, ← hwork state]
      exact hnext value (work state).state

theorem Recorded.reportingFailure {work : Work σ α} (hwork : Recorded plane work)
    (event : Failure → Event) : Recorded plane (Work.reportingFailure event work) := by
  intro state
  have hcontacts := Trace.contacts_noteError (work state) event
  rw [reportingFailure_apply, Trace.state_noteError, hwork state,
    ← plane.after_filter_isContact ((work state).noteError event).journal]
  rw [← plane.after_filter_isContact (work state).journal]
  exact congrArg (plane.after · state) hcontacts.symm

/-- The state that recorded work leaves behind is the one that its contacts lead to. -/
theorem Recorded.state_eq_after_contacts {work : Work σ α} (hwork : Recorded plane work)
    (state : σ) : (work state).state = plane.after (work state).contacts state := by
  rw [hwork state, Trace.contacts, plane.after_filter_isContact]

/-! ## Work that asks only what it may -/

/-- The work is put together from the primitive pieces, and all its requests are permitted. -/
inductive AsksOnly (plane : ControlPlane σ) (permitted : Request → Prop) :
    {α : Type} → Work σ α → Prop
  | pure {α : Type} (value : α) : AsksOnly plane permitted (Pure.pure value : Work σ α)
  | fail {α : Type} (error : Failure) : AsksOnly plane permitted (Work.fail error : Work σ α)
  | report (event : Event) : AsksOnly plane permitted (Work.report event)
  | pause (interval : Duration) : AsksOnly plane permitted (Work.pause plane interval)
  | ask {request : Request} (hpermitted : permitted request) :
      AsksOnly plane permitted (Work.ask plane request)
  | bind {α β : Type} {work : Work σ α} {next : α → Work σ β}
      (hwork : AsksOnly plane permitted work)
      (hnext : ∀ value, AsksOnly plane permitted (next value)) :
      AsksOnly plane permitted (work >>= next)
  | reportingFailure {α : Type} {work : Work σ α} (hwork : AsksOnly plane permitted work)
      (event : Failure → Event) : AsksOnly plane permitted (Work.reportingFailure event work)

variable {permitted : Request → Prop}

/-- The primitive pieces leave nothing out of the journal, and so does what is made of them. -/
theorem AsksOnly.recorded {work : Work σ α} (hwork : AsksOnly plane permitted work) :
    Recorded plane work := by
  induction hwork with
  | pure value => exact recorded_pure value
  | fail error => exact recorded_fail error
  | report event => exact recorded_report event
  | pause interval => exact recorded_pause interval
  | ask _ => exact recorded_ask _
  | bind _ _ ihwork ihnext => exact ihwork.bind ihnext
  | reportingFailure _ event ih => exact ih.reportingFailure event

theorem AsksOnly.permitted_of_mem {work : Work σ α} (hwork : AsksOnly plane permitted work)
    {state : σ} {request : Request} (hrequest : request ∈ (work state).requests) :
    permitted request := by
  induction hwork generalizing state with
  | pure | fail | report | pause => simp [Trace.requests, Entry.request?] at hrequest
  | @ask asked hpermitted =>
      have heq : request = asked := by simpa [Trace.requests, Entry.request?] using hrequest
      exact heq ▸ hpermitted
  | @bind _ _ work next _ _ ihwork ihnext =>
      cases hresult : (work state).result with
      | error error =>
          rw [bind_of_error hresult] at hrequest
          exact ihwork hrequest
      | ok value =>
          rw [bind_of_ok hresult, Trace.requests, List.filterMap_append] at hrequest
          rcases List.mem_append.mp hrequest with hfirst | hsecond
          · exact ihwork hfirst
          · exact ihnext value hsecond
  | @reportingFailure _ work _ event ih =>
      rw [Trace.requests_eq_filterMap_contacts, reportingFailure_apply, Trace.contacts_noteError,
        ← Trace.requests_eq_filterMap_contacts] at hrequest
      exact ih hrequest

end Work
end Rollout
