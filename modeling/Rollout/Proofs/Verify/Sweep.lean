import Mathlib.Data.List.Forall2
import Rollout.ControlPlane.Cluster
import Rollout.Proofs.ControlPlane.History
import Rollout.Verify.Polling

/-!
# One pass of a verification

What a pass asks and what it makes of the answers, for an arbitrary control plane.

## Strategy

A `Row` has one place for each target.  The row of a pass holds what the pass has seen, and nothing
for a target that it did not ask for; the latest row holds the last answer for every target.  A pass
asks for the targets that are not ready in the latest row, unless an answer ends it (`Sweeps`).  The
first pass and the later ones differ only in where they take the latest row from, and both go
through the targets one after the other, so there is one lemma for a target that is ready and one
for a target that is not.
-/

namespace Rollout.Verify

variable {σ : Type}

/-! ## What an answer says -/

/-- What an answer to the query for a target says about its readiness. -/
inductive Shows (target : Target) : Except Failure Reply → Readiness → Prop
  | shown {reply : Reply} {object : Json} (hsuccess : reply.output.success = true)
      (hobject : Json.parse reply.output.stdout = .ok object) :
      Shows target (.ok reply) (.ofObject target.kind object)
  | absent {reply : Reply} (habsence : reply.output.meansAbsence = true) :
      Shows target (.ok reply) .missing

/-- The error with which an answer to the query for a target ends the verification. -/
inductive Ends (target : Target) : Except Failure Reply → Failure → Prop
  | unanswered (error : Failure) : Ends target (.error error) error
  | unreadable {reply : Reply} {fault : Json.Fault} (hsuccess : reply.output.success = true)
      (hfault : Json.parse reply.output.stdout = .error fault) :
      Ends target (.ok reply) (.unreadableStatus target.label fault.message)
  | refused {reply : Reply} (hfailed : reply.output.success = false)
      (hpresent : reply.output.meansAbsence = false) :
      Ends target (.ok reply)
        (.commandFailed target.step .get reply.output.exitCode? reply.output.stderr)

/-- Every answer says something or ends the verification. -/
theorem shows_or_ends (target : Target) (answer : Except Failure Reply) :
    (∃ readiness, Shows target answer readiness) ∨ ∃ error, Ends target answer error := by
  cases answer with
  | error error => exact .inr ⟨error, .unanswered error⟩
  | ok reply =>
      cases hsuccess : reply.output.success with
      | true =>
          cases hparse : Json.parse reply.output.stdout with
          | ok object => exact .inl ⟨_, .shown hsuccess hparse⟩
          | error fault => exact .inr ⟨_, .unreadable hsuccess hparse⟩
      | false =>
          cases habsence : reply.output.meansAbsence with
          | true => exact .inl ⟨_, .absent habsence⟩
          | false => exact .inr ⟨_, .refused hsuccess habsence⟩

theorem check_of_shows {plane : ControlPlane σ} {target : Target} {state : σ}
    {readiness : Readiness}
    (hshows : Shows target (plane.answer target.request state).1 readiness) :
    check plane target state =
      ⟨.ok ⟨target, readiness⟩,
        [.asked target.request, .reported (.checked target readiness)],
        (plane.answer target.request state).2⟩ := by
  generalize hanswer : (plane.answer target.request state).1 = answer at hshows
  cases hshows with
  | shown hsuccess hobject => simp [check, Trace.andThen, hanswer, judge, hsuccess, hobject]
  | @absent reply habsence =>
      have hfailed : reply.output.success = false := by
        cases hsuccess : reply.output.success with
        | true => simp [hsuccess] at habsence
        | false => rfl
      simp [check, Trace.andThen, hanswer, judge, hfailed, habsence]

theorem check_of_ends {plane : ControlPlane σ} {target : Target} {state : σ} {error : Failure}
    (hends : Ends target (plane.answer target.request state).1 error) :
    check plane target state =
      ⟨.error error, [.asked target.request], (plane.answer target.request state).2⟩ := by
  generalize hanswer : (plane.answer target.request state).1 = answer at hends
  cases hends with
  | unanswered => simp [check, Trace.andThen, hanswer]
  | unreadable hsuccess hfault => simp [check, Trace.andThen, hanswer, judge, hsuccess, hfault]
  | refused hfailed hpresent => simp [check, Trace.andThen, hanswer, judge, hfailed, hpresent]

/-! ## Equations -/

theorem nextPass_cons (plane : ControlPlane σ) (status : Status) (rest : List Status) :
    nextPass plane (status :: rest) =
      (if status.isReady then pure status else check plane status.target) >>= fun status =>
        nextPass plane rest >>= fun statuses => pure (status :: statuses) := by
  by_cases hready : status.isReady <;> simp only [nextPass, hready] <;> rfl

/-! ## What a pass may ask -/

/-- The request is a query. -/
def IsQuery (request : Request) : Prop := request.operation = .get

theorem asksOnly_check (plane : ControlPlane σ) (target : Target) :
    (check plane target).AsksOnly plane IsQuery := by
  have hquery : IsQuery target.request := rfl
  refine (Work.AsksOnly.ask hquery).bind fun reply => ?_
  cases judge target reply.output with
  | error error => exact .fail error
  | ok readiness => exact (Work.AsksOnly.report _).bind fun _ => .pure _

theorem asksOnly_firstPass (plane : ControlPlane σ) (targets : List Target) :
    (firstPass plane targets).AsksOnly plane IsQuery := by
  induction targets with
  | nil => exact .pure _
  | cons target rest ih =>
      exact (asksOnly_check plane target).bind fun _ => ih.bind fun _ => .pure _

theorem asksOnly_nextPass (plane : ControlPlane σ) (statuses : List Status) :
    (nextPass plane statuses).AsksOnly plane IsQuery := by
  induction statuses with
  | nil => exact .pure _
  | cons status rest ih =>
      rw [nextPass_cons]
      refine Work.AsksOnly.bind ?_ fun _ => ih.bind fun _ => .pure _
      split
      · exact .pure _
      · exact asksOnly_check plane status.target

/-! ## Rows -/

/-- For each target, in order, a readiness if there is one. -/
abbrev Row := List (Option Readiness)

/-- The latest row after a pass has seen something new. -/
def update (latest seen : Row) : Row := List.zipWith (fun old new => new.or old) latest seen

/-- The last answer for each target, after passes with the given rows. -/
def latest (targets : List Target) (rows : List Row) : Row :=
  rows.foldl update (targets.map fun _ => none)

/-- A pass that has seen the second row has asked exactly for what the first does not show ready. -/
def AsksForUnready (latest seen : Row) : Prop :=
  List.Forall₂ (fun old new => new.isSome = true ↔ old ≠ some .ready) latest seen

/-- Every target is ready. -/
def AllReady (latest : Row) : Prop := ∀ readiness ∈ latest, readiness = some .ready

/-- The number of targets that are not ready. -/
def unreadyCount (latest : Row) : Nat := latest.countP (· ≠ some Readiness.ready)

/-- The statuses that a pass has seen. -/
def looks (targets : List Target) (seen : Row) : List Status :=
  (targets.zip seen).filterMap fun entry => entry.2.map (Status.mk entry.1)

/-- The later pass does not ask for what the earlier one has found ready. -/
def NotAskedAgain (earlier later : Row) : Prop :=
  ∀ index : Nat, earlier[index]? = some (some .ready) →
    ∀ readiness, later[index]? ≠ some (some readiness)

theorem latest_concat (targets : List Target) (made : List Row) (row : Row) :
    latest targets (made ++ [row]) = update (latest targets made) row := by
  simp [latest]

theorem looks_cons_some (target : Target) (targets : List Target) (readiness : Readiness)
    (seen : Row) :
    looks (target :: targets) (some readiness :: seen) =
      ⟨target, readiness⟩ :: looks targets seen := rfl

theorem looks_cons_none (target : Target) (targets : List Target) (seen : Row) :
    looks (target :: targets) (none :: seen) = looks targets seen := rfl

theorem AsksForUnready.length_eq {latest seen : Row} (hasks : AsksForUnready latest seen) :
    latest.length = seen.length := List.Forall₂.length_eq hasks

/-- A pass makes one query for each target that is not ready. -/
theorem AsksForUnready.length_looks {targets : List Target} {latest seen : Row}
    (hasks : AsksForUnready latest seen) (hlength : targets.length = latest.length) :
    (looks targets seen).length = unreadyCount latest := by
  induction hasks generalizing targets with
  | nil => simp [looks, unreadyCount]
  | @cons old new latest seen hask _ ih =>
      cases targets with
      | nil => simp at hlength
      | cons target targets =>
          have hrest := ih (Nat.succ.inj hlength)
          cases new with
          | none =>
              have hold : old = some .ready := by simpa using hask
              rw [looks_cons_none, hrest]
              simp [unreadyCount, hold]
          | some readiness =>
              have hold : old ≠ some .ready := hask.mp rfl
              rw [looks_cons_some, List.length_cons, hrest]
              simp [unreadyCount, hold]

/-- A target that is ready in the latest row is not asked for and stays ready. -/
theorem AsksForUnready.of_ready {latest seen : Row} (hasks : AsksForUnready latest seen)
    {index : Nat} (hready : latest[index]? = some (some .ready)) :
    seen[index]? = some none ∧ (update latest seen)[index]? = some (some .ready) := by
  induction hasks generalizing index with
  | nil => simp at hready
  | @cons old new latest seen hask _ ih =>
      cases index with
      | succ index => exact ih hready
      | zero =>
          have hold : old = some .ready := by simpa using hready
          have hnew : new = none := by
            rw [← Option.not_isSome_iff_eq_none, hask]
            simpa using hold
          simp [update, hold, hnew]

/-! ## One pass -/

/-- The entries of a pass that has seen the given statuses. -/
def passEntries (statuses : List Status) : List Entry :=
  statuses.flatMap fun status =>
    [.asked status.target.request, .reported (.checked status.target status.readiness)]

/-- The answers say what the statuses say. -/
def Answered (statuses : List Status) (answers : List (Except Failure Reply)) : Prop :=
  List.Forall₂ (fun status answer => Shows status.target answer status.readiness) statuses answers

/-- The answers say what the statuses say, up to the last, which ends the verification. -/
def AnsweredUpTo (statuses : List Status) (target : Target) (error : Failure)
    (answers : List (Except Failure Reply)) : Prop :=
  ∃ earlier last, answers = earlier ++ [last] ∧ Answered statuses earlier ∧ Ends target last error

/-- A pass that asks for what is not ready has come as far as the second row and goes on with the
given target. -/
structure Reaches (targets : List Target) (latest seen : Row) (target : Target) : Prop where
  asks : AsksForUnready (latest.take seen.length) seen
  target_eq : targets[seen.length]? = some target
  unready : ∃ old, latest[seen.length]? = some old ∧ old ≠ some .ready

/-- A pass that has come to its end. -/
structure Swept (plane : ControlPlane σ) (targets : List Target) (latest seen : Row)
    (statuses : List Status) (trace : Trace σ (List Status)) (state : σ) : Prop where
  result_eq : trace.result = .ok statuses
  asks : AsksForUnready latest seen
  journal_eq : trace.journal = passEntries (looks targets seen)
  answered : Answered (looks targets seen) (plane.answers trace.journal state)
  targets_eq : statuses.map Status.target = targets
  latest_eq : (statuses.map fun status => some status.readiness) = update latest seen

/-- A pass that an answer has ended. -/
structure Broken (plane : ControlPlane σ) (targets : List Target) (latest seen : Row)
    (target : Target) (error : Failure) (trace : Trace σ (List Status)) (state : σ) : Prop where
  result_eq : trace.result = .error error
  reaches : Reaches targets latest seen target
  journal_eq : trace.journal = passEntries (looks targets seen) ++ [.asked target.request]
  answered : AnsweredUpTo (looks targets seen) target error (plane.answers trace.journal state)

/-- The work is a pass that asks for what is not ready in the latest row. -/
def Sweeps (plane : ControlPlane σ) (targets : List Target) (latest : Row)
    (work : Work σ (List Status)) : Prop :=
  ∀ state, (∃ seen statuses, Swept plane targets latest seen statuses (work state) state) ∨
    ∃ seen target error, Broken plane targets latest seen target error (work state) state

theorem sweeps_nil (plane : ControlPlane σ) : Sweeps plane [] [] (pure []) := by
  intro state
  exact .inl ⟨[], [], rfl, .nil, rfl, .nil, rfl, rfl⟩

section cons

variable {plane : ControlPlane σ} {targets : List Target} {latest : Row}
  {work : Work σ (List Status)}

/-- A target that is ready keeps its place without being asked for. -/
theorem Sweeps.cons_ready (hwork : Sweeps plane targets latest work) (target : Target) :
    Sweeps plane (target :: targets) (some .ready :: latest)
      (work >>= fun statuses => pure (⟨target, .ready⟩ :: statuses)) := by
  intro state
  rw [Work.bind_pure_apply]
  have hask : (none : Option Readiness).isSome = true ↔ some Readiness.ready ≠ some .ready := by
    simp
  rcases hwork state with ⟨seen, statuses, hswept⟩ | ⟨seen, stopping, error, hbroken⟩
  · refine .inl ⟨none :: seen, ⟨target, .ready⟩ :: statuses, ?_, .cons hask hswept.asks,
      hswept.journal_eq, hswept.answered, ?_, ?_⟩
    · simp [hswept.result_eq, Except.map]
    · simp [hswept.targets_eq]
    · simp [hswept.latest_eq, update]
  · refine .inr ⟨none :: seen, stopping, error, ?_, ⟨.cons hask hbroken.reaches.asks,
      hbroken.reaches.target_eq, hbroken.reaches.unready⟩, hbroken.journal_eq, hbroken.answered⟩
    simp [hbroken.result_eq, Except.map]

/-- A target that is not ready is asked for before the pass goes on. -/
theorem Sweeps.cons_unready (hwork : Sweeps plane targets latest work) (target : Target)
    {old : Option Readiness} (hold : old ≠ some .ready) :
    Sweeps plane (target :: targets) (old :: latest)
      (check plane target >>= fun status => work >>= fun statuses =>
        pure (status :: statuses)) := by
  intro state
  rcases shows_or_ends target (plane.answer target.request state).1 with
    ⟨readiness, hshows⟩ | ⟨error, hends⟩
  -- the pass goes on with the other targets
  · have hcheck := check_of_shows hshows
    have hask : (some readiness).isSome = true ↔ old ≠ some .ready := by simpa using hold
    rw [Work.bind_of_ok (by rw [hcheck]), Work.bind_pure_apply]
    simp only [hcheck]
    rcases hwork (plane.answer target.request state).2 with
      ⟨seen, statuses, hswept⟩ | ⟨seen, stopping, error, hbroken⟩
    · refine .inl ⟨some readiness :: seen, ⟨target, readiness⟩ :: statuses, ?_,
        .cons hask hswept.asks, ?_, ?_, ?_, ?_⟩
      · simp [hswept.result_eq, Except.map]
      · simp [hswept.journal_eq, looks_cons_some, passEntries]
      · exact .cons hshows hswept.answered
      · simp [hswept.targets_eq]
      · simp [hswept.latest_eq, update]
    · obtain ⟨earlier, last, hanswers, hearlier, hlast⟩ := hbroken.answered
      refine .inr ⟨some readiness :: seen, stopping, error, ?_, ⟨.cons hask hbroken.reaches.asks,
        hbroken.reaches.target_eq, hbroken.reaches.unready⟩, ?_, ?_⟩
      · simp [hbroken.result_eq, Except.map]
      · simp [hbroken.journal_eq, looks_cons_some, passEntries]
      · refine ⟨(plane.answer target.request state).1 :: earlier, last, ?_, .cons hshows hearlier,
          hlast⟩
        simpa using hanswers
  -- the pass ends here, and the row that it leaves is empty
  · have hcheck := check_of_ends hends
    rw [Work.bind_of_error (by rw [hcheck]), hcheck]
    exact .inr ⟨[], target, error, rfl, ⟨.nil, rfl, old, rfl, hold⟩, rfl, [], _, rfl, .nil, hends⟩

end cons

theorem sweeps_firstPass (plane : ControlPlane σ) (targets : List Target) :
    Sweeps plane targets (targets.map fun _ => none) (firstPass plane targets) := by
  induction targets with
  | nil => exact sweeps_nil plane
  | cons target rest ih => exact ih.cons_unready target (by simp)

theorem sweeps_nextPass (plane : ControlPlane σ) (statuses : List Status) :
    Sweeps plane (statuses.map Status.target) (statuses.map fun status => some status.readiness)
      (nextPass plane statuses) := by
  induction statuses with
  | nil => exact sweeps_nil plane
  | cons status rest ih =>
      rw [nextPass_cons]
      by_cases hready : status.isReady
      -- a status that is kept is the one that the latest row speaks of
      · obtain ⟨target, readiness⟩ := status
        have hreadiness : readiness = .ready := (Readiness.isReady_iff readiness).mp hready
        subst hreadiness
        exact ih.cons_ready target
      · have hreadiness : some status.readiness ≠ some .ready := by
          rw [ne_eq, Option.some.injEq, ← Readiness.isReady_iff]
          exact hready
        rw [if_neg hready]
        exact ih.cons_unready status.target hreadiness

end Rollout.Verify
