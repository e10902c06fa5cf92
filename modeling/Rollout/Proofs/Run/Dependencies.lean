import Rollout.Proofs.Manifest.Positions
import Rollout.Proofs.Run.FailFast

/-!
# Runs respect the order of the stages

When a manifest is applied, everything that it may depend on has been applied before it, and when it
is deleted, everything that may depend on it is gone.  However a run ends, what it has completed is
a prefix of the order in which the steps are handled.

## Strategy

The requests of a run are those for a prefix of the ordered steps, and only the last answer can be
fatal (`exists_answered`).  Requests and answers therefore have the positions of the declaration at
equal indices.  In a list ordered by an asymmetric relation a related position stands at a smaller
index (`exists_getElem?_lt_of_pairwise`), so its request has been answered, and not fatally.
-/

namespace Rollout.Run

variable {σ : Type}

/-! ## Only the last answer can be fatal -/

/-- The answers that a run has met, those that complete a step first and then at most one that is
fatal.  There is one for each of the steps that the run has asked for. -/
structure Answered (plane : ControlPlane σ) (action : Action) (steps : List Step)
    (trace : Trace σ (List Completion)) (state : σ)
    (completing fatal : List (Except Failure Reply)) : Prop where
  answers_eq : plane.answers trace.journal state = completing ++ fatal
  contacts_eq : trace.contacts = calls action (steps.take (completing ++ fatal).length)
  length_le : (completing ++ fatal).length ≤ steps.length
  completing_not_fatal : ∀ answer ∈ completing, ¬ Fatal action answer
  fatal_fatal : ∀ answer ∈ fatal, Fatal action answer
  fatal_length_le : fatal.length ≤ 1

theorem exists_answered (plane : ControlPlane σ) (action : Action) (executionId : String)
    (steps : List Step) (state : σ) :
    ∃ completing fatal, Answered plane action steps
      (execute plane action executionId false steps state) state completing fatal := by
  have hjournal := plane.answers_filter_isContact
    (execute plane action executionId false steps state).journal state
  rcases unhindered_or_stopsAt plane action steps state with
    hunhindered | ⟨done, step, rest, rfl, hstops⟩
  · obtain ⟨replies, hreplies, -⟩ := exists_replies_of_unhindered hunhindered
    obtain ⟨-, hcontacts⟩ := execute_of_unhindered executionId hunhindered hreplies
    have hlength := length_answers_calls plane action steps state
    refine ⟨plane.answers (calls action steps) state, [], ?_, ?_, ?_, hunhindered, by simp, by simp⟩
    · rw [← hjournal, ← Trace.contacts, hcontacts, List.append_nil]
    · rw [hcontacts, List.append_nil, hlength, List.take_length]
    · rw [List.append_nil, hlength]
  · obtain ⟨-, hcontacts⟩ := execute_of_stopsAt executionId rest hstops
    have hlength := length_answers_calls plane action done state
    refine ⟨plane.answers (calls action done) state, [answerFor plane action done step state],
      ?_, ?_, ?_, hstops.unhindered, by simpa using hstops.fatal, by simp⟩
    · rw [← hjournal, ← Trace.contacts, hcontacts, calls_append, plane.answers_append]
      rfl
    · rw [hcontacts, List.length_append, hlength, List.length_singleton,
        List.take_length_add_append]
      rfl
    · simp [hlength]

/-! ## Earlier positions have smaller indices -/

/-- In a list ordered by an asymmetric relation, what is related to a member stands before it. -/
theorem exists_getElem?_lt_of_pairwise {α : Type} {related : α → α → Prop} {members : List α}
    (hordered : members.Pairwise related)
    (hasymm : ∀ first second, related first second → ¬ related second first) {index : Nat}
    {earlier later : α} (hlater : members[index]? = some later) (hmem : earlier ∈ members)
    (hrelated : related earlier later) :
    ∃ smaller < index, members[smaller]? = some earlier := by
  obtain ⟨smaller, hearlier⟩ := List.getElem?_of_mem hmem
  refine ⟨smaller, ?_, hearlier⟩
  obtain ⟨hsmaller, rfl⟩ := List.getElem?_eq_some_iff.mp hearlier
  obtain ⟨hindex, rfl⟩ := List.getElem?_eq_some_iff.mp hlater
  rcases Nat.lt_trichotomy smaller index with hlt | rfl | hgt
  · exact hlt
  · exact absurd hrelated (hasymm _ _ hrelated)
  · exact absurd (List.pairwise_iff_getElem.mp hordered index smaller hindex hsmaller hgt)
      (hasymm _ _ hrelated)

/-- Whether the action handles the step at the first position before the one at the second. -/
def HandledBefore (set : Manifests) (action : Action) (first second : Fin set.size) : Prop :=
  match action with
  | .apply => set.Precedes first second
  | .delete => set.Precedes second first

theorem pairwise_positions (set : Manifests) (action : Action) :
    (set.positions action).Pairwise (HandledBefore set action) := by
  cases action with
  | apply => exact set.pairwise_installPositions
  | delete => exact List.pairwise_reverse.mpr set.pairwise_installPositions

theorem mem_positions (set : Manifests) (action : Action) (position : Fin set.size) :
    position ∈ set.positions action := by
  cases action with
  | apply => exact set.mem_installPositions position
  | delete => exact List.mem_reverse.mpr (set.mem_installPositions position)

theorem HandledBefore.asymm {set : Manifests} {action : Action} {first second : Fin set.size}
    (hfirst : HandledBefore set action first second) : ¬ HandledBefore set action second first := by
  cases action with
  | apply => exact Manifests.Precedes.asymm hfirst
  | delete => exact Manifests.Precedes.asymm hfirst

/-- The position at an index of the order is that of the step at this index. -/
theorem exists_position (set : Manifests) (action : Action) {index : Nat} {step : Step}
    (hstep : (set.order action)[index]? = some step) :
    ∃ position, (set.positions action)[index]? = some position ∧ set.stepAt position = step := by
  rw [← set.map_stepAt_positions action, List.getElem?_map, Option.map_eq_some_iff] at hstep
  exact hstep

/-! ## Requests find what they depend on -/

/-- At each request of a trace, every step that is handled before the requested one has been
answered already, in the same trace, with an output that completes it. -/
def AskedInOrder (plane : ControlPlane σ) (set : Manifests) (action : Action)
    (completes : Output → Prop) (trace : Trace σ (List Completion)) (state : σ) : Prop :=
  ∀ index < trace.requests.length, ∃ position,
    (set.positions action)[index]? = some position ∧
    trace.requests[index]? = some (.manifest action (set.stepAt position).file) ∧
    ∀ earlier, HandledBefore set action earlier position →
      ∃ smaller < index, (set.positions action)[smaller]? = some earlier ∧
        ∃ reply, (plane.answers trace.journal state)[smaller]? = some (.ok reply) ∧
          completes reply.output

/-- The positions whose requests have been answered with an output that completes the step. -/
def completedPositions (plane : ControlPlane σ) (set : Manifests) (action : Action)
    (trace : Trace σ (List Completion)) (state : σ) : List (Fin set.size) :=
  (((set.positions action).zip (plane.answers trace.journal state)).filter
    fun entry => ¬ Fatal action entry.2).map Prod.fst

theorem requests_of_answered {plane : ControlPlane σ} {action : Action} {steps : List Step}
    {trace : Trace σ (List Completion)} {state : σ} {completing fatal : List (Except Failure Reply)}
    (hanswered : Answered plane action steps trace state completing fatal) :
    trace.requests = (steps.take (completing ++ fatal).length).map fun step =>
      .manifest action step.file := by
  rw [trace.requests_eq_filterMap_contacts, hanswered.contacts_eq, filterMap_request?_calls]

theorem askedInOrder_run (plane : ControlPlane σ) (set : Manifests) (action : Action)
    (executionId : String) (state : σ) (completes : Output → Prop)
    (hcompletes : ∀ reply, ¬ Fatal action (.ok reply) → completes reply.output) :
    AskedInOrder plane set action completes (run plane set action executionId false state)
      state := by
  obtain ⟨completing, fatal, hanswered⟩ :=
    exists_answered plane action executionId (set.order action) state
  have hrequests := requests_of_answered hanswered
  intro index hindex
  have hlength : index < (completing ++ fatal).length := by
    have hbound := hindex
    rw [run, hrequests, List.length_map, List.length_take] at hbound
    omega
  have hbound : index < (set.order action).length := hlength.trans_le hanswered.length_le
  have hstep : (set.order action)[index]? = some (set.order action)[index] :=
    List.getElem?_eq_getElem hbound
  obtain ⟨position, hposition, hstepAt⟩ := exists_position set action hstep
  refine ⟨position, hposition, ?_, ?_⟩
  · rw [run, hrequests, List.getElem?_map, List.getElem?_take_of_lt hlength, hstep, hstepAt]
    rfl
  · intro earlier hearlier
    obtain ⟨smaller, hsmaller, hearlierAt⟩ :=
      exists_getElem?_lt_of_pairwise (pairwise_positions set action)
        (fun _ _ => HandledBefore.asymm) hposition (mem_positions set action earlier) hearlier
    refine ⟨smaller, hsmaller, hearlierAt, ?_⟩
    -- an answer that is not the last one is not fatal
    have hcompleting : smaller < completing.length := by
      have := hanswered.fatal_length_le
      rw [List.length_append] at hlength
      omega
    have hmem := List.getElem_mem hcompleting
    obtain ⟨reply, hreply⟩ :=
      exists_reply_of_not_fatal (hanswered.completing_not_fatal _ hmem)
    refine ⟨reply, ?_, hcompletes reply (hreply ▸ hanswered.completing_not_fatal _ hmem)⟩
    rw [run, hanswered.answers_eq, List.getElem?_append_left hcompleting,
      List.getElem?_eq_getElem hcompleting, hreply]

/-! ## What is completed -/

/-- Answers that complete a step, then fatal ones: as many positions are completed, from the
first. -/
theorem map_fst_filter_zip {α : Type} {action : Action}
    {completing fatal : List (Except Failure Reply)}
    (hcompleting : ∀ answer ∈ completing, ¬ Fatal action answer)
    (hfatal : ∀ answer ∈ fatal, Fatal action answer) (members : List α) :
    ((members.zip (completing ++ fatal)).filter fun entry => ¬ Fatal action entry.2).map Prod.fst =
      members.take completing.length := by
  induction completing generalizing members with
  | nil =>
      have hnone : (members.zip fatal).filter (fun entry => ¬ Fatal action entry.2) = [] := by
        refine List.filter_eq_nil_iff.mpr fun entry hentry => ?_
        simpa using hfatal _ (List.of_mem_zip hentry).2
      rw [List.nil_append, hnone]
      rfl
  | cons answer rest ih =>
      obtain ⟨hanswer, hrest⟩ := List.forall_mem_cons.mp hcompleting
      cases members with
      | nil => rfl
      | cons member members =>
          simp only [List.cons_append, List.zip_cons_cons, List.length_cons, List.take_succ_cons]
          rw [List.filter_cons_of_pos (by simpa using hanswer), List.map_cons, ih hrest]

theorem exists_completedPositions_eq_take (plane : ControlPlane σ) (set : Manifests)
    (action : Action) (executionId : String) (state : σ) :
    ∃ count, completedPositions plane set action
      (run plane set action executionId false state) state = (set.positions action).take count := by
  obtain ⟨completing, fatal, hanswered⟩ :=
    exists_answered plane action executionId (set.order action) state
  refine ⟨completing.length, ?_⟩
  rw [completedPositions, run, hanswered.answers_eq]
  exact map_fst_filter_zip hanswered.completing_not_fatal hanswered.fatal_fatal _

/-- **Dependencies come first.**  Whenever an installation asks to apply a manifest, every step of
an earlier stage and every step declared earlier in the same stage has been applied in this run;
whenever an uninstallation asks to delete one, every step of a later stage and every step declared
later in the same stage has been deleted in this run or found absent.  What a run completes before
it ends is a prefix of the order of installation, or a suffix of it. -/
theorem run_respects_dependencies (plane : ControlPlane σ) (set : Manifests)
    (executionId : String) (state : σ) :
    let installation := install plane set executionId false state
    let uninstallation := uninstall plane set executionId false state
    set.installPositions.map set.stepAt = set.installOrder ∧
    AskedInOrder plane set .apply (fun output => output.success = true) installation state ∧
    AskedInOrder plane set .delete
      (fun output => output.success = true ∨ output.meansAbsence = true) uninstallation state ∧
    completedPositions plane set .apply installation state <+: set.installPositions ∧
    (completedPositions plane set .delete uninstallation state).reverse <:+
      set.installPositions := by
  refine ⟨set.map_stepAt_installPositions, ?_, ?_, ?_, ?_⟩
  · exact askedInOrder_run plane set .apply executionId state _
      fun reply => (not_fatal_apply_iff reply).mp
  · exact askedInOrder_run plane set .delete executionId state _
      fun reply => (not_fatal_delete_iff reply).mp
  · obtain ⟨count, hcount⟩ := exists_completedPositions_eq_take plane set .apply executionId state
    rw [run_apply] at hcount
    rw [hcount]
    exact List.take_prefix count _
  · obtain ⟨count, hcount⟩ := exists_completedPositions_eq_take plane set .delete executionId state
    rw [run_delete] at hcount
    rw [hcount]
    -- the deleted positions stand at the start of the reversed order
    have hprefix : (set.positions .delete).take count <+: set.installPositions.reverse :=
      List.take_prefix count _
    rw [← List.reverse_suffix, List.reverse_reverse] at hprefix
    exact hprefix

end Rollout.Run
