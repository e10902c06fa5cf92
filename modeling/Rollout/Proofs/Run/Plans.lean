import Rollout.Kubectl.Rehearsal
import Rollout.Proofs.Run.FailFast
import Rollout.Run.Plan

/-!
# Plans, dry runs and real runs agree

A plan, a dry run and a real run each walk through the order of a manifest set on their own.  This
file proves that they show and use the same commands, in the same order, for an arbitrary control
plane, and what this means for the processes that kubectl is started as.

## Strategy

A plan is built with a running position, so what is said about a plan is said about `planFrom` with
an arbitrary number of steps before it.  The journal of a dry run follows the plan entry by entry.
A real run asks for the steps up to its first fatal answer (`unhindered_or_stopsAt`), and with
kubectl every one of these requests is one launch, so `Launcher.after` says which processes a run
has started, whatever the launcher keeps in its state.
-/

namespace Rollout

variable {σ τ : Type}

/-! ## Launches -/

/-- The state of a launcher that has started a program once with each of the given arguments. -/
def Launcher.after (launcher : Launcher τ) (program : String) : List (List String) → τ → τ
  | [], state => state
  | arguments :: rest, state =>
      launcher.after program rest (launcher.launch program arguments state).2

/-- The arguments of the processes that would carry out an action on the given steps. -/
def Kubectl.Options.commands (options : Kubectl.Options) (action : Action) (steps : List Step) :
    List (List String) :=
  steps.map fun step => options.manifestArguments action step.file

namespace Plan

/-! ## The entries of a plan -/

theorem positions_planFrom (plane : ControlPlane σ) (action : Action) (completed : Nat)
    (steps : List Step) :
    (planFrom plane action completed steps).map (·.position) =
      List.range' (completed + 1) steps.length := by
  induction steps generalizing completed with
  | nil => rfl
  | cons step rest ih =>
      rw [planFrom, List.map_cons, ih, List.length_cons, List.range'_succ]

theorem entries_planFrom (plane : ControlPlane σ) (action : Action) (completed : Nat)
    (steps : List Step) :
    (planFrom plane action completed steps).map (fun entry => (entry.name, entry.command)) =
      steps.map fun step => (step.name, plane.render action step.file) := by
  induction steps generalizing completed with
  | nil => rfl
  | cons step rest ih => rw [planFrom, List.map_cons, List.map_cons, ih]

end Plan

namespace Run

/-! ## Dry runs -/

/-- What is noted about an entry of a plan over `count` steps when it is only shown. -/
def noteOf (count : Nat) (entry : PlanEntry) : Entry :=
  .reported (.finished entry.position count entry.name .planned .zero)

theorem journal_handleFrom_dry (plane : ControlPlane σ) (action : Action) (count completed : Nat)
    (steps : List Step) (state : σ) :
    (handleFrom plane action true count completed steps state).journal =
      (Plan.planFrom plane action completed steps).map (noteOf count) := by
  induction steps generalizing completed with
  | nil => rfl
  | cons step rest ih =>
      have hfirst : (Work.reportingFailure (.failed (completed + 1) count step.name)
          (handle plane action true step) state).result = .ok (planned plane action step) := rfl
      rw [handleFrom, Work.bind_of_ok hfirst, Plan.planFrom, List.map_cons]
      simp only [Work.report_bind_apply, Work.bind_pure_apply]
      exact congrArg (List.cons _) (ih (completed + 1))

/-- The run shows the plan and does nothing: its results are the entries of the plan, its journal
holds their positions, and the control plane is not asked. -/
structure Shows (plan : List PlanEntry) (action : Action) (executionId : String) (state : σ)
    (trace : Trace σ (List Completion)) : Prop where
  result_eq : ∃ results, trace.result = .ok results ∧
    results.map (fun result => (result.step, result.output)) =
      plan.map (fun entry => (entry.name, entry.command)) ∧
    ∀ result ∈ results, result.operation = action.operation ∧ result.outcome = .planned ∧
      result.elapsed = .zero
  journal_eq : trace.journal =
    .reported (.started executionId action plan.length true) :: plan.map (noteOf plan.length)
  contacts_eq_nil : trace.contacts = []
  state_eq : trace.state = state

theorem shows_run_dry (plane : ControlPlane σ) (set : Manifests) (action : Action)
    (executionId : String) (state : σ) :
    Shows (Plan.build plane set action) action executionId state
      (run plane set action executionId true state) := by
  have hlength : (Plan.build plane set action).length = (set.order action).length :=
    Plan.length_planFrom plane action 0 (set.order action)
  have hdry := @execute_dry σ plane action (set.order action) state executionId
  refine ⟨⟨_, hdry.1, ?_, ?_⟩, ?_, hdry.2, ?_⟩
  · rw [Plan.build, Plan.entries_planFrom, List.map_map]
    rfl
  · intro result hmem
    obtain ⟨step, -, rfl⟩ := List.mem_map.mp hmem
    exact ⟨rfl, rfl, rfl⟩
  · rw [hlength, run, execute, Work.report_bind_apply, journal_handleFrom_dry]
    rfl
  · rw [run, state_execute, hdry.2]
    rfl

/-! ## Real runs -/

/-- The run asks for the first `count` of the steps, and for all of them when it succeeds. -/
structure Follows (steps : List Step) (action : Action) (count : Nat)
    (trace : Trace σ (List Completion)) : Prop where
  count_le : count ≤ steps.length
  contacts_eq : trace.contacts = calls action (steps.take count)
  of_ok : ∀ results, trace.result = .ok results →
    count = steps.length ∧ results.map (·.step) = steps.map (·.name)

theorem map_step_zipWith_completion (action : Action) {steps : List Step} {replies : List Reply}
    (hlength : replies.length = steps.length) :
    (List.zipWith (completion action) steps replies).map (·.step) = steps.map (·.name) := by
  induction steps generalizing replies with
  | nil => rfl
  | cons step rest ih =>
      cases replies with
      | nil => simp at hlength
      | cons reply replies =>
          have hrest : replies.length = rest.length := by simpa using hlength
          rw [List.zipWith_cons_cons, List.map_cons, List.map_cons, ih hrest]
          rfl

theorem exists_follows_run (plane : ControlPlane σ) (set : Manifests) (action : Action)
    (executionId : String) (state : σ) :
    ∃ count, Follows (set.order action) action count
      (run plane set action executionId false state) := by
  rw [run]
  rcases unhindered_or_stopsAt plane action (set.order action) state with
    hunhindered | ⟨done, step, rest, hsplit, hstops⟩
  · obtain ⟨replies, hreplies, hlength⟩ := exists_replies_of_unhindered hunhindered
    obtain ⟨hresult, hcontacts⟩ := execute_of_unhindered executionId hunhindered hreplies
    refine ⟨(set.order action).length, Nat.le_refl _, ?_, ?_⟩
    · rw [hcontacts, List.take_length]
    · intro results hok
      rw [hresult, Except.ok.injEq] at hok
      subst hok
      exact ⟨rfl, map_step_zipWith_completion action hlength⟩
  · obtain ⟨hresult, hcontacts⟩ := execute_of_stopsAt executionId rest hstops
    rw [hsplit]
    refine ⟨done.length + 1, ?_, ?_, ?_⟩
    · simp
    · rw [hcontacts, List.take_length_add_append]
      rfl
    · intro results hok
      rw [hresult] at hok
      exact absurd hok (by simp)

/-! ## Processes -/

/-- The requests of a run are launches, one each. -/
theorem after_calls_controlPlane (launcher : Launcher τ) (options : Kubectl.Options)
    (action : Action) (steps : List Step) (state : τ) :
    (Kubectl.controlPlane launcher options).after (calls action steps) state =
      launcher.after options.binary (options.commands action steps) state := by
  induction steps generalizing state with
  | nil => rfl
  | cons step rest ih =>
      rw [calls_cons, ControlPlane.after_asked, ih]
      rfl

/-- **A plan, a dry run and a real run agree.**  The entries of the plan are the steps in order,
counted from one.  The dry run shows exactly these entries and asks for nothing.  The real run asks
for the same steps in the same order, up to some step, and for all of them when it succeeds.  With
kubectl each of these requests starts one process, and the command that the plan shows for the step
is the program and the arguments of that process, joined by single spaces. -/
theorem plan_dry_run_and_real_run_agree (plane : ControlPlane σ) (launcher : Launcher τ)
    (options : Kubectl.Options) (set : Manifests) (action : Action) (executionId : String)
    (state : σ) (start : τ) :
    let plan := Plan.build plane set action
    let kubectl := Kubectl.controlPlane launcher options
    let commands := options.commands action (set.order action)
    plan.map (·.position) = List.range' 1 set.size ∧
    plan.map (fun entry => (entry.name, entry.command)) =
      (set.order action).map (fun step => (step.name, plane.render action step.file)) ∧
    Shows plan action executionId state (run plane set action executionId true state) ∧
    (∃ count, Follows (set.order action) action count
      (run plane set action executionId false state)) ∧
    (Plan.build kubectl set action).map (·.command) =
      commands.map (fun arguments => " ".intercalate (options.binary :: arguments)) ∧
    ∃ count, Follows (set.order action) action count
        (run kubectl set action executionId false start) ∧
      (run kubectl set action executionId false start).state =
        launcher.after options.binary (commands.take count) start := by
  intro plan kubectl commands
  have hlength : (set.order action).length = set.size := by
    cases action <;> simp
  refine ⟨?_, Plan.entries_planFrom plane action 0 _, shows_run_dry plane set action executionId
    state, exists_follows_run plane set action executionId state, ?_, ?_⟩
  · rw [← hlength]
    exact Plan.positions_planFrom plane action 0 _
  · have hentries := congrArg (List.map Prod.snd) (Plan.entries_planFrom kubectl action 0
      (set.order action))
    rw [List.map_map, List.map_map] at hentries
    simp only [commands, Kubectl.Options.commands, List.map_map]
    exact hentries
  · obtain ⟨count, hfollows⟩ := exists_follows_run kubectl set action executionId start
    refine ⟨count, hfollows, ?_⟩
    have hstate : (run kubectl set action executionId false start).state =
        kubectl.after (calls action ((set.order action).take count)) start := by
      rw [← hfollows.contacts_eq]
      exact state_execute executionId false
    rw [hstate, after_calls_controlPlane]
    simp only [commands, Kubectl.Options.commands, List.map_take]

/-- With kubectl nothing is started for a dry run, and one process for each step of a real one. -/
example : [true, false].map (fun dryRun =>
    (run (Kubectl.controlPlane Rehearsal.launcher {}) ⟨chain.take 2⟩ .delete "r" dryRun
      ⟨default, [], []⟩).state.calls) =
    [[], [["delete", "-f", "b.yaml", "--ignore-not-found"],
      ["delete", "-f", "a.yaml", "--ignore-not-found"]]] := by
  decide +kernel

end Run
end Rollout
