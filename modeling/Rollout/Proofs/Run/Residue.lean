import Mathlib.Order.BooleanAlgebra.Set
import Rollout.Proofs.Run.FailFast

/-!
# Repeated runs leave nothing behind

An in-memory cluster is taken through any number of installations and uninstallations of one set of
manifests.  Each single call of a run may be answered from outside instead of by the cluster, so a
run may stop at any of its steps, whatever it has really done before, and may be deceived about what
was done.  Nothing but the files of the set is ever touched, and one uninstallation that the cluster
itself answers removes them all.

## Strategy

* **One call.**  A request changes the applied manifests as `Action.onApplied` says, or not at all
  if its answer comes from a script or from outside (`Disturbed.appliedPaths_answer`).
* **Runs and sessions.**  Both keep the applied manifests between the initial ones without and with
  the files of the set (`Within`), so all the requests of a run do, and so do all the runs of a
  session.
* **Undisturbed calls.**  Where nothing is scripted, every request takes effect and none of the
  answers is fatal (`effect_of_unscripted`).  A run that is disturbed only once has handled the
  steps before that in the same way, so it can be stopped anywhere (`run_of_disturbedOnce`).
-/

namespace Rollout

/-! ## Requests and the applied manifests -/

/-- What an action on the given files makes of the applied manifests. -/
def Action.onApplied (action : Action) (files applied : Set Path) : Set Path :=
  match action with
  | .apply => applied ∪ files
  | .delete => applied \ files

theorem Action.onApplied_empty (action : Action) (applied : Set Path) :
    action.onApplied ∅ applied = applied := by
  cases action with
  | apply => exact Set.union_empty applied
  | delete => exact Set.sdiff_empty

/-- One file after the other comes to the same as all of them together. -/
theorem Action.onApplied_onApplied (action : Action) (first second applied : Set Path) :
    action.onApplied second (action.onApplied first applied) =
      action.onApplied (first ∪ second) applied := by
  cases action with
  | apply => exact Set.union_assoc applied first second
  | delete => exact Set.sdiff_sdiff

/-- The files of the given steps. -/
def filesOf (steps : List Step) : Set Path := {path | ∃ step ∈ steps, step.file = path}

theorem filesOf_nil : filesOf [] = ∅ := by
  ext path
  simp [filesOf]

theorem filesOf_cons (step : Step) (rest : List Step) :
    filesOf (step :: rest) = {step.file} ∪ filesOf rest := by
  ext path
  simp only [filesOf, List.mem_cons, exists_eq_or_imp, Set.mem_ofPred_eq, Set.mem_union,
    Set.mem_singleton_iff]
  exact or_congr_left eq_comm

/-- The files of a set of manifests. -/
def Manifests.files (set : Manifests) : Set Path := filesOf set.steps

theorem Manifests.filesOf_order (set : Manifests) (action : Action) :
    filesOf (set.order action) = set.files := by
  ext path
  simp [Manifests.files, filesOf, (set.order_perm action).mem_iff]

namespace Cluster

/-- The applied manifests as a set. -/
def appliedPaths (cluster : Cluster) : Set Path := {path | path ∈ cluster.applied}

/-- Whether the cluster itself answers the request. -/
def Unscripted (request : Request) (cluster : Cluster) : Prop :=
  takeQueued? request.text cluster.queues = none ∧
    cluster.fixed.lookup request.operation = none

instance (request : Request) (cluster : Cluster) : Decidable (Unscripted request cluster) :=
  inferInstanceAs (Decidable (_ ∧ _))

theorem answer_of_unscripted {request : Request} {cluster : Cluster}
    (hunscripted : Unscripted request cluster) :
    answer request cluster =
      (.ok ⟨(respond request cluster).1, .zero⟩, (respond request cluster).2) := by
  simp [answer, hunscripted.1, hunscripted.2]

/-- A scripted answer leaves the applied manifests as they are. -/
theorem applied_answer_of_scripted {request : Request} {cluster : Cluster}
    (hscripted : ¬ Unscripted request cluster) :
    (answer request cluster).2.applied = cluster.applied := by
  unfold answer
  split
  · rfl
  · next hqueue =>
      split
      · rfl
      · next hfixed => exact absurd ⟨hqueue, hfixed⟩ hscripted

/-- The cluster carries out what it answers itself, and its command succeeds. -/
theorem respond_manifest (action : Action) (file : Path) (cluster : Cluster) :
    (respond (.manifest action file) cluster).1.success = true ∧
      (respond (.manifest action file) cluster).2.appliedPaths =
        action.onApplied {file} cluster.appliedPaths := by
  cases action with
  | apply =>
      refine ⟨rfl, ?_⟩
      ext path
      simp only [respond, appliedPaths, mem_applied_add, Action.onApplied, Set.mem_ofPred_eq,
        Set.mem_union, Set.mem_singleton_iff, or_comm]
  | delete =>
      by_cases hmem : file ∈ cluster.applied
      · refine ⟨by simp [respond, hmem, Output.succeeded], ?_⟩
        ext path
        simp only [respond, hmem, if_true, appliedPaths, mem_applied_remove, Action.onApplied,
          Set.mem_ofPred_eq, Set.mem_sdiff, Set.mem_singleton_iff, ne_eq, and_comm]
      · refine ⟨by simp [respond, hmem, Output.succeeded], ?_⟩
        ext path
        simp only [respond, hmem, if_false, appliedPaths, Action.onApplied, Set.mem_ofPred_eq,
          Set.mem_sdiff, Set.mem_singleton_iff]
        constructor
        · intro hpath
          exact ⟨hpath, fun heq => hmem (heq ▸ hpath)⟩
        · exact And.left

/-- A request takes effect, or its answer is scripted and nothing changes. -/
theorem appliedPaths_answer (action : Action) (file : Path) (cluster : Cluster) :
    (answer (.manifest action file) cluster).2.appliedPaths = cluster.appliedPaths ∨
      (answer (.manifest action file) cluster).2.appliedPaths =
        action.onApplied {file} cluster.appliedPaths := by
  by_cases hunscripted : Unscripted (.manifest action file) cluster
  · right
    rw [answer_of_unscripted hunscripted]
    exact (respond_manifest action file cluster).2
  · left
    rw [appliedPaths, applied_answer_of_scripted hunscripted, appliedPaths]

/-- What is scripted stays as it is while the cluster answers itself. -/
theorem unscripted_respond_iff (action : Action) (file : Path) (request : Request)
    (cluster : Cluster) :
    Unscripted request (respond (.manifest action file) cluster).2 ↔
      Unscripted request cluster := by
  have hscripts : (respond (.manifest action file) cluster).2.queues = cluster.queues ∧
      (respond (.manifest action file) cluster).2.fixed = cluster.fixed := by
    cases action with
    | apply => by_cases hmem : file ∈ cluster.applied <;> simp [respond, add, hmem]
    | delete => by_cases hmem : file ∈ cluster.applied <;> simp [respond, remove, hmem]
  rw [Unscripted, Unscripted, hscripts.1, hscripts.2]

end Cluster

/-! ## Calls that are answered from outside -/

/-- A cluster, and what its next calls meet with, one after the other: an answer from outside, of
which the cluster learns nothing, or none where the cluster answers.  It answers all later calls. -/
structure Disturbed where
  cluster : Cluster
  disturbances : List (Option (Except Failure Reply))

namespace Disturbed

/-- The manifests that are applied on the cluster. -/
def appliedPaths (disturbed : Disturbed) : Set Path := disturbed.cluster.appliedPaths

/-- The answer to a request, which uses up what stands first among the disturbances. -/
def answer (request : Request) (disturbed : Disturbed) : Except Failure Reply × Disturbed :=
  match disturbed.disturbances with
  | some foreign :: later => (foreign, ⟨disturbed.cluster, later⟩)
  | disturbances =>
      let (answered, cluster) := Cluster.answer request disturbed.cluster
      (answered, ⟨cluster, disturbances.tail⟩)

/-- The disturbed cluster as a control plane. -/
def controlPlane : ControlPlane Disturbed where
  answer := answer
  wait _ disturbed := disturbed
  render := Cluster.controlPlane.render

@[simp]
theorem answer_foreign (request : Request) (cluster : Cluster) (foreign : Except Failure Reply)
    (later : List (Option (Except Failure Reply))) :
    controlPlane.answer request ⟨cluster, some foreign :: later⟩ = (foreign, ⟨cluster, later⟩) :=
  rfl

@[simp]
theorem answer_none (request : Request) (cluster : Cluster)
    (later : List (Option (Except Failure Reply))) :
    controlPlane.answer request ⟨cluster, none :: later⟩ =
      ((Cluster.controlPlane.answer request cluster).1,
        ⟨(Cluster.controlPlane.answer request cluster).2, later⟩) :=
  rfl

/-- Whoever answers a request, it takes effect or nothing changes. -/
theorem appliedPaths_answer (action : Action) (file : Path) (disturbed : Disturbed) :
    (controlPlane.answer (.manifest action file) disturbed).2.appliedPaths =
        disturbed.appliedPaths ∨
      (controlPlane.answer (.manifest action file) disturbed).2.appliedPaths =
        action.onApplied {file} disturbed.appliedPaths := by
  obtain ⟨cluster, disturbances⟩ := disturbed
  match disturbances with
  | some foreign :: later => exact .inl rfl
  | none :: later => exact cluster.appliedPaths_answer action file
  | [] => exact cluster.appliedPaths_answer action file

end Disturbed

namespace Run

open Cluster (controlPlane Unscripted)

/-! ## Nothing foreign is touched -/

/-- The applied manifests lie between the initial ones without and with the files of the set. -/
structure Within (set : Manifests) (initial applied : Set Path) : Prop where
  keeps : initial \ set.files ⊆ applied
  adds : applied ⊆ initial ∪ set.files

theorem within_refl (set : Manifests) (initial : Set Path) : Within set initial initial :=
  ⟨Set.sdiff_subset, Set.subset_union_left⟩

/-- Actions on files of the set stay within the bounds. -/
theorem Within.onApplied {set : Manifests} {initial applied files : Set Path}
    (hwithin : Within set initial applied) (hfiles : files ⊆ set.files) (action : Action) :
    Within set initial (action.onApplied files applied) := by
  cases action with
  | apply =>
      exact ⟨hwithin.keeps.trans Set.subset_union_left,
        Set.union_subset hwithin.adds (hfiles.trans Set.subset_union_right)⟩
  | delete =>
      refine ⟨?_, Set.sdiff_subset.trans hwithin.adds⟩
      intro path hpath
      exact ⟨hwithin.keeps hpath, fun hmem => hpath.2 (hfiles hmem)⟩

/-- Whoever answers them, requests for files of the set stay within the bounds. -/
theorem Within.after_calls {set : Manifests} {initial : Set Path} {action : Action}
    {steps : List Step} {disturbed : Disturbed}
    (hwithin : Within set initial disturbed.appliedPaths) (hsteps : filesOf steps ⊆ set.files) :
    Within set initial
      (Disturbed.controlPlane.after (calls action steps) disturbed).appliedPaths := by
  induction steps generalizing disturbed with
  | nil => exact hwithin
  | cons step rest ih =>
      rw [filesOf_cons] at hsteps
      refine ih ?_ (Set.subset_union_right.trans hsteps)
      rcases disturbed.appliedPaths_answer action step.file with hsame | heffect
      · rw [hsame]
        exact hwithin
      · rw [heffect]
        exact hwithin.onApplied (Set.subset_union_left.trans hsteps) action

theorem filesOf_take_subset (steps : List Step) (count : Nat) :
    filesOf (steps.take count) ⊆ filesOf steps := by
  rintro path ⟨step, hstep, rfl⟩
  exact ⟨step, List.mem_of_mem_take hstep, rfl⟩

/-- After any number of the requests of a run, dry or not, the bounds hold. -/
theorem Within.after_contacts_run {set : Manifests} {initial : Set Path} {disturbed : Disturbed}
    (hwithin : Within set initial disturbed.appliedPaths) (action : Action) (executionId : String)
    (dryRun : Bool) (count : Nat) :
    Within set initial (Disturbed.controlPlane.after
      ((run Disturbed.controlPlane set action executionId dryRun disturbed).contacts.take count)
      disturbed).appliedPaths := by
  obtain ⟨asked, hasked⟩ := exists_contacts_execute_eq Disturbed.controlPlane action executionId
    dryRun (set.order action) disturbed
  rw [run, hasked, calls, ← List.map_take]
  refine hwithin.after_calls ?_
  rw [← set.filesOf_order action]
  exact (filesOf_take_subset _ _).trans (filesOf_take_subset _ _)

/-! ## Sessions -/

/-- What can happen in a session: a run of either action, with the disturbances that its calls meet
with, or a new script for the answers of the cluster. -/
inductive Move
  | run (action : Action) (executionId : String) (dryRun : Bool)
      (disturbances : List (Option (Except Failure Reply)))
  | script (queues : List (String × List Scripted)) (fixed : List (Operation × Scripted))

/-- The cluster after a move. -/
def Move.carryOut (set : Manifests) (cluster : Cluster) : Move → Cluster
  | run action executionId dryRun disturbances =>
      (Run.run Disturbed.controlPlane set action executionId dryRun
        ⟨cluster, disturbances⟩).state.cluster
  | script queues fixed => { cluster with queues, fixed }

/-- The cluster after the moves of a session. -/
def afterMoves (set : Manifests) (moves : List Move) (cluster : Cluster) : Cluster :=
  moves.foldl (Move.carryOut set) cluster

theorem Within.carryOut {set : Manifests} {initial : Set Path} {cluster : Cluster}
    (hwithin : Within set initial cluster.appliedPaths) (move : Move) :
    Within set initial (move.carryOut set cluster).appliedPaths := by
  cases move with
  | run action executionId dryRun disturbances =>
      let disturbed : Disturbed := ⟨cluster, disturbances⟩
      have hstart : Within set initial disturbed.appliedPaths := hwithin
      have hall := hstart.after_contacts_run action executionId dryRun
        (run Disturbed.controlPlane set action executionId dryRun disturbed).contacts.length
      rw [List.take_length, run, ← state_execute] at hall
      exact hall
  | script queues fixed => exact hwithin

theorem Within.afterMoves {set : Manifests} {initial : Set Path} {cluster : Cluster}
    (hwithin : Within set initial cluster.appliedPaths) (moves : List Move) :
    Within set initial (afterMoves set moves cluster).appliedPaths := by
  induction moves generalizing cluster with
  | nil => exact hwithin
  | cons move rest ih => exact ih (hwithin.carryOut move)

/-! ## Runs that the cluster answers -/

/-- The cluster itself answers every request that the action makes for the set. -/
def AnswersItself (set : Manifests) (action : Action) (cluster : Cluster) : Prop :=
  ∀ step ∈ set.steps, Unscripted (.manifest action step.file) cluster

instance (set : Manifests) (action : Action) (cluster : Cluster) :
    Decidable (AnswersItself set action cluster) :=
  inferInstanceAs (Decidable (∀ step ∈ set.steps, _))

/-- Requests that the cluster answers itself take effect, and none of the answers is fatal. -/
theorem effect_of_unscripted {action : Action} {steps : List Step} {cluster : Cluster}
    (hunscripted : ∀ step ∈ steps, Unscripted (.manifest action step.file) cluster) :
    Unhindered controlPlane action steps cluster ∧
      (controlPlane.after (calls action steps) cluster).appliedPaths =
        action.onApplied (filesOf steps) cluster.appliedPaths := by
  induction steps generalizing cluster with
  | nil =>
      refine ⟨unhindered_nil controlPlane action cluster, ?_⟩
      rw [filesOf_nil, Action.onApplied_empty]
      rfl
  | cons step rest ih =>
      obtain ⟨hstep, hrest⟩ := List.forall_mem_cons.mp hunscripted
      have hanswer : controlPlane.answer (.manifest action step.file) cluster =
          (.ok ⟨(Cluster.respond (.manifest action step.file) cluster).1, .zero⟩,
            (Cluster.respond (.manifest action step.file) cluster).2) :=
        Cluster.answer_of_unscripted hstep
      obtain ⟨hsuccess, happlied⟩ := Cluster.respond_manifest action step.file cluster
      obtain ⟨hunhindered, hafter⟩ :=
        ih fun later hlater => (Cluster.unscripted_respond_iff _ _ _ _).mpr (hrest later hlater)
      rw [unhindered_cons, calls_cons, controlPlane.after_asked, hanswer]
      refine ⟨⟨?_, hunhindered⟩, ?_⟩
      · rintro ⟨hfailed, -⟩
        rw [hsuccess] at hfailed
        exact absurd hfailed (by decide)
      · rw [hafter, happlied, Action.onApplied_onApplied, ← filesOf_cons]

theorem AnswersItself.order {set : Manifests} {action : Action} {cluster : Cluster}
    (hanswers : AnswersItself set action cluster) :
    ∀ step ∈ set.order action, Unscripted (.manifest action step.file) cluster :=
  fun step hstep => hanswers step ((set.order_perm action).mem_iff.mp hstep)

/-- A run that the cluster answers itself succeeds and changes exactly the files of the set. -/
theorem run_of_answersItself {set : Manifests} {action : Action} {cluster : Cluster}
    (hanswers : AnswersItself set action cluster) (executionId : String) :
    ∃ results, (run controlPlane set action executionId false cluster).result = .ok results ∧
      (run controlPlane set action executionId false cluster).state.appliedPaths =
        action.onApplied set.files cluster.appliedPaths := by
  obtain ⟨hunhindered, heffect⟩ := effect_of_unscripted hanswers.order
  obtain ⟨replies, hreplies, -⟩ := exists_replies_of_unhindered hunhindered
  obtain ⟨hresult, hcontacts⟩ := execute_of_unhindered executionId hunhindered hreplies
  refine ⟨_, hresult, ?_⟩
  rw [run, state_execute, hcontacts, heffect, set.filesOf_order]

/-! ## Runs that are disturbed once -/

/-- The cluster answers the given number of calls, and the next one meets with an answer from
outside. -/
def disturbedOnce (count : Nat) (foreign : Except Failure Reply) :
    List (Option (Except Failure Reply)) :=
  List.replicate count none ++ [some foreign]

/-- Calls that are not disturbed are those of the cluster. -/
theorem undisturbed_calls (action : Action) (steps : List Step) (cluster : Cluster)
    (later : List (Option (Except Failure Reply))) :
    let disturbed : Disturbed := ⟨cluster, List.replicate steps.length none ++ later⟩
    Disturbed.controlPlane.answers (calls action steps) disturbed =
        controlPlane.answers (calls action steps) cluster ∧
      Disturbed.controlPlane.after (calls action steps) disturbed =
        ⟨controlPlane.after (calls action steps) cluster, later⟩ := by
  induction steps generalizing cluster with
  | nil => exact ⟨rfl, rfl⟩
  | cons step rest ih =>
      obtain ⟨hanswers, hafter⟩ :=
        ih (controlPlane.answer (.manifest action step.file) cluster).2
      simp only [List.length_cons, List.replicate_succ, List.cons_append, calls_cons,
        ControlPlane.answers_asked, ControlPlane.after_asked, Disturbed.answer_none]
      exact ⟨congrArg _ hanswers, hafter⟩

/-- The run stops where it is disturbed by a fatal answer. -/
theorem stopsAt_disturbedOnce {action : Action} {done : List Step} {cluster : Cluster}
    {foreign : Except Failure Reply}
    (hunscripted : ∀ step ∈ done, Unscripted (.manifest action step.file) cluster)
    (hfatal : Fatal action foreign) (step : Step) :
    let disturbed : Disturbed := ⟨cluster, disturbedOnce done.length foreign⟩
    StopsAt Disturbed.controlPlane action done step disturbed ∧
      answerFor Disturbed.controlPlane action done step disturbed = foreign ∧
      (Disturbed.controlPlane.after (calls action (done ++ [step])) disturbed).cluster =
        controlPlane.after (calls action done) cluster := by
  intro disturbed
  obtain ⟨hanswers, hafter⟩ := undisturbed_calls action done cluster [some foreign]
  have hanswer : answerFor Disturbed.controlPlane action done step disturbed = foreign := by
    rw [answerFor, show Disturbed.controlPlane.after _ disturbed = _ from hafter,
      Disturbed.answer_foreign]
  refine ⟨⟨?_, hanswer.symm ▸ hfatal⟩, hanswer, ?_⟩
  · rw [Unhindered, show Disturbed.controlPlane.answers _ disturbed = _ from hanswers]
    exact (effect_of_unscripted hunscripted).1
  · rw [calls_append, ControlPlane.after_append,
      show Disturbed.controlPlane.after _ disturbed = _ from hafter]
    rfl

/-- A run can be stopped at any of its steps, by any fatal answer, when the cluster has handled the
steps before it. -/
theorem run_of_disturbedOnce {set : Manifests} {action : Action} {cluster : Cluster}
    {done rest : List Step} {step : Step} {foreign : Except Failure Reply}
    (horder : set.order action = done ++ step :: rest) (hfatal : Fatal action foreign)
    (hanswers : AnswersItself set action cluster) (executionId : String) :
    let trace := run Disturbed.controlPlane set action executionId false
      ⟨cluster, disturbedOnce done.length foreign⟩
    trace.result = .error (failure action step foreign) ∧
      trace.state.appliedPaths = action.onApplied (filesOf done) cluster.appliedPaths := by
  intro trace
  have hdone : ∀ step ∈ done, Unscripted (.manifest action step.file) cluster :=
    fun step hstep => hanswers.order step (horder ▸ List.mem_append_left _ hstep)
  obtain ⟨hstops, hanswer, hafter⟩ := stopsAt_disturbedOnce hdone hfatal step
  obtain ⟨hresult, hcontacts⟩ := execute_of_stopsAt executionId rest hstops
  simp only [trace, run, horder]
  refine ⟨?_, ?_⟩
  · rw [hresult, hanswer]
  · rw [state_execute, hcontacts, Disturbed.appliedPaths, hafter, (effect_of_unscripted hdone).2]

/-- Deleting the files of the set leaves the same, wherever between its bounds a session has led. -/
theorem Within.sdiff_files {set : Manifests} {initial applied : Set Path}
    (hwithin : Within set initial applied) : applied \ set.files = initial \ set.files := by
  ext path
  constructor
  · rintro ⟨hpath, hforeign⟩
    rcases hwithin.adds hpath with hinitial | hfile
    · exact ⟨hinitial, hforeign⟩
    · exact absurd hfile hforeign
  · intro hpath
    exact ⟨hwithin.keeps hpath, hpath.2⟩

/-- **Repeated runs leave nothing behind.**  Whatever session an in-memory cluster goes through, and
whatever answers from outside the calls of its runs meet with, the applied manifests stay between
the initial ones without and with the files of the set, also in the middle of a run.  A run can be
stopped at each of its steps, and has then handled exactly the files of the steps before.  An
uninstallation that the cluster answers itself succeeds all the same and leaves exactly the initial
manifests without the files of the set; such an installation succeeds and adds exactly them. -/
theorem runs_leave_no_residue (set : Manifests) (moves : List Move) (initial : Cluster)
    (executionId : String) :
    let cluster := afterMoves set moves initial
    Within set initial.appliedPaths cluster.appliedPaths ∧
    (∀ action dryRun disturbances count,
      let disturbed : Disturbed := ⟨cluster, disturbances⟩
      Within set initial.appliedPaths (Disturbed.controlPlane.after
        ((run Disturbed.controlPlane set action executionId dryRun disturbed).contacts.take count)
        disturbed).appliedPaths) ∧
    (∀ action done step rest foreign, set.order action = done ++ step :: rest →
      Fatal action foreign → AnswersItself set action cluster →
      let trace := run Disturbed.controlPlane set action executionId false
        ⟨cluster, disturbedOnce done.length foreign⟩
      trace.result = .error (failure action step foreign) ∧
        trace.state.appliedPaths = action.onApplied (filesOf done) cluster.appliedPaths) ∧
    (AnswersItself set .delete cluster →
      ∃ results, (uninstall controlPlane set executionId false cluster).result = .ok results ∧
        (uninstall controlPlane set executionId false cluster).state.appliedPaths =
          initial.appliedPaths \ set.files) ∧
    (AnswersItself set .apply cluster →
      ∃ results, (install controlPlane set executionId false cluster).result = .ok results ∧
        (install controlPlane set executionId false cluster).state.appliedPaths =
          cluster.appliedPaths ∪ set.files) := by
  intro cluster
  have hwithin : Within set initial.appliedPaths cluster.appliedPaths :=
    (within_refl set initial.appliedPaths).afterMoves moves
  refine ⟨hwithin, ?_, ?_, ?_, ?_⟩
  · intro action dryRun disturbances count disturbed
    have hstart : Within set initial.appliedPaths disturbed.appliedPaths := hwithin
    exact hstart.after_contacts_run action executionId dryRun count
  · intro action done step rest foreign horder hfatal hanswers
    exact run_of_disturbedOnce horder hfatal hanswers executionId
  · intro hanswers
    obtain ⟨results, hresult, hpaths⟩ := run_of_answersItself hanswers executionId
    refine ⟨results, hresult, ?_⟩
    rw [← hwithin.sdiff_files]
    exact hpaths
  · intro hanswers
    exact run_of_answersItself hanswers executionId

/-! ## An installation that is given up -/

/-- Three manifests, two of them in the same file. -/
def shared : Manifests :=
  ⟨[{ name := "config", file := ⟨"a.yaml"⟩, stage := .config },
    { name := "server", file := ⟨"b.yaml"⟩, stage := .workloads },
    { name := "settings", file := ⟨"a.yaml"⟩, stage := .config }]⟩

/-- A refusal that does not say that there is nothing to delete. -/
def refusal : Except Failure Reply :=
  .ok ⟨.failed 1 "Error from server (Forbidden): a", .zero⟩

/-- The installation applies the file of the first step and is refused the same file at the second.
It is rehearsed, and tried once more with a file that the cluster refuses by its own script. -/
def givenUp : List Move :=
  [.run .apply "first" false (disturbedOnce 1 refusal),
    .run .apply "second" true [],
    .script [("apply b.yaml", [.output (.failed 1 "Error from server (Forbidden): b")])] [],
    .run .apply "third" false [],
    .script [] []]

/-- The installation that was given up has left a file.  An uninstallation that is refused this file
at its second step has handled the first one, and one that is not disturbed removes everything. -/
theorem residue_of_givenUp :
    let initial : Cluster := { applied := [⟨"other.yaml"⟩] }
    let cluster := afterMoves shared givenUp initial
    cluster.applied = [⟨"a.yaml"⟩, ⟨"other.yaml"⟩] ∧
    (run Disturbed.controlPlane shared .delete "fourth" false
      ⟨cluster, disturbedOnce 1 refusal⟩).state.appliedPaths =
        cluster.appliedPaths \ filesOf [shared.steps[1]] ∧
    (uninstall controlPlane shared "fourth" false cluster).state.appliedPaths =
      initial.appliedPaths \ shared.files ∧
    (install controlPlane shared "fourth" false cluster).state.appliedPaths =
      cluster.appliedPaths ∪ shared.files := by
  intro initial cluster
  have hdelete : AnswersItself shared .delete cluster := by
    decide +kernel
  have happly : AnswersItself shared .apply cluster := by
    decide +kernel
  have horder : shared.order .delete =
      [shared.steps[1]] ++ shared.steps[2] :: [shared.steps[0]] := by
    decide +kernel
  have hfatal : Fatal .delete refusal := by
    decide +kernel
  obtain ⟨-, -, hstopped, huninstall, hinstall⟩ :=
    runs_leave_no_residue shared givenUp initial "fourth"
  obtain ⟨-, hpartly⟩ := hstopped _ _ _ _ refusal horder hfatal hdelete
  obtain ⟨-, -, hdeleted⟩ := huninstall hdelete
  obtain ⟨-, -, happlied⟩ := hinstall happly
  exact ⟨by decide +kernel, hpartly, hdeleted, happlied⟩

end Run
end Rollout
