import Rollout.Proofs.Run.RefusedDelete
import Rollout.Proofs.Run.Residue
import Rollout.Proofs.Run.Results

/-!
# What repeated runs find

Runs that an in-memory cluster answers itself.  A deletion finds what the cluster holds and no
earlier step of the run has deleted, and the results say so step by step, also when several steps
name one file.  A run that is repeated finds everything done and leaves the cluster as it is.

## Strategy

The result of a step depends on the cluster that the steps before it have led to, and of that
cluster `effect_of_unscripted` says which manifests are applied: those of the beginning without the
files that are handled already.  So the shrinking cluster need not be carried through an induction
of its own.  What is done already is `InPlace`: then a request changes nothing, and so does a run.
-/

namespace Rollout

namespace Cluster

/-- The cluster is as the action would leave it. -/
def InPlace (action : Action) (file : Path) (cluster : Cluster) : Prop :=
  match action with
  | .apply => file ∈ cluster.applied
  | .delete => file ∉ cluster.applied

/-- Doing again what is done already changes nothing. -/
theorem respond_of_inPlace {action : Action} {file : Path} {cluster : Cluster}
    (hplace : InPlace action file cluster) :
    (respond (.manifest action file) cluster).2 = cluster := by
  cases action with
  | apply => exact if_pos hplace
  | delete => exact congrArg Prod.snd (if_neg hplace)

/-- After an action on the files of a set each of them is in place. -/
theorem inPlace_of_appliedPaths {set : Manifests} {action : Action} {cluster : Cluster}
    {applied : Set Path} (hpaths : cluster.appliedPaths = action.onApplied set.files applied)
    {step : Step} (hstep : step ∈ set.steps) : InPlace action step.file cluster := by
  have hfile : step.file ∈ set.files := ⟨step, hstep, rfl⟩
  have hmem : step.file ∈ cluster.applied ↔ step.file ∈ action.onApplied set.files applied := by
    rw [← hpaths]
    rfl
  cases action with
  | apply => exact hmem.mpr (.inr hfile)
  | delete => exact fun happlied => (hmem.mp happlied).2 hfile

/-- The line about a deletion is not blank. -/
theorem isBlankText_deleted (file : Path) :
    Text.isBlankText (file.text ++ " deleted\n") = false := by
  have hline : (" deleted\n".toList.all Text.isBlank) = false := by
    decide +kernel
  rw [Text.isBlankText, String.toList_append, List.all_append, hline, Bool.and_false]

/-- The cluster says that it has deleted what it held, and nothing about what it did not hold. -/
theorem countsAs_respond_delete (file : Path) (cluster : Cluster) :
    Run.countsAs .delete (respond (.manifest .delete file) cluster).1 =
      if file ∈ cluster.applied then .deleted else .alreadyAbsent := by
  by_cases hmem : file ∈ cluster.applied
  · simp [respond, hmem, Run.countsAs, Output.succeeded, Output.meansAbsence, isBlankText_deleted]
  · simp [respond, hmem, Run.countsAs, Output.succeeded, Text.isBlankText]

end Cluster

namespace Run

open Cluster (controlPlane Unscripted InPlace)

/-! ## Requests that the cluster answers -/

section calls

variable {action : Action} {steps : List Step} {cluster : Cluster}

/-- What is scripted stays as it is while the cluster answers the requests of a run itself. -/
theorem unscripted_after_calls_iff
    (hunscripted : ∀ step ∈ steps, Unscripted (.manifest action step.file) cluster)
    (request : Request) :
    Unscripted request (controlPlane.after (calls action steps) cluster) ↔
      Unscripted request cluster := by
  induction steps generalizing cluster with
  | nil => exact Iff.rfl
  | cons step rest ih =>
      obtain ⟨hstep, hrest⟩ := List.forall_mem_cons.mp hunscripted
      have hanswer : (controlPlane.answer (.manifest action step.file) cluster).2 =
          (Cluster.respond (.manifest action step.file) cluster).2 :=
        congrArg Prod.snd (Cluster.answer_of_unscripted hstep)
      rw [calls_cons, controlPlane.after_asked, hanswer, ih fun later hlater =>
        (Cluster.unscripted_respond_iff _ _ _ _).mpr (hrest later hlater)]
      exact Cluster.unscripted_respond_iff action step.file request cluster

/-- Requests for what is done already change nothing. -/
theorem after_calls_of_inPlace
    (hunscripted : ∀ step ∈ steps, Unscripted (.manifest action step.file) cluster)
    (hplace : ∀ step ∈ steps, InPlace action step.file cluster) :
    controlPlane.after (calls action steps) cluster = cluster := by
  induction steps with
  | nil => rfl
  | cons step rest ih =>
      obtain ⟨hstep, hrest⟩ := List.forall_mem_cons.mp hunscripted
      obtain ⟨hdone, hlater⟩ := List.forall_mem_cons.mp hplace
      have hanswer : (controlPlane.answer (.manifest action step.file) cluster).2 = cluster :=
        (congrArg Prod.snd (Cluster.answer_of_unscripted hstep)).trans
          (Cluster.respond_of_inPlace hdone)
      rw [calls_cons, controlPlane.after_asked, hanswer]
      exact ih hrest hlater

theorem exists_step_of_names_eq {results : List Completion}
    (hnames : results.map (·.step) = steps.map (·.name)) {index : Nat} {result : Completion}
    (hplace : results[index]? = some result) : ∃ step, steps[index]? = some step := by
  have hname := congrArg (·[index]?) hnames
  simp only [List.getElem?_map, hplace, Option.map_some] at hname
  obtain ⟨step, hstep, -⟩ := Option.map_eq_some_iff.mp hname.symm
  exact ⟨step, hstep⟩

/-- Each result tells what the cluster has answered after the steps before it. -/
theorem exists_completion_of_unscripted
    (hunscripted : ∀ step ∈ steps, Unscripted (.manifest action step.file) cluster)
    {executionId : String} {results : List Completion}
    (hresult : (execute controlPlane action executionId false steps cluster).result = .ok results)
    {index : Nat} {result : Completion} (hplace : results[index]? = some result) :
    ∃ (step : Step) (before : Cluster), steps[index]? = some step ∧
      before.appliedPaths = action.onApplied (filesOf (steps.take index)) cluster.appliedPaths ∧
      result = completion action step
        ⟨(Cluster.respond (.manifest action step.file) before).1, .zero⟩ := by
  obtain ⟨step, hstep⟩ := exists_step_of_names_eq (ended_of_ok executionId hresult).names_eq hplace
  obtain ⟨hindex, rfl⟩ := List.getElem?_eq_some_iff.mp hstep
  have hdone : ∀ step ∈ steps.take index, Unscripted (.manifest action step.file) cluster :=
    fun step hmem => hunscripted step (List.mem_of_mem_take hmem)
  have hnext : Unscripted (.manifest action steps[index].file)
      (controlPlane.after (calls action (steps.take index)) cluster) :=
    (unscripted_after_calls_iff hdone _).mpr (hunscripted _ (List.getElem_mem hindex))
  have hanswer : answerFor controlPlane action (steps.take index) steps[index] cluster =
      .ok ⟨(Cluster.respond (.manifest action steps[index].file)
        (controlPlane.after (calls action (steps.take index)) cluster)).1, .zero⟩ :=
    congrArg Prod.fst (Cluster.answer_of_unscripted hnext)
  have hsplit : steps.take index ++ steps[index] :: steps.drop (index + 1) = steps := by
    rw [List.getElem_cons_drop, List.take_append_drop]
  rw [← hsplit] at hresult
  have hfound := getElem?_results_of_answerFor hanswer hresult
  rw [List.length_take_of_le hindex.le, hplace] at hfound
  exact ⟨_, _, hstep, (effect_of_unscripted hdone).2, Option.some.inj hfound⟩

end calls

/-! ## Outcomes -/

/-- The step at the index finds its file: it was applied, and no earlier step has deleted it. -/
def Finds (steps : List Step) (applied : Set Path) (index : Nat) : Prop :=
  ∃ step, steps[index]? = some step ∧ step.file ∈ applied ∧
    ∀ earlier ∈ steps.take index, earlier.file ≠ step.file

/-- There is one result for each step, in order.  It is a deletion when the step has found its file,
and otherwise there was nothing to delete. -/
structure TellsDeletions (steps : List Step) (applied : Set Path) (results : List Completion) :
    Prop where
  names_eq : results.map (·.step) = steps.map (·.name)
  deleted : ∀ (index : Nat) (result : Completion), results[index]? = some result →
    Finds steps applied index → result.outcome = .deleted
  alreadyAbsent : ∀ (index : Nat) (result : Completion), results[index]? = some result →
    ¬ Finds steps applied index → result.outcome = .alreadyAbsent

/-- There is one result for each step, in order, and all of them have the given outcome. -/
def AllTell (steps : List Step) (outcome : Outcome) (results : List Completion) : Prop :=
  results.map (fun result => (result.step, result.outcome)) =
    steps.map fun step => (step.name, outcome)

theorem allTell_of_names_eq {steps : List Step} {outcome : Outcome} {results : List Completion}
    (hnames : results.map (·.step) = steps.map (·.name))
    (houtcomes : ∀ result ∈ results, result.outcome = outcome) : AllTell steps outcome results := by
  have hpairs := congrArg (List.map fun name => (name, outcome)) hnames
  rw [List.map_map, List.map_map] at hpairs
  refine Eq.trans ?_ hpairs
  refine List.map_congr_left fun result hmem => ?_
  rw [houtcomes result hmem]
  rfl

section outcomes

variable {steps : List Step} {cluster : Cluster} {executionId : String} {results : List Completion}

theorem tellsDeletions_of_unscripted
    (hunscripted : ∀ step ∈ steps, Unscripted (.manifest .delete step.file) cluster)
    (hresult : (execute controlPlane .delete executionId false steps cluster).result =
      .ok results) :
    TellsDeletions steps cluster.appliedPaths results := by
  have hnames := (ended_of_ok executionId hresult).names_eq
  have houtcome : ∀ index result, results[index]? = some result →
      ∃ before : Cluster, ∃ file,
        (file ∈ before.applied ↔ Finds steps cluster.appliedPaths index) ∧
        result.outcome = if file ∈ before.applied then .deleted else .alreadyAbsent := by
    intro index result hplace
    obtain ⟨step, before, hstep, hbefore, rfl⟩ :=
      exists_completion_of_unscripted hunscripted hresult hplace
    refine ⟨before, step.file, ?_, Cluster.countsAs_respond_delete step.file before⟩
    -- the steps before this one have deleted their files
    change step.file ∈ before.appliedPaths ↔ _
    rw [hbefore]
    simp [Action.onApplied, filesOf, Finds, hstep]
  refine ⟨hnames, ?_, ?_⟩
  · intro index result hplace hfinds
    obtain ⟨before, file, hfile, hresult⟩ := houtcome index result hplace
    rw [hresult, if_pos (hfile.mpr hfinds)]
  · intro index result hplace hfinds
    obtain ⟨before, file, hfile, hresult⟩ := houtcome index result hplace
    rw [hresult, if_neg fun hmem => hfinds (hfile.mp hmem)]

/-- When none of the files is applied there is nothing to delete. -/
theorem TellsDeletions.allTell {applied : Set Path}
    (htells : TellsDeletions steps applied results)
    (habsent : ∀ step ∈ steps, step.file ∉ applied) :
    AllTell steps .alreadyAbsent results := by
  refine allTell_of_names_eq htells.names_eq fun result hmem => ?_
  obtain ⟨index, hplace⟩ := List.mem_iff_getElem?.mp hmem
  refine htells.alreadyAbsent index result hplace ?_
  rintro ⟨step, hstep, happlied, -⟩
  exact habsent step (List.mem_of_getElem? hstep) happlied

/-- What an installation has results for is applied. -/
theorem allTell_applied_of_unscripted
    (hunscripted : ∀ step ∈ steps, Unscripted (.manifest .apply step.file) cluster)
    (hresult : (execute controlPlane .apply executionId false steps cluster).result =
      .ok results) :
    AllTell steps .applied results := by
  refine allTell_of_names_eq (ended_of_ok executionId hresult).names_eq fun result hmem => ?_
  obtain ⟨index, hplace⟩ := List.mem_iff_getElem?.mp hmem
  obtain ⟨step, before, -, -, rfl⟩ := exists_completion_of_unscripted hunscripted hresult hplace
  rfl

end outcomes

/-! ## Runs and their repetition -/

section run

variable {set : Manifests} {action : Action} {cluster : Cluster}

/-- The cluster after a run is the one that all of its requests lead to. -/
theorem state_run_of_answersItself (hanswers : AnswersItself set action cluster)
    (executionId : String) :
    (run controlPlane set action executionId false cluster).state =
      controlPlane.after (calls action (set.order action)) cluster := by
  obtain ⟨hunhindered, -⟩ := effect_of_unscripted hanswers.order
  obtain ⟨replies, hreplies, -⟩ := exists_replies_of_unhindered hunhindered
  rw [run, state_execute, (execute_of_unhindered executionId hunhindered hreplies).2]

/-- After a run the cluster still answers itself, and it holds or lacks every file of the set. -/
theorem AnswersItself.after_run (hanswers : AnswersItself set action cluster)
    (executionId : String) :
    let later := (run controlPlane set action executionId false cluster).state
    AnswersItself set action later ∧ ∀ step ∈ set.steps, InPlace action step.file later := by
  intro later
  obtain ⟨-, -, hpaths⟩ := run_of_answersItself hanswers executionId
  refine ⟨fun step hstep => ?_, fun step hstep => Cluster.inPlace_of_appliedPaths hpaths hstep⟩
  rw [show later = _ from state_run_of_answersItself hanswers executionId,
    unscripted_after_calls_iff hanswers.order]
  exact hanswers step hstep

/-- A repeated run leaves the cluster as it is. -/
theorem AnswersItself.state_repeated (hanswers : AnswersItself set action cluster)
    (firstId secondId : String) :
    let later := (run controlPlane set action firstId false cluster).state
    (run controlPlane set action secondId false later).state = later := by
  intro later
  obtain ⟨hagain, hplace⟩ := hanswers.after_run firstId
  rw [state_run_of_answersItself hagain]
  exact after_calls_of_inPlace hagain.order fun step hstep =>
    hplace step ((set.order_perm action).mem_iff.mp hstep)

end run

/-- **A repeated run finds everything done.**  On a cluster that answers itself an uninstallation
succeeds and tells for each step whether it has found its file.  Repeated at once it succeeds, finds
nothing and leaves the cluster as it is.  A repeated installation succeeds, counts every step as
applied and leaves the cluster as it is, too. -/
theorem repeated_runs_find_everything_done (set : Manifests) (cluster : Cluster)
    (firstId secondId : String) :
    (AnswersItself set .delete cluster →
      let first := uninstall controlPlane set firstId false cluster
      let second := uninstall controlPlane set secondId false first.state
      (∃ results, first.result = .ok results ∧
        TellsDeletions set.uninstallOrder cluster.appliedPaths results) ∧
      (∃ results, second.result = .ok results ∧
        AllTell set.uninstallOrder .alreadyAbsent results) ∧
      second.state = first.state) ∧
    (AnswersItself set .apply cluster →
      let first := install controlPlane set firstId false cluster
      let second := install controlPlane set secondId false first.state
      (∃ results, first.result = .ok results ∧ AllTell set.installOrder .applied results) ∧
      (∃ results, second.result = .ok results ∧ AllTell set.installOrder .applied results) ∧
      second.state = first.state) := by
  constructor
  · intro hanswers first second
    obtain ⟨results, hresult, -⟩ := run_of_answersItself hanswers firstId
    obtain ⟨hagain, hplace⟩ := hanswers.after_run firstId
    obtain ⟨repeated, hrepeated, -⟩ := run_of_answersItself hagain secondId
    refine ⟨⟨results, hresult, tellsDeletions_of_unscripted hanswers.order hresult⟩,
      ⟨repeated, hrepeated, ?_⟩, hanswers.state_repeated firstId secondId⟩
    refine (tellsDeletions_of_unscripted hagain.order hrepeated).allTell fun step hstep => ?_
    exact hplace step ((set.order_perm .delete).mem_iff.mp hstep)
  · intro hanswers first second
    obtain ⟨results, hresult, -⟩ := run_of_answersItself hanswers firstId
    obtain ⟨hagain, -⟩ := hanswers.after_run firstId
    obtain ⟨repeated, hrepeated, -⟩ := run_of_answersItself hagain secondId
    exact ⟨⟨results, hresult, allTell_applied_of_unscripted hanswers.order hresult⟩,
      ⟨repeated, hrepeated, allTell_applied_of_unscripted hagain.order hrepeated⟩,
      hanswers.state_repeated firstId secondId⟩

/-- The file that two steps of `shared` name is deleted by the one that comes first. -/
theorem repetition_of_shared :
    let cluster : Cluster := { applied := [⟨"a.yaml"⟩, ⟨"other.yaml"⟩] }
    let first := uninstall controlPlane shared "first" false cluster
    let second := uninstall controlPlane shared "second" false first.state
    let installed := (install controlPlane shared "first" false cluster).state
    first.result = .ok [⟨"server", .delete, .alreadyAbsent, .zero, ""⟩,
      ⟨"settings", .delete, .deleted, .zero, "a.yaml deleted\n"⟩,
      ⟨"config", .delete, .alreadyAbsent, .zero, ""⟩] ∧
    (∃ results, second.result = .ok results ∧
      AllTell shared.uninstallOrder .alreadyAbsent results) ∧
    second.state = first.state ∧ second.state.applied = [⟨"other.yaml"⟩] ∧
    (install controlPlane shared "second" false installed).state = installed := by
  intro cluster first second installed
  have hdelete : AnswersItself shared .delete cluster := by
    decide +kernel
  have happly : AnswersItself shared .apply cluster := by
    decide +kernel
  obtain ⟨huninstalled, hinstalled⟩ :=
    repeated_runs_find_everything_done shared cluster "first" "second"
  obtain ⟨-, hresult, hstate⟩ := huninstalled hdelete
  obtain ⟨-, -, hkept⟩ := hinstalled happly
  exact ⟨by decide +kernel, hresult, hstate, by decide +kernel, hkept⟩

end Run
end Rollout
