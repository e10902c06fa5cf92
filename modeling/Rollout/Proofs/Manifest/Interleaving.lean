import Rollout.Program.Conclusion
import Rollout.Proofs.Manifest.Positions
import Rollout.Proofs.Run.FailFast

/-!
# The interleaving of the stages is immaterial

Steps may be declared in any order across the stages.  Two declarations that list the steps of each
stage in the same order are the same deployment: they are installed in the same order, and nothing
that is done with a manifest set tells them apart.

## Strategy

Sorting by stage keeps the steps of each stage as they were declared (`filter_stage_installOrder`),
and it does not look at anything else, so the order of installation is equal exactly when the
declarations agree stage by stage (`installOrder_eq_iff`).  Everything else reads a manifest set
through this order.
-/

namespace Rollout

/-- The two declarations list the steps of each stage in the same order. -/
def SameByStage (first second : List Step) : Prop :=
  ∀ stage : Stage, first.filter (·.stage = stage) = second.filter (·.stage = stage)

namespace Manifests

/-! ## The order of installation -/

theorem filter_stage_collect (stages : List Stage) (hstages : stages.Nodup) (steps : List Step)
    {stage : Stage} (hstage : stage ∈ stages) :
    (collect stages steps).filter (·.stage = stage) = steps.filter (·.stage = stage) := by
  have hother : ∀ other, other ≠ stage →
      (steps.filter (·.stage = other)).filter (·.stage = stage) = [] := by
    intro other hne
    refine List.filter_eq_nil_iff.mpr fun step hstep => ?_
    have hstep : step.stage = other := of_decide_eq_true (List.mem_filter.mp hstep).2
    simp [hstep, hne]
  induction stages with
  | nil => simp at hstage
  | cons head rest ih =>
      obtain ⟨hhead, hrest⟩ := List.nodup_cons.mp hstages
      rw [collect, List.flatMap_cons, List.filter_append, ← collect]
      rcases List.mem_cons.mp hstage with rfl | hmem
      -- the stages after it hold none of its steps
      · have hnone : (collect rest steps).filter (·.stage = stage) = [] := by
          refine List.filter_eq_nil_iff.mpr fun step hstep heq => hhead ?_
          exact of_decide_eq_true heq ▸ stage_mem_of_mem_collect hstep
        rw [hnone, List.append_nil, List.filter_filter]
        simp
      · rw [hother head (fun heq => hhead (heq ▸ hmem)), ih hrest hmem, List.nil_append]

/-- Within a stage the steps keep the order of the declaration. -/
theorem filter_stage_installOrder (set : Manifests) (stage : Stage) :
    set.installOrder.filter (·.stage = stage) = set.steps.filter (·.stage = stage) := by
  rw [installOrder, sortByStage_eq_collect]
  exact filter_stage_collect Stage.all (by decide) set.steps stage.mem_all

/-- Two declarations are installed in the same order exactly when they agree stage by stage. -/
theorem installOrder_eq_iff (first second : List Step) :
    (Manifests.mk first).installOrder = (Manifests.mk second).installOrder ↔
      SameByStage first second := by
  constructor
  · intro horder stage
    have hfirst := filter_stage_installOrder ⟨first⟩ stage
    rw [horder, filter_stage_installOrder] at hfirst
    exact hfirst.symm
  · intro hsame
    simp only [installOrder, sortByStage_eq_collect]
    exact List.flatMap_congr fun stage _ => hsame stage

section congr

variable {first second : Manifests} (horder : first.installOrder = second.installOrder)

include horder

theorem order_congr (action : Action) : first.order action = second.order action := by
  cases action with
  | apply => exact horder
  | delete => exact congrArg List.reverse horder

theorem targets_congr : first.targets = second.targets := by
  rw [targets, targets, verifiable, verifiable, horder]

theorem requirePresent_congr (isFile : Path → Bool) :
    first.requirePresent isFile = second.requirePresent isFile :=
  congrArg (requireFiles isFile) horder

variable {σ : Type} (plane : ControlPlane σ)

theorem build_congr (action : Action) : Plan.build plane first action =
    Plan.build plane second action :=
  congrArg (Plan.planFrom plane action 0) (order_congr horder action)

theorem run_congr (action : Action) (executionId : String) (dryRun : Bool) :
    Run.run plane first action executionId dryRun =
      Run.run plane second action executionId dryRun :=
  congrArg (Run.execute plane action executionId dryRun) (order_congr horder action)

theorem verify_congr (polling : Polling) :
    Verify.verify plane polling first = Verify.verify plane polling second := by
  rw [Verify.verify, Verify.verify, targets_congr horder]

/-- A command is carried out in the same way for both sets. -/
theorem carryOut_congr (surroundings : Surroundings) (occasion : Occasion) (settings : Settings)
    (command : Command) (state : σ) :
    Program.carryOut surroundings occasion plane { settings with manifests := first } command
        state =
      Program.carryOut surroundings occasion plane { settings with manifests := second } command
        state := by
  have hdeploy : ∀ (action : Action) (options : RunOptions),
      Program.deploy surroundings occasion plane { settings with manifests := first } action options
          state =
        Program.deploy surroundings occasion plane { settings with manifests := second } action
          options state := by
    intro action options
    simp only [Program.deploy, requirePresent_congr horder, run_congr horder]
    rfl
  cases command with
  | install options => exact hdeploy .apply options
  | uninstall options => exact hdeploy .delete options
  | verify options =>
      simp only [Program.carryOut, Program.verify, verify_congr horder]
      rfl
  | plan reverse => simp only [Program.carryOut, Program.plan, build_congr horder]

end congr

/-! ## Everything that is done with a set -/

variable {σ : Type}

/-- **The interleaving of the stages is immaterial.**  Declarations that agree stage by stage have
the same files looked for, the same plans, and the same runs and verifications on every control
plane: they ask the same in the same order, report the same, end with the same results or the same
error, and leave the control plane in the same state.  The same holds for every command of the
program. -/
theorem interleaving_is_immaterial {first second : List Step} (hsame : SameByStage first second)
    (surroundings : Surroundings) (occasion : Occasion) (plane : ControlPlane σ)
    (executionId : String) (state : σ) :
    (Manifests.mk first).requirePresent surroundings.isFile =
        (Manifests.mk second).requirePresent surroundings.isFile ∧
    (∀ action, Plan.build plane ⟨first⟩ action = Plan.build plane ⟨second⟩ action) ∧
    (∀ action dryRun, Run.run plane ⟨first⟩ action executionId dryRun state =
      Run.run plane ⟨second⟩ action executionId dryRun state) ∧
    (∀ polling, Verify.verify plane polling ⟨first⟩ state =
      Verify.verify plane polling ⟨second⟩ state) ∧
    ∀ (settings : Settings) (command : Command),
      Program.carryOut surroundings occasion plane { settings with manifests := ⟨first⟩ } command
          state =
        Program.carryOut surroundings occasion plane { settings with manifests := ⟨second⟩ }
          command state := by
  have horder := (installOrder_eq_iff first second).mpr hsame
  refine ⟨requirePresent_congr horder _, fun action => build_congr horder plane action,
    fun action dryRun => ?_, fun polling => ?_, fun settings command => ?_⟩
  · rw [run_congr horder]
  · rw [verify_congr horder]
  · exact carryOut_congr horder plane surroundings occasion settings command state

/-- A chain of manifests with a second step in the middle stage, declared from the last stage to the
first. -/
def shuffledChain : List Step :=
  [Run.chain[2], Run.chain[1], { Run.chain[1] with name := "agent" }, Run.chain[0]]

/-- The same steps, declared stage by stage. -/
def sortedChain : List Step :=
  [Run.chain[0], Run.chain[1], { Run.chain[1] with name := "agent" }, Run.chain[2]]

/-- On a cluster that refuses one of the deletes both declarations end in the same way. -/
theorem shuffledChain_on_guarded :
    SameByStage shuffledChain sortedChain ∧
      Run.run Cluster.controlPlane ⟨shuffledChain⟩ .delete "r" false Run.guarded =
        Run.run Cluster.controlPlane ⟨sortedChain⟩ .delete "r" false Run.guarded := by
  have hsame : SameByStage shuffledChain sortedChain := by
    intro stage
    cases stage <;> decide
  have hequal := interleaving_is_immaterial hsame ⟨fun _ => none, fun _ => .error .notFound,
    fun _ => true⟩ ⟨"r", "now"⟩ Cluster.controlPlane "r" Run.guarded
  exact ⟨hsame, hequal.2.2.1 .delete false⟩

end Manifests
end Rollout
