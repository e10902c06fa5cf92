import Mathlib.Data.List.FinRange
import Rollout.Manifest.Order

/-!
# Positions of the declaration

Steps of a set may be equal in every respect, so a step is meant as its position in the declaration.
This file says in which order the positions are installed and ties that order to the steps that
`Manifests.installOrder` lists.

## Strategy

Inserting a step leaves everything in front of it whose stage is earlier (`insertByStage_append`).
Sorting therefore collects the steps stage by stage (`sortByStage_eq_collect`), and the same can be
done with positions.  Of two positions that one comes first for which `Manifests.Precedes` holds: it
belongs to an earlier stage, or to the same stage and is declared earlier.
-/

namespace Rollout

/-- The stages are listed by rank, so that each of them divides the list. -/
theorem Stage.exists_split (stage : Stage) :
    ∃ earlier later, Stage.all = earlier ++ stage :: later ∧
      (∀ other ∈ earlier, other.rank < stage.rank) ∧
      (∀ other ∈ later, stage.rank < other.rank) := by
  cases stage with
  | config => exact ⟨[], [.workloads, .identityBindings, .services], rfl, by decide, by decide⟩
  | workloads => exact ⟨[.config], [.identityBindings, .services], rfl, by decide, by decide⟩
  | identityBindings => exact ⟨[.config, .workloads], [.services], rfl, by decide, by decide⟩
  | services => exact ⟨[.config, .workloads, .identityBindings], [], rfl, by decide, by decide⟩

theorem Stage.mem_all (stage : Stage) : stage ∈ Stage.all := by
  cases stage <;> decide

theorem Stage.pairwise_all : Stage.all.Pairwise fun first second => first.rank < second.rank := by
  decide

namespace Manifests

/-! ## Sorting collects the stages -/

/-- A step goes after the steps of earlier stages and in front of all others. -/
theorem insertByStage_append {step : Step} {before after : List Step}
    (hbefore : ∀ other ∈ before, other.stage.rank < step.stage.rank)
    (hafter : ∀ other ∈ after, step.stage.rank ≤ other.stage.rank) :
    insertByStage step (before ++ after) = before ++ step :: after := by
  induction before with
  | nil =>
      cases after with
      | nil => rfl
      | cons first rest => simp [insertByStage, hafter first (List.mem_cons_self ..)]
  | cons first rest ih =>
      have hfirst : ¬ step.stage.rank ≤ first.stage.rank :=
        not_le_of_gt (hbefore first (List.mem_cons_self ..))
      rw [List.cons_append, insertByStage, if_neg hfirst,
        ih fun other hother => hbefore other (List.mem_cons_of_mem _ hother)]
      rfl

/-- Steps of the given stages, stage by stage. -/
def collect (stages : List Stage) (steps : List Step) : List Step :=
  stages.flatMap fun stage => steps.filter fun step => step.stage = stage

theorem stage_mem_of_mem_collect {stages : List Stage} {steps : List Step} {step : Step}
    (hstep : step ∈ collect stages steps) : step.stage ∈ stages := by
  simp only [collect, List.mem_flatMap, List.mem_filter, decide_eq_true_eq] at hstep
  obtain ⟨stage, hstage, -, rfl⟩ := hstep
  exact hstage

/-- A step of none of the stages is not collected. -/
theorem collect_cons_of_not_mem {stages : List Stage} {step : Step} {rest : List Step}
    (hstep : step.stage ∉ stages) : collect stages (step :: rest) = collect stages rest := by
  unfold collect
  refine List.flatMap_congr fun stage hstage => ?_
  have hne : ¬ step.stage = stage := fun heq => hstep (heq ▸ hstage)
  simp [hne]

/-- Sorting by stage collects the steps of each stage in the order of declaration. -/
theorem sortByStage_eq_collect (steps : List Step) :
    sortByStage steps = collect Stage.all steps := by
  induction steps with
  | nil => rfl
  | cons step rest ih =>
      obtain ⟨earlier, later, hall, hearlier, hlater⟩ := step.stage.exists_split
      have hnotEarlier : step.stage ∉ earlier := fun hmem => lt_irrefl _ (hearlier _ hmem)
      have hnotLater : step.stage ∉ later := fun hmem => lt_irrefl _ (hlater _ hmem)
      have hsplit : ∀ steps, collect Stage.all steps =
          collect earlier steps ++ (collect [step.stage] steps ++ collect later steps) := by
        intro steps
        simp [collect, hall]
      have hbefore : ∀ other ∈ collect earlier rest, other.stage.rank < step.stage.rank :=
        fun other hother => hearlier _ (stage_mem_of_mem_collect hother)
      have hafter : ∀ other ∈ collect [step.stage] rest ++ collect later rest,
          step.stage.rank ≤ other.stage.rank := by
        intro other hother
        rcases List.mem_append.mp hother with hsame | hother
        · have hstage := stage_mem_of_mem_collect hsame
          rw [List.mem_singleton] at hstage
          exact (congrArg Stage.rank hstage).ge
        · exact (hlater _ (stage_mem_of_mem_collect hother)).le
      rw [sortByStage, ih, hsplit, hsplit, insertByStage_append hbefore hafter,
        collect_cons_of_not_mem hnotEarlier, collect_cons_of_not_mem hnotLater]
      simp [collect]

/-! ## Positions -/

/-- The step at a position of the declaration. -/
def stepAt (set : Manifests) (position : Fin set.size) : Step :=
  set.steps.get position

/-- Whether the step at the first position has to be installed before the one at the second: its
stage is earlier, or it is declared earlier in the same stage. -/
def Precedes (set : Manifests) (first second : Fin set.size) : Prop :=
  (set.stepAt first).stage.rank < (set.stepAt second).stage.rank ∨
    (set.stepAt first).stage = (set.stepAt second).stage ∧ first < second

/-- The positions in the order in which their steps are installed. -/
def installPositions (set : Manifests) : List (Fin set.size) :=
  Stage.all.flatMap fun stage =>
    (List.finRange set.size).filter fun position => (set.stepAt position).stage = stage

/-- The positions in the order in which an action handles their steps. -/
def positions (set : Manifests) : Action → List (Fin set.size)
  | .apply => set.installPositions
  | .delete => set.installPositions.reverse

variable (set : Manifests)

/-- The steps at these positions are the steps in the order of installation. -/
theorem map_stepAt_installPositions :
    set.installPositions.map set.stepAt = set.installOrder := by
  have hsteps : (List.finRange set.size).map set.stepAt = set.steps := List.map_get_finRange _
  rw [installOrder, sortByStage_eq_collect, collect, installPositions, List.map_flatMap]
  refine List.flatMap_congr fun stage _ => ?_
  conv_rhs => rw [← hsteps, List.filter_map]
  rfl

theorem map_stepAt_positions (action : Action) :
    (set.positions action).map set.stepAt = set.order action := by
  cases action with
  | apply => exact set.map_stepAt_installPositions
  | delete =>
      rw [positions, List.map_reverse, map_stepAt_installPositions]
      rfl

/-- Every position is installed. -/
theorem mem_installPositions (position : Fin set.size) : position ∈ set.installPositions := by
  simp [installPositions, Stage.mem_all]

/-- Positions are installed as `Precedes` says. -/
theorem pairwise_installPositions : set.installPositions.Pairwise set.Precedes := by
  rw [installPositions, List.pairwise_flatMap]
  constructor
  · intro stage _
    have hfilter := (List.pairwise_lt_finRange set.size).filter
      fun position => (set.stepAt position).stage = stage
    refine hfilter.imp_of_mem ?_
    intro first second hfirst hsecond hlt
    simp only [List.mem_filter, decide_eq_true_eq] at hfirst hsecond
    exact .inr ⟨hfirst.2.trans hsecond.2.symm, hlt⟩
  · refine Stage.pairwise_all.imp ?_
    intro first second hlt earlier hearlier later hlater
    simp only [List.mem_filter, decide_eq_true_eq] at hearlier hlater
    exact .inl (by rw [hearlier.2, hlater.2]; exact hlt)

variable {set}

/-- No two positions come before each other. -/
theorem Precedes.asymm {first second : Fin set.size} (hfirst : set.Precedes first second) :
    ¬ set.Precedes second first := by
  rintro (hrank | ⟨hstage, hlt⟩)
  · rcases hfirst with hrank' | ⟨hstage, -⟩
    · exact lt_asymm hrank hrank'
    · exact hrank.ne (congrArg Stage.rank hstage.symm)
  · rcases hfirst with hrank | ⟨-, hlt'⟩
    · exact hrank.ne (congrArg Stage.rank hstage.symm)
    · exact lt_asymm hlt hlt'

end Manifests
end Rollout
