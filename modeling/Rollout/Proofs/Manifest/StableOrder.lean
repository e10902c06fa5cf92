import Mathlib.Data.List.Perm.Basic
import Rollout.Proofs.Manifest.Interleaving

/-!
# The orders of a manifest set

What the order of installation is, and that nothing else is: every declared step once, earlier
stages first, and the steps of a stage as they were declared.  The order of uninstallation and the
list of verifiable steps follow from it, and none of the three depends on the directory in which the
files are looked up.

## Strategy

A list that is sorted by stage is its own sort (`sortByStage_of_sorted`), and a sort is made of the
steps of each stage (`sortByStage_eq_collect`).  Two sorted lists with the same steps in each stage
are therefore equal (`byStage_iff`).  Equal steps may be declared several times, so the same is said
of positions, which are never equal (`arranged_iff`).  Leaving out steps and changing their files
both act on each stage by itself (`installOrder_restrict`, `installOrder_map`).
-/

namespace Rollout

/-- Whether a step declares both the kind and the name of an object. -/
def Step.namesObject (step : Step) : Bool :=
  step.kind?.isSome && step.resource?.isSome

theorem Step.isSome_target? (step : Step) : step.target?.isSome = step.namesObject := by
  rw [Bool.eq_iff_iff, isSome_target?_iff, namesObject, Bool.and_eq_true]

namespace Manifests

/-! ## What an order by stage is -/

/-- A list has the declared steps, none of a later stage before one of an earlier stage, and those
of each stage as they were declared. -/
structure ByStage (declared ordered : List Step) : Prop where
  perm : ordered.Perm declared
  sorted : ordered.Pairwise fun first second => first.stage.rank ≤ second.stage.rank
  stable : ∀ stage : Stage, ordered.filter (·.stage = stage) = declared.filter (·.stage = stage)

/-- A list has every position of the declaration once, and no position before one that has to be
installed before it. -/
structure Arranged (set : Manifests) (positions : List (Fin set.size)) : Prop where
  perm : positions.Perm (List.finRange set.size)
  inOrder : positions.Pairwise set.Precedes

/-- The set of those steps that are kept. -/
def restrict (set : Manifests) (keep : Step → Bool) : Manifests :=
  ⟨set.steps.filter keep⟩

/-! ## The order of installation is the only one -/

/-- Sorting leaves a list alone that is sorted already. -/
theorem sortByStage_of_sorted {ordered : List Step}
    (hsorted : ordered.Pairwise fun first second => first.stage.rank ≤ second.stage.rank) :
    sortByStage ordered = ordered := by
  induction ordered with
  | nil => rfl
  | cons step rest ih =>
      obtain ⟨hstep, hrest⟩ := List.pairwise_cons.mp hsorted
      have hfront : insertByStage step ([] ++ rest) = [] ++ step :: rest :=
        insertByStage_append (by simp) hstep
      rw [sortByStage, ih hrest]
      exact hfront

theorem pairwise_rank_installOrder (set : Manifests) :
    set.installOrder.Pairwise fun first second => first.stage.rank ≤ second.stage.rank := by
  rw [← map_stepAt_installPositions, List.pairwise_map]
  refine set.pairwise_installPositions.imp ?_
  intro first second hprecedes
  rcases hprecedes with hrank | ⟨hstage, -⟩
  · exact hrank.le
  · exact (congrArg Stage.rank hstage).le

/-- The order of installation is the only order by stage. -/
theorem byStage_iff (set : Manifests) (ordered : List Step) :
    ByStage set.steps ordered ↔ ordered = set.installOrder := by
  constructor
  · rintro ⟨-, hsorted, hstable⟩
    calc ordered = sortByStage ordered := (sortByStage_of_sorted hsorted).symm
      _ = set.installOrder := (installOrder_eq_iff ordered set.steps).mpr hstable
  · rintro rfl
    exact ⟨set.order_perm .apply, set.pairwise_rank_installOrder, set.filter_stage_installOrder⟩

/-- Every position is installed once. -/
theorem arranged_installPositions (set : Manifests) : set.Arranged set.installPositions := by
  have hnodup : set.installPositions.Nodup := by
    refine set.pairwise_installPositions.imp ?_
    rintro first second hprecedes rfl
    exact hprecedes.asymm hprecedes
  refine ⟨?_, set.pairwise_installPositions⟩
  rw [List.perm_ext_iff_of_nodup hnodup (List.nodup_finRange _)]
  intro position
  simp [mem_installPositions]

/-- The positions can be arranged in one way only. -/
theorem arranged_iff (set : Manifests) (positions : List (Fin set.size)) :
    set.Arranged positions ↔ positions = set.installPositions := by
  constructor
  · intro harranged
    have hinstall := set.arranged_installPositions
    refine List.Perm.eq_of_pairwise ?_ harranged.inOrder hinstall.inOrder
      (harranged.perm.trans hinstall.perm.symm)
    intro first second _ _ hfirst hsecond
    exact absurd hsecond hfirst.asymm
  · rintro rfl
    exact set.arranged_installPositions

/-! ## Parts of a set, and other directories -/

/-- Leaving out steps leaves them out of the order. -/
theorem installOrder_restrict (set : Manifests) (keep : Step → Bool) :
    (set.restrict keep).installOrder = set.installOrder.filter keep := by
  rw [installOrder, installOrder, sortByStage_eq_collect, sortByStage_eq_collect, collect, collect,
    List.filter_flatMap]
  exact List.flatMap_congr fun stage _ => List.filter_comm ..

/-- A change of the steps that keeps their stages changes the steps where they are. -/
theorem installOrder_map (steps : List Step) {change : Step → Step}
    (hchange : ∀ step, (change step).stage = step.stage) :
    (Manifests.mk (steps.map change)).installOrder =
      (Manifests.mk steps).installOrder.map change := by
  rw [installOrder, installOrder, sortByStage_eq_collect, sortByStage_eq_collect, collect, collect,
    List.map_flatMap]
  refine List.flatMap_congr fun stage _ => ?_
  rw [List.filter_map]
  simp only [Function.comp_def, hchange]

theorem installOrder_resolve (base : Path) (steps : List Step) :
    (resolve base steps).installOrder =
      (Manifests.mk steps).installOrder.map (Step.resolve base) :=
  installOrder_map steps (Step.stage_resolve base)

theorem verifiable_eq_filter (set : Manifests) :
    set.verifiable = set.installOrder.filter Step.namesObject :=
  List.filter_congr fun step _ => step.isSome_target?

/-! ## All orders -/

/-- **The stages and the declaration determine every order.**

* The order of installation has every declared step once, by stage, and as declared within a stage;
  it is the only such list, and it is the steps of the four stages one after the other.  Said of
  positions, so that equal steps are told apart, it is the only arrangement of them.
* The order of uninstallation is its reverse, and so it is within each stage.
* The verifiable steps are those of that order that name an object, and they are ordered as if there
  were no others.
* Looking up the files in a directory changes the files in each of these lists and nothing else. -/
theorem stages_determine_every_order (set : Manifests) (base : Path) :
    ((∀ ordered, ByStage set.steps ordered ↔ ordered = set.installOrder) ∧
      set.installOrder = [Stage.config, .workloads, .identityBindings, .services].flatMap
        (fun stage => set.steps.filter (·.stage = stage)) ∧
      (∀ positions, set.Arranged positions ↔ positions = set.installPositions) ∧
      set.installPositions.map set.stepAt = set.installOrder) ∧
    (set.uninstallOrder = set.installOrder.reverse ∧
      set.installPositions.reverse.map set.stepAt = set.uninstallOrder ∧
      ∀ stage : Stage, set.uninstallOrder.filter (·.stage = stage) =
        (set.steps.filter (·.stage = stage)).reverse) ∧
    (set.verifiable = set.installOrder.filter Step.namesObject ∧
      set.verifiable = (set.restrict Step.namesObject).installOrder) ∧
    (resolve base set.steps).installOrder = set.installOrder.map (Step.resolve base) ∧
    (resolve base set.steps).uninstallOrder = set.uninstallOrder.map (Step.resolve base) ∧
    (resolve base set.steps).verifiable = set.verifiable.map (Step.resolve base) := by
  have hinstall : (resolve base set.steps).installOrder =
      set.installOrder.map (Step.resolve base) := installOrder_resolve base set.steps
  refine ⟨⟨set.byStage_iff, sortByStage_eq_collect set.steps, set.arranged_iff,
    set.map_stepAt_installPositions⟩, ⟨rfl, set.map_stepAt_positions .delete, ?_⟩,
    ⟨set.verifiable_eq_filter, ?_⟩, hinstall, ?_, ?_⟩
  · intro stage
    rw [uninstallOrder, List.filter_reverse, filter_stage_installOrder]
  · rw [verifiable_eq_filter, installOrder_restrict]
  · rw [uninstallOrder, hinstall, uninstallOrder, List.map_reverse]
  · rw [verifiable, hinstall, List.filter_map]
    rfl

end Manifests
end Rollout
