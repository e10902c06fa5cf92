import Mathlib.Data.List.Induction
import Rollout.Proofs.Verify.Sweep

/-!
# Verification asks for what is not ready

What a verification asks, when it waits and what it reports, for an arbitrary control plane whose
answers may depend on everything that came before.

## Strategy

The passes that were made so far, the journal that they have left and what the answers have said are
kept together by `Progress`, which one more pass preserves.  The loop is an induction on the passes
that are left; it carries the statuses along, which hold the latest row.
-/

namespace Rollout

/-- The interval of an entry that is a pause. -/
def Entry.pause? : Entry → Option Duration
  | waited interval => some interval
  | _ => none

namespace Verify

variable {σ : Type}

/-! ## What a verification may ask -/

theorem poll_of_not_allReady (plane : ControlPlane σ) (interval : Duration)
    (remaining passes : Nat) {statuses : List Status}
    (hready : (Verification.mk statuses passes).allReady = false) :
    let report : Verification := ⟨statuses, passes⟩
    poll plane interval (remaining + 1) passes statuses =
      Work.report (.postponed report.pending.length interval) >>= fun _ =>
        Work.pause plane interval >>= fun _ =>
          nextPass plane statuses >>= poll plane interval remaining (passes + 1) := by
  simp only [poll, hready]
  rfl

theorem asksOnly_poll (plane : ControlPlane σ) (interval : Duration) (remaining passes : Nat)
    (statuses : List Status) :
    (poll plane interval remaining passes statuses).AsksOnly plane IsQuery := by
  induction remaining generalizing passes statuses with
  | zero => exact .pure _
  | succ remaining ih =>
      cases hready : (Verification.mk statuses passes).allReady with
      | true =>
          rw [poll_of_allReady plane interval (remaining + 1) passes hready]
          exact .pure _
      | false =>
          rw [poll_of_not_allReady plane interval remaining passes hready]
          exact (Work.AsksOnly.report _).bind fun _ => (Work.AsksOnly.pause _).bind fun _ =>
            (asksOnly_nextPass plane statuses).bind fun later => ih _ later

theorem asksOnly_verify (plane : ControlPlane σ) (polling : Polling) (set : Manifests) :
    (verify plane polling set).AsksOnly plane IsQuery :=
  (asksOnly_firstPass plane set.targets).bind fun _ => asksOnly_poll plane _ _ _ _

theorem recorded_verify (plane : ControlPlane σ) (polling : Polling) (set : Manifests) :
    (verify plane polling set).Recorded plane :=
  (asksOnly_verify plane polling set).recorded

/-! ## One pass after the other -/

/-- What stands between the passes that were made and the next one, for which so many targets are
announced. -/
def leadIn (interval : Duration) (made : List Row) (count : Nat) : List Entry :=
  if made = [] then [] else [.reported (.postponed count interval), .waited interval]

/-- The entries of a pass that is not the first, with its number of queries announced before. -/
def laterEntries (interval : Duration) (targets : List Target) (row : Row) : List Entry :=
  .reported (.postponed (looks targets row).length interval) :: .waited interval ::
    passEntries (looks targets row)

/-- The journal of passes with the given rows. -/
def journalOf (interval : Duration) (targets : List Target) : List Row → List Entry
  | [] => []
  | first :: later =>
      passEntries (looks targets first) ++ later.flatMap (laterEntries interval targets)

/-- Each pass asks exactly for what the passes before it have not left ready, and no pass but the
first is made when everything is ready. -/
structure Passes (targets : List Target) (rows : List Row) : Prop where
  asks : ∀ made row rest, rows = made ++ row :: rest → AsksForUnready (latest targets made) row
  unready : ∀ made row rest, rows = made ++ row :: rest → made ≠ [] →
    ¬ AllReady (latest targets made)

theorem passes_nil (targets : List Target) : Passes targets [] :=
  ⟨fun made row rest hsplit => by simp at hsplit, fun made row rest hsplit => by simp at hsplit⟩

/-- A list that ends in a given member is split at that member or before it. -/
theorem eq_or_exists_of_concat_eq {α : Type} {made before rest : List α} {last member : α}
    (hsplit : made ++ [last] = before ++ member :: rest) :
    (made = before ∧ last = member) ∨ ∃ between, made = before ++ member :: between := by
  rcases rest.eq_nil_or_concat' with rfl | ⟨between, final, rfl⟩
  · exact .inl (List.append_inj' hsplit rfl |>.imp_right (List.cons.inj · |>.1))
  · rw [← List.cons_append, ← List.append_assoc] at hsplit
    exact .inr ⟨between, (List.append_inj' hsplit rfl).1⟩

theorem Passes.concat {targets : List Target} {made : List Row} {row : Row}
    (hmade : Passes targets made) (hasks : AsksForUnready (latest targets made) row)
    (hunready : made ≠ [] → ¬ AllReady (latest targets made)) : Passes targets (made ++ [row]) := by
  refine ⟨?_, ?_⟩
  · intro before member rest hsplit
    rcases eq_or_exists_of_concat_eq hsplit with ⟨rfl, rfl⟩ | ⟨between, hbetween⟩
    · exact hasks
    · exact hmade.asks before member between hbetween
  · intro before member rest hsplit
    rcases eq_or_exists_of_concat_eq hsplit with ⟨rfl, rfl⟩ | ⟨between, hbetween⟩
    · exact hunready
    · exact hmade.unready before member between hbetween

theorem Passes.of_concat {targets : List Target} {made : List Row} {row : Row}
    (hpasses : Passes targets (made ++ [row])) : Passes targets made := by
  refine ⟨?_, ?_⟩
  · rintro before member rest rfl
    exact hpasses.asks before member (rest ++ [row]) (by simp)
  · rintro before member rest rfl
    exact hpasses.unready before member (rest ++ [row]) (by simp)

theorem Passes.length_latest {targets : List Target} {rows : List Row}
    (hpasses : Passes targets rows) : (latest targets rows).length = targets.length := by
  induction rows using List.reverseRecOn with
  | nil => simp [latest]
  | append_singleton made row ih =>
      have hlength := (hpasses.asks made row [] rfl).length_eq
      rw [latest_concat, update, List.length_zipWith, ← hlength, Nat.min_self]
      exact ih hpasses.of_concat

theorem journalOf_concat (interval : Duration) (targets : List Target) (made : List Row)
    (row : Row) :
    journalOf interval targets (made ++ [row]) =
      journalOf interval targets made ++ leadIn interval made (looks targets row).length ++
        passEntries (looks targets row) := by
  cases made with
  | nil => simp [journalOf, leadIn]
  | cons first later => simp [journalOf, leadIn, laterEntries]

/-- What is found ready in one pass is ready in the latest row from then on. -/
theorem Passes.latest_of_mem {targets : List Target} {rows : List Row}
    (hpasses : Passes targets rows) {row : Row} (hrow : row ∈ rows) {index : Nat}
    (hready : row[index]? = some (some .ready)) :
    (latest targets rows)[index]? = some (some .ready) := by
  induction rows using List.reverseRecOn with
  | nil => simp at hrow
  | append_singleton made last ih =>
      have hasks := hpasses.asks made last [] rfl
      rw [latest_concat]
      rcases List.mem_append.mp hrow with hmade | hlast
      · exact (hasks.of_ready (ih hpasses.of_concat hmade)).2
      -- the last pass has found it ready itself
      · rw [List.mem_singleton.mp hlast] at hready
        obtain ⟨old, hold⟩ : ∃ old, (latest targets made)[index]? = some old := by
          have hindex := (List.getElem?_eq_some_iff.mp hready).1
          rw [← hasks.length_eq] at hindex
          exact ⟨_, List.getElem?_eq_getElem hindex⟩
        simp [update, List.getElem?_zipWith, hold, hready]

/-- No pass asks again for what was ready once. -/
theorem Passes.pairwise_notAskedAgain {targets : List Target} {rows : List Row}
    (hpasses : Passes targets rows) : rows.Pairwise NotAskedAgain := by
  induction rows using List.reverseRecOn with
  | nil => exact .nil
  | append_singleton made last ih =>
      rw [List.pairwise_append]
      refine ⟨ih hpasses.of_concat, List.pairwise_singleton _ _, ?_⟩
      intro earlier hearlier later hlater index hready readiness hasked
      rw [List.mem_singleton.mp hlater] at hasked
      have hlatest := hpasses.of_concat.latest_of_mem hearlier hready
      have hnone := ((hpasses.asks made last [] rfl).of_ready hlatest).1
      rw [hnone] at hasked
      simp at hasked

/-! ## The loop -/

/-- What is known after passes with the given rows. -/
structure Progress (plane : ControlPlane σ) (interval : Duration) (targets : List Target)
    (rows : List Row) (journal : List Entry) (state : σ) : Prop where
  passes : Passes targets rows
  journal_eq : journal = journalOf interval targets rows
  answered : Answered (rows.flatMap (looks targets)) (plane.answers journal state)

/-- A verification with a report.  It stops as soon as everything is ready, or at the bound. -/
structure Completed (plane : ControlPlane σ) (interval : Duration) (bound : Nat)
    (targets : List Target) (rows : List Row) (report : Verification) (journal : List Entry)
    (state : σ) : Prop extends Progress plane interval targets rows journal state where
  passes_eq : report.passes = rows.length
  one_le_passes : 1 ≤ report.passes
  passes_le : report.passes ≤ bound
  allReady_of_lt : report.passes < bound → AllReady (latest targets rows)
  targets_eq : report.statuses.map Status.target = targets
  latest_eq : (report.statuses.map fun status => some status.readiness) = latest targets rows

/-- A verification that an answer has ended, in the pass after those with the given rows.  The query
that it answers is the last entry of the journal. -/
structure Aborted (plane : ControlPlane σ) (interval : Duration) (bound : Nat)
    (targets : List Target) (rows : List Row) (seen : Row) (target : Target) (error : Failure)
    (journal : List Entry) (state : σ) : Prop where
  passes : Passes targets rows
  length_lt : rows.length < bound
  unready : rows ≠ [] → ¬ AllReady (latest targets rows)
  reaches : Reaches targets (latest targets rows) seen target
  journal_eq : journal = journalOf interval targets rows ++
    leadIn interval rows (unreadyCount (latest targets rows)) ++
      passEntries (looks targets seen) ++ [.asked target.request]
  answered : AnsweredUpTo (rows.flatMap (looks targets) ++ looks targets seen) target error
    (plane.answers journal state)

/-- A verification with the given bound ends in one of the two ways. -/
def Verified (plane : ControlPlane σ) (interval : Duration) (bound : Nat) (targets : List Target)
    (result : Except Failure Verification) (journal : List Entry) (state : σ) : Prop :=
  (∃ rows report, result = .ok report ∧
    Completed plane interval bound targets rows report journal state) ∨
  ∃ rows seen target error, result = .error error ∧
    Aborted plane interval bound targets rows seen target error journal state

@[simp]
theorem leadIn_nil (interval : Duration) (count : Nat) : leadIn interval [] count = [] := rfl

theorem leadIn_of_ne_nil (interval : Duration) {made : List Row} (hmade : made ≠ []) (count : Nat) :
    leadIn interval made count = [.reported (.postponed count interval), .waited interval] :=
  if_neg hmade

@[simp]
theorem answers_leadIn (plane : ControlPlane σ) (interval : Duration) (made : List Row)
    (count : Nat) (state : σ) : plane.answers (leadIn interval made count) state = [] := by
  unfold leadIn
  split <;> rfl

theorem progress_nil (plane : ControlPlane σ) (interval : Duration) (targets : List Target)
    (state : σ) : Progress plane interval targets [] [] state :=
  ⟨passes_nil targets, rfl, .nil⟩

theorem allReady_iff (statuses : List Status) (passes : Nat) :
    (Verification.mk statuses passes).allReady = true ↔
      AllReady (statuses.map fun status => some status.readiness) := by
  simp [Verification.allReady, AllReady, Status.isReady, Readiness.isReady_iff]

theorem length_pending (statuses : List Status) (passes : Nat) :
    (Verification.mk statuses passes).pending.length =
      unreadyCount (statuses.map fun status => some status.readiness) := by
  rw [Verification.pending, unreadyCount, List.countP_map, List.countP_eq_length_filter]
  congr 2
  funext status
  cases hreadiness : status.readiness <;> simp [Status.isReady, hreadiness]

section progress

variable {plane : ControlPlane σ} {interval : Duration} {targets : List Target} {made : List Row}
  {journal : List Entry} {state : σ}

/-- One more pass. -/
theorem Progress.concat (hprogress : Progress plane interval targets made journal state)
    (hunready : made ≠ [] → ¬ AllReady (latest targets made)) {seen : Row} {statuses : List Status}
    {trace : Trace σ (List Status)}
    (hswept : Swept plane targets (latest targets made) seen statuses trace
      (plane.after (journal ++ leadIn interval made (unreadyCount (latest targets made))) state)) :
    Progress plane interval targets (made ++ [seen])
      (journal ++ leadIn interval made (unreadyCount (latest targets made)) ++ trace.journal)
      state := by
  have hcount := hswept.asks.length_looks hprogress.passes.length_latest.symm
  refine ⟨hprogress.passes.concat hswept.asks hunready, ?_, ?_⟩
  · rw [journalOf_concat, hcount, hprogress.journal_eq, hswept.journal_eq]
  · rw [plane.answers_append, plane.answers_append, answers_leadIn, List.append_nil,
      List.flatMap_append, List.flatMap_singleton]
    exact List.rel_append hprogress.answered hswept.answered

/-- A pass that an answer ends. -/
theorem Progress.aborted (hprogress : Progress plane interval targets made journal state)
    (hunready : made ≠ [] → ¬ AllReady (latest targets made)) {bound : Nat}
    (hbound : made.length < bound) {seen : Row} {target : Target} {error : Failure}
    {trace : Trace σ (List Status)}
    (hbroken : Broken plane targets (latest targets made) seen target error trace
      (plane.after (journal ++ leadIn interval made (unreadyCount (latest targets made))) state)) :
    Aborted plane interval bound targets made seen target error
      (journal ++ leadIn interval made (unreadyCount (latest targets made)) ++ trace.journal)
      state := by
  obtain ⟨earlier, last, hanswers, hearlier, hlast⟩ := hbroken.answered
  refine ⟨hprogress.passes, hbound, hunready, hbroken.reaches, ?_, ?_⟩
  · rw [hprogress.journal_eq, hbroken.journal_eq, List.append_assoc _ (passEntries _)]
  · refine ⟨plane.answers journal state ++ earlier, last, ?_,
      List.rel_append hprogress.answered hearlier, hlast⟩
    rw [plane.answers_append, plane.answers_append, answers_leadIn, List.append_nil, hanswers,
      List.append_assoc]

/-- Passes that are not followed by another. -/
theorem Progress.verified (hprogress : Progress plane interval targets made journal state)
    (hmade : made ≠ []) {statuses : List Status} (htargets : statuses.map Status.target = targets)
    (hlatest : (statuses.map fun status => some status.readiness) = latest targets made)
    {bound : Nat} (hbound : made.length ≤ bound)
    (hready : made.length < bound → AllReady (latest targets made)) :
    Verified plane interval bound targets (.ok ⟨statuses, made.length⟩) (journal ++ []) state := by
  rw [List.append_nil]
  exact .inl ⟨made, ⟨statuses, made.length⟩, rfl, hprogress, rfl, List.length_pos_iff.mpr hmade,
    hbound, hready, htargets, hlatest⟩

/-- While something is not ready the loop announces it, pauses and makes one more pass. -/
theorem poll_succ_apply (hmade : made ≠ []) {statuses : List Status}
    (hlatest : (statuses.map fun status => some status.readiness) = latest targets made)
    (hunready : ¬ AllReady (latest targets made)) (remaining : Nat) :
    let announced := leadIn interval made (unreadyCount (latest targets made))
    let later := (nextPass plane statuses >>= poll plane interval remaining (made.length + 1))
      (plane.after (journal ++ announced) state)
    poll plane interval (remaining + 1) made.length statuses (plane.after journal state) =
      ⟨later.result, announced ++ later.journal, later.state⟩ := by
  have hready : (Verification.mk statuses made.length).allReady = false := by
    rw [← hlatest, ← allReady_iff statuses made.length] at hunready
    exact Bool.eq_false_iff.mpr hunready
  have hcount : (Verification.mk statuses made.length).pending.length =
      unreadyCount (latest targets made) := by
    rw [length_pending, hlatest]
  rw [poll_of_not_allReady plane interval remaining made.length hready, hcount,
    Work.report_bind_apply, Work.pause_bind_apply]
  simp only [plane.after_append, leadIn_of_ne_nil interval hmade]
  rfl

/-- What the loop makes of the statuses that the passes before it have led to. -/
theorem verified_poll (hprogress : Progress plane interval targets made journal state)
    (hmade : made ≠ []) {statuses : List Status} (htargets : statuses.map Status.target = targets)
    (hlatest : (statuses.map fun status => some status.readiness) = latest targets made)
    (remaining : Nat) :
    let trace := poll plane interval remaining made.length statuses (plane.after journal state)
    Verified plane interval (made.length + remaining) targets trace.result
      (journal ++ trace.journal) state := by
  induction remaining generalizing made statuses journal with
  | zero =>
      exact hprogress.verified hmade htargets hlatest (Nat.le_refl _)
        fun hlt => absurd hlt (Nat.lt_irrefl _)
  | succ remaining ih =>
      by_cases hready : AllReady (latest targets made)
      · have hstop : (Verification.mk statuses made.length).allReady = true := by
          rw [allReady_iff, hlatest]
          exact hready
        rw [poll_of_allReady plane interval (remaining + 1) made.length hstop]
        exact hprogress.verified hmade htargets hlatest (Nat.le_add_right _ _) fun _ => hready
      · rw [poll_succ_apply hmade hlatest hready remaining]
        have hsweeps := sweeps_nextPass plane statuses (plane.after
          (journal ++ leadIn interval made (unreadyCount (latest targets made))) state)
        rw [htargets, hlatest] at hsweeps
        rcases hsweeps with ⟨seen, later, hswept⟩ | ⟨seen, target, error, hbroken⟩
        -- one more pass is made, and the induction is on the passes that are left after it
        · have hmore := hprogress.concat (fun _ => hready) hswept
          have hspec := ih hmore (by simp) hswept.targets_eq
            (hswept.latest_eq.trans (latest_concat targets made seen).symm)
          rw [plane.after_append, ← (asksOnly_nextPass plane statuses).recorded] at hspec
          rw [Work.bind_of_ok hswept.result_eq]
          simp only [List.length_append, List.length_singleton] at hspec
          simpa [Nat.add_assoc, Nat.add_comm 1] using hspec
        · have haborted := hprogress.aborted (fun _ => hready)
            (Nat.lt_add_of_pos_right (Nat.succ_pos remaining)) hbroken
          rw [Work.bind_of_error hbroken.result_eq]
          refine .inr ⟨made, seen, target, error, rfl, ?_⟩
          rw [← List.append_assoc]
          exact haborted

end progress

/-- A verification asks what the passes of its two ways to end say. -/
theorem verified_verify (plane : ControlPlane σ) (polling : Polling) (set : Manifests) (state : σ) :
    let trace := verify plane polling set state
    Verified plane polling.interval (max polling.attempts 1) set.targets trace.result trace.journal
      state := by
  have hprogress := progress_nil plane polling.interval set.targets state
  have hbound : max polling.attempts 1 = 1 + (polling.attempts - 1) := by omega
  rcases sweeps_firstPass plane set.targets state with
    ⟨seen, statuses, hswept⟩ | ⟨seen, target, error, hbroken⟩
  · have hfirst := hprogress.concat (fun hmade => absurd rfl hmade) hswept
    simp only [leadIn_nil, List.append_nil, List.nil_append] at hfirst
    have hspec := verified_poll hfirst (by simp) hswept.targets_eq hswept.latest_eq
      (polling.attempts - 1)
    rw [← (asksOnly_firstPass plane set.targets).recorded state] at hspec
    rw [verify, Work.bind_of_ok hswept.result_eq, hbound]
    exact hspec
  · have haborted := hprogress.aborted (fun hmade => absurd rfl hmade)
      (show 0 < max polling.attempts 1 by omega) hbroken
    simp only [leadIn_nil, List.append_nil, List.nil_append] at haborted
    rw [verify, Work.bind_of_error hbroken.result_eq]
    exact .inr ⟨[], seen, target, error, rfl, haborted⟩

/-! ## Pauses -/

theorem filterMap_pause?_passEntries (statuses : List Status) :
    (passEntries statuses).filterMap Entry.pause? = [] := by
  induction statuses with
  | nil => rfl
  | cons status rest ih => simpa [passEntries, Entry.pause?] using ih

/-- There is one pause before each pass but the first. -/
theorem filterMap_pause?_journalOf (interval : Duration) (targets : List Target) (rows : List Row) :
    (journalOf interval targets rows).filterMap Entry.pause? =
      List.replicate (rows.length - 1) interval := by
  have hlater : ∀ later : List Row,
      (later.flatMap (laterEntries interval targets)).filterMap Entry.pause? =
        List.replicate later.length interval := by
    intro later
    induction later with
    | nil => rfl
    | cons row rest ih =>
        rw [List.flatMap_cons, List.filterMap_append, ih, laterEntries]
        simp [Entry.pause?, List.filterMap_cons, filterMap_pause?_passEntries, List.replicate_succ]
  cases rows with
  | nil => rfl
  | cons first later =>
      rw [journalOf, List.filterMap_append, filterMap_pause?_passEntries, hlater]
      rfl

/-! ## The run as a whole -/

/-- The target is the object that the step declares. -/
def Describes (step : Step) (target : Target) : Prop :=
  step.name = target.step ∧ step.kind? = some target.kind ∧
    step.resource? = some target.resource ∧ step.clusterScoped = target.clusterScoped

theorem describes_of_target? {step : Step} {target : Target}
    (htarget : step.target? = some target) : Describes step target := by
  unfold Step.target? at htarget
  split at htarget
  · next kind resource hkind hresource =>
      rw [Option.some.injEq] at htarget
      subst htarget
      exact ⟨rfl, hkind, hresource, rfl⟩
  · simp at htarget

/-- There is one target for each step that declares an object, in the order of installation. -/
theorem describes_targets (set : Manifests) :
    List.Forall₂ Describes set.verifiable set.targets := by
  unfold Manifests.targets Manifests.verifiable
  induction set.installOrder with
  | nil => exact .nil
  | cons step rest ih =>
      cases htarget : step.target? with
      | none => simpa [List.filter_cons, htarget] using ih
      | some target =>
          simpa [List.filter_cons, List.filterMap_cons, htarget] using
            ⟨describes_of_target? htarget, ih⟩

/-- The pass that an answer has ended did not ask again either. -/
theorem Reaches.notAskedAgain {targets : List Target} {rows : List Row} {seen : Row}
    {target : Target} (hreaches : Reaches targets (latest targets rows) seen target)
    (hpasses : Passes targets rows) {row : Row} (hrow : row ∈ rows) :
    NotAskedAgain row seen ∧ row[seen.length]? ≠ some (some .ready) := by
  refine ⟨?_, ?_⟩
  · intro index hready readiness hasked
    have hindex := (List.getElem?_eq_some_iff.mp hasked).1
    have hlatest := hpasses.latest_of_mem hrow hready
    rw [← List.getElem?_take_of_lt hindex] at hlatest
    rw [(hreaches.asks.of_ready hlatest).1] at hasked
    simp at hasked
  · intro hready
    obtain ⟨old, hold, hunready⟩ := hreaches.unready
    rw [hpasses.latest_of_mem hrow hready] at hold
    exact hunready (Option.some.inj hold).symm

/-- **A verification asks for what is not ready, and for nothing else.**  The first pass asks for
every object and each later one, after a pause, for those that the last answers do not show ready;
an object that was ready once is not asked for again.  It ends with a report when everything is
ready or the passes are used up, and with an error at the first answer that ends it. -/
theorem verify_asks_for_what_is_not_ready (plane : ControlPlane σ) (polling : Polling)
    (set : Manifests) (state : σ) :
    let trace := verify plane polling set state
    let bound := max polling.attempts 1
    List.Forall₂ Describes set.verifiable set.targets ∧
    trace.state = plane.after trace.journal state ∧
    ((∃ rows report, trace.result = .ok report ∧
        Completed plane polling.interval bound set.targets rows report trace.journal state ∧
        rows.Pairwise NotAskedAgain ∧
        trace.journal.filterMap Entry.pause? =
          List.replicate (report.passes - 1) polling.interval) ∨
      ∃ rows seen target error, trace.result = .error error ∧
        Aborted plane polling.interval bound set.targets rows seen target error trace.journal
          state ∧
        (rows ++ [seen]).Pairwise NotAskedAgain ∧
        ∀ row ∈ rows, row[seen.length]? ≠ some (some .ready)) := by
  refine ⟨describes_targets set, recorded_verify plane polling set state, ?_⟩
  rcases verified_verify plane polling set state with
    ⟨rows, report, hresult, hcompleted⟩ | ⟨rows, seen, target, error, hresult, haborted⟩
  · refine .inl ⟨rows, report, hresult, hcompleted, hcompleted.passes.pairwise_notAskedAgain, ?_⟩
    rw [hcompleted.journal_eq, filterMap_pause?_journalOf, hcompleted.passes_eq]
  · refine .inr ⟨rows, seen, target, error, hresult, haborted, ?_, ?_⟩
    · rw [List.pairwise_append]
      refine ⟨haborted.passes.pairwise_notAskedAgain, List.pairwise_singleton _ _, ?_⟩
      intro row hrow last hlast
      rw [List.mem_singleton.mp hlast]
      exact (haborted.reaches.notAskedAgain haborted.passes hrow).1
    · intro row hrow
      exact (haborted.reaches.notAskedAgain haborted.passes hrow).2

/-- A manifest whose object is missing at first is asked for twice. -/
example :
    let target : Target := ⟨"config", "ConfigMap", "c", false⟩
    let set : Manifests :=
      ⟨[{ name := "config", file := ⟨"a.yaml"⟩, stage := .config, kind? := "ConfigMap",
          resource? := "c" }]⟩
    let cluster : Cluster :=
      { objects := [(("ConfigMap", "c"), "\x7b\x7d")]
        queues := [("get ConfigMap/c", [.output (.failed 1 "Error from server (NotFound): c")])] }
    (verify Cluster.controlPlane ⟨3, .ofSeconds 5⟩ set cluster).journal =
      [.asked target.request, .reported (.checked target .missing),
        .reported (.postponed 1 (.ofSeconds 5)), .waited (.ofSeconds 5),
        .asked target.request, .reported (.checked target .ready)] := by
  decide +kernel

end Verify
end Rollout
