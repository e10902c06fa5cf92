import Rollout.Proofs.Verify.Passes

/-!
# More passes only extend a verification

Two verifications of one manifest set that start from the same state and differ only in how many
passes they may make.  The longer one does all that the shorter one does and then goes on, unless
the shorter one has already come to its end.

## Strategy

Passes that are allowed in two parts are made in two parts: the loop for both goes on from the
report that the loop for the first has led to (`poll_add`).  So the longer verification is the
shorter one followed by a loop (`verify_eq_bind_poll`), and the two need not be kept in step by a
simulation.  That loop does nothing once everything is ready, nothing follows an error, and a pass
keeps what is ready (`Kept`), so any number of passes does.
-/

namespace Rollout.Verify

variable {σ : Type}

/-! ## Passes in two parts -/

/-- The loop may stop after some of its passes and go on from the report. -/
theorem poll_add (plane : ControlPlane σ) (interval : Duration) (remaining extra passes : Nat)
    (statuses : List Status) :
    poll plane interval (remaining + extra) passes statuses =
      poll plane interval remaining passes statuses >>= fun report =>
        poll plane interval extra report.passes report.statuses := by
  induction remaining generalizing passes statuses with
  | zero => rw [Nat.zero_add, poll_zero, Work.pure_bind]
  | succ remaining ih =>
      rw [Nat.add_right_comm]
      cases hready : (Verification.mk statuses passes).allReady with
      | true =>
          simp only [poll_of_allReady plane interval _ passes hready, Work.pure_bind]
      | false =>
          rw [poll_of_not_allReady plane interval _ passes hready,
            poll_of_not_allReady plane interval _ passes hready]
          simp only [Work.bind_assoc]
          -- both loops announce, pause and sweep alike, and then the passes left are split
          refine congrArg _ (funext fun _ => congrArg _ (funext fun _ => congrArg _ ?_))
          exact funext fun later => ih (passes + 1) later

/-- A verification that may make more passes goes on from the report of one that may make fewer. -/
theorem verify_eq_bind_poll (plane : ControlPlane σ) (interval : Duration) (set : Manifests)
    {fewer more : Nat} (hle : fewer ≤ more) :
    verify plane ⟨more, interval⟩ set =
      verify plane ⟨fewer, interval⟩ set >>= fun report =>
        poll plane interval ((more - 1) - (fewer - 1)) report.passes report.statuses := by
  have hsplit : more - 1 = (fewer - 1) + ((more - 1) - (fewer - 1)) := by omega
  rw [verify, verify, Work.bind_assoc]
  refine congrArg _ (funext fun statuses => ?_)
  rw [← poll_add, ← hsplit]

/-! ## What is ready is kept -/

/-- The later statuses are of the same objects, and a status that was ready is the same as
before. -/
structure Kept (earlier later : List Status) : Prop where
  targets_eq : later.map Status.target = earlier.map Status.target
  ready : ∀ (index : Nat) (status : Status), earlier[index]? = some status →
    status.isReady = true → later[index]? = some status

theorem kept_refl (statuses : List Status) : Kept statuses statuses :=
  ⟨rfl, fun _ _ hstatus _ => hstatus⟩

theorem Kept.trans {first second third : List Status} (hfirst : Kept first second)
    (hsecond : Kept second third) : Kept first third :=
  ⟨hsecond.targets_eq.trans hfirst.targets_eq, fun index status hstatus hready =>
    hsecond.ready index status (hfirst.ready index status hstatus hready) hready⟩

/-- A pass that comes to its end keeps what is ready. -/
theorem kept_nextPass {plane : ControlPlane σ} {statuses later : List Status} {state : σ}
    (hresult : (nextPass plane statuses state).result = .ok later) : Kept statuses later := by
  rcases sweeps_nextPass plane statuses state with
    ⟨seen, swept, hswept⟩ | ⟨seen, target, error, hbroken⟩
  · obtain rfl : swept = later := Except.ok.inj (hswept.result_eq.symm.trans hresult)
    refine ⟨hswept.targets_eq, fun index status hstatus hready => ?_⟩
    have hready : status.readiness = .ready := (Readiness.isReady_iff _).mp hready
    have hfound : (statuses.map fun status => some status.readiness)[index]? =
        some (some .ready) := by
      simp [hstatus, hready]
    have hlatest := (hswept.asks.of_ready hfound).2
    rw [← hswept.latest_eq, List.getElem?_map, Option.map_eq_some_iff] at hlatest
    obtain ⟨kept, hkept, hreadiness⟩ := hlatest
    have htarget : kept.target = status.target := by
      have htargets := congrArg (·[index]?) hswept.targets_eq
      simpa [hkept, hstatus] using htargets
    rw [hkept, Option.some.injEq]
    exact congrArg₂ Status.mk htarget ((Option.some.inj hreadiness).trans hready.symm)
  · rw [hbroken.result_eq] at hresult
    exact absurd hresult (by simp)

/-- A loop with a report keeps what is ready, and it has not made fewer passes than before. -/
theorem kept_poll {plane : ControlPlane σ} {interval : Duration} {remaining passes : Nat}
    {statuses : List Status} {state : σ} {report : Verification}
    (hresult : (poll plane interval remaining passes statuses state).result = .ok report) :
    Kept statuses report.statuses ∧ passes ≤ report.passes := by
  induction remaining generalizing passes statuses state with
  | zero =>
      obtain rfl := Except.ok.inj hresult
      exact ⟨kept_refl _, Nat.le_refl _⟩
  | succ remaining ih =>
      cases hready : (Verification.mk statuses passes).allReady with
      | true =>
          rw [poll_of_allReady plane interval _ passes hready] at hresult
          obtain rfl := Except.ok.inj hresult
          exact ⟨kept_refl _, Nat.le_refl _⟩
      | false =>
          rw [poll_of_not_allReady plane interval _ passes hready, Work.report_bind_apply,
            Work.pause_bind_apply] at hresult
          cases hpass : (nextPass plane statuses (plane.wait interval state)).result with
          | error error =>
              rw [Work.bind_of_error hpass] at hresult
              exact absurd hresult (by simp)
          | ok later =>
              rw [Work.bind_of_ok hpass] at hresult
              obtain ⟨hkept, hle⟩ := ih hresult
              exact ⟨(kept_nextPass hpass).trans hkept, Nat.le_of_succ_le hle⟩

/-! ## Two verifications -/

/-- The longer trace begins with the shorter one, and is no longer when that one has failed or has
found everything ready.  Of two reports the later one keeps what is ready in the earlier one. -/
structure Extends (shorter longer : Trace σ Verification) : Prop where
  journal_prefix : shorter.journal <+: longer.journal
  contacts_prefix : shorter.contacts <+: longer.contacts
  eq_of_error : ∀ error, shorter.result = .error error → longer = shorter
  eq_of_allReady : ∀ report, shorter.result = .ok report → report.allReady = true →
    longer = shorter
  kept : ∀ earlier later, shorter.result = .ok earlier → longer.result = .ok later →
    Kept earlier.statuses later.statuses ∧ earlier.passes ≤ later.passes

/-- **More passes only extend a verification.**  A verification that may make more passes asks and
waits as the one that may make fewer, and then may go on.  It does not go on after an error or when
everything is ready, and it keeps what is ready. -/
theorem more_passes_extend_verification (plane : ControlPlane σ) (interval : Duration)
    (set : Manifests) {fewer more : Nat} (hle : fewer ≤ more) (state : σ) :
    Extends (verify plane ⟨fewer, interval⟩ set state)
      (verify plane ⟨more, interval⟩ set state) := by
  rw [verify_eq_bind_poll plane interval set hle]
  have hjournal := Work.journal_prefix_bind (verify plane ⟨fewer, interval⟩ set)
    (fun report => poll plane interval ((more - 1) - (fewer - 1)) report.passes report.statuses)
    state
  refine ⟨hjournal, hjournal.filter _, ?_, ?_, ?_⟩
  · intro error hresult
    rw [Work.bind_of_error hresult, ← hresult]
  · intro report hresult hready
    rw [Work.bind_of_ok hresult, poll_of_allReady plane interval _ _ hready, Work.pure_apply,
      ← hresult, List.append_nil]
  · intro earlier later hearlier hlater
    rw [Work.bind_of_ok hearlier] at hlater
    exact kept_poll hlater

/-! ## A slow deployment -/

/-- A configuration and the workload that it is for. -/
def slowSet : Manifests :=
  ⟨[{ name := "config", file := ⟨"a.yaml"⟩, stage := .config, kind? := "ConfigMap",
      resource? := "c" },
    { name := "server", file := ⟨"b.yaml"⟩, stage := .workloads, kind? := "Deployment",
      resource? := "s" }]⟩

/-- A cluster with the configuration, where the workload appears and then becomes ready. -/
def slowCluster : Cluster :=
  { objects := [(("ConfigMap", "c"), "\x7b\x7d"),
      (("Deployment", "s"), "\x7b\"status\": \x7b\"readyReplicas\": 1\x7d\x7d")]
    queues := [("get Deployment/s", [
      .output (.failed 1 "Error from server (NotFound): s"),
      .output (.succeeded "\x7b\"spec\": \x7b\"replicas\": 2\x7d\x7d")])] }

/-- Two passes leave the workload unready, and a third one, if it is allowed, finds it ready. -/
theorem passes_over_slowCluster :
    Extends (verify Cluster.controlPlane ⟨2, .ofSeconds 5⟩ slowSet slowCluster)
        (verify Cluster.controlPlane ⟨9, .ofSeconds 5⟩ slowSet slowCluster) ∧
      (verify Cluster.controlPlane ⟨2, .ofSeconds 5⟩ slowSet slowCluster).result =
        .ok ⟨[⟨⟨"config", "ConfigMap", "c", false⟩, .ready⟩,
          ⟨⟨"server", "Deployment", "s", false⟩, .notReady 0 2⟩], 2⟩ ∧
      (verify Cluster.controlPlane ⟨9, .ofSeconds 5⟩ slowSet slowCluster).result =
        .ok ⟨[⟨⟨"config", "ConfigMap", "c", false⟩, .ready⟩,
          ⟨⟨"server", "Deployment", "s", false⟩, .ready⟩], 3⟩ :=
  ⟨more_passes_extend_verification Cluster.controlPlane (.ofSeconds 5) slowSet (by decide)
    slowCluster, by decide +kernel, by decide +kernel⟩

end Rollout.Verify
