import Rollout.Proofs.Verify.Passes

/-!
# Polling a control plane that does not change

A control plane whose answer to a query depends on nothing but the query.  Looking at it again and
again tells what one look tells, and costs one query for each object that is not ready in each of
the passes that follow the first.

## Strategy

`Repeats` fixes the answers to all queries, in a state and in every state that queries and pauses
lead to from it, so that every pass of a verification meets the same answers
(`Repeats.after_work`).  A status is `Settled` when a look at its object gives that status again.
The first pass leaves settled statuses behind, and a later pass gives settled statuses back; all
that is left for the loop to do is to count its passes.
-/

namespace Rollout

/-- Work in two parts asks what the parts ask. -/
theorem Work.requests_bind_of_ok {σ α β : Type} {work : Work σ α} {next : α → Work σ β} {state : σ}
    {value : α} (hresult : (work state).result = .ok value) :
    ((work >>= next) state).requests =
      (work state).requests ++ (next value (work state).state).requests := by
  rw [Work.bind_of_ok hresult]
  exact List.filterMap_append

namespace Verify

variable {σ : Type}

/-! ## Steady control planes -/

/-- The journal asks for nothing but objects. -/
def OnlyQueries (journal : List Entry) : Prop :=
  ∀ request, Entry.asked request ∈ journal → IsQuery request

/-- Whatever queries and pauses come before it, a query is answered as `said`.  How long the answer
takes does not matter. -/
def Repeats (plane : ControlPlane σ) (said : Request → Except Failure Output) (state : σ) : Prop :=
  ∀ journal, OnlyQueries journal → ∀ request, IsQuery request →
    (plane.answer request (plane.after journal state)).1.map Reply.output = said request

/-- From the state on, the answer to a query depends on the query alone. -/
def Steady (plane : ControlPlane σ) (state : σ) : Prop :=
  Repeats plane (fun request => (plane.answer request state).1.map Reply.output) state

section repeats

variable {plane : ControlPlane σ} {said : Request → Except Failure Output} {state : σ}

theorem Repeats.answer (hrepeats : Repeats plane said state) (target : Target) :
    (plane.answer target.request state).1.map Reply.output = said target.request :=
  hrepeats [] (by simp [OnlyQueries]) target.request rfl

theorem Repeats.after (hrepeats : Repeats plane said state) {journal : List Entry}
    (hqueries : OnlyQueries journal) : Repeats plane said (plane.after journal state) := by
  intro later hlater request hrequest
  rw [← plane.after_append]
  refine hrepeats _ ?_ request hrequest
  intro asked hasked
  rcases List.mem_append.mp hasked with hfirst | hsecond
  · exact hqueries asked hfirst
  · exact hlater asked hsecond

/-- Work that only queries leaves the answers as they are. -/
theorem Repeats.after_work {α : Type} {work : Work σ α} (hrepeats : Repeats plane said state)
    (hwork : work.AsksOnly plane IsQuery) : Repeats plane said (work state).state := by
  rw [hwork.recorded state]
  refine hrepeats.after fun request hrequest => ?_
  have hasked : request ∈ (work state).requests := List.mem_filterMap.mpr ⟨_, hrequest, rfl⟩
  exact hwork.permitted_of_mem hasked

end repeats

/-! ## Settled statuses -/

/-- What a look at a target leads to, when queries are answered as `said`. -/
def look (said : Request → Except Failure Output) (target : Target) : Except Failure Status :=
  (said target.request).bind fun output => (judge target output).map (Status.mk target)

/-- A look at the object of the status gives the status again. -/
def Settled (said : Request → Except Failure Output) (status : Status) : Prop :=
  look said status.target = .ok status

/-- What a pass after the given statuses asks for. -/
def openRequests (statuses : List Status) : List Request :=
  (statuses.filter (!·.isReady)).map (·.target.request)

theorem openRequests_cons (status : Status) (rest : List Status) :
    openRequests (status :: rest) =
      (if status.isReady then [] else [status.target.request]) ++ openRequests rest := by
  cases hready : status.isReady <;> simp [openRequests, hready]

/-- What a look leads to is settled. -/
theorem settled_of_look {said : Request → Except Failure Output} {target : Target}
    {status : Status} (hlook : look said target = .ok status) : Settled said status := by
  have htarget : status.target = target := by
    unfold look at hlook
    cases hsaid : said target.request with
    | error error => simp [hsaid, Except.bind] at hlook
    | ok output =>
        cases hjudge : judge target output with
        | error error => simp [hsaid, hjudge, Except.bind, Except.map] at hlook
        | ok readiness =>
            simp only [hsaid, hjudge, Except.bind, Except.map, Except.ok.injEq] at hlook
            rw [← hlook]
  rw [Settled, htarget, hlook]

/-! ## Passes -/

section passes

variable {plane : ControlPlane σ} {said : Request → Except Failure Output} {state : σ}
  {statuses : List Status}

theorem check_of_repeats (hrepeats : Repeats plane said state) (target : Target) :
    (check plane target state).result = look said target ∧
      (check plane target state).requests = [target.request] := by
  rw [look, ← hrepeats.answer target]
  cases hanswer : (plane.answer target.request state).1 with
  | error error =>
      simp [check, Trace.andThen, Trace.requests, Entry.request?, hanswer, Except.map, Except.bind]
  | ok reply =>
      cases hjudge : judge target reply.output <;>
        simp [check, Trace.andThen, Trace.requests, Entry.request?, hanswer, hjudge, Except.map,
          Except.bind]

/-- The first pass asks for every target and leaves settled statuses. -/
theorem firstPass_of_repeats {targets : List Target} (hrepeats : Repeats plane said state)
    (hresult : (firstPass plane targets state).result = .ok statuses) :
    (∀ status ∈ statuses, Settled said status) ∧
      (firstPass plane targets state).requests = targets.map Target.request := by
  induction targets generalizing state statuses with
  | nil =>
      obtain rfl := Except.ok.inj hresult
      exact ⟨by simp, rfl⟩
  | cons target rest ih =>
      obtain ⟨hlook, hasked⟩ := check_of_repeats hrepeats target
      have hlater := hrepeats.after_work (asksOnly_check plane target)
      rw [firstPass] at hresult ⊢
      cases hcheck : (check plane target state).result with
      | error error =>
          rw [Work.bind_of_error hcheck] at hresult
          exact absurd hresult (by simp)
      | ok status =>
          rw [Work.bind_of_ok hcheck, Work.bind_pure_apply] at hresult
          cases hpass : (firstPass plane rest (check plane target state).state).result with
          | error error => simp [hpass, Except.map] at hresult
          | ok later =>
              obtain ⟨hsettled, hrest⟩ := ih hlater hpass
              have hstatuses : status :: later = statuses := by
                simpa [hpass, Except.map] using hresult
              rw [← hstatuses, List.forall_mem_cons, Work.requests_bind_of_ok hcheck, hasked,
                Work.bind_pure_apply]
              exact ⟨⟨settled_of_look (hlook.symm.trans hcheck), hsettled⟩,
                congrArg (List.cons _) hrest⟩

/-- A later pass asks for what is not ready and gives settled statuses back. -/
theorem nextPass_of_settled (hrepeats : Repeats plane said state)
    (hsettled : ∀ status ∈ statuses, Settled said status) :
    (nextPass plane statuses state).result = .ok statuses ∧
      (nextPass plane statuses state).requests = openRequests statuses := by
  induction statuses generalizing state with
  | nil => exact ⟨rfl, rfl⟩
  | cons status rest ih =>
      obtain ⟨hstatus, hrest⟩ := List.forall_mem_cons.mp hsettled
      rw [nextPass_cons, openRequests_cons]
      cases hready : status.isReady with
      | true =>
          obtain ⟨hresult, hasked⟩ := ih hrepeats hrest
          rw [if_pos rfl, Work.pure_bind, Work.bind_pure_apply, hresult]
          exact ⟨rfl, hasked⟩
      | false =>
          obtain ⟨hlook, hcheck⟩ := check_of_repeats hrepeats status.target
          obtain ⟨hresult, hasked⟩ :=
            ih (hrepeats.after_work (asksOnly_check plane status.target)) hrest
          have hfound := hlook.trans hstatus
          rw [if_neg Bool.false_ne_true, if_neg Bool.false_ne_true,
            Work.requests_bind_of_ok hfound, Work.bind_of_ok hfound, Work.bind_pure_apply, hcheck,
            hresult]
          exact ⟨rfl, congrArg (List.cons _) hasked⟩

/-- The loop gives settled statuses back.  It makes all the passes that it may make, unless
everything is ready. -/
theorem poll_of_settled (hrepeats : Repeats plane said state)
    (hsettled : ∀ status ∈ statuses, Settled said status) (interval : Duration)
    (remaining passes : Nat) :
    let made := if (Verification.mk statuses passes).allReady then 0 else remaining
    (poll plane interval remaining passes statuses state).result = .ok ⟨statuses, passes + made⟩ ∧
      (poll plane interval remaining passes statuses state).requests =
        (List.replicate made (openRequests statuses)).flatten := by
  induction remaining generalizing passes state with
  | zero => simp [Trace.requests]
  | succ remaining ih =>
      cases hready : (Verification.mk statuses passes).allReady with
      | true =>
          rw [poll_of_allReady plane interval _ passes hready]
          exact ⟨rfl, rfl⟩
      | false =>
          have hpaused : Repeats plane said (plane.wait interval state) :=
            hrepeats.after_work (Work.AsksOnly.pause interval)
          obtain ⟨hresult, hasked⟩ := nextPass_of_settled hpaused hsettled
          have hlater := hpaused.after_work (asksOnly_nextPass plane statuses)
          obtain ⟨hpolled, hmore⟩ := ih hlater (passes + 1)
          have hunready : (Verification.mk statuses (passes + 1)).allReady = false := hready
          rw [hunready, if_neg Bool.false_ne_true] at hpolled hmore
          rw [poll_of_not_allReady plane interval _ passes hready, Work.report_bind_apply,
            Work.pause_bind_apply, if_neg Bool.false_ne_true]
          refine ⟨?_, ?_⟩
          · rw [Work.bind_of_ok hresult, Nat.add_comm remaining, ← Nat.add_assoc]
            exact hpolled
          · calc _ = (nextPass plane statuses (plane.wait interval state)).requests ++ _ :=
                  Work.requests_bind_of_ok hresult
              _ = openRequests statuses ++
                    (List.replicate remaining (openRequests statuses)).flatten := by
                  rw [hasked, hmore]
              _ = (List.replicate (remaining + 1) (openRequests statuses)).flatten := by
                  rw [List.replicate_succ, List.flatten_cons]

end passes

/-! ## Polling -/

section verify

variable {plane : ControlPlane σ} {state : σ} {set : Manifests} {statuses : List Status}

/-- An error of the first pass ends the verification, however many passes it may make. -/
theorem result_verify_of_firstPass_error {error : Failure}
    (hfirst : (firstPass plane set.targets state).result = .error error) (polling : Polling) :
    (verify plane polling set state).result = .error error := by
  rw [verify, Work.bind_of_error hfirst]

/-- A single pass reports the statuses of the first pass. -/
theorem result_verify_once (hfirst : (firstPass plane set.targets state).result = .ok statuses) :
    (verify plane .once set state).result = .ok ⟨statuses, 1⟩ := by
  rw [verify, Work.bind_of_ok hfirst]
  rfl

/-- On a steady control plane all passes report the statuses of the first one. -/
theorem verify_of_steady (hsteady : Steady plane state)
    (hfirst : (firstPass plane set.targets state).result = .ok statuses) (polling : Polling) :
    let made := if (Verification.mk statuses 1).allReady then 0 else polling.attempts - 1
    (verify plane polling set state).result = .ok ⟨statuses, 1 + made⟩ ∧
      (verify plane polling set state).requests = set.targets.map Target.request ++
        (List.replicate made (openRequests statuses)).flatten := by
  intro made
  obtain ⟨hsettled, hasked⟩ := firstPass_of_repeats hsteady hfirst
  have hlater := Repeats.after_work hsteady (asksOnly_firstPass plane set.targets)
  obtain ⟨hresult, hmore⟩ :=
    poll_of_settled hlater hsettled polling.interval (polling.attempts - 1) 1
  refine ⟨?_, ?_⟩
  · rw [verify, Work.bind_of_ok hfirst]
    exact hresult
  · rw [verify, Work.requests_bind_of_ok hfirst, hasked, hmore]

end verify

/-- **Polling a control plane that does not change tells nothing new.**  It ends with the error of a
single pass, or with its statuses.  It makes one pass when everything is ready and otherwise all
those that it may make, and each pass after the first asks again for what is not ready. -/
theorem polling_tells_nothing_new {plane : ControlPlane σ} {state : σ}
    (hsteady : Steady plane state) (polling : Polling) (set : Manifests) :
    let single := verify plane .once set state
    let polled := verify plane polling set state
    (∀ error, single.result = .error error → polled.result = .error error) ∧
    ∀ report, single.result = .ok report →
      let passes := if report.allReady then 1 else max polling.attempts 1
      polled.result = .ok ⟨report.statuses, passes⟩ ∧
      polled.requests = set.targets.map Target.request ++
        (List.replicate (passes - 1) (report.pending.map (·.target.request))).flatten ∧
      polled.requests.length =
        set.verifiable.length + (passes - 1) * report.pending.length := by
  intro single polled
  cases hfirst : (firstPass plane set.targets state).result with
  | error error =>
      have hsingle : single.result = .error error := result_verify_of_firstPass_error hfirst .once
      have hpolled : polled.result = .error error :=
        result_verify_of_firstPass_error hfirst polling
      refine ⟨fun other hother => ?_, fun report hreport => ?_⟩
      · rw [← hother, hsingle, hpolled]
      · exact absurd (hsingle.symm.trans hreport) (by simp)
  | ok statuses =>
      have hsingle : single.result = .ok ⟨statuses, 1⟩ := result_verify_once hfirst
      refine ⟨fun error herror => absurd (hsingle.symm.trans herror) (by simp), ?_⟩
      intro report hreport passes
      obtain rfl := Except.ok.inj (hsingle.symm.trans hreport)
      obtain ⟨hresult, hasked⟩ := verify_of_steady hsteady hfirst polling
      -- the passes that follow the first one
      have hmade : (if (Verification.mk statuses 1).allReady then 0 else polling.attempts - 1) =
          passes - 1 := by
        simp only [passes]
        split <;> omega
      have hpasses : 1 + (passes - 1) = passes := by
        simp only [passes]
        split <;> omega
      rw [hmade] at hresult hasked
      rw [hpasses] at hresult
      refine ⟨hresult, hasked, ?_⟩
      calc polled.requests.length
          = (set.targets.map Target.request ++
              (List.replicate (passes - 1) (openRequests statuses)).flatten).length :=
            congrArg List.length hasked
        _ = set.targets.length + (passes - 1) * (Verification.mk statuses 1).pending.length := by
            simp [openRequests, Verification.pending]
        _ = set.verifiable.length + (passes - 1) * (Verification.mk statuses 1).pending.length := by
            rw [(describes_targets set).length_eq]

/-! ## A deployment that makes no progress -/

/-- A cluster without answers in its queues is as before after a query. -/
theorem answer_query_of_queues_eq_nil {cluster : Cluster} (hqueues : cluster.queues = [])
    {request : Request} (hquery : IsQuery request) :
    (Cluster.controlPlane.answer request cluster).2 = cluster := by
  cases request with
  | manifest action file =>
      cases action <;> simp [IsQuery, Request.operation, Action.operation] at hquery
  | get kind name clusterScoped =>
      simp only [Cluster.controlPlane, Cluster.answer, hqueues, Cluster.takeQueued?]
      split
      · rfl
      · simp only [Cluster.respond]
        split <;> rfl

theorem after_of_onlyQueries {cluster : Cluster} (hqueues : cluster.queues = [])
    {journal : List Entry} (hqueries : OnlyQueries journal) :
    Cluster.controlPlane.after journal cluster = cluster := by
  induction journal with
  | nil => rfl
  | cons entry rest ih =>
      have hrest := ih fun request hrequest => hqueries request (List.mem_cons_of_mem _ hrequest)
      cases entry with
      | waited | reported => exact hrest
      | asked request =>
          have hquery : IsQuery request := hqueries request List.mem_cons_self
          rw [Cluster.controlPlane.after_asked, answer_query_of_queues_eq_nil hqueues hquery]
          exact hrest

theorem steady_of_queues_eq_nil {cluster : Cluster} (hqueues : cluster.queues = []) :
    Steady Cluster.controlPlane cluster := by
  intro journal hqueries request _
  rw [after_of_onlyQueries hqueues hqueries]

/-- A workload that two manifests declare, and a service. -/
def doubledSet : Manifests :=
  ⟨[{ name := "server", file := ⟨"a.yaml"⟩, stage := .workloads, kind? := "Deployment",
      resource? := "s" },
    { name := "service", file := ⟨"b.yaml"⟩, stage := .services, kind? := "Service",
      resource? := "s" },
    { name := "again", file := ⟨"c.yaml"⟩, stage := .workloads, kind? := "Deployment",
      resource? := "s" }]⟩

/-- A cluster on which the workload does not get its second replica. -/
def stuckCluster : Cluster :=
  { objects := [(("Service", "s"), "\x7b\x7d"),
      (("Deployment", "s"),
        "\x7b\"spec\": \x7b\"replicas\": 2\x7d, \"status\": \x7b\"readyReplicas\": 1\x7d\x7d")] }

/-- Four passes look at the workload four times for each of its manifests, and at the service
once. -/
theorem polling_of_stuckCluster :
    Steady Cluster.controlPlane stuckCluster ∧
      (verify Cluster.controlPlane ⟨4, .ofSeconds 5⟩ doubledSet stuckCluster).result =
        .ok ⟨[⟨⟨"server", "Deployment", "s", false⟩, .notReady 1 2⟩,
          ⟨⟨"again", "Deployment", "s", false⟩, .notReady 1 2⟩,
          ⟨⟨"service", "Service", "s", false⟩, .ready⟩], 4⟩ ∧
      (verify Cluster.controlPlane ⟨4, .ofSeconds 5⟩ doubledSet stuckCluster).requests.length =
        3 + 3 * 2 := by
  have hsteady : Steady Cluster.controlPlane stuckCluster := steady_of_queues_eq_nil rfl
  have hsingle : (verify Cluster.controlPlane .once doubledSet stuckCluster).result =
      .ok ⟨[⟨⟨"server", "Deployment", "s", false⟩, .notReady 1 2⟩,
        ⟨⟨"again", "Deployment", "s", false⟩, .notReady 1 2⟩,
        ⟨⟨"service", "Service", "s", false⟩, .ready⟩], 1⟩ := by
    decide +kernel
  obtain ⟨-, hpolled⟩ := polling_tells_nothing_new hsteady ⟨4, .ofSeconds 5⟩ doubledSet
  obtain ⟨hresult, -, hcount⟩ := hpolled _ hsingle
  exact ⟨hsteady, hresult, hcount⟩

end Verify
end Rollout
