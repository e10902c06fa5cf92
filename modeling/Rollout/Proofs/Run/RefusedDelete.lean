import Rollout.Proofs.Run.FailFast

/-!
# Refused deletes

A manifest may hold many objects, so a delete that fails can report several errors, each on a line
of its own.  This file says which of them let an uninstallation go on.

## Strategy

A failed delete is judged by the lines of its error output alone.  `Output.ReportsAbsence` and
`Output.ReportsOtherError` say what some line holds, and both may be true of one output.  Only the
first decides whether the uninstallation stops, so an error of the server goes unnoticed when
another line says that an object does not exist.
-/

namespace Rollout

namespace Output

/-! ## What the lines of an error output say -/

/-- The line starts with the text, apart from leading blanks. -/
def OpensWith (text : String) (line : List Char) : Prop := text.toList <+: Text.dropBlank line

instance (text : String) (line : List Char) : Decidable (OpensWith text line) :=
  inferInstanceAs (Decidable (text.toList <+: Text.dropBlank line))

/-- Some line says that an object does not exist. -/
def ReportsAbsence (output : Output) : Prop :=
  ∃ line ∈ Text.lines output.stderr, OpensWith "Error from server (NotFound)" line ∨
    OpensWith "error: resource mapping not found" line

/-- Some line is an error of the server for another reason. -/
def ReportsOtherError (output : Output) : Prop :=
  ∃ line ∈ Text.lines output.stderr, OpensWith "Error from server (" line ∧
    ¬ OpensWith "Error from server (NotFound)" line

instance : DecidablePred ReportsAbsence := fun output =>
  inferInstanceAs (Decidable (∃ line ∈ Text.lines output.stderr, _))

instance : DecidablePred ReportsOtherError := fun output =>
  inferInstanceAs (Decidable (∃ line ∈ Text.lines output.stderr, _))

theorem reportsAbsence_iff (line : List Char) :
    reportsAbsence line = true ↔ OpensWith "Error from server (NotFound)" line ∨
      OpensWith "error: resource mapping not found" line := by
  simp [reportsAbsence, absencePhrases, OpensWith]

theorem meansAbsence_iff_of_failed {output : Output} (hfailed : output.success = false) :
    output.meansAbsence = true ↔ output.ReportsAbsence := by
  simp [meansAbsence, hfailed, ReportsAbsence, reportsAbsence_iff]

end Output

namespace Run

variable {σ : Type}

theorem fatal_delete_iff_of_failed {reply : Reply} (hfailed : reply.output.success = false) :
    Fatal .delete (.ok reply) ↔ ¬ reply.output.ReportsAbsence := by
  rw [← Output.meansAbsence_iff_of_failed hfailed]
  simp [Fatal, hfailed]

/-! ## Runs that go on -/

section goingOn

variable {plane : ControlPlane σ} {action : Action} {done : List Step} {state : σ}

/-- After steps that nothing has stopped a run asks for the next one. -/
theorem calls_prefix_contacts_of_unhindered (executionId : String) (rest : List Step)
    (hdone : Unhindered plane action done state) :
    calls action (done ++ rest.take 1) <+:
      (execute plane action executionId false (done ++ rest) state).contacts := by
  rcases unhindered_or_stopsAt plane action rest (plane.after (calls action done) state) with
    hrest | ⟨later, last, remaining, rfl, hstops⟩
  · have hall := unhindered_append.mpr ⟨hdone, hrest⟩
    obtain ⟨replies, hreplies, -⟩ := exists_replies_of_unhindered hall
    rw [(execute_of_unhindered executionId hall hreplies).2, calls_append, calls_append]
    exact (List.prefix_append_right_inj _).mpr ((List.take_prefix 1 rest).map _)
  · have hlast : StopsAt plane action (done ++ later) last state := by
      refine ⟨unhindered_append.mpr ⟨hdone, hstops.unhindered⟩, ?_⟩
      rw [answerFor, calls_append, plane.after_append]
      exact hstops.fatal
    have hfirst : (later ++ last :: remaining).take 1 <+: later ++ [last] := by
      cases later with
      | nil => exact List.prefix_refl _
      | cons first later => exact ⟨later ++ [last], rfl⟩
    rw [← List.append_assoc, (execute_of_stopsAt executionId remaining hlast).2, List.append_assoc,
      calls_append, calls_append]
    exact (List.prefix_append_right_inj _).mpr (hfirst.map _)

/-- A run with results has one at the place of each step, and it is what the answer says. -/
theorem getElem?_results_of_answerFor {executionId : String} {step : Step} {rest : List Step}
    {reply : Reply} (hanswer : answerFor plane action done step state = .ok reply)
    {results : List Completion}
    (hresult : (execute plane action executionId false (done ++ step :: rest) state).result =
      .ok results) :
    results[done.length]? = some (completion action step reply) := by
  rcases unhindered_or_stopsAt plane action (done ++ step :: rest) state with
    hall | ⟨before, last, after, hsplit, hstops⟩
  · obtain ⟨replies, hreplies, -⟩ := exists_replies_of_unhindered hall
    have hlength := length_answers_calls plane action done state
    have hanswers : (plane.answers (calls action (done ++ step :: rest)) state)[done.length]? =
        some (.ok reply) := by
      rw [calls_append, plane.answers_append,
        List.getElem?_append_right (Nat.le_of_eq hlength), hlength, Nat.sub_self]
      exact congrArg some hanswer
    rw [hreplies, List.getElem?_map, Option.map_eq_some_iff] at hanswers
    obtain ⟨found, hfound, hok⟩ := hanswers
    have hreply : replies[done.length]? = some reply := Except.ok.inj hok ▸ hfound
    rw [(execute_of_unhindered executionId hall hreplies).1, Except.ok.injEq] at hresult
    subst hresult
    simp [List.getElem?_zipWith, hreply]
  · rw [hsplit, (execute_of_stopsAt executionId after hstops).1] at hresult
    exact absurd hresult (by simp)

end goingOn

/-! ## Which failed deletes stop an uninstallation -/

/-- **Only the absence of an object lets a failed delete pass.**  When a delete has failed and none
of the lines of its error output says that an object does not exist, the uninstallation ends with
that step, and its error carries the error output.  When some line says so the step counts as
already absent and the uninstallation goes on, whatever the other lines hold. -/
theorem uninstall_stops_unless_absence_is_reported (plane : ControlPlane σ) (set : Manifests)
    (executionId : String) (state : σ) {done rest : List Step} {step : Step} {reply : Reply}
    (horder : set.uninstallOrder = done ++ step :: rest)
    (hreached : Unhindered plane .delete done state)
    (hanswer : answerFor plane .delete done step state = .ok reply)
    (hfailed : reply.output.success = false) :
    let trace := uninstall plane set executionId false state
    (¬ reply.output.ReportsAbsence →
      trace.result = .error
        (.commandFailed step.name .delete reply.output.exitCode? reply.output.stderr) ∧
      trace.contacts = calls .delete (done ++ [step])) ∧
    (reply.output.ReportsAbsence →
      calls .delete (done ++ step :: rest.take 1) <+: trace.contacts ∧
      ∀ results, trace.result = .ok results →
        results[done.length]? =
          some ⟨step.name, .delete, .alreadyAbsent, reply.elapsed, reply.output.stdout⟩) := by
  intro trace
  have htrace : trace = execute plane .delete executionId false (done ++ step :: rest) state := by
    rw [← horder]
    rfl
  have hfatal := fatal_delete_iff_of_failed hfailed
  rw [htrace]
  constructor
  · intro hpresent
    have hstops : StopsAt plane .delete done step state :=
      ⟨hreached, hanswer ▸ hfatal.mpr hpresent⟩
    obtain ⟨hresult, hcontacts⟩ := execute_of_stopsAt executionId rest hstops
    rw [hanswer] at hresult
    exact ⟨hresult, hcontacts⟩
  · intro habsence
    have hcompleting : ¬ Fatal .delete (answerFor plane .delete done step state) := by
      rw [hanswer]
      exact fun hstops => hfatal.mp hstops habsence
    have hdone : Unhindered plane .delete (done ++ [step]) state :=
      unhindered_append.mpr ⟨hreached, unhindered_cons.mpr ⟨hcompleting, unhindered_nil _ _ _⟩⟩
    have hcounts : countsAs .delete reply.output = .alreadyAbsent :=
      if_pos (.inl ((Output.meansAbsence_iff_of_failed hfailed).mpr habsence))
    refine ⟨?_, ?_⟩
    · have hprefix := calls_prefix_contacts_of_unhindered executionId rest hdone
      rwa [List.append_assoc, List.append_assoc] at hprefix
    · intro results hresult
      rw [getElem?_results_of_answerFor hanswer hresult, completion, hcounts]
      rfl

/-! ## One delete that fails -/

/-- A cluster with the manifests of `chain`, which fails to delete the second of them. -/
def refusing (output : Output) : Cluster :=
  { applied := [⟨"a.yaml"⟩, ⟨"b.yaml"⟩, ⟨"c.yaml"⟩]
    queues := [("delete b.yaml", [.output output])] }

/-- One of two objects may not be deleted. -/
def forbidden : Output :=
  .failed 1 "warning: slow\n Error from server (Forbidden): b"

/-- One of two objects may not be deleted, and the other one does not exist. -/
def forbiddenOrAbsent : Output :=
  .failed 1 "Error from server (NotFound): a\nError from server (Forbidden): b"

/-- The first failure ends the uninstallation with its second step.  After the other one the third
step is asked for. -/
theorem uninstall_of_refusing :
    (uninstall Cluster.controlPlane ⟨chain⟩ "r" false (refusing forbidden)).result =
        .error (.commandFailed "server" .delete (some 1) forbidden.stderr) ∧
      calls .delete chain.reverse <+:
        (uninstall Cluster.controlPlane ⟨chain⟩ "r" false
          (refusing forbiddenOrAbsent)).contacts := by
  have horder : (Manifests.mk chain).uninstallOrder =
      chain.drop 2 ++ chain[1] :: chain.take 1 := by
    decide +kernel
  have hreached : ∀ output ∈ [forbidden, forbiddenOrAbsent],
      Unhindered Cluster.controlPlane .delete (chain.drop 2) (refusing output) := by
    unfold Unhindered
    decide +kernel
  have hanswer : ∀ output,
      answerFor Cluster.controlPlane .delete (chain.drop 2) chain[1] (refusing output) =
        .ok ⟨output, .zero⟩ := fun output => rfl
  obtain ⟨hstops, -⟩ := uninstall_stops_unless_absence_is_reported Cluster.controlPlane ⟨chain⟩ "r"
    (refusing forbidden) horder (hreached forbidden (by simp)) (hanswer forbidden) rfl
  obtain ⟨-, hgoes⟩ := uninstall_stops_unless_absence_is_reported Cluster.controlPlane ⟨chain⟩ "r"
    (refusing forbiddenOrAbsent) horder (hreached forbiddenOrAbsent (by simp))
    (hanswer forbiddenOrAbsent) rfl
  have hpresent : ¬ forbidden.ReportsAbsence := by
    decide +kernel
  have habsence : forbiddenOrAbsent.ReportsAbsence := by
    decide +kernel
  exact ⟨(hstops hpresent).1, (hgoes habsence).1⟩

/-- An error of the server goes unnoticed when another object does not exist: the step counts as
already absent, and the uninstallation succeeds. -/
theorem other_error_beside_absence_goes_unnoticed :
    forbiddenOrAbsent.success = false ∧ forbiddenOrAbsent.ReportsOtherError ∧
      (uninstall Cluster.controlPlane ⟨chain⟩ "r" false (refusing forbiddenOrAbsent)).result =
        .ok [⟨"service", .delete, .deleted, .zero, "c.yaml deleted\n"⟩,
          ⟨"server", .delete, .alreadyAbsent, .zero, ""⟩,
          ⟨"config", .delete, .deleted, .zero, "a.yaml deleted\n"⟩] := by
  refine ⟨rfl, ?_, ?_⟩
  · decide +kernel
  · rfl

end Run
end Rollout
