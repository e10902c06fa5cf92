import Rollout.Kubectl.Rehearsal
import Rollout.Proofs.Program.LastAnswer

/-!
# The exit status

The exit status tells how a run has ended.  It is zero only without an error, it is that of a failed
external command, and otherwise it depends on the kind of error alone.  This is said for every
launcher, so external commands may end in any way that the operating system knows.

## Strategy

Each exchange with kubectl is one external command (`Kubectl.exchanges_controlPlane`), so what
`Accounted` says about the last answer says how the last command has ended (`accounted_run`).  What
remains is the arithmetic from an error to the status, one lemma for each category of errors.
-/

namespace Rollout

variable {σ : Type}

/-! ## External commands -/

/-- The codes that the operating system knows. -/
def Ending.InRange : Ending → Prop
  | .exited code => code < 256
  | .signalled _ => True

instance : DecidablePred Ending.InRange
  | .exited code => inferInstanceAs (Decidable (code < 256))
  | .signalled _ => isTrue trivial

/-- The command, if it was started, has ended in a way that the operating system knows. -/
def EndsInRange : Except IoFault Finished → Prop
  | .ok finished => finished.ending.InRange
  | .error _ => True

instance : DecidablePred EndsInRange
  | .ok finished => inferInstanceAs (Decidable finished.ending.InRange)
  | .error _ => isTrue trivial

/-- The status of the program after a command that has failed in this way. -/
def Ending.status : Ending → Nat
  | .exited code => code
  | .signalled _ => 1

/-- The command has failed and, unless it was to apply something, did not only say that there is no
such object. -/
def Finished.Fatal (operation : Operation) (finished : Finished) : Prop :=
  finished.ending ≠ .exited 0 ∧
    (operation ≠ .apply → finished.output.meansAbsence = false)

theorem Finished.status_ne_zero_of_fatal {operation : Operation} {finished : Finished}
    (hfatal : finished.Fatal operation) : finished.ending.status ≠ 0 := by
  have hending := hfatal.1
  cases hfinished : finished.ending with
  | signalled signal => exact Nat.one_ne_zero
  | exited code => simpa [hfinished, Ending.status] using hending

namespace Kubectl

variable (launcher : Launcher σ) (options : Options)

/-- The external commands of a journal, each with the request that it was started for. -/
def commands : List Entry → σ → List (Request × Except IoFault Finished)
  | [], _ => []
  | .asked request :: rest, state =>
      let launched := launcher.launch options.binary (options.arguments request) state
      (request, launched.1) :: commands rest launched.2
  | .waited interval :: rest, state => commands rest (launcher.wait interval state)
  | .reported _ :: rest, state => commands rest state

theorem exchanges_controlPlane (journal : List Entry) (state : σ) :
    (controlPlane launcher options).exchanges journal state =
      (commands launcher options journal state).map fun command =>
        (command.1, reply options.binary command.2) := by
  unfold ControlPlane.exchanges
  induction journal generalizing state with
  | nil => rfl
  | cons entry rest ih =>
      cases entry with
      | asked request => exact congrArg _ (ih _)
      | waited interval => exact ih _
      | reported event => exact ih _

theorem final_reply_iff (binary : String) (operation : Operation) (finished : Finished) :
    Final operation (reply binary (.ok finished)) ↔ finished.Fatal operation := by
  have hsuccess : finished.output.success = false ↔ finished.ending ≠ .exited 0 := by
    unfold Finished.output Output.ofProcess
    cases finished.ending <;> simp
  rw [reply, Final, hsuccess, Finished.Fatal]

end Kubectl

/-! ## From errors to the status -/

/-- The status for an error that no external command passes on. -/
def Failure.ownStatus : Failure → Nat
  | io _ | commandNotStarted .. => 3
  | notReady _ => 2
  | _ => 1

theorem Failure.exitCode_ne_zero (error : Failure) : error.exitCode ≠ 0 := by
  unfold exitCode
  split
  · split
    · decide
    · assumption
  · cases error <;> simp [severity, Severity.exitCode]

theorem Failure.ownStatus_ne_zero (error : Failure) : error.ownStatus ≠ 0 := by
  cases error <;> simp [ownStatus]

theorem Conclusion.status_of_error?_eq_none {conclusion : Conclusion σ}
    (herror : conclusion.error? = none) : conclusion.status = 0 := by
  simp [status, exitCode, herror]

theorem Conclusion.status_of_category_ne {conclusion : Conclusion σ} {error : Failure}
    (herror : conclusion.error? = some error) (hcategory : error.category ≠ .controlPlane) :
    conclusion.status = error.ownStatus := by
  rw [status, exitCode, herror]
  cases error <;> first | rfl | simp [Failure.category] at hcategory

/-- A report that is left to be written and cannot be is an error. -/
theorem Conclusion.error?_afterWriting_of_fault {conclusion : Conclusion σ}
    (hreport : conclusion.report? ≠ none) (fault : IoFault) :
    (conclusion.afterWriting (some fault)).error? = some (.io fault) := by
  obtain ⟨report, hsome⟩ := Option.ne_none_iff_exists'.mp hreport
  simp [afterWriting, hsome]

theorem Conclusion.status_of_commandNotStarted {conclusion : Conclusion σ} {program : String}
    {fault : IoFault} (herror : conclusion.error? = some (.commandNotStarted program fault)) :
    conclusion.status = 3 := by
  rw [status, exitCode, herror]
  rfl

/-- A failed command passes its own code on, and without a code the status is that of any other
error. -/
theorem Conclusion.status_of_commandFailed {conclusion : Conclusion σ} {step : String}
    {operation : Operation} {finished : Finished}
    (herror : conclusion.error? =
      some (.commandFailed step operation finished.output.exitCode? finished.output.stderr))
    (hending : finished.ending ≠ .exited 0) (hrange : finished.ending.InRange) :
    conclusion.status = finished.ending.status := by
  rw [status, exitCode, herror]
  unfold Finished.output Output.ofProcess
  cases hfinished : finished.ending with
  | signalled signal => rfl
  | exited code =>
      rw [hfinished] at hending hrange
      have hcode : (code : Int) ≠ 0 := by simpa using hending
      have hlt : code < 256 := hrange
      simp only [Failure.exitCode, if_neg hcode, Ending.status]
      omega

/-! ## How a run ends -/

namespace Program

variable (surroundings : Surroundings) (occasion : Occasion) (launcher : Launcher σ)
  (line : CommandLine) (state : σ)

/-- The external commands of the program, each with the request that it was started for. -/
def commands : List (Request × Except IoFault Finished) :=
  match line.settings surroundings.lookup surroundings.read with
  | .error _ => []
  | .ok settings =>
      Kubectl.commands launcher settings.kubectl
        (run surroundings occasion (Kubectl.controlPlane launcher) line state).journal state

/-- There is a report only without an error. -/
theorem error?_runConclusion_of_report? {settings : Settings} {action : Action}
    {options : RunOptions} {executionId : String} {trace : Trace σ (List Completion)}
    (hreport : (runConclusion occasion settings action options executionId trace).report? ≠ none) :
    (runConclusion occasion settings action options executionId trace).error? = none := by
  unfold runConclusion at hreport ⊢
  cases hresult : trace.result with
  | error error => simp [hresult] at hreport
  | ok results => rfl

theorem error?_deploy_of_report? {plane : ControlPlane σ} {settings : Settings} {action : Action}
    {options : RunOptions}
    (hreport :
      (deploy surroundings occasion plane settings action options state).report? ≠ none) :
    (deploy surroundings occasion plane settings action options state).error? = none := by
  rcases deploy_eq surroundings occasion plane settings state action options with
    ⟨missing, -, hrefused⟩ | ⟨-, hcarried⟩
  · simp [hrefused, Conclusion.refused] at hreport
  · rw [hcarried] at hreport ⊢
    exact error?_runConclusion_of_report? occasion hreport

theorem report?_verify (plane : ControlPlane σ) (settings : Settings) :
    (verify plane settings state).report? = none := by
  unfold verify verifyConclusion
  split <;> rfl

theorem error?_of_report? (plane : Kubectl.Options → ControlPlane σ)
    (hreport : (run surroundings occasion plane line state).report? ≠ none) :
    (run surroundings occasion plane line state).error? = none := by
  unfold run at hreport ⊢
  cases hloaded : line.settings surroundings.lookup surroundings.read with
  | error error => simp [hloaded, Conclusion.refused] at hreport
  | ok settings =>
      simp only [hloaded] at hreport ⊢
      cases hcommand : line.command with
      | install options | uninstall options =>
          rw [hcommand] at hreport
          exact error?_deploy_of_report? surroundings occasion state hreport
      | verify options =>
          rw [hcommand] at hreport
          exact absurd (report?_verify state _ settings) hreport
      | plan reverse => rfl

/-- The conclusion of the program once its report has been written, or could not be. -/
def concluded (fault? : Option IoFault) : Conclusion σ :=
  (run surroundings occasion (Kubectl.controlPlane launcher) line state).afterWriting fault?

/-- A report that cannot be written is the only error that comes after all others. -/
theorem error?_concluded (fault? : Option IoFault) :
    let ran := run surroundings occasion (Kubectl.controlPlane launcher) line state
    let conclusion := concluded surroundings occasion launcher line state fault?
    conclusion.error? = ran.error? ∨
      ran.error? = none ∧ ∃ fault, conclusion.error? = some (.io fault) := by
  intro ran conclusion
  have hconclusion : conclusion = ran.afterWriting fault? := rfl
  rw [hconclusion]
  cases hreport : ran.report? with
  | none => exact .inl (by rw [ran.afterWriting_of_none fault? hreport])
  | some report =>
      have hnone : ran.error? = none :=
        error?_of_report? surroundings occasion line state _ (by simp [ran, hreport])
      cases fault? with
      | none => exact .inl (by simp [Conclusion.afterWriting, hreport])
      | some fault =>
          refine .inr ⟨hnone, fault, ?_⟩
          exact Conclusion.error?_afterWriting_of_fault (by simp [hreport]) fault

/-- The program is accounted for by its last command, also once the report has been written. -/
theorem accounted_concluded (fault? : Option IoFault) :
    ∃ binary, Accounted ((commands surroundings occasion launcher line state).map fun command =>
      (command.1, Kubectl.reply binary command.2))
      (concluded surroundings occasion launcher line state fault?).error? := by
  let ran := run surroundings occasion (Kubectl.controlPlane launcher) line state
  have hran : ∃ binary, Accounted ((commands surroundings occasion launcher line state).map
      fun command => (command.1, Kubectl.reply binary command.2)) ran.error? := by
    unfold commands
    cases hloaded : line.settings surroundings.lookup surroundings.read with
    | error error =>
        have herror : ran.error? = some error :=
          congrArg Conclusion.error? (run_of_settings_error occasion _ state hloaded)
        refine ⟨"", herror ▸ accounted_of_not_final (by simp) ?_⟩
        rintro _ ⟨⟩
        exact CommandLine.category_of_settings_eq_error hloaded
    | ok settings =>
        refine ⟨settings.kubectl.binary, ?_⟩
        rw [← Kubectl.exchanges_controlPlane]
        simp only [ran, run_of_settings occasion _ state hloaded]
        exact accounted_carryOut surroundings occasion _ settings state line.command
  obtain ⟨binary, haccounted⟩ := hran
  refine ⟨binary, ?_⟩
  rcases error?_concluded surroundings occasion launcher line state fault? with
    hsame | ⟨hnone, fault, hfault⟩
  · exact hsame ▸ haccounted
  · have hnone : ran.error? = none := hnone
    rw [hnone] at haccounted
    refine hfault ▸ haccounted.of_none ?_
    rintro _ ⟨⟩
    simp [Failure.category]

/-! ### What the error and the status tell -/

/-- The error and the status of the program tell how its run has ended.  Here `started` are the
external commands of the run, `report?` is the report that it has left to be written, and `fault?`
what has kept the report from being written. -/
structure TellsEnding (surroundings : Surroundings) (launcher : Launcher σ) (line : CommandLine)
    (state : σ) (started : List (Request × Except IoFault Finished))
    (report? : Option (Path × Report)) (fault? : Option IoFault) (conclusion : Conclusion σ) :
    Prop where
  /-- Only a run without an error is a success. -/
  status_eq_zero_iff : conclusion.status = 0 ↔ conclusion.error? = none
  /-- The last command has failed fatally.  The status is its own code, or one after a signal. -/
  of_fatal : ∀ request finished, started.getLast? = some (request, .ok finished) →
    finished.Fatal request.operation →
    conclusion.status = finished.ending.status ∧
      ∃ step, conclusion.error? = some (.commandFailed step request.operation
        finished.output.exitCode? finished.output.stderr)
  /-- The last command could not be started. -/
  of_notStarted : ∀ request fault, started.getLast? = some (request, .error fault) →
    conclusion.status = 3 ∧ ∃ program, conclusion.error? = some (.commandNotStarted program fault)
  /-- Any error apart from that of a command that has failed has the status of its kind. -/
  of_error : ∀ error, conclusion.error? = some error →
    conclusion.status = error.ownStatus ∨
      ∃ request finished, started.getLast? = some (request, .ok finished) ∧
        finished.Fatal request.operation
  /-- The configuration file cannot be read. -/
  of_unreadable : ∀ file fault, line.config? = some file → surroundings.read ⟨file⟩ = .error fault →
    conclusion.error? = some (.io fault) ∧ conclusion.status = 3
  /-- The report cannot be written. -/
  of_unwritten : ∀ fault, report? ≠ none → fault? = some fault →
    conclusion.error? = some (.io fault) ∧ conclusion.status = 3
  /-- There are no settings, whatever may be wrong with them. -/
  of_refused : ∀ error, line.settings surroundings.lookup surroundings.read = .error error →
    conclusion.error? = some error ∧ conclusion.status = error.ownStatus
  /-- A manifest file is missing that the command needs. -/
  of_missing : ∀ settings, line.settings surroundings.lookup surroundings.read = .ok settings →
    line.command.readsManifests = true →
    (∃ step ∈ settings.manifests.steps, surroundings.isFile step.file = false) →
    ∃ missing, FirstMissing surroundings.isFile settings.manifests.installOrder missing ∧
      conclusion.error? = some (.manifestNotFound missing.file) ∧ conclusion.status = 1
  /-- A verification ends without a report. -/
  of_unverified : ∀ settings options error,
    line.settings surroundings.lookup surroundings.read = .ok settings →
    line.command = .verify options →
    (Verify.verify (Kubectl.controlPlane launcher settings.kubectl) settings.verify.polling
      settings.manifests state).result = .error error →
    conclusion.error? = some error
  /-- A verification ends with a report.  Only a strict one minds what is not ready. -/
  of_verified : ∀ settings options report,
    line.settings surroundings.lookup surroundings.read = .ok settings →
    line.command = .verify options →
    (Verify.verify (Kubectl.controlPlane launcher settings.kubectl) settings.verify.polling
      settings.manifests state).result = .ok report →
    conclusion.status =
      if settings.verify.strict = true ∧ report.allReady = false then 2 else 0

section ending

variable {surroundings occasion launcher line state} {fault? : Option IoFault}

/-- When the last command ends the run, the error says what that command has said. -/
theorem exists_error_of_last {request : Request} {ended : Except IoFault Finished}
    (hlast : (commands surroundings occasion launcher line state).getLast? = some (request, ended))
    (hfinal : ∀ binary, Final request.operation (Kubectl.reply binary ended)) :
    ∃ binary step, (concluded surroundings occasion launcher line state fault?).error? =
      some (lastError step request.operation (Kubectl.reply binary ended)) := by
  obtain ⟨binary, haccounted⟩ :=
    accounted_concluded surroundings occasion launcher line state fault?
  refine ⟨binary, haccounted.error_of_final request _ ?_ (hfinal binary)⟩
  rw [List.getLast?_map, hlast]
  rfl

theorem status_of_fatal
    (hrange : ∀ command ∈ commands surroundings occasion launcher line state,
      EndsInRange command.2)
    {request : Request} {finished : Finished}
    (hlast : (commands surroundings occasion launcher line state).getLast? =
      some (request, .ok finished))
    (hfatal : finished.Fatal request.operation) :
    let conclusion := concluded surroundings occasion launcher line state fault?
    conclusion.status = finished.ending.status ∧
      ∃ step, conclusion.error? = some (.commandFailed step request.operation
        finished.output.exitCode? finished.output.stderr) := by
  intro conclusion
  obtain ⟨binary, step, hstep⟩ := exists_error_of_last hlast fun binary =>
    (Kubectl.final_reply_iff binary request.operation finished).mpr hfatal
  have hended := hrange _ (List.mem_of_getLast? hlast)
  exact ⟨Conclusion.status_of_commandFailed hstep hfatal.1 hended, step, hstep⟩

theorem status_of_error {error : Failure}
    (herror : (concluded surroundings occasion launcher line state fault?).error? = some error) :
    (concluded surroundings occasion launcher line state fault?).status = error.ownStatus ∨
      ∃ request finished, (commands surroundings occasion launcher line state).getLast? =
          some (request, .ok finished) ∧ finished.Fatal request.operation := by
  by_cases hcategory : error.category = .controlPlane
  · obtain ⟨binary, haccounted⟩ :=
      accounted_concluded surroundings occasion launcher line state fault?
    obtain ⟨request, answer, step, hlast, hfinal, rfl⟩ :=
      haccounted.final_of_error error herror hcategory
    rw [List.getLast?_map, Option.map_eq_some_iff] at hlast
    obtain ⟨⟨_, ended⟩, hlast, heq⟩ := hlast
    obtain ⟨rfl, rfl⟩ := Prod.mk.inj heq
    cases ended with
    | error fault => exact .inl (Conclusion.status_of_commandNotStarted herror)
    | ok finished =>
        exact .inr ⟨_, finished, hlast, (Kubectl.final_reply_iff binary _ _).mp hfinal⟩
  · exact .inl (Conclusion.status_of_category_ne herror hcategory)

/-- Every error has a status of its own or that of a failed command, and neither is zero. -/
theorem status_eq_zero_iff
    (hrange : ∀ command ∈ commands surroundings occasion launcher line state,
      EndsInRange command.2) :
    let conclusion := concluded surroundings occasion launcher line state fault?
    conclusion.status = 0 ↔ conclusion.error? = none := by
  intro conclusion
  refine ⟨fun hzero => ?_, Conclusion.status_of_error?_eq_none⟩
  by_contra hsome
  obtain ⟨error, herror⟩ := Option.ne_none_iff_exists'.mp hsome
  rcases status_of_error herror with hown | ⟨request, finished, hlast, hfatal⟩
  · exact error.ownStatus_ne_zero (hown.symm.trans hzero)
  · exact Finished.status_ne_zero_of_fatal hfatal
      ((status_of_fatal hrange hlast hfatal).1.symm.trans hzero)

/-- A program that is refused ends with the error that it is refused for. -/
theorem concluded_of_refused {error : Failure}
    (hrefused : run surroundings occasion (Kubectl.controlPlane launcher) line state =
      .refused error state) (hcategory : error.category ≠ .controlPlane) :
    let conclusion := concluded surroundings occasion launcher line state fault?
    conclusion.error? = some error ∧ conclusion.status = error.ownStatus := by
  intro conclusion
  have hconclusion : conclusion = .refused error state := by
    simp only [conclusion, concluded, hrefused]
    exact Conclusion.afterWriting_of_none fault? rfl
  have herror : conclusion.error? = some error := congrArg Conclusion.error? hconclusion
  exact ⟨herror, Conclusion.status_of_category_ne herror hcategory⟩

theorem concluded_of_unreadable {file : String} {fault : IoFault}
    (hconfig : line.config? = some file) (hread : surroundings.read ⟨file⟩ = .error fault) :
    let conclusion := concluded surroundings occasion launcher line state fault?
    conclusion.error? = some (.io fault) ∧ conclusion.status = 3 := by
  have hloaded : line.settings surroundings.lookup surroundings.read = .error (.io fault) :=
    CommandLine.settings_of_baseConfig_error (by
      simp only [CommandLine.baseConfig, hconfig, Config.ofFile, hread])
  exact concluded_of_refused (run_of_settings_error occasion _ state hloaded)
    (by simp [Failure.category])

/-- Verifying leaves no report to be written. -/
theorem concluded_of_verify {settings : Settings} {options : VerifyOptions}
    (hloaded : line.settings surroundings.lookup surroundings.read = .ok settings)
    (hcommand : line.command = .verify options) :
    concluded surroundings occasion launcher line state fault? =
      verify (Kubectl.controlPlane launcher settings.kubectl) settings state := by
  rw [concluded, run_of_settings occasion _ state hloaded, hcommand, carryOut]
  exact Conclusion.afterWriting_of_none fault? (report?_verify state _ settings)

end ending

/-- **The exit status tells how a run has ended.**  No error has the exit code zero, and the status
is zero exactly when there is no error.  When the last external command has failed fatally, the
error says so and the status is the code that it exited with, or one if a signal has ended it; when
it could not be started the status is three.  It is three as well when the configuration file cannot
be read or the report cannot be written, two when a strict verification finds something that is not
ready, and one for all other errors, each of which is the error of the program. -/
theorem status_tells_how_the_run_ended (fault? : Option IoFault)
    (hrange : ∀ command ∈ commands surroundings occasion launcher line state,
      EndsInRange command.2) :
    (∀ error : Failure, error.exitCode ≠ 0) ∧
    TellsEnding surroundings launcher line state
      (commands surroundings occasion launcher line state)
      (run surroundings occasion (Kubectl.controlPlane launcher) line state).report? fault?
      (concluded surroundings occasion launcher line state fault?) := by
  refine ⟨Failure.exitCode_ne_zero, ?_⟩
  exact {
    status_eq_zero_iff := status_eq_zero_iff hrange
    -- the last command accounts for the error
    of_fatal := fun request finished hlast hfatal => status_of_fatal hrange hlast hfatal
    of_notStarted := fun request fault hlast => by
      obtain ⟨binary, step, hstep⟩ := exists_error_of_last hlast
        fun _ => trivial
      exact ⟨Conclusion.status_of_commandNotStarted hstep, binary, hstep⟩
    of_error := fun error herror => status_of_error herror
    -- files that cannot be read or written
    of_unreadable := fun file fault hconfig hread => concluded_of_unreadable hconfig hread
    of_unwritten := fun fault hreport hfault => by
      have herror := Conclusion.error?_afterWriting_of_fault hreport fault
      rw [← hfault] at herror
      exact ⟨herror, Conclusion.status_of_category_ne herror (by simp [Failure.category])⟩
    -- what is found out before any command is started
    of_refused := fun error hloaded =>
      concluded_of_refused (run_of_settings_error occasion _ state hloaded)
        (CommandLine.category_of_settings_eq_error hloaded)
    of_missing := fun settings hloaded hreads hmissing => by
      obtain ⟨missing, hfirst, hrefused⟩ := run_of_missing occasion
        (Kubectl.controlPlane launcher) state hloaded hreads hmissing
      exact ⟨missing, hfirst, concluded_of_refused hrefused (by simp [Failure.category])⟩
    -- a verification leaves no report to be written, so its own error is the last word
    of_unverified := fun settings options error hloaded hcommand hresult => by
      rw [concluded_of_verify hloaded hcommand]
      exact error?_verifyConclusion_of_error settings hresult
    of_verified := fun settings options report hloaded hcommand hresult => by
      rw [concluded_of_verify hloaded hcommand]
      exact status_verifyConclusion_of_ok settings hresult }

/-! ## Failed and killed commands -/

/-- Surroundings without variables and files to read, where every manifest is. -/
def furnished : Surroundings where
  lookup _ := none
  read _ := .error .notFound
  isFile _ := true

/-- A kubectl that fails to apply the second manifest and is killed when it deletes the last. -/
def unreliable : Rehearsal where
  files := ⟨[], []⟩
  cues := [
    ⟨some "apply -f ./k8s/frontend-deployment.yaml", [⟨.exited 7, [], [], .zero⟩]⟩,
    ⟨some "delete -f ./k8s/backend-service.yaml --ignore-not-found",
      [⟨.signalled 9, [], [], .zero⟩]⟩]

/-- The program as it ends there when no report can be written. -/
def concludeUnreliable (line : CommandLine) : Conclusion Rehearsal :=
  concluded furnished ⟨"r", "now"⟩ Rehearsal.launcher line unreliable (some .permissionDenied)

/-- A failed command, a killed one, a configuration file that is not there, and a dry run whose
report cannot be written. -/
theorem statuses_of_unreliable :
    (concludeUnreliable { command := .install {} }).status = 7 ∧
      (concludeUnreliable { command := .uninstall {} }).status = 1 ∧
      (concludeUnreliable { config? := some "spire.toml", command := .plan false }).status = 3 ∧
      (concludeUnreliable
        { command := .install { dryRun := true, report? := some "run.json" } }).status = 3 := by
  have tells := fun line : CommandLine => status_tells_how_the_run_ended furnished ⟨"r", "now"⟩
    Rehearsal.launcher line unreliable (some .permissionDenied)
  refine ⟨?_, ?_, ?_, ?_⟩
  · obtain ⟨-, htells⟩ := tells { command := .install {} } (by decide +kernel)
    exact (htells.of_fatal (.manifest .apply ⟨"./k8s/frontend-deployment.yaml"⟩)
      ⟨.exited 7, [], [], .zero⟩ (by rfl) ⟨by decide, by decide⟩).1
  · obtain ⟨-, htells⟩ := tells { command := .uninstall {} } (by decide +kernel)
    exact (htells.of_fatal (.manifest .delete ⟨"./k8s/backend-service.yaml"⟩)
      ⟨.signalled 9, [], [], .zero⟩ (by rfl) ⟨by decide, by decide⟩).1
  · obtain ⟨-, htells⟩ :=
      tells { config? := some "spire.toml", command := .plan false } (by decide +kernel)
    exact (htells.of_unreadable "spire.toml" .notFound rfl rfl).2
  · obtain ⟨-, htells⟩ := tells
      { command := .install { dryRun := true, report? := some "run.json" } } (by decide +kernel)
    refine (htells.of_unwritten .permissionDenied (Option.isSome_iff_ne_none.mp ?_) rfl).2
    decide +kernel

end Program
end Rollout
