import Rollout.CommandLine.Overrides
import Rollout.Program.Display
import Rollout.Run.Report

/-!
# Carrying out a command line

The whole program as a function of its surroundings, of a control plane and of the command line.

## The order of things

The settings are loaded first.  Before a run that installs or uninstalls, every manifest file must
be there.  The report of a run is written last, after the run has been shown, so the conclusion
before that names the report that is still to be written.
-/

namespace Rollout

/-- What the program finds around itself. -/
structure Surroundings where
  lookup : String → Option String
  read : Path → Except IoFault String
  isFile : Path → Bool

/-- What is made up for one run. -/
structure Occasion where
  executionId : String
  timestamp : String
  deriving DecidableEq, Repr, Inhabited

/-- What the program leaves behind. -/
structure Conclusion (σ : Type) where
  stdout : String
  error? : Option Failure
  report? : Option (Path × Report)
  journal : List Entry
  state : σ

namespace Conclusion

variable {σ : Type}

/-- The code that the program exits with: zero, or that of the error. -/
def exitCode (conclusion : Conclusion σ) : Int :=
  match conclusion.error? with
  | none => 0
  | some error => error.exitCode

/-- The exit status of the program.  The system hands on the low eight bits of the exit code. -/
def status (conclusion : Conclusion σ) : Nat := (conclusion.exitCode % 256).toNat

/-- What is printed about the error. -/
def stderr (conclusion : Conclusion σ) : String :=
  match conclusion.error? with
  | none => ""
  | some error => Display.unlines (Display.errorLines error)

/-- A conclusion without anything but an error. -/
def refused (error : Failure) (state : σ) : Conclusion σ := ⟨"", some error, none, [], state⟩

/-- The conclusion once its report has been written, or could not be. -/
def afterWriting (fault? : Option IoFault) (conclusion : Conclusion σ) : Conclusion σ :=
  match conclusion.report?, fault? with
  | none, _ => conclusion
  | some _, some fault => { conclusion with error? := some (.io fault) }
  | some (path, _), none =>
      { conclusion with stdout := conclusion.stdout ++ Display.unlines [Display.reportLine path] }

/-- Without a report nothing changes. -/
@[simp]
theorem afterWriting_of_none (fault? : Option IoFault) {conclusion : Conclusion σ}
    (hreport : conclusion.report? = none) : conclusion.afterWriting fault? = conclusion := by
  simp [afterWriting, hreport]

end Conclusion

namespace Program

variable {σ : Type}

/-! ## Subcommands -/

/-- The report of a run, and where it is to be written, if a report was asked for. -/
def reportOf (occasion : Occasion) (settings : Settings) (action : Action)
    (options : RunOptions) (executionId : String) (results : List Completion) :
    Option (Path × Report) :=
  options.report?.map fun path =>
    (⟨path⟩, .ofResults executionId occasion.timestamp settings.name action.operation
      options.dryRun results)

/-- The conclusion of a run that was carried out.  Only a run that has come to its end shows its
results and leaves a report. -/
def runConclusion (occasion : Occasion) (settings : Settings) (action : Action)
    (options : RunOptions) (executionId : String) (trace : Trace σ (List Completion)) :
    Conclusion σ :=
  match trace.result with
  | .error error => ⟨"", some error, none, trace.journal, trace.state⟩
  | .ok results =>
      ⟨Display.unlines (Display.runLines action executionId results), none,
        reportOf occasion settings action options executionId results, trace.journal, trace.state⟩

/-- Installs or uninstalls. -/
def deploy (surroundings : Surroundings) (occasion : Occasion) (plane : ControlPlane σ)
    (settings : Settings) (action : Action) (options : RunOptions) (state : σ) :
    Conclusion σ :=
  match settings.manifests.requirePresent surroundings.isFile with
  | .error error => .refused error state
  | .ok _ =>
      let executionId := options.executionId?.getD occasion.executionId
      runConclusion occasion settings action options executionId
        (Run.run plane settings.manifests action executionId options.dryRun state)

/-- The conclusion of a verification.  What is not ready is an error only when strictness was asked
for. -/
def verifyConclusion (settings : Settings) (trace : Trace σ Verification) : Conclusion σ :=
  match trace.result with
  | .error error => ⟨"", some error, none, trace.journal, trace.state⟩
  | .ok report =>
      -- the statuses are shown in any case
      let error? :=
        if settings.verify.strict then
          match report.strict with
          | .error error => some error
          | .ok _ => none
        else none
      ⟨Display.unlines (Display.statusLines report), error?, none, trace.journal, trace.state⟩

/-- Verifies the deployment. -/
def verify (plane : ControlPlane σ) (settings : Settings) (state : σ) : Conclusion σ :=
  verifyConclusion settings (Verify.verify plane settings.verify.polling settings.manifests state)

/-- Shows a plan. -/
def plan (plane : ControlPlane σ) (settings : Settings) (reverse : Bool) (state : σ) :
    Conclusion σ :=
  let action := if reverse then Action.delete else Action.apply
  let steps := Plan.build plane settings.manifests action
  ⟨Display.unlines (Display.planLines action settings.name steps), none, none, [], state⟩

/-! ## The program -/

/-- Carries out a subcommand with settings that have been loaded. -/
def carryOut (surroundings : Surroundings) (occasion : Occasion) (plane : ControlPlane σ)
    (settings : Settings) (command : Command) (state : σ) : Conclusion σ :=
  match command with
  | .install options => deploy surroundings occasion plane settings .apply options state
  | .uninstall options => deploy surroundings occasion plane settings .delete options state
  | .verify _ => verify plane settings state
  | .plan reverse => plan plane settings reverse state

/-- Carries out a command line, up to the writing of a report. -/
def run (surroundings : Surroundings) (occasion : Occasion)
    (plane : Kubectl.Options → ControlPlane σ) (line : CommandLine) (state : σ) : Conclusion σ :=
  match line.settings surroundings.lookup surroundings.read with
  | .error error => .refused error state
  | .ok settings =>
      carryOut surroundings occasion (plane settings.kubectl) settings line.command state

/-! ## Command lines that are not carried out -/

/-- The name and the version of the program. -/
def versionText : String := "spire-deploy 0.1.0"

/-- The exit code for a command line that is not carried out. -/
def usageExitCode : UsageFault → Int
  | .helpRequested | .versionRequested => 0
  | _ => 2

/-- What is printed for a command line that is not carried out. -/
def usageOutput : UsageFault → String
  | .versionRequested => Display.unlines [versionText]
  | _ => ""

end Program
end Rollout
