import Rollout.Calendar
import Rollout.CommandLine.Reader
import Rollout.Kubectl.Client
import Rollout.Program.Conclusion
import Std.Time.DateTime.Timestamp

/-!
# The program

The outermost layer: it looks at the command line, the environment, the clock and the files, hands
what it sees to `Rollout.Program.run`, and carries out what comes back.  Files are looked at before
the run: the configuration file if there is one, and then the manifest files that it leads to.

No program is started from here.  Starting one is the business of a launcher, and the launcher below
refuses every start, so plans and dry runs are all that this layer can carry to the end.
-/

namespace Rollout.Outer

/-! ## Files -/

/-- What the operating system refused, and why. -/
def faultOf : IO.Error → IoFault
  | .noFileOrDirectory .. => .notFound
  | .permissionDenied .. => .permissionDenied
  | .inappropriateType _ code _ => if code = 21 then .isDirectory else .notDirectory
  | error => .described (toString error)

/-- The content of a file, or why it cannot be read. -/
def readBytes (path : Path) : IO (Except IoFault ByteArray) := do
  try
    return .ok (← IO.FS.readBinFile path.text)
  catch error =>
    return .error (faultOf error)

/-- The text of a file. -/
def readText (path : Path) : IO (Except IoFault String) := do
  match ← readBytes path with
  | .error fault => return .error fault
  | .ok bytes =>
      match Text.decode? bytes with
      | some text => return .ok text
      | none => return .error .notText

/-- Writes a file, and tells why if it cannot be written. -/
def writeText (path : Path) (text : String) : IO (Option IoFault) := do
  try
    IO.FS.writeFile path.text text
    return none
  catch error =>
    return some (faultOf error)

/-! ## Surroundings -/

/-- The configuration file of a command line, as it was read. -/
def readConfig (line : CommandLine) : IO (Except IoFault String) :=
  match line.config? with
  | some file => readText ⟨file⟩
  | none => return .error .notFound

/-- The variables that a text asks for and that are set. -/
def environmentFor (text : String) : IO Environment := do
  let mut entries := []
  for name in Placeholder.names text.toList do
    if let some value ← IO.getEnv name then
      entries := (name, value) :: entries
  return ⟨entries⟩

/-- Those of the paths that lead to a file. -/
def presentFiles (paths : List Path) : IO (List Path) :=
  paths.filterM fun path => return (← readBytes path).isOk

/-- What a command line needs to know of its surroundings. -/
def observe (line : CommandLine) : IO Surroundings := do
  let content ← readConfig line
  let environment ← environmentFor (content.toOption.getD "")
  let read : Path → Except IoFault String := fun _ => content
  let paths :=
    match line.settings environment.value? read with
    | .ok settings => settings.manifests.steps.map (·.file)
    | .error _ => []
  let present ← presentFiles paths
  return ⟨environment.value?, read, fun path => path ∈ present⟩

/-- What is made up for a run that begins now. -/
def occasionNow : IO Occasion := do
  let now ← Std.Time.Timestamp.now
  let instant : Instant := ⟨now.val.second.val.toNat, now.val.nano.val.toNat⟩
  return ⟨instant.executionId, instant.timestamp⟩

/-! ## Carrying out -/

/-- A launcher that refuses every start. -/
def refusingLauncher : Launcher Unit where
  launch _ _ _ := (.error (.described "programs are not started from here"), ())
  wait _ _ := ()

/-- Prints a conclusion and gives the exit code. -/
def conclude (conclusion : Conclusion Unit) : IO UInt32 := do
  IO.print conclusion.stdout
  IO.eprint conclusion.stderr
  return UInt32.ofNat conclusion.status

/-- Carries out a command line, writes its report and shows how it has ended. -/
def carryOut (line : CommandLine) : IO UInt32 := do
  let surroundings ← observe line
  let occasion ← occasionNow
  let plane := Kubectl.controlPlane refusingLauncher
  let conclusion := Program.run surroundings occasion plane line ()
  match conclusion.report? with
  | none => conclude conclusion
  | some (path, report) => conclude (conclusion.afterWriting (← writeText path report.text))

/-- How the program is used. -/
def usageText : String :=
  "Usage: spire-deploy [OPTIONS] <install|verify|uninstall|plan>\n"

/-- Tells why a command line is not carried out. -/
def refuse (fault : UsageFault) : IO UInt32 := do
  let code := UInt32.ofNat (Program.usageExitCode fault).toNat
  match fault with
  | .versionRequested => IO.print (Program.usageOutput fault)
  | .helpRequested => IO.print usageText
  | _ => IO.eprint usageText
  return code

end Rollout.Outer

/-- The program. -/
def main (arguments : List String) : IO UInt32 :=
  match Rollout.CommandLine.read arguments with
  | .ok line => Rollout.Outer.carryOut line
  | .error fault => Rollout.Outer.refuse fault
