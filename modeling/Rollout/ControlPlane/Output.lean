import Rollout.Text.Blank
import Rollout.Text.Lines
import Rollout.Text.Utf8

/-!
# Command output

What a finished command leaves behind, and when a failed command only says that an object does not
exist.  Two messages of the server count: the status `NotFound`, and a kind without a mapping.  A
client that does not find a context, a cluster or a program has failed for good.
-/

namespace Rollout

/-- The output of one finished command. -/
structure Output where
  success : Bool
  /-- The exit code, unless a signal ended the command. -/
  exitCode? : Option Int
  stdout : String
  stderr : String
  deriving DecidableEq, Repr, Inhabited

/-- How a process ended. -/
inductive Ending
  | exited (code : Nat)
  | signalled (signal : Nat)
  deriving DecidableEq, Repr, Inhabited

namespace Output

/-- The output of a command that succeeded. -/
def succeeded (stdout : String) : Output := ⟨true, some 0, stdout, ""⟩

/-- The output of a command that failed. -/
def failed (code : Int) (stderr : String) : Output := ⟨false, some code, "", stderr⟩

/-- The output of a process, from the way it ended and the bytes it wrote.  Only the exit code zero
is a success. -/
def ofProcess (ending : Ending) (stdout stderr : List UInt8) : Output :=
  let stdout := Text.decodeLossy stdout
  let stderr := Text.decodeLossy stderr
  match ending with
  | .exited code => ⟨code = 0, some code, stdout, stderr⟩
  | .signalled _ => ⟨false, none, stdout, stderr⟩

/-- The beginnings of the two messages that say that an object does not exist. -/
def absencePhrases : List String :=
  ["Error from server (NotFound)", "error: resource mapping not found"]

/-- Whether a line, after leading blanks, starts with one of those messages. -/
def reportsAbsence (line : List Char) : Bool :=
  absencePhrases.any fun phrase => phrase.toList.isPrefixOf (Text.dropBlank line)

/-- Whether a failed command only says that the object does not exist. -/
def meansAbsence (output : Output) : Bool :=
  !output.success && (Text.lines output.stderr).any reportsAbsence

@[simp]
theorem meansAbsence_of_success {output : Output} (hsuccess : output.success = true) :
    output.meansAbsence = false := by
  simp [meansAbsence, hsuccess]

example : (failed 1 "\t Error from server (NotFound): gone").meansAbsence = true := by
  decide +kernel

example : (failed 1 "error: context was not found").meansAbsence = false := by decide +kernel

end Output
end Rollout
