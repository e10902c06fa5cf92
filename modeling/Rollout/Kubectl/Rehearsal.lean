import Rollout.Files.Tree
import Rollout.Kubectl.Client

/-!
# A rehearsed kubectl

A launcher that starts nothing.  The program `kubectl` plays outputs that were written down
beforehand, and every other program is refused as the tree of files demands: a name without a slash
does not exist, and no file of the tree may be run.

## Outputs

The first rule that fits the arguments of a call decides.  Its outputs are played in turn, counted
for each list of arguments on its own, and the last one is played again and again.
-/

namespace Rollout

/-- What the rehearsed program does when it is called in a certain way. -/
structure Cue where
  /-- The arguments that the rule is for, with one space between them; none if it is for all. -/
  arguments? : Option String
  outputs : List Finished
  deriving DecidableEq, Repr, Inhabited

/-- A rehearsal under way. -/
structure Rehearsal where
  files : FileTree
  cues : List Cue
  calls : List (List String) := []
  deriving Repr, Inhabited

namespace Rehearsal

/-- The program that is rehearsed. -/
def program : String := "kubectl"

/-- A process that succeeds and writes nothing. -/
def silent : Finished := ⟨.exited 0, [], [], .zero⟩

/-- Whether a rule is for a call. -/
def Cue.fits (arguments : List String) (cue : Cue) : Bool :=
  cue.arguments?.all (· = " ".intercalate arguments)

/-- The output for a call that has been made so many times before. -/
def outputFor (cues : List Cue) (arguments : List String) (before : Nat) : Finished :=
  match cues.find? (Cue.fits arguments) with
  | none => silent
  | some cue => (cue.outputs[before]?.or cue.outputs.getLast?).getD silent

/-- Whether a text holds the character NUL. -/
def holdsNul (text : String) : Bool := '\x00' ∈ text.toList

/-- Plays a call of a program. -/
def launch (name : String) (arguments : List String) (rehearsal : Rehearsal) :
    Except IoFault Finished × Rehearsal :=
  if (name :: arguments).any holdsNul then (.error .nulInArgument, rehearsal)
  else if name = program then
    (.ok (outputFor rehearsal.cues arguments (rehearsal.calls.count arguments)),
      { rehearsal with calls := rehearsal.calls ++ [arguments] })
  else if '/' ∈ name.toList then (.error (rehearsal.files.refusal ⟨name⟩), rehearsal)
  else (.error .notFound, rehearsal)

/-- The launcher that plays what was rehearsed.  Waiting takes no time. -/
def launcher : Launcher Rehearsal where
  launch := launch
  wait _ rehearsal := rehearsal

end Rehearsal
end Rollout
