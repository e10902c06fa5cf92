import Rollout.Kubectl.Arguments

/-!
# Kubectl as a control plane

A launcher starts programs and hands back what they leave behind.  With a launcher and the options,
kubectl is a control plane: every request is one call of the program.
-/

namespace Rollout

/-- A process that has ended. -/
structure Finished where
  ending : Ending
  stdout : List UInt8
  stderr : List UInt8
  elapsed : Duration := .zero
  deriving DecidableEq, Repr, Inhabited

/-- The output of the command that a process carried out. -/
def Finished.output (finished : Finished) : Output :=
  .ofProcess finished.ending finished.stdout finished.stderr

/-- What starts programs, with states of type `σ`. -/
structure Launcher (σ : Type) where
  launch : String → List String → σ → Except IoFault Finished × σ
  wait : Duration → σ → σ

namespace Kubectl

variable {σ : Type}

/-- The reply to a request whose process has ended, or has never begun. -/
def reply (binary : String) : Except IoFault Finished → Except Failure Reply
  | .ok finished => .ok ⟨finished.output, finished.elapsed⟩
  | .error fault => .error (.commandNotStarted binary fault)

/-- The control plane that kubectl is when it is started by a launcher. -/
def controlPlane (launcher : Launcher σ) (options : Options) : ControlPlane σ where
  answer request state :=
    let (ended, state) := launcher.launch options.binary (options.arguments request) state
    (reply options.binary ended, state)
  wait := launcher.wait
  render := options.render

@[simp]
theorem render_controlPlane (launcher : Launcher σ) (options : Options) (action : Action)
    (file : Path) :
    (controlPlane launcher options).render action file = options.render action file := rfl

end Kubectl
end Rollout
