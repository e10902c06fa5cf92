import Rollout.ControlPlane.Request

/-!
# An in-memory cluster

A control plane that keeps its state in memory: the manifests that are applied, and the objects that
can be shown.  Applying adds a manifest, deleting removes it, and both say whether they changed
anything.  Manifests are told apart by the text of their paths, as it stands in the calls: `a/b` and
`a//b` are two manifests here, although a file system finds one file under both.

Answers can be scripted, for single calls or for all calls of an operation.  A scripted answer
leaves the applied manifests as they are.
-/

namespace Rollout

/-- A request as it is written down, such as `apply k8s/a.yaml` or `get Service/web`. -/
def Request.text : Request → String
  | .manifest action file => action.name ++ " " ++ file.text
  | .get kind name clusterScoped =>
      "get " ++ kind ++ "/" ++ name ++ (if clusterScoped then " cluster" else "")

/-- The operation that a request asks for. -/
def Request.operation : Request → Operation
  | .manifest action _ => action.operation
  | .get .. => .get

/-- An answer that was decided beforehand. -/
inductive Scripted
  /-- A command with this output. -/
  | output (finished : Output)
  /-- A program that does not exist. -/
  | missingProgram (program : String)
  deriving DecidableEq, Repr, Inhabited

/-- The reply that a scripted answer stands for. -/
def Scripted.reply : Scripted → Except Failure Reply
  | output finished => .ok ⟨finished, .zero⟩
  | missingProgram program => .error (.commandNotStarted program .notFound)

/-- The state of an in-memory cluster. -/
structure Cluster where
  /-- The applied manifests, in the order of their paths. -/
  applied : List Path := []
  /-- The texts of the objects, by kind and name. -/
  objects : List ((String × String) × String) := []
  /-- The scripted answers for calls still to come, by the text of the call. -/
  queues : List (String × List Scripted) := []
  fixed : List (Operation × Scripted) := []
  deriving Repr, Inhabited

namespace Cluster

/-! ## Applied manifests -/

/-- Puts a path in its place. -/
def insertPath (path : Path) : List Path → List Path
  | [] => [path]
  | first :: rest =>
      if path.text < first.text then path :: first :: rest else first :: insertPath path rest

/-- Inserting a path adds it and nothing else. -/
@[simp]
theorem mem_insertPath {path other : Path} (paths : List Path) :
    other ∈ insertPath path paths ↔ other = path ∨ other ∈ paths := by
  induction paths with
  | nil => simp [insertPath]
  | cons first rest ih =>
      simp only [insertPath]
      split
      · simp
      · simp only [List.mem_cons, ih]
        constructor
        · rintro (h | h | h)
          · exact .inr (.inl h)
          · exact .inl h
          · exact .inr (.inr h)
        · rintro (h | h | h)
          · exact .inr (.inl h)
          · exact .inl h
          · exact .inr (.inr h)

/-- The cluster with a manifest applied. -/
def add (path : Path) (cluster : Cluster) : Cluster :=
  if path ∈ cluster.applied then cluster
  else { cluster with applied := insertPath path cluster.applied }

/-- The cluster without a manifest. -/
def remove (path : Path) (cluster : Cluster) : Cluster :=
  { cluster with applied := cluster.applied.filter (· ≠ path) }

/-- Applying a manifest adds it and nothing else. -/
@[simp]
theorem mem_applied_add {path other : Path} (cluster : Cluster) :
    other ∈ (cluster.add path).applied ↔ other = path ∨ other ∈ cluster.applied := by
  unfold add
  split
  · constructor
    · exact .inr
    · rintro (rfl | h)
      · assumption
      · exact h
  · simp

/-- Deleting a manifest removes it and nothing else. -/
@[simp]
theorem mem_applied_remove {path other : Path} (cluster : Cluster) :
    other ∈ (cluster.remove path).applied ↔ other ≠ path ∧ other ∈ cluster.applied := by
  simp [remove, and_comm]

/-! ## Answers of its own -/

/-- What the cluster itself answers, and the state that it is left in. -/
def respond : Request → Cluster → Output × Cluster
  | .manifest .apply file, cluster =>
      let word := if file ∈ cluster.applied then " unchanged\n" else " created\n"
      (.succeeded (file.text ++ word), cluster.add file)
  | .manifest .delete file, cluster =>
      if file ∈ cluster.applied then (.succeeded (file.text ++ " deleted\n"), cluster.remove file)
      else (.succeeded "", cluster)
  | .get kind name _, cluster =>
      match cluster.objects.lookup (kind, name) with
      | some text => (.succeeded text, cluster)
      | none =>
          (.failed 1 ("Error from server (NotFound): " ++ kind ++ " \"" ++ name ++
            "\" not found"), cluster)

/-! ## Scripted answers -/

/-- The next answer in the queue of a call, and the queues without it. -/
def takeQueued? (call : String) : List (String × List Scripted) →
    Option (Scripted × List (String × List Scripted))
  | [] => none
  | (name, answers) :: rest =>
      if name = call then
        match answers with
        | [] => none
        | answer :: answers => some (answer, (name, answers) :: rest)
      else (takeQueued? call rest).map fun (answer, rest) => (answer, (name, answers) :: rest)

/-- Adds answers at the end of the queue of a call. -/
def enqueue (call : String) (answers : List Scripted) :
    List (String × List Scripted) → List (String × List Scripted)
  | [] => [(call, answers)]
  | (name, earlier) :: rest =>
      if name = call then (name, earlier ++ answers) :: rest
      else (name, earlier) :: enqueue call answers rest

/-- The answer to a request: the next one in the queue of the call, else the fixed one of its
operation, else the cluster's own. -/
def answer (request : Request) (cluster : Cluster) : Except Failure Reply × Cluster :=
  match takeQueued? request.text cluster.queues with
  | some (scripted, queues) => (scripted.reply, { cluster with queues })
  | none =>
      match cluster.fixed.lookup request.operation with
      | some scripted => (scripted.reply, cluster)
      | none =>
          let (output, cluster) := respond request cluster
          (.ok ⟨output, .zero⟩, cluster)

/-- The cluster as a control plane.  Its plans show the call itself, under the name `fake`. -/
def controlPlane : ControlPlane Cluster where
  answer := answer
  wait _ cluster := cluster
  render action file := "fake " ++ action.name ++ " " ++ file.text

/-! ## Changing the cluster from outside -/

/-- The cluster with more answers in the queue of a call. -/
def queue (call : String) (answers : List Scripted) (cluster : Cluster) : Cluster :=
  { cluster with queues := enqueue call answers cluster.queues }

/-- The cluster with one answer for all calls of an operation, or with none. -/
def always (operation : Operation) (scripted? : Option Scripted) (cluster : Cluster) : Cluster :=
  let others := cluster.fixed.filter (·.1 ≠ operation)
  { cluster with fixed := (scripted?.toList.map fun scripted => (operation, scripted)) ++ others }

/-- The cluster without an object. -/
def removeObject (kind name : String) (cluster : Cluster) : Cluster :=
  { cluster with objects := cluster.objects.filter (·.1 ≠ (kind, name)) }

/-- The cluster with the text of an object set. -/
def putObject (kind name text : String) (cluster : Cluster) : Cluster :=
  let others := cluster.removeObject kind name
  { others with objects := ((kind, name), text) :: others.objects }

end Cluster
end Rollout
