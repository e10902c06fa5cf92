import Rollout.ControlPlane.Request

/-!
# Kubectl commands

The arguments with which kubectl is called.  Options that hold for every call come first: the file
with the credentials, the context and the namespace.  An object outside all namespaces is asked for
without the namespace.
-/

namespace Rollout.Kubectl

/-- How kubectl is called. -/
structure Options where
  binary : String := "kubectl"
  kubeconfig? : Option String := none
  context? : Option String := none
  namespaceName? : Option String := none
  deriving DecidableEq, Repr, Inhabited

namespace Options

/-- An option with its value, if there is one. -/
def flag (name : String) : Option String → List String
  | some value => [name, value]
  | none => []

/-- The options that come before the command proper. -/
def globalArguments (options : Options) (namespaced : Bool) : List String :=
  flag "--kubeconfig" options.kubeconfig? ++ flag "--context" options.context? ++
    if namespaced then flag "--namespace" options.namespaceName? else []

/-- The arguments that apply or delete a manifest. -/
def manifestArguments (options : Options) (action : Action) (file : Path) : List String :=
  options.globalArguments true ++ [action.name, "-f", file.text] ++
    match action with
    | .apply => []
    | .delete => ["--ignore-not-found"]

/-- The arguments that show an object. -/
def getArguments (options : Options) (kind name : String) (clusterScoped : Bool) : List String :=
  options.globalArguments (!clusterScoped) ++ ["get", kind, name, "-o", "json"]

/-- The arguments that carry out a request. -/
def arguments (options : Options) : Request → List String
  | .manifest action file => options.manifestArguments action file
  | .get kind name clusterScoped => options.getArguments kind name clusterScoped

/-- The command that carries out an action on a manifest, with one space between its words. -/
def render (options : Options) (action : Action) (file : Path) : String :=
  " ".intercalate (options.binary :: options.manifestArguments action file)

@[simp]
theorem flag_none (name : String) : flag name none = [] := rfl

@[simp]
theorem flag_some (name value : String) : flag name (some value) = [name, value] := rfl

example : render {} .delete ⟨"k8s/configmap.yaml"⟩ =
    "kubectl delete -f k8s/configmap.yaml --ignore-not-found" := by decide +kernel

end Options
end Rollout.Kubectl
