import Rollout.Kubectl.Arguments
import Rollout.Manifest.Order
import Rollout.Verify.Polling

/-!
# The configuration

A configuration as the user writes it, where nearly everything may be left out, and the values that
stand in for what is missing.  Without steps of its own a configuration deploys the demonstration
workloads.
-/

namespace Rollout

/-! ## Sections -/

/-- What a configuration says about the deployment itself. -/
structure DeploymentSection where
  name : String := "spire-demo"
  description? : Option String := none
  version? : Option String := none
  deriving DecidableEq, Repr, Inhabited

/-- How kubectl is called. -/
structure KubectlSection where
  binary? : Option String := none
  kubeconfig? : Option String := none
  context? : Option String := none
  namespaceName? : Option String := none
  deriving DecidableEq, Repr, Inhabited

/-- Which manifests are deployed. -/
structure ManifestsSection where
  directory? : Option String := none
  steps? : Option (List Step) := none
  deriving DecidableEq, Repr, Inhabited

/-- How the deployment is verified. -/
structure VerifySection where
  waitAttempts? : Option UInt32 := none
  waitIntervalSeconds? : Option UInt64 := none
  strict? : Option Bool := none
  deriving DecidableEq, Repr, Inhabited

/-- A configuration. -/
structure Config where
  deployment : DeploymentSection := {}
  kubectl? : Option KubectlSection := none
  manifests : ManifestsSection := {}
  verify? : Option VerifySection := none
  deriving DecidableEq, Repr, Inhabited

/-! ## What stands in for missing values -/

/-- How a verification is made. -/
structure VerifySettings where
  polling : Polling := ⟨1, .ofSeconds 5⟩
  strict : Bool := false
  deriving DecidableEq, Repr, Inhabited

/-- The steps that deploy the demonstration workloads. -/
def defaultSteps : List Step := [
  ⟨"demo-config", ⟨"configmap.yaml"⟩, .config, some "ConfigMap", some "spire-demo-config", false⟩,
  ⟨"frontend-workload", ⟨"frontend-deployment.yaml"⟩, .workloads, some "Deployment",
    some "frontend", false⟩,
  ⟨"backend-workload", ⟨"backend-deployment.yaml"⟩, .workloads, some "Deployment",
    some "backend", false⟩,
  ⟨"trust-domain-entry", ⟨"registration-entry.yaml"⟩, .identityBindings,
    some "ClusterFederatedTrustDomain", some "spire-demo-trust-domain", true⟩,
  ⟨"workload-identity", ⟨"cluster-spiffe-id.yaml"⟩, .identityBindings, some "ClusterSPIFFEID",
    some "spire-demo-workloads", true⟩,
  ⟨"frontend-service", ⟨"frontend-service.yaml"⟩, .services, some "Service", some "frontend",
    false⟩,
  ⟨"backend-service", ⟨"backend-service.yaml"⟩, .services, some "Service", some "backend", false⟩]

/-- The directory of the manifest files when none is named. -/
def defaultDirectory : String := "./k8s"

namespace Config

/-- The directory of the manifest files. -/
def directory (config : Config) : String :=
  config.manifests.directory?.getD defaultDirectory

/-- The declared steps, or those of the demonstration when none are declared. -/
def steps (config : Config) : List Step :=
  config.manifests.steps?.getD defaultSteps

/-- How kubectl is called. -/
def kubectlOptions (config : Config) : Kubectl.Options :=
  match config.kubectl? with
  | none => {}
  | some options => {
      binary := options.binary?.getD "kubectl"
      kubeconfig? := options.kubeconfig?
      context? := options.context?
      namespaceName? := options.namespaceName? }

/-- How the deployment is verified. -/
def verifySettings (config : Config) : VerifySettings :=
  match config.verify? with
  | none => {}
  | some options => {
      polling := {
        attempts := (options.waitAttempts?.map UInt32.toNat).getD 1
        interval := .ofSeconds ((options.waitIntervalSeconds?.map UInt64.toNat).getD 5) }
      strict := options.strict?.getD false }

end Config
end Rollout
