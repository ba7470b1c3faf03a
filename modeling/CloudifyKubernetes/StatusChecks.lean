import CloudifyKubernetes.Collections.Overlay
import CloudifyKubernetes.K8s.Package
import CloudifyKubernetes.Operations

namespace CloudifyKubernetes

open Collections Effects Program

/-- Without validation the verdict depends on the kind alone: a kind that has a status class is
    not ready. -/
theorem doResourceStatusCheck_unvalidated (kind : String) {response : Value}
    (status : (response.index "status").isOk = true) :
    doResourceStatusCheck false kind response = .ok (StatusMapping.isResourceReady.lookup kind).isNone := by
  unfold doResourceStatusCheck
  cases StatusMapping.isResourceReady.lookup kind with
  | none => rfl
  | some ready =>
    cases entry : response.index "status" with
    | error e =>
      rw [entry] at status
      cases status
    | ok value => rfl

def badStatus : Exception := ⟨.runtimeError, "Bad status received from Kubernetes."⟩

section

variable {kube : Kubernetes} {node : Node} {ctx : OperationContext} {mapping : KubernetesApiMapping}
  {definition : KubernetesResourceDefinition} {s s' : State} {response : Value}

theorem healableResourceCheckStatus_unvalidated (unvalidated : node.validateResourceStatus = false)
    (read : doResourceRead kube .task mapping definition s = (.ok response, s'))
    (status : (response.index "status").isOk = true) :
    healableResourceCheckStatus kube node mapping definition s =
      (if StatusMapping.isResourceReady.lookup definition.kind = none then .ok () else .error badStatus, s') := by
  rw [healableResourceCheckStatus, bind_run, read]
  have verdict := doResourceStatusCheck_unvalidated definition.kind status
  by_cases named : definition.kind = ""
  · have unknown : StatusMapping.isResourceReady.lookup "" = none := by decide +kernel
    simp only [named, ne_eq, not_true_eq_false, if_false, unknown, if_true]
    rfl
  · simp only [ne_eq, named, not_false_eq_true, if_true, bind_run, unvalidated, verdict, ofExcept_run]
    cases StatusMapping.isResourceReady.lookup definition.kind <;> rfl

theorem resourceCheckStatus_unvalidated (unvalidated : node.validateResourceStatus = false)
    (read : doResourceRead kube .task mapping definition s = (.ok response, s'))
    (status : (response.index "status").isOk = true) :
    resourceCheckStatus kube node ctx mapping definition s =
      (if StatusMapping.isResourceReady.lookup definition.kind = none then .ok () else .error badStatus, s') := by
  rw [resourceCheckStatus, bind_run, attempt_run,
    healableResourceCheckStatus_unvalidated unvalidated read status]
  by_cases unknown : StatusMapping.isResourceReady.lookup definition.kind = none
  · rw [if_pos unknown]
    rfl
  · rw [if_neg unknown]
    rfl

end

/-- Without validation a status check of a resource that has been read completes exactly if the
    kind has no status class. -/
theorem unvalidated_completes_iff {kube : Kubernetes} {node : Node} (ctx : OperationContext)
    {mapping : KubernetesApiMapping} {definition : KubernetesResourceDefinition} {s s' : State} {response : Value}
    (unvalidated : node.validateResourceStatus = false)
    (read : doResourceRead kube .task mapping definition s = (.ok response, s'))
    (status : (response.index "status").isOk = true) :
    (resourceCheckStatus kube node ctx mapping definition s).1 = .ok () ↔
      definition.kind ∉ StatusMapping.isResourceReady.map Prod.fst := by
  rw [resourceCheckStatus_unvalidated unvalidated read status]
  have known : StatusMapping.isResourceReady.lookup definition.kind = none ↔
      definition.kind ∉ StatusMapping.isResourceReady.map Prod.fst := by
    rw [← lookup_isSome_iff, Option.not_isSome_iff_eq_none]
  rw [← known]
  by_cases unknown : StatusMapping.isResourceReady.lookup definition.kind = none <;> simp [unknown]

namespace Package

def podMapping : KubernetesApiMapping := .namespaced "CoreV1Api" "pod" "V1Pod"

def podNamed (name : String) : KubernetesResourceDefinition := { configMap name none with kind := "Pod" }

def runningPod (name : String) : Value := .dict
  [("api_version", .str "v1"), ("kind", .str "Pod"), ("metadata", .dict [("name", .str name)]),
    ("status", .dict [("phase", .str "Running")])]

def running : Kubernetes := package fun _ _ => .ok (runningPod "worker")

end Package

open Package

theorem runningPod_read :
    (doResourceRead running .task podMapping (podNamed "worker") mainNamespace).1 =
      .ok (runningPod "worker") := by
  rfl

/-- A pod that runs fails the check of a node without validation. -/
theorem running_fails :
    ((runningPod "worker").index "status").isOk = true ∧
      (doResourceRead running .task podMapping (podNamed "worker") mainNamespace).1 = .ok (runningPod "worker") ∧
      (resourceCheckStatus running ownNode install podMapping (podNamed "worker") mainNamespace).1 ≠ .ok () := by
  refine ⟨rfl, runningPod_read, fun completes => ?_⟩
  have fails : (resourceCheckStatus running ownNode install podMapping (podNamed "worker") mainNamespace).1.isOk =
      false := by decide +kernel
  rw [completes] at fails
  cases fails

theorem unvalidated_completes_iff_pod :
    (resourceCheckStatus running ownNode install podMapping (podNamed "worker") mainNamespace).1 = .ok () ↔
      (podNamed "worker").kind ∉ StatusMapping.isResourceReady.map Prod.fst :=
  unvalidated_completes_iff install rfl (Prod.ext runningPod_read rfl) rfl

end CloudifyKubernetes
