import CloudifyKubernetes.ApiRuns
import CloudifyKubernetes.Operations

namespace CloudifyKubernetes

open Collections Effects Program

def KubernetesResourceDefinition.released (d : KubernetesResourceDefinition)
    (entries : List (String × Value)) : KubernetesResourceDefinition where
  kind := shortKind d.kind
  apiVersion := d.apiVersion
  metadata := .dict (assign "finalizers" .none entries)
  attributes := .empty

def readOutcome : Except Exception Value → Except Exception (Option Exception)
  | .ok _ => .ok none
  | .error e =>
    if e.isA .nonRecoverableError || e.isA .apiOperationError then
      if Text.contains e.text "(404)" then .ok (some ⟨.missingResource, e.text⟩)
      else .ok (some ⟨.recoverableError, "Raising error: " ++ e.text⟩)
    else .error e

theorem readWhileAdjacentResources_run (kube : Kubernetes) (mapping : KubernetesApiMapping)
    (definition : KubernetesResourceDefinition) (s : State) :
    readWhileAdjacentResources kube mapping definition s =
      (readOutcome (doResourceRead kube .task mapping definition s).1,
        (doResourceRead kube .task mapping definition s).2) := by
  simp only [readWhileAdjacentResources, bind_run, attempt_run]
  generalize doResourceRead kube .task mapping definition s = ran
  obtain ⟨e | value, s'⟩ := ran
  · simp only [readOutcome]
    split
    · split <;> rfl
    · rfl
  · rfl

section

variable {kube : Kubernetes} {mapping : KubernetesApiMapping} {definition : KubernetesResourceDefinition}
  {entries : List (String × Value)}

theorem customAnnotations_released (metadata : definition.metadata = .dict entries) :
    customAnnotations (definition.released entries) = customAnnotations definition := by
  simp only [customAnnotations, KubernetesResourceDefinition.released, metadata, Value.get,
    lookup_assign, String.reduceEq, if_false]

theorem preparePvcDelete_unversioned (metadata : definition.metadata = .dict entries)
    (unversioned : definition.apiVersion.isNone = true) (s : State) :
    ∃ e, preparePvcDelete kube mapping definition s = (.error e, s) := by
  obtain ⟨e, failed⟩ := KubernetesResourceDefinition.ofParts_unversioned definition.kind unversioned
    (.dict (assign "finalizers" .none entries))
  refine ⟨e, ?_⟩
  simp only [preparePvcDelete, metadata, withoutFinalizers, bind_run, ofExcept_run, failed]

def forgiven : Except Exception Value → Except Exception Unit
  | .ok _ => .ok ()
  | .error e => if e.isA .apiOperationError then .ok () else .error e

theorem preparePvcDelete_versioned (metadata : definition.metadata = .dict entries)
    (versioned : definition.apiVersion.isNone = false) (s : State) :
    preparePvcDelete kube mapping definition s =
      (forgiven (doResourceUpdate kube mapping (definition.released entries) s).1,
        (doResourceUpdate kube mapping (definition.released entries) s).2) := by
  have complete : KubernetesResourceDefinition.ofParts (.str definition.kind) definition.apiVersion
      (.dict (assign "finalizers" .none entries)) = .ok (definition.released entries) :=
    KubernetesResourceDefinition.ofParts_str definition.kind versioned rfl
  simp only [preparePvcDelete, metadata, withoutFinalizers, bind_run, ofExcept_run, complete, attempt_run]
  generalize doResourceUpdate kube mapping (definition.released entries) s = run
  obtain ⟨e | value, s'⟩ := run
  · simp only [forgiven]
    split <;> rfl
  · rfl

end

end CloudifyKubernetes
