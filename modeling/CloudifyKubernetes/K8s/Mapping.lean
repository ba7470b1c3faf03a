import CloudifyKubernetes.Python.Exception

namespace CloudifyKubernetes

structure KubernetesSingleOperationApiMapping where
  api : String
  method : String
  payload : Option String := none
  deriving DecidableEq, Repr

structure KubernetesApiMapping where
  create : KubernetesSingleOperationApiMapping
  read : KubernetesSingleOperationApiMapping
  update : KubernetesSingleOperationApiMapping
  delete : KubernetesSingleOperationApiMapping
  deriving DecidableEq, Repr

namespace KubernetesApiMapping

def namespaced (api suffix payload : String) : KubernetesApiMapping where
  create := ⟨api, "create_namespaced_" ++ suffix, some payload⟩
  read := ⟨api, "read_namespaced_" ++ suffix, none⟩
  update := ⟨api, "replace_namespaced_" ++ suffix, none⟩
  delete := ⟨api, "delete_namespaced_" ++ suffix, some "V1DeleteOptions"⟩

def clusterScoped (api suffix payload : String) : KubernetesApiMapping where
  create := ⟨api, "create_" ++ suffix, some payload⟩
  read := ⟨api, "read_" ++ suffix, none⟩
  update := ⟨api, "patch_" ++ suffix, none⟩
  delete := ⟨api, "delete_" ++ suffix, some "V1DeleteOptions"⟩

def replicationController : KubernetesApiMapping :=
  { namespaced "CoreV1Api" "replication_controller" "V1ReplicationController" with
    delete := ⟨"CoreV1Api", "delete_collection_namespaced_replication_controller", none⟩ }

def customObjectsApi : KubernetesApiMapping where
  create := ⟨"CustomObjectsApi", "create_namespaced_custom_object", none⟩
  read := ⟨"CustomObjectsApi", "get_namespaced_custom_object", none⟩
  update := ⟨"CustomObjectsApi", "replace_namespaced_custom_object", none⟩
  delete := ⟨"CustomObjectsApi", "delete_namespaced_custom_object", some "V1DeleteOptions"⟩

end KubernetesApiMapping

open KubernetesApiMapping

def supportedApiMappings : List (String × KubernetesApiMapping) :=
  [("StatefulSet", namespaced "AppsV1Api" "stateful_set" "V1StatefulSet"),
    ("DaemonSet", namespaced "AppsV1Api" "daemon_set" "V1DaemonSet"),
    ("PodSecurityPolicy", clusterScoped "PolicyV1Api" "pod_security_policy" "V1NetworkPolicy"),
    ("NetworkPolicy", namespaced "NetworkingV1Api" "network_policy" "V1NetworkPolicy"),
    ("Namespace", clusterScoped "CoreV1Api" "namespace" "V1Namespace"),
    ("Node", clusterScoped "CoreV1Api" "node" "V1Node"),
    ("ClusterRoleBinding",
      clusterScoped "RbacAuthorizationV1Api" "cluster_role_binding" "V1ClusterRoleBinding"),
    ("ClusterRole", clusterScoped "RbacAuthorizationV1Api" "cluster_role" "V1ClusterRole"),
    ("Deployment", namespaced "AppsV1Api" "deployment" "V1Deployment"),
    ("Pod", namespaced "CoreV1Api" "pod" "V1Pod"),
    ("ReplicaSet", namespaced "AppsV1Api" "replica_set" "V1ReplicaSet"),
    ("ReplicationController", replicationController),
    ("Service", namespaced "CoreV1Api" "service" "V1Service"),
    ("Ingress", namespaced "NetworkingV1Api" "ingress" "V1Ingress"),
    ("PersistentVolumeClaim",
      namespaced "CoreV1Api" "persistent_volume_claim" "V1PersistentVolumeClaim"),
    ("PersistentVolume", clusterScoped "CoreV1Api" "persistent_volume" "V1PersistentVolume"),
    ("StorageClass", clusterScoped "StorageV1Api" "storage_class" "V1StorageClass"),
    ("ConfigMap", namespaced "CoreV1Api" "config_map" "V1ConfigMap"),
    ("Secret", namespaced "CoreV1Api" "secret" "V1Secret"),
    ("ServiceAccount", namespaced "CoreV1Api" "service_account" "V1ServiceAccount"),
    ("Role", namespaced "RbacAuthorizationV1Api" "role" "V1Role"),
    ("RoleBinding", namespaced "RbacAuthorizationV1Api" "role_binding" "V1RoleBinding"),
    ("CustomResourceDefinition",
      clusterScoped "ApiextensionsV1Api" "custom_resource_definition" "V1CustomResourceDefinition"),
    ("CustomObjectsApi", customObjectsApi),
    ("MutatingWebhookConfiguration", clusterScoped "AdmissionregistrationV1Api"
      "mutating_webhook_configuration" "V1MutatingWebhookConfiguration"),
    ("ValidatingWebhookConfiguration", clusterScoped "AdmissionregistrationV1Api"
      "validating_webhook_configuration" "V1ValidatingWebhookConfiguration")]

def getMapping (kind : String) : Except Exception KubernetesApiMapping :=
  match supportedApiMappings.lookup kind with
  | some mapping => .ok mapping
  | none => .error ⟨.mappingNotFoundError,
      "Cloud not find API mapping for " ++ kind ++ " kind of kubernetes resource"⟩

example : (supportedApiMappings.map Prod.fst).Nodup := by decide +kernel

end CloudifyKubernetes
