import CloudifyKubernetes.K8s.Client

namespace CloudifyKubernetes

namespace Package

def namespacedMethods (suffix : String) : List (String × List String) :=
  [("create_namespaced_" ++ suffix, ["namespace", "body"]),
    ("read_namespaced_" ++ suffix, ["name", "namespace"]),
    ("replace_namespaced_" ++ suffix, ["name", "namespace", "body"]),
    ("delete_namespaced_" ++ suffix, ["name", "namespace"]),
    ("delete_collection_namespaced_" ++ suffix, ["namespace"])]

def coreV1Api : List (String × List String) :=
  ["config_map", "pod", "persistent_volume_claim", "replication_controller"].flatMap namespacedMethods

def customObjectsApi : List (String × List String) :=
  [("create_namespaced_custom_object", ["group", "version", "namespace", "plural", "body"]),
    ("get_namespaced_custom_object", ["group", "version", "namespace", "plural", "name"]),
    ("replace_namespaced_custom_object", ["group", "version", "namespace", "plural", "name", "body"]),
    ("delete_namespaced_custom_object", ["group", "version", "namespace", "plural", "name"])]

def deleteOptionsFields : List String :=
  ["api_version", "dry_run", "grace_period_seconds", "kind", "orphan_dependents", "preconditions",
    "propagation_policy"]

/-- A model class: its fields are keyword arguments and, with an underscore, attributes. -/
def modelClass (name : String) (fields : List String) : PayloadClass where
  hasattr key := key ∈ fields
  construct arguments :=
    match arguments.find? fun e => e.1 ∉ fields with
    | some unexpected =>
      .error ⟨.typeError, "got an unexpected keyword argument " ++ unexpected.1⟩
    | none => .ok (.object name (fields.map fun field =>
        ("_" ++ field, (arguments.lookup field).getD .none)))

def payloadClasses : List (String × PayloadClass) :=
  [("V1DeleteOptions", modelClass "V1DeleteOptions" deleteOptionsFields),
    ("V1ConfigMap", modelClass "V1ConfigMap"
      ["api_version", "binary_data", "data", "immutable", "kind", "metadata"]),
    ("V1Pod", modelClass "V1Pod" ["api_version", "kind", "metadata", "spec", "status"]),
    ("V1PersistentVolumeClaim", modelClass "V1PersistentVolumeClaim"
      ["api_version", "kind", "metadata", "spec", "status"]),
    ("V1ReplicationController", modelClass "V1ReplicationController"
      ["api_version", "kind", "metadata", "spec", "status"])]

end Package

def package (respond : List Request → Request → Answer) : Kubernetes where
  apiClass name :=
    if name = "CoreV1Api" then some fun method => Package.coreV1Api.lookup method
    else if name = "CustomObjectsApi" then some fun method => Package.customObjectsApi.lookup method
    else none
  payloadClass name := Package.payloadClasses.lookup name
  apis := ["CoreV1Api", "CustomObjectsApi"]
  payloadName _ _ := none
  respond := respond

def nothing : Kubernetes :=
  package fun _ _ => .error (.apiException { status := some 404, reason := "Not Found" })

namespace Package

open Collections

def configMap (name : String) (namesp : Option String) : KubernetesResourceDefinition where
  kind := "ConfigMap"
  apiVersion := .str "v1"
  metadata := .dict (("name", .str name) ::
    (namesp.map fun text => ("namespace", Value.str text)).toList)
  attributes := .empty

def everything : Kubernetes := package fun _ request => .ok (.dict
  [("api_version", .str "v1"), ("kind", .str "ConfigMap"),
    ("metadata", .dict [("name", (request.arguments.get? "name").getD .none)])])

def configMapMapping : KubernetesApiMapping := .namespaced "CoreV1Api" "config_map" "V1ConfigMap"

def response (kind name : String) : Value := .dict
  [("api_version", .str "v1"), ("kind", .str kind), ("metadata", .dict [("name", .str name)])]

def ownNode : Node where
  allowNodeRedefinition := false
  validateResourceStatus := false

def install : OperationContext where
  workflowId := "install"
  operationName := "cloudify.interfaces.lifecycle.create"
  retryNumber := 0

def mainNamespace : State where
  runtime := {}
  options := OrderedDict.empty.set "namespace" (.str "main")
  log := []

end Package

end CloudifyKubernetes
