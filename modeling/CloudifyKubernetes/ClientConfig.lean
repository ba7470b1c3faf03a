import CloudifyKubernetes.Python.Value

namespace CloudifyKubernetes

open Collections

structure TargetRelationship where
  typeHierarchy : List String
  nodeTypeHierarchy : List String
  nodeProperties : Dict
  runtimeProperties : Dict

def TargetRelationship.toSharedCluster (x : TargetRelationship) : Bool :=
  decide ("cloudify.relationships.kubernetes.connected_to_shared_cluster" ∈ x.typeHierarchy) &&
    decide ("cloudify.kubernetes.resources.SharedCluster" ∈ x.nodeTypeHierarchy)

def masterTypes : List String := ["cloudify.nodes.kubernetes.Master", "cloudify.kubernetes.nodes.Master"]

def TargetRelationship.toMaster (x : TargetRelationship) : Bool := masterTypes.any (· ∈ x.nodeTypeHierarchy)

structure AksConnection where
  hasServiceAccount : Bool
  kubeconfigData : Except Exception Value

def Value.setDefault (value : Value) (key : String) (default : Value) : Except Exception Value :=
  match value with
  | .dict entries =>
    .ok (if (entries.lookup key).isSome then .dict entries else .dict (entries ++ [(key, default)]))
  | _ => .error ⟨.attributeError, "object has no attribute setdefault"⟩

def Value.setItem (value : Value) (key : String) (item : Value) : Value :=
  match value with
  | .dict entries => .dict (assign key item entries)
  | other => other

def runtimeProperty (properties : Dict) (key : String) : Except Exception Value :=
  match properties.get? key with
  | some value => .ok value
  | none => .error ⟨.keyError, Value.quote key⟩

theorem runtimeProperty_ok {properties : Dict} {key : String} {v : Value} (found : runtimeProperty properties key = .ok v) :
    properties.get? key = some v := by
  unfold runtimeProperty at found
  split at found
  · next held =>
    cases found
    exact held
  · cases found

theorem runtimeProperty_none {properties : Dict} {key : String} (absent : properties.get? key = none) :
    runtimeProperty properties key = .error ⟨.keyError, Value.quote key⟩ := by
  rw [runtimeProperty, absent]

def apiOptions (host apiKey sslCaCert : Value) : Value :=
  .dict [("configuration", .dict [("api_options", .dict [("host", host), ("api_key", apiKey), ("debug", .bool false),
    ("verify_ssl", .bool true), ("ssl_ca_cert", sslCaCert)])])]

/-- The config for a shared cluster, from the runtime properties that its operations have set. -/
def sharedClusterConfig (properties : Dict) : Except Exception Value := do
  let endpoint ← runtimeProperty properties "k8s-ip"
  let token ← runtimeProperty properties "k8s-service-account-token"
  let certificate ← runtimeProperty properties "k8s-cacert"
  return apiOptions endpoint token certificate

/-- The loop over the relationships: the first shared cluster ends it, and the last master before
    takes the place of the config so far. -/
def relatedConfig : List TargetRelationship → Value → Except Exception (Value ⊕ Value)
  | [], config => .ok (.inr config)
  | x :: rest, config =>
    if x.toSharedCluster then (sharedClusterConfig x.runtimeProperties).map .inl
    else if x.toMaster then
      relatedConfig rest (.dict [("configuration", (x.nodeProperties.get? "configuration").getD .none),
        ("authentication", (x.nodeProperties.get? "authentication").getD .none)])
    else relatedConfig rest config

def ownConfig (properties kwargs : Dict) : Except Exception Value := do
  let config ← ((properties.get? "client_config").getD ((kwargs.get? "client_config").getD (.dict []))).setDefault
    "configuration" (.dict [])
  let config ← config.setDefault "authentication" (.dict [])
  let configuration ← config.index "configuration"
  let configuration ← configuration.setDefault "api_options" (.dict [])
  return config.setItem "configuration" configuration

def getClientConfig (aksConnection : Value → Except Exception AksConnection) (properties kwargs : Dict)
    (relationships : List TargetRelationship) : Except Exception Value := do
  let config ← ownConfig properties kwargs
  match ← relatedConfig relationships config with
  | .inl shared => return shared
  | .inr config =>
    let authentication ← config.index "authentication"
    let az ← aksConnection authentication
    if az.hasServiceAccount then
      let configuration ← config.index "configuration"
      let content ← configuration.get "file_content" .none
      if content.truthy then return config
      else
        let data ← az.kubeconfigData
        return config.setItem "configuration" (.dict [("file_content", data)])
    else return config

theorem relatedConfig_append {front : List TargetRelationship} (unshared : ∀ x ∈ front, x.toSharedCluster = false)
    {x : TargetRelationship} (shared : x.toSharedCluster = true) (rest : List TargetRelationship) (config : Value) :
    relatedConfig (front ++ x :: rest) config = (sharedClusterConfig x.runtimeProperties).map .inl := by
  induction front generalizing config with
  | nil => rw [List.nil_append, relatedConfig, if_pos shared]
  | cons y others ih =>
    obtain ⟨first, others⟩ := List.forall_mem_cons.mp unshared
    rw [List.cons_append, relatedConfig, if_neg (by rw [first]; exact Bool.false_ne_true)]
    split <;> exact ih others _

theorem getClientConfig_shared {aksConnection : Value → Except Exception AksConnection} {properties kwargs : Dict}
    {front : List TargetRelationship} (unshared : ∀ x ∈ front, x.toSharedCluster = false) {x : TargetRelationship}
    (shared : x.toSharedCluster = true) (rest : List TargetRelationship) :
    getClientConfig aksConnection properties kwargs (front ++ x :: rest) =
      ownConfig properties kwargs >>= fun _ => sharedClusterConfig x.runtimeProperties := by
  unfold getClientConfig
  congr 1
  funext config
  rw [relatedConfig_append unshared shared]
  cases sharedClusterConfig x.runtimeProperties <;> rfl

end CloudifyKubernetes
