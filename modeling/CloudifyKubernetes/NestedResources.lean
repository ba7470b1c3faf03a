import CloudifyKubernetes.Operations

namespace CloudifyKubernetes

open Collections Effects

def textOfLines (lines : List String) : String := "\n".intercalate lines

def getServiceAccountPayload (name namesp : String) : String :=
  textOfLines
    ["\x7b",
      "    'apiVersion': 'v1',",
      "    'kind': 'ServiceAccount',",
      "    'metadata': \x7b",
      "        'name': " ++ name ++ ",",
      "        'namespace': " ++ namesp,
      "    \x7d",
      "\x7d"]

def getClusterRoleBindingPayload (name namesp : String) : String :=
  textOfLines
    ["\x7b",
      "    'apiVersion': 'rbac.authorization.k8s.io/v1',",
      "    'kind': 'ClusterRoleBinding',",
      "    'metadata': \x7b",
      "        'name': " ++ name,
      "    \x7d,",
      "    'roleRef': \x7b",
      "        'apiGroup': 'rbac.authorization.k8s.io',",
      "        'kind': 'ClusterRole',",
      "        'name': 'cluster-admin'",
      "    \x7d,",
      "    'subjects': [",
      "        \x7b",
      "            'kind': 'ServiceAccount',",
      "            'name': " ++ name ++ ",",
      "            'namespace': " ++ namesp,
      "        \x7d",
      "    ]",
      "\x7d"]

def tokenName : Value → Except Exception String
  | .str name => .ok (name ++ "-token")
  | _ => .error ⟨.typeError, "unsupported operand type(s) for +"⟩

def secretTemplate (tokenName serviceAccountName : String) : String :=
  textOfLines
    ["\x7b",
      "    'apiVersion': 'v1',",
      "    'kind': 'Secret',",
      "    'metadata': \x7b",
      "        'name': " ++ tokenName ++ ",",
      "        'annotations':  \x7b",
      "          'kubernetes.io/service-account.name': " ++ serviceAccountName,
      "        \x7d,",
      "    \x7d,",
      "    'type': 'kubernetes.io/service-account-token'",
      "\x7d"]

def getSecretPayload (serviceAccountName : Value) : Except Exception String := do
  let token ← tokenName serviceAccountName
  return secretTemplate token serviceAccountName.toText

section

variable (load : String → Except Exception Value) (kube : Kubernetes) (node : Node)

def resourceDefinitionFromPayload (payload : String) : Except Exception KubernetesResourceDefinition := do
  let keys ← load payload
  KubernetesResourceDefinition.ofStored keys

/-- `_multidefinition_resource_task` for the one definition of a payload, with what its task returns. -/
def payloadTask (task : KubernetesApiMapping → KubernetesResourceDefinition → Task Value) (payload : String) :
    Task Value := do
  let definition ← Program.ofExcept (resourceDefinitionFromPayload load payload)
  let mapping ← chooseMapping definition
  let _ ← Program.ofExcept (definition.metadata.get "name" .none)
  let path := definitionPath node none false 0
  let currentState ← recordedState path
  handleExistingResource node currentState
  let result ← task mapping definition
  modifyRuntime fun runtime => { runtime with performTask := none }
  if currentState.truthy then modifyRuntime (dropRecord path)
  return result

def deletedOrMissing (resourceId : Value) (mapping : KubernetesApiMapping)
    (definition : KubernetesResourceDefinition) : Task Value := do
  match ← (doResourceDelete kube node mapping definition resourceId).attempt with
  | .ok response => return response
  | .error e =>
    if e.isA .nonRecoverableError || e.isA .apiOperationError then
      if Text.contains e.text "(404)" then return .none
      else Program.raise ⟨.recoverableError, "Raising error: " ++ e.text⟩
    else Program.raise e

def resourceDeleteFromPayload (resourceId : Value) (payload : String) : Task Value := do
  match ← (payloadTask load node (deletedOrMissing kube node resourceId) payload).attempt with
  | .ok result => return result
  | .error e => Program.raise (resourceTaskError e)

end

abbrev TokenTask (α : Type) := Program (State × Dict) Exception α

def getProperties : TokenTask Dict := do
  let s ← Program.get
  return s.2

def modifyProperties (f : Dict → Dict) : TokenTask Unit := Program.modify fun s => (s.1, f s.2)

def resourceName (instanceId : String) : String := instanceId.map fun c => if c = '_' then '-' else c

def templateNamespace (options : Dict) : String := ((options.get? "namespace").getD (.str "default")).toText

def nestedOp (operation : Value → String → Task Value) (name namesp : String)
    (resource : String × (String → String → String)) : TokenTask Unit := do
  let result ← (operation (.str name) (resource.2 name namesp)).onFirst
  modifyProperties (·.set (resource.1 ++ "_response") result)

def nestedOps (resources : List (String × (String → String → String))) (operation : Value → String → Task Value)
    (name namesp : String) : TokenTask Unit := do
  let _ ← Program.forEach resources (nestedOp operation name namesp)

def nestedResourceTask (resources : List (String × (String → String → String)))
    (operation : Value → String → Task Value) (nestedOpsFirst : Bool) (instanceId : String)
    (task : TokenTask Unit) : TokenTask Unit := do
  let options ← getOptions.onFirst
  (setPerformTask true).onFirst
  if nestedOpsFirst then
    nestedOps resources operation (resourceName instanceId) (templateNamespace options)
    task
  else
    task
    nestedOps resources operation (resourceName instanceId) (templateNamespace options)

def responseName (response : Value) : Except Exception Value := do
  let metadata ← response.index "metadata"
  metadata.index "name"

def accountName (properties : Dict) : Except Exception Value :=
  match properties.get? "service_account_response" with
  | none => .error ⟨.keyError, Value.quote "service_account_response"⟩
  | some response => responseName response

section

def withoutToken (properties : Dict) : Dict := (properties.erase "k8s-service-account-token").erase "k8s-cacert"

variable (load : String → Except Exception Value) (kube : Kubernetes) (node : Node)

def deleteSecret : TokenTask Unit := do
  let properties ← getProperties
  let name ← Program.ofExcept (accountName properties)
  let payload ← Program.ofExcept (getSecretPayload name)
  let _ ← (resourceDeleteFromPayload load kube node (.str (name.toText ++ "-token")) payload).onFirst
  modifyProperties withoutToken

def deleteToken (instanceId : String) : TokenTask Unit :=
  nestedResourceTask
    [("service_account", getServiceAccountPayload), ("cluster_role_binding", getClusterRoleBindingPayload)]
    (resourceDeleteFromPayload load kube node) false instanceId (deleteSecret load kube node)

end

end CloudifyKubernetes
