import CloudifyKubernetes.Formats.Base64
import CloudifyKubernetes.NestedResources

namespace CloudifyKubernetes

open Collections Effects Formats

def faultText : Base64.Fault → String
  | .length characters => "Invalid base64-encoded string: number of data characters (" ++ toString characters ++
      ") cannot be 1 more than a multiple of 4"
  | .padding => "Incorrect padding"

def utf8Text (bytes : List UInt8) : Except Exception String :=
  match String.fromUTF8? ⟨bytes.toArray⟩ with
  | some text => .ok text
  | none => .error ⟨.valueError, "codec can't decode bytes"⟩

def isAscii (text : String) : Bool := text.toList.all fun c => c.toNat < 128

def decodedText : Value → Except Exception String
  | .str text =>
    if isAscii text then
      match Base64.decode text.toList with
      | .ok bytes => utf8Text bytes
      | .error fault => .error ⟨.valueError, faultText fault⟩
    else .error ⟨.valueError, "string argument should contain only ASCII characters"⟩
  | _ => .error ⟨.typeError, "argument should be a bytes-like object or ASCII string"⟩

section

variable (load : String → Except Exception Value) (kube : Kubernetes) (node : Node)

/-- The one round of `_multidefinition_resource_task` for a payload, without the cleanup. -/
def recordedPayloadTask (task : KubernetesApiMapping → KubernetesResourceDefinition → Task Value) (payload : String) :
    Task Value := do
  let definition ← Program.ofExcept (resourceDefinitionFromPayload load payload)
  let mapping ← chooseMapping definition
  let _ ← Program.ofExcept (definition.metadata.get "name" .none)
  let currentState ← recordedState (definitionPath node none false 0)
  handleExistingResource node currentState
  let result ← task mapping definition
  modifyRuntime fun runtime => { runtime with performTask := none }
  return result

def payloadResourceTask (task : KubernetesApiMapping → KubernetesResourceDefinition → Task Value) (payload : String) :
    Task Value := do
  match ← (recordedPayloadTask load node task payload).attempt with
  | .ok result => return result
  | .error e => Program.raise (resourceTaskError e)

def Exception.isConflict (e : Exception) : Bool := Text.contains e.text "409" || Text.contains e.text "already exists"

/-- The task of `resource_create_from_payload`. The read stands in a `finally`: it follows a creation
    that raises too, and then its own exception is the one that is raised. -/
def createThenRead (mapping : KubernetesApiMapping) (definition : KubernetesResourceDefinition) : Task Value := do
  let created ← (resourceCreateTask kube mapping definition).attempt
  let result ← doResourceRead kube .task mapping definition
  match created with
  | .ok _ => return result
  | .error e => if e.isConflict then return result else Program.raise e

def resourceCreateFromPayload (payload : String) : Task Value :=
  payloadResourceTask load node (createThenRead kube) payload

def resourceReadFromPayload (payload : String) : Task Value :=
  payloadResourceTask load node (doResourceRead kube .task) payload

def createdSecret (payload : String) : Task Value := do
  match ← (resourceCreateFromPayload load kube node payload).attempt with
  | .ok response => return response
  | .error _ => resourceReadFromPayload load kube node payload

end

def readProperties {α : Type} (f : Dict → Except Exception α) : TokenTask α := do
  let properties ← getProperties
  Program.ofExcept (f properties)

def storeProperty (key : String) (value : Value) : TokenTask Unit := modifyProperties (·.set key value)

def secretEntry (response : Value) (name : String) : Except Exception Value := do
  let data ← response.index "data"
  data.index name

def endpointOf (properties : Dict) : Except Exception Value :=
  match properties.get? "capabilities" with
  | none => .error ⟨.keyError, Value.quote "capabilities"⟩
  | some capabilities => capabilities.index "endpoint"

def secretPayload (properties : Dict) : Except Exception String := do
  let name ← accountName properties
  getSecretPayload name

def storeDecoded (key : String) (encoded : Value) : TokenTask Unit := do
  let text ← Program.ofExcept (decodedText encoded)
  storeProperty key (.str text)

def storeEndpoint : TokenTask Unit := do
  let endpoint ← readProperties endpointOf
  storeProperty "k8s-ip" endpoint

/-- What `create_token` and `read_token` do with the response of the secret. They differ in
    whether the endpoint is stored before the token. -/
def storeSecret (endpointFirst : Bool) (response : Value) : TokenTask Unit := do
  let token ← Program.ofExcept (secretEntry response "token")
  let certificate ← Program.ofExcept (secretEntry response "ca.crt")
  storeProperty "secret_response" response
  if endpointFirst then
    storeEndpoint
    storeDecoded "k8s-service-account-token" token
  else
    storeDecoded "k8s-service-account-token" token
    storeEndpoint
  storeDecoded "k8s-cacert" certificate

section

variable (load : String → Except Exception Value) (kube : Kubernetes) (node : Node)

def createSecret : TokenTask Unit := do
  let payload ← readProperties secretPayload
  let response ← (createdSecret load kube node payload).onFirst
  storeSecret false response

def readSecret : TokenTask Unit := do
  let payload ← readProperties secretPayload
  let response ← (resourceReadFromPayload load kube node payload).onFirst
  storeSecret true response

def checkSecret : TokenTask Unit := do
  let payload ← readProperties secretPayload
  let _ ← (resourceReadFromPayload load kube node payload).onFirst

def createToken (instanceId : String) : TokenTask Unit :=
  nestedResourceTask
    [("cluster_role_binding", getClusterRoleBindingPayload), ("service_account", getServiceAccountPayload)]
    (fun _ => resourceCreateFromPayload load kube node) true instanceId (createSecret load kube node)

def tokenResources : List (String × (String → String → String)) :=
  [("service_account", getServiceAccountPayload), ("cluster_role_binding", getClusterRoleBindingPayload)]

def readToken (instanceId : String) : TokenTask Unit :=
  nestedResourceTask tokenResources (fun _ => resourceReadFromPayload load kube node) true instanceId
    (readSecret load kube node)

def getTokenStatus (instanceId : String) : TokenTask Unit :=
  nestedResourceTask tokenResources (fun _ => resourceReadFromPayload load kube node) true instanceId
    (checkSecret load kube node)

end

end CloudifyKubernetes
