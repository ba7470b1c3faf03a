import CloudifyKubernetes.Context

namespace CloudifyKubernetes

open Collections Effects

structure PayloadClass where
  hasattr : String → Bool
  construct : List (String × Value) → Except Exception Value

/-- The `kubernetes.client` package together with the cluster behind it. An API class maps
    its method names to the argument names of each method, `self` left out. What the
    cluster answers may depend on every request made before. -/
structure Kubernetes where
  apiClass : String → Option (String → Option (List String))
  payloadClass : String → Option PayloadClass
  apis : List String
  payloadName : String → String → Option String
  respond : List Request → Request → Answer

def optionalText (value : Option String) : String := value.getD "None"

def ApiException.toText (e : ApiException) : String :=
  "(" ++ optionalText (e.status.map toString) ++ ")\nReason: " ++ e.reason ++ "\n" ++
    (e.headers.elim "" fun headers => "HTTP response headers: " ++ headers ++ "\n") ++
    e.body.elim "" fun body => "HTTP response body: " ++ body ++ "\n"

def Failure.raised : Failure → Exception
  | .apiException e => ⟨.apiOperationError,
      "Operation execution failed. Exception during Kubernetes API call: " ++ e.toText⟩
  | .other text => ⟨.runtimeError, text⟩

namespace KubernetesSingleOperationApiMapping

def alternates (kube : Kubernetes) (m : KubernetesSingleOperationApiMapping) :
    List KubernetesSingleOperationApiMapping :=
  kube.apis.filterMap fun name =>
    if name = m.api then none
    else if ((kube.apiClass name).bind (· m.method)).isSome then
      some ⟨name, m.method, m.payload.bind fun _ => kube.payloadName name m.method⟩
    else none

end KubernetesSingleOperationApiMapping

section Client

variable (kube : Kubernetes)

def preparePayload (className : Option String) (definition : KubernetesResourceDefinition) :
    Except Exception Value :=
  match className with
  | none => .ok definition.toDict
  | some name =>
    match kube.payloadClass name with
    | none => .error ⟨.invalidPayloadClassError,
        "Cannot create instance of Kubernetes API payload class: " ++ name⟩
    | some cls => cls.construct definition.vars

def prepareOperation (m : KubernetesSingleOperationApiMapping) : Except Exception (List String) :=
  match kube.apiClass m.api with
  | none => .error ⟨.invalidApiClassError,
      "Cannot create instance of Kubernetes API class: " ++ m.api⟩
  | some cls =>
    match cls m.method with
    | none => .error ⟨.invalidApiMethodError,
        "Method " ++ m.method ++ " not supported by Kubernetes API class " ++ m.api⟩
    | some names => .ok names

def Verb.acceptedArguments : Verb → List String
  | .create | .update => []
  | .read _ => ["exact", "export"]
  | .delete _ => ["grace_period_seconds", "propagation_policy"]

def takeArgument (arguments result : Dict) (name : String) : Dict :=
  match arguments.get? name with
  | some value => result.set name value
  | none => result

def prepareArguments (mandatory accepted : List String) (arguments : Dict) : Except Exception Dict :=
  match mandatory.find? (fun name => !arguments.contains name) with
  | some missing => .error ⟨.apiOperationError,
      "Invalid input data for execution of Kubernetes API method: input argument " ++ missing ++
        " is not defined but is mandatory"⟩
  | none => .ok ((mandatory ++ accepted).foldl (takeArgument arguments) .empty)

def send (call : ClientCall) (request : Request) : Task Value := do
  let s ← Program.get
  let answer := kube.respond s.requests request
  record (.requested call request answer)
  match answer with
  | .ok result => return result
  | .error failure => Program.raise failure.raised

def executeOperation (call : ClientCall) (m : KubernetesSingleOperationApiMapping)
    (names : List String) : Task Value := do
  let options ← getOptions
  let arguments ← Program.ofExcept (prepareArguments names call.verb.acceptedArguments options)
  send kube call ⟨m.api, m.method, arguments⟩

def dropFalsy (options : Dict) : Dict := options.filter fun _ value => value.truthy

def namespaceMismatch : String :=
  "the namespace of the provided object does not match the namespace sent on the request"

def executionError (e : Exception) : Exception :=
  if Text.contains e.text namespaceMismatch then ⟨.nonRecoverableError, e.text⟩
  else ⟨.apiOperationError, "Exception during Kubernetes API call: " ++ e.text⟩

def execute (call : ClientCall) (m : KubernetesSingleOperationApiMapping) : Task Value := do
  let names ← Program.ofExcept (prepareOperation kube m)
  modifyOptions dropFalsy
  match ← (executeOperation kube call m names).attempt with
  | .ok result => return result
  | .error e => Program.raise (executionError e)

def versionMismatch : String := "does not match the expected API version"

def Exception.isVersionMismatch (e : Exception) : Bool :=
  e.isA .apiOperationError && Text.contains e.text versionMismatch

def executeAlternates (call : ClientCall) (primary : Exception) :
    List KubernetesSingleOperationApiMapping → Task Value
  | [] => Program.raise primary
  | alternate :: rest => do
    match ← (execute kube call alternate).attempt with
    | .ok result => return result
    | .error e =>
      if e.isVersionMismatch then executeAlternates call primary rest else Program.raise e

def executeWithAlternates (call : ClientCall) (m : KubernetesSingleOperationApiMapping) :
    Task Value := do
  match ← (execute kube call m).attempt with
  | .ok result => return result
  | .error e =>
    if e.isVersionMismatch then executeAlternates kube call e (m.alternates kube)
    else Program.raise e

def matchedNamespace (fromDefinition : Value) (options : Dict) : Dict :=
  match options.get? "namespace" with
  | some current =>
    if fromDefinition.truthy && !current.eq fromDefinition then
      options.set "namespace" fromDefinition
    else options
  | none => options

def matchNamespace (definition : KubernetesResourceDefinition) : Task Unit := do
  let fromDefinition ← Program.ofExcept (definition.metadata.get "namespace" .none)
  modifyOptions (matchedNamespace fromDefinition)

def traced (call : ClientCall) (body : Task Value) : Task Value := do
  record (.called call)
  let result ← body.attempt
  record (.returned call result)
  Program.ofExcept result

def createResource (mapping : KubernetesApiMapping) (definition : KubernetesResourceDefinition) :
    Task Value :=
  let call : ClientCall := ⟨.create, mapping, definition⟩
  traced call do
    let body ← Program.ofExcept (preparePayload kube mapping.create.payload definition)
    modifyOptions (·.set "body" body)
    matchNamespace definition
    executeWithAlternates kube call mapping.create

def readResource (site : Site) (mapping : KubernetesApiMapping)
    (definition : KubernetesResourceDefinition) : Task Value :=
  let call : ClientCall := ⟨.read site, mapping, definition⟩
  traced call do
    let name ← Program.ofExcept (definition.metadata.index "name")
    modifyOptions (·.set "name" name)
    matchNamespace definition
    executeWithAlternates kube call mapping.read

def updateResource (mapping : KubernetesApiMapping) (definition : KubernetesResourceDefinition) :
    Task Value :=
  let call : ClientCall := ⟨.update, mapping, definition⟩
  traced call do
    let body ← Program.ofExcept (preparePayload kube mapping.create.payload definition)
    modifyOptions (·.set "body" body)
    let name ← Program.ofExcept (definition.metadata.index "name")
    modifyOptions (·.set "name" name)
    matchNamespace definition
    executeWithAlternates kube call mapping.update

/-- The body of a delete request: the options that the class of the payload has as
    attributes. The options are never empty here, so the default policy is only reached
    without the class. -/
def prepareDeleteOptionsResource (className : Option String) (options : Dict) :
    Except Exception Value :=
  match className with
  | none => .error ⟨.typeError, "attribute name must be string"⟩
  | some name =>
    match kube.payloadClass name with
    | none => .error ⟨.attributeError, "module has no attribute " ++ name⟩
    | some cls =>
      if options.isEmpty then cls.construct [("propagation_policy", .str "Foreground")]
      else cls.construct (options.items.filter fun e => cls.hasattr e.1)

/-- The keys of the delete payload: those of an instance of `V1DeleteOptions` lose their
    first character. -/
def deletePayloadKeys : Value → Except Exception (List String)
  | .dict entries => .ok (entries.map Prod.fst)
  | .object cls attributes =>
    if cls = "V1DeleteOptions" then
      .ok (attributes.map fun e => String.ofList (e.1.toList.drop 1))
    else .error ⟨.attributeError, "object has no attribute keys"⟩
  | _ => .error ⟨.attributeError, "object has no attribute keys"⟩

def remainingOptions (taken : List String) (options : Dict) : Dict :=
  options.filter fun key _ => key ∉ taken

def deleteResource (mapping : KubernetesApiMapping) (definition : KubernetesResourceDefinition)
    (resourceId : Value) : Task Value :=
  let call : ClientCall := ⟨.delete resourceId, mapping, definition⟩
  traced call do
    if definition.kind ≠ "ReplicationController" then
      modifyOptions (·.set "name" resourceId)
      let options ← getOptions
      let payload ← Program.ofExcept
        (prepareDeleteOptionsResource kube mapping.delete.payload options)
      modifyOptions (·.set "body" payload)
      let taken ← Program.ofExcept (deletePayloadKeys payload)
      let options ← getOptions
      -- The remaining options are a new dictionary: what follows edits that one.
      withOptions (remainingOptions taken options) do
        matchNamespace definition
        executeWithAlternates kube call mapping.delete
    else
      matchNamespace definition
      executeWithAlternates kube call mapping.delete

end Client

end CloudifyKubernetes
