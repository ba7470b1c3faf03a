import CloudifyKubernetes.ApiCalls
import CloudifyKubernetes.Decorators

namespace CloudifyKubernetes

open Collections Effects

variable (kube : Kubernetes) (node : Node) (ctx : OperationContext)

def resourceCreateTask (mapping : KubernetesApiMapping) (definition : KubernetesResourceDefinition) :
    Task Value := do
  match ← (doResourceCreate kube mapping definition).attempt with
  | .ok result => return result
  | .error e =>
    if e.isA .apiOperationError && Text.contains e.text "(409)" then
      Program.raise ⟨.nonRecoverableError, "The resource " ++ definition.toDict.repr ++
        " already exists. If you wish to use the existing resource, please toggle the runtime " ++
        "property use_external_resource to true."⟩
    else Program.raise e

def fileResourceCreateTask (path : String) (mapping : KubernetesApiMapping)
    (definition : KubernetesResourceDefinition) : Task Unit := do
  let found ← checkIfResourceExists kube .beforeCreate mapping definition
  handleExistingResource node found
  let result ← if ← getPerformTask then doResourceCreate kube mapping definition else pure found
  storeResultForRetrieveId result path

def fileResourceUpdateTask (path : String) (mapping : KubernetesApiMapping)
    (definition : KubernetesResourceDefinition) : Task Unit := do
  let result ← doResourceUpdate kube mapping definition
  storeResultForRetrieveId result path

/-- What the read tasks do with the response: the status is checked, and only an exception
    of the check counts. -/
def checkStatusOf (definition : KubernetesResourceDefinition) (response : Value) : Task Unit := do
  if definition.kind ≠ "" then
    let _ ← Program.ofExcept
      (doResourceStatusCheck node.validateResourceStatus definition.kind response)

def healableResourceCheckStatus (mapping : KubernetesApiMapping)
    (definition : KubernetesResourceDefinition) : Task Unit := do
  let response ← doResourceRead kube .task mapping definition
  if definition.kind ≠ "" then
    let ready ← Program.ofExcept
      (doResourceStatusCheck node.validateResourceStatus definition.kind response)
    if !ready then Program.raise ⟨.runtimeError, "Bad status received from Kubernetes."⟩

def OperationContext.heals (ctx : OperationContext) : Bool :=
  ctx.workflowId == "heal" && ctx.retryNumber == 0 && Text.contains ctx.operationName "check_status"

def resourceCheckStatus (mapping : KubernetesApiMapping)
    (definition : KubernetesResourceDefinition) : Task Unit := do
  match ← (healableResourceCheckStatus kube node mapping definition).attempt with
  | .ok _ => return ()
  | .error e =>
    if e.isA .apiOperationError && ctx.heals then
      setPerformTask true
      let _ ← resourceCreateTask kube mapping definition
      Program.raise ⟨.operationRetry, "Attempted to heal resource, retrying check status."⟩
    else Program.raise e

def fileResourceReadTask (path : String) (mapping : KubernetesApiMapping)
    (definition : KubernetesResourceDefinition) : Task Unit := do
  let _ ← retrieveLastCreatePath path false
  let response ← doResourceRead kube .task mapping definition
  storeResultForRetrieveId response path
  checkStatusOf node definition response

def resourceCheckDriftTask (checkDrift : Value → Value → Except Exception Value) (path : String)
    (mapping : KubernetesApiMapping) (definition : KubernetesResourceDefinition) : Task Unit := do
  let previous ← getResultForRetrieveId path
  let current ← doResourceRead kube .task mapping definition
  let diff ← Program.ofExcept (checkDrift previous current)
  if diff.truthy then Program.raise ⟨.runtimeError, "The resource has drifted: " ++ diff.toText⟩

def recordedResource (path : String) : Task (LastCreatePath × Value × Value) := do
  let found ← retrieveLastCreatePath path true
  let kind ← Program.ofExcept (found.resource.index "kind")
  let metadata ← Program.ofExcept (found.resource.index "metadata")
  return (found, kind, metadata)

def recordedVersion (resource : Value) : Except Exception Value := do
  let camel ← resource.get "apiVersion" .none
  if camel.truthy then return camel else resource.get "api_version" .none

/-- The adjacent records, and what is deleted: the definition of the record at the path, or
    without one the stored definition or the given one. -/
def getPathWithAdjacentResources (path : String) (mapping : KubernetesApiMapping)
    (definition : KubernetesResourceDefinition) :
    Task (List (String × Value) × KubernetesResourceDefinition × KubernetesApiMapping) := do
  match ← (recordedResource path).attempt with
  | .error e =>
    if e.isA .nonRecoverableError || e.isA .typeError || e.isA .keyError then
      let chosen ← retrieveStoredResource node definition mapping true
      return ([], chosen)
    else Program.raise e
  | .ok (found, kind, metadata) =>
    let version ← Program.ofExcept (recordedVersion found.resource)
    if version.truthy then
      let definition ← Program.ofExcept (KubernetesResourceDefinition.ofParts kind version metadata)
      let mapping ← Program.ofExcept (mappingByKind [] definition)
      return (found.adjacent, definition, mapping)
    else Program.raise ⟨.nonRecoverableError,
      "Received invalid resource with no API version: " ++ found.resource.toText⟩

def readWhileAdjacentResources (mapping : KubernetesApiMapping)
    (definition : KubernetesResourceDefinition) : Task (Option Exception) := do
  match ← (doResourceRead kube .task mapping definition).attempt with
  | .ok _ => return none
  | .error e =>
    if e.isA .nonRecoverableError || e.isA .apiOperationError then
      if Text.contains e.text "(404)" then return some ⟨.missingResource, e.text⟩
      else return some ⟨.recoverableError, "Raising error: " ++ e.text⟩
    else Program.raise e

def pvcProtection : String :=
  Value.quote "finalizers" ++ ": [" ++ Value.quote "kubernetes.io/pvc-protection" ++ "]"

def withoutFinalizers : Value → Except Exception Value
  | .dict entries => .ok (.dict (assign "finalizers" .none entries))
  | _ => .error ⟨.typeError, "object does not support item assignment"⟩

def preparePvcDelete (mapping : KubernetesApiMapping) (definition : KubernetesResourceDefinition) :
    Task Unit := do
  let metadata ← Program.ofExcept (withoutFinalizers definition.metadata)
  let released ← Program.ofExcept
    (KubernetesResourceDefinition.ofParts (.str definition.kind) definition.apiVersion metadata)
  match ← (doResourceUpdate kube mapping released).attempt with
  | .ok _ => return ()
  | .error e => if e.isA .apiOperationError then return () else Program.raise e

def storeAdjacent (adjacent : List (String × Value)) : Task Unit := do
  let _ ← Program.forEach adjacent fun entry => storeResultForRetrieveId entry.2 entry.1

/-- What follows a deletion that has been answered: a claim is released from its finalizer, and
    the records go back, for the object may still be there. -/
def afterDeletion (path : String) (mapping : KubernetesApiMapping)
    (definition : KubernetesResourceDefinition) (adjacent : List (String × Value)) (response : Value) :
    Task (Option Exception) := do
  handleDeleteResource node true
  let perform ← getPerformTask
  if Text.contains response.toText pvcProtection then preparePvcDelete kube mapping definition
  if perform then
    storeResultForRetrieveId definition.cleanup path
    storeAdjacent adjacent
    return some ⟨.operationRetry, "Delete response: " ++ response.toText⟩
  else return none

def deleteWhileAdjacentResources (path : String) (mapping : KubernetesApiMapping)
    (definition : KubernetesResourceDefinition) (adjacent : List (String × Value)) :
    Task (Option Exception) := do
  let name ← Program.ofExcept (definition.metadata.index "name")
  match ← (doResourceDelete kube node mapping definition name).attempt with
  | .error e =>
    -- `'(404)' in exception` asks the exception object, which is not iterable.
    if e.isA .apiOperationError then
      Program.raise ⟨.typeError, "argument of type KuberentesApiOperationError is not iterable"⟩
    else Program.raise e
  | .ok response => afterDeletion kube node path mapping definition adjacent response

def adjacentDefinition (resource : Value) : Except Exception (Option KubernetesResourceDefinition) := do
  let kind ← resource.get "kind" .none
  let version ← resource.get "api_version" .none
  let metadata ← resource.get "metadata" .none
  if metadata.truthy && version.truthy && kind.truthy then
    let definition ← KubernetesResourceDefinition.ofParts kind version metadata
    return some definition
  else return none

/-- The deletion of every adjacent resource, as the source does it with the mapping of the
    definition that has just been read. `delete` is the recursive call. -/
def deleteAdjacentResources (delete : KubernetesApiMapping → KubernetesResourceDefinition → Task Unit)
    (definition : KubernetesResourceDefinition) (adjacent : List (String × Value)) : Task Unit := do
  let _ ← Program.forEach adjacent fun entry => do
    match ← Program.ofExcept (adjacentDefinition entry.2) with
    | none => return ()
    | some inner =>
      let innerMapping ← Program.ofExcept (mappingByKind [] definition)
      delete innerMapping inner

/-- What `_file_resource_delete` does with the records that it has taken. -/
def deleteWithAdjacentResources
    (delete : KubernetesApiMapping → KubernetesResourceDefinition → Task Unit) (path : String)
    (adjacent : List (String × Value)) (definition : KubernetesResourceDefinition)
    (mapping : KubernetesApiMapping) : Task Unit := do
  match ← readWhileAdjacentResources kube mapping definition with
  | some e =>
    if e.isA .missingResource then
      if adjacent.isEmpty then return ()
      else
        deleteAdjacentResources delete definition adjacent
        storeAdjacent adjacent
        Program.raise ⟨.operationRetry,
          "Continue to deletion of adjacent resources: " ++ e.text⟩
    else Program.raise e
  | none =>
    match ← deleteWhileAdjacentResources kube node path mapping definition adjacent with
    | some e => if e.isA .operationRetry && !e.isA .missingResource then Program.raise e
    | none => pure ()
    if adjacent.isEmpty then return ()
    else
      storeAdjacent adjacent
      Program.raise ⟨.operationRetry, "Retrying for adjacent resources."⟩

/-- The recursion takes every adjacent resource under the path of the first one. The depth
    stands for the recursion limit. -/
def fileResourceDeleteTask (depth : Nat) (path : String) (mapping : KubernetesApiMapping)
    (definition : KubernetesResourceDefinition) : Task Unit :=
  match depth with
  | 0 => Program.raise ⟨.recursionError, "maximum recursion depth exceeded"⟩
  | depth + 1 => do
    let runtime ← getRuntime
    record (.entered path mapping definition runtime)
    let (adjacent, definition, mapping) ←
      getPathWithAdjacentResources node path mapping definition
    deleteWithAdjacentResources kube node (fileResourceDeleteTask depth path) path adjacent definition mapping

def recursionDepth (runtime : RuntimeProperties) : Nat :=
  (runtime.kubernetes.getD .empty).items.length + 1

def resourceCreate (definition : KubernetesResourceDefinition) : Task Unit :=
  resourceTask node
    { task := fun _ mapping definition => do
        let result ← resourceCreateTask kube mapping definition
        storeResultForRetrieveId result ""
      retrieveMapping := chooseMapping
      resourceStateFunction := some (checkIfResourceExists kube .stateFunction) } none [definition]

def customResourceCreate (definition : KubernetesResourceDefinition) : Task Unit :=
  resourceTask node
    { task := fun _ mapping definition => do
        let result ← doResourceCreate kube mapping definition
        storeResultForRetrieveId result ""
      retrieveMapping := fun _ => Program.ofExcept (mappingByData node)
      resourceStateFunction := some (checkIfResourceExists kube .stateFunction) } none [definition]

def fileResourceCreate (file : Option String) (definitions : List KubernetesResourceDefinition) :
    Task Unit :=
  resourceTask node
    { task := fileResourceCreateTask kube node, retrieveMapping := chooseMapping } file definitions

def fileResourceUpdate (file : Option String) (definitions : List KubernetesResourceDefinition) :
    Task Unit :=
  resourceTask node
    { task := fileResourceUpdateTask kube, retrieveMapping := chooseMapping } file definitions

def readAndStore (mapping : KubernetesApiMapping) (definition : KubernetesResourceDefinition) :
    Task Unit := do
  let response ← doResourceRead kube .task mapping definition
  storeResultForRetrieveId response ""
  checkStatusOf node definition response

def resourceRead (definition : KubernetesResourceDefinition) : Task Unit :=
  resourceTask node
    { task := fun _ => readAndStore kube node
      retrieveMapping := chooseMapping
      resourceStateFunction := some (checkIfResourceExists kube .stateFunction) } none [definition]

def customResourceRead (definition : KubernetesResourceDefinition) : Task Unit :=
  resourceTask node
    { task := fun _ => readAndStore kube node
      retrieveMapping := fun _ => Program.ofExcept (mappingByData node)
      resourceStateFunction := some (checkIfResourceExists kube .stateFunction) } none [definition]

def resourceReadCheckStatus (definition : KubernetesResourceDefinition) : Task Unit :=
  resourceTask node
    { task := fun _ => resourceCheckStatus kube node ctx, retrieveMapping := chooseMapping }
    none [definition]

def customCheckStatus (definition : KubernetesResourceDefinition) : Task Unit :=
  resourceTask node
    { task := fun _ => resourceCheckStatus kube node ctx
      retrieveMapping := fun _ => Program.ofExcept (mappingByData node)
      resourceStateFunction := some (checkIfResourceExists kube .stateFunction) } none [definition]

def fileResourceCheckStatus (file : Option String) (definitions : List KubernetesResourceDefinition) :
    Task Unit :=
  resourceTask node
    { task := fun _ => resourceCheckStatus kube node ctx, retrieveMapping := chooseMapping }
    file definitions

def fileResourceRead (file : Option String) (definitions : List KubernetesResourceDefinition) :
    Task Unit :=
  resourceTask node
    { task := fileResourceReadTask kube node, retrieveMapping := chooseMapping } file definitions

def fileResourceCheckDrift (checkDrift : Value → Value → Except Exception Value) (file : Option String)
    (definitions : List KubernetesResourceDefinition) : Task Unit :=
  resourceTask node
    { task := resourceCheckDriftTask kube checkDrift, retrieveMapping := chooseMapping } file definitions

def resourceUpdate (definition : KubernetesResourceDefinition) : Task Unit :=
  resourceTask node
    { task := fun _ => fileResourceUpdateTask kube ""
      retrieveMapping := chooseMapping
      resourceStateFunction := some (checkIfResourceExists kube .stateFunction) } none [definition]

def customResourceUpdate (definition : KubernetesResourceDefinition) : Task Unit :=
  resourceTask node
    { task := fun _ => fileResourceUpdateTask kube ""
      retrieveMapping := fun _ => Program.ofExcept (mappingByData node) } none [definition]

/-- The delete tasks of a single resource: a read error with the marker of a missing
    resource ends the task, any other is retried. `exists` is what decides at the end. -/
def deleteUnlessMissing (marker : String)
    (resourceExists : Value → KubernetesApiMapping → KubernetesResourceDefinition → Task Value)
    (mapping : KubernetesApiMapping) (definition : KubernetesResourceDefinition) : Task Unit := do
  match ← (doResourceRead kube .task mapping definition).attempt with
  | .error e =>
    if e.isA .apiOperationError then
      if Text.contains e.text marker then return ()
      else Program.raise ⟨.recoverableError, "Raising error: " ++ e.text⟩
    else Program.raise e
  | .ok found =>
    let (definition, mapping) ← retrieveStoredResource node definition mapping true
    let name ← Program.ofExcept (definition.metadata.index "name")
    let response ← doResourceDelete kube node mapping definition name
    let found' ← resourceExists found mapping definition
    handleDeleteResource node found'.truthy
    if ← getPerformTask then
      storeResultForRetrieveId found ""
      Program.raise ⟨.operationRetry, "Delete response: " ++ response.toText⟩

def codeMarker : String := "\"code\":404"

def resourceDelete (definition : KubernetesResourceDefinition) : Task Unit :=
  resourceTask node
    { task := fun _ => deleteUnlessMissing kube node codeMarker fun found _ _ => pure found
      retrieveMapping := chooseMapping
      cleanupRuntimeProperties := true
      resourceStateFunction := some (checkIfResourceExists kube .stateFunction) } none [definition]

def customResourceDelete (definition : KubernetesResourceDefinition) : Task Unit :=
  resourceTask node
    { task := fun _ => deleteUnlessMissing kube node "(404)" fun _ =>
        checkIfResourceExists kube .afterDelete
      retrieveMapping := fun _ => Program.ofExcept (mappingByData node)
      cleanupRuntimeProperties := true
      resourceStateFunction := some (checkIfResourceExists kube .stateFunction) } none [definition]

def fileResourceDelete (file : Option String) (definitions : List KubernetesResourceDefinition) :
    Task Unit :=
  resourceTask node
    { task := fun path mapping definition => do
        let runtime ← getRuntime
        fileResourceDeleteTask kube node (recursionDepth runtime) path mapping definition
      retrieveMapping := chooseMapping
      cleanupRuntimeProperties := true
      resourceStateFunction := some (checkIfResourceExists kube .stateFunction) } file definitions

def multipleFileResource
    (operation : Option String → List KubernetesResourceDefinition → Task Unit)
    (files : List (String × List KubernetesResourceDefinition)) : Task Unit := do
  if files.isEmpty then
    Program.raise ⟨.nonRecoverableError, "Invalid resource file specification."⟩
  else
    let _ ← Program.forEach files fun file => operation (some file.1) file.2

def multipleFileResourceCreate (files : List (String × List KubernetesResourceDefinition)) :
    Task Unit := multipleFileResource (fileResourceCreate kube node) files

def multipleFileResourceUpdate (files : List (String × List KubernetesResourceDefinition)) :
    Task Unit := multipleFileResource (fileResourceUpdate kube node) files

def multipleFileResourceRead (files : List (String × List KubernetesResourceDefinition)) :
    Task Unit := multipleFileResource (fileResourceRead kube node) files

def multipleFileResourceCheckStatus (files : List (String × List KubernetesResourceDefinition)) :
    Task Unit := multipleFileResource (fileResourceCheckStatus kube node ctx) files

def multipleFileResourceCheckDrift (checkDrift : Value → Value → Except Exception Value)
    (files : List (String × List KubernetesResourceDefinition)) : Task Unit :=
  multipleFileResource (fileResourceCheckDrift kube node checkDrift) files

def multipleFileResourceDelete (files : List (String × List KubernetesResourceDefinition)) :
    Task Unit := multipleFileResource (fileResourceDelete kube node) files

/-- An operation with the definitions that it reads from its blueprint or its files. -/
inductive Operation
  | resourceCreate (definition : KubernetesResourceDefinition)
  | resourceRead (definition : KubernetesResourceDefinition)
  | resourceReadCheckStatus (definition : KubernetesResourceDefinition)
  | resourceUpdate (definition : KubernetesResourceDefinition)
  | resourceDelete (definition : KubernetesResourceDefinition)
  | customResourceCreate (definition : KubernetesResourceDefinition)
  | customResourceRead (definition : KubernetesResourceDefinition)
  | customCheckStatus (definition : KubernetesResourceDefinition)
  | customResourceUpdate (definition : KubernetesResourceDefinition)
  | customResourceDelete (definition : KubernetesResourceDefinition)
  | fileResourceCreate (file : Option String) (definitions : List KubernetesResourceDefinition)
  | fileResourceRead (file : Option String) (definitions : List KubernetesResourceDefinition)
  | fileResourceCheckStatus (file : Option String) (definitions : List KubernetesResourceDefinition)
  | fileResourceUpdate (file : Option String) (definitions : List KubernetesResourceDefinition)
  | fileResourceDelete (file : Option String) (definitions : List KubernetesResourceDefinition)
  | multipleFileResourceCreate (files : List (String × List KubernetesResourceDefinition))
  | multipleFileResourceRead (files : List (String × List KubernetesResourceDefinition))
  | multipleFileResourceCheckStatus (files : List (String × List KubernetesResourceDefinition))
  | multipleFileResourceUpdate (files : List (String × List KubernetesResourceDefinition))
  | multipleFileResourceDelete (files : List (String × List KubernetesResourceDefinition))

def Operation.run : Operation → Task Unit
  | .resourceCreate definition => CloudifyKubernetes.resourceCreate kube node definition
  | .resourceRead definition => CloudifyKubernetes.resourceRead kube node definition
  | .resourceReadCheckStatus definition =>
    CloudifyKubernetes.resourceReadCheckStatus kube node ctx definition
  | .resourceUpdate definition => CloudifyKubernetes.resourceUpdate kube node definition
  | .resourceDelete definition => CloudifyKubernetes.resourceDelete kube node definition
  | .customResourceCreate definition => CloudifyKubernetes.customResourceCreate kube node definition
  | .customResourceRead definition => CloudifyKubernetes.customResourceRead kube node definition
  | .customCheckStatus definition => CloudifyKubernetes.customCheckStatus kube node ctx definition
  | .customResourceUpdate definition => CloudifyKubernetes.customResourceUpdate kube node definition
  | .customResourceDelete definition => CloudifyKubernetes.customResourceDelete kube node definition
  | .fileResourceCreate file definitions =>
    CloudifyKubernetes.fileResourceCreate kube node file definitions
  | .fileResourceRead file definitions =>
    CloudifyKubernetes.fileResourceRead kube node file definitions
  | .fileResourceCheckStatus file definitions =>
    CloudifyKubernetes.fileResourceCheckStatus kube node ctx file definitions
  | .fileResourceUpdate file definitions =>
    CloudifyKubernetes.fileResourceUpdate kube node file definitions
  | .fileResourceDelete file definitions =>
    CloudifyKubernetes.fileResourceDelete kube node file definitions
  | .multipleFileResourceCreate files =>
    CloudifyKubernetes.multipleFileResourceCreate kube node files
  | .multipleFileResourceRead files => CloudifyKubernetes.multipleFileResourceRead kube node files
  | .multipleFileResourceCheckStatus files =>
    CloudifyKubernetes.multipleFileResourceCheckStatus kube node ctx files
  | .multipleFileResourceUpdate files =>
    CloudifyKubernetes.multipleFileResourceUpdate kube node files
  | .multipleFileResourceDelete files =>
    CloudifyKubernetes.multipleFileResourceDelete kube node files

/-- Operations on one node instance, one after another, whatever became of those before. Each
    finds the runtime properties as they were left, and reads the options of the node again. -/
def attempts (options : Dict) (operations : List (OperationContext × Operation)) :
    Task (List (Except Exception Unit)) :=
  Program.forEach operations fun next => do
    modifyOptions fun _ => options
    (next.2.run kube node next.1).attempt

end CloudifyKubernetes
