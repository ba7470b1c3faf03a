import CloudifyKubernetes.Utils

namespace CloudifyKubernetes

open Collections Effects

structure ResourceTask where
  task : String → KubernetesApiMapping → KubernetesResourceDefinition → Task Unit
  retrieveMapping : KubernetesResourceDefinition → Task KubernetesApiMapping
  cleanupRuntimeProperties : Bool := false
  resourceStateFunction : Option (KubernetesApiMapping → KubernetesResourceDefinition → Task Value) :=
    none

/-- The `resource_path` under which definition `index` of a file is recorded. `file` is the
    path that the caller names, which only counts for a file with several definitions. -/
def definitionPath (node : Node) (file : Option String) (multicalls : Bool) (index : Nat) : String :=
  match if file.isSome && multicalls then file else node.file with
  | some origin => if origin = "" then "" else origin ++ "#" ++ toString index
  | none => file.getD ""

def recordedState (path : String) : Task Value := do
  let runtime ← getRuntime
  if path ≠ "" then
    return ((runtime.kubernetes.getD .empty).get? path).getD .none
  else return (runtime.kubernetes.map fun files => Value.dict files.items).getD .none

def dropRecord (path : String) (runtime : RuntimeProperties) : RuntimeProperties :=
  let files := runtime.kubernetes.getD .empty
  if path ≠ "" ∧ files.contains path = true then
    let rest := files.erase path
    { runtime with kubernetes := if rest.isEmpty then none else some rest }
  else { runtime with kubernetes := none }

section ResourceTask

variable (node : Node) (operation : ResourceTask)

def definitionTask (path : String) (definition : KubernetesResourceDefinition) : Task Unit := do
  let mapping ← operation.retrieveMapping definition
  let resourceId ← Program.ofExcept (definition.metadata.get "name" .none)
  let currentState ← match operation.resourceStateFunction with
    | some stateFunction =>
      if resourceId.truthy then stateFunction mapping definition else recordedState path
    | none => recordedState path
  handleExistingResource node currentState
  operation.task path mapping definition
  modifyRuntime fun runtime => { runtime with performTask := none }
  if currentState.truthy && operation.cleanupRuntimeProperties then modifyRuntime (dropRecord path)

def multidefinitionResourceTask (file : Option String)
    (definitions : List KubernetesResourceDefinition) : Task Unit := do
  let _ ← Program.forEach definitions.zipIdx fun indexed =>
    definitionTask node operation
      (definitionPath node file (definitions.length > 1) indexed.2) indexed.1

def kubernetesErrors : List ExceptionClass :=
  [.mappingNotFoundError, .invalidPayloadClassError, .invalidApiClassError, .invalidApiMethodError]

def resourceTaskError (e : Exception) : Exception :=
  if e.cls ∈ kubernetesErrors then ⟨.nonRecoverableError, "Kubernetes error encountered"⟩
  else if e.isA .recoverableError || e.isA .nonRecoverableError then e
  else ⟨.recoverableError, "Error encountered"⟩

def resourceTask (file : Option String) (definitions : List KubernetesResourceDefinition) :
    Task Unit := do
  match ← (multidefinitionResourceTask node operation file definitions).attempt with
  | .ok _ => return ()
  | .error e => Program.raise (resourceTaskError e)

end ResourceTask

end CloudifyKubernetes
