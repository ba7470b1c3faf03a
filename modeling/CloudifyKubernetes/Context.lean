import CloudifyKubernetes.Effects.Program
import CloudifyKubernetes.K8s.Definition
import CloudifyKubernetes.K8s.Mapping

namespace CloudifyKubernetes

open Collections Effects

structure RuntimeProperties where
  kubernetes : Option Dict := none
  resourceDefinitions : Option (List Value) := none
  performTask : Option Bool := none

/-- The node properties that decide what an operation does; a property with a default is
    read with that default. The `options` dictionary is part of the state. -/
structure Node where
  useExternalResource : Bool := false
  createIfMissing : Bool := false
  useIfExists : Bool := true
  allowNodeRedefinition : Bool
  validateResourceStatus : Bool
  apiMapping : Option KubernetesApiMapping := none
  file : Option String := none

structure OperationContext where
  workflowId : String
  operationName : String
  retryNumber : Nat

structure Request where
  api : String
  method : String
  arguments : Dict

structure ApiException where
  status : Option Int
  reason : String
  headers : Option String := none
  body : Option String := none

inductive Failure
  | apiException (e : ApiException)
  | other (text : String)

abbrev Answer := Except Failure Value

/-- The place in the plugin that asks the client to read a resource. Only the log keeps it. -/
inductive Site
  | stateFunction
  | beforeCreate
  | beforeDelete
  | afterDelete
  | task
  deriving DecidableEq, Repr

inductive Verb
  | create
  | read (site : Site)
  | update
  | delete (resourceId : Value)

structure ClientCall where
  verb : Verb
  mapping : KubernetesApiMapping
  definition : KubernetesResourceDefinition

inductive Event
  | edited (definition : KubernetesResourceDefinition)
  | mapped (definition : KubernetesResourceDefinition) (result : Except Exception KubernetesApiMapping)
  | called (call : ClientCall)
  | requested (call : ClientCall) (request : Request) (answer : Answer)
  | returned (call : ClientCall) (result : Except Exception Value)
  | entered (path : String) (mapping : KubernetesApiMapping)
      (definition : KubernetesResourceDefinition) (runtime : RuntimeProperties)

def Event.request? : Event → Option Request
  | requested _ request _ => some request
  | _ => none

def Event.edited? : Event → Option KubernetesResourceDefinition
  | edited definition => some definition
  | _ => none

/-- The state of one node instance while an operation runs. The dictionary under the node
    property `options` is one object, which every client call of the operation edits. -/
structure State where
  runtime : RuntimeProperties
  options : Dict
  log : List Event

def State.requests (s : State) : List Request := s.log.filterMap Event.request?

def lastEdited (log : List Event) : Option KubernetesResourceDefinition :=
  (log.filterMap Event.edited?).getLast?

abbrev Task (α : Type) := Program State Exception α

def record (e : Event) : Task Unit := Program.modify fun s => { s with log := s.log ++ [e] }

def getRuntime : Task RuntimeProperties := do
  let s ← Program.get
  return s.runtime

def modifyRuntime (f : RuntimeProperties → RuntimeProperties) : Task Unit :=
  Program.modify fun s => { s with runtime := f s.runtime }

def getOptions : Task Dict := do
  let s ← Program.get
  return s.options

def modifyOptions (f : Dict → Dict) : Task Unit :=
  Program.modify fun s => { s with options := f s.options }

def withOptions {α : Type} (own : Dict) (body : Task α) : Task α := fun s =>
  let (result, s') := body { s with options := own }
  (result, { s' with options := s.options })

end CloudifyKubernetes
