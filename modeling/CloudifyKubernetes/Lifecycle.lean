import CloudifyKubernetes.Additions
import CloudifyKubernetes.Tokens

namespace CloudifyKubernetes

open Collections Effects

structure Environment where
  kube : Kubernetes
  node : Node
  load : String → Except Exception Value
  checkDrift : Value → Value → Except Exception Value
  instanceId : String

section

variable (kube : Kubernetes) (node : Node)

/-- The definition that an update of a file sends: `definitions_additions` only count if they are truthy. -/
def amendedDefinition (additions : Value) (definition : KubernetesResourceDefinition) :
    Except Exception KubernetesResourceDefinition := do
  if additions.truthy then
    let amended ← updateWithAdditions definition additions
    KubernetesResourceDefinition.ofStored amended
  else return definition

/-- `file_resource_update` with `definitions_additions` among its arguments. The mapping is the one
    of the definition in the file. -/
def fileResourceUpdateWith (additions : Value) (file : Option String)
    (definitions : List KubernetesResourceDefinition) : Task Unit :=
  resourceTask node
    { task := fun path mapping definition => do
        let amended ← Program.ofExcept (amendedDefinition additions definition)
        fileResourceUpdateTask kube path mapping amended
      retrieveMapping := chooseMapping } file definitions

def multipleFileResourceUpdateWith (additions : Value)
    (files : List (String × List KubernetesResourceDefinition)) : Task Unit :=
  multipleFileResource (fileResourceUpdateWith kube node additions) files

variable (checkDrift : Value → Value → Except Exception Value)

def resourceReadCheckDrift (definition : KubernetesResourceDefinition) : Task Unit :=
  resourceTask node
    { task := resourceCheckDriftTask kube checkDrift, retrieveMapping := chooseMapping } none [definition]

def customCheckDrift (definition : KubernetesResourceDefinition) : Task Unit :=
  resourceTask node
    { task := resourceCheckDriftTask kube checkDrift
      retrieveMapping := fun _ => Program.ofExcept (mappingByData node)
      resourceStateFunction := some (checkIfResourceExists kube .stateFunction) } none [definition]

end

inductive LifecycleOperation
  | plain (operation : Operation)
  | fileResourceUpdateWith (additions : Value) (file : Option String)
      (definitions : List KubernetesResourceDefinition)
  | multipleFileResourceUpdateWith (additions : Value) (files : List (String × List KubernetesResourceDefinition))
  | resourceReadCheckDrift (definition : KubernetesResourceDefinition)
  | customCheckDrift (definition : KubernetesResourceDefinition)
  | fileResourceCheckDrift (file : Option String) (definitions : List KubernetesResourceDefinition)
  | multipleFileResourceCheckDrift (files : List (String × List KubernetesResourceDefinition))
  | createToken
  | readToken
  | getTokenStatus
  | deleteToken

section

variable (env : Environment)

def LifecycleOperation.run (ctx : OperationContext) : LifecycleOperation → TokenTask Unit
  | .plain operation => (operation.run env.kube env.node ctx).onFirst
  | .fileResourceUpdateWith additions file definitions =>
    (CloudifyKubernetes.fileResourceUpdateWith env.kube env.node additions file definitions).onFirst
  | .multipleFileResourceUpdateWith additions files =>
    (CloudifyKubernetes.multipleFileResourceUpdateWith env.kube env.node additions files).onFirst
  | .resourceReadCheckDrift definition =>
    (CloudifyKubernetes.resourceReadCheckDrift env.kube env.node env.checkDrift definition).onFirst
  | .customCheckDrift definition =>
    (CloudifyKubernetes.customCheckDrift env.kube env.node env.checkDrift definition).onFirst
  | .fileResourceCheckDrift file definitions =>
    (CloudifyKubernetes.fileResourceCheckDrift env.kube env.node env.checkDrift file definitions).onFirst
  | .multipleFileResourceCheckDrift files =>
    (CloudifyKubernetes.multipleFileResourceCheckDrift env.kube env.node env.checkDrift files).onFirst
  | .createToken => CloudifyKubernetes.createToken env.load env.kube env.node env.instanceId
  | .readToken => CloudifyKubernetes.readToken env.load env.kube env.node env.instanceId
  | .getTokenStatus => CloudifyKubernetes.getTokenStatus env.load env.kube env.node env.instanceId
  | .deleteToken => CloudifyKubernetes.deleteToken env.load env.kube env.node env.instanceId

def LifecycleOperation.attempt (options : Dict) (next : OperationContext × LifecycleOperation) :
    TokenTask (Except Exception Unit) := do
  (modifyOptions fun _ => options).onFirst
  (next.2.run env next.1).attempt

def lifecycle (options : Dict) (operations : List (OperationContext × LifecycleOperation)) :
    TokenTask (List (Except Exception Unit)) :=
  Program.forEach operations (LifecycleOperation.attempt env options)

theorem lifecycle_cons (options : Dict) (next : OperationContext × LifecycleOperation)
    (rest : List (OperationContext × LifecycleOperation)) (s : State) (properties : Dict) {results : List (Except Exception Unit)}
    (ran : (lifecycle env options (next :: rest) (s, properties)).1 = .ok results) :
    ∃ others, results = (next.2.run env next.1 ({ s with options }, properties)).1 :: others ∧
      (lifecycle env options rest (next.2.run env next.1 ({ s with options }, properties)).2).1 = .ok others := by
  obtain ⟨first, middle, attempted, later⟩ := Program.bind_ok_inv (Prod.ext ran rfl :
    lifecycle env options (next :: rest) (s, properties) = (.ok results, _))
  cases attempted
  obtain ⟨others, last, looped, done⟩ := Program.bind_ok_inv later
  cases done
  exact ⟨others, rfl, congrArg Prod.fst looped⟩

theorem lifecycle_returns (options : Dict) (operations : List (OperationContext × LifecycleOperation)) (s : State × Dict) :
    ∃ results, (lifecycle env options operations s).1 = .ok results := by
  have each (next : OperationContext × LifecycleOperation) (s : State × Dict) :
      ∃ result s', LifecycleOperation.attempt env options next s = (.ok result, s') := ⟨_, _, rfl⟩
  obtain ⟨results, s', ran⟩ := Program.forEach_returns each operations s
  exact ⟨results, congrArg Prod.fst ran⟩

theorem lifecycle_cons_run (options : Dict) (next : OperationContext × LifecycleOperation)
    (rest : List (OperationContext × LifecycleOperation)) (s : State × Dict) {others : List (Except Exception Unit)}
    (ran : (lifecycle env options rest (next.2.run env next.1 ({ s.1 with options }, s.2)).2).1 = .ok others) :
    lifecycle env options (next :: rest) s =
      (.ok ((next.2.run env next.1 ({ s.1 with options }, s.2)).1 :: others),
        (lifecycle env options rest (next.2.run env next.1 ({ s.1 with options }, s.2)).2).2) := by
  have looped : lifecycle env options rest (next.2.run env next.1 ({ s.1 with options }, s.2)).2 = (.ok others, _) :=
    Prod.ext ran rfl
  have attempted : LifecycleOperation.attempt env options next s =
      (.ok (next.2.run env next.1 ({ s.1 with options }, s.2)).1,
        (next.2.run env next.1 ({ s.1 with options }, s.2)).2) := rfl
  rw [lifecycle, Program.forEach, Program.bind_run_ok attempted, ← lifecycle, Program.bind_run_ok looped]
  rfl

end

end CloudifyKubernetes
