import CloudifyKubernetes.K8s.Client
import CloudifyKubernetes.K8s.StatusMapping
import CloudifyKubernetes.Utils

namespace CloudifyKubernetes

open Collections Effects

variable (kube : Kubernetes) (node : Node)

def doResourceRead (site : Site) (mapping : KubernetesApiMapping)
    (definition : KubernetesResourceDefinition) : Task Value := do
  setCustomResource definition
  let response ← readResource kube site mapping definition
  Program.ofExcept (jsonCleanuper response)

def doResourceCreate (mapping : KubernetesApiMapping) (definition : KubernetesResourceDefinition) :
    Task Value := do
  setCustomResource definition
  if ← getPerformTask then
    let response ← createResource kube mapping definition
    Program.ofExcept (jsonCleanuper response)
  else doResourceRead kube .task mapping definition

def doResourceUpdate (mapping : KubernetesApiMapping) (definition : KubernetesResourceDefinition) :
    Task Value := do
  setCustomResource definition
  let response ← updateResource kube mapping definition
  Program.ofExcept (jsonCleanuper response)

def checkIfResourceExists (site : Site) (mapping : KubernetesApiMapping)
    (definition : KubernetesResourceDefinition) : Task Value := do
  match ← (doResourceRead kube site mapping definition).attempt with
  | .ok found => return found
  | .error e =>
    if e.isA .apiOperationError then
      -- The name is looked up for the message of the log.
      let _ ← Program.ofExcept (definition.metadata.index "name")
      return .none
    else Program.raise e

def doResourceDelete (mapping : KubernetesApiMapping) (definition : KubernetesResourceDefinition)
    (resourceId : Value) : Task Value := do
  setCustomResource definition
  let resourceExists ← checkIfResourceExists kube .beforeDelete mapping definition
  handleDeleteResource node resourceExists.truthy
  if ← getPerformTask then
    let response ← deleteResource kube mapping definition resourceId
    Program.ofExcept (jsonCleanuper response)
  else Program.ofExcept (jsonCleanuper resourceExists)

end CloudifyKubernetes
