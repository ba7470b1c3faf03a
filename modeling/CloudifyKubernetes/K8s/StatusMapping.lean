import CloudifyKubernetes.Python.Value

namespace CloudifyKubernetes

namespace StatusMapping

def phaseIn (phase : Value) (names : List String) : Bool := names.any fun name => phase.eq (.str name)

def readyOrRetry (status : Value) (ready : Bool) : Except Exception Bool :=
  if ready then .ok true else .error ⟨.operationRetry, "Status is " ++ status.toText⟩

def podReady (status : Value) : Except Exception Bool := do
  let phase ← status.index "phase"
  if phaseIn phase ["Running", "Succeeded"] then return true
  else if phaseIn phase ["Pending", "Unknown"] then readyOrRetry status false
  else if phaseIn phase ["Failed"] then
    .error ⟨.nonRecoverableError, "Status is " ++ status.toText⟩
  else return false

def phaseReady (names : List String) (status : Value) : Except Exception Bool := do
  let phase ← status.index "phase"
  readyOrRetry status (phaseIn phase names)

def serviceReady (status : Value) : Except Exception Bool := do
  let balancer ← status.get "load_balancer" (.dict [])
  let ingress ← balancer.get "ingress" (.bool false)
  readyOrRetry status ingress.truthy

def countReady (key : String) (expected : Bool) (status : Value) : Except Exception Bool := do
  let count ← status.index key
  readyOrRetry status (count.truthy == expected)

def replicasReady (status : Value) : Except Exception Bool := do
  let ready ← status.get "ready_replicas" .none
  let replicas ← status.get "replicas" .none
  readyOrRetry status (ready.eq replicas)

def isResourceReady : List (String × (Value → Except Exception Bool)) :=
  [("Resource", fun _ => .ok false), ("Pod", podReady), ("Service", serviceReady),
    ("Ingress", serviceReady), ("Deployment", countReady "unavailable_replicas" false),
    ("PersistentVolumeClaim", phaseReady ["Pending", "Available", "Bound"]),
    ("PersistentVolume", phaseReady ["Bound", "Available"]), ("ReplicaSet", replicasReady),
    ("ReplicationController", replicasReady), ("DaemonSet", countReady "number_unavailable" false),
    ("StatefulSet", countReady "ready_replicas" true)]

end StatusMapping

/-- `_do_resource_status_check`. Without validation `ready` returns `None`, which is falsy. -/
def doResourceStatusCheck (validate : Bool) (kind : String) (response : Value) :
    Except Exception Bool :=
  match StatusMapping.isResourceReady.lookup kind with
  | none => .ok true
  | some ready => do
    let status ← response.index "status"
    if validate then ready status else return false

end CloudifyKubernetes
