import CloudifyKubernetes.Context

namespace CloudifyKubernetes

open Collections Effects

def jsonCleanuper : Value → Except Exception Value
  | .dict entries => .ok (Value.dict entries).clean
  | _ => .error ⟨.attributeError, "object has no attribute to_dict"⟩

def KubernetesResourceDefinition.cleanup (d : KubernetesResourceDefinition) : Value := d.toDict.clean

structure Identity where
  name : Value
  kind : Value
  namesp : Value

namespace Identity

def ofDict (resource : Value) : Except Exception Identity := do
  let metadata ← resource.get "metadata" (.dict [])
  let name ← metadata.get "name" .none
  let kind ← resource.get "kind" .none
  let namesp ← metadata.get "namespace" (.str "default")
  return ⟨name, kind, namesp⟩

def ofDefinition (d : KubernetesResourceDefinition) : Except Exception Identity := do
  let name ← d.metadata.get "name" .none
  let namesp ← d.metadata.get "namespace" (.str "default")
  return ⟨name, .str d.kind, namesp⟩

def same (left right : Identity) : Bool :=
  left.name.eq right.name && left.kind.eq right.kind && left.namesp.eq right.namesp

end Identity

def matchResource (left right : Value) : Except Exception Bool := do
  let l ← Identity.ofDict left
  let r ← Identity.ofDict right
  return l.same r

def matchDefinition (left : Value) (right : KubernetesResourceDefinition) : Except Exception Bool := do
  let l ← Identity.ofDict left
  let r ← Identity.ofDefinition right
  return l.same r

/-- The loop that looks for the file of a definition. Without a match its variables keep
    the last file, and without any file what they held before. -/
def recordedFile (definition : Value) (path : String) (resource : Value) :
    List (String × Value) → Except Exception (String × Value)
  | [] => .ok (path, resource)
  | (key, value) :: rest => do
    if ← matchResource definition value then return (key, value)
    else recordedFile definition key value rest

def adjacentResources (stem : String) (resource : Value) :
    List (String × Value) → Except Exception (List (String × Value))
  | [] => .ok []
  | (key, value) :: rest => do
    if Text.contains key stem then
      let same ← matchResource value resource
      let others ← adjacentResources stem resource rest
      return if same then others else (key, value) :: others
    else adjacentResources stem resource rest

def fileStem (path : String) : Except Exception String :=
  match Text.split path ".yaml" with
  | [stem, _] => .ok stem
  | [_] => .error ⟨.valueError, "not enough values to unpack (expected 2, got 1)"⟩
  | _ => .error ⟨.valueError, "too many values to unpack (expected 2)"⟩

structure LastCreatePath where
  path : String
  resource : Value
  adjacent : List (String × Value)

/-- The second half of `retrieve_last_create_path`, for a resource that has been found. -/
def takeAdjacent (delete : Bool) (path : String) (resource : Value) (files : Dict) :
    Task LastCreatePath :=
  if resource.truthy then do
    let stem ← Program.ofExcept (fileStem path)
    let adjacent ← Program.ofExcept (adjacentResources stem resource files.items)
    let kept := if delete then files.filter fun key _ => key ∉ adjacent.map Prod.fst else files
    modifyRuntime fun runtime => { runtime with
      kubernetes := some kept
      resourceDefinitions := some (runtime.resourceDefinitions.getD []) }
    return ⟨path, resource, adjacent⟩
  else return ⟨path, resource, []⟩

def retrieveLastCreatePath (path : String) (delete : Bool) : Task LastCreatePath := do
  let runtime ← getRuntime
  let files := runtime.kubernetes.getD .empty
  match files.get? path with
  | some resource =>
    if delete then takeAdjacent delete path resource (files.erase path)
    else return ⟨path, resource, []⟩
  | none =>
    let definitions := runtime.resourceDefinitions.getD []
    match definitions.getLast? with
    | none => Program.raise ⟨.nonRecoverableError, "No resource could be resolved."⟩
    | some definition =>
      -- The definition is popped in place: it stays popped whatever happens below.
      if delete then
        modifyRuntime fun runtime => { runtime with resourceDefinitions := some definitions.dropLast }
      let (path, resource) ← Program.ofExcept (recordedFile definition path .none files.items)
      takeAdjacent delete path resource (if delete then files.erase path else files)

def customObjectNodeOptions : List String := ["plural", "group", "version"]

def customObjectAnnotations : List String :=
  ["cloudify-crd-group", "cloudify-crd-plural", "cloudify-crd-version"]

def KubernetesResourceDefinition.isAnnotated (d : KubernetesResourceDefinition) : Bool :=
  match d.metadata.get "annotations" (.dict []) with
  | .ok (.dict annotations) =>
    customObjectAnnotations.all fun name => (annotations.lookup name).isSome
  | _ => false

def mappingByKind (nodeOptions : List String) (d : KubernetesResourceDefinition) :
    Except Exception KubernetesApiMapping :=
  if d.isAnnotated then getMapping "CustomObjectsApi"
  else
    match getMapping d.kind with
    | .ok mapping => .ok mapping
    | .error e =>
      if customObjectNodeOptions.all (· ∈ nodeOptions) then getMapping "CustomObjectsApi"
      else .error e

def chooseMapping (definition : KubernetesResourceDefinition) : Task KubernetesApiMapping := do
  let options ← getOptions
  let result := mappingByKind options.keys definition
  record (.mapped definition result)
  Program.ofExcept result

def mappingByData (node : Node) : Except Exception KubernetesApiMapping :=
  match node.apiMapping with
  | some mapping => .ok mapping
  | none => .error ⟨.mappingNotFoundError, "Cannot find API mapping for this request - " ++
      "\"api_mapping\" property data is invalid"⟩

def updateStored (definition : KubernetesResourceDefinition) :
    List Value → Except Exception (List Value)
  | [] => .ok [definition.cleanup]
  | stored :: rest => do
    if ← matchDefinition stored definition then return definition.cleanup :: rest
    else
      let others ← updateStored definition rest
      return stored :: others

def storeResourceDefinition (definition : KubernetesResourceDefinition) : Task Unit := do
  let runtime ← getRuntime
  let stored ← Program.ofExcept (updateStored definition (runtime.resourceDefinitions.getD []))
  modifyRuntime fun runtime => { runtime with resourceDefinitions := some stored }

def isNamed (kind : String) (name item : Value) : Except Exception Bool := do
  let itemKind ← item.index "kind"
  if itemKind.eq (.str kind) then
    let metadata ← item.index "metadata"
    let itemName ← metadata.index "name"
    return itemName.eq name
  else return false

/-- The loop of `remove_resource_definition` deletes from the list that it iterates over, so
    the item behind a deleted one is passed over. -/
def removeNamed (kind : String) (name : Value) : List Value → Except Exception Unit × List Value
  | [] => (.ok (), [])
  | [item] =>
    match isNamed kind name item with
    | .error e => (.error e, [item])
    | .ok true => (.ok (), [])
    | .ok false => (.ok (), [item])
  | item :: next :: rest =>
    match isNamed kind name item with
    | .error e => (.error e, item :: next :: rest)
    | .ok true =>
      let (result, kept) := removeNamed kind name rest
      (result, next :: kept)
    | .ok false =>
      let (result, kept) := removeNamed kind name (next :: rest)
      (result, item :: kept)

def removeResourceDefinition (kind : String) (name : Value) : Task Unit := do
  let runtime ← getRuntime
  let (result, kept) := removeNamed kind name (runtime.resourceDefinitions.getD [])
  modifyRuntime fun runtime => { runtime with resourceDefinitions := some kept }
  Program.ofExcept result

def KubernetesResourceDefinition.ofStored : Value → Except Exception KubernetesResourceDefinition
  | .dict entries => KubernetesResourceDefinition.init entries
  | _ => .error ⟨.typeError, "argument after ** must be a mapping"⟩

/-- The stored definition replaces the given one only if it differs and the node allows it. -/
def chosenDefinition (node : Node) (definition : KubernetesResourceDefinition)
    (mapping : KubernetesApiMapping) (stored : Value) :
    Task (KubernetesResourceDefinition × KubernetesApiMapping) :=
  if !definition.cleanup.eq stored && node.allowNodeRedefinition then do
    let previous ← Program.ofExcept (KubernetesResourceDefinition.ofStored stored)
    let mapping ← chooseMapping previous
    return (previous, mapping)
  else return (definition, mapping)

def retrieveStoredResource (node : Node) (definition : KubernetesResourceDefinition)
    (mapping : KubernetesApiMapping) (delete : Bool) :
    Task (KubernetesResourceDefinition × KubernetesApiMapping) := do
  let runtime ← getRuntime
  let stored := (runtime.resourceDefinitions.bind List.getLast?).getD definition.cleanup
  modifyRuntime fun runtime => { runtime with
    resourceDefinitions := runtime.resourceDefinitions.map List.dropLast }
  let chosen ← chosenDefinition node definition mapping stored
  if delete then
    let name ← Program.ofExcept (chosen.1.metadata.index "name")
    removeResourceDefinition chosen.1.kind name
  return chosen

def resultDefinition (result : Value) : Except Exception KubernetesResourceDefinition := do
  let kind ← result.index "kind"
  let camel ← result.get "apiVersion" .none
  let version ← result.get "api_version" camel
  let metadata ← result.index "metadata"
  KubernetesResourceDefinition.ofParts kind version metadata

def recordResult (result : Value) (path : String) (runtime : RuntimeProperties) : RuntimeProperties :=
  if path ≠ "" then
    { runtime with kubernetes := some ((runtime.kubernetes.getD .empty).set path result) }
  else
    match result with
    | .dict entries => { runtime with kubernetes := some (.ofEntries entries) }
    | _ => runtime

def storeResultForRetrieveId (result : Value) (path : String) : Task Unit := do
  let definition ← Program.ofExcept (resultDefinition result)
  storeResourceDefinition definition
  modifyRuntime (recordResult result path)

def getResultForRetrieveId (path : String) : Task Value := do
  let runtime ← getRuntime
  if path ≠ "" then
    match runtime.kubernetes with
    | some files => return (files.get? path).getD .none
    | none => Program.raise ⟨.keyError, Value.quote "kubernetes"⟩
  else return (runtime.kubernetes.map fun files => Value.dict files.items).getD .none

def customAnnotations (definition : KubernetesResourceDefinition) :
    Except Exception (List (String × Value)) := do
  match ← definition.metadata.get "annotations" (.dict []) with
  | .none => return []
  | .dict annotations => return annotations
  | _ => .error ⟨.attributeError, "object has no attribute get"⟩

def coordinate (annotations : List (String × Value)) (options : Dict) (key : String) : Value :=
  (annotations.lookup ("cloudify-crd-" ++ key)).getD ((options.get? key).getD .none)

def customResourceEdit (definition : KubernetesResourceDefinition) (options : Dict) :
    Except Exception Dict := do
  let annotations ← customAnnotations definition
  let group := coordinate annotations options "group"
  let plural := coordinate annotations options "plural"
  let version := coordinate annotations options "version"
  return if group.truthy && plural.truthy && version.truthy then
    ((options.set "group" group).set "plural" plural).set "version" version
  else options

def setCustomResource (definition : KubernetesResourceDefinition) : Task Unit := do
  let options ← getOptions
  let edited ← Program.ofExcept (customResourceEdit definition options)
  modifyOptions fun _ => edited
  record (.edited definition)

def setPerformTask (perform : Bool) : Task Unit :=
  modifyRuntime fun runtime => { runtime with performTask := some perform }

def getPerformTask : Task Bool := do
  let runtime ← getRuntime
  return runtime.performTask.getD false

def handleExistingResource (node : Node) (resourceExists : Value) : Task Unit :=
  let found := resourceExists.truthy
  let expected := node.useExternalResource
  let noCreate := (found && expected) || (found && !expected && node.useIfExists)
  let create := (!found && !expected) || (!found && expected && node.createIfMissing)
  if noCreate then setPerformTask false
  else if create then setPerformTask true
  else setPerformTask false

def handleDeleteResource (node : Node) (resourceExists : Bool) : Task Unit :=
  if resourceExists && node.useExternalResource then setPerformTask false
  else setPerformTask true

end CloudifyKubernetes
