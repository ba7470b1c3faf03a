import CloudifyKubernetes.K8s.Calls
import CloudifyKubernetes.Operations

namespace CloudifyKubernetes

open Collections Effects Program

structure Offline (R : State → State → Prop) : Prop where
  runtime : ∀ (s : State) (runtime : RuntimeProperties), R s { s with runtime }
  mapped : ∀ definition, Within R (chooseMapping definition)

section

variable {R : State → State → Prop} [Std.Refl R] [IsTrans State R]

theorem getRuntime_within : Within R getRuntime := Within.get.bind fun _ => .pure _

theorem getPerformTask_within : Within R getPerformTask := getRuntime_within.bind fun _ => .pure _

variable {kube : Kubernetes} {mapping : KubernetesApiMapping} {definition : KubernetesResourceDefinition}

theorem checkIfResourceExists_within {site : Site}
    (read : Within R (doResourceRead kube site mapping definition)) :
    Within R (checkIfResourceExists kube site mapping definition) := by
  refine read.attempt.bind fun result => ?_
  cases result with
  | ok found => exact .pure _
  | error e =>
    dsimp only
    split
    · exact (Within.ofExcept _).bind fun _ => .pure _
    · exact .raise _

theorem resourceCreateTask_within (create : Within R (doResourceCreate kube mapping definition)) :
    Within R (resourceCreateTask kube mapping definition) := by
  refine create.attempt.bind fun result => ?_
  cases result with
  | ok value => exact .pure _
  | error e =>
    dsimp only
    split <;> exact .raise _

theorem checkStatusOf_within (node : Node) (response : Value) :
    Within R (checkStatusOf node definition response) := by
  unfold checkStatusOf
  split
  · exact (Within.ofExcept _).bind fun _ => .pure _
  · exact .pure _

theorem healableResourceCheckStatus_within (node : Node)
    (read : Within R (doResourceRead kube .task mapping definition)) :
    Within R (healableResourceCheckStatus kube node mapping definition) := by
  refine read.bind fun response => ?_
  split
  · refine (Within.ofExcept _).bind fun ready => ?_
    split
    · exact .raise _
    · exact .pure _
  · exact .pure _

theorem readWhileAdjacentResources_within
    (read : Within R (doResourceRead kube .task mapping definition)) :
    Within R (readWhileAdjacentResources kube mapping definition) := by
  refine read.attempt.bind fun result => ?_
  cases result with
  | ok value => exact .pure _
  | error e =>
    dsimp only
    split
    · split <;> exact .pure _
    · exact .raise _

theorem preparePvcDelete_within
    (update : ∀ definition, Within R (doResourceUpdate kube mapping definition)) :
    Within R (preparePvcDelete kube mapping definition) := by
  refine (Within.ofExcept _).bind fun _ => (Within.ofExcept _).bind fun released =>
    (update released).attempt.bind fun result => ?_
  cases result with
  | ok value => exact .pure _
  | error e =>
    dsimp only
    split
    · exact .pure _
    · exact .raise _

theorem multipleFileResource_within
    {operation : Option String → List KubernetesResourceDefinition → Task Unit}
    (each : ∀ file definitions, Within R (operation file definitions))
    (files : List (String × List KubernetesResourceDefinition)) :
    Within R (multipleFileResource operation files) := by
  unfold multipleFileResource
  split
  · exact .raise _
  · exact (Within.forEach fun _ _ => each _ _).bind fun _ => .pure _

variable (offline : Offline R)

include offline

omit [Std.Refl R] [IsTrans State R] in
theorem modifyRuntime_within (f : RuntimeProperties → RuntimeProperties) : Within R (modifyRuntime f) :=
  fun s => offline.runtime s (f s.runtime)

omit [Std.Refl R] [IsTrans State R] in
theorem setPerformTask_within (perform : Bool) : Within R (setPerformTask perform) := modifyRuntime_within offline _

omit [Std.Refl R] [IsTrans State R] in
theorem handleExistingResource_within (node : Node) (found : Value) :
    Within R (handleExistingResource node found) := by
  unfold handleExistingResource
  dsimp only
  split
  · exact setPerformTask_within offline _
  · split <;> exact setPerformTask_within offline _

omit [Std.Refl R] [IsTrans State R] in
theorem handleDeleteResource_within (node : Node) (found : Bool) :
    Within R (handleDeleteResource node found) := by
  unfold handleDeleteResource
  split <;> exact setPerformTask_within offline _

theorem storeResultForRetrieveId_within (result : Value) (path : String) :
    Within R (storeResultForRetrieveId result path) :=
  (Within.ofExcept _).bind fun _ =>
    (getRuntime_within.bind fun _ => (Within.ofExcept _).bind fun _ => modifyRuntime_within offline _).bind
      fun _ => modifyRuntime_within offline _

theorem storeAdjacent_within (adjacent : List (String × Value)) : Within R (storeAdjacent adjacent) :=
  (Within.forEach fun _ _ => storeResultForRetrieveId_within offline _ _).bind fun _ => .pure _

theorem takeAdjacent_within (delete : Bool) (path : String) (resource : Value) (files : Dict) :
    Within R (takeAdjacent delete path resource files) := by
  unfold takeAdjacent
  split
  · exact (Within.ofExcept _).bind fun _ => (Within.ofExcept _).bind fun _ =>
      (modifyRuntime_within offline _).bind fun _ => .pure _
  · exact .pure _

theorem retrieveLastCreatePath_within (path : String) (delete : Bool) :
    Within R (retrieveLastCreatePath path delete) := by
  refine getRuntime_within.bind fun runtime => ?_
  dsimp only
  split
  · split
    · exact takeAdjacent_within offline _ _ _ _
    · exact .pure _
  · split
    · exact .raise _
    · split
      · exact (modifyRuntime_within offline _).bind fun _ =>
          (Within.ofExcept _).bind fun _ => takeAdjacent_within offline _ _ _ _
      · exact (Within.ofExcept _).bind fun _ => takeAdjacent_within offline _ _ _ _

theorem retrieveStoredResource_within (node : Node) (definition : KubernetesResourceDefinition)
    (mapping : KubernetesApiMapping) (delete : Bool) :
    Within R (retrieveStoredResource node definition mapping delete) := by
  have chosen (stored : Value) : Within R (chosenDefinition node definition mapping stored) := by
    unfold chosenDefinition
    split
    · exact (Within.ofExcept _).bind fun _ => (offline.mapped _).bind fun _ => .pure _
    · exact .pure _
  refine getRuntime_within.bind fun _ => (modifyRuntime_within offline _).bind fun _ =>
    (chosen _).bind fun chosen => ?_
  split
  · exact (Within.ofExcept _).bind fun _ => (getRuntime_within.bind fun _ =>
      (modifyRuntime_within offline _).bind fun _ => .ofExcept _).bind fun _ => .pure _
  · exact .pure _

theorem fileResourceCreateTask_within (node : Node) (path : String)
    (read : Within R (doResourceRead kube .beforeCreate mapping definition))
    (create : Within R (doResourceCreate kube mapping definition)) :
    Within R (fileResourceCreateTask kube node path mapping definition) := by
  refine (checkIfResourceExists_within read).bind fun found =>
    (handleExistingResource_within offline _ _).bind fun _ => getPerformTask_within.bind fun perform => ?_
  split
  · exact create.bind fun _ => storeResultForRetrieveId_within offline _ _
  · exact (Within.pure _).bind fun _ => storeResultForRetrieveId_within offline _ _

theorem fileResourceUpdateTask_within (path : String)
    (update : Within R (doResourceUpdate kube mapping definition)) :
    Within R (fileResourceUpdateTask kube path mapping definition) :=
  update.bind fun _ => storeResultForRetrieveId_within offline _ _

theorem resourceCheckStatus_within (node : Node) (ctx : OperationContext)
    (read : Within R (doResourceRead kube .task mapping definition))
    (create : Within R (doResourceCreate kube mapping definition)) :
    Within R (resourceCheckStatus kube node ctx mapping definition) := by
  refine (healableResourceCheckStatus_within node read).attempt.bind fun result => ?_
  cases result with
  | ok value => exact .pure _
  | error e =>
    dsimp only
    split
    · exact (setPerformTask_within offline _).bind fun _ =>
        (resourceCreateTask_within create).bind fun _ => .raise _
    · exact .raise _

theorem readAndStore_within (node : Node) (read : Within R (doResourceRead kube .task mapping definition)) :
    Within R (readAndStore kube node mapping definition) :=
  read.bind fun _ => (storeResultForRetrieveId_within offline _ _).bind fun _ => checkStatusOf_within node _

theorem fileResourceReadTask_within (node : Node) (path : String)
    (read : Within R (doResourceRead kube .task mapping definition)) :
    Within R (fileResourceReadTask kube node path mapping definition) :=
  (retrieveLastCreatePath_within offline _ _).bind fun _ => read.bind fun _ =>
    (storeResultForRetrieveId_within offline _ _).bind fun _ => checkStatusOf_within node _

theorem deleteUnlessMissing_within (node : Node) (marker : String)
    {resourceExists : Value → KubernetesApiMapping → KubernetesResourceDefinition → Task Value}
    (check : ∀ found mapping definition, Within R (resourceExists found mapping definition))
    (read : Within R (doResourceRead kube .task mapping definition))
    (delete : ∀ mapping definition name, definition.metadata.index "name" = .ok name →
      Within R (doResourceDelete kube node mapping definition name)) :
    Within R (deleteUnlessMissing kube node marker resourceExists mapping definition) := by
  refine read.attempt.bind fun result => ?_
  cases result with
  | error e =>
    dsimp only
    split
    · split
      · exact .pure _
      · exact .raise _
    · exact .raise _
  | ok found =>
    refine (retrieveStoredResource_within offline _ _ _ _).bind fun chosen => Within.bindExcept fun name named =>
      (delete _ _ _ named).bind fun _ => (check _ _ _).bind fun _ =>
        (handleDeleteResource_within offline _ _).bind fun _ => getPerformTask_within.bind fun perform => ?_
    split
    · exact (storeResultForRetrieveId_within offline _ _).bind fun _ => .raise _
    · exact .pure _

theorem getPathWithAdjacentResources_within (node : Node) (path : String) :
    Within R (getPathWithAdjacentResources node path mapping definition) := by
  have lookup : Within R (recordedResource path) :=
    (retrieveLastCreatePath_within offline _ _).bind fun _ => (Within.ofExcept _).bind fun _ =>
      (Within.ofExcept _).bind fun _ => .pure _
  refine lookup.attempt.bind fun result => ?_
  cases result with
  | error e =>
    dsimp only
    split
    · exact (retrieveStoredResource_within offline _ _ _ _).bind fun _ => .pure _
    · exact .raise _
  | ok found =>
    refine (Within.ofExcept _).bind fun version => ?_
    split
    · exact (Within.ofExcept _).bind fun _ => (Within.ofExcept _).bind fun _ => .pure _
    · exact .raise _

theorem afterDeletion_within (node : Node) (path : String) (adjacent : List (String × Value))
    (response : Value) (release : Within R (preparePvcDelete kube mapping definition)) :
    Within R (afterDeletion kube node path mapping definition adjacent response) := by
  have stored (perform : Bool) : Within R (do
      if perform then
        storeResultForRetrieveId definition.cleanup path
        storeAdjacent adjacent
        return some ⟨.operationRetry, "Delete response: " ++ response.toText⟩
      else return none : Task (Option Exception)) := by
    split
    · exact (storeResultForRetrieveId_within offline _ _).bind fun _ =>
        (storeAdjacent_within offline _).bind fun _ => .pure _
    · exact .pure _
  refine (handleDeleteResource_within offline _ _).bind fun _ =>
    getPerformTask_within.bind fun perform => ?_
  dsimp only
  split
  · exact release.bind fun _ => stored perform
  · exact stored perform

theorem deleteWhileAdjacentResources_within (node : Node) (path : String)
    (adjacent : List (String × Value))
    (delete : ∀ name, Within R (doResourceDelete kube node mapping definition name))
    (release : Within R (preparePvcDelete kube mapping definition)) :
    Within R (deleteWhileAdjacentResources kube node path mapping definition adjacent) := by
  refine (Within.ofExcept _).bind fun name => (delete name).attempt.bind fun result => ?_
  cases result with
  | error e =>
    dsimp only
    split <;> exact .raise _
  | ok response => exact afterDeletion_within offline node path adjacent response release

omit offline in
theorem deleteAdjacentResources_within
    {delete : KubernetesApiMapping → KubernetesResourceDefinition → Task Unit}
    (inner : ∀ mapping definition, Within R (delete mapping definition)) (adjacent : List (String × Value)) :
    Within R (deleteAdjacentResources delete definition adjacent) := by
  refine (Within.forEach fun entry _ => (Within.ofExcept _).bind fun found => ?_).bind fun _ => .pure _
  cases found with
  | none => exact .pure _
  | some found => exact (Within.ofExcept _).bind fun _ => inner _ _

theorem deleteWithAdjacentResources_rest (node : Node) (path : String)
    {delete : KubernetesApiMapping → KubernetesResourceDefinition → Task Unit}
    (inner : ∀ mapping definition, Within R (delete mapping definition)) (adjacent : List (String × Value))
    (deletion : Within R (deleteWhileAdjacentResources kube node path mapping definition adjacent)) :
    ∃ rest, deleteWithAdjacentResources kube node delete path adjacent definition mapping =
      readWhileAdjacentResources kube mapping definition >>= rest ∧ ∀ result, Within R (rest result) := by
  have ending (text : String) : Within R (do
      if adjacent.isEmpty then return ()
      else
        storeAdjacent adjacent
        Program.raise (⟨.operationRetry, text⟩ : Exception) : Task Unit) := by
    split
    · exact .pure _
    · exact (storeAdjacent_within offline _).bind fun _ => .raise _
  refine ⟨_, rfl, fun result => ?_⟩
  cases result with
  | some e =>
    dsimp only
    split
    · split
      · exact .pure _
      · exact (deleteAdjacentResources_within inner _).bind fun _ =>
          (storeAdjacent_within offline _).bind fun _ => .raise _
    · exact .raise _
  | none =>
    refine deletion.bind fun result => ?_
    cases result with
    | none => exact ending _
    | some e =>
      dsimp only
      split
      · exact (Within.raise _).bind fun _ => ending _
      · exact ending _

theorem deleteWithAdjacentResources_within (node : Node) (path : String)
    {delete : KubernetesApiMapping → KubernetesResourceDefinition → Task Unit}
    (inner : ∀ mapping definition, Within R (delete mapping definition)) (adjacent : List (String × Value))
    (read : Within R (doResourceRead kube .task mapping definition))
    (deletion : Within R (deleteWhileAdjacentResources kube node path mapping definition adjacent)) :
    Within R (deleteWithAdjacentResources kube node delete path adjacent definition mapping) := by
  obtain ⟨rest, whole, follows⟩ :=
    deleteWithAdjacentResources_rest offline node path inner adjacent deletion
  rw [whole]
  exact (readWhileAdjacentResources_within read).bind follows

theorem fileResourceDeleteTask_within (node : Node) (depth : Nat) (path : String)
    (entered : ∀ mapping definition runtime, Within R (record (.entered path mapping definition runtime)))
    (read : ∀ mapping definition, Within R (doResourceRead kube .task mapping definition))
    (delete : ∀ mapping definition adjacent,
      Within R (deleteWhileAdjacentResources kube node path mapping definition adjacent)) :
    Within R (fileResourceDeleteTask kube node depth path mapping definition) := by
  induction depth generalizing mapping definition with
  | zero => exact .raise _
  | succ depth ih =>
    exact getRuntime_within.bind fun runtime => (entered _ _ _).bind fun _ =>
      (getPathWithAdjacentResources_within offline _ _).bind fun taken =>
        deleteWithAdjacentResources_within offline node path (fun _ _ => ih) _ (read _ _) (delete _ _ _)

theorem definitionTask_within (node : Node) (operation : ResourceTask) (path : String)
    (definition : KubernetesResourceDefinition)
    (mapped : Within R (operation.retrieveMapping definition))
    (state : ∀ stateFunction ∈ operation.resourceStateFunction, ∀ mapping,
      Within R (stateFunction mapping definition))
    (task : ∀ mapping found, Within R (do
      handleExistingResource node found
      operation.task path mapping definition)) :
    Within R (definitionTask node operation path definition) := by
  have recorded (path : String) : Within R (recordedState path) := by
    refine getRuntime_within.bind fun _ => ?_
    split <;> exact .pure _
  have rest (mapping : KubernetesApiMapping) (currentState : Value) : Within R (do
      handleExistingResource node currentState
      operation.task path mapping definition
      modifyRuntime fun runtime => { runtime with performTask := none }
      if currentState.truthy && operation.cleanupRuntimeProperties then
        modifyRuntime (dropRecord path)) := by
    have cleanup : Within R (do
        modifyRuntime fun runtime => { runtime with performTask := none }
        if currentState.truthy && operation.cleanupRuntimeProperties then
          modifyRuntime (dropRecord path)) := by
      refine (modifyRuntime_within offline _).bind fun _ => ?_
      split
      · exact modifyRuntime_within offline _
      · exact .pure _
    have whole := (task mapping currentState).bind fun _ => cleanup
    rwa [bind_assoc] at whole
  refine mapped.bind fun mapping => (Within.ofExcept _).bind fun resourceId => ?_
  cases function : operation.resourceStateFunction with
  | none => exact (recorded path).bind fun _ => rest mapping _
  | some stateFunction =>
    dsimp only
    split
    · exact (state stateFunction function mapping).bind fun _ => rest mapping _
    · exact (recorded path).bind fun _ => rest mapping _

theorem resourceTask_within (node : Node) (operation : ResourceTask) (file : Option String)
    (definitions : List KubernetesResourceDefinition)
    (mapped : ∀ definition, Within R (operation.retrieveMapping definition))
    (state : ∀ stateFunction ∈ operation.resourceStateFunction, ∀ mapping definition,
      Within R (stateFunction mapping definition))
    (task : ∀ path mapping definition found, Within R (do
      handleExistingResource node found
      operation.task path mapping definition)) :
    Within R (resourceTask node operation file definitions) := by
  have all : Within R (multidefinitionResourceTask node operation file definitions) :=
    (Within.forEach fun _ _ => definitionTask_within offline _ _ _ _ (mapped _)
      (fun stateFunction function mapping => state stateFunction function mapping _)
      fun _ _ => task _ _ _ _).bind fun _ => .pure _
  refine all.attempt.bind fun result => ?_
  cases result with
  | ok value => exact .pure _
  | error e => exact .raise _

theorem resourceTask_of_task (node : Node) (operation : ResourceTask) (file : Option String)
    (definitions : List KubernetesResourceDefinition)
    (mapped : ∀ definition, Within R (operation.retrieveMapping definition))
    (state : ∀ stateFunction ∈ operation.resourceStateFunction, ∀ mapping definition,
      Within R (stateFunction mapping definition))
    (task : ∀ path mapping definition, Within R (operation.task path mapping definition)) :
    Within R (resourceTask node operation file definitions) :=
  resourceTask_within offline _ _ _ _ mapped state fun _ _ _ _ =>
    (handleExistingResource_within offline _ _).bind fun _ => task _ _ _

end

end CloudifyKubernetes
