import CloudifyKubernetes.LastCreatePath
import CloudifyKubernetes.Operations

namespace CloudifyKubernetes

open Collections Effects Program

section

variable (node : Node) (operation : ResourceTask)

/-- A round of the decorator up to its cleanup, with the state that was read before the task. -/
def taskRound (path : String) (definition : KubernetesResourceDefinition) : Task Value := do
  let mapping ← operation.retrieveMapping definition
  let resourceId ← Program.ofExcept (definition.metadata.get "name" .none)
  let currentState ← match operation.resourceStateFunction with
    | some stateFunction =>
      if resourceId.truthy then stateFunction mapping definition else recordedState path
    | none => recordedState path
  handleExistingResource node currentState
  operation.task path mapping definition
  modifyRuntime fun runtime => { runtime with performTask := none }
  return currentState

def cleanupRound (path : String) (currentState : Value) : Task Unit :=
  if currentState.truthy && operation.cleanupRuntimeProperties then modifyRuntime (dropRecord path)
  else return ()

theorem definitionTask_eq (path : String) (definition : KubernetesResourceDefinition) :
    definitionTask node operation path definition =
      taskRound node operation path definition >>= cleanupRound operation path := by
  simp only [definitionTask, taskRound, bind_assoc]
  congr
  funext mapping
  congr
  funext resourceId
  cases operation.resourceStateFunction with
  | none =>
    simp only [bind_assoc]
    rfl
  | some stateFunction =>
    dsimp only
    split <;> simp only [bind_assoc] <;> rfl

end

def fileDeletion (kube : Kubernetes) (node : Node) : ResourceTask where
  task path mapping definition := do
    let runtime ← getRuntime
    fileResourceDeleteTask kube node (recursionDepth runtime) path mapping definition
  retrieveMapping := chooseMapping
  cleanupRuntimeProperties := true
  resourceStateFunction := some (checkIfResourceExists kube .stateFunction)

theorem fileResourceDelete_eq (kube : Kubernetes) (node : Node) (file : Option String)
    (definitions : List KubernetesResourceDefinition) :
    fileResourceDelete kube node file definitions = resourceTask node (fileDeletion kube node) file definitions :=
  rfl

def SparesOthers (path : String) (before after : RuntimeProperties) : Prop :=
  ∀ other, other ≠ path → (recordedFiles after).get? other = (recordedFiles before).get? other

theorem recordedFiles_dropRecord {path : String} {runtime : RuntimeProperties} (named : path ≠ "")
    (present : (recordedFiles runtime).contains path = true) :
    recordedFiles (dropRecord path runtime) = (recordedFiles runtime).erase path := by
  have condition : path ≠ "" ∧ (runtime.kubernetes.getD .empty).contains path = true := ⟨named, present⟩
  simp only [dropRecord, if_pos condition, recordedFiles]
  split
  · rename_i empty
    rw [(OrderedDict.isEmpty_iff _).mp empty]
    rfl
  · rfl

theorem recordedFiles_dropRecord_absent {path : String} {runtime : RuntimeProperties}
    (absent : (recordedFiles runtime).contains path = false) :
    recordedFiles (dropRecord path runtime) = .empty := by
  have condition : ¬ (path ≠ "" ∧ (runtime.kubernetes.getD .empty).contains path = true) := by
    rintro ⟨_, present⟩
    cases absent.symm.trans present
  simp only [dropRecord, if_neg condition, recordedFiles]
  rfl

/-- The cleanup for a path spares all others exactly when the path has a record, or none has. -/
theorem dropRecord_spares_iff {path : String} (named : path ≠ "") (runtime : RuntimeProperties) :
    SparesOthers path runtime (dropRecord path runtime) ↔
      (recordedFiles runtime).contains path = true ∨ recordedFiles runtime = .empty := by
  cases recorded : (recordedFiles runtime).contains path with
  | true =>
    refine iff_of_true (fun other different => ?_) (.inl rfl)
    rw [recordedFiles_dropRecord named recorded, OrderedDict.get?_erase, if_neg different]
  | false =>
    simp only [Bool.false_eq_true, false_or, SparesOthers, recordedFiles_dropRecord_absent recorded]
    constructor
    · intro spares
      apply OrderedDict.ext
      refine List.eq_nil_iff_forall_not_mem.mpr fun entry member => ?_
      have present := (OrderedDict.mem_items_iff _ _ _).mp member
      by_cases same : entry.1 = path
      · have contained := (OrderedDict.contains_iff _ _).mpr ⟨_, same ▸ present⟩
        cases recorded.symm.trans contained
      · cases (spares entry.1 same).trans present
    · intro empty other _
      rw [empty]

/-- After a task that returned, the cleanup for a definition of a file spares the records of all
    other paths exactly when the task has left the definition's own, or none at all. -/
theorem cleanup_spares_iff {node : Node} {operation : ResourceTask} {file : Option String}
    {definitions : List KubernetesResourceDefinition} {index : Nat} {definition : KubernetesResourceDefinition}
    {s s' : State} {currentState : Value}
    (named : definitionPath node file (definitions.length > 1) index ≠ "")
    (ran : taskRound node operation (definitionPath node file (definitions.length > 1) index) definition s =
      (.ok currentState, s'))
    (found : currentState.truthy = true) (cleans : operation.cleanupRuntimeProperties = true) :
    let path := definitionPath node file (definitions.length > 1) index
    SparesOthers path s'.runtime (definitionTask node operation path definition s).2.runtime ↔
      (recordedFiles s'.runtime).contains path = true ∨ recordedFiles s'.runtime = .empty := by
  intro path
  have whole : definitionTask node operation path definition s =
      (.ok (), { s' with runtime := dropRecord path s'.runtime }) := by
    rw [definitionTask_eq, bind_run_ok ran, cleanupRound, found, cleans]
    rfl
  rw [whole]
  exact dropRecord_spares_iff named s'.runtime

open Package

def vanishing : Kubernetes := package fun earlier _ =>
  if earlier.isEmpty then .ok (response "ConfigMap" "settings")
  else .error (.apiException { status := some 404, reason := "Not Found" })

def fileNode : Node := { ownNode with file := some "settings.yaml" }

def twoFiles : State :=
  { mainNamespace with runtime := { kubernetes := some (OrderedDict.ofEntries
      [("settings.yaml#0", response "ConfigMap" "settings"), ("worker.yaml#0", response "Pod" "worker")]) } }

theorem twoFiles_round : ∃ currentState s', taskRound fileNode (fileDeletion vanishing fileNode)
      (definitionPath fileNode none (decide ([configMap "settings" none].length > 1)) 0)
      (configMap "settings" none) twoFiles = (.ok currentState, s') ∧ currentState.truthy = true ∧
    ((recordedFiles s'.runtime).contains "worker.yaml#0" = true ∧
      (recordedFiles s'.runtime).contains "settings.yaml#0" = false) := by
  have taken : returning (fun currentState s' => currentState.truthy &&
        ((recordedFiles s'.runtime).contains "worker.yaml#0" &&
          !(recordedFiles s'.runtime).contains "settings.yaml#0"))
      (taskRound fileNode (fileDeletion vanishing fileNode)
        (definitionPath fileNode none (decide ([configMap "settings" none].length > 1)) 0)
        (configMap "settings" none) twoFiles) = true := by decide +kernel
  obtain ⟨currentState, s', ran, taken⟩ := returning_iff.mp taken
  simp only [Bool.and_eq_true, Bool.not_eq_true'] at taken
  exact ⟨currentState, s', ran, taken.1, taken.2.1, taken.2.2⟩

/-- The cleanup behind the deletion of one file wipes the record of another. -/
theorem other_file_wiped : ∃ currentState s', taskRound fileNode (fileDeletion vanishing fileNode)
      (definitionPath fileNode none (decide ([configMap "settings" none].length > 1)) 0)
      (configMap "settings" none) twoFiles = (.ok currentState, s') ∧ currentState.truthy = true ∧
    ¬ SparesOthers "settings.yaml#0" s'.runtime (definitionTask fileNode (fileDeletion vanishing fileNode) "settings.yaml#0"
      (configMap "settings" none) twoFiles).2.runtime := by
  obtain ⟨currentState, s', ran, found, recorded, taken⟩ := twoFiles_round
  refine ⟨currentState, s', ran, found, fun spares => ?_⟩
  have path : definitionPath fileNode none (decide ([configMap "settings" none].length > 1)) 0 = "settings.yaml#0" := by
    decide +kernel
  rw [path] at ran
  have whole : definitionTask fileNode (fileDeletion vanishing fileNode) "settings.yaml#0" (configMap "settings" none)
      twoFiles = (.ok (), { s' with runtime := dropRecord "settings.yaml#0" s'.runtime }) := by
    rw [definitionTask_eq, bind_run_ok ran, cleanupRound, found]
    rfl
  rw [whole] at spares
  have kept := spares "worker.yaml#0" (by decide +kernel)
  rw [recordedFiles_dropRecord_absent taken] at kept
  obtain ⟨record, present⟩ := (OrderedDict.contains_iff _ _).mp recorded
  cases kept.trans present

theorem cleanup_spares_iff_twoFiles : ∃ currentState s',
    taskRound fileNode (fileDeletion vanishing fileNode)
      (definitionPath fileNode none (decide ([configMap "settings" none].length > 1)) 0)
      (configMap "settings" none) twoFiles = (.ok currentState, s') ∧
    let path := definitionPath fileNode none (decide ([configMap "settings" none].length > 1)) 0
    (SparesOthers path s'.runtime (definitionTask fileNode (fileDeletion vanishing fileNode) path
        (configMap "settings" none) twoFiles).2.runtime ↔
      (recordedFiles s'.runtime).contains path = true ∨ recordedFiles s'.runtime = .empty) := by
  obtain ⟨currentState, s', ran, found, _⟩ := twoFiles_round
  exact ⟨currentState, s', ran, cleanup_spares_iff (by decide +kernel) ran found rfl⟩

end CloudifyKubernetes
