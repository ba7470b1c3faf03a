import Mathlib.Data.List.DropRight
import CloudifyKubernetes.Cleanup
import CloudifyKubernetes.DeletionRuns
import CloudifyKubernetes.FileRecords
import CloudifyKubernetes.StoreOperations

namespace CloudifyKubernetes

open Collections Effects Program

def RecordedAt (n : ObjectName) (path : String) (files : Dict) : Prop :=
  (path = "" ∧ (Value.dict files.items).Names n) ∨ ∃ v, files.get? path = some v ∧ v.Names n

structure Forgotten (n : ObjectName) (runtime : RuntimeProperties) : Prop where
  unstored : ∀ v ∈ storedDefinitions runtime, ¬ v.Names n
  unrecorded : ∀ path, ¬ RecordedAt n path (recordedFiles runtime)

instance : Std.Refl Untouched := ⟨fun _ => ⟨rfl, rfl⟩⟩

instance : IsTrans State Untouched := ⟨fun _ _ _ first second =>
  ⟨second.kubernetes.trans first.kubernetes, second.resourceDefinitions.trans first.resourceDefinitions⟩⟩

theorem Untouched.files {s s' : State} (kept : Untouched s s') : recordedFiles s'.runtime = recordedFiles s.runtime := by
  rw [recordedFiles, kept.kubernetes, recordedFiles]

theorem Untouched.definitions {s s' : State} (kept : Untouched s s') :
    storedDefinitions s'.runtime = storedDefinitions s.runtime := by
  rw [storedDefinitions, kept.resourceDefinitions, storedDefinitions]

section

variable {kube : Kubernetes} {node : Node} {mapping : KubernetesApiMapping} {definition : KubernetesResourceDefinition}

theorem doResourceRead_untouched (site : Site) :
    Within Untouched (doResourceRead kube site mapping definition) := by
  intro s
  have run := doResourceRead_run kube site mapping definition s
  generalize doResourceRead kube site mapping definition s = ran at run ⊢
  cases run <;> exact ⟨rfl, rfl⟩

theorem chooseMapping_untouched (definition : KubernetesResourceDefinition) :
    Within Untouched (chooseMapping definition) := by
  intro s
  rw [chooseMapping_run]
  exact ⟨rfl, rfl⟩

theorem handleExistingResource_untouched (node : Node) (found : Value) :
    Within Untouched (handleExistingResource node found) := by
  intro s
  rw [handleExistingResource_run]
  exact ⟨rfl, rfl⟩

end

def currentState (operation : ResourceTask) (path : String) (mapping : KubernetesApiMapping)
    (definition : KubernetesResourceDefinition) (resourceId : Value) : Task Value :=
  match operation.resourceStateFunction with
  | some stateFunction =>
    if resourceId.truthy then stateFunction mapping definition else recordedState path
  | none => recordedState path

def stateBefore (operation : ResourceTask) (path : String) (definition : KubernetesResourceDefinition) :
    Task Value := do
  let mapping ← operation.retrieveMapping definition
  let resourceId ← Program.ofExcept (definition.metadata.get "name" .none)
  currentState operation path mapping definition resourceId

def runTask (node : Node) (operation : ResourceTask) (path : String) (mapping : KubernetesApiMapping)
    (definition : KubernetesResourceDefinition) (found : Value) : Task Value := do
  handleExistingResource node found
  operation.task path mapping definition
  modifyRuntime fun runtime => { runtime with performTask := none }
  return found

theorem taskRound_eq (node : Node) (operation : ResourceTask) (path : String)
    (definition : KubernetesResourceDefinition) :
    taskRound node operation path definition =
      operation.retrieveMapping definition >>= fun mapping =>
        ofExcept (definition.metadata.get "name" .none) >>= fun resourceId =>
          currentState operation path mapping definition resourceId >>=
            runTask node operation path mapping definition := by
  unfold taskRound currentState
  congr
  funext mapping
  congr
  funext resourceId
  cases operation.resourceStateFunction with
  | none => rfl
  | some stateFunction =>
    dsimp only
    split <;> rfl

def existsBefore (operation : ResourceTask) (path : String) (definition : KubernetesResourceDefinition)
    (s : State) : Bool :=
  returning (fun found _ => found.truthy) (stateBefore operation path definition s)

section

variable {R : State → State → Prop} [Std.Refl R] [IsTrans State R]

theorem recordedState_within (path : String) : Within R (recordedState path) := by
  refine getRuntime_within.bind fun runtime => ?_
  split <;> exact .pure _

theorem currentState_within {operation : ResourceTask}
    (state : ∀ stateFunction, operation.resourceStateFunction = some stateFunction →
      ∀ mapping definition, Within R (stateFunction mapping definition))
    (path : String) (mapping : KubernetesApiMapping) (definition : KubernetesResourceDefinition) (resourceId : Value) :
    Within R (currentState operation path mapping definition resourceId) := by
  unfold currentState
  split
  · rename_i stateFunction given
    split
    · exact state _ given _ _
    · exact recordedState_within _
  · exact recordedState_within _

end

structure ResourceTask.Asks (operation : ResourceTask) : Prop where
  mapping : ∀ definition, Within Untouched (operation.retrieveMapping definition)
  state : ∀ stateFunction, operation.resourceStateFunction = some stateFunction →
    ∀ mapping definition, Within Untouched (stateFunction mapping definition)

theorem ResourceTask.Asks.currentState {operation : ResourceTask} (asks : operation.Asks) (path : String)
    (mapping : KubernetesApiMapping) (definition : KubernetesResourceDefinition) (resourceId : Value) :
    Within Untouched (currentState operation path mapping definition resourceId) :=
  currentState_within asks.state path mapping definition resourceId

/-- A round that returns has run its task on the stores as they were. -/
theorem taskRound_returns {node : Node} {operation : ResourceTask} (asks : operation.Asks) {path : String}
    {definition : KubernetesResourceDefinition} {s s' : State} {found : Value}
    (ran : taskRound node operation path definition s = (.ok found, s')) :
    existsBefore operation path definition s = found.truthy ∧
      ∃ mapping before after, operation.task path mapping definition before = (.ok (), after) ∧
        Untouched s before ∧ Untouched after s' := by
  rw [taskRound_eq] at ran
  obtain ⟨mapping, mapped, chosen, ran⟩ := bind_ok_inv ran
  obtain ⟨resourceId, given, ran⟩ := bind_ofExcept_ok_inv ran
  obtain ⟨current, read, checked, ran⟩ := bind_ok_inv ran
  obtain ⟨_, ready, flagged, ran⟩ := bind_ok_inv ran
  obtain ⟨_, after, done, ran⟩ := bind_ok_inv ran
  cases ran
  have whole : stateBefore operation path definition s = (.ok found, read) := by
    rw [stateBefore, bind_run_ok chosen, bind_run, ofExcept_run, given]
    exact checked
  have first : Untouched s mapped := by
    have kept := asks.mapping definition s
    rwa [chosen] at kept
  have second : Untouched mapped read := by
    have kept := asks.currentState path mapping definition resourceId mapped
    rwa [checked] at kept
  have third : Untouched read ready := by
    have kept := handleExistingResource_untouched node found read
    rwa [flagged] at kept
  refine ⟨by rw [existsBefore, whole]; rfl, mapping, ready, after, done, ?_, rfl, rfl⟩
  exact IsTrans.trans _ _ _ (IsTrans.trans _ _ _ first second) third

section

variable {kube : Kubernetes} {node : Node} {mapping : KubernetesApiMapping} {definition : KubernetesResourceDefinition}

theorem checkIfResourceExists_untouched (site : Site) :
    Within Untouched (checkIfResourceExists kube site mapping definition) :=
  checkIfResourceExists_within (doResourceRead_untouched site)

theorem deleteUnlessMissing_returns (owned : node.useExternalResource = false) {marker : String}
    {resourceExists : Value → KubernetesApiMapping → KubernetesResourceDefinition → Task Value} {s s' : State}
    (ran : deleteUnlessMissing kube node marker resourceExists mapping definition s = (.ok (), s')) :
    s' = (doResourceRead kube .task mapping definition s).2 := by
  obtain ⟨result, middle, read, ran⟩ := bind_ok_inv ran
  rw [attempt_run] at read
  cases read
  cases outcome : (doResourceRead kube .task mapping definition s).1 with
  | error e =>
    simp only [outcome] at ran
    split at ran
    · split at ran
      · cases ran
        rfl
      · cases ran
    · cases ran
  | ok found =>
    simp only [outcome] at ran
    obtain ⟨chosen, _, _, ran⟩ := bind_ok_inv ran
    obtain ⟨name, _, _, ran⟩ := bind_ok_inv ran
    obtain ⟨response, _, _, ran⟩ := bind_ok_inv ran
    obtain ⟨again, _, _, ran⟩ := bind_ok_inv ran
    rw [bind_run_ok (handleDeleteResource_run _ _ _), bind_run_ok (getPerformTask_run _)] at ran
    simp only [owned, Bool.and_false, Bool.not_false, Option.getD_some, if_true] at ran
    obtain ⟨_, _, _, ran⟩ := bind_ok_inv ran
    cases ran

end

theorem definitionTask_returns {node : Node} {operation : ResourceTask} {path : String}
    {definition : KubernetesResourceDefinition} {s s' : State}
    (ran : definitionTask node operation path definition s = (.ok (), s')) :
    ∃ found middle, taskRound node operation path definition s = (.ok found, middle) ∧
      s' = if found.truthy && operation.cleanupRuntimeProperties then
        { middle with runtime := dropRecord path middle.runtime } else middle := by
  rw [definitionTask_eq] at ran
  obtain ⟨found, middle, first, ran⟩ := bind_ok_inv ran
  refine ⟨found, middle, first, ?_⟩
  rw [cleanupRound] at ran
  split at ran <;> rename_i cleaned
  · rw [if_pos cleaned]
    cases ran
    rfl
  · rw [if_neg cleaned]
    cases ran
    rfl

theorem not_recordedAt_empty (n : ObjectName) (path : String) : ¬ RecordedAt n path .empty := by
  rintro (⟨_, names⟩ | ⟨v, found, _⟩)
  · cases names
  · cases found

inductive SingleDeletion
  | resource (definition : KubernetesResourceDefinition)
  | custom (definition : KubernetesResourceDefinition)

namespace SingleDeletion

def definition : SingleDeletion → KubernetesResourceDefinition
  | resource definition => definition
  | custom definition => definition

def operation : SingleDeletion → Operation
  | resource definition => .resourceDelete definition
  | custom definition => .customResourceDelete definition

def task (kube : Kubernetes) (node : Node) : SingleDeletion → ResourceTask
  | resource _ =>
    { task := fun _ => deleteUnlessMissing kube node codeMarker fun found _ _ => pure found
      retrieveMapping := chooseMapping
      cleanupRuntimeProperties := true
      resourceStateFunction := some (checkIfResourceExists kube .stateFunction) }
  | custom _ =>
    { task := fun _ => deleteUnlessMissing kube node "(404)" fun _ =>
        checkIfResourceExists kube .afterDelete
      retrieveMapping := fun _ => Program.ofExcept (mappingByData node)
      cleanupRuntimeProperties := true
      resourceStateFunction := some (checkIfResourceExists kube .stateFunction) }

variable {kube : Kubernetes} {node : Node} (deletion : SingleDeletion)

theorem operation_run (ctx : OperationContext) : deletion.operation.run kube node ctx =
    resourceTask node (deletion.task kube node) none [deletion.definition] := by
  cases deletion <;> rfl

theorem run_task {ctx : OperationContext} {s s' : State}
    (ran : deletion.operation.run kube node ctx s = (.ok (), s')) :
    definitionTask node (deletion.task kube node) (definitionPath node none false 0) deletion.definition s =
      (.ok (), s') := by
  rw [operation_run] at ran
  cases resourceTask_rounds ran with
  | cons first rest =>
    cases rest
    exact first

theorem path_unfiled (unfiled : node.file = none) : definitionPath node none false 0 = "" := by
  rw [definitionPath, unfiled]
  rfl

theorem asks : (deletion.task kube node).Asks := by
  cases deletion with
  | resource d =>
    refine ⟨chooseMapping_untouched, fun stateFunction given mapping definition => ?_⟩
    cases given
    exact checkIfResourceExists_untouched _
  | custom d =>
    refine ⟨fun _ => .ofExcept _, fun stateFunction given mapping definition => ?_⟩
    cases given
    exact checkIfResourceExists_untouched _

theorem task_returns (owned : node.useExternalResource = false) {path : String} {mapping : KubernetesApiMapping}
    {definition : KubernetesResourceDefinition} {s s' : State}
    (ran : (deletion.task kube node).task path mapping definition s = (.ok (), s')) : Untouched s s' := by
  have missed : s' = (doResourceRead kube .task mapping definition s).2 := by
    cases deletion with
    | resource d =>
      have ran : deleteUnlessMissing kube node codeMarker (fun found _ _ => pure found) mapping definition s =
        (.ok (), s') := ran
      exact deleteUnlessMissing_returns owned ran
    | custom d =>
      have ran : deleteUnlessMissing kube node "(404)" (fun _ => checkIfResourceExists kube .afterDelete)
        mapping definition s = (.ok (), s') := ran
      exact deleteUnlessMissing_returns owned ran
  rw [missed]
  exact doResourceRead_untouched .task s

/-- A deletion of a single resource that returns leaves the definitions, and the records too
    unless the state that was read before the task found the resource. -/
theorem run_returned (owned : node.useExternalResource = false) (unfiled : node.file = none)
    {ctx : OperationContext} {s s' : State} (ran : deletion.operation.run kube node ctx s = (.ok (), s')) :
    storedDefinitions s'.runtime = storedDefinitions s.runtime ∧
      recordedFiles s'.runtime = if existsBefore (deletion.task kube node) "" deletion.definition s then .empty
        else recordedFiles s.runtime := by
  have first := deletion.run_task ran
  rw [path_unfiled unfiled] at first
  obtain ⟨found, middle, round, rfl⟩ := definitionTask_returns first
  obtain ⟨existed, mapping, before, after, done, kept, kept'⟩ := taskRound_returns deletion.asks round
  have kept : Untouched s middle :=
    IsTrans.trans _ _ _ (IsTrans.trans _ _ _ kept (deletion.task_returns owned done)) kept'
  have cleans : (deletion.task kube node).cleanupRuntimeProperties = true := by cases deletion <;> rfl
  rw [existed, cleans, Bool.and_true, ← kept.definitions]
  cases found.truthy with
  | true => simp [dropRecord, storedDefinitions, recordedFiles]
  | false => exact ⟨rfl, kept.files⟩

end SingleDeletion

theorem Untouched.lessens {s s' : State} (kept : Untouched s s') : Lessens s s' :=
  ⟨kept.definitions ▸ .refl _, fun _ _ found => kept.files ▸ found⟩

theorem rdrop_sublist {α : Type} {l l' : List α} (inside : l.Sublist l') {j k : Nat} (less : k ≤ j) :
    (l.rdrop j).Sublist (l'.rdrop k) := by
  rw [List.rdrop_eq_reverse_drop_reverse, List.rdrop_eq_reverse_drop_reverse]
  exact ((inside.reverse.drop j).trans (List.drop_sublist_drop_left _ less)).reverse

theorem rdrop_rdrop {α : Type} (l : List α) (j k : Nat) : (l.rdrop j).rdrop k = l.rdrop (j + k) := by
  simp only [List.rdrop_eq_reverse_drop_reverse, List.reverse_reverse, List.drop_drop]

def unrecorded (paths : List String) (files : Dict) : Nat := paths.countP fun path => !files.contains path

/-- What the lookup of a path takes out of the stores: the record of the path, or without one
    the last definition. -/
structure Takes (path : String) (s s' : State) : Prop where
  lessens : Lessens s s'
  cleared : ∀ v, (recordedFiles s'.runtime).get? path = some v → v.truthy = false
  popped : (storedDefinitions s'.runtime).Sublist
    ((storedDefinitions s.runtime).rdrop (unrecorded [path] (recordedFiles s.runtime)))

theorem Takes.trans {path : String} {s middle s' : State} (takes : Takes path s middle) (less : Lessens middle s') :
    Takes path s s' where
  lessens := IsTrans.trans _ _ _ takes.lessens less
  cleared v found := takes.cleared v (less.files path v found)
  popped := less.definitions.trans takes.popped

theorem Untouched.takes {path : String} {s middle s' : State} (kept : Untouched s middle) (takes : Takes path middle s') :
    Takes path s s' where
  lessens := IsTrans.trans _ _ _ kept.lessens takes.lessens
  cleared := takes.cleared
  popped := by
    have popped := takes.popped
    rwa [kept.files, kept.definitions] at popped

theorem poppedFor_files (path : String) (runtime : RuntimeProperties) :
    recordedFiles (poppedFor path runtime) = recordedFiles runtime := by
  unfold poppedFor
  split <;> rfl

theorem poppedFor_definitions (path : String) (runtime : RuntimeProperties) :
    storedDefinitions (poppedFor path runtime) =
      (storedDefinitions runtime).rdrop (unrecorded [path] (recordedFiles runtime)) := by
  cases recorded : (recordedFiles runtime).get? path with
  | some v => simp [poppedFor, unrecorded, OrderedDict.contains, recorded]
  | none =>
    have one : unrecorded [path] (recordedFiles runtime) = 1 := by
      simp [unrecorded, OrderedDict.contains, recorded]
    simp only [poppedFor, recorded, storedDefinitions_popStored, one]
    exact List.dropLast_eq_take

theorem dropRecord_lessens (path : String) (s : State) :
    Lessens s { s with runtime := dropRecord path s.runtime } := by
  refine ⟨?_, fun other v found => ?_⟩
  · change (storedDefinitions (dropRecord path s.runtime)).Sublist _
    unfold dropRecord
    dsimp only
    split <;> exact .refl _
  · change (recordedFiles (dropRecord path s.runtime)).get? other = some v at found
    by_cases present : path ≠ "" ∧ (recordedFiles s.runtime).contains path = true
    · rw [recordedFiles_dropRecord present.1 present.2, OrderedDict.get?_erase] at found
      split at found
      · cases found
      · exact found
    · have wiped : recordedFiles (dropRecord path s.runtime) = .empty := by
        have condition : ¬ (path ≠ "" ∧ (s.runtime.kubernetes.getD .empty).contains path = true) := present
        simp only [dropRecord, if_neg condition, recordedFiles]
        rfl
      rw [wiped] at found
      cases found

/-- A lookup takes what it settles on, unless it fails with an error that ends the deletion. -/
theorem retrieveLastCreatePath_takes (path : String) (s : State) :
    (∃ e, (retrieveLastCreatePath path true s).1 = .error e ∧ e.unresolved = false) ∨
      Takes path s (retrieveLastCreatePath path true s).2 := by
  have popped : Takes path s { s with runtime := poppedFor path s.runtime } ∨
      ∃ v, (recordedFiles s.runtime).get? path = some v ∧ v.truthy = true := by
    by_cases recorded : ∃ v, (recordedFiles s.runtime).get? path = some v ∧ v.truthy = true
    · exact .inr recorded
    · have files := poppedFor_files path s.runtime
      have definitions := poppedFor_definitions path s.runtime
      refine .inl ⟨⟨?_, fun _ _ found => files ▸ found⟩, fun v found => ?_, ?_⟩
      · exact definitions ▸ List.take_sublist _ _
      · cases truthy : v.truthy with
        | false => rfl
        | true => exact absurd ⟨v, files ▸ found, truthy⟩ recorded
      · exact definitions ▸ .refl _
  rw [retrieveLastCreatePath_run]
  cases settled : settledFile path s.runtime with
  | error e =>
    rcases popped with takes | ⟨v, found, _⟩
    · exact .inr takes
    · simp only [settledFile, found] at settled
      cases settled
  | ok settledOn =>
    obtain ⟨name, resource⟩ := settledOn
    have here {v : Value} (found : (recordedFiles s.runtime).get? path = some v) : name = path ∧ resource = v := by
      simp only [settledFile, found] at settled
      cases settled
      exact ⟨rfl, rfl⟩
    simp only [takeAdjacent_run]
    cases truthy : resource.truthy with
    | false =>
      rcases popped with takes | ⟨v, found, recorded⟩
      · exact .inr takes
      · rw [(here found).2, recorded] at truthy
        cases truthy
    | true =>
      cases adjacent : takenWith name resource ((recordedFiles s.runtime).erase name) with
      | error e =>
        refine .inl ⟨e, rfl, ?_⟩
        rcases takenWith_error_cls adjacent with cls | cls <;> rw [Exception.unresolved] <;>
          simp [Exception.isA, cls, ExceptionClass.isSubclass]
      | ok others =>
        have left {other : String} {v : Value} (found : OrderedDict.get? (OrderedDict.filter (fun key _ =>
              key ∉ others.map Prod.fst) ((recordedFiles s.runtime).erase name)) other = some v) :
            other ≠ name ∧ (recordedFiles s.runtime).get? other = some v := by
          rw [OrderedDict.get?_filter, Option.filter_eq_some_iff, OrderedDict.get?_erase] at found
          split at found
          · cases found.1
          · rename_i different
            exact ⟨different, found.1⟩
        have definitions := poppedFor_definitions path s.runtime
        refine .inr ⟨⟨?_, fun other v found => (left found).2⟩, fun v found => ?_, ?_⟩
        · exact definitions ▸ List.take_sublist _ _
        · obtain ⟨different, recorded⟩ := left found
          exact absurd (here recorded).1.symm different
        · exact definitions ▸ .refl _

section

variable {kube : Kubernetes} {node : Node} {path : String} {mapping : KubernetesApiMapping}
  {definition : KubernetesResourceDefinition}

/-- What the deletion goes on with has been taken out of the stores. -/
theorem getPathWithAdjacentResources_takes {s s' : State}
    {chosen : List (String × Value) × KubernetesResourceDefinition × KubernetesApiMapping}
    (ran : getPathWithAdjacentResources node path mapping definition s = (.ok chosen, s')) : Takes path s s' := by
  obtain ⟨result, looked, tried, ran⟩ := bind_ok_inv ran
  rw [attempt_run] at tried
  cases tried
  have state : (recordedResource path s).2 = (retrieveLastCreatePath path true s).2 ∧
      ∀ e, (retrieveLastCreatePath path true s).1 = .error e → (recordedResource path s).1 = .error e := by
    rw [recordedResource, bind_run]
    generalize retrieveLastCreatePath path true s = lookup
    obtain ⟨e | found, looked⟩ := lookup
    · refine ⟨rfl, fun _ failed => ?_⟩
      cases failed
      rfl
    · refine ⟨?_, fun _ failed => by cases failed⟩
      dsimp only
      rw [bind_run, ofExcept_run]
      cases found.resource.index "kind" with
      | error e => rfl
      | ok kind =>
        dsimp only
        rw [bind_run, ofExcept_run]
        cases found.resource.index "metadata" <;> rfl
  have takes : Takes path s (recordedResource path s).2 ∨
      ∃ e, (recordedResource path s).1 = .error e ∧ e.unresolved = false := by
    rcases retrieveLastCreatePath_takes path s with ⟨e, failed, ends⟩ | takes
    · exact .inr ⟨e, state.2 e failed, ends⟩
    · exact .inl (state.1 ▸ takes)
  generalize recordedResource path s = lookup at takes ran
  obtain ⟨e | ⟨found, kind, metadata⟩, looked⟩ := lookup
  · change (if e.unresolved = true then _ else _ : Task _) looked = _ at ran
    cases unresolved : e.unresolved with
    | false =>
      rw [unresolved] at ran
      cases ran
    | true =>
      rw [unresolved] at ran
      rcases takes with takes | ⟨_, same, ends⟩
      · obtain ⟨stored, last, ran, done⟩ := bind_ok_inv ran
        cases done
        have forgets := retrieveStoredResource_forgets node definition mapping true looked
        rw [ran] at forgets
        exact takes.trans forgets.lessens
      · cases same
        cases unresolved.symm.trans ends
  · rcases takes with takes | ⟨_, same, _⟩
    · obtain ⟨version, _, ran⟩ := bind_ofExcept_ok_inv ran
      split at ran
      · obtain ⟨rebuilt, _, ran⟩ := bind_ofExcept_ok_inv ran
        obtain ⟨chosen', _, ran⟩ := bind_ofExcept_ok_inv ran
        cases ran
        exact takes
      · cases ran
    · cases same

/-- An answer to the deletion of a resource that is not external is always followed by a retry. -/
theorem deleteWhileAdjacentResources_returns (owned : node.useExternalResource = false)
    {adjacent : List (String × Value)} {s s' : State} {result : Option Exception}
    (ran : deleteWhileAdjacentResources kube node path mapping definition adjacent s = (.ok result, s')) :
    ∃ text, result = some ⟨.operationRetry, text⟩ := by
  obtain ⟨name, _, ran⟩ := bind_ofExcept_ok_inv ran
  obtain ⟨answer, middle, _, ran⟩ := bind_ok_inv ran
  cases answer with
  | error e =>
    dsimp only at ran
    split at ran <;> cases ran
  | ok response =>
    simp only [afterDeletion, bind_run_ok (handleDeleteResource_run _ _ _), bind_run_ok (getPerformTask_run _), owned,
      Bool.and_false, Bool.not_false, Option.getD_some, if_true] at ran
    have retried {middle : State} (ran : (do
        storeResultForRetrieveId definition.cleanup path
        storeAdjacent adjacent
        return some ⟨.operationRetry, "Delete response: " ++ response.toText⟩ : Task (Option Exception)) middle =
          (.ok result, s')) : ∃ text, result = some ⟨.operationRetry, text⟩ := by
      obtain ⟨_, _, _, ran⟩ := bind_ok_inv ran
      obtain ⟨_, _, _, ran⟩ := bind_ok_inv ran
      cases ran
      exact ⟨_, rfl⟩
    split at ran
    · obtain ⟨_, _, _, ran⟩ := bind_ok_inv ran
      exact retried ran
    · exact retried ran

theorem deleteWithAdjacentResources_returns (owned : node.useExternalResource = false)
    {delete : KubernetesApiMapping → KubernetesResourceDefinition → Task Unit} {adjacent : List (String × Value)}
    {s s' : State}
    (ran : deleteWithAdjacentResources kube node delete path adjacent definition mapping s = (.ok (), s')) :
    s' = (doResourceRead kube .task mapping definition s).2 := by
  obtain ⟨read, middle, first, ran⟩ := bind_ok_inv ran
  rw [readWhileAdjacentResources_run, Prod.mk.injEq] at first
  obtain ⟨_, rfl⟩ := first
  cases read with
  | some e =>
    dsimp only at ran
    split at ran
    · split at ran
      · cases ran
        rfl
      · obtain ⟨_, _, _, ran⟩ := bind_ok_inv ran
        obtain ⟨_, _, _, ran⟩ := bind_ok_inv ran
        cases ran
    · cases ran
  | none =>
    obtain ⟨result, last, deleted, ran⟩ := bind_ok_inv ran
    obtain ⟨text, rfl⟩ := deleteWhileAdjacentResources_returns owned deleted
    cases ran

variable (kube node) in
theorem fileDeletion_asks : (fileDeletion kube node).Asks := by
  refine ⟨chooseMapping_untouched, fun stateFunction given mapping definition => ?_⟩
  cases given
  exact checkIfResourceExists_untouched _

/-- A round of the deletion of a file that returns takes the record of its path, or without one
    the last definition. -/
theorem fileDeletion_takes (owned : node.useExternalResource = false) {s s' : State}
    (ran : definitionTask node (fileDeletion kube node) path definition s = (.ok (), s')) : Takes path s s' := by
  obtain ⟨found, middle, round, rfl⟩ := definitionTask_returns ran
  obtain ⟨_, mapping, before, after, done, kept, kept'⟩ := taskRound_returns (fileDeletion_asks kube node) round
  obtain ⟨runtime, _, first, done⟩ := bind_ok_inv done
  cases first
  have takes : Takes path before after := by
    generalize recursionDepth before.runtime = depth at done
    cases depth with
    | zero => cases done
    | succ depth =>
      obtain ⟨_, _, first, done⟩ := bind_ok_inv done
      cases first
      obtain ⟨_, _, first, done⟩ := bind_ok_inv done
      cases first
      obtain ⟨chosen, looked, lookup, done⟩ := bind_ok_inv done
      rw [deleteWithAdjacentResources_returns owned done]
      have entered : Untouched before
          { before with log := before.log ++ [.entered path mapping definition before.runtime] } := ⟨rfl, rfl⟩
      have takes : Takes path before looked := entered.takes (getPathWithAdjacentResources_takes lookup)
      exact takes.trans (doResourceRead_untouched .task looked).lessens
  have whole : Takes path s middle := (kept.takes takes).trans kept'.lessens
  split
  · exact whole.trans (dropRecord_lessens path middle)
  · exact whole

/-- The rounds of a deletion of a file that returns take the record of each of its paths, and a
    definition for each path without one. -/
theorem fileDeletions_take (owned : node.useExternalResource = false)
    {todo : List (String × KubernetesResourceDefinition)} {s s' : State}
    (rounds : Rounds (fun target => definitionTask node (fileDeletion kube node) target.1 target.2) todo s s') :
    Lessens s s' ∧
      (∀ target ∈ todo, ∀ v, (recordedFiles s'.runtime).get? target.1 = some v → v.truthy = false) ∧
      (storedDefinitions s'.runtime).Sublist
        ((storedDefinitions s.runtime).rdrop (unrecorded (todo.map Prod.fst) (recordedFiles s.runtime))) := by
  induction rounds with
  | nil s => exact ⟨⟨.refl _, fun _ _ found => found⟩, by simp, by simp [unrecorded]⟩
  | @cons target rest _ s middle s' ran _ ih =>
    obtain ⟨less, cleared, popped⟩ := ih
    have takes := fileDeletion_takes owned ran
    refine ⟨IsTrans.trans _ _ _ takes.lessens less, ?_, ?_⟩
    · refine List.forall_mem_cons.mpr ⟨fun v found => takes.cleared v (less.files _ v found), cleared⟩
    · have more : unrecorded (rest.map Prod.fst) (recordedFiles s.runtime) ≤
          unrecorded (rest.map Prod.fst) (recordedFiles middle.runtime) := by
        apply List.countP_mono_left
        intro path _ missing
        rw [Bool.not_eq_true', ← Bool.not_eq_true, OrderedDict.contains_iff] at missing ⊢
        rintro ⟨v, found⟩
        exact missing ⟨v, takes.lessens.files path v found⟩
      have split : unrecorded ((target :: rest).map Prod.fst) (recordedFiles s.runtime) =
          unrecorded [target.1] (recordedFiles s.runtime) + unrecorded (rest.map Prod.fst) (recordedFiles s.runtime) := by
        simp only [unrecorded, List.map_cons, List.countP_cons, List.countP_nil]
        omega
      rw [split, ← rdrop_rdrop]
      exact popped.trans (rdrop_sublist takes.popped more)

end

theorem attempts_concat (kube : Kubernetes) (node : Node) (options : Dict)
    (earlier : List (OperationContext × Operation)) (ctx : OperationContext) (operation : Operation) (s : State) :
    ∃ results, attempts kube node options (earlier ++ [(ctx, operation)]) s =
      let ran := operation.run kube node ctx { (attempts kube node options earlier s).2 with options }
      (.ok (results ++ [ran.1]), ran.2) := by
  obtain ⟨results, before, ran⟩ : ∃ results before, attempts kube node options earlier s = (.ok results, before) :=
    forEach_returns (fun _ _ => ⟨_, _, rfl⟩) earlier s
  refine ⟨results, (forEach_concat ran (ctx, operation)).trans ?_⟩
  rw [ran]
  rfl

theorem attempts_returned_iff {kube : Kubernetes} {node : Node} {options : Dict}
    {earlier : List (OperationContext × Operation)} {ctx : OperationContext} {operation : Operation} {s s' : State} :
    (∃ results, attempts kube node options (earlier ++ [(ctx, operation)]) s = (.ok (results ++ [.ok ()]), s')) ↔
      operation.run kube node ctx { (attempts kube node options earlier s).2 with options } = (.ok (), s') := by
  obtain ⟨results', whole⟩ := attempts_concat kube node options earlier ctx operation s
  rw [whole]
  constructor
  · rintro ⟨results, ran⟩
    obtain ⟨same, state⟩ := Prod.mk.inj ran
    obtain ⟨_, returned⟩ := List.append_inj' (Except.ok.inj same) rfl
    exact Prod.ext (List.singleton_inj.mp returned) state
  · intro last
    exact ⟨results', congrArg (fun ran => (Except.ok (results' ++ [ran.1]), ran.2)) last⟩

open Package

def keeping : Kubernetes := package fun earlier request =>
  let asked (verb : String) : Bool := earlier.any fun request => Text.contains request.method verb
  if Text.contains request.method "read" && !(asked "create" && !asked "delete") then
    .error (.apiException { status := some 404, reason := "Not Found", body := some codeMarker })
  else .ok (response "ConfigMap" "settings")

end CloudifyKubernetes
