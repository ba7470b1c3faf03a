import CloudifyKubernetes.K8s.Package
import CloudifyKubernetes.Steps

namespace CloudifyKubernetes

open Collections Effects Program Relation

def Verb.isCreate : Verb → Bool
  | .create => true
  | _ => false

def Event.creates : Event → Bool
  | .called c => c.verb.isCreate
  | _ => false

def Event.missesTask : Event → Bool
  | .returned ⟨.read .task, _, _⟩ (.error e) => e.isA .apiOperationError
  | _ => false

def Operation.checksStatus : Operation → Bool
  | .resourceReadCheckStatus _ | .customCheckStatus _ | .fileResourceCheckStatus _ _
  | .multipleFileResourceCheckStatus _ => true
  | _ => false

def Unasked {α : Type} (result : Except Exception α) : Prop :=
  ∀ e, result = .error e → e.isA .apiOperationError = false

namespace Unasked

variable {α β : Type}

theorem ok (value : α) : Unasked (.ok value : Except Exception α) := fun _ failed => by cases failed

theorem bind {result : Except Exception α} {next : α → Except Exception β} (first : Unasked result)
    (rest : ∀ value, Unasked (next value)) : Unasked (result >>= next) := by
  cases result with
  | ok value => exact rest value
  | error e =>
    intro e' failed
    cases failed
    exact first e rfl

theorem index (value : Value) (key : String) : Unasked (value.index key) := by
  intro e failed
  unfold Value.index at failed
  split at failed
  · split at failed <;> cases failed
    rfl
  · cases failed
    rfl

theorem get (value : Value) (key : String) (default : Value) : Unasked (value.get key default) := by
  intro e failed
  unfold Value.get at failed
  split at failed <;> cases failed
  rfl

theorem readyOrRetry (status : Value) (ready : Bool) :
    Unasked (StatusMapping.readyOrRetry status ready) := by
  intro e failed
  unfold StatusMapping.readyOrRetry at failed
  split at failed <;> cases failed
  rfl

theorem isResourceReady (kind : String) (ready : Value → Except Exception Bool)
    (known : (kind, ready) ∈ StatusMapping.isResourceReady) (status : Value) :
    Unasked (ready status) := by
  have phase (names : List String) : Unasked (StatusMapping.phaseReady names status) :=
    (index _ _).bind fun _ => readyOrRetry _ _
  have service : Unasked (StatusMapping.serviceReady status) :=
    (get _ _ _).bind fun _ => (get _ _ _).bind fun _ => readyOrRetry _ _
  have count (key : String) (expected : Bool) :
      Unasked (StatusMapping.countReady key expected status) :=
    (index _ _).bind fun _ => readyOrRetry _ _
  have replicas : Unasked (StatusMapping.replicasReady status) :=
    (get _ _ _).bind fun _ => (get _ _ _).bind fun _ => readyOrRetry _ _
  have pod : Unasked (StatusMapping.podReady status) := by
    refine (index _ _).bind fun phase => ?_
    split
    · exact ok _
    · split
      · exact readyOrRetry _ _
      · split
        · intro e failed
          cases failed
          rfl
        · exact ok _
  simp only [StatusMapping.isResourceReady, List.mem_cons, Prod.mk.injEq, List.not_mem_nil,
    or_false] at known
  rcases known with ⟨_, rfl⟩ | ⟨_, rfl⟩ | ⟨_, rfl⟩ | ⟨_, rfl⟩ | ⟨_, rfl⟩ | ⟨_, rfl⟩ | ⟨_, rfl⟩ |
    ⟨_, rfl⟩ | ⟨_, rfl⟩ | ⟨_, rfl⟩ | ⟨_, rfl⟩
  · exact ok _
  · exact pod
  · exact service
  · exact service
  · exact count _ _
  · exact phase _
  · exact phase _
  · exact replicas
  · exact replicas
  · exact count _ _
  · exact count _ _

theorem doResourceStatusCheck (validate : Bool) (kind : String) (response : Value) :
    Unasked (doResourceStatusCheck validate kind response) := by
  unfold CloudifyKubernetes.doResourceStatusCheck
  split
  · exact ok _
  · rename_i ready found
    refine (index _ _).bind fun status => ?_
    split
    · apply isResourceReady kind ready
      obtain ⟨front, back, entries, _⟩ := List.lookup_eq_some_iff.mp found
      simp [entries]
    · exact ok _

end Unasked

section

variable {kube : Kubernetes} {node : Node} {ctx : OperationContext} {mapping : KubernetesApiMapping}
  {definition : KubernetesResourceDefinition}

abbrev Reads (kube : Kubernetes) : State → State → Prop := Steps kube fun verb => ∃ site, verb = .read site

theorem reads_site (site : Site) : ∃ site', Verb.read site = .read site' := ⟨site, rfl⟩

theorem doResourceCreate_down {s : State} (down : s.runtime.performTask.getD false = false) :
    doResourceCreate kube mapping definition s =
      (setCustomResource definition >>= fun _ => doResourceRead kube .task mapping definition) s := by
  rw [doResourceCreate]
  rcases setCustomResource_run definition s with ⟨e, _, run⟩ | ⟨options, _, _, run⟩
  · rw [bind_run_error run, bind_run_error run]
  · rw [bind_run_ok run, bind_run_ok run, bind_run, getPerformTask_run]
    simp only [down, Bool.false_eq_true, if_false]

theorem doResourceCreate_reads {s : State} (down : s.runtime.performTask.getD false = false) :
    Reads kube s (doResourceCreate kube mapping definition s).2 := by
  have aiming : Within (Aiming kube (fun verb => ∃ site, verb = .read site) definition)
      (doResourceRead kube .task mapping definition) := doResourceRead_aiming (reads_site .task)
  have read := edited_steps aiming s
  rwa [doResourceCreate_down down]

theorem resourceCreateTask_state (s : State) :
    (resourceCreateTask kube mapping definition s).2 = (doResourceCreate kube mapping definition s).2 := by
  simp only [resourceCreateTask, bind_run, attempt_run]
  generalize doResourceCreate kube mapping definition s = run
  obtain ⟨e | value, s'⟩ := run
  · simp only
    split <;> rfl
  · rfl

theorem handleExistingResource_down (external : node.useExternalResource = true)
    (expected : node.createIfMissing = false) (found : Value) :
    handleExistingResource node found = setPerformTask false := by
  unfold handleExistingResource
  cases found.truthy <;> simp [external, expected]

theorem storing_reads {α : Type} {create : Task α} {store : α → Task Unit}
    (external : node.useExternalResource = true) (expected : node.createIfMissing = false)
    (creates : ∀ s : State, s.runtime.performTask.getD false = false → Reads kube s (create s).2)
    (stores : ∀ result, Within (Reads kube) (store result)) (found : Value) :
    Within (Reads kube) (do
      handleExistingResource node found
      let result ← create
      store result) := by
  rw [handleExistingResource_down external expected]
  intro s
  rw [bind_run_ok (setPerformTask_run false s)]
  exact .head (.runtime s _) (Within.bind_at (creates _ rfl) stores)

theorem fileResourceCreateTask_reads (external : node.useExternalResource = true)
    (expected : node.createIfMissing = false) (path : String) :
    Within (Reads kube) (fileResourceCreateTask kube node path mapping definition) := by
  refine (checkIfResourceExists_steps (reads_site _)).bind fun found => ?_
  rw [handleExistingResource_down external expected]
  intro s
  rw [bind_run_ok (setPerformTask_run false s), bind_run_ok (getPerformTask_run _)]
  exact .head (.runtime s _) (storeResultForRetrieveId_within steps_offline found path _)

theorem resourceCheckStatus_reads (calm : ctx.heals = false) :
    Within (Reads kube) (resourceCheckStatus kube node ctx mapping definition) := by
  refine (healableResourceCheckStatus_within node
    (doResourceRead_steps (reads_site _))).attempt.bind fun result => ?_
  cases result with
  | ok value => exact .pure _
  | error e =>
    simp only [calm, Bool.and_false, Bool.false_eq_true, if_false]
    exact .raise _

abbrev Heals : State → State → Prop :=
  Grows State.log (fun e => e.missesTask = true) fun e => e.creates = true

theorem heals_of_steps {s s' : State} {allowed : Verb → Prop} (steps : Steps kube allowed s s')
    (reads : ∀ verb, allowed verb → ∃ site, verb = .read site ∧ site ≠ .task) : Heals s s' := by
  apply steps_grow steps
  intro e permitted
  cases e with
  | called c =>
    obtain ⟨site, same, _⟩ := reads _ (permitted c rfl)
    simp [Event.creates, Event.missesTask, same, Verb.isCreate]
  | returned c result =>
    obtain ⟨verb, mapping, definition⟩ := c
    obtain ⟨site, rfl, other⟩ := reads _ (permitted _ rfl)
    cases site <;> simp_all [Event.creates, Event.missesTask]
  | _ => simp [Event.creates, Event.missesTask]

theorem heals_offline : Offline Heals :=
  grows_offline fun e free => by cases e <;> simp_all [Event.call?, Event.creates, Event.missesTask]

theorem doResourceCreate_up {s : State} (up : s.runtime.performTask.getD false = true) :
    doResourceCreate kube mapping definition s = editedCall kube ⟨.create, mapping, definition⟩ s := by
  rw [doResourceCreate, editedCall]
  rcases setCustomResource_run definition s with ⟨e, _, run⟩ | ⟨options, _, _, run⟩
  · rw [bind_run_error run, bind_run_error run]
  · rw [bind_run_ok run, bind_run_ok run, bind_run_ok (getPerformTask_run _)]
    simp only [up, if_true]
    rfl

/-- An operation error of the status check is one of its read. -/
theorem healableResourceCheckStatus_state (kube : Kubernetes) (node : Node)
    (mapping : KubernetesApiMapping) (definition : KubernetesResourceDefinition) (s : State) :
    let read := doResourceRead kube .task mapping definition s
    let check := healableResourceCheckStatus kube node mapping definition s
    check.2 = read.2 ∧
      ((∃ e, read.1 = .error e ∧ check.1 = .error e) ∨ (read.1.isOk = true ∧ Unasked check.1)) := by
  simp only [healableResourceCheckStatus, bind_run]
  generalize doResourceRead kube .task mapping definition s = read
  obtain ⟨e | response, s'⟩ := read
  · exact ⟨rfl, .inl ⟨e, rfl, rfl⟩⟩
  · simp only
    split
    · rw [bind_run, ofExcept_run]
      cases checked : doResourceStatusCheck node.validateResourceStatus definition.kind response with
      | error e =>
        have unasked := Unasked.doResourceStatusCheck _ _ _ e checked
        exact ⟨rfl, .inr ⟨rfl, fun e' failed => by cases failed; exact unasked⟩⟩
      | ok ready =>
        cases ready with
        | true => exact ⟨rfl, .inr ⟨rfl, .ok _⟩⟩
        | false => exact ⟨rfl, .inr ⟨rfl, fun e failed => by cases failed; rfl⟩⟩
    · exact ⟨rfl, .inr ⟨rfl, .ok _⟩⟩

/-- What a heal adds behind the status check is a creation, if an operation error ended it. -/
theorem resourceCheckStatus_state (kube : Kubernetes) (node : Node) (heals : ctx.heals = true)
    (mapping : KubernetesApiMapping) (definition : KubernetesResourceDefinition) (s : State) :
    let read := doResourceRead kube .task mapping definition s
    (∃ e, read.1 = .error e ∧ e.isA .apiOperationError = true ∧
      (resourceCheckStatus kube node ctx mapping definition s).2 =
        (editedCall kube ⟨.create, mapping, definition⟩
          { read.2 with runtime := { read.2.runtime with performTask := some true } }).2) ∨
    Unasked read.1 ∧ (resourceCheckStatus kube node ctx mapping definition s).2 = read.2 := by
  obtain ⟨state, outcome⟩ := healableResourceCheckStatus_state kube node mapping definition s
  intro read
  rw [resourceCheckStatus, bind_run_ok (attempt_run _ _), state]
  have ended {e : Exception} (unasked : e.isA .apiOperationError = false) :
      (if e.isA .apiOperationError && ctx.heals then (do
          setPerformTask true
          let _ ← resourceCreateTask kube mapping definition
          Program.raise ⟨.operationRetry, "Attempted to heal resource, retrying check status."⟩)
        else Program.raise e : Task Unit) read.2 = (.error e, read.2) := by
    simp only [unasked, Bool.false_and, Bool.false_eq_true, if_false]
    rfl
  rcases outcome with ⟨e, missed, check⟩ | ⟨found, unasked⟩
  · rw [check]
    cases asked : e.isA .apiOperationError with
    | true =>
      refine .inl ⟨e, missed, asked, ?_⟩
      simp only [asked, heals, Bool.and_self, if_true]
      rw [bind_run_ok (setPerformTask_run _ _), ← doResourceCreate_up rfl, ← resourceCreateTask_state,
        bind_run]
      generalize resourceCreateTask kube mapping definition _ = run
      obtain ⟨e' | value, s'⟩ := run <;> rfl
    | false =>
      refine .inr ⟨fun e' failed => ?_, ?_⟩
      · cases missed.symm.trans failed
        exact asked
      · exact congrArg Prod.snd (ended asked)
  · refine .inr ⟨fun e failed => ?_, ?_⟩
    · rw [failed] at found
      cases found
    · cases check : (healableResourceCheckStatus kube node mapping definition s).1 with
      | error e => exact congrArg Prod.snd (ended (unasked e check))
      | ok value => rfl

theorem resourceCheckStatus_heals (heals : ctx.heals = true) :
    Within Heals (resourceCheckStatus kube node ctx mapping definition) := by
  intro s
  have read := doResourceRead_run kube .task mapping definition s
  have check := resourceCheckStatus_state kube node heals mapping definition s
  generalize doResourceRead kube .task mapping definition s = run at read check
  simp only at check
  cases read with
  | malformed e failed =>
    have unasked : e.isA .apiOperationError = false := by
      rw [Exception.isA, customAnnotations_error failed]
      rfl
    rcases check with ⟨e', same, asked, _⟩ | ⟨_, state⟩
    · cases same
      rw [unasked] at asked
      cases asked
    · exact .of_eq (by rw [state])
  | called result options events readable call =>
    rcases check with ⟨e, missed, asked, state⟩ | ⟨unasked, state⟩
    · have result_eq : result = .error e := by
        cases result with
        | error e' => exact missed
        | ok value =>
          have other := jsonCleanuper_error (show jsonCleanuper value = .error e from missed)
          rw [Exception.isA, other] at asked
          cases asked
      have create := editedCall_run kube ⟨.create, mapping, definition⟩
        { s with
          runtime := { s.runtime with performTask := some true }
          options, log := s.log ++ .edited definition :: events }
      simp only at state
      generalize editedCall kube ⟨.create, mapping, definition⟩ _ = run at create state
      cases create with
      | malformed e' failed =>
        obtain ⟨annotations, found⟩ := readable
        cases found.symm.trans failed
      | called result' options' events' _ create =>
        have created : .called ⟨.create, mapping, definition⟩ ∈ events' :=
          (create.mem_iff (by simp)).mpr (.inl rfl)
        have returned : .returned ⟨.read .task, mapping, definition⟩ result ∈ events :=
          (call.mem_iff (by simp)).mpr (.inr rfl)
        have grown : (resourceCheckStatus kube node ctx mapping definition s).2.log =
            s.log ++ ((.edited definition :: events) ++ .edited definition :: events') := by
          rw [state]
          simp
        refine .of_both grown ⟨.called ⟨.create, mapping, definition⟩, by simp [created], rfl⟩
          ⟨.returned ⟨.read .task, mapping, definition⟩ result, by simp [returned], ?_⟩
        rw [result_eq]
        exact asked
    · have grown : (resourceCheckStatus kube node ctx mapping definition s).2.log =
          s.log ++ .edited definition :: events := by rw [state]
      refine .of_neutral grown ?_
      intro e member
      rcases List.mem_cons.mp member with rfl | member
      · simp [Event.creates, Event.missesTask]
      · obtain ⟨sent, rfl, requests⟩ := call
        simp only [List.mem_cons, List.mem_append, List.not_mem_nil, or_false] at member
        rcases member with rfl | member | rfl
        · simp [Event.creates, Event.missesTask, Verb.isCreate]
        · obtain ⟨request, answer, rfl⟩ := requests e member
          simp [Event.creates, Event.missesTask]
        · cases result with
          | ok value => simp [Event.creates, Event.missesTask]
          | error e => simpa [Event.creates, Event.missesTask] using unasked e rfl

theorem checkStatus_heals (heals : ctx.heals = true) (operation : ResourceTask)
    (task : operation.task = fun _ => resourceCheckStatus kube node ctx)
    (mapped : ∀ definition, Within Heals (operation.retrieveMapping definition))
    (state : operation.resourceStateFunction = none ∨
      operation.resourceStateFunction = some (checkIfResourceExists kube .stateFunction))
    (file : Option String) (definitions : List KubernetesResourceDefinition) :
    Within Heals (resourceTask node operation file definitions) := by
  refine resourceTask_of_task heals_offline _ _ _ _ mapped ?_ fun _ _ _ => ?_
  · rcases state with none | some
    · simp [none]
    · have check (mapping : KubernetesApiMapping) (definition : KubernetesResourceDefinition) :
          Within Heals (checkIfResourceExists kube .stateFunction mapping definition) := by
        have steps : Within (Steps kube fun verb => verb = .read .stateFunction)
            (checkIfResourceExists kube .stateFunction mapping definition) :=
          checkIfResourceExists_steps rfl
        exact steps.mono fun _ _ steps => heals_of_steps steps fun _ same => ⟨_, same, by decide⟩
      simpa [some] using check
  · rw [task]
    exact resourceCheckStatus_heals heals

end

theorem uncreated_of_steps {kube : Kubernetes} {allowed : Verb → Prop} {s s' : State}
    (steps : Steps kube allowed s s') (fresh : s.log = [])
    (uncreating : ∀ verb, allowed verb → verb.isCreate = false) : ∀ e ∈ s'.log, e.creates = false := by
  have grows : Grows State.log (fun _ => False) (fun e => e.creates = true) s s' := by
    refine steps_grow steps fun e permitted => ⟨?_, id⟩
    cases e with
    | called c => simp [Event.creates, uncreating _ (permitted c rfl)]
    | _ => simp [Event.creates]
  have whole := grows.iff_of_empty fresh
  simpa using whole

section

variable {kube : Kubernetes} {node : Node} {ctx : OperationContext} {operation : Operation}

theorem Operation.run_heals (heals : ctx.heals = true) (checks : operation.checksStatus = true) :
    Within Heals (operation.run kube node ctx) := by
  have chosen (definition : KubernetesResourceDefinition) : Within Heals (chooseMapping definition) :=
    heals_offline.mapped definition
  have byData (definition : KubernetesResourceDefinition) :
      Within Heals ((fun _ => Program.ofExcept (mappingByData node)) definition) := Within.ofExcept _
  cases operation with
  | resourceReadCheckStatus definition =>
    exact checkStatus_heals heals _ rfl chosen (.inl rfl) none [definition]
  | customCheckStatus definition =>
    exact checkStatus_heals heals _ rfl byData (.inr rfl) none [definition]
  | fileResourceCheckStatus file definitions =>
    exact checkStatus_heals heals _ rfl chosen (.inl rfl) file definitions
  | multipleFileResourceCheckStatus files =>
    exact multipleFileResource_within (fun file definitions =>
      checkStatus_heals heals _ rfl chosen (.inl rfl) file definitions) files
  | _ => cases checks

theorem checkStatus_reads (calm : ctx.heals = false) (operation : ResourceTask)
    (task : operation.task = fun _ => resourceCheckStatus kube node ctx)
    (mapped : ∀ definition, Within (Reads kube) (operation.retrieveMapping definition))
    (state : operation.resourceStateFunction = none ∨
      operation.resourceStateFunction = some (checkIfResourceExists kube .stateFunction))
    (file : Option String) (definitions : List KubernetesResourceDefinition) :
    Within (Reads kube) (resourceTask node operation file definitions) := by
  refine resourceTask_steps kube node operation file definitions mapped
    (state.imp_right fun some => ⟨reads_site, some⟩) fun _ _ _ => ?_
  rw [task]
  exact resourceCheckStatus_reads calm

theorem fileResourceCreate_reads (external : node.useExternalResource = true)
    (expected : node.createIfMissing = false) (file : Option String)
    (definitions : List KubernetesResourceDefinition) :
    Within (Reads kube) (fileResourceCreate kube node file definitions) :=
  resourceTask_steps kube node _ _ _ chooseMapping_steps (.inl rfl) fun path _ _ =>
    fileResourceCreateTask_reads external expected path

/-- Without a heal such an operation never calls the client to create. -/
theorem Operation.run_uncreating (external : node.useExternalResource = true)
    (expected : node.createIfMissing = false)
    (calm : operation.checksStatus = true → ctx.heals = false) :
    ∃ allowed : Verb → Prop, (∀ verb, allowed verb → verb.isCreate = false) ∧
      Within (Steps kube allowed) (operation.run kube node ctx) := by
  have reads : ∀ verb : Verb, (∃ site, verb = .read site) → verb.isCreate = false := by
    rintro verb ⟨site, rfl⟩
    rfl
  have byData (definition : KubernetesResourceDefinition) :
      Within (Reads kube) ((fun _ => Program.ofExcept (mappingByData node)) definition) :=
    Within.ofExcept _
  have state : ∀ stateFunction ∈ some (checkIfResourceExists kube .stateFunction), ∀ mapping definition,
      Within (Reads kube) (stateFunction mapping definition) := by
    simpa using fun _ _ => checkIfResourceExists_steps (reads_site _)
  have stores (result : Value) : Within (Reads kube) (storeResultForRetrieveId result "") :=
    storeResultForRetrieveId_within steps_offline _ _
  cases operation with
  | resourceCreate definition =>
    refine ⟨_, reads, resourceTask_within steps_offline _ _ _ _ chooseMapping_steps state
      fun _ mapping definition found => storing_reads external expected (fun s down => ?_) stores found⟩
    rw [resourceCreateTask_state]
    exact doResourceCreate_reads down
  | customResourceCreate definition =>
    exact ⟨_, reads, resourceTask_within steps_offline _ _ _ _ byData state fun _ _ _ found =>
      storing_reads external expected (fun _ down => doResourceCreate_reads down) stores found⟩
  | fileResourceCreate file definitions =>
    exact ⟨_, reads, fileResourceCreate_reads external expected file definitions⟩
  | multipleFileResourceCreate files =>
    exact ⟨_, reads, multipleFileResource_within (fileResourceCreate_reads external expected) files⟩
  | resourceReadCheckStatus definition =>
    exact ⟨_, reads, checkStatus_reads (calm rfl) _ rfl chooseMapping_steps (.inl rfl) none [definition]⟩
  | customCheckStatus definition =>
    exact ⟨_, reads, checkStatus_reads (calm rfl) _ rfl byData (.inr rfl) none [definition]⟩
  | fileResourceCheckStatus file definitions =>
    exact ⟨_, reads, checkStatus_reads (calm rfl) _ rfl chooseMapping_steps (.inl rfl) file definitions⟩
  | multipleFileResourceCheckStatus files =>
    exact ⟨_, reads, multipleFileResource_within (fun file definitions =>
      checkStatus_reads (calm rfl) _ rfl chooseMapping_steps (.inl rfl) file definitions) files⟩
  | resourceRead definition | customResourceRead definition | fileResourceRead file definitions
  | multipleFileResourceRead files =>
    exact ⟨_, reads, Operation.run_steps kube node ctx _ fun _ => id⟩
  | resourceUpdate definition | customResourceUpdate definition | fileResourceUpdate file definitions
  | multipleFileResourceUpdate files =>
    refine ⟨_, ?_, Operation.run_steps kube node ctx _ fun _ => id⟩
    rintro verb (rfl | ⟨site, rfl⟩) <;> rfl
  | resourceDelete definition | customResourceDelete definition =>
    refine ⟨_, ?_, Operation.run_steps kube node ctx _ fun _ => id⟩
    rintro verb (⟨resourceId, rfl⟩ | ⟨site, rfl⟩) <;> rfl
  | fileResourceDelete file definitions | multipleFileResourceDelete files =>
    refine ⟨_, fun verb other => ?_, Operation.run_steps kube node ctx _ fun _ => id⟩
    cases verb with
    | create => exact absurd rfl other
    | _ => rfl

end

/-- An operation on a resource that must exist creates nothing exactly when no first status
    check of a heal misses a resource. -/
theorem Operation.uncreated_iff (kube : Kubernetes) (node : Node) (ctx : OperationContext)
    (operation : Operation) (s : State) (external : node.useExternalResource = true)
    (expected : node.createIfMissing = false) (fresh : s.log = []) :
    let log := (operation.run kube node ctx s).2.log
    (∀ e ∈ log, e.creates = false) ↔
      (operation.checksStatus = true → ctx.heals = true → ∀ e ∈ log, e.missesTask = false) := by
  intro log
  by_cases heal : operation.checksStatus = true ∧ ctx.heals = true
  · obtain ⟨checks, heals⟩ := heal
    have run : Heals s (operation.run kube node ctx s).2 := Operation.run_heals heals checks s
    have grows := run.iff_of_empty fresh
    have none (p : Event → Bool) : (∀ e ∈ log, p e = false) ↔ ¬ ∃ e ∈ log, p e = true := by simp
    rw [none, none, grows]
    exact ⟨fun missed _ _ => missed, fun missed => missed checks heals⟩
  · have calm : operation.checksStatus = true → ctx.heals = false := by
      intro checks
      rw [Bool.eq_false_iff]
      exact fun heals => heal ⟨checks, heals⟩
    obtain ⟨allowed, uncreating, steps⟩ : ∃ allowed : Verb → Prop,
        (∀ verb, allowed verb → verb.isCreate = false) ∧
          Within (Steps kube allowed) (operation.run kube node ctx) :=
      Operation.run_uncreating external expected calm
    have created := uncreated_of_steps (steps s) fresh uncreating
    exact iff_of_true created fun checks heals => absurd ⟨checks, heals⟩ heal

open Package

def externalNode : Node := { ownNode with useExternalResource := true }

def heal : OperationContext where
  workflowId := "heal"
  operationName := "cloudify.interfaces.lifecycle.check_status"
  retryNumber := 0

/-- The first status check of a heal creates the missing config map of an external node. -/
theorem missing_external_created :
    ¬ ∀ e ∈ ((Operation.resourceReadCheckStatus (configMap "settings" none)).run nothing externalNode
      heal mainNamespace).2.log, e.creates = false := by decide +kernel

theorem uncreated_iff_heal :
    let log := ((Operation.resourceReadCheckStatus (configMap "settings" none)).run everything
      externalNode heal mainNamespace).2.log
    (∀ e ∈ log, e.creates = false) ↔
      ((Operation.resourceReadCheckStatus (configMap "settings" none)).checksStatus = true →
        heal.heals = true → ∀ e ∈ log, e.missesTask = false) :=
  Operation.uncreated_iff everything externalNode heal _ mainNamespace rfl rfl rfl

end CloudifyKubernetes
