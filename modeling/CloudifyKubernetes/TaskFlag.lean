import CloudifyKubernetes.CoupledCalls
import CloudifyKubernetes.CreationRuns
import CloudifyKubernetes.Lifecycle

namespace CloudifyKubernetes

open Collections Effects Program

def RuntimeProperties.unflagged (runtime : RuntimeProperties) : RuntimeProperties :=
  { runtime with performTask := none }

def State.unflagged (s : State) : State := { s with runtime := s.runtime.unflagged }

def SameButFlag (s t : State) : Prop := s.unflagged = t.unflagged

instance : Std.Refl SameButFlag := ⟨fun _ => rfl⟩

theorem SameButFlag.parts {s t : State} (same : SameButFlag s t) :
    s.options = t.options ∧ s.log = t.log ∧ s.runtime.kubernetes = t.runtime.kubernetes ∧
      s.runtime.resourceDefinitions = t.runtime.resourceDefinitions := by
  simp only [SameButFlag, State.unflagged, RuntimeProperties.unflagged, State.mk.injEq,
    RuntimeProperties.mk.injEq, and_true] at same
  exact ⟨same.2.1, same.2.2, same.1⟩

theorem SameButFlag.flagged {s t : State} (same : SameButFlag s t) (flag : Option Bool) :
    ({ s with runtime := { s.runtime with performTask := flag } } : State) =
      { t with runtime := { t.runtime with performTask := flag } } := by
  obtain ⟨options, log, kubernetes, definitions⟩ := same.parts
  simp only [options, log, kubernetes, definitions]

theorem sameButFlag_options : SameOptions SameButFlag where
  options same := same.parts.1
  edited same options := by
    obtain ⟨_, log, kubernetes, definitions⟩ := same.parts
    simp only [SameButFlag, State.unflagged, RuntimeProperties.unflagged, log, kubernetes, definitions]
  recorded same e := by
    obtain ⟨options, log, kubernetes, definitions⟩ := same.parts
    simp only [SameButFlag, State.unflagged, RuntimeProperties.unflagged, options, log, kubernetes, definitions]

theorem sameButFlag_indistinct (kube : Kubernetes) : Indistinct kube SameButFlag where
  toSameOptions := sameButFlag_options
  answers {s t} same request := by
    have requests : s.requests = t.requests := congrArg (List.filterMap Event.request?) same.parts.2.1
    rw [requests]

section

variable {kube : Kubernetes} {node : Node}

theorem recordedState_coupled (path : String) :
    Coupled SameButFlag (recordedState path) SameButFlag SameButFlag := by
  apply Coupled.observe (f := fun s => if path ≠ "" then .ok (((s.runtime.kubernetes.getD .empty).get? path).getD .none)
    else .ok ((s.runtime.kubernetes.map fun files => Value.dict files.items).getD .none))
  · intro s
    rw [recordedState, bind_run_ok (getRuntime_run s)]
    split <;> rfl
  · intro s t same
    rw [same.parts.2.2.1]

theorem handleExistingResource_settles (found : Value) : Settles SameButFlag (handleExistingResource node found) := by
  intro s t same
  rw [handleExistingResource_run, handleExistingResource_run, same.flagged]

/-- Whatever the task is, it starts behind the write of the flag. -/
theorem definitionTask_coupled {operation : ResourceTask} {path : String}
    {definition : KubernetesResourceDefinition}
    (mapped : Coupled SameButFlag (operation.retrieveMapping definition) SameButFlag SameButFlag)
    (state : operation.resourceStateFunction = none ∨
      operation.resourceStateFunction = some (checkIfResourceExists kube .stateFunction)) :
    Coupled SameButFlag (definitionTask node operation path definition) SameButFlag SameButFlag := by
  apply mapped.bind
  intro mapping
  apply Coupled.bind (.ofExcept _)
  intro resourceId
  have rest (currentState : Value) : Coupled SameButFlag (do
      handleExistingResource node currentState
      operation.task path mapping definition
      modifyRuntime fun runtime => { runtime with performTask := none }
      if currentState.truthy && operation.cleanupRuntimeProperties then modifyRuntime (dropRecord path))
      SameButFlag SameButFlag :=
    ((handleExistingResource_settles currentState).bind _).coupled
  apply state.elim
  · intro unset
    rw [unset]
    exact (recordedState_coupled path).bind rest
  · intro set
    rw [set]
    dsimp only
    split
    · exact (checkIfResourceExists_coupled (sameButFlag_indistinct kube) _ _ _).bind rest
    · exact (recordedState_coupled path).bind rest

theorem resourceTask_coupled (kube : Kubernetes) {operation : ResourceTask} {file : Option String}
    {definitions : List KubernetesResourceDefinition}
    (mapped : ∀ definition, Coupled SameButFlag (operation.retrieveMapping definition) SameButFlag SameButFlag)
    (state : operation.resourceStateFunction = none ∨
      operation.resourceStateFunction = some (checkIfResourceExists kube .stateFunction)) :
    Coupled SameButFlag (resourceTask node operation file definitions) SameButFlag SameButFlag := by
  have all : Coupled SameButFlag (multidefinitionResourceTask node operation file definitions)
      SameButFlag SameButFlag := by
    apply Coupled.bind (.forEach fun _ _ => definitionTask_coupled (mapped _) state)
    intro _
    exact .pure _
  apply Coupled.bind all.attempt
  intro result
  cases result with
  | ok value => exact .pure _
  | error e => exact .raise _

theorem multipleFileResource_coupled
    {operation : Option String → List KubernetesResourceDefinition → Task Unit}
    (each : ∀ file definitions, Coupled SameButFlag (operation file definitions) SameButFlag SameButFlag)
    (files : List (String × List KubernetesResourceDefinition)) :
    Coupled SameButFlag (multipleFileResource operation files) SameButFlag SameButFlag := by
  unfold multipleFileResource
  split
  · exact .raise _
  · apply Coupled.bind (.forEach fun _ _ => each _ _)
    intro _
    exact .pure _

variable (kube node)

theorem byKind_coupled (definition : KubernetesResourceDefinition) :
    Coupled SameButFlag (chooseMapping definition) SameButFlag SameButFlag :=
  chooseMapping_coupled sameButFlag_options definition

theorem byData_coupled (_ : KubernetesResourceDefinition) :
    Coupled SameButFlag (Program.ofExcept (mappingByData node) : Task KubernetesApiMapping) SameButFlag SameButFlag :=
  .ofExcept _

theorem Operation.run_coupled (ctx : OperationContext) (operation : Operation) :
    Coupled SameButFlag (operation.run kube node ctx) SameButFlag SameButFlag := by
  have byKind := byKind_coupled
  have byData := byData_coupled node
  cases operation with
  | resourceCreate definition => exact resourceTask_coupled kube byKind (.inr rfl)
  | resourceRead definition => exact resourceTask_coupled kube byKind (.inr rfl)
  | resourceReadCheckStatus definition => exact resourceTask_coupled kube byKind (.inl rfl)
  | resourceUpdate definition => exact resourceTask_coupled kube byKind (.inr rfl)
  | resourceDelete definition => exact resourceTask_coupled kube byKind (.inr rfl)
  | customResourceCreate definition => exact resourceTask_coupled kube byData (.inr rfl)
  | customResourceRead definition => exact resourceTask_coupled kube byData (.inr rfl)
  | customCheckStatus definition => exact resourceTask_coupled kube byData (.inr rfl)
  | customResourceUpdate definition => exact resourceTask_coupled kube byData (.inl rfl)
  | customResourceDelete definition => exact resourceTask_coupled kube byData (.inr rfl)
  | fileResourceCreate file definitions => exact resourceTask_coupled kube byKind (.inl rfl)
  | fileResourceRead file definitions => exact resourceTask_coupled kube byKind (.inl rfl)
  | fileResourceCheckStatus file definitions => exact resourceTask_coupled kube byKind (.inl rfl)
  | fileResourceUpdate file definitions => exact resourceTask_coupled kube byKind (.inl rfl)
  | fileResourceDelete file definitions => exact resourceTask_coupled kube byKind (.inr rfl)
  | multipleFileResourceCreate files =>
    have each (file definitions) : Coupled SameButFlag (CloudifyKubernetes.fileResourceCreate kube node file definitions)
        SameButFlag SameButFlag := resourceTask_coupled kube byKind (.inl rfl)
    exact multipleFileResource_coupled each files
  | multipleFileResourceRead files =>
    have each (file definitions) : Coupled SameButFlag (CloudifyKubernetes.fileResourceRead kube node file definitions)
        SameButFlag SameButFlag := resourceTask_coupled kube byKind (.inl rfl)
    exact multipleFileResource_coupled each files
  | multipleFileResourceCheckStatus files =>
    have each (file definitions) : Coupled SameButFlag (CloudifyKubernetes.fileResourceCheckStatus kube node ctx file definitions)
        SameButFlag SameButFlag := resourceTask_coupled kube byKind (.inl rfl)
    exact multipleFileResource_coupled each files
  | multipleFileResourceUpdate files =>
    have each (file definitions) : Coupled SameButFlag (CloudifyKubernetes.fileResourceUpdate kube node file definitions)
        SameButFlag SameButFlag := resourceTask_coupled kube byKind (.inl rfl)
    exact multipleFileResource_coupled each files
  | multipleFileResourceDelete files =>
    have each (file definitions) : Coupled SameButFlag (CloudifyKubernetes.fileResourceDelete kube node file definitions)
        SameButFlag SameButFlag := resourceTask_coupled kube byKind (.inr rfl)
    exact multipleFileResource_coupled each files

end

abbrev SamePair (s t : State × Dict) : Prop := SameButFlag s.1 t.1 ∧ s.2 = t.2

instance : Std.Refl SamePair := ⟨fun _ => ⟨rfl, rfl⟩⟩

section

variable (env : Environment)

theorem nestedResourceTask_coupled (resources : List (String × (String → String → String)))
    (operation : Value → String → Task Value) (nestedOpsFirst : Bool) (instanceId : String) (task : TokenTask Unit) :
    Coupled SamePair (nestedResourceTask resources operation nestedOpsFirst instanceId task) SamePair SamePair := by
  apply Coupled.bind (getOptions_coupled sameButFlag_options).onFirst
  intro options
  have settles : Settles SamePair ((setPerformTask true).onFirst : TokenTask Unit) := by
    intro s t same
    change (Except.ok (), (State.mk _ _ _, s.2)) = (Except.ok (), (State.mk _ _ _, t.2))
    rw [same.2]
    exact congrArg (fun s => (Except.ok (), (s, t.2))) (same.1.flagged (some true))
  exact (settles.bind _).coupled

theorem LifecycleOperation.run_coupled (ctx : OperationContext) (operation : LifecycleOperation) :
    Coupled SamePair (operation.run env ctx) SamePair SamePair := by
  have byKind := byKind_coupled
  have byData := byData_coupled env.node
  cases operation with
  | plain operation => exact (operation.run_coupled env.kube env.node ctx).onFirst
  | fileResourceUpdateWith additions file definitions =>
    exact (resourceTask_coupled env.kube byKind (.inl rfl)).onFirst
  | multipleFileResourceUpdateWith additions files =>
    have each (file definitions) : Coupled SameButFlag
        (CloudifyKubernetes.fileResourceUpdateWith env.kube env.node additions file definitions)
        SameButFlag SameButFlag := resourceTask_coupled env.kube byKind (.inl rfl)
    exact (multipleFileResource_coupled each files).onFirst
  | resourceReadCheckDrift definition => exact (resourceTask_coupled env.kube byKind (.inl rfl)).onFirst
  | customCheckDrift definition => exact (resourceTask_coupled env.kube byData (.inr rfl)).onFirst
  | fileResourceCheckDrift file definitions =>
    exact (resourceTask_coupled env.kube byKind (.inl rfl)).onFirst
  | multipleFileResourceCheckDrift files =>
    have each (file definitions) : Coupled SameButFlag
        (CloudifyKubernetes.fileResourceCheckDrift env.kube env.node env.checkDrift file definitions)
        SameButFlag SameButFlag := resourceTask_coupled env.kube byKind (.inl rfl)
    exact (multipleFileResource_coupled each files).onFirst
  | createToken => exact nestedResourceTask_coupled _ _ _ _ _
  | readToken => exact nestedResourceTask_coupled _ _ _ _ _
  | getTokenStatus => exact nestedResourceTask_coupled _ _ _ _ _
  | deleteToken => exact nestedResourceTask_coupled _ _ _ _ _

theorem LifecycleOperation.attempt_coupled (options : Dict) (next : OperationContext × LifecycleOperation) :
    Coupled SamePair (LifecycleOperation.attempt env options next) SamePair SamePair := by
  apply Coupled.bind (modifyOptions_coupled sameButFlag_options _).onFirst
  intro _
  exact (next.2.run_coupled env next.1).attempt

/-- The same operations, where something else writes the flag, or takes it away, before each of them. -/
def disturbedLifecycle (options : Dict) (operations : List (Option Bool × OperationContext × LifecycleOperation)) :
    TokenTask (List (Except Exception Unit)) :=
  Program.forEach operations fun next => do
    (modifyRuntime fun runtime => { runtime with performTask := next.1 }).onFirst
    LifecycleOperation.attempt env options next.2

theorem disturbedLifecycle_alike (options : Dict)
    (operations : List (Option Bool × OperationContext × LifecycleOperation)) {s t : State × Dict}
    (same : SamePair s t) :
    Alike SamePair SamePair (disturbedLifecycle env options operations s)
      (lifecycle env options (operations.map Prod.snd) t) := by
  induction operations generalizing s t with
  | nil => exact .value [] same
  | cons next rest ih =>
    -- The disturbed state is still the same but for the flag, so that the attempts run alike.
    have step := LifecycleOperation.attempt_coupled env options next.2
      ({ s.1 with runtime := { s.1.runtime with performTask := next.1 } }, s.2) t ⟨same.1, same.2⟩
    rw [show disturbedLifecycle env options (next :: rest) s = (LifecycleOperation.attempt env options next.2 >>= fun b =>
        disturbedLifecycle env options rest >>= fun bs => pure (b :: bs))
          ({ s.1 with runtime := { s.1.runtime with performTask := next.1 } }, s.2) from rfl,
      show lifecycle env options ((next :: rest).map Prod.snd) t = (LifecycleOperation.attempt env options next.2 >>=
        fun b => lifecycle env options (rest.map Prod.snd) >>= fun bs => pure (b :: bs)) t from rfl,
      bind_run, bind_run]
    generalize LifecycleOperation.attempt env options next.2 _ = ran at step ⊢
    generalize LifecycleOperation.attempt env options next.2 t = ran' at step ⊢
    cases step with
    | exception e related => exact .exception e related
    | value b related =>
      have others := ih related
      dsimp only
      rw [bind_run, bind_run]
      generalize disturbedLifecycle env options rest _ = ran at others ⊢
      generalize lifecycle env options (rest.map Prod.snd) _ = ran' at others ⊢
      cases others with
      | exception e related => exact .exception e related
      | value bs related => exact .value _ related

/-- What an attempt leaves in the flag decides nothing later: the results, the two stores, the
    options, the log and the other runtime properties are the same whatever becomes of it. -/
theorem lifecycle_ignores_flag (options : Dict)
    (operations : List (Option Bool × OperationContext × LifecycleOperation)) (s : State) (properties : Dict) :
    (disturbedLifecycle env options operations (s, properties)).1 =
        (lifecycle env options (operations.map Prod.snd) (s, properties)).1 ∧
      (disturbedLifecycle env options operations (s, properties)).2.1.unflagged =
        (lifecycle env options (operations.map Prod.snd) (s, properties)).2.1.unflagged ∧
      (disturbedLifecycle env options operations (s, properties)).2.2 =
        (lifecycle env options (operations.map Prod.snd) (s, properties)).2.2 := by
  have alike := disturbedLifecycle_alike env options operations (s := (s, properties)) ⟨rfl, rfl⟩
  exact ⟨alike.result_eq, alike.related.1, alike.related.2⟩

end

end CloudifyKubernetes
