import CloudifyKubernetes.DeleteAcknowledgements
import CloudifyKubernetes.StoreContents

namespace CloudifyKubernetes

open Collections Effects Program

section

variable {C : Contents} {known : Set Event} {kube : Kubernetes} {node : Node} {mapping : KubernetesApiMapping}
  {definition : KubernetesResourceDefinition}

theorem resourceCreateTask_handles : C.Handles known (resourceCreateTask kube mapping definition) C.value := by
  apply Learns.bind doResourceCreate_handles.attempt
  intro _ result _ held
  cases result with
  | ok found =>
    apply Learns.pure
    intro _ more
    exact C.value_mono more (held found rfl)
  | error e =>
    dsimp only
    split <;> exact .raise _

theorem storing_handles {p : Task Value} (reads : C.Handles known p C.value) (path : String) {rest : Value → Task Unit}
    (others : ∀ known response, C.Handles known (rest response) fun _ _ => True) :
    C.Handles known (do
      let response ← p
      storeResultForRetrieveId response path
      rest response) fun _ _ => True := by
  apply Learns.bind reads
  intro _ response _ held
  apply Learns.bind (storeResultForRetrieveId_handles held path)
  intro _ _ _ _
  exact others _ response

theorem fileResourceCreateTask_handles (path : String) :
    C.Handles known (fileResourceCreateTask kube node path mapping definition) fun _ _ => True := by
  apply Learns.bind (checkIfResourceExists_handles _)
  intro _ found _ held
  apply Learns.bind (handleExistingResource_handles _ _)
  intro _ _ more _
  apply Learns.bind getPerformTask_handles
  intro _ perform more' _
  split
  · apply Learns.bind doResourceCreate_handles
    intro _ result _ held
    exact storeResultForRetrieveId_handles held path
  · exact storeResultForRetrieveId_handles (C.value_mono (more.trans more') held) path

theorem fileResourceUpdateTask_handles (path : String) :
    C.Handles known (fileResourceUpdateTask kube path mapping definition) fun _ _ => True := by
  apply Learns.bind doResourceUpdate_handles
  intro _ result _ held
  exact storeResultForRetrieveId_handles held path

theorem checkStatusOf_handles (response : Value) :
    C.Handles known (checkStatusOf node definition response) fun _ _ => True := by
  unfold checkStatusOf
  split
  · apply Learns.bind (ofExcept_handles _)
    intro _ _ _ _
    exact .pure fun _ _ => trivial
  · exact .pure fun _ _ => trivial

theorem readAndStore_handles : C.Handles known (readAndStore kube node mapping definition) fun _ _ => True :=
  storing_handles (doResourceRead_handles .task) "" fun _ response => checkStatusOf_handles response

theorem fileResourceReadTask_handles (path : String) :
    C.Handles known (fileResourceReadTask kube node path mapping definition) fun _ _ => True := by
  apply Learns.bind (retrieveLastCreatePath_handles path false)
  intro _ _ _ _
  exact storing_handles (doResourceRead_handles .task) path fun _ response => checkStatusOf_handles response

theorem resourceCheckStatus_handles (ctx : OperationContext) :
    C.Handles known (resourceCheckStatus kube node ctx mapping definition) fun _ _ => True := by
  have healable : C.Handles known (healableResourceCheckStatus kube node mapping definition) fun _ _ => True := by
    apply Learns.bind (doResourceRead_handles .task)
    intro _ response _ _
    split
    · apply Learns.bind (ofExcept_handles _)
      intro _ ready _ _
      split
      · exact .raise _
      · exact .pure fun _ _ => trivial
    · exact .pure fun _ _ => trivial
  apply Learns.bind healable.attempt
  intro _ result _ _
  cases result with
  | ok value => exact .pure fun _ _ => trivial
  | error e =>
    dsimp only
    split
    · apply Learns.bind (setPerformTask_handles true)
      intro _ _ _ _
      apply Learns.bind resourceCreateTask_handles
      intro _ _ _ _
      exact .raise _
    · exact .raise _

theorem resourceCheckDriftTask_handles (checkDrift : Value → Value → Except Exception Value) (path : String) :
    C.Handles known (resourceCheckDriftTask kube checkDrift path mapping definition) fun _ _ => True := by
  have previous : C.Handles known (getResultForRetrieveId path) fun _ _ => True := by
    apply Learns.bind getRuntime_handles
    intro _ runtime _ _
    split
    · split
      · exact .pure fun _ _ => trivial
      · exact .raise _
    · exact .pure fun _ _ => trivial
  apply Learns.bind previous
  intro _ _ _ _
  apply Learns.bind (doResourceRead_handles .task)
  intro _ current _ _
  apply Learns.bind (ofExcept_handles _)
  intro _ diff _ _
  split
  · exact .raise _
  · exact .pure fun _ _ => trivial

theorem deleteUnlessMissing_handles (given : C.source known definition) (marker : String)
    {resourceExists : Value → KubernetesApiMapping → KubernetesResourceDefinition → Task Value}
    (check : ∀ known found mapping definition, C.Handles known (resourceExists found mapping definition) fun _ _ => True) :
    C.Handles known (deleteUnlessMissing kube node marker resourceExists mapping definition) fun _ _ => True := by
  apply Learns.bind (doResourceRead_handles .task).attempt
  intro _ result more held
  cases result with
  | error e =>
    dsimp only
    split
    · split
      · exact .pure fun _ _ => trivial
      · exact .raise _
    · exact .raise _
  | ok found =>
    apply Learns.bind (retrieveStoredResource_handles true (C.source_mono more given))
    intro _ chosen more₁ source
    apply Learns.bind (ofExcept_handles _)
    intro _ name more₂ named
    apply Learns.bind (doResourceDelete_handles (C.deleted (C.source_mono more₂ source) named))
    intro _ response more₃ _
    apply Learns.bind (check _ _ _ _)
    intro _ found' more₄ _
    apply Learns.bind (handleDeleteResource_handles _ _)
    intro _ _ more₅ _
    apply Learns.bind getPerformTask_handles
    intro _ perform more₆ _
    split
    · have later := ((((more₁.trans more₂).trans more₃).trans more₄).trans more₅).trans more₆
      apply Learns.bind (storeResultForRetrieveId_handles (C.value_mono later (held found rfl)) "")
      intro _ _ _ _
      exact .raise _
    · exact .pure fun _ _ => trivial

/-- The adjacent records are held, and the definition comes from the stores or is the given one. -/
theorem getPathWithAdjacentResources_handles (given : C.source known definition) (path : String) :
    C.Handles known (getPathWithAdjacentResources node path mapping definition) fun known taken =>
      (∀ e ∈ taken.1, C.value known e.2) ∧ C.source known taken.2.1 := by
  have lookup : C.Handles known (recordedResource path) fun known found => C.Found known found.1 ∧
      found.1.resource.index "kind" = .ok found.2.1 ∧ found.1.resource.index "metadata" = .ok found.2.2 := by
    apply Learns.bind (retrieveLastCreatePath_handles path true)
    intro _ found _ held
    apply Learns.bind (ofExcept_handles _)
    intro _ kind more kinded
    apply Learns.bind (ofExcept_handles _)
    intro _ metadata more' described
    apply Learns.pure
    intro _ more''
    have later := (more.trans more').trans more''
    exact ⟨⟨C.value_mono later held.1, fun e member => C.value_mono later (held.2 e member)⟩, kinded, described⟩
  apply Learns.bind lookup.attempt
  intro _ result more taken
  cases result with
  | error e =>
    dsimp only
    split
    · apply Learns.bind (retrieveStoredResource_handles true (C.source_mono more given))
      intro _ chosen _ source
      apply Learns.pure
      intro _ more'
      exact ⟨List.forall_mem_nil _, C.source_mono more' source⟩
    · exact .raise _
  | ok found =>
    obtain ⟨⟨resource, adjacent⟩, kinded, described⟩ := taken found rfl
    apply Learns.bind (ofExcept_handles _)
    intro _ version more₁ versioned
    split
    · rename_i truthy
      apply Learns.bind (ofExcept_handles _)
      intro _ rebuilt more₂ made
      apply Learns.bind (ofExcept_handles _)
      intro _ mapping more₃ _
      apply Learns.pure
      intro _ more₄
      have later := ((more₁.trans more₂).trans more₃).trans more₄
      have part := partOf_of_recorded kinded described versioned truthy made
      exact ⟨fun e member => C.value_mono later (adjacent e member), C.recorded (C.value_mono later resource) part⟩
    · exact .raise _

theorem preparePvcDelete_handles : C.Handles known (preparePvcDelete kube mapping definition) fun _ _ => True := by
  apply Learns.bind (ofExcept_handles _)
  intro _ metadata _ _
  apply Learns.bind (ofExcept_handles _)
  intro _ released _ _
  apply Learns.bind doResourceUpdate_handles.attempt
  intro _ result _ _
  cases result with
  | ok value => exact .pure fun _ _ => trivial
  | error e =>
    dsimp only
    split
    · exact .pure fun _ _ => trivial
    · exact .raise _

theorem deleteWhileAdjacentResources_handles (given : C.source known definition) (path : String)
    {adjacent : List (String × Value)} (held : ∀ e ∈ adjacent, C.value known e.2) :
    C.Handles known (deleteWhileAdjacentResources kube node path mapping definition adjacent) fun _ _ => True := by
  have stored {known' : Set Event} (more : known ≤ known') (perform : Bool) (response : Value) : C.Handles known' (do
      if perform then
        storeResultForRetrieveId definition.cleanup path
        storeAdjacent adjacent
        return some ⟨.operationRetry, "Delete response: " ++ response.toText⟩
      else return none : Task (Option Exception)) fun _ _ => True := by
    split
    · apply Learns.bind (storeResultForRetrieveId_handles (C.written (C.source_mono more given)) path)
      intro _ _ more' _
      refine Learns.bind (storeAdjacent_handles ?_) fun _ _ _ _ => .pure fun _ _ => trivial
      exact fun e member => C.value_mono (more.trans more') (held e member)
    · exact .pure fun _ _ => trivial
  have after {known' : Set Event} (more : known ≤ known') (response : Value) :
      C.Handles known' (afterDeletion kube node path mapping definition adjacent response) fun _ _ => True := by
    apply Learns.bind (handleDeleteResource_handles _ _)
    intro _ _ more₁ _
    apply Learns.bind getPerformTask_handles
    intro _ perform more₂ _
    dsimp only
    split
    · apply Learns.bind preparePvcDelete_handles
      intro _ _ more₃ _
      exact stored (((more.trans more₁).trans more₂).trans more₃) perform response
    · exact stored ((more.trans more₁).trans more₂) perform response
  apply Learns.bind (ofExcept_handles _)
  intro _ name more named
  apply Learns.bind (doResourceDelete_handles (C.deleted (C.source_mono more given) named)).attempt
  intro _ result more' _
  cases result with
  | ok response => exact after (more.trans more') response
  | error e =>
    dsimp only
    split <;> exact .raise _

theorem deleteWithAdjacentResources_handles (given : C.source known definition) (path : String)
    {delete : KubernetesApiMapping → KubernetesResourceDefinition → Task Unit}
    (inner : ∀ known mapping definition, C.source known definition →
      C.Handles known (delete mapping definition) fun _ _ => True)
    {adjacent : List (String × Value)} (held : ∀ e ∈ adjacent, C.value known e.2) :
    C.Handles known (deleteWithAdjacentResources kube node delete path adjacent definition mapping) fun _ _ => True := by
  have ending {known' : Set Event} (more : known ≤ known') (text : String) : C.Handles known' (do
      if adjacent.isEmpty then return ()
      else
        storeAdjacent adjacent
        Program.raise (⟨.operationRetry, text⟩ : Exception) : Task Unit) fun _ _ => True := by
    split
    · exact .pure fun _ _ => trivial
    · apply Learns.bind (storeAdjacent_handles fun e member => C.value_mono more (held e member))
      intro _ _ _ _
      exact .raise _
  have read : C.Handles known (readWhileAdjacentResources kube mapping definition) fun _ _ => True := by
    apply Learns.bind (doResourceRead_handles .task).attempt
    intro _ result _ _
    cases result with
    | ok value => exact .pure fun _ _ => trivial
    | error e =>
      dsimp only
      split
      · split <;> exact .pure fun _ _ => trivial
      · exact .raise _
  have nested {known' : Set Event} (more : known ≤ known') :
      C.Handles known' (deleteAdjacentResources delete definition adjacent) fun _ _ => True := by
    refine Learns.bind (Learns.forEach (Q := fun _ _ => True) ?_) fun _ _ _ _ => .pure fun _ _ => trivial
    intro e member known'' more'
    apply Learns.bind (ofExcept_handles _)
    intro _ found more₁ made
    cases found with
    | none => exact .pure fun _ _ => trivial
    | some found =>
      apply Learns.bind (ofExcept_handles _)
      intro _ innerMapping more₂ _
      have later := ((more.trans more').trans more₁).trans more₂
      exact inner _ _ _ (C.recorded (C.value_mono later (held e member)) (partOf_of_adjacent made))
  apply Learns.bind read
  intro _ missing more _
  cases missing with
  | some e =>
    dsimp only
    split
    · split
      · exact .pure fun _ _ => trivial
      · apply Learns.bind (nested more)
        intro _ _ more' _
        apply Learns.bind (storeAdjacent_handles fun e member => C.value_mono (more.trans more') (held e member))
        intro _ _ _ _
        exact .raise _
    · exact .raise _
  | none =>
    apply Learns.bind (deleteWhileAdjacentResources_handles (C.source_mono more given) path
      fun e member => C.value_mono more (held e member))
    intro _ retry more' _
    cases retry with
    | none => exact ending (more.trans more') _
    | some e =>
      dsimp only
      split
      · apply Learns.bind (P := fun _ _ => True) (.raise _)
        intro _ _ more'' _
        exact ending ((more.trans more').trans more'') _
      · exact ending (more.trans more') _

theorem fileResourceDeleteTask_handles (depth : Nat) (path : String) (given : C.source known definition) :
    C.Handles known (fileResourceDeleteTask kube node depth path mapping definition) fun _ _ => True := by
  induction depth generalizing known mapping definition with
  | zero => exact .raise _
  | succ depth ih =>
    apply Learns.bind getRuntime_handles
    intro _ runtime more _
    apply Learns.bind (record_handles rfl)
    intro _ _ more' _
    apply Learns.bind (getPathWithAdjacentResources_handles (C.source_mono (more.trans more') given) path)
    intro _ taken _ found
    exact deleteWithAdjacentResources_handles found.2 path (fun _ _ _ given => ih given) found.1

end

section

variable {C : Contents} {known : Set Event} {kube : Kubernetes} {node : Node} {operation : ResourceTask}

theorem recordedState_handles (path : String) : C.Handles known (recordedState path) fun _ _ => True := by
  apply Learns.bind getRuntime_handles
  intro _ runtime _ _
  split <;> exact .pure fun _ _ => trivial

theorem dropRecord_stores (path : String) {runtime : RuntimeProperties} (stores : C.Stores known runtime) :
    C.Stores known (dropRecord path runtime) := by
  unfold dropRecord
  have gone : ∀ e ∈ (OrderedDict.empty : Dict).items, C.value known e.2 := List.forall_mem_nil _
  dsimp only
  split
  · refine ⟨?_, stores.definitions⟩
    cases (((runtime.kubernetes.getD .empty).erase path).isEmpty) with
    | true => exact gone
    | false => exact held_of_mem_erase stores.files path
  · exact ⟨gone, stores.definitions⟩

def LooksUp (kube : Kubernetes) (operation : ResourceTask) : Prop :=
  operation.resourceStateFunction = none ∨
    operation.resourceStateFunction = some (checkIfResourceExists kube .stateFunction)

theorem definitionTask_handles (path : String) {definition : KubernetesResourceDefinition} (given : C.source known definition)
    (mapped : C.Handles known (operation.retrieveMapping definition) fun _ _ => True) (state : LooksUp kube operation)
    (task : ∀ known mapping, C.source known definition →
      C.Handles known (operation.task path mapping definition) fun _ _ => True) :
    C.Handles known (definitionTask node operation path definition) fun _ _ => True := by
  apply Learns.bind mapped
  intro _ mapping more₁ _
  apply Learns.bind (ofExcept_handles _)
  intro _ resourceId more₂ _
  have rest {known' : Set Event} (more : known ≤ known') (currentState : Value) : C.Handles known' (do
      handleExistingResource node currentState
      operation.task path mapping definition
      modifyRuntime fun runtime => { runtime with performTask := none }
      if currentState.truthy && operation.cleanupRuntimeProperties then modifyRuntime (dropRecord path))
      fun _ _ => True := by
    apply Learns.bind (handleExistingResource_handles _ _)
    intro _ _ more' _
    apply Learns.bind (task _ mapping (C.source_mono (more.trans more') given))
    intro _ _ _ _
    apply Learns.bind (unflagged_handles none)
    intro _ _ _ _
    split
    · exact modifyRuntime_handles fun _ _ _ stores => dropRecord_stores path stores
    · exact .pure fun _ _ => trivial
  have more := more₁.trans more₂
  apply state.elim
  · intro unset
    rw [unset]
    apply Learns.bind (recordedState_handles path)
    intro _ currentState more' _
    exact rest (more.trans more') currentState
  · intro set
    rw [set]
    dsimp only
    split
    · apply Learns.bind (checkIfResourceExists_handles _)
      intro _ currentState more' _
      exact rest (more.trans more') currentState
    · apply Learns.bind (recordedState_handles path)
      intro _ currentState more' _
      exact rest (more.trans more') currentState

theorem resourceTask_handles (kube : Kubernetes) (file : Option String) {definitions : List KubernetesResourceDefinition}
    (given : ∀ d ∈ definitions, C.source known d) (state : LooksUp kube operation)
    (mapped : ∀ known definition, C.Handles known (operation.retrieveMapping definition) fun _ _ => True)
    (task : ∀ known path mapping definition, C.source known definition →
      C.Handles known (operation.task path mapping definition) fun _ _ => True) :
    C.Handles known (resourceTask node operation file definitions) fun _ _ => True := by
  have all : C.Handles known (multidefinitionResourceTask node operation file definitions) fun _ _ => True := by
    refine Learns.bind (Learns.forEach (Q := fun _ _ => True) ?_) fun _ _ _ _ => .pure fun _ _ => trivial
    intro indexed member known' more
    have inside : indexed.1 ∈ definitions := by
      have listed := List.mem_map_of_mem (f := Prod.fst) member
      rwa [List.zipIdx_map_fst] at listed
    exact definitionTask_handles _ (C.source_mono more (given _ inside)) (mapped _ _) state fun _ _ => task _ _ _ _
  apply Learns.bind all.attempt
  intro _ result _ _
  cases result with
  | ok value => exact .pure fun _ _ => trivial
  | error e => exact .raise _

theorem multipleFileResource_handles {files : List (String × List KubernetesResourceDefinition)}
    (given : ∀ d ∈ files.flatMap Prod.snd, C.source known d)
    {operation : Option String → List KubernetesResourceDefinition → Task Unit}
    (each : ∀ known file definitions, (∀ d ∈ definitions, C.source known d) →
      C.Handles known (operation file definitions) fun _ _ => True) :
    C.Handles known (multipleFileResource operation files) fun _ _ => True := by
  unfold multipleFileResource
  split
  · exact .raise _
  · refine Learns.bind (Learns.forEach (Q := fun _ _ => True) ?_) fun _ _ _ _ => .pure fun _ _ => trivial
    intro file member known' more
    apply each
    intro d inside
    exact C.source_mono more (given d (List.mem_flatMap_of_mem member inside))

end

section

variable {C : Contents} {known : Set Event} (kube : Kubernetes) (node : Node) (ctx : OperationContext)

theorem byKind_handles (known : Set Event) (definition : KubernetesResourceDefinition) :
    C.Handles known (chooseMapping definition) fun _ _ => True := chooseMapping_handles definition

theorem byData_handles (known : Set Event) (_ : KubernetesResourceDefinition) :
    C.Handles known (Program.ofExcept (mappingByData node) : Task KubernetesApiMapping) fun _ _ => True :=
  .ofExcept fun _ _ _ _ => trivial

variable (file : Option String) {definitions : List KubernetesResourceDefinition}
  (given : ∀ d ∈ definitions, C.source known d)

include given

theorem fileResourceCreate_handles : C.Handles known (fileResourceCreate kube node file definitions) fun _ _ => True :=
  resourceTask_handles kube file given (.inl rfl) byKind_handles fun _ path _ _ _ => fileResourceCreateTask_handles path

theorem fileResourceReads_handles : C.Handles known (fileResourceRead kube node file definitions) fun _ _ => True :=
  resourceTask_handles kube file given (.inl rfl) byKind_handles fun _ path _ _ _ => fileResourceReadTask_handles path

theorem fileResourceCheckStatus_handles :
    C.Handles known (fileResourceCheckStatus kube node ctx file definitions) fun _ _ => True :=
  resourceTask_handles kube file given (.inl rfl) byKind_handles fun _ _ _ _ _ => resourceCheckStatus_handles ctx

theorem fileResourceUpdate_handles : C.Handles known (fileResourceUpdate kube node file definitions) fun _ _ => True :=
  resourceTask_handles kube file given (.inl rfl) byKind_handles fun _ path _ _ _ => fileResourceUpdateTask_handles path

theorem fileResourceDelete_handles : C.Handles known (fileResourceDelete kube node file definitions) fun _ _ => True := by
  apply resourceTask_handles kube file given (.inr rfl) byKind_handles
  intro known path mapping definition given
  apply Learns.bind getRuntime_handles
  intro _ runtime more _
  exact fileResourceDeleteTask_handles _ path (C.source_mono more given)

theorem fileResourceCheckDrift_handles (checkDrift : Value → Value → Except Exception Value) :
    C.Handles known (fileResourceCheckDrift kube node checkDrift file definitions) fun _ _ => True :=
  resourceTask_handles kube file given (.inl rfl) byKind_handles fun _ path _ _ _ =>
    resourceCheckDriftTask_handles checkDrift path

theorem fileResourceUpdateWith_handles (additions : Value) :
    C.Handles known (fileResourceUpdateWith kube node additions file definitions) fun _ _ => True := by
  apply resourceTask_handles kube file given (.inl rfl) byKind_handles
  intro _ path mapping definition _
  apply Learns.bind (ofExcept_handles _)
  intro _ amended _ _
  exact fileResourceUpdateTask_handles path

end

section

variable {C : Contents} {known : Set Event} (kube : Kubernetes) (node : Node) (ctx : OperationContext)

theorem createdAndStored_handles {create : KubernetesApiMapping → KubernetesResourceDefinition → Task Value}
    (creates : ∀ known mapping definition, C.Handles known (create mapping definition) C.value)
    (mapping : KubernetesApiMapping) (definition : KubernetesResourceDefinition) : C.Handles known (do
      let result ← create mapping definition
      storeResultForRetrieveId result "") fun _ _ => True := by
  apply Learns.bind (creates _ mapping definition)
  intro _ result _ held
  exact storeResultForRetrieveId_handles held ""

theorem Operation.run_handles (operation : Operation) (given : ∀ d ∈ operation.definitions, C.source known d) :
    C.Handles known (operation.run kube node ctx) fun _ _ => True := by
  have recorded (operation : ResourceTask) (unset : operation.resourceStateFunction = none) : LooksUp kube operation :=
    .inl unset
  have asked (operation : ResourceTask)
      (set : operation.resourceStateFunction = some (checkIfResourceExists kube .stateFunction)) :
      LooksUp kube operation := .inr set
  cases operation with
  | resourceCreate definition =>
    exact resourceTask_handles kube none given (asked _ rfl) byKind_handles fun _ _ mapping definition _ =>
      createdAndStored_handles (fun _ _ _ => resourceCreateTask_handles) mapping definition
  | resourceRead definition =>
    exact resourceTask_handles kube none given (asked _ rfl) byKind_handles fun _ _ _ _ _ => readAndStore_handles
  | resourceReadCheckStatus definition =>
    exact resourceTask_handles kube none given (recorded _ rfl) byKind_handles fun _ _ _ _ _ => resourceCheckStatus_handles ctx
  | resourceUpdate definition =>
    exact resourceTask_handles kube none given (asked _ rfl) byKind_handles fun _ _ _ _ _ => fileResourceUpdateTask_handles ""
  | resourceDelete definition =>
    exact resourceTask_handles kube none given (asked _ rfl) byKind_handles fun _ _ _ _ given =>
      deleteUnlessMissing_handles given _ fun _ _ _ _ => .pure fun _ _ => trivial
  | customResourceCreate definition =>
    exact resourceTask_handles kube none given (asked _ rfl) (byData_handles node) fun _ _ mapping definition _ =>
      createdAndStored_handles (fun _ _ _ => doResourceCreate_handles) mapping definition
  | customResourceRead definition =>
    exact resourceTask_handles kube none given (asked _ rfl) (byData_handles node) fun _ _ _ _ _ => readAndStore_handles
  | customCheckStatus definition =>
    exact resourceTask_handles kube none given (asked _ rfl) (byData_handles node) fun _ _ _ _ _ =>
      resourceCheckStatus_handles ctx
  | customResourceUpdate definition =>
    exact resourceTask_handles kube none given (recorded _ rfl) (byData_handles node) fun _ _ _ _ _ =>
      fileResourceUpdateTask_handles ""
  | customResourceDelete definition =>
    apply resourceTask_handles kube none given (asked _ rfl) (byData_handles node)
    intro _ path mapping definition given
    apply deleteUnlessMissing_handles given
    intro _ found mapping definition
    exact (checkIfResourceExists_handles .afterDelete).weaken fun _ _ _ => trivial
  | fileResourceCreate file definitions => exact fileResourceCreate_handles kube node file given
  | fileResourceRead file definitions => exact fileResourceReads_handles kube node file given
  | fileResourceCheckStatus file definitions => exact fileResourceCheckStatus_handles kube node ctx file given
  | fileResourceUpdate file definitions => exact fileResourceUpdate_handles kube node file given
  | fileResourceDelete file definitions => exact fileResourceDelete_handles kube node file given
  | multipleFileResourceCreate files =>
    exact multipleFileResource_handles given fun _ file _ given => fileResourceCreate_handles kube node file given
  | multipleFileResourceRead files =>
    exact multipleFileResource_handles given fun _ file _ given => fileResourceReads_handles kube node file given
  | multipleFileResourceCheckStatus files =>
    exact multipleFileResource_handles given fun _ file _ given => fileResourceCheckStatus_handles kube node ctx file given
  | multipleFileResourceUpdate files =>
    exact multipleFileResource_handles given fun _ file _ given => fileResourceUpdate_handles kube node file given
  | multipleFileResourceDelete files =>
    exact multipleFileResource_handles given fun _ file _ given => fileResourceDelete_handles kube node file given

end

namespace Contents

variable (C : Contents)

abbrev HandlesAll (known : Set Event) {α : Type} (p : TokenTask α) (ok : Set Event → α → Prop) : Prop :=
  Learns (fun s : State × Dict => s.1.known) (fun s => C.Holds s.1 ∧ ∀ e ∈ s.2.items, C.property e.2) known p ok

end Contents

section

variable {C : Contents} {known : Set Event}

theorem onFirst_handles {α : Type} {p : Task α} {P : Set Event → α → Prop} (inner : C.Handles known p P) :
    C.HandlesAll known p.onFirst P :=
  Learns.onFirst (K := fun properties : Dict => ∀ e ∈ properties.items, C.property e.2) inner

theorem storeProperty_handles (key : String) {v : Value} (held : C.property v) :
    C.HandlesAll known (storeProperty key v) fun _ _ => True := by
  apply Learns.modify
  · intro s holds _
    exact ⟨holds.1, forall_mem_assign held holds.2⟩
  · intro s
    rfl

theorem readProperties_handles {α : Type} {f : Dict → Except Exception α} {P : α → Prop}
    (reads : ∀ properties : Dict, (∀ e ∈ properties.items, C.property e.2) → ∀ value, f properties = .ok value → P value) :
    C.HandlesAll known (readProperties f) fun _ => P := by
  intro s holds
  rw [readProperties, bind_run_ok (show getProperties s = (.ok s.2, s) from rfl), ofExcept_run]
  cases found : f s.2 with
  | error e => exact holds
  | ok value => exact ⟨reads s.2 holds.1.2 value found, holds⟩

end

section

variable {C : Contents} {known : Set Event} {load : String → Except Exception Value} {kube : Kubernetes} {node : Node}

/-- The round of a payload: a task for its definition, and what follows the task. -/
theorem payloadRound_handles {task : KubernetesApiMapping → KubernetesResourceDefinition → Task Value} {payload : String}
    {finish : Value → Value → Task Value}
    (responds : ∀ known mapping definition, resourceDefinitionFromPayload load payload = .ok definition →
      C.Handles known (task mapping definition) fun _ => C.property)
    (ends : ∀ known currentState result, C.property result → C.Handles known (finish currentState result) fun _ => C.property) :
    C.Handles known (do
      let definition ← Program.ofExcept (resourceDefinitionFromPayload load payload)
      let mapping ← chooseMapping definition
      let _ ← Program.ofExcept (definition.metadata.get "name" .none)
      let currentState ← recordedState (definitionPath node none false 0)
      handleExistingResource node currentState
      let result ← task mapping definition
      modifyRuntime fun runtime => { runtime with performTask := none }
      finish currentState result) fun _ => C.property := by
  apply Learns.bind (ofExcept_handles _)
  intro _ definition _ loaded
  apply Learns.bind (chooseMapping_handles _)
  intro _ mapping _ _
  apply Learns.bind (ofExcept_handles _)
  intro _ _ _ _
  apply Learns.bind (recordedState_handles _)
  intro _ currentState _ _
  apply Learns.bind (handleExistingResource_handles _ _)
  intro _ _ _ _
  apply Learns.bind (responds _ mapping definition loaded)
  intro _ result _ clean
  apply Learns.bind (unflagged_handles none)
  intro _ _ _ _
  exact ends _ currentState result clean

theorem recordedPayloadTask_handles {task : KubernetesApiMapping → KubernetesResourceDefinition → Task Value} {payload : String}
    (responds : ∀ known mapping definition, resourceDefinitionFromPayload load payload = .ok definition →
      C.Handles known (task mapping definition) fun _ => C.property) :
    C.Handles known (recordedPayloadTask load node task payload) fun _ => C.property :=
  payloadRound_handles responds fun _ _ _ clean => .pure fun _ _ => clean

theorem payloadTask_handles {task : KubernetesApiMapping → KubernetesResourceDefinition → Task Value} {payload : String}
    (responds : ∀ known mapping definition, resourceDefinitionFromPayload load payload = .ok definition →
      C.Handles known (task mapping definition) fun _ => C.property) :
    C.Handles known (payloadTask load node task payload) fun _ => C.property := by
  apply payloadRound_handles responds
  intro _ currentState result clean
  split
  · refine Learns.bind (modifyRuntime_handles fun _ _ _ stores => dropRecord_stores _ stores) fun _ _ _ _ => ?_
    exact .pure fun _ _ => clean
  · exact .pure fun _ _ => clean

theorem attempted_handles {p : Task Value} (responds : C.Handles known p fun _ => C.property) : C.Handles known (do
    match ← p.attempt with
    | .ok result => return result
    | .error e => Program.raise (resourceTaskError e)) fun _ => C.property := by
  apply Learns.bind responds.attempt
  intro _ result _ clean
  cases result with
  | ok value => exact .pure fun _ _ => clean value rfl
  | error e => exact .raise _

theorem readResponse_handles (mapping : KubernetesApiMapping) (definition : KubernetesResourceDefinition) :
    C.Handles known (doResourceRead kube .task mapping definition) fun _ => C.property :=
  (doResourceRead_handles .task).weaken fun _ _ held => C.held held

theorem createThenRead_handles (mapping : KubernetesApiMapping) (definition : KubernetesResourceDefinition) :
    C.Handles known (createThenRead kube mapping definition) fun _ => C.property := by
  apply Learns.bind resourceCreateTask_handles.attempt
  intro _ created _ _
  apply Learns.bind (readResponse_handles mapping definition)
  intro _ result _ clean
  cases created with
  | ok value => exact .pure fun _ _ => clean
  | error e =>
    dsimp only
    split
    · exact .pure fun _ _ => clean
    · exact .raise _

theorem resourceCreateFromPayload_handles (payload : String) :
    C.Handles known (resourceCreateFromPayload load kube node payload) fun _ => C.property :=
  attempted_handles (recordedPayloadTask_handles fun _ mapping definition _ => createThenRead_handles mapping definition)

theorem resourceReadFromPayload_handles (payload : String) :
    C.Handles known (resourceReadFromPayload load kube node payload) fun _ => C.property :=
  attempted_handles (recordedPayloadTask_handles fun _ mapping definition _ => readResponse_handles mapping definition)

def Contents.Deletable (C : Contents) (load : String → Except Exception Value) : Prop :=
  ∀ known id payload d, resourceDefinitionFromPayload load payload = .ok d → C.deletion known id d

theorem resourceDeleteFromPayload_handles (deletable : C.Deletable load) (resourceId : Value) (payload : String) :
    C.Handles known (resourceDeleteFromPayload load kube node resourceId payload) fun _ => C.property := by
  apply attempted_handles
  apply payloadTask_handles
  intro _ mapping definition loaded
  apply Learns.bind (doResourceDelete_handles (deletable _ resourceId payload definition loaded)).attempt
  intro _ result _ clean
  cases result with
  | ok response => exact .pure fun _ _ => clean response rfl
  | error e =>
    dsimp only
    split
    · split
      · exact .pure fun known _ => C.held (C.missing known)
      · exact .raise _
    · exact .raise _

theorem createdSecret_handles (payload : String) :
    C.Handles known (createdSecret load kube node payload) fun _ => C.property := by
  apply Learns.bind (resourceCreateFromPayload_handles payload).attempt
  intro _ result _ clean
  cases result with
  | ok response => exact .pure fun _ _ => clean response rfl
  | error e => exact resourceReadFromPayload_handles payload

theorem storeDecoded_handles (key : String) (encoded : Value) :
    C.HandlesAll known (storeDecoded key encoded) fun _ _ => True := by
  apply Learns.bind (P := fun _ _ => True) (.ofExcept fun _ _ _ _ => trivial)
  intro _ text _ _
  exact storeProperty_handles key (C.text text)

theorem storeEndpoint_handles : C.HandlesAll known storeEndpoint fun _ _ => True := by
  refine Learns.bind (readProperties_handles (P := C.property) ?_) fun _ endpoint _ held => storeProperty_handles _ held
  intro properties all endpoint found
  unfold endpointOf at found
  cases listed : properties.get? "capabilities" with
  | none =>
    rw [listed] at found
    cases found
  | some capabilities =>
    rw [listed] at found
    have member := (properties.mem_items_iff "capabilities" capabilities).mpr listed
    exact C.part (all _ member) found

theorem storeSecret_handles (endpointFirst : Bool) {response : Value} (held : C.property response) :
    C.HandlesAll known (storeSecret endpointFirst response) fun _ _ => True := by
  apply Learns.bind (P := fun _ _ => True) (.ofExcept fun _ _ _ _ => trivial)
  intro _ token _ _
  apply Learns.bind (P := fun _ _ => True) (.ofExcept fun _ _ _ _ => trivial)
  intro _ certificate _ _
  apply Learns.bind (storeProperty_handles _ held)
  intro _ _ _ _
  cases endpointFirst with
  | true =>
    apply Learns.bind storeEndpoint_handles
    intro _ _ _ _
    apply Learns.bind (storeDecoded_handles _ _)
    intro _ _ _ _
    exact storeDecoded_handles _ _
  | false =>
    apply Learns.bind (storeDecoded_handles _ _)
    intro _ _ _ _
    apply Learns.bind storeEndpoint_handles
    intro _ _ _ _
    exact storeDecoded_handles _ _

theorem withoutToken_handles : C.HandlesAll known (modifyProperties withoutToken) fun _ _ => True := by
  apply Learns.modify
  · intro s holds _
    refine ⟨holds.1, ?_⟩
    intro e member
    exact holds.2 e (List.mem_of_mem_filter (List.mem_of_mem_filter member))
  · intro s
    rfl

theorem nestedResourceTask_handles {resources : List (String × (String → String → String))}
    {operation : Value → String → Task Value} (nestedOpsFirst : Bool) (instanceId : String) {task : TokenTask Unit}
    (each : ∀ known resourceId payload, C.Handles known (operation resourceId payload) fun _ => C.property)
    (body : ∀ known, C.HandlesAll known task fun _ _ => True) :
    C.HandlesAll known (nestedResourceTask resources operation nestedOpsFirst instanceId task) fun _ _ => True := by
  have nested (known' : Set Event) (name namesp : String) :
      C.HandlesAll known' (nestedOps resources operation name namesp) fun _ _ => True := by
    refine Learns.bind (Learns.forEach (Q := fun _ _ => True) ?_) fun _ _ _ _ => .pure fun _ _ => trivial
    intro resource _ known'' _
    apply Learns.bind (onFirst_handles (each _ _ _))
    intro _ result _ held
    exact storeProperty_handles _ held
  have options : C.HandlesAll known getOptions.onFirst fun _ _ => True := fun _ holds => ⟨trivial, holds⟩
  apply Learns.bind options
  intro _ options _ _
  apply Learns.bind (onFirst_handles (setPerformTask_handles true))
  intro _ _ _ _
  cases nestedOpsFirst with
  | true =>
    apply Learns.bind (nested _ _ _)
    intro _ _ _ _
    exact body _
  | false =>
    apply Learns.bind (body _)
    intro _ _ _ _
    exact nested _ _ _

theorem secretPayload_handles {rest : String → TokenTask Unit}
    (others : ∀ known payload, C.HandlesAll known (rest payload) fun _ _ => True) :
    C.HandlesAll known (readProperties secretPayload >>= rest) fun _ _ => True :=
  Learns.bind (readProperties_handles (P := fun _ => True) fun _ _ _ _ => trivial) fun _ payload _ _ => others _ payload

theorem createSecret_handles : C.HandlesAll known (createSecret load kube node) fun _ _ => True :=
  secretPayload_handles fun _ payload =>
    Learns.bind (onFirst_handles (createdSecret_handles payload)) fun _ _ _ held => storeSecret_handles false held

theorem readSecret_handles : C.HandlesAll known (readSecret load kube node) fun _ _ => True :=
  secretPayload_handles fun _ payload =>
    Learns.bind (onFirst_handles (resourceReadFromPayload_handles payload)) fun _ _ _ held => storeSecret_handles true held

theorem checkSecret_handles : C.HandlesAll known (checkSecret load kube node) fun _ _ => True :=
  secretPayload_handles fun _ payload =>
    Learns.bind (onFirst_handles (resourceReadFromPayload_handles payload)) fun _ _ _ _ => .pure fun _ _ => trivial

theorem deleteSecret_handles (deletable : C.Deletable load) :
    C.HandlesAll known (deleteSecret load kube node) fun _ _ => True := by
  have properties : C.HandlesAll known getProperties fun _ _ => True := fun _ holds => ⟨trivial, holds⟩
  apply Learns.bind properties
  intro _ properties _ _
  apply Learns.bind (P := fun _ _ => True) (.ofExcept fun _ _ _ _ => trivial)
  intro _ name _ _
  apply Learns.bind (P := fun _ _ => True) (.ofExcept fun _ _ _ _ => trivial)
  intro _ payload _ _
  apply Learns.bind (onFirst_handles (resourceDeleteFromPayload_handles deletable _ payload))
  intro _ _ _ _
  exact withoutToken_handles

end

def LifecycleOperation.definitions : LifecycleOperation → List KubernetesResourceDefinition
  | .plain operation => operation.definitions
  | .fileResourceUpdateWith _ _ definitions | .fileResourceCheckDrift _ definitions => definitions
  | .multipleFileResourceUpdateWith _ files | .multipleFileResourceCheckDrift files => files.flatMap Prod.snd
  | .resourceReadCheckDrift definition | .customCheckDrift definition => [definition]
  | .createToken | .readToken | .getTokenStatus | .deleteToken => []

def LifecycleOperation.deletesToken : LifecycleOperation → Bool
  | .deleteToken => true
  | _ => false

section

variable {C : Contents} {known : Set Event} (env : Environment)

theorem LifecycleOperation.run_handles (ctx : OperationContext) (operation : LifecycleOperation)
    (given : ∀ d ∈ operation.definitions, C.source known d)
    (deletable : operation.deletesToken = true → C.Deletable env.load) :
    C.HandlesAll known (operation.run env ctx) fun _ _ => True := by
  cases operation with
  | plain operation => exact onFirst_handles (operation.run_handles env.kube env.node ctx given)
  | fileResourceUpdateWith additions file definitions =>
    exact onFirst_handles (fileResourceUpdateWith_handles env.kube env.node file given additions)
  | multipleFileResourceUpdateWith additions files =>
    exact onFirst_handles (multipleFileResource_handles given fun _ file _ given =>
      fileResourceUpdateWith_handles env.kube env.node file given additions)
  | resourceReadCheckDrift definition =>
    have single : C.Handles known
        (CloudifyKubernetes.resourceReadCheckDrift env.kube env.node env.checkDrift definition) fun _ _ => True :=
      resourceTask_handles env.kube none given (.inl rfl) byKind_handles fun _ path _ _ _ =>
        resourceCheckDriftTask_handles env.checkDrift path
    exact onFirst_handles single
  | customCheckDrift definition =>
    have single : C.Handles known
        (CloudifyKubernetes.customCheckDrift env.kube env.node env.checkDrift definition) fun _ _ => True :=
      resourceTask_handles env.kube none given (.inr rfl) (byData_handles env.node) fun _ path _ _ _ =>
        resourceCheckDriftTask_handles env.checkDrift path
    exact onFirst_handles single
  | fileResourceCheckDrift file definitions =>
    exact onFirst_handles (fileResourceCheckDrift_handles env.kube env.node file given env.checkDrift)
  | multipleFileResourceCheckDrift files =>
    exact onFirst_handles (multipleFileResource_handles given fun _ file _ given =>
      fileResourceCheckDrift_handles env.kube env.node file given env.checkDrift)
  | createToken =>
    exact nestedResourceTask_handles _ _ (fun _ _ payload => resourceCreateFromPayload_handles payload) fun _ =>
      createSecret_handles
  | readToken =>
    exact nestedResourceTask_handles _ _ (fun _ _ payload => resourceReadFromPayload_handles payload) fun _ =>
      readSecret_handles
  | getTokenStatus =>
    exact nestedResourceTask_handles _ _ (fun _ _ payload => resourceReadFromPayload_handles payload) fun _ =>
      checkSecret_handles
  | deleteToken =>
    exact nestedResourceTask_handles _ _ (fun _ => resourceDeleteFromPayload_handles (deletable rfl)) fun _ =>
      deleteSecret_handles (deletable rfl)

theorem lifecycle_handles (options : Dict) {operations : List (OperationContext × LifecycleOperation)}
    (given : ∀ next ∈ operations, ∀ d ∈ next.2.definitions, C.source known d)
    (deletable : ∀ next ∈ operations, next.2.deletesToken = true → C.Deletable env.load) :
    C.HandlesAll known (lifecycle env options operations) fun _ _ => True := by
  apply Learns.forEach (Q := fun _ _ => True)
  intro next member known' more
  have edited : C.HandlesAll known' (modifyOptions fun _ => options).onFirst fun _ _ => True := by
    apply onFirst_handles
    apply Learns.modify
    · intro s holds _
      exact ⟨holds.stores, holds.deletions⟩
    · intro s
      rfl
  apply Learns.bind edited
  intro known'' _ more' _
  have sources : ∀ d ∈ next.2.definitions, C.source known'' d := fun d inside =>
    C.source_mono (more.trans more') (given next member d inside)
  exact ((next.2.run_handles env next.1 sources (deletable next member)).attempt).weaken fun _ _ _ => trivial

end

end CloudifyKubernetes
