import CloudifyKubernetes.Creation
import CloudifyKubernetes.Records

namespace CloudifyKubernetes

open Collections Effects Program Relation

/-- The API answers the reads of the resource with the resource, and nothing else with it. -/
structure Truthful (n : ObjectName) (about : KubernetesResourceDefinition → Bool) (log : List Event) :
    Prop where
  found : ∀ site mapping definition result, .returned ⟨.read site, mapping, definition⟩ result ∈ log →
    about definition = true → (result >>= jsonCleanuper).isOk = true
  own : ∀ c result object, .returned c result ∈ log → result >>= jsonCleanuper = .ok object →
    ∃ m, IsRecord m object ∧ (m = n ↔ about c.definition = true)

def Event.asks (about : KubernetesResourceDefinition → Bool) : Event → Bool
  | .called ⟨.read _, _, definition⟩ => about definition
  | _ => false

def Event.deletes (about : KubernetesResourceDefinition → Bool) : Event → Bool
  | .called ⟨.delete _, _, definition⟩ => about definition
  | _ => false

def Operation.created : Operation → Option (List KubernetesResourceDefinition)
  | .resourceCreate definition | .customResourceCreate definition => some [definition]
  | .fileResourceCreate _ definitions => some definitions
  | .multipleFileResourceCreate files => some (files.flatMap Prod.snd)
  | _ => none

section

variable (n : ObjectName) (about : KubernetesResourceDefinition → Bool) (earlier : Prop)

/-- The resource is stored as the node's own if it has been asked for, and otherwise only where it
    is still pending to be stored. -/
structure Adopted (pending : Prop) (s : State) : Prop where
  storable : s.Storable
  kept : earlier → ∃ e ∈ s.log, e.asks about = true
  asked : (∃ e ∈ s.log, e.asks about = true) ↔ pending ∨ s.Stored n

def Told (post : State → Prop) (s : State) : Prop := Truthful n about s.log → post s

def Found (definition : KubernetesResourceDefinition) (object : Value) : Prop :=
  ∃ m, IsRecord m object ∧ (m = n ↔ about definition = true)

structure Checked (definition : KubernetesResourceDefinition) (found : Value) (s : State) : Prop where
  adopted : Adopted n about earlier (about definition = true) s
  settled : about definition = true →
    found.truthy = true ∧ ∃ annotations, customAnnotations definition = .ok annotations

structure Recorded (definition : KubernetesResourceDefinition) (s : State) : Prop where
  adopted : Adopted n about earlier False s
  asked : about definition = true → ∃ e ∈ s.log, e.asks about = true

end

section

variable {n : ObjectName} {about : KubernetesResourceDefinition → Bool} {earlier pending : Prop} {s s' : State}

theorem Truthful.of_append {log events : List Event} (truthful : Truthful n about (log ++ events)) :
    Truthful n about log where
  found site mapping definition result member :=
    truthful.found site mapping definition result (List.mem_append_left _ member)
  own c result object member := truthful.own c result object (List.mem_append_left _ member)

theorem Adopted.step (adopted : Adopted n about earlier pending s) {pending' : Prop} {events : List Event}
    (grown : s'.log = s.log ++ events)
    (kept : s'.runtime.resourceDefinitions = s.runtime.resourceDefinitions)
    (moved : ((∃ e ∈ events, e.asks about = true) ∨ pending) ↔ pending') : Adopted n about earlier pending' s' := by
  obtain ⟨storable, before, asked⟩ := adopted
  refine ⟨?_, fun settled => ?_, ?_⟩
  · rwa [State.Storable, kept]
  · obtain ⟨e, member, asks⟩ := before settled
    exact ⟨e, by simp [grown, member], asks⟩
  · rw [grown]
    simp only [List.mem_append, or_and_right, exists_or, asked, ← moved, State.Stored, kept]
    exact or_comm.trans or_assoc.symm

theorem Adopted.congr (adopted : Adopted n about earlier pending s) {pending' : Prop} (same : pending ↔ pending') :
    Adopted n about earlier pending' s := adopted.step (List.append_nil _).symm rfl (by simpa using same)

theorem Adopted.quiet (adopted : Adopted n about earlier pending s) {events : List Event}
    (grown : s'.log = s.log ++ events)
    (kept : s'.runtime.resourceDefinitions = s.runtime.resourceDefinitions)
    (silent : ∀ e ∈ events, e.call? = none) : Adopted n about earlier pending s' := by
  have unasked : ¬ ∃ e ∈ events, e.asks about = true := by
    rintro ⟨e, member, asks⟩
    have none := silent e member
    cases e <;> simp [Event.call?, Event.asks] at none asks
  exact adopted.step grown kept (by simp [unasked])

theorem IsRecord.truthy {object : Value} (record : IsRecord n object) : object.truthy = true := by
  obtain ⟨entries, _, _, rfl, kind, _⟩ := record.parts
  cases entries with
  | nil => cases kind
  | cons entry rest => rfl

theorem told_of_lie {α : Type} {returns : α → State → Prop} {raises : Exception → State → Prop}
    {ran : Except Exception α × State} {events : List Event} (grown : ran.2.log = s.log ++ events)
    (lied : ¬ Truthful n about s.log) :
    Outcome (fun value => Told n about (returns value)) (fun e => Told n about (raises e)) ran := by
  obtain ⟨value | value, s'⟩ := ran
  all_goals
    intro truthful
    simp only at grown truthful
    rw [grown] at truthful
    exact absurd truthful.of_append lied

theorem told_triple {α : Type} {p : Task α} {pre : State → Prop} {returns : α → State → Prop}
    {raises : Exception → State → Prop} (grows : ∀ s, ∃ events, (p s).2.log = s.log ++ events)
    (ran : ∀ s, Truthful n about s.log → pre s →
      Outcome (fun value => Told n about (returns value)) (fun e => Told n about (raises e)) (p s)) :
    Triple (Told n about pre) p (fun value => Told n about (returns value))
      fun e => Told n about (raises e) := by
  intro s told
  by_cases truthful : Truthful n about s.log
  · exact ran s truthful (told truthful)
  · obtain ⟨events, grown⟩ := grows s
    exact told_of_lie grown truthful

end

section

variable {n : ObjectName} {about : KubernetesResourceDefinition → Bool} {kube : Kubernetes}
  {mapping : KubernetesApiMapping} {definition : KubernetesResourceDefinition} {earlier pending : Prop} {s : State}

/-- A call for the resource fails only before it asks, and otherwise gives the resource. -/
theorem EditedRun.adopts {c : ClientCall} {ran : Except Exception Value × State} (run : EditedRun c s ran)
    (adopted : Told n about (Adopted n about earlier pending) s) :
    Outcome (fun found => Told n about fun s' =>
        Adopted n about earlier ((Event.called c).asks about = true ∨ pending) s' ∧
          Found n about c.definition found ∧ ∃ annotations, customAnnotations c.definition = .ok annotations)
      (fun e => Told n about fun s' => Adopted n about earlier pending s' ∧
        ((Event.called c).asks about = true →
          e.isA .apiOperationError = false ∧ ∃ e', customAnnotations c.definition = .error e')) ran := by
  cases run with
  | malformed e failed =>
    intro truthful
    refine ⟨adopted truthful, fun _ => ⟨?_, e, failed⟩⟩
    rw [Exception.isA, customAnnotations_error failed]
    rfl
  | called result options events readable call =>
    have returned : .returned c result ∈ s.log ++ .edited c.definition :: events := by
      have member : .returned c result ∈ events := (call.mem_iff (by simp)).mpr (.inr rfl)
      simp [member]
    have asked : (∃ e ∈ (.edited c.definition :: events : List Event), e.asks about = true) ↔
        (Event.called c).asks about = true := by
      constructor
      · rintro ⟨e, member, asks⟩
        rcases List.mem_cons.mp member with rfl | member
        · cases asks
        · have request : ∀ request answer, e ≠ .requested c request answer := by
            rintro request answer rfl
            cases asks
          rcases (call.mem_iff request).mp member with rfl | rfl
          · exact asks
          · cases asks
      · intro asks
        exact ⟨.called c, List.mem_cons_of_mem _ ((call.mem_iff (by simp)).mpr (.inl rfl)), asks⟩
    cases cleaned : result >>= jsonCleanuper with
    | ok found =>
      intro truthful
      have adopted := adopted truthful.of_append
      exact ⟨adopted.step rfl rfl (by rw [asked]), truthful.own c result found returned cleaned, readable⟩
    | error e =>
      intro truthful
      have unasked : ¬ (Event.called c).asks about = true := by
        intro asks
        obtain ⟨verb, mapping, definition⟩ := c
        cases verb with
        | read site =>
          have found := truthful.found site mapping definition result returned asks
          rw [cleaned] at found
          cases found
        | _ => cases asks
      have adopted := adopted truthful.of_append
      exact ⟨adopted.step rfl rfl (by rw [asked]; simp [unasked]), fun asks => absurd asks unasked⟩

theorem checkIfResourceExists_adopts (site : Site) :
    Triple (Told n about (Adopted n about earlier False)) (checkIfResourceExists kube site mapping definition)
      (fun found => Told n about fun s => Checked n about earlier definition found s ∧
        (found.truthy = true → Found n about definition found))
      fun _ => Told n about (Adopted n about earlier False) := by
  intro s adopted
  have read := (doResourceRead_run kube site mapping definition s).adopts adopted
  rw [checkIfResourceExists_eq]
  generalize doResourceRead kube site mapping definition s = ran at read ⊢
  obtain ⟨e | found, s'⟩ := ran
  · cases failed : existing definition (.error e) with
    | error e' => exact fun truthful => (read truthful).1
    | ok value =>
      intro truthful
      obtain ⟨adopted, unasked⟩ := read truthful
      obtain ⟨operation, rfl⟩ := existing_missing failed
      have other : ¬ about definition = true := fun asks => by
        have free := (unasked asks).1
        rw [operation] at free
        cases free
      exact ⟨⟨adopted.congr (by simp [other]), fun asks => absurd asks other⟩, fun truthy => by cases truthy⟩
  · intro truthful
    obtain ⟨adopted, record, readable⟩ := read truthful
    refine ⟨⟨adopted.congr (by simp [Event.asks]), fun _ => ⟨?_, readable⟩⟩, fun _ => record⟩
    obtain ⟨m, record, _⟩ := record
    exact record.truthy

theorem storeResultForRetrieveId_adopts (path : String) (object : Value) :
    Triple (Told n about fun s => Adopted n about earlier (about definition = true) s ∧
        Found n about definition object)
      (storeResultForRetrieveId object path) (fun _ => Told n about (Recorded n about earlier definition))
      fun _ => Told n about (Adopted n about earlier False) := by
  have grows : Within (Grows State.log (fun _ => False) fun _ => False) (storeResultForRetrieveId object path) :=
    storeResultForRetrieveId_within (grows_offline fun _ _ => ⟨id, id⟩) object path
  refine told_triple (fun s => ?_) fun s truthful ⟨adopted, m, record, same⟩ => ?_
  · obtain ⟨events, grown, _⟩ := grows s
    exact ⟨events, grown⟩
  obtain ⟨definitions, run, all, names⟩ := storeResultForRetrieveId_run record path adopted.storable
  rw [run]
  intro _
  refine ⟨⟨?_, adopted.kept, ?_⟩, fun asks => adopted.asked.mpr (.inl asks)⟩
  · simpa only [State.Storable, recordResult_resourceDefinitions, Option.getD_some] using all
  · simp only [State.Stored, recordResult_resourceDefinitions, Option.getD_some, false_or]
    rw [adopted.asked, names, ← same]
    exact or_congr_left eq_comm

theorem doResourceCreate_adopts :
    Triple (Told n about fun s => Adopted n about earlier (about definition = true) s ∧
        (about definition = true → s.runtime.performTask.getD false = false ∧
          ∃ annotations, customAnnotations definition = .ok annotations))
      (doResourceCreate kube mapping definition)
      (fun object => Told n about fun s => Adopted n about earlier (about definition = true) s ∧
        Found n about definition object)
      fun _ => Told n about (Adopted n about earlier False) := by
  refine told_triple (fun s => steps_extend (doResourceCreate_steps trivial trivial s :
    Steps kube (fun _ => True) s _)) fun s truthful ⟨adopted, settled⟩ => ?_
  have told : Told n about (Adopted n about earlier (about definition = true)) s := fun _ => adopted
  have abandoned {s' : State} (adopted : Adopted n about earlier (about definition = true) s')
      (other : ¬ about definition = true) : Adopted n about earlier False s' := adopted.congr (by simp [other])
  cases flag : s.runtime.performTask.getD false with
  | true =>
    have other : ¬ about definition = true := fun asks => by
      rw [(settled asks).1] at flag
      cases flag
    rw [doResourceCreate_up flag]
    have create := (editedCall_run kube ⟨.create, mapping, definition⟩ s).adopts told
    generalize editedCall kube ⟨.create, mapping, definition⟩ s = ran at create ⊢
    obtain ⟨e | object, s'⟩ := ran
    · exact fun truthful => abandoned (create truthful).1 other
    · intro truthful
      obtain ⟨adopted, record, _⟩ := create truthful
      exact ⟨adopted.congr (by simp [Event.asks]), record⟩
  | false =>
    rw [doResourceCreate_down flag]
    rcases setCustomResource_run definition s with ⟨e, failed, run⟩ | ⟨options, _, _, run⟩
    · rw [bind_run_error run]
      refine fun _ => abandoned adopted fun asks => ?_
      obtain ⟨annotations, readable⟩ := (settled asks).2
      cases readable.symm.trans failed
    · rw [bind_run_ok run]
      have edited : Adopted n about earlier (about definition = true)
          { s with options, log := s.log ++ [.edited definition] } :=
        adopted.quiet rfl rfl (by simp [Event.call?])
      have read := (doResourceRead_run kube .task mapping definition _).adopts fun _ => edited
      generalize doResourceRead kube .task mapping definition _ = ran at read ⊢
      obtain ⟨e | object, s'⟩ := ran
      · intro truthful
        obtain ⟨adopted, unasked⟩ := read truthful
        refine abandoned adopted fun asks => ?_
        obtain ⟨annotations, readable⟩ := (settled asks).2
        obtain ⟨e', failed⟩ := (unasked asks).2
        cases readable.symm.trans failed
      · intro truthful
        obtain ⟨adopted, record, _⟩ := read truthful
        exact ⟨adopted.congr (by simp [Event.asks]), record⟩

theorem handleExistingResource_refusing {node : Node} (own : node.useExternalResource = false)
    (refusing : node.useIfExists = false) (found : Value) :
    handleExistingResource node found = setPerformTask !found.truthy := by
  unfold handleExistingResource
  cases found.truthy <;> simp [own, refusing]

theorem fileResourceCreateTask_adopts {node : Node} (own : node.useExternalResource = false)
    (refusing : node.useIfExists = false) (path : String) :
    Triple (Told n about (Adopted n about earlier False)) (fileResourceCreateTask kube node path mapping definition)
      (fun _ => Told n about (Recorded n about earlier definition)) fun _ => Told n about (Adopted n about earlier False) := by
  refine (checkIfResourceExists_adopts .beforeCreate).bind fun found => ?_
  rw [handleExistingResource_refusing own refusing]
  intro s checked
  rw [bind_run_ok (setPerformTask_run _ _), bind_run_ok (getPerformTask_run _)]
  simp only [Option.getD_some]
  cases truthy : found.truthy with
  | true =>
    refine storeResultForRetrieveId_adopts path found _ fun truthful => ?_
    obtain ⟨checked, record⟩ := checked truthful
    exact ⟨checked.adopted.quiet (List.append_nil _).symm rfl (by simp), record truthy⟩
  | false =>
    refine (doResourceCreate_adopts.bind fun object => storeResultForRetrieveId_adopts path object) _
      fun truthful => ?_
    obtain ⟨checked, _⟩ := checked truthful
    refine ⟨checked.adopted.quiet (List.append_nil _).symm rfl (by simp), fun asks => ?_⟩
    rw [(checked.settled asks).1] at truthy
    cases truthy

theorem resourceCreateTask_adopts :
    Triple (Told n about fun s => Adopted n about earlier (about definition = true) s ∧
        (about definition = true → s.runtime.performTask.getD false = false ∧
          ∃ annotations, customAnnotations definition = .ok annotations))
      (resourceCreateTask kube mapping definition)
      (fun object => Told n about fun s => Adopted n about earlier (about definition = true) s ∧
        Found n about definition object)
      fun _ => Told n about (Adopted n about earlier False) := by
  intro s ready
  have create : Outcome _ _ (doResourceCreate kube mapping definition s) := doResourceCreate_adopts s ready
  rw [resourceCreateTask, bind_run_ok (attempt_run _ _)]
  generalize doResourceCreate kube mapping definition s = ran at create ⊢
  obtain ⟨e | object, s'⟩ := ran
  · dsimp only
    split <;> exact create
  · exact create

theorem storing_adopts {node : Node} (own : node.useExternalResource = false)
    (refusing : node.useIfExists = false) {create : Task Value} (path : String)
    (creates : Triple (Told n about fun s => Adopted n about earlier (about definition = true) s ∧
        (about definition = true → s.runtime.performTask.getD false = false ∧
          ∃ annotations, customAnnotations definition = .ok annotations)) create
      (fun object => Told n about fun s => Adopted n about earlier (about definition = true) s ∧
        Found n about definition object)
      fun _ => Told n about (Adopted n about earlier False)) (found : Value) :
    Triple (Told n about (Checked n about earlier definition found)) (do
        handleExistingResource node found
        let result ← create
        storeResultForRetrieveId result path)
      (fun _ => Told n about (Recorded n about earlier definition))
      fun _ => Told n about (Adopted n about earlier False) := by
  rw [handleExistingResource_refusing own refusing]
  intro s checked
  rw [bind_run_ok (setPerformTask_run _ _)]
  refine (creates.bind fun object => storeResultForRetrieveId_adopts path object) _ fun truthful => ?_
  obtain ⟨adopted, settled⟩ := checked truthful
  refine ⟨adopted.quiet (List.append_nil _).symm rfl (by simp), fun asks => ?_⟩
  obtain ⟨truthy, readable⟩ := settled asks
  exact ⟨by simp [truthy], readable⟩

theorem recordedState_run (path : String) (s : State) :
    ∃ found, recordedState path s = (.ok found, s) := by
  unfold recordedState
  rw [bind_run_ok (getRuntime_run _)]
  split
  · exact ⟨_, rfl⟩
  · exact ⟨_, rfl⟩

/-- A round of the decorator, by what holds when the current state has been found. -/
theorem definitionTask_adopts {node : Node} {operation : ResourceTask} (path : String)
    (middle : Value → State → Prop)
    (mapped : Triple (Told n about (Adopted n about earlier False)) (operation.retrieveMapping definition)
      (fun _ => Told n about (Adopted n about earlier False))
      fun _ => Told n about (Adopted n about earlier False))
    (state : ∀ stateFunction ∈ operation.resourceStateFunction, ∀ mapping,
      Triple (Told n about (Adopted n about earlier False)) (stateFunction mapping definition)
        (fun found => Told n about (middle found)) fun _ => Told n about (Adopted n about earlier False))
    (recorded : (operation.resourceStateFunction.isSome = true →
        ∃ name, definition.metadata.get "name" .none = .ok name ∧ name.truthy = false) →
      ∀ found s, Adopted n about earlier False s → middle found s)
    (task : ∀ mapping found, Triple (Told n about (middle found)) (do
        handleExistingResource node found
        operation.task path mapping definition)
      (fun _ => Told n about (Recorded n about earlier definition))
      fun _ => Told n about (Adopted n about earlier False))
    (keeping : operation.cleanupRuntimeProperties = false) :
    Triple (Told n about (Adopted n about earlier False)) (definitionTask node operation path definition)
      (fun _ => Told n about (Recorded n about earlier definition))
      fun _ => Told n about (Adopted n about earlier False) := by
  have ending (mapping : KubernetesApiMapping) (found : Value) : Triple (Told n about (middle found)) (do
      handleExistingResource node found
      operation.task path mapping definition
      modifyRuntime fun runtime => { runtime with performTask := none }
      if found.truthy && operation.cleanupRuntimeProperties then modifyRuntime (dropRecord path))
      (fun _ => Told n about (Recorded n about earlier definition))
      fun _ => Told n about (Adopted n about earlier False) := by
    have closing : Triple (Told n about (Recorded n about earlier definition)) (do
        modifyRuntime fun runtime => { runtime with performTask := none }
        if found.truthy && operation.cleanupRuntimeProperties then modifyRuntime (dropRecord path))
        (fun _ => Told n about (Recorded n about earlier definition))
        fun _ => Told n about (Adopted n about earlier False) := by
      intro s ended
      simp only [keeping, Bool.and_false, Bool.false_eq_true, if_false, bind_run, modifyRuntime_run]
      intro truthful
      obtain ⟨adopted, asked⟩ := ended truthful
      exact ⟨adopted.quiet (List.append_nil _).symm rfl (by simp), asked⟩
    have whole := (task mapping found).bind fun _ => closing
    rwa [bind_assoc] at whole
  have unread (mapping : KubernetesApiMapping)
      (free : operation.resourceStateFunction.isSome = true →
        ∃ name, definition.metadata.get "name" .none = .ok name ∧ name.truthy = false) :
      Triple (Told n about (Adopted n about earlier False)) (do
        let found ← recordedState path
        handleExistingResource node found
        operation.task path mapping definition
        modifyRuntime fun runtime => { runtime with performTask := none }
        if found.truthy && operation.cleanupRuntimeProperties then modifyRuntime (dropRecord path))
      (fun _ => Told n about (Recorded n about earlier definition))
      fun _ => Told n about (Adopted n about earlier False) := by
    intro s adopted
    obtain ⟨found, run⟩ := recordedState_run path s
    rw [bind_run_ok run]
    exact ending mapping found s fun truthful => recorded free found s (adopted truthful)
  refine mapped.bind fun mapping => ?_
  intro s adopted
  rw [bind_run, ofExcept_run]
  cases named : definition.metadata.get "name" .none with
  | error e => exact adopted
  | ok resourceId =>
    dsimp only
    cases function : operation.resourceStateFunction with
    | none => exact unread mapping (by simp [function]) s adopted
    | some stateFunction =>
      dsimp only
      cases truthy : resourceId.truthy with
      | true => exact ((state stateFunction function mapping).bind fun found => ending mapping found) s adopted
      | false => exact unread mapping (fun _ => ⟨resourceId, named, truthy⟩) s adopted

theorem Recorded.passed {s : State} (ended : Recorded n about earlier definition s) :
    Adopted n about (earlier ∨ about definition = true) False s where
  storable := ended.adopted.storable
  kept settled := settled.elim ended.adopted.kept ended.asked
  asked := ended.adopted.asked

theorem Adopted.weaken {s : State} (adopted : Adopted n about earlier pending s) {weaker : Prop}
    (weakened : weaker → earlier) : Adopted n about weaker pending s where
  storable := adopted.storable
  kept settled := adopted.kept (weakened settled)
  asked := adopted.asked

def Leaves (n : ObjectName) (about : KubernetesResourceDefinition → Bool) {α : Type} (p : Task α)
    (definitions : List KubernetesResourceDefinition) : Prop :=
  ∀ earlier, Triple (Told n about (Adopted n about earlier False)) p
    (fun _ => Told n about (Adopted n about (earlier ∨ ∃ d ∈ definitions, about d = true) False))
    fun _ => Told n about (Adopted n about False False)

theorem leaves_forEach {α : Type} {body : α → Task Unit} {definitions : α → List KubernetesResourceDefinition}
    (each : ∀ item, Leaves n about (body item) (definitions item)) (items : List α) :
    Leaves n about (Program.forEach items body) (items.flatMap definitions) := by
  intro earlier
  let invariant (done : List α) : State → Prop := Told n about
    (Adopted n about (earlier ∨ ∃ d ∈ done.flatMap definitions, about d = true) False)
  have rounds (done : List α) (item : α) : Triple (invariant done) (body item)
      (fun _ => invariant (done ++ [item])) fun _ => Told n about (Adopted n about False False) := by
    refine (each item _).weaken (fun _ holds => holds) (fun _ s left truthful => ?_) fun _ _ holds => holds
    refine (left truthful).weaken fun settled => ?_
    simpa only [List.flatMap_append, List.flatMap_singleton, List.mem_append, or_and_right, exists_or,
      or_assoc] using settled
  refine (Triple.forEach_upTo rounds [] items).weaken (fun s adopted truthful => ?_) (fun _ _ holds => holds)
    fun _ _ holds => holds
  exact (adopted truthful).weaken (by simp)

theorem leaves_resourceTask {node : Node} {operation : ResourceTask} (file : Option String)
    (definitions : List KubernetesResourceDefinition)
    (round : ∀ earlier path definition, Triple (Told n about (Adopted n about earlier False))
      (definitionTask node operation path definition)
      (fun _ => Told n about (Recorded n about earlier definition))
      fun _ => Told n about (Adopted n about earlier False)) :
    Leaves n about (resourceTask node operation file definitions) definitions := by
  have rounds : Leaves n about (multidefinitionResourceTask node operation file definitions) definitions := by
    have each (indexed : KubernetesResourceDefinition × Nat) : Leaves n about
        (definitionTask node operation (definitionPath node file (definitions.length > 1) indexed.2) indexed.1)
        [indexed.1] := by
      intro earlier
      refine (round earlier _ _).weaken (fun _ holds => holds) (fun _ s ended truthful => ?_)
        fun _ s adopted truthful => (adopted truthful).weaken (by simp)
      exact (ended truthful).passed.weaken (by simp)
    have all := leaves_forEach each definitions.zipIdx
    have same : definitions.zipIdx.flatMap (fun indexed => [indexed.1]) = definitions := by
      rw [← List.map_eq_flatMap, List.zipIdx_map_fst]
    rw [same] at all
    exact fun earlier => (all earlier).bind fun _ => .pure _ fun _ holds => holds
  intro earlier s adopted
  have ran := rounds earlier s adopted
  rw [resourceTask, bind_run_ok (attempt_run _ _)]
  generalize multidefinitionResourceTask node operation file definitions s = result at ran ⊢
  obtain ⟨e | value, s'⟩ := result <;> exact ran

theorem leaves_multipleFileResource {operation : Option String → List KubernetesResourceDefinition → Task Unit}
    (each : ∀ file definitions, Leaves n about (operation file definitions) definitions)
    (files : List (String × List KubernetesResourceDefinition)) :
    Leaves n about (multipleFileResource operation files) (files.flatMap Prod.snd) := by
  intro earlier
  unfold multipleFileResource
  split
  · exact .raise _ fun s adopted truthful => (adopted truthful).weaken (by simp)
  · have single (entry : String × List KubernetesResourceDefinition) :
        Leaves n about (operation (some entry.1) entry.2) (Prod.snd entry) := each _ _
    exact (leaves_forEach single files earlier).bind fun _ => .pure _ fun _ holds => holds

end

section

variable {n : ObjectName} {about : KubernetesResourceDefinition → Bool} {kube : Kubernetes} {node : Node}
  {definition : KubernetesResourceDefinition} {earlier : Prop}

theorem chooseMapping_adopts :
    Triple (Told n about (Adopted n about earlier False)) (chooseMapping definition)
      (fun _ => Told n about (Adopted n about earlier False))
      fun _ => Told n about (Adopted n about earlier False) := by
  intro s adopted
  have kept : Told n about (Adopted n about earlier False) (chooseMapping definition s).2 := by
    rw [chooseMapping_run]
    exact fun truthful => (adopted truthful.of_append).quiet rfl rfl (by simp [Event.call?])
  generalize chooseMapping definition s = ran at kept ⊢
  obtain ⟨e | mapping, s'⟩ := ran <;> exact kept

theorem leaves_fileResourceCreate (own : node.useExternalResource = false)
    (refusing : node.useIfExists = false) (file : Option String)
    (definitions : List KubernetesResourceDefinition) :
    Leaves n about (fileResourceCreate kube node file definitions) definitions := by
  refine leaves_resourceTask file definitions fun earlier path definition => ?_
  refine definitionTask_adopts path (fun _ => Adopted n about earlier False) chooseMapping_adopts
    (by simp) (fun _ _ _ adopted => adopted) (fun mapping found => ?_) rfl
  rw [handleExistingResource_refusing own refusing]
  intro s adopted
  rw [bind_run_ok (setPerformTask_run _ _)]
  exact fileResourceCreateTask_adopts own refusing path _ fun truthful =>
    (adopted truthful).quiet (List.append_nil _).symm rfl (by simp)

/-- The creation of one resource, whose state function asks the API. -/
theorem leaves_create (own : node.useExternalResource = false) (refusing : node.useIfExists = false)
    (named : ∀ definition, about definition = true →
      ∃ name, definition.metadata.get "name" .none = .ok name ∧ name.truthy = true)
    {operation : ResourceTask} {create : KubernetesApiMapping → KubernetesResourceDefinition → Task Value}
    (task : operation.task = fun _ mapping definition => do
      let result ← create mapping definition
      storeResultForRetrieveId result "")
    (state : operation.resourceStateFunction = some (checkIfResourceExists kube .stateFunction))
    (keeping : operation.cleanupRuntimeProperties = false)
    (mapped : ∀ earlier definition, Triple (Told n about (Adopted n about earlier False))
      (operation.retrieveMapping definition) (fun _ => Told n about (Adopted n about earlier False))
      fun _ => Told n about (Adopted n about earlier False))
    (creates : ∀ earlier mapping definition,
      Triple (Told n about fun s => Adopted n about earlier (about definition = true) s ∧
          (about definition = true → s.runtime.performTask.getD false = false ∧
            ∃ annotations, customAnnotations definition = .ok annotations)) (create mapping definition)
        (fun object => Told n about fun s => Adopted n about earlier (about definition = true) s ∧
          Found n about definition object)
        fun _ => Told n about (Adopted n about earlier False)) (definition : KubernetesResourceDefinition) :
    Leaves n about (resourceTask node operation none [definition]) [definition] := by
  refine leaves_resourceTask none [definition] fun earlier path definition =>
    definitionTask_adopts path (Checked n about earlier definition) (mapped _ _) ?_ ?_ ?_ keeping
  · intro stateFunction function mapping
    rw [state, Option.mem_some_iff] at function
    subst function
    exact (checkIfResourceExists_adopts .stateFunction).weaken (fun _ holds => holds)
      (fun found s checked truthful => (checked truthful).1) fun _ _ holds => holds
  · intro free found s adopted
    have other : ¬ about definition = true := by
      intro asks
      obtain ⟨name, given, truthy⟩ := named definition asks
      obtain ⟨name', given', falsy⟩ := free (by rw [state]; rfl)
      cases given.symm.trans given'
      rw [falsy] at truthy
      cases truthy
    exact ⟨adopted.congr (by simp [other]), fun asks => absurd asks other⟩
  · intro mapping found
    rw [task]
    exact storing_adopts own refusing "" (creates _ mapping _) found

variable {ctx : OperationContext} {operation : Operation} {definitions : List KubernetesResourceDefinition}

theorem Operation.run_leaves (own : node.useExternalResource = false) (refusing : node.useIfExists = false)
    (named : ∀ definition, about definition = true →
      ∃ name, definition.metadata.get "name" .none = .ok name ∧ name.truthy = true)
    (creates : operation.created = some definitions) :
    Leaves n about (operation.run kube node ctx) definitions := by
  cases operation with
  | resourceCreate definition =>
    cases creates
    exact leaves_create own refusing named rfl rfl rfl (fun _ _ => chooseMapping_adopts)
      (fun _ _ _ => resourceCreateTask_adopts) definition
  | customResourceCreate definition =>
    cases creates
    have mapped (earlier : Prop) (definition : KubernetesResourceDefinition) :
        Triple (Told n about (Adopted n about earlier False))
          ((fun _ => Program.ofExcept (mappingByData node)) definition)
          (fun _ => Told n about (Adopted n about earlier False))
          fun _ => Told n about (Adopted n about earlier False) :=
      .ofExcept (fun _ _ _ holds => holds) fun _ _ _ holds => holds
    exact leaves_create own refusing named rfl rfl rfl mapped (fun _ _ _ => doResourceCreate_adopts) definition
  | fileResourceCreate file definitions =>
    cases creates
    exact leaves_fileResourceCreate own refusing file definitions
  | multipleFileResourceCreate files =>
    cases creates
    exact leaves_multipleFileResource (leaves_fileResourceCreate own refusing) files
  | _ => cases creates

abbrev Asking (about : KubernetesResourceDefinition → Bool) : State → State → Prop :=
  Grows State.log (fun e => e.asks about = true) fun e => e.asks about = true ∨ e.deletes about = true

theorem asking_offline : Offline (Asking about) :=
  grows_offline fun e free => by cases e <;> simp_all [Event.call?, Event.asks, Event.deletes]

theorem asking_of_steps {allowed : Verb → Prop} {s s' : State} (steps : Steps kube allowed s s')
    (sparing : ∀ resourceId, ¬ allowed (.delete resourceId)) : Asking about s s' := by
  refine steps_grow_same steps fun e permitted => or_iff_left fun deletes => ?_
  cases e with
  | called c =>
    obtain ⟨verb, mapping, definition⟩ := c
    cases verb with
    | delete resourceId => exact sparing resourceId (permitted _ rfl)
    | _ => cases deletes
  | _ => cases deletes

theorem doResourceDelete_asking {mapping : KubernetesApiMapping} (resourceId : Value) :
    Within (Asking about) (doResourceDelete kube node mapping definition resourceId) := by
  intro s
  cases relevant : about definition with
  | false =>
    obtain ⟨events, grown, calls⟩ := doResourceDelete_calls kube node mapping definition resourceId s
    refine .of_neutral grown fun e member => ?_
    have other (c : ClientCall) (call : e.call? = some c) : about c.definition = false := by
      rw [(calls e member c call).2, relevant]
    have spared : e.asks about = false ∧ e.deletes about = false := by
      cases e with
      | called c =>
        have unrelated := other c rfl
        obtain ⟨verb, _, _⟩ := c
        cases verb <;> exact ⟨by first | rfl | exact unrelated, by first | rfl | exact unrelated⟩
      | _ => exact ⟨rfl, rfl⟩
    simp [spared]
  | true =>
    have run := doResourceDelete_run kube node mapping definition resourceId s
    generalize doResourceDelete kube node mapping definition resourceId s = ran at run ⊢
    have asked {s' : State} {checked : Except Exception Value} {events : List Event} (more : List Event)
        (grown : s'.log = s.log ++ .edited definition :: .edited definition :: (events ++ more))
        (check : CallEvents ⟨.read .beforeDelete, mapping, definition⟩ checked events) :
        Asking about s s' := by
      have member : .called ⟨.read .beforeDelete, mapping, definition⟩ ∈ events :=
        (check.mem_iff (by simp)).mpr (.inl rfl)
      have asks : (Event.called ⟨.read .beforeDelete, mapping, definition⟩).asks about = true := relevant
      exact .of_both grown ⟨_, by simp [member], .inl asks⟩ ⟨_, by simp [member], asks⟩
    cases run with
    | malformed e failed => exact .of_eq rfl
    | unchecked readable checked e options events check failed =>
      exact asked [] (by simp) check
    | withheld readable checked found options events check answered expected =>
      exact asked [] (by simp) check
    | deleted readable checked found options events check answered unexpected result events' delete =>
      exact asked events' rfl check

theorem fileResourceDelete_asking (file : Option String) (definitions : List KubernetesResourceDefinition) :
    Within (Asking about) (fileResourceDelete kube node file definitions) := by
  have reads (site : Site) (mapping : KubernetesApiMapping) (definition : KubernetesResourceDefinition) :
      Within (Asking about) (doResourceRead kube site mapping definition) := fun s =>
    asking_of_steps (doResourceRead_steps ⟨site, rfl⟩ s : Reads kube s _) fun _ ⟨_, same⟩ => by cases same
  have updates (mapping : KubernetesApiMapping) (definition : KubernetesResourceDefinition) :
      Within (Asking about) (doResourceUpdate kube mapping definition) := fun s =>
    asking_of_steps (doResourceUpdate_steps (by rfl) s : Steps kube (fun verb => verb = .update) s _)
      fun _ same => by cases same
  exact resourceTask_of_task asking_offline _ _ _ _ asking_offline.mapped
    (by simpa using fun _ _ => checkIfResourceExists_within (reads _ _ _)) fun _ _ _ =>
      getRuntime_within.bind fun _ => fileResourceDeleteTask_within asking_offline _ _ _
        (fun _ _ _ => grows_record (by simp [Event.asks, Event.deletes])) (reads _) fun _ _ _ =>
        deleteWhileAdjacentResources_within asking_offline _ _ _ doResourceDelete_asking
          (preparePvcDelete_within (updates _))

theorem Operation.run_asking (operation : Operation) : Within (Asking about) (operation.run kube node ctx) := by
  have reads (site : Site) (mapping : KubernetesApiMapping) (definition : KubernetesResourceDefinition) :
      Within (Asking about) (doResourceRead kube site mapping definition) := fun s =>
    asking_of_steps (doResourceRead_steps ⟨site, rfl⟩ s : Reads kube s _) fun _ ⟨_, same⟩ => by cases same
  have check (site : Site) (mapping : KubernetesApiMapping) (definition : KubernetesResourceDefinition) :
      Within (Asking about) (checkIfResourceExists kube site mapping definition) :=
    checkIfResourceExists_within (reads site mapping definition)
  have state : ∀ stateFunction ∈ some (checkIfResourceExists kube .stateFunction), ∀ mapping definition,
      Within (Asking about) (stateFunction mapping definition) := by
    simpa using check .stateFunction
  by_cases deletes : ∃ resourceId, operation.uses (.delete resourceId)
  · cases operation with
    | resourceDelete definition =>
      exact resourceTask_of_task asking_offline _ _ _ _ asking_offline.mapped state fun _ _ _ =>
        deleteUnlessMissing_within asking_offline _ _ (fun _ _ _ => .pure _) (reads _ _ _)
          fun _ _ name _ => doResourceDelete_asking name
    | customResourceDelete definition =>
      exact resourceTask_of_task asking_offline _ _ _ _ (fun _ => .ofExcept _) state fun _ _ _ =>
        deleteUnlessMissing_within asking_offline _ _ (fun _ _ _ => check _ _ _) (reads _ _ _)
          fun _ _ name _ => doResourceDelete_asking name
    | fileResourceDelete file definitions => exact fileResourceDelete_asking file definitions
    | multipleFileResourceDelete files => exact multipleFileResource_within fileResourceDelete_asking files
    | _ => simp [Operation.uses] at deletes
  · rw [not_exists] at deletes
    exact fun s => asking_of_steps (Operation.run_steps kube node ctx operation (fun _ => id) s) deletes

end

/-- With a truthful API a create operation on a node that may not use the resource fails instead of
    storing it exactly if it ends before it asks for it; and if nothing ever asks for it, then the
    attempts that follow do not delete it either. -/
theorem Operation.refused_iff (kube : Kubernetes) (node : Node) (ctx : OperationContext)
    (operation : Operation) (definitions : List KubernetesResourceDefinition) (s : State) (n : ObjectName)
    (about : KubernetesResourceDefinition → Bool)
    (attempted : List (OperationContext × Operation))
    (own : node.useExternalResource = false) (refusing : node.useIfExists = false)
    (creates : operation.created = some definitions) (included : ∃ d ∈ definitions, about d = true)
    (named : ∀ definition, about definition = true →
      ∃ name, definition.metadata.get "name" .none = .ok name ∧ name.truthy = true)
    (fresh : s.log = []) (unrecorded : s.runtime.resourceDefinitions = none)
    (truthful : Truthful n about (operation.run kube node ctx s).2.log) :
    let created := operation.run kube node ctx s
    let ended := attempts kube node s.options attempted created.2
    (((∃ e, created.1 = .error e) ∧ ¬ created.2.Stored n) ↔
      ∀ e ∈ created.2.log, e.asks about = false) ∧
    ((∀ e ∈ ended.2.log, e.asks about = false) → ∀ e ∈ ended.2.log, e.deletes about = false) := by
  intro created ended
  have unasked (log : List Event) (p : Event → Bool) :
      (∀ e ∈ log, p e = false) ↔ ¬ ∃ e ∈ log, p e = true := by simp
  have initial : Told n about (Adopted n about False False) s := fun _ =>
    { storable := by simp [State.Storable, AllNamed, unrecorded]
      kept := False.elim
      asked := by simp [fresh, State.Stored, unrecorded] }
  have left : Outcome _ _ created := Operation.run_leaves own refusing named creates False s initial
  constructor
  · change Truthful n about created.2.log at truthful
    rw [unasked]
    generalize created = ran at left truthful ⊢
    obtain ⟨e | value, s'⟩ := ran
    · have asked := (left truthful).asked
      simp only [asked, false_or, Except.error.injEq, exists_eq', true_and]
    · have asked := (left truthful).kept (.inr included)
      refine iff_of_false ?_ (not_not_intro asked)
      rintro ⟨⟨e, failed⟩, _⟩
      cases failed
  · intro silent
    have followed : Within (Asking about) (attempts kube node s.options attempted) :=
      Within.forEach fun _ _ => Within.bind (Within.modify fun _ => .of_eq rfl)
        fun _ => (Operation.run_asking _).attempt
    have whole : Asking about s ended.2 := IsTrans.trans _ _ _ (Operation.run_asking operation s) (followed _)
    have balanced := whole.iff_of_empty fresh
    rw [unasked] at silent ⊢
    rintro ⟨e, member, deletes⟩
    exact silent (balanced.mp ⟨e, member, .inr deletes⟩)

open Package

def settings : ObjectName := ⟨"ConfigMap", "settings", "default"⟩

def refusingNode : Node := { ownNode with useIfExists := false, file := some "config.yaml" }

def Event.gives (n : ObjectName) (about : KubernetesResourceDefinition → Bool) : Event → Bool
  | .returned c result => about c.definition &&
    match result >>= jsonCleanuper with
    | .ok object => decide (IsRecord n object)
    | .error _ => false
  | _ => true

theorem Truthful.of_gives {n : ObjectName} {about : KubernetesResourceDefinition → Bool} {log : List Event}
    (gives : ∀ e ∈ log, e.gives n about = true) : Truthful n about log := by
  have answered (c : ClientCall) (result : Except Exception Value) (member : .returned c result ∈ log) :
      about c.definition = true ∧ ∃ object, result >>= jsonCleanuper = .ok object ∧ IsRecord n object := by
    have given := gives _ member
    simp only [Event.gives, Bool.and_eq_true] at given
    obtain ⟨relevant, object⟩ := given
    cases cleaned : result >>= jsonCleanuper with
    | error e => simp [cleaned] at object
    | ok found => exact ⟨relevant, found, rfl, by simpa [cleaned] using object⟩
  constructor
  · intro site mapping definition result member _
    obtain ⟨_, object, cleaned, _⟩ := answered _ result member
    rw [cleaned]
    rfl
  · intro c result object member given
    obtain ⟨relevant, object', cleaned, record⟩ := answered c result member
    cases cleaned.symm.trans given
    exact ⟨n, record, by simp [relevant]⟩

/-- The creation of a config map that exists already succeeds, and the uninstall deletes it. -/
theorem foreign_adopted :
    let created := (Operation.fileResourceCreate none [configMap "settings" none]).run everything
      refusingNode install mainNamespace
    let ended := attempts everything refusingNode mainNamespace.options
      [(install, .fileResourceDelete none [configMap "settings" none])] created.2
    created.1.isOk = true ∧ ¬ ∀ e ∈ ended.2.log, e.deletes (fun d => d.Names settings) = false := by
  constructor <;> decide +kernel

theorem refused_iff_settings :
    let created := (Operation.fileResourceCreate none [configMap "settings" none]).run everything
      refusingNode install mainNamespace
    let ended := attempts everything refusingNode mainNamespace.options
      [(install, .fileResourceDelete none [configMap "settings" none])] created.2
    (((∃ e, created.1 = .error e) ∧ ¬ created.2.Stored settings) ↔
      ∀ e ∈ created.2.log, e.asks (fun d => d.Names settings) = false) ∧
    ((∀ e ∈ ended.2.log, e.asks (fun d => d.Names settings) = false) →
      ∀ e ∈ ended.2.log, e.deletes (fun d => d.Names settings) = false) := by
  refine Operation.refused_iff everything refusingNode install _ [configMap "settings" none] mainNamespace
    settings _ _ rfl rfl rfl ⟨configMap "settings" none, by simp, by decide +kernel⟩ ?_ rfl rfl ?_
  · intro definition names
    rw [decide_eq_true_eq] at names
    exact ⟨_, names.name, rfl⟩
  · exact .of_gives (by decide +kernel)

end CloudifyKubernetes
