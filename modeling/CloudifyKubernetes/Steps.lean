import CloudifyKubernetes.ApiRuns
import CloudifyKubernetes.Effects.Growth
import CloudifyKubernetes.Offline

namespace CloudifyKubernetes

open Collections Effects Program Relation

/-- Everything that can happen to the state of a node instance: its runtime properties change,
    a mapping is chosen, a definition edits the options, and the client is called for a verb
    that is allowed and for the definition of the last edit. -/
inductive Step (kube : Kubernetes) (allowed : Verb → Prop) : State → State → Prop
  | runtime (s : State) (runtime : RuntimeProperties) : Step kube allowed s { s with runtime }
  | entered (s : State) (path : String) (mapping : KubernetesApiMapping)
      (definition : KubernetesResourceDefinition) (runtime : RuntimeProperties) :
      Step kube allowed s { s with log := s.log ++ [.entered path mapping definition runtime] }
  | mapped (s : State) (definition : KubernetesResourceDefinition) :
      Step kube allowed s { s with
        log := s.log ++ [.mapped definition (mappingByKind s.options.keys definition)] }
  | edited (s : State) (definition : KubernetesResourceDefinition) (options : Dict)
      (edit : customResourceEdit definition s.options = .ok options) :
      Step kube allowed s { s with options, log := s.log ++ [.edited definition] }
  | called (s : State) (c : ClientCall) (permitted : allowed c.verb)
      (aimed : lastEdited s.log = some c.definition) :
      Step kube allowed s (clientCall kube c s).2

abbrev Steps (kube : Kubernetes) (allowed : Verb → Prop) : State → State → Prop :=
  ReflTransGen (Step kube allowed)

section

variable {kube : Kubernetes} {allowed : Verb → Prop}

theorem chooseMapping_steps (definition : KubernetesResourceDefinition) :
    Within (Steps kube allowed) (chooseMapping definition) := by
  intro s
  rw [chooseMapping_run]
  exact .single (.mapped s definition)

theorem steps_offline : Offline (Steps kube allowed) where
  runtime s runtime := .single (.runtime s runtime)
  mapped := chooseMapping_steps

def Aiming (kube : Kubernetes) (allowed : Verb → Prop) (definition : KubernetesResourceDefinition)
    (s s' : State) : Prop :=
  lastEdited s.log = some definition → lastEdited s'.log = some definition ∧ Steps kube allowed s s'

instance (definition : KubernetesResourceDefinition) : Std.Refl (Aiming kube allowed definition) :=
  ⟨fun _ aimed => ⟨aimed, .refl⟩⟩

instance (definition : KubernetesResourceDefinition) :
    IsTrans State (Aiming kube allowed definition) where
  trans _ _ _ first second aimed :=
    have ⟨aimed', steps⟩ := first aimed
    have ⟨aimed'', steps'⟩ := second aimed'
    ⟨aimed'', steps.trans steps'⟩

theorem lastEdited_append {log events : List Event} (unedited : ∀ e ∈ events, e.edited? = none) :
    lastEdited (log ++ events) = lastEdited log := by
  have none : events.filterMap Event.edited? = [] := List.filterMap_eq_nil_iff.mpr unedited
  rw [lastEdited, List.filterMap_append, none, List.append_nil, lastEdited]

theorem lastEdited_concat_edited (log : List Event) (definition : KubernetesResourceDefinition) :
    lastEdited (log ++ [.edited definition]) = some definition := by
  simp [lastEdited, Event.edited?]

variable {definition : KubernetesResourceDefinition}

theorem edited_steps {α : Type} {rest : Task α} (aiming : Within (Aiming kube allowed definition) rest) :
    Within (Steps kube allowed) (setCustomResource definition >>= fun _ => rest) := by
  intro s
  rcases setCustomResource_run definition s with ⟨e, _, run⟩ | ⟨options, _, edit, run⟩
  · rw [bind_run_error run]
  · rw [bind_run_ok run]
    exact .head (.edited s definition options edit)
      (aiming _ (lastEdited_concat_edited _ _)).2

theorem edited_aiming {α : Type} {rest : Task α} (aiming : Within (Aiming kube allowed definition) rest) :
    Within (Aiming kube allowed definition) (setCustomResource definition >>= fun _ => rest) := by
  intro s aimed
  refine ⟨?_, edited_steps aiming s⟩
  rcases setCustomResource_run definition s with ⟨e, _, run⟩ | ⟨options, _, edit, run⟩
  · rwa [bind_run_error run]
  · rw [bind_run_ok run]
    exact (aiming _ (lastEdited_concat_edited _ _)).1

theorem clientCall_lastEdited (c : ClientCall) (s : State) :
    lastEdited (clientCall kube c s).2.log = lastEdited s.log := by
  obtain ⟨sent, log, issued⟩ := (clientCall_run kube c s).log
  rw [log]
  apply lastEdited_append
  intro e member
  rcases List.mem_cons.mp member with rfl | member
  · rfl
  · rcases sent_events issued e member with ⟨request, answer, rfl⟩ | rfl <;> rfl

variable {mapping : KubernetesApiMapping}

theorem clientCall_aiming (verb : Verb) (permitted : allowed verb) :
    Within (Aiming kube allowed definition) (clientCall kube ⟨verb, mapping, definition⟩) :=
  fun s aimed => ⟨(clientCall_lastEdited _ s).trans aimed, .single (.called s _ permitted aimed)⟩

theorem modifyRuntime_aiming (f : RuntimeProperties → RuntimeProperties) :
    Within (Aiming kube allowed definition) (modifyRuntime f) :=
  fun s aimed => ⟨aimed, modifyRuntime_within steps_offline f s⟩

theorem getPerformTask_aiming : Within (Aiming kube allowed definition) getPerformTask :=
  getPerformTask_within

theorem handleDeleteResource_aiming (node : Node) (found : Bool) :
    Within (Aiming kube allowed definition) (handleDeleteResource node found) := by
  unfold handleDeleteResource
  split <;> exact modifyRuntime_aiming _

theorem readRest_aiming {site : Site} (reads : allowed (.read site)) :
    Within (Aiming kube allowed definition) (readResource kube site mapping definition >>= fun response =>
      Program.ofExcept (jsonCleanuper response)) :=
  (clientCall_aiming (.read site) reads).bind fun _ => .ofExcept _

theorem doResourceRead_steps {site : Site} (reads : allowed (.read site)) :
    Within (Steps kube allowed) (doResourceRead kube site mapping definition) :=
  edited_steps (readRest_aiming reads)

theorem doResourceRead_aiming {site : Site} (reads : allowed (.read site)) :
    Within (Aiming kube allowed definition) (doResourceRead kube site mapping definition) :=
  edited_aiming (readRest_aiming reads)

theorem doResourceCreate_steps (creates : allowed .create) (reads : allowed (.read .task)) :
    Within (Steps kube allowed) (doResourceCreate kube mapping definition) := by
  refine edited_steps (getPerformTask_aiming.bind fun perform => ?_)
  split
  · exact (clientCall_aiming .create creates).bind fun _ => .ofExcept _
  · exact doResourceRead_aiming reads

theorem doResourceUpdate_steps (updates : allowed .update) :
    Within (Steps kube allowed) (doResourceUpdate kube mapping definition) :=
  edited_steps ((clientCall_aiming .update updates).bind fun _ => .ofExcept _)

theorem checkIfResourceExists_steps {site : Site} (reads : allowed (.read site)) :
    Within (Steps kube allowed) (checkIfResourceExists kube site mapping definition) :=
  checkIfResourceExists_within (doResourceRead_steps reads)

theorem doResourceDelete_steps (node : Node) (resourceId : Value)
    (reads : allowed (.read .beforeDelete)) (deletes : allowed (.delete resourceId)) :
    Within (Steps kube allowed) (doResourceDelete kube node mapping definition resourceId) := by
  refine edited_steps ((checkIfResourceExists_within (doResourceRead_aiming reads)).bind fun _ =>
    (handleDeleteResource_aiming _ _).bind fun _ => getPerformTask_aiming.bind fun perform => ?_)
  split
  · exact (clientCall_aiming (.delete resourceId) deletes).bind fun _ => .ofExcept _
  · exact .ofExcept _

end

def Event.call? : Event → Option ClientCall
  | called c => some c
  | requested c _ _ => some c
  | returned c _ => some c
  | _ => none

theorem CallEvents.call?_eq {c : ClientCall} {result : Except Exception Value} {events : List Event}
    (call : CallEvents c result events) : ∀ e ∈ events, e.call? = some c := by
  obtain ⟨sent, rfl, requests⟩ := call
  intro e member
  rcases List.mem_cons.mp member with rfl | member
  · rfl
  rcases List.mem_append.mp member with member | last
  · obtain ⟨request, answer, rfl⟩ := requests e member
    rfl
  · rw [List.mem_singleton.mp last]
    rfl

def Event.Concerns (mapping : KubernetesApiMapping) (definition : KubernetesResourceDefinition) (e : Event) : Prop :=
  (∃ d, e = .edited d) ∨ ∃ c, e.call? = some c ∧ c.mapping = mapping ∧ c.definition = definition

theorem CallEvents.concerns {c : ClientCall} {result : Except Exception Value} {events : List Event}
    (call : CallEvents c result events) : ∀ e ∈ events, e.Concerns c.mapping c.definition :=
  fun e member => .inr ⟨c, call.call?_eq e member, rfl, rfl⟩

/-- The calls of a deletion are all for its definition. -/
theorem doResourceDelete_concerns (kube : Kubernetes) (node : Node) (mapping : KubernetesApiMapping)
    (definition : KubernetesResourceDefinition) (resourceId : Value) (s : State) :
    ∃ events, (doResourceDelete kube node mapping definition resourceId s).2.log = s.log ++ events ∧
      ∀ e ∈ events, e.Concerns mapping definition := by
  have run := doResourceDelete_run kube node mapping definition resourceId s
  generalize doResourceDelete kube node mapping definition resourceId s = result at run ⊢
  have checked {result : Except Exception Value} {events : List Event}
      (check : CallEvents ⟨.read .beforeDelete, mapping, definition⟩ result events) :
      ∀ e ∈ (.edited definition :: .edited definition :: events : List Event), e.Concerns mapping definition := by
    intro e member
    simp only [List.mem_cons] at member
    rcases member with rfl | rfl | member
    · exact .inl ⟨_, rfl⟩
    · exact .inl ⟨_, rfl⟩
    · exact check.concerns e member
  cases run with
  | malformed e failed => exact ⟨[], by simp, by simp⟩
  | unchecked readable result e options events check failed => exact ⟨_, rfl, checked check⟩
  | withheld readable result found options events check answered expected => exact ⟨_, rfl, checked check⟩
  | deleted readable result found options events check answered unexpected result' events' delete =>
    refine ⟨_, rfl, fun e member => ?_⟩
    rw [← List.cons_append, ← List.cons_append] at member
    rcases List.mem_append.mp member with member | member
    · exact checked check e member
    · exact delete.concerns e member

theorem doResourceDelete_calls (kube : Kubernetes) (node : Node) (mapping : KubernetesApiMapping)
    (definition : KubernetesResourceDefinition) (resourceId : Value) (s : State) :
    ∃ events, (doResourceDelete kube node mapping definition resourceId s).2.log = s.log ++ events ∧
      ∀ e ∈ events, ∀ c, e.call? = some c → c.mapping = mapping ∧ c.definition = definition := by
  obtain ⟨events, grown, concerns⟩ := doResourceDelete_concerns kube node mapping definition resourceId s
  refine ⟨events, grown, fun e member c called => ?_⟩
  rcases concerns e member with ⟨d, rfl⟩ | ⟨c', called', same⟩
  · cases called
  · cases called.symm.trans called'
    exact same

theorem grows_offline {cause effect : Event → Prop}
    (neutral : ∀ e : Event, e.call? = none → ¬ effect e ∧ ¬ cause e) :
    Offline (Grows State.log cause effect) where
  runtime _ _ := .of_eq rfl
  mapped definition s := by
    rw [chooseMapping_run]
    exact .of_neutral rfl fun e member => neutral e (by rw [List.mem_singleton.mp member]; rfl)

theorem grows_record {cause effect : Event → Prop} {e : Event} (neutral : ¬ effect e ∧ ¬ cause e) :
    Within (Grows State.log cause effect) (record e) := fun s =>
  .of_neutral rfl fun other member => by rw [List.mem_singleton.mp member]; exact neutral

theorem steps_grow_same {kube : Kubernetes} {allowed : Verb → Prop} {s s' : State} {cause effect : Event → Prop}
    (steps : Steps kube allowed s s')
    (same : ∀ e : Event, (∀ c, e.call? = some c → allowed c.verb) → (effect e ↔ cause e)) :
    Grows State.log cause effect s s' := by
  have single {e : Event} {s s' : State} (grown : s'.log = s.log ++ [e]) (free : e.call? = none) :
      Grows State.log cause effect s s' :=
    .of_same grown fun _ member =>
      same _ fun c call => by rw [List.mem_singleton.mp member, free] at call; cases call
  induction steps with
  | refl => exact Std.Refl.refl s
  | @tail middle _ _ step ih =>
    refine IsTrans.trans _ _ _ ih ?_
    cases step with
    | runtime runtime => exact .of_eq rfl
    | entered path mapping definition runtime => exact single rfl rfl
    | mapped definition => exact single rfl rfl
    | edited definition options edit => exact single rfl rfl
    | called c permitted aimed =>
      obtain ⟨events, call, ran⟩ := clientCall_events kube c middle
      have grown : (clientCall kube c middle).2.log = middle.log ++ events := by rw [ran]
      refine .of_same grown fun e member => same e fun c' called => ?_
      cases (call.call?_eq e member).symm.trans called
      exact permitted

theorem steps_grow {kube : Kubernetes} {allowed : Verb → Prop} {s s' : State} {cause effect : Event → Prop}
    (steps : Steps kube allowed s s')
    (neutral : ∀ e : Event, (∀ c, e.call? = some c → allowed c.verb) → ¬ effect e ∧ ¬ cause e) :
    Grows State.log cause effect s s' :=
  steps_grow_same steps fun e permitted => iff_of_false (neutral e permitted).1 (neutral e permitted).2

theorem steps_extend {kube : Kubernetes} {allowed : Verb → Prop} {s s' : State}
    (steps : Steps kube allowed s s') : ∃ events, s'.log = s.log ++ events := by
  have grows : Grows State.log (fun _ => False) (fun _ => False) s s' :=
    steps_grow steps fun _ _ => ⟨id, id⟩
  obtain ⟨events, grown, _⟩ := grows
  exact ⟨events, grown⟩

theorem steps_events {kube : Kubernetes} {allowed : Verb → Prop} {s s' : State} (steps : Steps kube allowed s s') :
    ∃ events, s'.log = s.log ++ events ∧ ∀ e ∈ events, ∀ c, e.call? = some c → allowed c.verb := by
  have grows : Grows State.log (fun _ => False) (fun e => ∃ c, e.call? = some c ∧ ¬ allowed c.verb) s s' := by
    apply steps_grow steps
    intro e permitted
    refine ⟨?_, id⟩
    intro ⟨c, called, forbidden⟩
    exact forbidden (permitted c called)
  obtain ⟨events, grown, none⟩ := grows
  refine ⟨events, grown, ?_⟩
  intro e member c called
  by_contra forbidden
  obtain ⟨_, _, impossible⟩ := none.mp ⟨e, member, c, called, forbidden⟩
  exact impossible

theorem steps_lack {kube : Kubernetes} {allowed : Verb → Prop} {p : Event → Bool} {s s' : State}
    (steps : Steps kube allowed s s') (asks : ∀ e, p e = true → ∃ c, e.call? = some c ∧ ¬ allowed c.verb) :
    ∃ events, s'.log = s.log ++ events ∧ ∀ e ∈ events, p e = false := by
  obtain ⟨events, grown, permitted⟩ := steps_events steps
  refine ⟨events, grown, fun e member => ?_⟩
  by_contra there
  obtain ⟨c, called, forbidden⟩ := asks e (by simpa using there)
  exact forbidden (permitted e member c called)

def Operation.uses : Operation → Verb → Prop
  | .resourceCreate _ | .customResourceCreate _ | .resourceReadCheckStatus _ | .customCheckStatus _
  | .fileResourceCreate _ _ | .fileResourceCheckStatus _ _ | .multipleFileResourceCreate _
  | .multipleFileResourceCheckStatus _ => fun verb => verb = .create ∨ ∃ site, verb = .read site
  | .resourceRead _ | .customResourceRead _ | .fileResourceRead _ _ | .multipleFileResourceRead _ =>
    fun verb => ∃ site, verb = .read site
  | .resourceUpdate _ | .customResourceUpdate _ | .fileResourceUpdate _ _
  | .multipleFileResourceUpdate _ => fun verb => verb = .update ∨ ∃ site, verb = .read site
  | .resourceDelete _ | .customResourceDelete _ =>
    fun verb => (∃ resourceId, verb = .delete resourceId) ∨ ∃ site, verb = .read site
  | .fileResourceDelete _ _ | .multipleFileResourceDelete _ => fun verb => verb ≠ .create

section

variable (kube : Kubernetes) (node : Node) (ctx : OperationContext) {allowed : Verb → Prop}

theorem resourceTask_steps (operation : ResourceTask) (file : Option String)
    (definitions : List KubernetesResourceDefinition)
    (mapped : ∀ definition, Within (Steps kube allowed) (operation.retrieveMapping definition))
    (state : operation.resourceStateFunction = none ∨ (∀ site, allowed (.read site)) ∧
      operation.resourceStateFunction = some (checkIfResourceExists kube .stateFunction))
    (task : ∀ path mapping definition,
      Within (Steps kube allowed) (operation.task path mapping definition)) :
    Within (Steps kube allowed) (resourceTask node operation file definitions) := by
  refine resourceTask_of_task steps_offline node operation file definitions mapped ?_ task
  rcases state with none | ⟨reads, some⟩
  · simp [none]
  · simpa [some] using fun _ _ => checkIfResourceExists_steps (reads _)

theorem fileResourceCreate_steps (file : Option String) (definitions : List KubernetesResourceDefinition)
    (creates : allowed .create) (reads : ∀ site, allowed (.read site)) :
    Within (Steps kube allowed) (fileResourceCreate kube node file definitions) :=
  resourceTask_steps kube node _ _ _ chooseMapping_steps (.inl rfl) fun _ _ _ =>
    fileResourceCreateTask_within steps_offline _ _ (doResourceRead_steps (reads _))
      (doResourceCreate_steps creates (reads _))

theorem fileResourceRead_steps (file : Option String) (definitions : List KubernetesResourceDefinition)
    (reads : ∀ site, allowed (.read site)) :
    Within (Steps kube allowed) (fileResourceRead kube node file definitions) :=
  resourceTask_steps kube node _ _ _ chooseMapping_steps (.inl rfl) fun _ _ _ =>
    fileResourceReadTask_within steps_offline _ _ (doResourceRead_steps (reads _))

theorem fileResourceUpdate_steps (file : Option String) (definitions : List KubernetesResourceDefinition)
    (updates : allowed .update) :
    Within (Steps kube allowed) (fileResourceUpdate kube node file definitions) :=
  resourceTask_steps kube node _ _ _ chooseMapping_steps (.inl rfl) fun _ _ _ =>
    fileResourceUpdateTask_within steps_offline _ (doResourceUpdate_steps updates)

theorem resourceCheckStatus_steps {mapping : KubernetesApiMapping}
    {definition : KubernetesResourceDefinition} (creates : allowed .create)
    (reads : ∀ site, allowed (.read site)) :
    Within (Steps kube allowed) (resourceCheckStatus kube node ctx mapping definition) :=
  resourceCheckStatus_within steps_offline _ _ (doResourceRead_steps (reads _))
    (doResourceCreate_steps creates (reads _))

theorem fileResourceCheckStatus_steps (file : Option String)
    (definitions : List KubernetesResourceDefinition) (creates : allowed .create)
    (reads : ∀ site, allowed (.read site)) :
    Within (Steps kube allowed) (fileResourceCheckStatus kube node ctx file definitions) :=
  resourceTask_steps kube node _ _ _ chooseMapping_steps (.inl rfl) fun _ _ _ =>
    resourceCheckStatus_steps kube node ctx creates reads

theorem fileResourceDeleteTask_steps (depth : Nat) (path : String) (mapping : KubernetesApiMapping)
    (definition : KubernetesResourceDefinition) (reads : ∀ site, allowed (.read site))
    (updates : allowed .update) (deletes : ∀ resourceId, allowed (.delete resourceId)) :
    Within (Steps kube allowed) (fileResourceDeleteTask kube node depth path mapping definition) :=
  fileResourceDeleteTask_within steps_offline _ _ _
    (fun _ _ _ s => .single (.entered s _ _ _ _)) (fun _ _ => doResourceRead_steps (reads _)) fun _ _ _ =>
      deleteWhileAdjacentResources_within steps_offline _ _ _
        (fun _ => doResourceDelete_steps _ _ (reads _) (deletes _))
        (preparePvcDelete_within fun _ => doResourceUpdate_steps updates)

theorem fileResourceDelete_steps (file : Option String) (definitions : List KubernetesResourceDefinition)
    (reads : ∀ site, allowed (.read site)) (updates : allowed .update)
    (deletes : ∀ resourceId, allowed (.delete resourceId)) :
    Within (Steps kube allowed) (fileResourceDelete kube node file definitions) :=
  resourceTask_steps kube node _ _ _ chooseMapping_steps (.inr ⟨reads, rfl⟩) fun _ _ _ =>
    getRuntime_within.bind fun _ => fileResourceDeleteTask_steps _ _ _ _ _ _ reads updates deletes

theorem deleteUnlessMissing_steps (marker : String)
    {resourceExists : Value → KubernetesApiMapping → KubernetesResourceDefinition → Task Value}
    {mapping : KubernetesApiMapping} {definition : KubernetesResourceDefinition}
    (check : ∀ found mapping definition,
      Within (Steps kube allowed) (resourceExists found mapping definition))
    (reads : ∀ site, allowed (.read site)) (deletes : ∀ resourceId, allowed (.delete resourceId)) :
    Within (Steps kube allowed)
      (deleteUnlessMissing kube node marker resourceExists mapping definition) :=
  deleteUnlessMissing_within steps_offline _ _ check (doResourceRead_steps (reads _))
    fun _ _ _ _ => doResourceDelete_steps _ _ (reads _) (deletes _)

/-- An operation only takes the steps of the verbs that it uses. -/
theorem Operation.run_steps (operation : Operation)
    (permitted : ∀ verb, operation.uses verb → allowed verb) :
    Within (Steps kube allowed) (operation.run kube node ctx) := by
  have byData (definition : KubernetesResourceDefinition) :
      Within (Steps kube allowed) ((fun _ => Program.ofExcept (mappingByData node)) definition) :=
    Within.ofExcept _
  cases operation with
  | resourceCreate definition =>
    have creates := permitted .create (.inl rfl)
    have reads := fun site => permitted (.read site) (.inr ⟨site, rfl⟩)
    exact resourceTask_steps kube node _ _ _ chooseMapping_steps (.inr ⟨reads, rfl⟩) fun _ _ _ =>
      (resourceCreateTask_within (doResourceCreate_steps creates (reads _))).bind fun _ =>
        storeResultForRetrieveId_within steps_offline _ _
  | customResourceCreate definition =>
    have creates := permitted .create (.inl rfl)
    have reads := fun site => permitted (.read site) (.inr ⟨site, rfl⟩)
    exact resourceTask_steps kube node _ _ _ byData (.inr ⟨reads, rfl⟩) fun _ _ _ =>
      (doResourceCreate_steps creates (reads _)).bind fun _ =>
        storeResultForRetrieveId_within steps_offline _ _
  | resourceReadCheckStatus definition =>
    have creates := permitted .create (.inl rfl)
    have reads := fun site => permitted (.read site) (.inr ⟨site, rfl⟩)
    exact resourceTask_steps kube node _ _ _ chooseMapping_steps (.inl rfl) fun _ _ _ =>
      resourceCheckStatus_steps kube node ctx creates reads
  | customCheckStatus definition =>
    have creates := permitted .create (.inl rfl)
    have reads := fun site => permitted (.read site) (.inr ⟨site, rfl⟩)
    exact resourceTask_steps kube node _ _ _ byData (.inr ⟨reads, rfl⟩) fun _ _ _ =>
      resourceCheckStatus_steps kube node ctx creates reads
  | fileResourceCreate file definitions =>
    exact fileResourceCreate_steps _ _ _ _ (permitted _ (.inl rfl)) fun site =>
      permitted _ (.inr ⟨site, rfl⟩)
  | fileResourceCheckStatus file definitions =>
    exact fileResourceCheckStatus_steps _ _ _ _ _ (permitted _ (.inl rfl)) fun site =>
      permitted _ (.inr ⟨site, rfl⟩)
  | multipleFileResourceCreate files =>
    exact multipleFileResource_within (fun _ _ => fileResourceCreate_steps _ _ _ _
      (permitted _ (.inl rfl)) fun site => permitted _ (.inr ⟨site, rfl⟩)) files
  | multipleFileResourceCheckStatus files =>
    exact multipleFileResource_within (fun _ _ => fileResourceCheckStatus_steps _ _ _ _ _
      (permitted _ (.inl rfl)) fun site => permitted _ (.inr ⟨site, rfl⟩)) files
  | resourceRead definition =>
    have reads := fun site => permitted (.read site) ⟨site, rfl⟩
    exact resourceTask_steps kube node _ _ _ chooseMapping_steps (.inr ⟨reads, rfl⟩) fun _ _ _ =>
      readAndStore_within steps_offline _ (doResourceRead_steps (reads _))
  | customResourceRead definition =>
    have reads := fun site => permitted (.read site) ⟨site, rfl⟩
    exact resourceTask_steps kube node _ _ _ byData (.inr ⟨reads, rfl⟩) fun _ _ _ =>
      readAndStore_within steps_offline _ (doResourceRead_steps (reads _))
  | fileResourceRead file definitions =>
    exact fileResourceRead_steps _ _ _ _ fun site => permitted _ ⟨site, rfl⟩
  | multipleFileResourceRead files =>
    exact multipleFileResource_within (fun _ _ => fileResourceRead_steps _ _ _ _
      fun site => permitted _ ⟨site, rfl⟩) files
  | resourceUpdate definition =>
    have reads := fun site => permitted (.read site) (.inr ⟨site, rfl⟩)
    exact resourceTask_steps kube node _ _ _ chooseMapping_steps (.inr ⟨reads, rfl⟩) fun _ _ _ =>
      fileResourceUpdateTask_within steps_offline _ (doResourceUpdate_steps (permitted _ (.inl rfl)))
  | customResourceUpdate definition =>
    exact resourceTask_steps kube node _ _ _ byData (.inl rfl) fun _ _ _ =>
      fileResourceUpdateTask_within steps_offline _ (doResourceUpdate_steps (permitted _ (.inl rfl)))
  | fileResourceUpdate file definitions =>
    exact fileResourceUpdate_steps _ _ _ _ (permitted _ (.inl rfl))
  | multipleFileResourceUpdate files =>
    exact multipleFileResource_within (fun _ _ => fileResourceUpdate_steps _ _ _ _
      (permitted _ (.inl rfl))) files
  | resourceDelete definition =>
    have reads := fun site => permitted (.read site) (.inr ⟨site, rfl⟩)
    have deletes := fun resourceId => permitted (.delete resourceId) (.inl ⟨resourceId, rfl⟩)
    exact resourceTask_steps kube node _ _ _ chooseMapping_steps (.inr ⟨reads, rfl⟩) fun _ _ _ =>
      deleteUnlessMissing_steps kube node _ (fun _ _ _ => .pure _) reads deletes
  | customResourceDelete definition =>
    have reads := fun site => permitted (.read site) (.inr ⟨site, rfl⟩)
    have deletes := fun resourceId => permitted (.delete resourceId) (.inl ⟨resourceId, rfl⟩)
    exact resourceTask_steps kube node _ _ _ byData (.inr ⟨reads, rfl⟩) fun _ _ _ =>
      deleteUnlessMissing_steps kube node _
        (fun _ _ _ => checkIfResourceExists_steps (reads _)) reads deletes
  | fileResourceDelete file definitions =>
    exact fileResourceDelete_steps _ _ _ _ (fun site => permitted (.read site) nofun)
      (permitted .update nofun) fun resourceId => permitted (.delete resourceId) nofun
  | multipleFileResourceDelete files =>
    exact multipleFileResource_within (fun _ _ => fileResourceDelete_steps _ _ _ _
      (fun site => permitted (.read site) nofun) (permitted .update nofun)
      fun resourceId => permitted (.delete resourceId) nofun) files

end

end CloudifyKubernetes
