import CloudifyKubernetes.Lifecycle
import CloudifyKubernetes.Steps

namespace CloudifyKubernetes

open Collections Effects Program Relation

def LifecycleOperation.uses : LifecycleOperation → Verb → Prop
  | .plain operation => operation.uses
  | .fileResourceUpdateWith _ _ _ | .multipleFileResourceUpdateWith _ _ => fun verb => verb = .update
  | .resourceReadCheckDrift _ | .customCheckDrift _ | .fileResourceCheckDrift _ _ | .multipleFileResourceCheckDrift _
  | .readToken | .getTokenStatus => fun verb => ∃ site, verb = .read site
  | .createToken => fun verb => verb = .create ∨ ∃ site, verb = .read site
  | .deleteToken => fun verb => (∃ resourceId, verb = .delete resourceId) ∨ ∃ site, verb = .read site

def PairSteps (kube : Kubernetes) (allowed : Verb → Prop) (s s' : State × Dict) : Prop := Steps kube allowed s.1 s'.1

section

variable {kube : Kubernetes} {allowed : Verb → Prop}

instance : Std.Refl (PairSteps kube allowed) := ⟨fun _ => .refl⟩

instance : IsTrans (State × Dict) (PairSteps kube allowed) := ⟨fun _ _ _ first second => first.trans second⟩

theorem onFirst_steps {α : Type} {task : Task α} (steps : Within (Steps kube allowed) task) :
    Within (PairSteps kube allowed) task.onFirst := fun s => steps s.1

theorem modifyProperties_steps (f : Dict → Dict) : Within (PairSteps kube allowed) (modifyProperties f) := fun _ => .refl

theorem readProperties_steps {α : Type} (f : Dict → Except Exception α) :
    Within (PairSteps kube allowed) (readProperties f) := by
  refine Within.bind (fun _ => .refl) fun properties => ?_
  exact .ofExcept _

variable {load : String → Except Exception Value} {node : Node}

theorem recordedState_steps (path : String) : Within (Steps kube allowed) (recordedState path) := by
  refine Within.bind getRuntime_within fun runtime => ?_
  split <;> exact .pure _

theorem resourceCheckDriftTask_steps (checkDrift : Value → Value → Except Exception Value) (path : String)
    {mapping : KubernetesApiMapping} {definition : KubernetesResourceDefinition} (reads : ∀ site, allowed (.read site)) :
    Within (Steps kube allowed) (resourceCheckDriftTask kube checkDrift path mapping definition) := by
  have previous : Within (Steps kube allowed) (getResultForRetrieveId path) := by
    refine Within.bind getRuntime_within fun runtime => ?_
    split
    · split
      · exact .pure _
      · exact .raise _
    · exact .pure _
  refine previous.bind fun previous => ?_
  refine Within.bind (doResourceRead_steps (reads _)) fun current => ?_
  refine Within.bind (Within.ofExcept _) fun diff => ?_
  split
  · exact .raise _
  · exact .pure _

theorem fileResourceUpdateWith_steps (additions : Value) (file : Option String)
    (definitions : List KubernetesResourceDefinition) (updates : allowed .update) :
    Within (Steps kube allowed) (fileResourceUpdateWith kube node additions file definitions) := by
  apply resourceTask_steps kube node _ _ _ chooseMapping_steps (.inl rfl)
  intro path mapping definition
  refine Within.bind (Within.ofExcept _) fun amended => ?_
  exact fileResourceUpdateTask_within steps_offline _ (doResourceUpdate_steps updates)

theorem fileResourceCheckDrift_steps (checkDrift : Value → Value → Except Exception Value) (file : Option String)
    (definitions : List KubernetesResourceDefinition) (reads : ∀ site, allowed (.read site)) :
    Within (Steps kube allowed) (fileResourceCheckDrift kube node checkDrift file definitions) :=
  resourceTask_steps kube node _ _ _ chooseMapping_steps (.inl rfl) fun path _ _ =>
    resourceCheckDriftTask_steps checkDrift path reads

section

variable {task : KubernetesApiMapping → KubernetesResourceDefinition → Task Value} (payload : String)
  (steps : ∀ mapping definition, Within (Steps kube allowed) (task mapping definition))

include steps

theorem payloadResourceTask_steps : Within (Steps kube allowed) (payloadResourceTask load node task payload) := by
  have recorded : Within (Steps kube allowed) (recordedPayloadTask load node task payload) := by
    refine Within.bind (Within.ofExcept _) fun definition => ?_
    refine Within.bind (chooseMapping_steps definition) fun mapping => ?_
    refine Within.bind (Within.ofExcept _) fun _ => ?_
    refine Within.bind (recordedState_steps _) fun currentState => ?_
    refine Within.bind (handleExistingResource_within steps_offline node currentState) fun _ => ?_
    refine Within.bind (steps mapping definition) fun result => ?_
    refine Within.bind (modifyRuntime_within steps_offline _) fun _ => ?_
    exact .pure _
  refine recorded.attempt.bind fun result => ?_
  cases result with
  | ok value => exact .pure _
  | error e => exact .raise _

end

theorem createThenRead_steps (creates : allowed .create) (reads : ∀ site, allowed (.read site))
    {mapping : KubernetesApiMapping} {definition : KubernetesResourceDefinition} :
    Within (Steps kube allowed) (createThenRead kube mapping definition) := by
  have created : Within (Steps kube allowed) (resourceCreateTask kube mapping definition) :=
    resourceCreateTask_within (doResourceCreate_steps creates (reads _))
  refine created.attempt.bind fun created => ?_
  refine Within.bind (doResourceRead_steps (reads _)) fun result => ?_
  cases created with
  | ok value => exact .pure _
  | error e =>
    dsimp only
    split
    · exact .pure _
    · exact .raise _

theorem createdSecret_steps (payload : String) (creates : allowed .create) (reads : ∀ site, allowed (.read site)) :
    Within (Steps kube allowed) (createdSecret load kube node payload) := by
  have created : Within (Steps kube allowed) (resourceCreateFromPayload load kube node payload) :=
    payloadResourceTask_steps payload fun _ _ => createThenRead_steps creates reads
  refine created.attempt.bind fun result => ?_
  cases result with
  | ok value => exact .pure _
  | error e => exact payloadResourceTask_steps payload fun _ _ => doResourceRead_steps (reads _)

theorem resourceDeleteFromPayload_steps (resourceId : Value) (payload : String) (reads : ∀ site, allowed (.read site))
    (deletes : ∀ resourceId, allowed (.delete resourceId)) :
    Within (Steps kube allowed) (resourceDeleteFromPayload load kube node resourceId payload) := by
  have deleted (mapping : KubernetesApiMapping) (definition : KubernetesResourceDefinition) :
      Within (Steps kube allowed) (deletedOrMissing kube node resourceId mapping definition) := by
    refine (doResourceDelete_steps node resourceId (reads _) (deletes _)).attempt.bind fun result => ?_
    cases result with
    | ok response => exact .pure _
    | error e =>
      dsimp only
      split
      · split
        · exact .pure _
        · exact .raise _
      · exact .raise _
  have task : Within (Steps kube allowed) (payloadTask load node (deletedOrMissing kube node resourceId) payload) := by
    refine Within.bind (Within.ofExcept _) fun definition => ?_
    refine Within.bind (chooseMapping_steps definition) fun mapping => ?_
    refine Within.bind (Within.ofExcept _) fun _ => ?_
    refine Within.bind (recordedState_steps _) fun currentState => ?_
    refine Within.bind (handleExistingResource_within steps_offline node currentState) fun _ => ?_
    refine Within.bind (deleted mapping definition) fun result => ?_
    refine Within.bind (modifyRuntime_within steps_offline _) fun _ => ?_
    split
    · refine Within.bind (modifyRuntime_within steps_offline _) fun _ => ?_
      exact .pure _
    · exact .pure _
  refine task.attempt.bind fun result => ?_
  cases result with
  | ok value => exact .pure _
  | error e => exact .raise _

theorem storeDecoded_steps (key : String) (encoded : Value) : Within (PairSteps kube allowed) (storeDecoded key encoded) :=
  (Within.ofExcept _).bind fun _ => modifyProperties_steps _

theorem storeEndpoint_steps : Within (PairSteps kube allowed) storeEndpoint :=
  (readProperties_steps _).bind fun _ => modifyProperties_steps _

theorem storeSecret_steps (endpointFirst : Bool) (response : Value) :
    Within (PairSteps kube allowed) (storeSecret endpointFirst response) := by
  refine (Within.ofExcept _).bind fun token => ?_
  refine (Within.ofExcept _).bind fun certificate => ?_
  refine (modifyProperties_steps _).bind fun _ => ?_
  cases endpointFirst with
  | true =>
    refine storeEndpoint_steps.bind fun _ => ?_
    exact (storeDecoded_steps _ _).bind fun _ => storeDecoded_steps _ _
  | false =>
    refine (storeDecoded_steps _ _).bind fun _ => ?_
    exact storeEndpoint_steps.bind fun _ => storeDecoded_steps _ _

theorem nestedResourceTask_steps {resources : List (String × (String → String → String))}
    {operation : Value → String → Task Value} (nestedOpsFirst : Bool) (instanceId : String) {task : TokenTask Unit}
    (each : ∀ resourceId payload, Within (Steps kube allowed) (operation resourceId payload))
    (body : Within (PairSteps kube allowed) task) :
    Within (PairSteps kube allowed) (nestedResourceTask resources operation nestedOpsFirst instanceId task) := by
  have nested (name namesp : String) : Within (PairSteps kube allowed) (nestedOps resources operation name namesp) := by
    refine (Within.forEach fun resource _ => ?_).bind fun _ => .pure _
    exact (onFirst_steps (each _ _)).bind fun _ => modifyProperties_steps _
  have options : Within (PairSteps kube allowed) getOptions.onFirst := fun _ => .refl
  refine options.bind fun options => ?_
  refine (onFirst_steps (setPerformTask_within steps_offline true)).bind fun _ => ?_
  cases nestedOpsFirst with
  | true => exact (nested _ _).bind fun _ => body
  | false => exact body.bind fun _ => nested _ _

variable (env : Environment)

/-- An operation only takes the steps of the verbs that it uses. -/
theorem LifecycleOperation.run_steps (ctx : OperationContext) (operation : LifecycleOperation)
    (permitted : ∀ verb, operation.uses verb → allowed verb) :
    Within (PairSteps env.kube allowed) (operation.run env ctx) := by
  have byData (definition : KubernetesResourceDefinition) :
      Within (Steps env.kube allowed) (Program.ofExcept (mappingByData env.node) : Task KubernetesApiMapping) := .ofExcept _
  cases operation with
  | plain operation => exact onFirst_steps (operation.run_steps env.kube env.node ctx permitted)
  | fileResourceUpdateWith additions file definitions =>
    exact onFirst_steps (fileResourceUpdateWith_steps additions file definitions (permitted _ rfl))
  | multipleFileResourceUpdateWith additions files =>
    exact onFirst_steps (multipleFileResource_within
      (fun file definitions => fileResourceUpdateWith_steps additions file definitions (permitted _ rfl)) files)
  | resourceReadCheckDrift definition =>
    have reads (site : Site) : allowed (.read site) := permitted _ ⟨site, rfl⟩
    have check : Within (Steps env.kube allowed)
        (CloudifyKubernetes.resourceReadCheckDrift env.kube env.node env.checkDrift definition) :=
      resourceTask_steps env.kube _ _ _ _ chooseMapping_steps (.inl rfl) fun path _ _ =>
        resourceCheckDriftTask_steps env.checkDrift path reads
    exact onFirst_steps check
  | customCheckDrift definition =>
    have reads (site : Site) : allowed (.read site) := permitted _ ⟨site, rfl⟩
    have check : Within (Steps env.kube allowed)
        (CloudifyKubernetes.customCheckDrift env.kube env.node env.checkDrift definition) :=
      resourceTask_steps env.kube _ _ _ _ byData (.inr ⟨reads, rfl⟩) fun path _ _ =>
        resourceCheckDriftTask_steps env.checkDrift path reads
    exact onFirst_steps check
  | fileResourceCheckDrift file definitions =>
    exact onFirst_steps (fileResourceCheckDrift_steps env.checkDrift file definitions fun site => permitted _ ⟨site, rfl⟩)
  | multipleFileResourceCheckDrift files =>
    exact onFirst_steps (multipleFileResource_within (fun file definitions =>
      fileResourceCheckDrift_steps env.checkDrift file definitions fun site => permitted _ ⟨site, rfl⟩) files)
  | createToken =>
    have creates := permitted _ (.inl rfl)
    have reads (site : Site) : allowed (.read site) := permitted _ (.inr ⟨site, rfl⟩)
    refine nestedResourceTask_steps _ _ (fun _ payload => ?_) ?_
    · exact payloadResourceTask_steps payload fun _ _ => createThenRead_steps creates reads
    · refine (readProperties_steps _).bind fun payload => ?_
      exact (onFirst_steps (createdSecret_steps payload creates reads)).bind fun response => storeSecret_steps false response
  | readToken =>
    have reads (site : Site) : allowed (.read site) := permitted _ ⟨site, rfl⟩
    have read (payload : String) : Within (Steps env.kube allowed)
        (resourceReadFromPayload env.load env.kube env.node payload) :=
      payloadResourceTask_steps payload fun _ _ => doResourceRead_steps (reads _)
    refine nestedResourceTask_steps _ _ (fun _ payload => read payload) ?_
    refine (readProperties_steps _).bind fun payload => ?_
    exact (onFirst_steps (read payload)).bind fun response => storeSecret_steps true response
  | getTokenStatus =>
    have reads (site : Site) : allowed (.read site) := permitted _ ⟨site, rfl⟩
    have read (payload : String) : Within (Steps env.kube allowed)
        (resourceReadFromPayload env.load env.kube env.node payload) :=
      payloadResourceTask_steps payload fun _ _ => doResourceRead_steps (reads _)
    refine nestedResourceTask_steps _ _ (fun _ payload => read payload) ?_
    refine (readProperties_steps _).bind fun payload => ?_
    exact (onFirst_steps (read payload)).bind fun _ => .pure _
  | deleteToken =>
    have reads (site : Site) : allowed (.read site) := permitted _ (.inr ⟨site, rfl⟩)
    have deletes (resourceId : Value) : allowed (.delete resourceId) := permitted _ (.inl ⟨resourceId, rfl⟩)
    have properties : Within (PairSteps env.kube allowed) getProperties := fun _ => .refl
    refine nestedResourceTask_steps _ _ (fun resourceId payload => ?_) ?_
    · exact resourceDeleteFromPayload_steps resourceId payload reads deletes
    · refine properties.bind fun properties => ?_
      refine (Within.ofExcept _).bind fun name => ?_
      refine (Within.ofExcept _).bind fun payload => ?_
      refine (onFirst_steps (resourceDeleteFromPayload_steps _ payload reads deletes)).bind fun _ => ?_
      exact modifyProperties_steps _

/-- Over any run of operations the log grows by one segment for each of them, and a segment only
    has the calls that its operation uses. -/
theorem lifecycle_calls (options : Dict) (operations : List (OperationContext × LifecycleOperation)) (s : State × Dict) :
    ∃ segments : List (List Event), segments.length = operations.length ∧
      (lifecycle env options operations s).2.1.log = s.1.log ++ segments.flatten ∧
      ∀ made ∈ operations.zip segments, ∀ e ∈ made.2, ∀ call, e.call? = some call → made.1.2.uses call.verb := by
  induction operations generalizing s with
  | nil => exact ⟨[], rfl, (List.append_nil _).symm, List.forall_mem_nil _⟩
  | cons next rest ih =>
    obtain ⟨events, grown, used⟩ :=
      steps_events (next.2.run_steps env next.1 (fun _ => id) ({ s.1 with options }, s.2))
    obtain ⟨segments, length, later, others⟩ := ih (next.2.run env next.1 ({ s.1 with options }, s.2)).2
    obtain ⟨results, returned⟩ := lifecycle_returns env options rest
      (next.2.run env next.1 ({ s.1 with options }, s.2)).2
    refine ⟨events :: segments, congrArg (· + 1) length, ?_, ?_⟩
    · rw [lifecycle_cons_run env options next rest s returned, later, grown, List.flatten_cons, List.append_assoc]
    · exact List.forall_mem_cons.mpr ⟨used, others⟩

end

end CloudifyKubernetes
