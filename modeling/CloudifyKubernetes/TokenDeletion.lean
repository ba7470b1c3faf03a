import CloudifyKubernetes.ApiRuns
import CloudifyKubernetes.CreationRuns
import CloudifyKubernetes.Effects.Enters
import CloudifyKubernetes.NestedResources

namespace CloudifyKubernetes

open Collections Effects Program

def Event.deletion? : Event → Option Value
  | .called ⟨.delete resourceId, _, _⟩ => some resourceId
  | _ => none

def deletions (events : List Event) : List Value := events.filterMap Event.deletion?

def Event.Answered : Event → Prop
  | .returned _ result => (∃ v, result >>= jsonCleanuper = .ok v) ∨
      ∃ e, result = .error e ∧ e.isA .apiOperationError = true ∧ Text.contains e.text "(404)" = true
  | _ => True

abbrev Deletes {σ α : Type} (log : σ → List Event) (node : Node) (ids : List Value) (s : σ)
    (ran : Except Exception α × σ) : Prop :=
  Enters log Event.deletion? Event.Answered (node.useExternalResource = false) ids s ran

structure Deletable (d : KubernetesResourceDefinition) : Prop where
  mapped : ∀ nodeOptions, (mappingByKind nodeOptions d).isOk = true
  readable : ∃ annotations, customAnnotations d = .ok annotations
  named : ∃ fields name, d.metadata = .dict fields ∧ fields.lookup "name" = some name

section

variable {kube : Kubernetes} {node : Node} {mapping : KubernetesApiMapping} {definition : KubernetesResourceDefinition}
  {resourceId : Value} {s : State}

theorem Deletable.index (deletable : Deletable definition) : ∃ name, definition.metadata.index "name" = .ok name := by
  obtain ⟨fields, name, metadata, found⟩ := deletable.named
  exact ⟨name, by rw [metadata, Value.index, found]⟩

theorem Deletable.get (deletable : Deletable definition) :
    ∃ name, definition.metadata.get "name" .none = .ok name := by
  obtain ⟨fields, name, metadata, found⟩ := deletable.named
  exact ⟨name, by rw [metadata, Value.get, found]; rfl⟩

theorem CallEvents.deletions {c : ClientCall} {result : Except Exception Value} {events : List Event}
    (call : CallEvents c result events) : deletions events = (Event.deletion? (.called c)).toList := by
  obtain ⟨sent, rfl, requests⟩ := call
  have none : sent.filterMap Event.deletion? = [] := by
    rw [List.filterMap_eq_nil_iff]
    intro e member
    obtain ⟨request, answer, rfl⟩ := requests e member
    rfl
  have rest : (sent ++ [Event.returned c result]).filterMap Event.deletion? = [] := by
    rw [List.filterMap_append, none]
    rfl
  rw [CloudifyKubernetes.deletions, List.filterMap_cons, rest]
  cases Event.deletion? (.called c) <;> rfl

theorem CallEvents.answered {c : ClientCall} {result : Except Exception Value} {events : List Event}
    (call : CallEvents c result events) (fine : ∀ e ∈ events, e.Answered) : Event.Answered (.returned c result) := by
  obtain ⟨sent, rfl, _⟩ := call
  exact fine _ (by simp)

theorem jsonCleanuper_existing {checked : Except Exception Value} {found : Value}
    (answered : existing definition (checked >>= jsonCleanuper) = .ok found) (truthy : found.truthy = true) :
    ∃ v, jsonCleanuper found = .ok v := by
  cases cleaned : checked >>= jsonCleanuper with
  | error e =>
    rw [cleaned] at answered
    rw [(existing_missing answered).2] at truthy
    cases truthy
  | ok v =>
    rw [cleaned] at answered
    cases answered
    obtain ⟨raw, _, same⟩ := ok_of_bind cleaned
    cases raw with
    | dict entries =>
      cases same
      rw [Value.clean]
      exact ⟨_, rfl⟩
    | _ => cases same

theorem existing_answered (deletable : Deletable definition) {checked : Except Exception Value} {c : ClientCall}
    (fine : Event.Answered (.returned c checked)) : ∃ found, existing definition (checked >>= jsonCleanuper) = .ok found := by
  rcases fine with ⟨v, cleaned⟩ | ⟨e, rfl, asked, _⟩
  · exact ⟨v, by rw [cleaned]; rfl⟩
  · obtain ⟨name, named⟩ := deletable.index
    refine ⟨.none, ?_⟩
    change existing definition (.error e) = _
    rw [existing, if_pos asked, named]
    rfl

def missingIsDeleted : Except Exception Value → Except Exception Value
  | .ok response => .ok response
  | .error e =>
    if e.isA .nonRecoverableError || e.isA .apiOperationError then
      if Text.contains e.text "(404)" then .ok .none
      else .error ⟨.recoverableError, "Raising error: " ++ e.text⟩
    else .error e

theorem deletedOrMissing_run (s : State) : deletedOrMissing kube node resourceId mapping definition s =
    (missingIsDeleted (doResourceDelete kube node mapping definition resourceId s).1,
      (doResourceDelete kube node mapping definition resourceId s).2) := by
  rw [deletedOrMissing, bind_run_ok (attempt_run _ _)]
  generalize doResourceDelete kube node mapping definition resourceId s = ran
  obtain ⟨e | response, s'⟩ := ran
  · simp only [missingIsDeleted]
    split
    · split <;> rfl
    · rfl
  · rfl

theorem deletedOrMissing_deletes (deletable : Deletable definition) :
    Deletes State.log node [resourceId] s (deletedOrMissing kube node resourceId mapping definition s) := by
  rw [deletedOrMissing_run]
  have run := doResourceDelete_run kube node mapping definition resourceId s
  generalize doResourceDelete kube node mapping definition resourceId s = ran at run ⊢
  cases run with
  | malformed e failed =>
    obtain ⟨annotations, found⟩ := deletable.readable
    cases found.symm.trans failed
  | unchecked _ checked e options events check failed =>
    have none := check.deletions
    refine ⟨_, rfl, ?_, fun fine => ?_⟩
    · change (deletions events).Sublist _
      rw [none]
      exact List.nil_sublist _
    · obtain ⟨found, answered⟩ := existing_answered deletable (check.answered fun e member => fine e (by simp [member]))
      cases failed.symm.trans answered
  | withheld _ checked found options events check answered expected =>
    have none := check.deletions
    rw [Bool.and_eq_true] at expected
    obtain ⟨v, cleaned⟩ := jsonCleanuper_existing answered expected.1
    refine ⟨_, rfl, ?_, fun _ => ⟨⟨v, ?_⟩, fun owned => ?_⟩⟩
    · change (deletions events).Sublist _
      rw [none]
      exact List.nil_sublist _
    · rw [cleaned]
      rfl
    · cases owned.symm.trans expected.2
  | deleted _ checked found options events check answered unexpected result events' delete =>
    have whole : deletions (events ++ events') = [resourceId] := by
      rw [deletions, List.filterMap_append]
      exact congrArg₂ _ check.deletions delete.deletions
    refine ⟨_, rfl, ?_, fun fine => ⟨?_, fun _ => whole⟩⟩
    · change (deletions (events ++ events')).Sublist _
      rw [whole]
    · rcases delete.answered fun e member => fine e (by simp [member]) with ⟨v, cleaned⟩ | ⟨e, rfl, asked, missing⟩
      · exact ⟨v, by rw [cleaned]; rfl⟩
      · refine ⟨.none, ?_⟩
        change missingIsDeleted (.error e) = _
        rw [missingIsDeleted, asked, missing, Bool.or_true]
        rfl

variable {load : String → Except Exception Value} {payload : String}

theorem chooseMapping_deletes (deletable : Deletable definition) :
    Deletes State.log node [] s (chooseMapping definition s) := by
  rw [chooseMapping_run]
  have mapped := deletable.mapped s.options.keys
  cases found : mappingByKind s.options.keys definition with
  | error e =>
    rw [found] at mapped
    cases mapped
  | ok mapping => exact .uncounted rfl rfl (by simp [Event.deletion?])

theorem handleExistingResource_deletes (found : Value) :
    Deletes State.log node [] s (handleExistingResource node found s) := by
  rw [handleExistingResource_run]
  exact .quiet rfl rfl

theorem modifyRuntime_deletes (f : RuntimeProperties → RuntimeProperties) :
    Deletes State.log node [] s (modifyRuntime f s) := .quiet rfl rfl

theorem recordedState_deletes (path : String) : Deletes State.log node [] s (recordedState path s) := by
  rw [recordedState, bind_run_ok (getRuntime_run s)]
  split <;> exact .quiet rfl rfl

theorem payloadTask_deletes (loaded : resourceDefinitionFromPayload load payload = .ok definition)
    (deletable : Deletable definition) :
    Deletes State.log node [resourceId] s (payloadTask load node (deletedOrMissing kube node resourceId) payload s) := by
  obtain ⟨name, named⟩ := deletable.get
  rw [payloadTask, loaded]
  refine .bind_left (.quiet rfl rfl) fun d s' ran => ?_
  cases ran
  refine .bind_left (chooseMapping_deletes deletable) fun mapping s' _ => ?_
  rw [named]
  refine .bind_left (.quiet rfl rfl) fun _ s' _ => ?_
  refine .bind_left (recordedState_deletes _) fun currentState s' _ => ?_
  refine .bind_left (handleExistingResource_deletes currentState) fun _ s' _ => ?_
  refine .bind_right (deletedOrMissing_deletes deletable) fun result s' _ => ?_
  refine .bind_left (modifyRuntime_deletes _) fun _ s' _ => ?_
  cases currentState.truthy with
  | true => exact .bind_left (modifyRuntime_deletes _) fun _ _ _ => .quiet rfl rfl
  | false => exact .quiet rfl rfl

/-- The deletion of a payload asks for its id, and returns if the API answers. -/
theorem resourceDeleteFromPayload_deletes (loaded : resourceDefinitionFromPayload load payload = .ok definition)
    (deletable : Deletable definition) :
    Deletes State.log node [resourceId] s (resourceDeleteFromPayload load kube node resourceId payload s) := by
  have whole : Deletes State.log node [resourceId] s
      (payloadTask load node (deletedOrMissing kube node resourceId) payload s) := payloadTask_deletes loaded deletable
  obtain ⟨events, grown, counted, returns⟩ := whole
  rw [resourceDeleteFromPayload, bind_run_ok (attempt_run _ _)]
  generalize payloadTask load node (deletedOrMissing kube node resourceId) payload s = ran at grown returns ⊢
  obtain ⟨e | result, s'⟩ := ran
  · refine ⟨events, grown, counted, fun fine => ?_⟩
    obtain ⟨⟨_, returned⟩, _⟩ := returns fine
    cases returned
  · exact ⟨events, grown, counted, returns⟩

end

def secretKeys (name account : Value) : List (String × Value) :=
  [("apiVersion", .str "v1"), ("kind", .str "Secret"),
    ("metadata", .dict [("name", name), ("annotations", .dict [("kubernetes.io/service-account.name", account)])]),
    ("type", .str "kubernetes.io/service-account-token")]

def serviceAccountKeys (name namesp : Value) : List (String × Value) :=
  [("apiVersion", .str "v1"), ("kind", .str "ServiceAccount"),
    ("metadata", .dict [("name", name), ("namespace", namesp)])]

def clusterRoleBindingKeys (name account namesp : Value) : List (String × Value) :=
  [("apiVersion", .str "rbac.authorization.k8s.io/v1"), ("kind", .str "ClusterRoleBinding"),
    ("metadata", .dict [("name", name)]),
    ("roleRef", .dict [("apiGroup", .str "rbac.authorization.k8s.io"), ("kind", .str "ClusterRole"),
      ("name", .str "cluster-admin")]),
    ("subjects", .list [.dict [("kind", .str "ServiceAccount"), ("name", account), ("namespace", namesp)]])]

structure Loads (load : String → Except Exception Value) (token account name namesp : String) : Prop where
  secret : ∃ v w, load (secretTemplate token account) = .ok (.dict (secretKeys v w))
  serviceAccount : ∃ v w, load (getServiceAccountPayload name namesp) = .ok (.dict (serviceAccountKeys v w))
  clusterRoleBinding : ∃ v w w', load (getClusterRoleBindingPayload name namesp) =
    .ok (.dict (clusterRoleBindingKeys v w w'))

theorem deletable_of_parts {d : KubernetesResourceDefinition} {fields : List (String × Value)}
    (known : (getMapping d.kind).isOk = true) (plain : d.isAnnotated = false) (metadata : d.metadata = .dict fields)
    (named : (fields.lookup "name").isSome = true)
    (annotated : ∃ annotations, customAnnotations d = .ok annotations) : Deletable d where
  mapped nodeOptions := by
    rw [mappingByKind, plain]
    cases found : getMapping d.kind with
    | ok mapping => rfl
    | error e =>
      rw [found] at known
      cases known
  readable := annotated
  named := by
    obtain ⟨name, found⟩ := Option.isSome_iff_exists.mp named
    exact ⟨fields, name, metadata, found⟩

def DeletableKeys (keys : List (String × Value)) : Prop :=
  ∃ d, KubernetesResourceDefinition.init keys = .ok d ∧ Deletable d

theorem secretKeys_deletable (name account : Value) : DeletableKeys (secretKeys name account) := by
  have known : (getMapping "Secret").isOk = true := by decide +kernel
  exact ⟨_, rfl, deletable_of_parts known rfl rfl rfl ⟨_, rfl⟩⟩

theorem serviceAccountKeys_deletable (name namesp : Value) : DeletableKeys (serviceAccountKeys name namesp) := by
  have known : (getMapping "ServiceAccount").isOk = true := by decide +kernel
  exact ⟨_, rfl, deletable_of_parts known rfl rfl rfl ⟨_, rfl⟩⟩

theorem clusterRoleBindingKeys_deletable (name account namesp : Value) :
    DeletableKeys (clusterRoleBindingKeys name account namesp) := by
  have known : (getMapping "ClusterRoleBinding").isOk = true := by decide +kernel
  exact ⟨_, rfl, deletable_of_parts known rfl rfl rfl ⟨_, rfl⟩⟩

theorem resourceDeleteFromPayload_keys {load : String → Except Exception Value} {kube : Kubernetes} {node : Node}
    {payload : String} {keys : List (String × Value)} (loaded : load payload = .ok (.dict keys))
    (deletable : DeletableKeys keys) (resourceId : Value) (s : State) :
    Deletes State.log node [resourceId] s (resourceDeleteFromPayload load kube node resourceId payload s) := by
  obtain ⟨d, made, deletable⟩ := deletable
  refine resourceDeleteFromPayload_deletes ?_ deletable
  rw [resourceDefinitionFromPayload, loaded]
  exact made

section

variable {load : String → Except Exception Value} {kube : Kubernetes} {node : Node} {instanceId account : String}
  {s : State} {properties : Dict}

theorem accountName_withoutToken : accountName (withoutToken properties) = accountName properties := by
  have same : (withoutToken properties).get? "service_account_response" = properties.get? "service_account_response" := by
    rw [withoutToken, OrderedDict.get?_erase, OrderedDict.get?_erase, if_neg (by decide), if_neg (by decide)]
  rw [accountName, same, accountName]

theorem accountName_set (response : Value) :
    accountName (properties.set "service_account_response" response) = responseName response := by
  rw [accountName, OrderedDict.get?_set_self]

def secretDeletion (load : String → Except Exception Value) (kube : Kubernetes) (node : Node) (account : String) :
    Task Value :=
  resourceDeleteFromPayload load kube node (.str (account ++ "-token"))
    (secretTemplate (account ++ "-token") account)

theorem deleteSecret_run (named : accountName properties = .ok (.str account)) :
    deleteSecret load kube node (s, properties) =
      ((secretDeletion load kube node account).onFirst >>= fun _ => modifyProperties withoutToken) (s, properties) := by
  rw [deleteSecret, bind_run_ok (show getProperties (s, properties) = (.ok properties, (s, properties)) from rfl), named]
  rfl

theorem nestedOps_deletes {resources : List (String × (String → String → String))}
    {operation : Value → String → Task Value} {name namesp : String}
    (each : ∀ resource ∈ resources, ∀ s,
      Deletes State.log node [.str name] s (operation (.str name) (resource.2 name namesp) s)) (pair : State × Dict) :
    Deletes (fun pair : State × Dict => pair.1.log) node (resources.flatMap fun _ => [.str name]) pair
      (nestedOps resources operation name namesp pair) := by
  refine .bind_right (.forEach fun resource member pair => ?_) fun _ _ _ => .quiet rfl rfl
  exact .bind_right (.onFirst (each resource member pair.1) pair.2) fun _ _ _ => .quiet rfl rfl

def tokenIds (account instanceId : String) : List Value :=
  [.str (account ++ "-token"), .str (resourceName instanceId), .str (resourceName instanceId)]

/-- With a name of the service account the deletion of a token asks for its three deletions. -/
theorem deleteToken_deletes (named : accountName properties = .ok (.str account))
    (loads : Loads load (account ++ "-token") account (resourceName instanceId) (templateNamespace s.options)) :
    Deletes (fun pair : State × Dict => pair.1.log) node (tokenIds account instanceId) (s, properties)
      (deleteToken load kube node instanceId (s, properties)) := by
  obtain ⟨v, w, secret⟩ := loads.secret
  refine .bind_left (.quiet rfl rfl) fun options s' ran => ?_
  cases ran
  refine .bind_left (.quiet rfl rfl) fun _ s' ran => ?_
  cases ran
  have first (s : State) : Deletes (fun pair : State × Dict => pair.1.log) node [.str (account ++ "-token")]
      (s, properties) (deleteSecret load kube node (s, properties)) := by
    rw [deleteSecret_run named]
    exact .bind_right (.onFirst (resourceDeleteFromPayload_keys secret (secretKeys_deletable v w) _ s) _)
      fun _ _ _ => .quiet rfl rfl
  refine Enters.bind (first _) fun _ s' _ => nestedOps_deletes (fun resource member s => ?_) s'
  simp only [List.mem_cons, List.not_mem_nil, or_false] at member
  rcases member with rfl | rfl
  · obtain ⟨v, w, loaded⟩ := loads.serviceAccount
    exact resourceDeleteFromPayload_keys loaded (serviceAccountKeys_deletable v w) _ s
  · obtain ⟨v, w, w', loaded⟩ := loads.clusterRoleBinding
    exact resourceDeleteFromPayload_keys loaded (clusterRoleBindingKeys_deletable v w w') _ s

/-- What the API answers to the deletion of the service account, in a run that gets that far. -/
def AccountDeleted (load : String → Except Exception Value) (kube : Kubernetes) (node : Node)
    (account instanceId : String) (s : State) (response : Value) : Prop :=
  ∃ result s₁ s₂, secretDeletion load kube node account
      { s with runtime := { s.runtime with performTask := some true } } = (.ok result, s₁) ∧
    resourceDeleteFromPayload load kube node (.str (resourceName instanceId))
      (getServiceAccountPayload (resourceName instanceId) (templateNamespace s.options)) s₁ = (.ok response, s₂)

theorem AccountDeleted.unique {response other : Value}
    (here : AccountDeleted load kube node account instanceId s response)
    (there : AccountDeleted load kube node account instanceId s other) : response = other := by
  obtain ⟨result, s₁, s₂, first, second⟩ := here
  obtain ⟨result', s₁', s₂', first', second'⟩ := there
  obtain ⟨_, rfl⟩ := Prod.mk.inj (first.symm.trans first')
  obtain ⟨same, _⟩ := Prod.mk.inj (second.symm.trans second')
  exact Except.ok.inj same

theorem deleteToken_run (named : accountName properties = .ok (.str account)) :
    deleteToken load kube node instanceId (s, properties) =
      ((secretDeletion load kube node account).onFirst >>= fun _ => modifyProperties withoutToken >>= fun _ =>
        nestedOps [("service_account", getServiceAccountPayload),
            ("cluster_role_binding", getClusterRoleBindingPayload)]
          (resourceDeleteFromPayload load kube node) (resourceName instanceId) (templateNamespace s.options))
        ({ s with runtime := { s.runtime with performTask := some true } }, properties) := by
  have whole : deleteToken load kube node instanceId (s, properties) =
      (deleteSecret load kube node >>= fun _ =>
        nestedOps [("service_account", getServiceAccountPayload),
            ("cluster_role_binding", getClusterRoleBindingPayload)]
          (resourceDeleteFromPayload load kube node) (resourceName instanceId) (templateNamespace s.options))
        ({ s with runtime := { s.runtime with performTask := some true } }, properties) := rfl
  rw [whole, bind_run, deleteSecret_run named, ← bind_run, bind_assoc]

theorem nestedOp_fails {operation : Value → String → Task Value} {name namesp : String}
    {resource : String × (String → String → String)} {e : Exception} {s' : State} {properties' : Dict}
    (ran : nestedOp operation name namesp resource (s, properties) = (.error e, (s', properties'))) :
    operation (.str name) (resource.2 name namesp) s = (.error e, s') ∧ properties' = properties := by
  rcases bind_error_inv ran with failed | ⟨_, _, _, ended⟩
  · exact onFirst_inv failed
  · cases ended

theorem nestedOp_returns {operation : Value → String → Task Value} {name namesp : String}
    {resource : String × (String → String → String)} {s' : State} {properties' : Dict}
    (ran : nestedOp operation name namesp resource (s, properties) = (.ok (), (s', properties'))) :
    ∃ response, operation (.str name) (resource.2 name namesp) s = (.ok response, s') ∧
      properties' = properties.set (resource.1 ++ "_response") response := by
  obtain ⟨response, ⟨s₁, _⟩, deleted, stored⟩ := bind_ok_inv ran
  obtain ⟨answered, rfl⟩ := onFirst_inv deleted
  cases stored
  exact ⟨response, answered, rfl⟩

/-- A run that fails leaves the name of the service account as it was before, unless the account has
    been deleted: then its name is the one in the answer. -/
theorem deleteToken_fails (named : accountName properties = .ok (.str account)) {e : Exception} {s' : State}
    {properties' : Dict} (ran : deleteToken load kube node instanceId (s, properties) = (.error e, (s', properties'))) :
    (accountName properties' = .ok (.str account) ∧
        ∀ response, ¬ AccountDeleted load kube node account instanceId s response) ∨
      ∃ response, AccountDeleted load kube node account instanceId s response ∧
        accountName properties' = responseName response := by
  rw [deleteToken_run named] at ran
  rcases bind_error_inv ran with failed | ⟨result, ⟨s₁, _⟩, secret, rest⟩
  · obtain ⟨broken, rfl⟩ := onFirst_inv failed
    refine .inl ⟨named, ?_⟩
    rintro response ⟨result, s₁, s₂, first, _⟩
    cases broken.symm.trans first
  obtain ⟨secretDeleted, rfl⟩ := onFirst_inv secret
  rcases bind_error_inv rest with failed | ⟨_, _, kept, nested⟩
  · cases failed
  cases kept
  rcases bind_error_inv nested with failed | ⟨_, _, _, ended⟩
  swap
  · cases ended
  obtain ⟨front, resource, back, ⟨s₂, properties₂⟩, split, rounds, raised⟩ := Rounds.of_forEach_error failed
  obtain ⟨broken, rfl⟩ := nestedOp_fails raised
  -- The first of the two nested operations raises, or the second.
  cases rounds with
  | nil =>
    cases split
    refine .inl ⟨accountName_withoutToken.trans named, ?_⟩
    rintro response ⟨result', s₁', s₂, first, second⟩
    obtain ⟨_, rfl⟩ := Prod.mk.inj (secretDeleted.symm.trans first)
    cases broken.symm.trans second
  | @cons first rest _ _ middle _ answered others =>
    obtain ⟨rfl, split⟩ := List.cons.inj split
    obtain ⟨s₃, _⟩ := middle
    obtain ⟨response, accountDeleted, rfl⟩ := nestedOp_returns answered
    refine .inr ⟨response, ⟨result, s₁, s₃, secretDeleted, accountDeleted⟩, ?_⟩
    cases others with
    | nil => exact accountName_set response
    | cons _ _ =>
      rw [List.cons_append, List.cons.injEq] at split
      simp at split

/-- The deletion of a token can be taken up again: the name of the service account is still there,
    and the run asks for the same deletions and returns once the API answers. -/
structure Resumable (load : String → Except Exception Value) (kube : Kubernetes) (node : Node)
    (account instanceId : String) (pair : State × Dict) : Prop where
  named : accountName pair.2 = .ok (.str account)
  deletes : Deletes (fun pair : State × Dict => pair.1.log) node (tokenIds account instanceId) pair
    (deleteToken load kube node instanceId pair)

/-- A deletion of a token that has failed can be taken up again from what it has left, exactly when it
    has not come to the answer for the service account, or that answer has the name of the account. -/
theorem resumable_iff (named : accountName properties = .ok (.str account))
    (loads : Loads load (account ++ "-token") account (resourceName instanceId) (templateNamespace s.options))
    {e : Exception} {s' : State} {properties' : Dict}
    (ran : deleteToken load kube node instanceId (s, properties) = (.error e, (s', properties'))) :
    Resumable load kube node account instanceId ({ s' with options := s.options }, properties') ↔
      ∀ response, AccountDeleted load kube node account instanceId s response →
        responseName response = .ok (.str account) := by
  have left : accountName properties' = .ok (.str account) ↔
      ∀ response, AccountDeleted load kube node account instanceId s response →
        responseName response = .ok (.str account) := by
    rcases deleteToken_fails named ran with ⟨kept, never⟩ | ⟨response, deleted, same⟩
    · exact iff_of_true kept fun response deleted => absurd deleted (never response)
    · rw [same]
      constructor
      · intro answered other deleted'
        rwa [deleted'.unique deleted]
      · intro answered
        exact answered response deleted
  rw [← left]
  constructor
  · exact fun resumable => resumable.named
  · intro kept
    have again : templateNamespace ({ s' with options := s.options } : State).options = templateNamespace s.options := rfl
    exact ⟨kept, deleteToken_deletes kept (again ▸ loads)⟩

end

open Package

def clusterMethods (suffix : String) : List (String × List String) :=
  [("create_" ++ suffix, ["body"]), ("read_" ++ suffix, ["name"]), ("patch_" ++ suffix, ["name", "body"]),
    ("delete_" ++ suffix, ["name"])]

def tokenCluster (respond : List Request → Request → Answer) : Kubernetes where
  apiClass name :=
    if name = "CoreV1Api" then some fun method => (["secret", "service_account"].flatMap namespacedMethods).lookup method
    else if name = "RbacAuthorizationV1Api" then some fun method => (clusterMethods "cluster_role_binding").lookup method
    else none
  payloadClass name := Package.payloadClasses.lookup name
  apis := ["CoreV1Api", "RbacAuthorizationV1Api"]
  payloadName _ _ := none
  respond := respond

/-- An API server on which the service account is gone, and the role binding cannot be deleted. -/
def bindingFails : Kubernetes := tokenCluster fun _ request =>
  if Text.contains request.method "service_account" then
    .error (.apiException { status := some 404, reason := "Not Found" })
  else if Text.contains request.method "cluster_role_binding" then
    .error (.apiException { status := some 500, reason := "Internal Server Error" })
  else .ok (response "Secret" "shared-1-token")

def loadShared (text : String) : Except Exception Value :=
  if text = secretTemplate "shared-1-token" "shared-1" then
    .ok (.dict (secretKeys (.str "shared-1-token") (.str "shared-1")))
  else if text = getServiceAccountPayload "shared-1" "main" then
    .ok (.dict (serviceAccountKeys (.str "shared-1") (.str "main")))
  else if text = getClusterRoleBindingPayload "shared-1" "main" then
    .ok (.dict (clusterRoleBindingKeys (.str "shared-1") (.str "shared-1") (.str "main")))
  else .error ⟨.valueError, "while scanning a text"⟩

def sharedToken : Dict := OrderedDict.empty.set "service_account_response" (response "ServiceAccount" "shared-1")

theorem loadShared_loads : Loads loadShared "shared-1-token" "shared-1" "shared-1" "main" := by
  refine ⟨⟨_, _, if_pos rfl⟩, ⟨.str "shared-1", .str "main", ?_⟩,
    ⟨.str "shared-1", .str "shared-1", .str "main", ?_⟩⟩
  · rw [loadShared, if_neg (by decide +kernel), if_pos rfl]
  · rw [loadShared, if_neg (by decide +kernel), if_neg (by decide +kernel), if_pos rfl]

theorem bindingFails_run : ∃ e s' properties', deleteToken loadShared bindingFails ownNode "shared_1"
      (mainNamespace, sharedToken) = (.error e, (s', properties')) ∧ e.isA .recoverableError = true ∧
    (accountName properties').isOk = false := by
  have failed : raising (fun e pair => e.isA .recoverableError && !(accountName pair.2).isOk)
      (deleteToken loadShared bindingFails ownNode "shared_1" (mainNamespace, sharedToken)) = true := by
    decide +kernel
  obtain ⟨e, ⟨s', properties'⟩, ran, check⟩ := raising_iff.mp failed
  rw [Bool.and_eq_true, Bool.not_eq_true'] at check
  exact ⟨e, s', properties', ran, check⟩

/-- A service account that is gone leaves no name behind for the next attempt. -/
theorem account_name_lost : accountName sharedToken = .ok (.str "shared-1") ∧
    ∃ e s' properties', deleteToken loadShared bindingFails ownNode "shared_1" (mainNamespace, sharedToken) =
        (.error e, (s', properties')) ∧ e.isA .recoverableError = true ∧
      ¬ Resumable loadShared bindingFails ownNode "shared-1" "shared_1"
        ({ s' with options := mainNamespace.options }, properties') := by
  obtain ⟨e, s', properties', ran, retried, unnamed⟩ := bindingFails_run
  refine ⟨rfl, e, s', properties', ran, retried, fun resumable => ?_⟩
  have named : accountName properties' = .ok (.str "shared-1") := resumable.named
  rw [named] at unnamed
  cases unnamed

theorem resumable_iff_shared : ∃ e s' properties', deleteToken loadShared bindingFails ownNode "shared_1"
      (mainNamespace, sharedToken) = (.error e, (s', properties')) ∧
    (Resumable loadShared bindingFails ownNode "shared-1" "shared_1"
        ({ s' with options := mainNamespace.options }, properties') ↔
      ∀ response, AccountDeleted loadShared bindingFails ownNode "shared-1" "shared_1" mainNamespace response →
        responseName response = .ok (.str "shared-1")) := by
  obtain ⟨e, s', properties', ran, _⟩ := bindingFails_run
  have token : "shared-1" ++ "-token" = "shared-1-token" := by decide
  have name : resourceName "shared_1" = "shared-1" := by decide +kernel
  have space : templateNamespace mainNamespace.options = "main" := by decide +kernel
  have loads : Loads loadShared ("shared-1" ++ "-token") "shared-1" (resourceName "shared_1")
      (templateNamespace mainNamespace.options) := by
    rw [token, name, space]
    exact loadShared_loads
  exact ⟨e, s', properties', ran, resumable_iff rfl loads ran⟩

end CloudifyKubernetes
