import CloudifyKubernetes.TaskFlag
import CloudifyKubernetes.TokenDeletion

namespace CloudifyKubernetes

open Collections Effects Program

def tokenProperties : List String :=
  ["service_account_response", "cluster_role_binding_response", "secret_response", "k8s-service-account-token",
    "k8s-ip", "k8s-cacert"]

def SameOutside (stale : String → Prop) (p q : Dict) : Prop := ∀ key, ¬stale key → p.get? key = q.get? key

abbrev SameButStale (stale : String → Prop) (s t : State × Dict) : Prop :=
  SameButFlag s.1 t.1 ∧ SameOutside stale s.2 t.2

section

variable {stale older : String → Prop}

theorem SameButStale.mono {s t : State × Dict} (same : SameButStale stale s t) (fewer : ∀ key, stale key → older key) :
    SameButStale older s t := by
  refine ⟨same.1, fun key fresh => ?_⟩
  apply same.2
  intro isStale
  exact fresh (fewer key isStale)

theorem SameOutside.set {p q : Dict} (same : SameOutside stale p q) (key : String) (value : Value) :
    SameOutside (fun other => stale other ∧ other ≠ key) (p.set key value) (q.set key value) := by
  intro other fresh
  rw [OrderedDict.get?_set, OrderedDict.get?_set]
  split
  · rfl
  · next different => exact same other fun isStale => fresh ⟨isStale, different⟩

theorem storeProperty_coupled (key : String) (value : Value) :
    Coupled (SameButStale stale) (storeProperty key value) (SameButStale fun other => stale other ∧ other ≠ key)
      (SameButStale older) := by
  apply Coupled.modify
  intro s t same
  exact ⟨same.1, same.2.set key value⟩

variable (fewer : ∀ key, stale key → older key)

include fewer

theorem ofExcept_older {α : Type} (result : Except Exception α) :
    Coupled (SameButStale stale) (Program.ofExcept result : TokenTask α) (SameButStale stale) (SameButStale older) :=
  (Coupled.ofExcept result).weaken (fun _ _ same => same) (fun _ _ same => same) fun _ _ same => same.mono fewer

theorem onFirst_older {α : Type} {task : Task α} (inner : Coupled SameButFlag task SameButFlag SameButFlag) :
    Coupled (SameButStale stale) task.onFirst (SameButStale stale) (SameButStale older) :=
  (Coupled.onFirst (K := SameOutside stale) inner).weaken (fun _ _ same => same) (fun _ _ same => same)
    fun _ _ same => SameButStale.mono same fewer

theorem readProperties_older {α : Type} {f : Dict → Except Exception α}
    (blind : ∀ p q, SameOutside stale p q → f p = f q) :
    Coupled (SameButStale stale) (readProperties f) (SameButStale stale) (SameButStale older) := by
  have read : Coupled (SameButStale stale) (readProperties f) (SameButStale stale) (SameButStale stale) := by
    apply Coupled.observe (f := fun s => f s.2)
    · intro s
      exact ofExcept_run _ _
    · intro s t same
      exact blind _ _ same.2
  exact read.weaken (fun _ _ same => same) (fun _ _ same => same) fun _ _ same => same.mono fewer

theorem storeDecoded_older (key : String) (encoded : Value) :
    Coupled (SameButStale stale) (storeDecoded key encoded) (SameButStale fun other => stale other ∧ other ≠ key)
      (SameButStale older) := by
  apply Coupled.bind (ofExcept_older fewer _)
  intro text
  exact storeProperty_coupled _ _

theorem storeEndpoint_older (known : ¬stale "capabilities") :
    Coupled (SameButStale stale) storeEndpoint (SameButStale fun other => stale other ∧ other ≠ "k8s-ip")
      (SameButStale older) := by
  have blind (p q : Dict) (same : SameOutside stale p q) : endpointOf p = endpointOf q := by
    rw [endpointOf, endpointOf, same _ known]
  apply Coupled.bind (readProperties_older fewer blind)
  intro endpoint
  exact storeProperty_coupled _ _

def withSecret (stale : String → Prop) (key : String) : Prop :=
  stale key ∧ key ∉ ["secret_response", "k8s-service-account-token", "k8s-ip", "k8s-cacert"]

theorem storeSecret_older (known : ¬stale "capabilities") (endpointFirst : Bool) (response : Value) :
    Coupled (SameButStale stale) (storeSecret endpointFirst response) (SameButStale (withSecret stale))
      (SameButStale older) := by
  apply Coupled.bind (ofExcept_older fewer _)
  intro token
  apply Coupled.bind (ofExcept_older fewer _)
  intro certificate
  apply Coupled.bind (storeProperty_coupled _ _)
  intro _
  cases endpointFirst with
  | true =>
    apply Coupled.bind (storeEndpoint_older (fun key old => fewer key old.1) fun old => known old.1)
    intro _
    apply Coupled.bind (storeDecoded_older (fun key old => fewer key old.1.1) _ _)
    intro _
    apply (storeDecoded_older (fun key old => fewer key old.1.1.1) _ _).weaken (fun _ _ same => same) _
      fun _ _ same => same
    intro _ _ same
    apply SameButStale.mono same
    simp only [withSecret, List.mem_cons, List.not_mem_nil, or_false, not_or]
    intro key old
    exact ⟨old.1.1.1.1, old.1.1.1.2, old.1.2, old.1.1.2, old.2⟩
  | false =>
    apply Coupled.bind (storeDecoded_older (fun key old => fewer key old.1) _ _)
    intro _
    apply Coupled.bind (storeEndpoint_older (fun key old => fewer key old.1.1) fun old => known old.1.1)
    intro _
    apply (storeDecoded_older (fun key old => fewer key old.1.1.1) _ _).weaken (fun _ _ same => same) _
      fun _ _ same => same
    intro _ _ same
    apply SameButStale.mono same
    simp only [withSecret, List.mem_cons, List.not_mem_nil, or_false, not_or]
    intro key old
    exact ⟨old.1.1.1.1, old.1.1.1.2, old.1.1.2, old.1.2, old.2⟩

end

section

variable {load : String → Except Exception Value} {kube : Kubernetes} {node : Node}

theorem payloadResourceTask_coupled {task : KubernetesApiMapping → KubernetesResourceDefinition → Task Value}
    (payload : String) : Coupled SameButFlag (payloadResourceTask load node task payload) SameButFlag SameButFlag := by
  have recorded : Coupled SameButFlag (recordedPayloadTask load node task payload) SameButFlag SameButFlag := by
    apply Coupled.bind (.ofExcept _)
    intro definition
    apply Coupled.bind (byKind_coupled definition)
    intro mapping
    apply Coupled.bind (.ofExcept _)
    intro _
    apply Coupled.bind (recordedState_coupled _)
    intro currentState
    exact ((handleExistingResource_settles currentState).bind _).coupled
  apply Coupled.bind recorded.attempt
  intro result
  cases result with
  | ok value => exact .pure _
  | error e => exact .raise _

theorem createdSecret_coupled (payload : String) :
    Coupled SameButFlag (createdSecret load kube node payload) SameButFlag SameButFlag := by
  apply Coupled.bind (payloadResourceTask_coupled payload).attempt
  intro result
  cases result with
  | ok value => exact .pure _
  | error e => exact payloadResourceTask_coupled payload

variable {stale older : String → Prop} (fewer : ∀ key, stale key → older key)

include fewer

theorem secretPayload_older (known : ¬stale "service_account_response") :
    Coupled (SameButStale stale) (readProperties secretPayload) (SameButStale stale) (SameButStale older) := by
  apply readProperties_older fewer
  intro p q same
  rw [secretPayload, secretPayload, accountName, accountName, same _ known]

theorem createSecret_older (account : ¬stale "service_account_response") (known : ¬stale "capabilities") :
    Coupled (SameButStale stale) (createSecret load kube node) (SameButStale (withSecret stale))
      (SameButStale older) := by
  apply Coupled.bind (secretPayload_older fewer account)
  intro payload
  apply Coupled.bind (onFirst_older fewer (createdSecret_coupled payload))
  intro response
  exact storeSecret_older fewer known false response

theorem readSecret_older (account : ¬stale "service_account_response") (known : ¬stale "capabilities") :
    Coupled (SameButStale stale) (readSecret load kube node) (SameButStale (withSecret stale))
      (SameButStale older) := by
  apply Coupled.bind (secretPayload_older fewer account)
  intro payload
  apply Coupled.bind (onFirst_older fewer (payloadResourceTask_coupled payload))
  intro response
  exact storeSecret_older fewer known true response

theorem checkSecret_older (account : ¬stale "service_account_response") :
    Coupled (SameButStale stale) (checkSecret load kube node) (SameButStale stale) (SameButStale older) := by
  apply Coupled.bind (secretPayload_older fewer account)
  intro payload
  apply Coupled.bind (onFirst_older fewer (payloadResourceTask_coupled payload))
  intro _
  exact .pure ()

omit fewer

def withResponses (names : List String) (stale : String → Prop) (key : String) : Prop :=
  stale key ∧ ∀ name ∈ names, key ≠ name ++ "_response"

variable {resources : List (String × (String → String → String))} {operation : Value → String → Task Value}
  (each : ∀ resourceId payload, Coupled SameButFlag (operation resourceId payload) SameButFlag SameButFlag)

include each

theorem nestedOps_older (name namesp : String) (fewer : ∀ key, stale key → older key) :
    Coupled (SameButStale stale) (nestedOps resources operation name namesp)
      (SameButStale (withResponses (resources.map Prod.fst) stale)) (SameButStale older) := by
  have all : Coupled (SameButStale stale) (Program.forEach resources (nestedOp operation name namesp))
      (SameButStale (withResponses (resources.map Prod.fst) stale)) (SameButStale older) := by
    induction resources generalizing stale with
    | nil =>
      intro s t same
      exact .value [] (same.mono fun key old => ⟨old, List.forall_mem_nil _⟩)
    | cons resource rest ih =>
      have first : Coupled (SameButStale stale) (nestedOp operation name namesp resource)
          (SameButStale fun key => stale key ∧ key ≠ resource.1 ++ "_response") (SameButStale older) := by
        apply Coupled.bind (onFirst_older fewer (each _ _))
        intro result
        exact storeProperty_coupled _ _
      apply Coupled.bind first
      intro _
      apply Coupled.bind (ih fun key old => fewer key old.1)
      intro _ s t same
      exact .value _ (same.mono fun key old => ⟨old.1.1, List.forall_mem_cons.mpr ⟨old.1.2, old.2⟩⟩)
  apply Coupled.bind all
  intro _
  exact .pure _

theorem nestedResourceTask_older {task : TokenTask Unit} {behind after : String → Prop} (instanceId : String)
    (body : Coupled (SameButStale (withResponses (resources.map Prod.fst) stale)) task (SameButStale behind)
      (SameButStale stale)) (covered : ∀ key, behind key → after key) :
    Coupled (SameButStale stale) (nestedResourceTask resources operation true instanceId task)
      (SameButStale after) (SameButStale stale) := by
  have itself (key : String) (old : stale key) : stale key := old
  apply Coupled.bind (onFirst_older itself (getOptions_coupled sameButFlag_options))
  intro options
  have flagged : Coupled SameButFlag (setPerformTask true) SameButFlag SameButFlag :=
    .modify fun s t same => congrArg State.unflagged (same.flagged (some true))
  apply Coupled.bind (onFirst_older itself flagged)
  intro _
  apply Coupled.bind (nestedOps_older each _ _ itself)
  intro _
  exact body.weaken (fun _ _ same => same) (fun _ _ same => same.mono covered) fun _ _ same => same

end

def LifecycleOperation.buildsToken : LifecycleOperation → Bool
  | .createToken => true
  | .readToken => true
  | _ => false

def LifecycleOperation.getsToken : LifecycleOperation → Bool
  | .getTokenStatus => true
  | operation => operation.buildsToken

def LifecycleOperation.refreshed (operation : LifecycleOperation) (stale : String → Prop) (key : String) : Prop :=
  stale key ∧ (operation.buildsToken = true → key ∉ tokenProperties)

section

variable (env : Environment) {stale : String → Prop}

theorem LifecycleOperation.run_older (ctx : OperationContext) {operation : LifecycleOperation}
    (gets : operation.getsToken = true) (known : ¬stale "capabilities") :
    Coupled (SameButStale stale) (operation.run env ctx) (SameButStale (operation.refreshed stale))
      (SameButStale stale) := by
  have payloads {task : KubernetesApiMapping → KubernetesResourceDefinition → Task Value} (_ : Value)
      (payload : String) : Coupled SameButFlag (payloadResourceTask env.load env.node task payload)
      SameButFlag SameButFlag := payloadResourceTask_coupled payload
  have fewer {names : List String} (key : String) (old : withResponses names stale key) : stale key := old.1
  have read : ¬withResponses ["service_account", "cluster_role_binding"] stale "service_account_response" :=
    fun old => old.2 "service_account" List.mem_cons_self rfl
  cases operation with
  | createToken =>
    have created : ¬withResponses ["cluster_role_binding", "service_account"] stale "service_account_response" :=
      fun old => old.2 "service_account" (List.mem_cons_of_mem _ List.mem_cons_self) rfl
    refine nestedResourceTask_older payloads _ (createSecret_older fewer created fun old => known old.1) ?_
    simp only [withSecret, withResponses, refreshed, buildsToken, tokenProperties, List.mem_cons, List.not_mem_nil,
      or_false, not_or, forall_eq_or_imp, forall_eq, List.map]
    intro key old
    exact ⟨old.1.1, fun _ => ⟨old.1.2.2, old.1.2.1, old.2⟩⟩
  | readToken =>
    refine nestedResourceTask_older payloads _ (readSecret_older fewer read fun old => known old.1) ?_
    simp only [withSecret, withResponses, refreshed, buildsToken, tokenProperties, List.mem_cons, List.not_mem_nil,
      or_false, not_or, forall_eq_or_imp, forall_eq, List.map, tokenResources]
    intro key old
    exact ⟨old.1.1, fun _ => ⟨old.1.2.1, old.1.2.2, old.2⟩⟩
  | getTokenStatus =>
    refine nestedResourceTask_older payloads _ (checkSecret_older fewer read) ?_
    exact fun key old => ⟨old.1, fun builds => by cases builds⟩
  | plain => cases gets
  | _ => cases gets

def Rebuilt (operations : List (OperationContext × LifecycleOperation)) (results : List (Except Exception Unit)) : Prop :=
  ∃ made ∈ operations.zip results, made.1.2.buildsToken = true ∧ made.2 = .ok ()

theorem attempt_older (options : Dict) {next : OperationContext × LifecycleOperation} {s t : State × Dict}
    (gets : next.2.getsToken = true) (known : ¬stale "capabilities") (same : SameButStale stale s t) :
    (next.2.run env next.1 ({ s.1 with options }, s.2)).1 = (next.2.run env next.1 ({ t.1 with options }, t.2)).1 ∧
      SameButStale (fun key => stale key ∧ (next.2.buildsToken = true →
          (next.2.run env next.1 ({ s.1 with options }, s.2)).1 = .ok () → key ∉ tokenProperties))
        (next.2.run env next.1 ({ s.1 with options }, s.2)).2 (next.2.run env next.1 ({ t.1 with options }, t.2)).2 := by
  have step := next.2.run_older env next.1 gets known ({ s.1 with options }, s.2)
    ({ t.1 with options }, t.2) ⟨sameButFlag_options.edited same.1 options, same.2⟩
  generalize next.2.run env next.1 ({ s.1 with options }, s.2) = ran at step ⊢
  generalize next.2.run env next.1 ({ t.1 with options }, t.2) = ran' at step ⊢
  cases step with
  | value value related => exact ⟨rfl, related.mono fun key old => ⟨old.1, fun builds _ => old.2 builds⟩⟩
  | exception e related => exact ⟨rfl, related.mono fun key old => ⟨old, fun _ returned => by cases returned⟩⟩

theorem lifecycle_older (options : Dict) {operations : List (OperationContext × LifecycleOperation)}
    (gets : ∀ next ∈ operations, next.2.getsToken = true) (known : ¬stale "capabilities") {s t : State × Dict}
    (same : SameButStale stale s t) :
    ∃ results, (lifecycle env options operations s).1 = .ok results ∧
      (lifecycle env options operations t).1 = .ok results ∧
      SameButStale (fun key => stale key ∧ (Rebuilt operations results → key ∉ tokenProperties))
        (lifecycle env options operations s).2 (lifecycle env options operations t).2 := by
  induction operations generalizing stale s t with
  | nil =>
    refine ⟨[], rfl, rfl, same.mono fun key old => ⟨old, fun rebuilt => ?_⟩⟩
    obtain ⟨_, member, _⟩ := rebuilt
    cases member
  | cons next rest ih =>
    obtain ⟨first, others⟩ := List.forall_mem_cons.mp gets
    have step := attempt_older env options first known same
    obtain ⟨results, ran, ran', last⟩ := ih others (fun old => known old.1) step.2
    rw [lifecycle_cons_run env options next rest s ran, lifecycle_cons_run env options next rest t ran']
    refine ⟨_, rfl, congrArg (fun first => Except.ok (first :: results)) step.1.symm, last.mono fun key old => ?_⟩
    refine ⟨old.1.1, fun rebuilt => ?_⟩
    obtain ⟨made, member, builds, returned⟩ := rebuilt
    rw [List.zip_cons_cons, List.mem_cons] at member
    cases member with
    | inl here =>
      subst here
      exact old.1.2 builds returned
    | inr later => exact old.2 ⟨made, later, builds, returned⟩

/-- Whatever earlier attempts have left in the runtime properties of the token, attempts at creating,
    reading and checking it end alike, and behind one that has built the token nothing of it is left. -/
theorem tokenAttempts_rebuilt (options : Dict) {operations : List (OperationContext × LifecycleOperation)}
    (gets : ∀ next ∈ operations, next.2.getsToken = true) {s t : State} (same : SameButFlag s t) {p q : Dict}
    (elsewhere : ∀ key, key ∉ tokenProperties → p.get? key = q.get? key) :
    ∃ results, (lifecycle env options operations (s, p)).1 = .ok results ∧
      (lifecycle env options operations (t, q)).1 = .ok results ∧
      SameButFlag (lifecycle env options operations (s, p)).2.1 (lifecycle env options operations (t, q)).2.1 ∧
      ∀ key, (key ∈ tokenProperties → Rebuilt operations results) →
        (lifecycle env options operations (s, p)).2.2.get? key = (lifecycle env options operations (t, q)).2.2.get? key := by
  have endpoint : ¬("capabilities" ∈ tokenProperties) := by decide
  have pairs : SameButStale (· ∈ tokenProperties) (s, p) (t, q) := ⟨same, elsewhere⟩
  obtain ⟨results, ran, ran', last⟩ := lifecycle_older env options gets endpoint pairs
  refine ⟨results, ran, ran', last.1, fun key fresh => ?_⟩
  apply last.2
  intro old
  exact old.2 (fresh old.1) old.1

end

open Package

def issuing : Kubernetes := tokenCluster fun _ request =>
  if Text.contains request.method "secret" then .ok (.dict
    [("api_version", .str "v1"), ("kind", .str "Secret"), ("metadata", .dict [("name", .str "shared-1-token")]),
      ("data", .dict [("token", .str "dG9rZW4="), ("ca.crt", .str "Y2VydA==")])])
  else if Text.contains request.method "service_account" then .ok (response "ServiceAccount" "shared-1")
  else .ok (response "ClusterRoleBinding" "shared-1")

def sharedNode : Environment where
  kube := issuing
  node := ownNode
  load := loadShared
  checkDrift _ _ := .ok .none
  instanceId := "shared_1"

def clusterProperties : Dict :=
  OrderedDict.empty.set "capabilities" (.dict [("endpoint", .str "https://10.0.0.1:6443")])

theorem tokenAttempts_rebuilt_shared :
    ∃ results, (lifecycle sharedNode mainNamespace.options [(install, .createToken), (install, .readToken)]
        (mainNamespace, clusterProperties.set "k8s-cacert" (.str "expired"))).1 = .ok results ∧
      (lifecycle sharedNode mainNamespace.options [(install, .createToken), (install, .readToken)]
        (mainNamespace, clusterProperties)).1 = .ok results ∧
      SameButFlag (lifecycle sharedNode mainNamespace.options [(install, .createToken), (install, .readToken)]
          (mainNamespace, clusterProperties.set "k8s-cacert" (.str "expired"))).2.1
        (lifecycle sharedNode mainNamespace.options [(install, .createToken), (install, .readToken)]
          (mainNamespace, clusterProperties)).2.1 ∧
      ∀ key, (key ∈ tokenProperties → Rebuilt [(install, .createToken), (install, .readToken)] results) →
        (lifecycle sharedNode mainNamespace.options [(install, .createToken), (install, .readToken)]
            (mainNamespace, clusterProperties.set "k8s-cacert" (.str "expired"))).2.2.get? key =
          (lifecycle sharedNode mainNamespace.options [(install, .createToken), (install, .readToken)]
            (mainNamespace, clusterProperties)).2.2.get? key := by
  apply tokenAttempts_rebuilt sharedNode mainNamespace.options _ rfl
  · intro key other
    apply OrderedDict.get?_set_ne
    intro cert
    subst cert
    exact other (by decide)
  · intro next member
    simp only [List.mem_cons, List.not_mem_nil, or_false] at member
    rcases member with rfl | rfl
    · rfl
    · rfl

end CloudifyKubernetes
