import CloudifyKubernetes.ClientConfig
import CloudifyKubernetes.Effects.Yields
import CloudifyKubernetes.TokenRetries
import CloudifyKubernetes.LifecycleSteps

namespace CloudifyKubernetes

open Collections Effects Program

def ReadBack (load : String → Except Exception Value) (payload : String) (log : List Event) (result : Value) : Prop :=
  ∃ mapping definition response, resourceDefinitionFromPayload load payload = .ok definition ∧
    .returned ⟨.read .task, mapping, definition⟩ (.ok response) ∈ log ∧ jsonCleanuper response = .ok result

/-- The text is an entry of the secret of a service account, decoded from what a read of it was answered. -/
def FromSecret (load : String → Except Exception Value) (log : List Event) (entry text : String) : Prop :=
  ∃ account payload secret encoded, getSecretPayload account = .ok payload ∧ ReadBack load payload log secret ∧
    secretEntry secret entry = .ok encoded ∧ decodedText encoded = .ok text

section

variable {load : String → Except Exception Value} {payload entry text : String} {log : List Event} {result : Value}

theorem ReadBack.append (read : ReadBack load payload log result) (events : List Event) :
    ReadBack load payload (log ++ events) result := by
  obtain ⟨mapping, definition, response, loaded, answered, cleaned⟩ := read
  exact ⟨mapping, definition, response, loaded, List.mem_append_left _ answered, cleaned⟩

theorem FromSecret.append (given : FromSecret load log entry text) (events : List Event) :
    FromSecret load (log ++ events) entry text := by
  obtain ⟨account, payload, secret, encoded, named, read, found, decoded⟩ := given
  exact ⟨account, payload, secret, encoded, named, read.append events, found, decoded⟩

end

section

variable {load : String → Except Exception Value} {kube : Kubernetes} {node : Node}

def ReadsBack (load : String → Except Exception Value) (payload : String) (task : Task Value) : Prop :=
  ∀ s result s', task s = (.ok result, s') → ReadBack load payload s'.log result

theorem doResourceRead_answered {mapping : KubernetesApiMapping} {definition : KubernetesResourceDefinition}
    {s s' : State} {result : Value} (ran : doResourceRead kube .task mapping definition s = (.ok result, s')) :
    ∃ response, .returned ⟨.read .task, mapping, definition⟩ (.ok response) ∈ s'.log ∧
      jsonCleanuper response = .ok result := by
  have run := doResourceRead_run kube .task mapping definition s
  rw [ran] at run
  generalize ended : ((.ok result, s') : Except Exception Value × State) = outcome at run
  cases run with
  | malformed e failed => cases ended
  | called answer options events readable call =>
    obtain ⟨called, rfl⟩ := Prod.mk.inj ended
    obtain ⟨response, rfl, cleaned⟩ := ok_of_bind called.symm
    refine ⟨response, ?_, cleaned⟩
    obtain ⟨sent, rfl, _⟩ := call
    simp

theorem createThenRead_answered {mapping : KubernetesApiMapping} {definition : KubernetesResourceDefinition}
    {s s' : State} {result : Value} (ran : createThenRead kube mapping definition s = (.ok result, s')) :
    ∃ middle, doResourceRead kube .task mapping definition middle = (.ok result, s') := by
  obtain ⟨created, middle, _, ran⟩ := bind_ok_inv ran
  obtain ⟨found, last, read, ran⟩ := bind_ok_inv ran
  cases created with
  | ok value =>
    cases ran
    exact ⟨middle, read⟩
  | error e =>
    dsimp only at ran
    cases conflict : e.isConflict with
    | true =>
      rw [conflict] at ran
      cases ran
      exact ⟨middle, read⟩
    | false =>
      rw [conflict] at ran
      cases ran

theorem payloadResourceTask_readsBack {task : KubernetesApiMapping → KubernetesResourceDefinition → Task Value}
    (reads : ∀ mapping definition s result s', task mapping definition s = (.ok result, s') →
      ∃ middle, doResourceRead kube .task mapping definition middle = (.ok result, s')) (payload : String) :
    ReadsBack load payload (payloadResourceTask load node task payload) := by
  intro s result s' ran
  obtain ⟨outcome, middle, attempted, ran⟩ := bind_ok_inv ran
  cases outcome with
  | error e => cases ran
  | ok value =>
    cases ran
    have ran : recordedPayloadTask load node task payload s = (.ok result, s') := attempt_ok_inv attempted
    obtain ⟨definition, loaded, ran⟩ := bind_ofExcept_ok_inv ran
    obtain ⟨mapping, _, _, ran⟩ := bind_ok_inv ran
    obtain ⟨name, _, ran⟩ := bind_ofExcept_ok_inv ran
    obtain ⟨currentState, _, _, ran⟩ := bind_ok_inv ran
    obtain ⟨_, _, _, ran⟩ := bind_ok_inv ran
    obtain ⟨found, last, performed, ran⟩ := bind_ok_inv ran
    cases ran
    obtain ⟨before, read⟩ := reads mapping definition _ _ _ performed
    obtain ⟨response, answered, cleaned⟩ := doResourceRead_answered read
    exact ⟨mapping, definition, response, loaded, answered, cleaned⟩

theorem createdSecret_readsBack (payload : String) : ReadsBack load payload (createdSecret load kube node payload) := by
  have read (mapping : KubernetesApiMapping) (definition : KubernetesResourceDefinition) (s : State) (result : Value)
      (s' : State) (ran : doResourceRead kube .task mapping definition s = (.ok result, s')) :
      ∃ middle, doResourceRead kube .task mapping definition middle = (.ok result, s') := ⟨s, ran⟩
  have create (mapping : KubernetesApiMapping) (definition : KubernetesResourceDefinition) (s : State) (result : Value)
      (s' : State) (ran : createThenRead kube mapping definition s = (.ok result, s')) :
      ∃ middle, doResourceRead kube .task mapping definition middle = (.ok result, s') := createThenRead_answered ran
  intro s result s' ran
  obtain ⟨outcome, middle, attempted, ran⟩ := bind_ok_inv ran
  cases outcome with
  | ok value =>
    cases ran
    exact payloadResourceTask_readsBack create payload s result s' (attempt_ok_inv attempted)
  | error e => exact payloadResourceTask_readsBack read payload middle result s' ran

theorem resourceReadFromPayload_readsBack (payload : String) :
    ReadsBack load payload (resourceReadFromPayload load kube node payload) :=
  payloadResourceTask_readsBack (fun _ _ s _ _ ran => ⟨s, ran⟩) payload

end

/-- A runtime property that clients of the cluster go by comes from a secret that was read, and the
    address from the endpoint. -/
structure Vouched (load : String → Except Exception Value) (endpoint : Except Exception Value) (log : List Event)
    (key : String) (v : Value) : Prop where
  host : key = "k8s-ip" → endpoint = .ok v
  token : key = "k8s-service-account-token" → ∃ text, v = .str text ∧ FromSecret load log "token" text
  certificate : key = "k8s-cacert" → ∃ text, v = .str text ∧ FromSecret load log "ca.crt" text

structure Held (load : String → Except Exception Value) (endpoint : Except Exception Value) (s : State × Dict) : Prop where
  address : endpointOf s.2 = endpoint
  vouched : ∀ key v, s.2.get? key = some v → Vouched load endpoint s.1.log key v

section

variable {load : String → Except Exception Value} {endpoint : Except Exception Value}

theorem Vouched.append {log : List Event} {key : String} {v : Value} (vouched : Vouched load endpoint log key v)
    (events : List Event) : Vouched load endpoint (log ++ events) key v := by
  constructor
  · exact vouched.host
  · intro same
    obtain ⟨text, written, given⟩ := vouched.token same
    exact ⟨text, written, given.append events⟩
  · intro same
    obtain ⟨text, written, given⟩ := vouched.certificate same
    exact ⟨text, written, given.append events⟩

theorem vouched_host {log : List Event} {v : Value} (address : endpoint = .ok v) :
    Vouched load endpoint log "k8s-ip" v where
  host _ := address
  token same := absurd same (by decide)
  certificate same := absurd same (by decide)

theorem vouched_token {log : List Event} {text : String} (given : FromSecret load log "token" text) :
    Vouched load endpoint log "k8s-service-account-token" (.str text) where
  host same := absurd same (by decide)
  token _ := ⟨text, rfl, given⟩
  certificate same := absurd same (by decide)

theorem vouched_certificate {log : List Event} {text : String} (given : FromSecret load log "ca.crt" text) :
    Vouched load endpoint log "k8s-cacert" (.str text) where
  host same := absurd same (by decide)
  token same := absurd same (by decide)
  certificate _ := ⟨text, rfl, given⟩

theorem Held.grown {s s' : State} {p : Dict} (held : Held load endpoint (s, p)) {events : List Event}
    (grown : s'.log = s.log ++ events) : Held load endpoint (s', p) := by
  constructor
  · exact held.address
  · intro key v found
    change Vouched load endpoint s'.log key v
    rw [grown]
    exact (held.vouched key v found).append events

theorem endpointOf_set (p : Dict) {key : String} (value : Value) (other : key ≠ "capabilities") :
    endpointOf (p.set key value) = endpointOf p := by
  rw [endpointOf, endpointOf, OrderedDict.get?_set_ne p value other.symm]

theorem Held.set {s : State} {p : Dict} (held : Held load endpoint (s, p)) {key : String} (other : key ≠ "capabilities")
    {value : Value} (vouched : Vouched load endpoint s.log key value) : Held load endpoint (s, p.set key value) := by
  constructor
  · exact (endpointOf_set p value other).trans held.address
  · intro client v found
    rw [OrderedDict.get?_set] at found
    split at found
    · next same =>
      cases found
      exact same ▸ vouched
    · exact held.vouched client v found

theorem Held.erase {s : State} {p : Dict} (held : Held load endpoint (s, p)) {key : String}
    (other : key ≠ "capabilities") : Held load endpoint (s, p.erase key) := by
  constructor
  · have before := held.address
    change endpointOf (p.erase key) = endpoint
    rw [endpointOf] at before ⊢
    rw [OrderedDict.get?_erase, if_neg other.symm]
    exact before
  · intro client v found
    rw [OrderedDict.get?_erase] at found
    split at found
    · cases found
    · exact held.vouched client v found

def clientProperties : List String := ["capabilities", "k8s-ip", "k8s-service-account-token", "k8s-cacert"]

theorem storeProperty_holds {key : String} (other : key ∉ clientProperties) (value : Value) :
    Yields (Held load endpoint) (storeProperty key value) fun _ => True := by
  simp only [clientProperties, List.mem_cons, List.not_mem_nil, or_false, not_or] at other
  apply Yields.modify
  intro s held
  apply Held.set held other.1
  constructor
  · exact fun same => absurd same other.2.1
  · exact fun same => absurd same other.2.2.1
  · exact fun same => absurd same other.2.2.2

theorem onFirst_holds {α : Type} {kube : Kubernetes} {task : Task α} {P : α → State → Prop}
    (steps : Within (Steps kube fun _ => True) task) (returned : ∀ s value s', task s = (.ok value, s') → P value s') :
    Triple (Held load endpoint) task.onFirst (fun value s => Held load endpoint s ∧ P value s.1) fun _ => Held load endpoint := by
  intro s held
  obtain ⟨events, grown⟩ := steps_extend (steps s.1)
  have returned := returned s.1
  change Outcome _ _ ((task s.1).1, ((task s.1).2, s.2))
  generalize task s.1 = ran at grown returned ⊢
  obtain ⟨e | value, s'⟩ := ran
  · exact Held.grown held grown
  · exact ⟨Held.grown held grown, returned value s' rfl⟩

def HeldBehind (load : String → Except Exception Value) (endpoint : Except Exception Value) (payload : String)
    (secret : Value) (s : State × Dict) : Prop := Held load endpoint s ∧ ReadBack load payload s.1.log secret

variable {payload : String} {secret : Value}

theorem storeEndpoint_holds : Yields (HeldBehind load endpoint payload secret) storeEndpoint fun _ => True := by
  intro s held
  have ran : storeEndpoint s = (do
      let found ← Program.ofExcept (endpointOf s.2)
      storeProperty "k8s-ip" found) s := rfl
  rw [ran, bind_run, ofExcept_run]
  cases address : endpointOf s.2 with
  | error e => exact held
  | ok found =>
    exact ⟨trivial, held.1.set (by decide) (vouched_host (held.1.address.symm.trans address)), held.2⟩

variable {account : Value} (named : getSecretPayload account = .ok payload)

include named

theorem storeDecoded_holds {key entry : String} {encoded : Value} (found : secretEntry secret entry = .ok encoded)
    (other : key ≠ "capabilities")
    (vouched : ∀ log text, FromSecret load log entry text → Vouched load endpoint log key (.str text)) :
    Yields (HeldBehind load endpoint payload secret) (storeDecoded key encoded) fun _ => True := by
  apply Yields.bind (P := fun text => decodedText encoded = .ok text) (.ofExcept fun _ decoded => decoded)
  intro text decoded
  apply Yields.modify
  intro s held
  have given : FromSecret load s.1.log entry text := ⟨account, payload, secret, encoded, named, held.2, found, decoded⟩
  exact ⟨held.1.set other (vouched s.1.log text given), held.2⟩

theorem storeSecret_holds (endpointFirst : Bool) :
    Yields (HeldBehind load endpoint payload secret) (storeSecret endpointFirst secret) fun _ => True := by
  apply Yields.bind (P := fun encoded => secretEntry secret "token" = .ok encoded) (.ofExcept fun _ found => found)
  intro token tokenFound
  apply Yields.bind (P := fun encoded => secretEntry secret "ca.crt" = .ok encoded) (.ofExcept fun _ found => found)
  intro certificate certificateFound
  have stored : Yields (HeldBehind load endpoint payload secret) (storeProperty "secret_response" secret) fun _ => True := by
    intro s held
    exact ⟨trivial, (storeProperty_holds (by decide) secret s held.1).2, held.2⟩
  have tokenStored : Yields (HeldBehind load endpoint payload secret) (storeDecoded "k8s-service-account-token" token)
      fun _ => True := storeDecoded_holds named tokenFound (by decide) fun _ _ => vouched_token
  have certificateStored : Yields (HeldBehind load endpoint payload secret) (storeDecoded "k8s-cacert" certificate)
      fun _ => True := storeDecoded_holds named certificateFound (by decide) fun _ _ => vouched_certificate
  apply Yields.bind stored
  intro _ _
  cases endpointFirst with
  | true =>
    apply Yields.bind storeEndpoint_holds
    intro _ _
    apply Yields.bind tokenStored
    intro _ _
    exact certificateStored
  | false =>
    apply Yields.bind tokenStored
    intro _ _
    apply Yields.bind storeEndpoint_holds
    intro _ _
    exact certificateStored

end

section

variable {load : String → Except Exception Value} {endpoint : Except Exception Value} {kube : Kubernetes} {node : Node}

/-- The operation of the nested resources and the body are told of the invariant alone. -/
theorem nestedResourceTask_holds {resources : List (String × (String → String → String))}
    {operation : Value → String → Task Value} (nestedOpsFirst : Bool) (instanceId : String) {task : TokenTask Unit}
    (other : ∀ resource ∈ resources, resource.1 ++ "_response" ∉ clientProperties)
    (each : ∀ resourceId payload, Within (Steps kube fun _ => True) (operation resourceId payload))
    (body : Yields (Held load endpoint) task fun _ => True) :
    Yields (Held load endpoint) (nestedResourceTask resources operation nestedOpsFirst instanceId task) fun _ => True := by
  have onState {α : Type} {task : Task α} (steps : Within (Steps kube fun _ => True) task) :
      Yields (Held load endpoint) task.onFirst fun _ => True := by
    apply (onFirst_holds (P := fun _ _ => True) steps fun _ _ _ _ => trivial).weaken (fun _ held => held)
      (fun _ _ held => ⟨trivial, held.1⟩) fun _ _ held => held
  have nested (name namesp : String) : Yields (Held load endpoint) (nestedOps resources operation name namesp)
      fun _ => True := by
    refine Yields.bind (.forEach (Q := fun _ => True) fun resource member => ?_) fun _ _ => .pure trivial
    apply Yields.bind (onState (each _ _))
    intro result _
    exact storeProperty_holds (other resource member) result
  have options : Within (Steps kube fun _ => True) getOptions := fun _ => .refl
  apply Yields.bind (onState options)
  intro options _
  apply Yields.bind (onState (setPerformTask_within steps_offline true))
  intro _ _
  cases nestedOpsFirst with
  | true =>
    apply Yields.bind (nested _ _)
    intro _ _
    exact body
  | false =>
    apply Yields.bind body
    intro _ _
    exact nested _ _

/-- The body of a task that reads the secret of the account, and stores what it has got. -/
theorem secretTask_holds {task : String → Task Value} (steps : ∀ payload, Within (Steps kube fun _ => True) (task payload))
    (reads : ∀ payload, ReadsBack load payload (task payload)) {rest : Value → TokenTask Unit}
    (others : ∀ account payload secret, getSecretPayload account = .ok payload →
      Yields (HeldBehind load endpoint payload secret) (rest secret) fun _ => True) :
    Yields (Held load endpoint) (readProperties secretPayload >>= fun payload => (task payload).onFirst >>= rest)
      fun _ => True := by
  have read : Yields (Held load endpoint) (readProperties secretPayload)
      fun payload => ∃ account, getSecretPayload account = .ok payload := by
    intro s held
    have ran : readProperties secretPayload s = (secretPayload s.2, s) := ofExcept_run _ _
    rw [ran]
    cases written : secretPayload s.2 with
    | error e => exact held
    | ok payload =>
      obtain ⟨account, _, named⟩ := ok_of_bind written
      exact ⟨⟨account, named⟩, held⟩
  apply Yields.bind read
  intro payload found
  obtain ⟨account, named⟩ := found
  apply Triple.bind (onFirst_holds (steps payload) (reads payload))
  intro secret
  exact (others account payload secret named).weaken (fun _ held => held) (fun _ _ held => ⟨trivial, held.2.1⟩)
    fun _ _ held => held.1

end

section

variable (env : Environment) {endpoint : Except Exception Value}

theorem deleteToken_holds : Yields (Held env.load endpoint) (deleteToken env.load env.kube env.node env.instanceId)
    fun _ => True := by
  have deletes (resourceId : Value) (payload : String) : Within (Steps env.kube fun _ => True)
      (resourceDeleteFromPayload env.load env.kube env.node resourceId payload) :=
    resourceDeleteFromPayload_steps resourceId payload (fun _ => trivial) fun _ => trivial
  apply nestedResourceTask_holds false env.instanceId (by decide) deletes
  have properties : Yields (Held env.load endpoint) getProperties fun _ => True := fun _ held => ⟨trivial, held⟩
  apply Yields.bind properties
  intro properties _
  apply Yields.bind (P := fun _ => True) (.ofExcept fun _ _ => trivial)
  intro name _
  apply Yields.bind (P := fun _ => True) (.ofExcept fun _ _ => trivial)
  intro payload _
  apply Triple.bind (onFirst_holds (P := fun _ _ => True) (deletes _ payload) fun _ _ _ _ => trivial)
  intro _ s held
  exact ⟨trivial, (held.1.erase (by decide)).erase (by decide)⟩

theorem LifecycleOperation.run_holds (ctx : OperationContext) (operation : LifecycleOperation) :
    Yields (Held env.load endpoint) (operation.run env ctx) fun _ => True := by
  -- All but the operations on the token leave the other runtime properties alone.
  have plain (untouched : ∀ s, (operation.run env ctx s).2.2 = s.2) :
      Yields (Held env.load endpoint) (operation.run env ctx) fun _ => True := by
    apply Yields.of_run
    · intro s held
      obtain ⟨events, grown⟩ := steps_extend
        (operation.run_steps env ctx (fun _ _ => trivial) s : Steps env.kube (fun _ => True) s.1 _)
      have kept := Held.grown held grown
      rw [← untouched s] at kept
      exact kept
    · exact fun _ _ _ _ => trivial
  have read (payload : String) : Within (Steps env.kube fun _ => True)
      (resourceReadFromPayload env.load env.kube env.node payload) :=
    payloadResourceTask_steps payload fun _ _ => doResourceRead_steps trivial
  cases operation with
  | createToken =>
    have create (payload : String) : Within (Steps env.kube fun _ => True)
        (resourceCreateFromPayload env.load env.kube env.node payload) :=
      payloadResourceTask_steps payload fun _ _ => createThenRead_steps trivial fun _ => trivial
    apply nestedResourceTask_holds true env.instanceId (by decide) fun _ => create
    exact secretTask_holds (fun payload => createdSecret_steps payload trivial fun _ => trivial)
      createdSecret_readsBack fun _ _ _ named => storeSecret_holds named false
  | readToken =>
    apply nestedResourceTask_holds true env.instanceId (by decide) fun _ => read
    exact secretTask_holds read resourceReadFromPayload_readsBack fun _ _ _ named => storeSecret_holds named true
  | getTokenStatus =>
    apply nestedResourceTask_holds true env.instanceId (by decide) fun _ => read
    exact secretTask_holds read resourceReadFromPayload_readsBack fun _ _ _ _ => .pure trivial
  | deleteToken => exact deleteToken_holds env
  | _ => exact plain fun _ => rfl

theorem lifecycle_held (options : Dict) (operations : List (OperationContext × LifecycleOperation)) {s : State × Dict}
    (held : Held env.load endpoint s) : Held env.load endpoint (lifecycle env options operations s).2 := by
  have all : Yields (Held env.load endpoint) (lifecycle env options operations) fun _ => True := by
    apply Yields.forEach (Q := fun _ => True)
    intro next _
    have edited : Yields (Held env.load endpoint) (modifyOptions fun _ => options).onFirst fun _ => True :=
      .modify fun s held => ⟨held.address, held.vouched⟩
    apply Yields.bind edited
    intro _ _
    exact ((next.2.run_holds env next.1).attempt).weaken (fun _ held => held) (fun _ _ held => ⟨trivial, held.2⟩)
      fun _ _ held => held
  exact all.kept held

/-- Whatever has become of the operations on a shared cluster, a client that is connected to it
    presents an address that is the endpoint of the cluster, and a token and a certificate that are
    decoded from answers to reads of the secret of a service account. -/
theorem client_config_provenance (options : Dict) (operations : List (OperationContext × LifecycleOperation)) (s : State)
    {properties : Dict} (fresh : ∀ key ∈ clientProperties, key ≠ "capabilities" → properties.get? key = none)
    {aksConnection : Value → Except Exception AksConnection} {nodeProperties kwargs : Dict}
    {front : List TargetRelationship} (unshared : ∀ other ∈ front, other.toSharedCluster = false) {x : TargetRelationship}
    (shared : x.toSharedCluster = true) {rest : List TargetRelationship} {config : Value}
    (connected : x.runtimeProperties = (lifecycle env options operations (s, properties)).2.2)
    (given : getClientConfig aksConnection nodeProperties kwargs (front ++ x :: rest) = .ok config) :
    ∃ host token certificate, config = apiOptions host (.str token) (.str certificate) ∧
      endpointOf properties = .ok host ∧
      FromSecret env.load (lifecycle env options operations (s, properties)).2.1.log "token" token ∧
      FromSecret env.load (lifecycle env options operations (s, properties)).2.1.log "ca.crt" certificate := by
  have start : Held env.load (endpointOf properties) (s, properties) := by
    refine ⟨rfl, fun key v found => ?_⟩
    have absent (client : key ∈ clientProperties) (other : key ≠ "capabilities") : False := by
      cases (fresh key client other).symm.trans found
    constructor
    · rintro rfl
      exact (absent (by decide) (by decide)).elim
    · rintro rfl
      exact (absent (by decide) (by decide)).elim
    · rintro rfl
      exact (absent (by decide) (by decide)).elim
  have held := lifecycle_held env options operations start
  rw [getClientConfig_shared unshared shared] at given
  obtain ⟨own, _, given⟩ := ok_of_bind given
  rw [connected] at given
  obtain ⟨host, hostFound, given⟩ := ok_of_bind given
  obtain ⟨token, tokenFound, given⟩ := ok_of_bind given
  obtain ⟨certificate, certificateFound, given⟩ := ok_of_bind given
  cases given
  have address := (held.vouched _ _ (runtimeProperty_ok hostFound)).host rfl
  obtain ⟨tokenText, rfl, fromToken⟩ := (held.vouched _ _ (runtimeProperty_ok tokenFound)).token rfl
  obtain ⟨text, rfl, fromCertificate⟩ := (held.vouched _ _ (runtimeProperty_ok certificateFound)).certificate rfl
  exact ⟨host, tokenText, text, rfl, address, fromToken, fromCertificate⟩

end

def Tokenless (s : State × Dict) : Prop := s.2.get? "k8s-service-account-token" = none

section

variable {load : String → Except Exception Value} {kube : Kubernetes} {node : Node}

theorem onFirst_tokenless {α : Type} (task : Task α) : Within (Keeps Tokenless) task.onFirst := fun _ none => none

theorem storeProperty_tokenless {key : String} (other : "k8s-service-account-token" ≠ key) (value : Value) :
    Within (Keeps Tokenless) (storeProperty key value) := by
  intro s none
  exact (OrderedDict.get?_set_ne s.2 value other).trans none

theorem nestedOps_tokenless {resources : List (String × (String → String → String))}
    (other : ∀ resource ∈ resources, "k8s-service-account-token" ≠ resource.1 ++ "_response")
    (operation : Value → String → Task Value) (name namesp : String) :
    Within (Keeps Tokenless) (nestedOps resources operation name namesp) := by
  refine (Within.forEach fun resource member => ?_).bind fun _ => .pure _
  exact (onFirst_tokenless _).bind fun result => storeProperty_tokenless (other resource member) result

theorem deleteSecret_ends {s s' : State × Dict} (ran : deleteSecret load kube node s = (.ok (), s')) : Tokenless s' := by
  obtain ⟨_, _, _, ran⟩ := bind_ok_inv ran
  obtain ⟨_, _, ran⟩ := bind_ofExcept_ok_inv ran
  obtain ⟨_, _, ran⟩ := bind_ofExcept_ok_inv ran
  obtain ⟨_, middle, _, ran⟩ := bind_ok_inv ran
  cases ran
  change ((middle.2.erase "k8s-service-account-token").erase "k8s-cacert").get? "k8s-service-account-token" = none
  rw [OrderedDict.get?_erase, if_neg (by decide), OrderedDict.get?_erase, if_pos rfl]

theorem deleteToken_ends {instanceId : String} {s s' : State × Dict}
    (ran : deleteToken load kube node instanceId s = (.ok (), s')) : Tokenless s' := by
  obtain ⟨options, _, _, ran⟩ := bind_ok_inv ran
  obtain ⟨_, _, _, ran⟩ := bind_ok_inv ran
  obtain ⟨_, middle, deleted, ran⟩ := bind_ok_inv ran
  have nested : Within (Keeps Tokenless) (nestedOps
      [("service_account", getServiceAccountPayload), ("cluster_role_binding", getClusterRoleBindingPayload)]
      (resourceDeleteFromPayload load kube node) (resourceName instanceId) (templateNamespace options)) :=
    nestedOps_tokenless (by decide) _ _ _
  have kept := nested middle (deleteSecret_ends deleted)
  rwa [ran] at kept

variable (env : Environment)

theorem LifecycleOperation.run_tokenless (ctx : OperationContext) {operation : LifecycleOperation}
    (unbuilt : operation.buildsToken = false) : Within (Keeps Tokenless) (operation.run env ctx) := by
  have properties {α : Type} (f : Dict → Except Exception α) : Within (Keeps Tokenless) (readProperties f) :=
    Within.bind (fun _ none => none) fun _ => .ofExcept _
  cases operation with
  | createToken => cases unbuilt
  | readToken => cases unbuilt
  | getTokenStatus =>
    refine (onFirst_tokenless getOptions).bind fun options => ?_
    refine (onFirst_tokenless _).bind fun _ => ?_
    refine (nestedOps_tokenless (by decide) _ _ _).bind fun _ => ?_
    exact (properties _).bind fun payload => (onFirst_tokenless _).bind fun _ => .pure _
  | deleteToken =>
    have erased : Within (Keeps Tokenless) (modifyProperties withoutToken) := by
      intro s none
      change ((s.2.erase "k8s-service-account-token").erase "k8s-cacert").get? "k8s-service-account-token" = _
      rw [OrderedDict.get?_erase, if_neg (by decide), OrderedDict.get?_erase, if_pos rfl]
    refine (onFirst_tokenless getOptions).bind fun options => ?_
    refine (onFirst_tokenless _).bind fun _ => ?_
    refine Within.bind ?_ fun _ => nestedOps_tokenless (by decide) _ _ _
    refine Within.bind (fun _ none => none) fun properties => ?_
    refine (Within.ofExcept _).bind fun name => ?_
    refine (Within.ofExcept _).bind fun payload => ?_
    exact (onFirst_tokenless _).bind fun _ => erased
  | _ => exact onFirst_tokenless _

/-- Behind a deletion of the token that returned, no client that is connected to the shared cluster
    gets a config, until the token is created or read again. -/
theorem client_cut_off (options : Dict) {ctx : OperationContext} {operations : List (OperationContext × LifecycleOperation)}
    (unbuilt : ∀ next ∈ operations, next.2.buildsToken = false) {s : State × Dict}
    {results : List (Except Exception Unit)}
    (ran : (lifecycle env options ((ctx, .deleteToken) :: operations) s).1 = .ok (.ok () :: results))
    {aksConnection : Value → Except Exception AksConnection} {nodeProperties kwargs : Dict}
    {front : List TargetRelationship} (unshared : ∀ other ∈ front, other.toSharedCluster = false) {x : TargetRelationship}
    (shared : x.toSharedCluster = true) {rest : List TargetRelationship}
    (connected : x.runtimeProperties = (lifecycle env options ((ctx, .deleteToken) :: operations) s).2.2) :
    ∃ e, getClientConfig aksConnection nodeProperties kwargs (front ++ x :: rest) = .error e := by
  obtain ⟨others, returned⟩ := lifecycle_returns env options operations
    ((LifecycleOperation.deleteToken).run env ctx ({ s.1 with options }, s.2)).2
  have whole := lifecycle_cons_run env options (ctx, .deleteToken) operations s returned
  rw [whole] at ran connected
  have deleted : (LifecycleOperation.deleteToken).run env ctx ({ s.1 with options }, s.2) = (.ok (), _) :=
    Prod.ext (List.cons.inj (Except.ok.inj ran)).1 rfl
  have later : Within (Keeps Tokenless) (lifecycle env options operations) := by
    apply Within.forEach
    intro next member
    refine Within.bind (fun _ none => none) fun _ => ?_
    exact (next.2.run_tokenless env next.1 (unbuilt next member)).attempt
  have none : Tokenless (lifecycle env options operations
      ((LifecycleOperation.deleteToken).run env ctx ({ s.1 with options }, s.2)).2).2 :=
    later _ (deleteToken_ends deleted)
  rw [getClientConfig_shared unshared shared]
  cases ownConfig nodeProperties kwargs with
  | error e => exact ⟨e, rfl⟩
  | ok own =>
    change ∃ e, sharedClusterConfig x.runtimeProperties = .error e
    rw [connected]
    unfold sharedClusterConfig
    cases runtimeProperty _ "k8s-ip" with
    | error e => exact ⟨e, rfl⟩
    | ok host =>
      refine ⟨⟨.keyError, Value.quote "k8s-service-account-token"⟩, ?_⟩
      change (runtimeProperty _ "k8s-service-account-token" >>= _) = _
      rw [runtimeProperty_none none]
      rfl

end

open Package

def toShared : TargetRelationship where
  typeHierarchy := ["cloudify.relationships.connected_to",
    "cloudify.relationships.kubernetes.connected_to_shared_cluster"]
  nodeTypeHierarchy := ["cloudify.nodes.Root", "cloudify.kubernetes.resources.SharedCluster"]
  nodeProperties := .empty
  runtimeProperties := (lifecycle sharedNode mainNamespace.options [(install, .readToken)]
    (mainNamespace, clusterProperties)).2.2

def unauthenticated (_ : Value) : Except Exception AksConnection := .ok ⟨false, .ok .none⟩

theorem client_config_provenance_shared : ∃ config host token certificate,
    getClientConfig unauthenticated .empty .empty [toShared] = .ok config ∧
      config = apiOptions host (.str token) (.str certificate) ∧ endpointOf clusterProperties = .ok host ∧
      FromSecret loadShared (lifecycle sharedNode mainNamespace.options [(install, .readToken)]
        (mainNamespace, clusterProperties)).2.1.log "token" token ∧
      FromSecret loadShared (lifecycle sharedNode mainNamespace.options [(install, .readToken)]
        (mainNamespace, clusterProperties)).2.1.log "ca.crt" certificate := by
  have given : (getClientConfig unauthenticated .empty .empty [toShared]).isOk = true := by decide +kernel
  generalize configured : getClientConfig unauthenticated .empty .empty [toShared] = result at given
  cases result with
  | error e => cases given
  | ok config =>
    have fresh : ∀ key ∈ clientProperties, key ≠ "capabilities" → clusterProperties.get? key = none := by
      decide +kernel
    obtain ⟨host, token, certificate, rest⟩ := client_config_provenance sharedNode mainNamespace.options
      [(install, .readToken)] mainNamespace fresh (List.forall_mem_nil _) (by decide) rfl configured
    exact ⟨config, host, token, certificate, rfl, rest⟩

def toDeleted : TargetRelationship :=
  { toShared with
    runtimeProperties := (lifecycle sharedNode mainNamespace.options [(install, .deleteToken), (install, .getTokenStatus)]
      (mainNamespace, sharedToken)).2.2 }

theorem client_cut_off_shared : ∃ results e,
    (lifecycle sharedNode mainNamespace.options [(install, .deleteToken), (install, .getTokenStatus)]
        (mainNamespace, sharedToken)).1 = .ok (.ok () :: results) ∧
      getClientConfig unauthenticated .empty .empty [toDeleted] = .error e := by
  obtain ⟨results, returned⟩ := lifecycle_returns sharedNode mainNamespace.options
    [(install, .deleteToken), (install, .getTokenStatus)] (mainNamespace, sharedToken)
  have deleted : (results.head?.map Except.isOk) = some true := by
    have first : ((lifecycle sharedNode mainNamespace.options [(install, .deleteToken), (install, .getTokenStatus)]
      (mainNamespace, sharedToken)).1.toOption.bind fun results => results.head?.map Except.isOk) = some true := by
      decide +kernel
    rwa [returned] at first
  cases results with
  | nil => cases deleted
  | cons result others =>
    cases result with
    | error e => cases deleted
    | ok value =>
      have unbuilt : ∀ next ∈ [(install, LifecycleOperation.getTokenStatus)], next.2.buildsToken = false := by
        simp [LifecycleOperation.buildsToken]
      obtain ⟨e, failed⟩ := client_cut_off sharedNode mainNamespace.options unbuilt returned (List.forall_mem_nil _)
        (show toDeleted.toSharedCluster = true by decide) rfl
      exact ⟨others, e, returned, failed⟩

end CloudifyKubernetes
