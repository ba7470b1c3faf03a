import CloudifyKubernetes.DriftChecks
import CloudifyKubernetes.StatusChecks

namespace CloudifyKubernetes

open Collections Effects Program

def statusKinds : List String := StatusMapping.isResourceReady.map Prod.fst

/-- What it means for a resource to be ready, by the `status` of a response. -/
inductive ReadyResource (response : Value) : String → Prop
  | unchecked {kind : String} (free : kind ∉ statusKinds) : ReadyResource response kind
  | pod {status : Value} {phase : String} (found : response.index "status" = .ok status)
      (phased : status.index "phase" = .ok (.str phase)) (good : phase ∈ ["Running", "Succeeded"]) :
      ReadyResource response "Pod"
  | claim {status : Value} {phase : String} (found : response.index "status" = .ok status)
      (phased : status.index "phase" = .ok (.str phase)) (good : phase ∈ ["Pending", "Available", "Bound"]) :
      ReadyResource response "PersistentVolumeClaim"
  | volume {status : Value} {phase : String} (found : response.index "status" = .ok status)
      (phased : status.index "phase" = .ok (.str phase)) (good : phase ∈ ["Bound", "Available"]) :
      ReadyResource response "PersistentVolume"
  | balanced {kind : String} {status balancer ingress : Value} (served : kind ∈ ["Service", "Ingress"])
      (found : response.index "status" = .ok status) (balance : status.get "load_balancer" (.dict []) = .ok balancer)
      (entry : balancer.get "ingress" (.bool false) = .ok ingress) (some : ingress.truthy = true) :
      ReadyResource response kind
  | available {kind key : String} {status count : Value}
      (counted : (kind, key) ∈ [("Deployment", "unavailable_replicas"), ("DaemonSet", "number_unavailable")])
      (found : response.index "status" = .ok status) (counter : status.index key = .ok count)
      (none : count.truthy = false) : ReadyResource response kind
  | stateful {status count : Value} (found : response.index "status" = .ok status)
      (counter : status.index "ready_replicas" = .ok count) (some : count.truthy = true) :
      ReadyResource response "StatefulSet"
  | replicated {kind : String} {status ready replicas : Value} (set : kind ∈ ["ReplicaSet", "ReplicationController"])
      (found : response.index "status" = .ok status) (counter : status.get "ready_replicas" .none = .ok ready)
      (wanted : status.get "replicas" .none = .ok replicas) (all : ready.eq replicas = true) :
      ReadyResource response kind

namespace StatusMapping

section

variable {status : Value}

theorem readyOrRetry_ok {ready : Bool} : readyOrRetry status ready = .ok true ↔ ready = true := by
  unfold readyOrRetry
  cases ready <;> simp

theorem phaseIn_iff {phase : Value} {names : List String} :
    phaseIn phase names = true ↔ ∃ text ∈ names, phase = .str text := by
  simp only [phaseIn, List.any_eq_true, Value.eq_str_iff]

theorem phaseReady_ok {names : List String} :
    phaseReady names status = .ok true ↔ ∃ phase ∈ names, status.index "phase" = .ok (.str phase) := by
  unfold phaseReady
  cases status.index "phase" with
  | error e => simp [bind, Except.bind]
  | ok phase =>
    simp only [bind, Except.bind, readyOrRetry_ok, phaseIn_iff, Except.ok.injEq]

theorem podReady_ok :
    podReady status = .ok true ↔ ∃ phase ∈ ["Running", "Succeeded"], status.index "phase" = .ok (.str phase) := by
  unfold podReady
  cases status.index "phase" with
  | error e => simp [bind, Except.bind]
  | ok phase =>
    simp only [bind, Except.bind, Except.ok.injEq]
    rw [← phaseIn_iff]
    cases good : phaseIn phase ["Running", "Succeeded"] with
    | true => simp [pure, Except.pure]
    | false =>
      simp only [Bool.false_eq_true, if_false, iff_false]
      split
      · simp [readyOrRetry]
      · split <;> simp [pure, Except.pure]

theorem serviceReady_ok : serviceReady status = .ok true ↔ ∃ balancer ingress,
    status.get "load_balancer" (.dict []) = .ok balancer ∧ balancer.get "ingress" (.bool false) = .ok ingress ∧
      ingress.truthy = true := by
  unfold serviceReady
  cases status.get "load_balancer" (.dict []) with
  | error e => simp [bind, Except.bind]
  | ok balancer =>
    cases entry : balancer.get "ingress" (.bool false) with
    | error e => simp [bind, Except.bind, entry]
    | ok ingress => simp [bind, Except.bind, entry, readyOrRetry_ok]

theorem countReady_ok {key : String} {expected : Bool} :
    countReady key expected status = .ok true ↔ ∃ count, status.index key = .ok count ∧ count.truthy = expected := by
  unfold countReady
  cases status.index key with
  | error e => simp [bind, Except.bind]
  | ok count => simp [bind, Except.bind, readyOrRetry_ok]

theorem replicasReady_ok : replicasReady status = .ok true ↔ ∃ ready replicas,
    status.get "ready_replicas" .none = .ok ready ∧ status.get "replicas" .none = .ok replicas ∧
      ready.eq replicas = true := by
  unfold replicasReady
  cases status.get "ready_replicas" .none with
  | error e => simp [bind, Except.bind]
  | ok ready =>
    cases status.get "replicas" .none with
    | error e => simp [bind, Except.bind]
    | ok replicas => simp [bind, Except.bind, readyOrRetry_ok]

end

end StatusMapping

open StatusMapping

section

variable {response : Value} {kind : String}

theorem statusCheck_free (free : kind ∉ statusKinds) : doResourceStatusCheck true kind response = .ok true := by
  have unknown : isResourceReady.lookup kind = none := by
    rw [← Option.not_isSome_iff_eq_none, lookup_isSome_iff]
    exact free
  rw [doResourceStatusCheck, unknown]

theorem statusCheck_iff {ready : Value → Except Exception Bool} (known : isResourceReady.lookup kind = some ready) :
    doResourceStatusCheck true kind response = .ok true ↔
      ∃ status, response.index "status" = .ok status ∧ ready status = .ok true := by
  rw [doResourceStatusCheck, known]
  cases response.index "status" with
  | error e => simp [bind, Except.bind]
  | ok status => simp [bind, Except.bind]

theorem statusCheck_of_ready (ready : ReadyResource response kind) : doResourceStatusCheck true kind response = .ok true := by
  cases ready with
  | unchecked free => exact statusCheck_free free
  | pod found phased good => exact (statusCheck_iff rfl).mpr ⟨_, found, podReady_ok.mpr ⟨_, good, phased⟩⟩
  | claim found phased good => exact (statusCheck_iff rfl).mpr ⟨_, found, phaseReady_ok.mpr ⟨_, good, phased⟩⟩
  | volume found phased good => exact (statusCheck_iff rfl).mpr ⟨_, found, phaseReady_ok.mpr ⟨_, good, phased⟩⟩
  | balanced served found balance entry some =>
    have known : isResourceReady.lookup kind = .some serviceReady := by
      simp only [List.mem_cons, List.not_mem_nil, or_false] at served
      rcases served with rfl | rfl <;> rfl
    exact (statusCheck_iff known).mpr ⟨_, found, serviceReady_ok.mpr ⟨_, _, balance, entry, some⟩⟩
  | @available kind key status count counted found counter none =>
    have known : isResourceReady.lookup kind = .some (countReady key false) := by
      simp only [List.mem_cons, Prod.mk.injEq, List.not_mem_nil, or_false] at counted
      rcases counted with ⟨rfl, rfl⟩ | ⟨rfl, rfl⟩ <;> rfl
    exact (statusCheck_iff known).mpr ⟨_, found, countReady_ok.mpr ⟨_, counter, none⟩⟩
  | stateful found counter some => exact (statusCheck_iff rfl).mpr ⟨_, found, countReady_ok.mpr ⟨_, counter, some⟩⟩
  | replicated set found counter wanted all =>
    have known : isResourceReady.lookup kind = .some replicasReady := by
      simp only [List.mem_cons, List.not_mem_nil, or_false] at set
      rcases set with rfl | rfl <;> rfl
    exact (statusCheck_iff known).mpr ⟨_, found, replicasReady_ok.mpr ⟨_, _, counter, wanted, all⟩⟩

theorem ready_of_statusCheck (checked : doResourceStatusCheck true kind response = .ok true) :
    ReadyResource response kind := by
  by_cases free : kind ∉ statusKinds
  · exact .unchecked free
  · rw [not_not, statusKinds] at free
    have service (known : isResourceReady.lookup kind = some serviceReady) (served : kind ∈ ["Service", "Ingress"]) :
        ReadyResource response kind := by
      obtain ⟨status, found, ready⟩ := (statusCheck_iff known).mp checked
      obtain ⟨_, _, balance, entry, some⟩ := serviceReady_ok.mp ready
      exact .balanced served found balance entry some
    have counting {key : String} (known : isResourceReady.lookup kind = some (countReady key false))
        (counted : (kind, key) ∈ [("Deployment", "unavailable_replicas"), ("DaemonSet", "number_unavailable")]) :
        ReadyResource response kind := by
      obtain ⟨status, found, ready⟩ := (statusCheck_iff known).mp checked
      obtain ⟨_, counter, none⟩ := countReady_ok.mp ready
      exact .available counted found counter none
    have replicated (known : isResourceReady.lookup kind = some replicasReady)
        (set : kind ∈ ["ReplicaSet", "ReplicationController"]) : ReadyResource response kind := by
      obtain ⟨status, found, ready⟩ := (statusCheck_iff known).mp checked
      obtain ⟨_, _, counter, wanted, all⟩ := replicasReady_ok.mp ready
      exact .replicated set found counter wanted all
    simp only [isResourceReady, List.map_cons, List.map_nil, List.mem_cons, List.not_mem_nil, or_false] at free
    rcases free with rfl | rfl | rfl | rfl | rfl | rfl | rfl | rfl | rfl | rfl | rfl
    · obtain ⟨_, _, never⟩ := (statusCheck_iff (show isResourceReady.lookup "Resource" = some _ from rfl)).mp checked
      cases never
    · obtain ⟨status, found, ready⟩ := (statusCheck_iff (show isResourceReady.lookup "Pod" = some _ from rfl)).mp checked
      obtain ⟨_, good, phased⟩ := podReady_ok.mp ready
      exact .pod found phased good
    · exact service rfl (by decide)
    · exact service rfl (by decide)
    · exact counting rfl (by decide)
    · obtain ⟨status, found, ready⟩ :=
        (statusCheck_iff (show isResourceReady.lookup "PersistentVolumeClaim" = some _ from rfl)).mp checked
      obtain ⟨_, good, phased⟩ := phaseReady_ok.mp ready
      exact .claim found phased good
    · obtain ⟨status, found, ready⟩ :=
        (statusCheck_iff (show isResourceReady.lookup "PersistentVolume" = some _ from rfl)).mp checked
      obtain ⟨_, good, phased⟩ := phaseReady_ok.mp ready
      exact .volume found phased good
    · exact replicated rfl (by decide)
    · exact replicated rfl (by decide)
    · exact counting rfl (by decide)
    · obtain ⟨status, found, ready⟩ :=
        (statusCheck_iff (show isResourceReady.lookup "StatefulSet" = some _ from rfl)).mp checked
      obtain ⟨_, counter, some⟩ := countReady_ok.mp ready
      exact .stateful found counter some

theorem statusCheck_iff_ready : doResourceStatusCheck true kind response = .ok true ↔ ReadyResource response kind :=
  ⟨ready_of_statusCheck, statusCheck_of_ready⟩

end

def statusCheck (kube : Kubernetes) (node : Node) (ctx : OperationContext) : ResourceTask where
  task _ := resourceCheckStatus kube node ctx
  retrieveMapping := chooseMapping

section

variable {kube : Kubernetes} {node : Node} {ctx : OperationContext} {path : String}
  {definition : KubernetesResourceDefinition} {s s' : State}

/-- A task that returns has read something that is ready. -/
theorem resourceCheckStatus_ready (validated : node.validateResourceStatus = true) {mapping : KubernetesApiMapping}
    (ran : resourceCheckStatus kube node ctx mapping definition s = (.ok (), s')) :
    ∃ found, doResourceRead kube .task mapping definition s = (.ok found, s') ∧ ReadyResource found definition.kind := by
  obtain ⟨outcome, middle, attempted, ran⟩ := bind_ok_inv ran
  cases outcome with
  | error e =>
    dsimp only at ran
    split at ran
    · obtain ⟨_, _, _, ran⟩ := bind_ok_inv ran
      obtain ⟨_, _, _, ran⟩ := bind_ok_inv ran
      cases ran
    · cases ran
  | ok value =>
    cases ran
    obtain ⟨found, read, looked, checked⟩ := bind_ok_inv (attempt_ok_inv attempted)
    by_cases kinded : definition.kind = ""
    · rw [if_neg (not_not.mpr kinded)] at checked
      cases checked
      refine ⟨found, looked, .unchecked ?_⟩
      rw [kinded]
      decide +kernel
    · rw [if_pos kinded] at checked
      obtain ⟨ready, verdict, checked⟩ := bind_ofExcept_ok_inv checked
      cases ready with
      | false => cases checked
      | true =>
        cases checked
        rw [validated] at verdict
        exact ⟨found, looked, statusCheck_iff_ready.mp verdict⟩

theorem resourceCheckStatus_returns (validated : node.validateResourceStatus = true) {mapping : KubernetesApiMapping}
    {found : Value} (read : doResourceRead kube .task mapping definition s = (.ok found, s'))
    (ready : ReadyResource found definition.kind) :
    resourceCheckStatus kube node ctx mapping definition s = (.ok (), s') := by
  have healthy : healableResourceCheckStatus kube node mapping definition s = (.ok (), s') := by
    rw [healableResourceCheckStatus, bind_run_ok read]
    split
    · rw [bind_run, ofExcept_run, validated, statusCheck_iff_ready.mpr ready]
      rfl
    · rfl
  rw [resourceCheckStatus, bind_run, attempt_run, healthy]
  rfl

theorem statusRound_ready (quiet : Quiescent kube) (validated : node.validateResourceStatus = true)
    (ran : definitionTask node (statusCheck kube node ctx) path definition s = (.ok (), s')) :
    ∃ found, reading kube s.options definition = .ok (found, s'.options) ∧ ReadyResource found definition.kind := by
  rcases plainRound_cases (show (statusCheck kube node ctx).retrieveMapping = _ from rfl) rfl rfl node path definition s with
    ⟨e, failed, _⟩ | ⟨mapping, name, flag, mapped, named, whole⟩
  · cases failed.symm.trans ran
  · obtain ⟨last, task, rfl⟩ := finished_ok (whole.symm.trans ran)
    obtain ⟨found, read, ready⟩ := resourceCheckStatus_ready validated task
    have start : (s.after flag s.options [.mapped definition (.ok mapping)]).options = s.options := rfl
    have given := reading_of_run quiet mapped named start read
    exact ⟨found, given, ready⟩

theorem statusRound_returns (ctx : OperationContext) (quiet : Quiescent kube)
    (validated : node.validateResourceStatus = true) (path : String) {found : Value} {options' : Dict} (given : reading kube s.options definition = .ok (found, options'))
    (ready : ReadyResource found definition.kind) :
    ∃ s', definitionTask node (statusCheck kube node ctx) path definition s = (.ok (), s') ∧ s'.options = options' := by
  obtain ⟨mapping, name, mapped, named, reads⟩ := reading_ok quiet given
  rcases plainRound_cases (show (statusCheck kube node ctx).retrieveMapping = _ from rfl) rfl rfl node path definition s with
    ⟨e, _, failed⟩ | ⟨mapping', name', flag, mapped', _, whole⟩
  · rcases failed with unmapped | unnamed
    · cases mapped.symm.trans unmapped
    · cases named.symm.trans unnamed
  · cases mapped.symm.trans mapped'
    obtain ⟨answered, read, left, _⟩ := reads (s.after flag s.options [.mapped definition (.ok mapping)]) rfl
    have task : (statusCheck kube node ctx).task path mapping definition
        (s.after flag s.options [.mapped definition (.ok mapping)]) = (.ok (), answered) :=
      resourceCheckStatus_returns validated read ready
    rw [whole, task]
    exact ⟨_, rfl, left⟩

theorem statusRounds_iff (ctx : OperationContext) (quiet : Quiescent kube) (validated : node.validateResourceStatus = true)
    (todo : List (String × KubernetesResourceDefinition)) (s : State) :
    (∃ s', Rounds (fun target => definitionTask node (statusCheck kube node ctx) target.1 target.2) todo s s') ↔
      ∃ found, readings kube s.options (todo.map Prod.snd) = .ok found ∧
        List.Forall₂ (fun target response => ReadyResource response target.2.kind) todo found := by
  induction todo generalizing s with
  | nil => exact ⟨fun _ => ⟨[], rfl, .nil⟩, fun _ => ⟨s, .nil s⟩⟩
  | cons target rest ih =>
    constructor
    · rintro ⟨s', rounds⟩
      cases rounds with
      | @cons _ _ _ _ middle _ ran later =>
        obtain ⟨v, read, ready⟩ := statusRound_ready quiet validated ran
        obtain ⟨found, others, all⟩ := (ih middle).mp ⟨s', later⟩
        refine ⟨v :: found, ?_, .cons ready all⟩
        simp only [List.map_cons, readings, read, bind, Except.bind, others]
        rfl
    · rintro ⟨found, read, all⟩
      obtain ⟨⟨v, options'⟩, first, read⟩ := ok_of_bind read
      obtain ⟨others, later, done⟩ := ok_of_bind read
      cases done
      cases all with
      | cons ready all =>
        obtain ⟨middle, ran, left⟩ := statusRound_returns ctx quiet validated target.1 first ready
        subst left
        obtain ⟨s', rounds⟩ := (ih middle).mpr ⟨others, later, all⟩
        exact ⟨s', .cons ran rounds⟩

/-- In a quiescent cluster the status check of several files returns, in whatever workflow, if and
    only if each of their definitions can be read and what is read is ready. -/
theorem status_check_iff (quiet : Quiescent kube) (validated : node.validateResourceStatus = true)
    (ctx : OperationContext) {files : List (String × List KubernetesResourceDefinition)} (some : files ≠ []) (s : State) :
    (multipleFileResourceCheckStatus kube node ctx files s).1 = .ok () ↔
      ∃ found, readings kube s.options ((targets node files).map Prod.snd) = .ok found ∧
        List.Forall₂ (fun target response => ReadyResource response target.2.kind) (targets node files) found := by
  rw [← statusRounds_iff ctx quiet validated]
  constructor
  · intro returned
    exact ⟨_, multipleFileResource_rounds (Prod.ext returned rfl)⟩
  · intro ⟨s', rounds⟩
    have ran := multipleFileResource_of_rounds some rounds
    exact congrArg Prod.fst ran

end

open Package

def allRunning : Kubernetes := package fun _ request => .ok (.dict
  [("api_version", .str "v1"), ("kind", .str "Pod"),
    ("metadata", .dict [("name", (request.arguments.get? "name").getD .none)]),
    ("status", .dict [("phase", .str "Running")])])

def validatingNode : Node := { ownNode with validateResourceStatus := true }

def webPod : KubernetesResourceDefinition where
  kind := "Pod"
  apiVersion := .str "v1"
  metadata := .dict [("name", .str "web")]
  attributes := .empty

theorem status_check_iff_running :
    (multipleFileResourceCheckStatus allRunning validatingNode install [("pods.yaml", [webPod])] mainNamespace).1 = .ok () ↔
      ∃ found, readings allRunning mainNamespace.options ((targets validatingNode [("pods.yaml", [webPod])]).map Prod.snd) =
          .ok found ∧
        List.Forall₂ (fun target response => ReadyResource response target.2.kind)
          (targets validatingNode [("pods.yaml", [webPod])]) found :=
  status_check_iff (fun _ _ _ => rfl) rfl install (List.cons_ne_nil _ _) mainNamespace

example : (multipleFileResourceCheckStatus allRunning validatingNode install [("pods.yaml", [webPod])]
    mainNamespace).1.isOk = true := by decide +kernel

end CloudifyKubernetes
