import Mathlib.Data.Finset.Filter
import Mathlib.Data.Finset.Insert
import CloudifyKubernetes.DeleteOptions
import CloudifyKubernetes.Namespaces

namespace CloudifyKubernetes

open Collections Effects

structure ClusterObject where
  kind : String
  namesp : Option String
  name : String
  deriving DecidableEq, Repr

def Request.argumentIs (request : Request) (key text : String) : Bool :=
  match request.arguments.get? key with
  | some value => value.eq (.str text)
  | none => false

def hasPrefix (start text : String) : Bool := start.toList.isPrefixOf text.toList

/-- Which objects of its kind a delete method removes: all of a namespace, the named one of a
    namespace, or the named one outside all namespaces. -/
def Request.selects (request : Request) (o : ClusterObject) : Bool :=
  if hasPrefix "delete_collection_namespaced_" request.method then
    o.namesp.any (request.argumentIs "namespace")
  else if hasPrefix "delete_namespaced_" request.method then
    o.namesp.any (request.argumentIs "namespace") && request.argumentIs "name" o.name
  else o.namesp.isNone && request.argumentIs "name" o.name

def Request.removes (request : Request) (o : ClusterObject) : Bool :=
  match supportedApiMappings.lookup o.kind with
  | some mapping => mapping.delete.method = request.method && request.selects o
  | none => false

def Request.applied (request : Request) (cluster : Finset ClusterObject) : Finset ClusterObject :=
  cluster.filter fun o => request.removes o = false

def ClusterObject.isTarget (o : ClusterObject) (c : ClientCall) (resourceId : Value)
    (options : Dict) : Bool :=
  o.kind = c.definition.kind && resourceId.eq (.str o.name) &&
    o.namesp.all fun namesp => (c.definition.targetNamespace
      ((options.get? "namespace").getD .none)).eq (.str namesp)

section

variable {kube : Kubernetes} {c : ClientCall}

theorem Request.argumentIs_iff {request : Request} {key text : String} :
    request.argumentIs key text = true ↔ request.arguments.get? key = some (.str text) := by
  unfold Request.argumentIs
  cases request.arguments.get? key with
  | none => simp
  | some value => simp [Value.eq_str_iff]

theorem deleteMethods_nodup :
    (supportedApiMappings.map fun entry => entry.2.delete.method).Nodup := by decide +kernel

theorem mem_of_getMapping {kind : String} {mapping : KubernetesApiMapping}
    (known : getMapping kind = .ok mapping) : (kind, mapping) ∈ supportedApiMappings := by
  unfold getMapping at known
  split at known
  · rename_i found
    cases known
    obtain ⟨front, back, split, _⟩ := List.lookup_eq_some_iff.mp found
    rw [split]
    simp
  · cases known

theorem Request.removes_iff {mapping : KubernetesApiMapping} {kind : String} {request : Request}
    {o : ClusterObject} (known : getMapping kind = .ok mapping)
    (method : request.method = mapping.delete.method) :
    request.removes o = true ↔ o.kind = kind ∧ request.selects o = true := by
  have found : supportedApiMappings.lookup kind = some mapping := by
    unfold getMapping at known
    split at known <;> cases known
    assumption
  unfold Request.removes
  constructor
  · intro removed
    split at removed
    · rename_i mapping' found'
      simp only [Bool.and_eq_true, decide_eq_true_eq] at removed
      have member : (o.kind, mapping') ∈ supportedApiMappings := by
        apply mem_of_getMapping
        rw [getMapping, found']
      have same := List.inj_on_of_nodup_map deleteMethods_nodup member (mem_of_getMapping known)
        (removed.1.trans method)
      exact ⟨congrArg Prod.fst same, removed.2⟩
    · cases removed
  · rintro ⟨rfl, selected⟩
    rw [found]
    simp [method, selected]

theorem collection_iff {kind : String} {mapping : KubernetesApiMapping}
    (known : getMapping kind = .ok mapping) :
    hasPrefix "delete_collection_namespaced_" mapping.delete.method = true ↔
      kind = "ReplicationController" := by
  have table : ∀ entry ∈ supportedApiMappings,
      hasPrefix "delete_collection_namespaced_" entry.2.delete.method = true ↔
        entry.1 = "ReplicationController" := by decide +kernel
  exact table _ (mem_of_getMapping known)

theorem prepared_name {options own : Dict} {resourceId value : Value}
    (deletes : c.verb = .delete resourceId) (single : c.definition.kind ≠ "ReplicationController")
    (plan : (prepared kube c options).2 = .ok own) (present : own.get? "name" = some value) :
    value = resourceId := by
  obtain ⟨verb, mapping, definition⟩ := c
  cases deletes
  dsimp only at single
  simp only [prepared, ne_eq, single, not_false_eq_true, if_true] at plan
  split at plan
  · cases plan
  · split at plan
    · cases plan
    · obtain ⟨fromDefinition, _, rfl⟩ := matched_ok plan
      rw [get?_matchedNamespace_ne _ _ (by decide), remainingOptions, OrderedDict.get?_filter,
        Option.filter_eq_some_iff, OrderedDict.get?_set_ne _ _ (by decide),
        OrderedDict.get?_set_self] at present
      exact (Option.some.inj present.1).symm

theorem prepared_namespace {options own : Dict} {value : Value} {text : String}
    (plan : (prepared kube c options).2 = .ok own) (present : own.get? "namespace" = some value) :
    (c.definition.targetNamespace ((options.get? "namespace").getD .none)).eq (.str text) = true ↔
      value = .str text := by
  obtain ⟨entered, fromDefinition, found, rfl, frame⟩ := prepared_ok kube c plan
  have named : c.definition.ownNamespace = fromDefinition := by
    rw [KubernetesResourceDefinition.ownNamespace, found]
  rw [get?_matchedNamespace, Option.map_eq_some_iff] at present
  obtain ⟨current, present, rfl⟩ := present
  rw [frame "namespace" current (by decide) (by decide) present]
  rw [KubernetesResourceDefinition.targetNamespace, named, Option.getD_some, Value.eq_str_iff]
  cases truthy : fromDefinition.truthy with
  | false => simp
  | true =>
    cases equal : current.eq fromDefinition with
    | false => simp
    | true =>
      simp only [Bool.not_true, Bool.and_false, Bool.false_eq_true, if_false, if_true]
      constructor
      · rintro rfl
        exact Value.eq_str_iff.mp equal
      · rintro rfl
        cases fromDefinition <;> simp_all [Value.eq, Value.number?]

/-- A deletion leaves every object but its target in the cluster, unless it is one of a
    replication controller and the namespace has another one. -/
theorem delete_spares_others_iff {mapping : KubernetesApiMapping}
    {definition : KubernetesResourceDefinition} {resourceId : Value} (s : State)
    (cluster : Finset ClusterObject) {request : Request} {answer : Answer}
    (known : getMapping definition.kind = .ok mapping)
    (documented : definition.kind = "ReplicationController" → request.takes kube "namespace")
    (requested : .requested ⟨.delete resourceId, mapping, definition⟩ request answer ∈
      (clientCall kube ⟨.delete resourceId, mapping, definition⟩ s).2.log.drop s.log.length) :
    (∀ o ∈ cluster, o.isTarget ⟨.delete resourceId, mapping, definition⟩ resourceId s.options = false →
        o ∈ request.applied cluster) ↔
      (definition.kind = "ReplicationController" → ∀ o ∈ cluster, o.kind = "ReplicationController" →
        o.namesp.any (fun namesp => (definition.targetNamespace
          ((s.options.get? "namespace").getD .none)).eq (.str namesp)) = true →
        resourceId.eq (.str o.name) = true) := by
  obtain ⟨own, answer', plan, m, member, names, arguments, answer', operation, complete, same⟩ :=
    requested_issuable requested
  cases same
  have method : m.method = mapping.delete.method := by
    rcases List.mem_cons.mp member with rfl | member
    · rfl
    · obtain ⟨name, _, alternate⟩ := List.mem_filterMap.mp member
      split at alternate
      · cases alternate
      · split at alternate <;> cases alternate
        rfl
  have removes (o : ClusterObject) := @Request.removes_iff mapping definition.kind
    ⟨m.api, m.method, arguments⟩ o known method
  have collection := method ▸ collection_iff known
  have inNamespace (o : ClusterObject)
      (selected : o.namesp.any (Request.argumentIs ⟨m.api, m.method, arguments⟩ "namespace") = true) :
      o.namesp.all (fun namesp => (definition.targetNamespace
        ((s.options.get? "namespace").getD .none)).eq (.str namesp)) = true := by
    cases given : o.namesp with
    | none => rfl
    | some namesp =>
      rw [given, Option.any_some, Request.argumentIs_iff] at selected
      exact (prepared_namespace plan (prepareArguments_get? complete selected).1).mpr rfl
  -- The namespace of a replication controller is a mandatory argument.
  have collected (controller : definition.kind = "ReplicationController") (o : ClusterObject) :
      o.namesp.any (Request.argumentIs ⟨m.api, m.method, arguments⟩ "namespace") =
        o.namesp.any fun namesp => (definition.targetNamespace
          ((s.options.get? "namespace").getD .none)).eq (.str namesp) := by
    have mandatory := (takes_iff operation arguments "namespace").mp (documented controller)
    obtain ⟨value, held, _⟩ := mandatory_present complete mandatory
    cases o.namesp with
    | none => rfl
    | some namesp =>
      rw [Option.any_some, Option.any_some, Bool.eq_iff_iff, Request.argumentIs_iff,
        get?_mandatory complete mandatory, prepared_namespace plan held, held, Option.some.injEq]
  constructor
  · intro spared controller o inside kind selected
    rw [← collected controller] at selected
    by_contra other
    have left := spared o inside (by simp [ClusterObject.isTarget, other])
    rw [Request.applied, Finset.mem_filter] at left
    have gone : Request.removes ⟨m.api, m.method, arguments⟩ o = true := by
      rw [removes, Request.selects, if_pos (collection.mpr controller)]
      exact ⟨kind.trans controller.symm, selected⟩
    rw [gone] at left
    cases left.2
  · intro alone o inside other
    rw [Request.applied, Finset.mem_filter]
    refine ⟨inside, Bool.eq_false_iff.mpr fun gone => ?_⟩
    obtain ⟨kind, selected⟩ := (removes o).mp gone
    have target : o.isTarget ⟨.delete resourceId, mapping, definition⟩ resourceId s.options = true := by
      unfold Request.selects at selected
      simp only [ClusterObject.isTarget, kind, decide_true, Bool.true_and, Bool.and_eq_true]
      by_cases controller : definition.kind = "ReplicationController"
      · rw [if_pos (collection.mpr controller)] at selected
        exact ⟨alone controller o inside (kind.trans controller) (collected controller o ▸ selected),
          inNamespace o selected⟩
      · rw [if_neg (mt collection.mp controller)] at selected
        have named (own' : Request.argumentIs ⟨m.api, m.method, arguments⟩ "name" o.name = true) :
            resourceId.eq (.str o.name) = true := by
          rw [Request.argumentIs_iff] at own'
          rw [Value.eq_str_iff]
          exact (prepared_name rfl controller plan (prepareArguments_get? complete own').1).symm
        split at selected
        · rw [Bool.and_eq_true] at selected
          exact ⟨named selected.2, inNamespace o selected.1⟩
        · rw [Bool.and_eq_true, Option.isNone_iff_eq_none] at selected
          exact ⟨named selected.2, by rw [selected.1]; rfl⟩
    rw [target] at other
    cases other

end

namespace Package

def deleteController : ClientCall where
  verb := .delete (.str "web")
  mapping := .replicationController
  definition := ⟨"ReplicationController", .str "v1", .dict [("name", .str "web")], .empty⟩

def controllers : Finset ClusterObject :=
  {⟨"ReplicationController", some "main", "web"⟩, ⟨"ReplicationController", some "main", "db"⟩}

end Package

open Package

/-- The deletion of one replication controller removes the other one of its namespace. -/
theorem controllers_removed :
    ∃ request ∈ (clientCall everything deleteController mainNamespace).2.requests,
      ¬ ∀ o ∈ controllers, o.isTarget deleteController (.str "web") mainNamespace.options = false →
        o ∈ request.applied controllers := by
  refine ⟨⟨"CoreV1Api", "delete_collection_namespaced_replication_controller",
    OrderedDict.empty.set "namespace" (.str "main")⟩, List.mem_of_getElem? (i := 0) rfl,
    fun spared => ?_⟩
  have left := spared ⟨"ReplicationController", some "main", "db"⟩ (by simp [controllers]) rfl
  exact absurd (Finset.mem_filter.mp left).2 (by decide +kernel)

theorem delete_spares_others_iff_controllers :
    (∀ o ∈ controllers, o.isTarget deleteController (.str "web") mainNamespace.options = false →
        o ∈ Request.applied ⟨"CoreV1Api", "delete_collection_namespaced_replication_controller",
          OrderedDict.empty.set "namespace" (.str "main")⟩ controllers) ↔
      (deleteController.definition.kind = "ReplicationController" → ∀ o ∈ controllers,
        o.kind = "ReplicationController" →
        o.namesp.any (fun namesp => (deleteController.definition.targetNamespace
          ((mainNamespace.options.get? "namespace").getD .none)).eq (.str namesp)) = true →
        (Value.str "web").eq (.str o.name) = true) :=
  @delete_spares_others_iff everything _ _ _ mainNamespace controllers _ _ rfl
    (fun _ => ⟨["namespace"], rfl, by decide⟩) (List.mem_of_getElem? (i := 1) rfl)

end CloudifyKubernetes
