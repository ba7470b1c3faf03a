import CloudifyKubernetes.Collections.Overlay
import CloudifyKubernetes.DeleteOptions

namespace CloudifyKubernetes

open Collections Effects Package

def intendedOption (options : Dict) (field : String) : Value :=
  (options.get? field).getD (if field = "propagation_policy" then .str "Foreground" else .none)

def intendedBody (options : Dict) : Value :=
  .object "V1DeleteOptions" (deleteOptionsFields.map fun field => ("_" ++ field, intendedOption options field))

/-- The request has this body and the name of the resource, and no field as an argument of
    its own. -/
def Request.composed (request : Request) (resourceId body : Value) : Prop :=
  request.arguments.get? "body" = some body ∧ request.arguments.get? "name" = some resourceId ∧
    ∀ field ∈ deleteOptionsFields, request.arguments.get? field = none

def Composed (kube : Kubernetes) (c : ClientCall) (resourceId : Value) (options : Dict) : Prop :=
  prepareDeleteOptionsResource kube c.mapping.delete.payload (options.set "name" resourceId) =
      .ok (intendedBody options) ∧
    ∀ own request answer, (prepared kube c options).2 = .ok own →
      Issued kube c own (.requested c request answer) → request.composed resourceId (intendedBody options)

/-- The class takes the fields as keyword arguments and stores each with an underscore. It has
    them as attributes, among others. -/
structure IsDeleteOptions (cls : PayloadClass) : Prop where
  hasFields : ∀ field ∈ deleteOptionsFields, cls.hasattr field = true
  construct : cls.construct = (modelClass "V1DeleteOptions" deleteOptionsFields).construct

def OnlyFields (cls : PayloadClass) (options : Dict) : Prop :=
  ∀ key, options.contains key = true → cls.hasattr key = true → key ∈ deleteOptionsFields

theorem deletePayload_eq (options : Dict) :
    deletePayload options =
      deleteOptionsFields.map fun field => ("_" ++ field, (options.get? field).getD .none) := by
  apply List.map_congr_left
  intro field known
  rw [lookup_fields options known]

theorem deletePayload_intended_iff (options : Dict) (resourceId : Value) :
    Value.object "V1DeleteOptions" (deletePayload (options.set "name" resourceId)) = intendedBody options ↔
      options.contains "propagation_policy" = true := by
  have named (field : String) (known : field ∈ deleteOptionsFields) :
      (options.set "name" resourceId).get? field = options.get? field :=
    OrderedDict.get?_set_ne _ _ (deleteOptionsFields_ne known).1
  rw [deletePayload_eq, intendedBody, Value.object.injEq, and_iff_right rfl, List.map_inj_left]
  constructor
  · intro same
    have policy := congrArg Prod.snd (same "propagation_policy" (by decide))
    simp only [named "propagation_policy" (by decide), intendedOption, if_true] at policy
    rw [OrderedDict.contains]
    cases given : options.get? "propagation_policy" with
    | none =>
      rw [given] at policy
      cases policy
    | some value => rfl
  · intro given field known
    rw [named field known, intendedOption]
    by_cases policy : field = "propagation_policy"
    · rw [OrderedDict.contains, Option.isSome_iff_exists] at given
      obtain ⟨value, given⟩ := given
      rw [policy, given]
      rfl
    · rw [if_neg policy]

section

variable {kube : Kubernetes} {cls : PayloadClass} {options : Dict} {resourceId : Value}

theorem prepareDeleteOptionsResource_eq (installed : kube.payloadClass "V1DeleteOptions" = some cls)
    (documented : IsDeleteOptions cls) (named : Dict) (filled : named.isEmpty = false) :
    prepareDeleteOptionsResource kube (some "V1DeleteOptions") named =
      (modelClass "V1DeleteOptions" deleteOptionsFields).construct (named.items.filter fun e => cls.hasattr e.1) := by
  simp only [prepareDeleteOptionsResource, installed, filled, documented.construct, Bool.false_eq_true, if_false]

/-- The constructor takes the options exactly if they name no other attribute of the class. -/
theorem built_iff (installed : kube.payloadClass "V1DeleteOptions" = some cls)
    (documented : IsDeleteOptions cls) (named : Dict) (filled : named.isEmpty = false) (body : Value) :
    prepareDeleteOptionsResource kube (some "V1DeleteOptions") named = .ok body ↔
      OnlyFields cls named ∧ body = .object "V1DeleteOptions" (deletePayload named) := by
  rw [prepareDeleteOptionsResource_eq installed documented named filled]
  by_cases only : OnlyFields cls named
  · have same : (named.items.filter fun e => cls.hasattr e.1) =
        named.items.filter fun e => e.1 ∈ deleteOptionsFields := by
      apply List.filter_congr
      rintro ⟨key, value⟩ member
      have held : named.contains key = true := by
        rw [OrderedDict.contains, OrderedDict.get?, lookup_isSome_iff]
        exact List.mem_map_of_mem member
      rw [Bool.eq_iff_iff, decide_eq_true_iff]
      exact ⟨only key held, documented.hasFields key⟩
    rw [same, construct_payload, and_iff_right only, Except.ok.injEq, eq_comm]
  · have unexpected : ∃ e, ((named.items.filter fun e => cls.hasattr e.1).find?
        fun e => e.1 ∉ deleteOptionsFields) = some e := by
      simp only [OnlyFields, not_forall] at only
      obtain ⟨key, held, has, unknown⟩ := only
      rw [← Option.isSome_iff_exists, List.find?_isSome]
      rw [OrderedDict.contains, OrderedDict.get?, lookup_isSome_iff, List.mem_map] at held
      obtain ⟨e, member, rfl⟩ := held
      exact ⟨e, List.mem_filter.mpr ⟨member, has⟩, by simpa using unknown⟩
    obtain ⟨e, found⟩ := unexpected
    simp only [modelClass, found, only, false_and, iff_false]
    intro built
    cases built

/-- A request of a built delete is composed as intended if its method takes the body and the
    name. -/
theorem composed_iff_takes {mapping : KubernetesApiMapping} {definition : KubernetesResourceDefinition}
    {request : Request} (single : definition.kind ≠ "ReplicationController")
    (built : prepareDeleteOptionsResource kube mapping.delete.payload (options.set "name" resourceId) =
      .ok (.object "V1DeleteOptions" (deletePayload (options.set "name" resourceId))))
    (issuable : Issuable kube ⟨.delete resourceId, mapping, definition⟩ options request) :
    request.composed resourceId (.object "V1DeleteOptions" (deletePayload (options.set "name" resourceId))) ↔
      request.takes kube "body" ∧ request.takes kube "name" := by
  obtain ⟨own, answer, plan, m, _, names, arguments, answer', operation, complete, same⟩ := issuable
  cases same
  obtain ⟨fromDefinition, rfl⟩ := own_of_built single built plan
  have moved (key : String) (other : key ≠ "namespace") :
      (matchedNamespace fromDefinition (remainingOptions deleteOptionsFields ((options.set "name" resourceId).set "body"
        (.object "V1DeleteOptions" (deletePayload (options.set "name" resourceId)))))).get? key =
      (((options.set "name" resourceId).set "body" (.object "V1DeleteOptions"
        (deletePayload (options.set "name" resourceId)))).get? key).filter fun _ => key ∉ deleteOptionsFields := by
    rw [get?_matchedNamespace_ne _ _ other, remainingOptions, OrderedDict.get?_filter]
  have untaken {key : String} (absent : key ∉ names) (single : key ∉ Verb.acceptedArguments (.delete resourceId)) :
      arguments.get? key = none := by
    rw [prepareArguments_eq complete, if_neg (by simp [absent, single])]
  have fields : ∀ field ∈ deleteOptionsFields, arguments.get? field = none := by
    intro field known
    rw [prepareArguments_eq complete, moved field (deleteOptionsFields_ne known).2.2]
    cases OrderedDict.get? _ field <;> simp [known]
  rw [takes_iff operation, takes_iff operation, Request.composed]
  constructor
  · rintro ⟨body, name, _⟩
    constructor
    · by_contra absent
      rw [untaken absent (by simp [Verb.acceptedArguments])] at body
      cases body
    · by_contra absent
      rw [untaken absent (by simp [Verb.acceptedArguments])] at name
      cases name
  · rintro ⟨body, name⟩
    refine ⟨?_, ?_, fields⟩
    · rw [get?_mandatory complete body, moved "body" (by decide), OrderedDict.get?_set_self]
      rfl
    · rw [get?_mandatory complete name, moved "name" (by decide), OrderedDict.get?_set_ne _ _ (by decide),
        OrderedDict.get?_set_self]
      rfl

/-- A delete sends the user's fields and the default policy in its body, and the name, exactly
    if the user gives a policy, no option is another attribute of `V1DeleteOptions`, and the
    methods that it can call take a body and a name. -/
theorem composed_iff {mapping : KubernetesApiMapping} {definition : KubernetesResourceDefinition}
    (resourceId : Value) (options : Dict) (installed : kube.payloadClass "V1DeleteOptions" = some cls)
    (documented : IsDeleteOptions cls) (single : definition.kind ≠ "ReplicationController")
    (payload : mapping.delete.payload = some "V1DeleteOptions") :
    Composed kube ⟨.delete resourceId, mapping, definition⟩ resourceId options ↔
      options.contains "propagation_policy" = true ∧ OnlyFields cls (options.set "name" resourceId) ∧
        ∀ request, Issuable kube ⟨.delete resourceId, mapping, definition⟩ options request →
          request.takes kube "body" ∧ request.takes kube "name" := by
  have filled := isEmpty_set options "name" resourceId
  have build := built_iff installed documented (options.set "name" resourceId) filled
  rw [← payload] at build
  constructor
  · rintro ⟨intended, carried⟩
    obtain ⟨only, same⟩ := (build _).mp intended
    refine ⟨(deletePayload_intended_iff options resourceId).mp same.symm, only, ?_⟩
    intro request issuable
    rw [same] at intended carried
    apply (composed_iff_takes single intended issuable).mp
    obtain ⟨own, answer, plan, issued⟩ := issuable
    exact carried own request answer plan issued
  · rintro ⟨policy, only, taken⟩
    have same := (deletePayload_intended_iff options resourceId).mpr policy
    have intended := (build _).mpr ⟨only, rfl⟩
    rw [Composed, ← same]
    refine ⟨intended, fun own request answer plan issued => ?_⟩
    have issuable : Issuable kube ⟨.delete resourceId, mapping, definition⟩ options request :=
      ⟨own, answer, plan, issued⟩
    exact (composed_iff_takes single intended issuable).mpr (taken request issuable)

end

def onlyNamespace : Dict := OrderedDict.empty.set "namespace" (.str "main")

/-- The entry for the name keeps the default policy from being reached. -/
theorem default_policy_missing : ¬ Composed everything deleteMap (.str "first") onlyNamespace := by
  rintro ⟨built, _⟩
  have documented : IsDeleteOptions (modelClass "V1DeleteOptions" deleteOptionsFields) := ⟨by decide, rfl⟩
  obtain ⟨_, same⟩ := (built_iff rfl documented _ rfl _).mp built
  have given := (deletePayload_intended_iff onlyNamespace (.str "first")).mp same.symm
  cases given

theorem composed_iff_background :
    Composed everything deleteMap (.str "first") (onlyNamespace.set "propagation_policy" (.str "Background")) ↔
      (onlyNamespace.set "propagation_policy" (.str "Background")).contains "propagation_policy" = true ∧
        OnlyFields (modelClass "V1DeleteOptions" deleteOptionsFields)
          ((onlyNamespace.set "propagation_policy" (.str "Background")).set "name" (.str "first")) ∧
        ∀ request, Issuable everything deleteMap (onlyNamespace.set "propagation_policy" (.str "Background")) request →
          request.takes everything "body" ∧ request.takes everything "name" :=
  composed_iff (.str "first") _ rfl ⟨by decide, rfl⟩ (by decide) rfl

end CloudifyKubernetes
