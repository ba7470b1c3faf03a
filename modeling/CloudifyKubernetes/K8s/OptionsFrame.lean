import CloudifyKubernetes.K8s.Calls
import CloudifyKubernetes.Utils

namespace CloudifyKubernetes

open Collections Effects

theorem get?_collected (arguments : Dict) (names : List String) (result : Dict) (key : String) :
    (names.foldl (takeArgument arguments) result).get? key =
      if key ∈ names ∧ (arguments.get? key).isSome then arguments.get? key else result.get? key := by
  induction names generalizing result with
  | nil => simp
  | cons name rest ih =>
    rw [List.foldl_cons, ih]
    by_cases found : key ∈ rest ∧ (arguments.get? key).isSome
    · simp [found]
    · rw [if_neg found]
      unfold takeArgument
      cases value : arguments.get? name with
      | none =>
        by_cases same : key = name
        · subst same
          simp [value]
        · simp [same, found]
      | some value =>
        rw [OrderedDict.get?_set]
        by_cases same : key = name
        · subst same
          simp [*]
        · simp [same, found]

/-- An argument of a request is a truthy entry of the options that it was made with. -/
theorem prepareArguments_get? {mandatory accepted : List String} {own arguments : Dict}
    (prepared : prepareArguments mandatory accepted (dropFalsy own) = .ok arguments)
    {key : String} {value : Value} (argument : arguments.get? key = some value) :
    own.get? key = some value ∧ value.truthy = true := by
  unfold prepareArguments at prepared
  split at prepared
  · cases prepared
  · cases prepared
    rw [get?_collected, get?_dropFalsy] at argument
    split at argument
    · simpa [Option.filter_eq_some_iff] using argument
    · simp at argument

variable (kube : Kubernetes) (c : ClientCall)

def Entered (options entered : Dict) : Prop :=
  ∀ key, key ≠ "name" → key ≠ "body" → entered.get? key = options.get? key

theorem Entered.set {options entered : Dict} (same : Entered options entered) {key : String}
    (value : Value) (own : key = "name" ∨ key = "body") : Entered options (entered.set key value) := by
  intro other name body
  rw [OrderedDict.get?_set_ne, same other name body]
  rintro rfl
  rcases own with rfl | rfl
  · exact name rfl
  · exact body rfl

theorem matched_ok {definition : KubernetesResourceDefinition} {options own : Dict}
    (accepted : (matched definition options).2 = .ok own) :
    ∃ fromDefinition, definition.metadata.get "namespace" .none = .ok fromDefinition ∧
      own = matchedNamespace fromDefinition options := by
  unfold matched at accepted
  split at accepted
  · cases accepted
  · rename_i fromDefinition found
    cases accepted
    exact ⟨fromDefinition, found, rfl⟩

theorem prepared_attached (options : Dict) (attached : c.detached = false) :
    (∃ entered e, prepared kube c options = (entered, .error e) ∧ Entered options entered) ∨
    ∃ entered, prepared kube c options = matched c.definition entered ∧ Entered options entered := by
  have same : Entered options options := fun _ _ _ => rfl
  obtain ⟨verb, mapping, definition⟩ := c
  unfold prepared
  cases verb with
  | create =>
    cases preparePayload kube mapping.create.payload definition with
    | error e => exact .inl ⟨_, e, rfl, same⟩
    | ok body => exact .inr ⟨_, rfl, same.set body (.inr rfl)⟩
  | read site =>
    cases definition.metadata.index "name" with
    | error e => exact .inl ⟨_, e, rfl, same⟩
    | ok name => exact .inr ⟨_, rfl, same.set name (.inl rfl)⟩
  | update =>
    cases preparePayload kube mapping.create.payload definition with
    | error e => exact .inl ⟨_, e, rfl, same⟩
    | ok body =>
      cases definition.metadata.index "name" with
      | error e => exact .inl ⟨_, e, rfl, same.set body (.inr rfl)⟩
      | ok name => exact .inr ⟨_, rfl, (same.set body (.inr rfl)).set name (.inl rfl)⟩
  | delete resourceId =>
    have collection : definition.kind = "ReplicationController" := by
      simpa [ClientCall.detached] using attached
    simp only [collection, ne_eq, not_true_eq_false, if_false]
    exact .inr ⟨_, rfl, same⟩

theorem prepared_detached (options : Dict) (detached : c.detached = true) :
    Entered options (prepared kube c options).1 ∧
      ∀ own, (prepared kube c options).2 = .ok own →
        ∃ taken, (matched c.definition (remainingOptions taken (prepared kube c options).1)).2 = .ok own := by
  have same : Entered options options := fun _ _ _ => rfl
  obtain ⟨verb, mapping, definition⟩ := c
  cases verb with
  | delete resourceId =>
    have single : definition.kind ≠ "ReplicationController" := by
      simpa [ClientCall.detached] using detached
    have named := same.set resourceId (.inl rfl)
    simp only [prepared, single, ne_eq, not_false_eq_true, if_true]
    cases prepareDeleteOptionsResource kube mapping.delete.payload (options.set "name" resourceId) with
    | error e => exact ⟨named, fun _ accepted => by cases accepted⟩
    | ok payload =>
      dsimp only
      cases deletePayloadKeys payload with
      | error e => exact ⟨named.set payload (.inr rfl), fun _ accepted => by cases accepted⟩
      | ok taken => exact ⟨named.set payload (.inr rfl), fun own accepted => ⟨taken, accepted⟩⟩
  | create | read site | update => cases detached

theorem prepared_isOk (options other : Dict) (attached : c.detached = false) :
    (prepared kube c options).2.isOk = (prepared kube c other).2.isOk := by
  have matched_isOk (entered entered' : Dict) :
      (matched c.definition entered).2.isOk = (matched c.definition entered').2.isOk := by
    unfold matched
    split <;> rfl
  obtain ⟨verb, mapping, definition⟩ := c
  unfold prepared
  cases verb with
  | create =>
    cases preparePayload kube mapping.create.payload definition with
    | error e => rfl
    | ok body => exact matched_isOk _ _
  | read site =>
    cases definition.metadata.index "name" with
    | error e => rfl
    | ok name => exact matched_isOk _ _
  | update =>
    cases preparePayload kube mapping.create.payload definition with
    | error e => rfl
    | ok body =>
      cases definition.metadata.index "name" with
      | error e => rfl
      | ok name => exact matched_isOk _ _
  | delete resourceId =>
    have collection : definition.kind = "ReplicationController" := by
      simpa [ClientCall.detached] using attached
    simp only [collection, ne_eq, not_true_eq_false, if_false]
    exact matched_isOk _ _

def ClientCall.settles : Bool := !c.detached && (prepared kube c .empty).2.isOk

theorem sharedOptions_of_settles (options : Dict) (settles : c.settles kube = true) :
    ∃ entered fromDefinition, Entered options entered ∧
      c.definition.metadata.get "namespace" .none = .ok fromDefinition ∧
      sharedOptions kube c options =
        executedOptions kube c.operation (matchedNamespace fromDefinition entered) := by
  simp only [ClientCall.settles, Bool.and_eq_true, Bool.not_eq_true'] at settles
  obtain ⟨attached, possible⟩ := settles
  rw [prepared_isOk kube c .empty options attached] at possible
  rcases prepared_attached kube c options attached with ⟨entered, e, plan, same⟩ | ⟨entered, plan, same⟩
  · rw [plan] at possible
    cases possible
  · cases result : (matched c.definition entered).2 with
    | error e =>
      rw [plan, result] at possible
      cases possible
    | ok own =>
      obtain ⟨fromDefinition, found, rfl⟩ := matched_ok result
      refine ⟨entered, fromDefinition, same, found, ?_⟩
      rw [sharedOptions, plan, result]
      simp [attached, matched_fst result]

theorem sharedOptions_of_unsettled (options : Dict) (unsettled : c.settles kube = false) :
    Entered options (sharedOptions kube c options) := by
  cases detached : c.detached with
  | true =>
    have same := (prepared_detached kube c options detached).1
    unfold sharedOptions
    split
    · exact same
    · rw [if_pos detached]
      exact same
  | false =>
    have failed : (prepared kube c options).2.isOk = false := by
      rw [prepared_isOk kube c options .empty detached]
      simpa [ClientCall.settles, detached] using unsettled
    rcases prepared_attached kube c options detached with ⟨entered, e, plan, same⟩ | ⟨entered, plan, same⟩
    · rw [sharedOptions, plan]
      exact same
    · unfold matched at plan
      split at plan
      · rw [sharedOptions, plan]
        exact same
      · rw [plan] at failed
        cases failed

theorem get?_executedOptions {m : KubernetesSingleOperationApiMapping} {options : Dict} {key : String}
    {value : Value} (present : options.get? key = some value) (kept : value.truthy = true) :
    (executedOptions kube m options).get? key = some value := by
  unfold executedOptions
  split
  · rw [get?_dropFalsy, present]
    simp [kept]
  · exact present

theorem get?_matchedNamespace (fromDefinition : Value) (options : Dict) :
    (matchedNamespace fromDefinition options).get? "namespace" =
      (options.get? "namespace").map fun current =>
        if fromDefinition.truthy && !current.eq fromDefinition then fromDefinition else current := by
  unfold matchedNamespace
  cases present : options.get? "namespace" with
  | none => simp [present]
  | some current =>
    dsimp only
    split <;> simp_all

theorem get?_matchedNamespace_ne (fromDefinition : Value) (options : Dict) {key : String}
    (other : key ≠ "namespace") :
    (matchedNamespace fromDefinition options).get? key = options.get? key := by
  unfold matchedNamespace
  split
  · split
    · exact OrderedDict.get?_set_ne _ _ other
    · rfl
  · rfl

theorem get?_executedOptions_congr {options other : Dict} {key : String}
    (m : KubernetesSingleOperationApiMapping) (same : options.get? key = other.get? key) :
    (executedOptions kube m options).get? key = (executedOptions kube m other).get? key := by
  unfold executedOptions
  split
  · rw [get?_dropFalsy, get?_dropFalsy, same]
  · exact same

theorem get?_sharedOptions (options : Dict) {key : String}
    (other : key ≠ "name" ∧ key ≠ "body" ∧ key ≠ "namespace") :
    (sharedOptions kube c options).get? key =
      (if c.settles kube then executedOptions kube c.operation options else options).get? key := by
  obtain ⟨name, body, namesp⟩ := other
  cases settles : c.settles kube with
  | false => exact sharedOptions_of_unsettled kube c options settles key name body
  | true =>
    obtain ⟨entered, fromDefinition, same, _, shared⟩ := sharedOptions_of_settles kube c options settles
    rw [shared, if_pos rfl]
    apply get?_executedOptions_congr
    rw [get?_matchedNamespace_ne _ _ namesp, same key name body]

/-- The options that a call executes with have no entry that the options lack, but for the
    name, the body and the namespace. -/
theorem prepared_ok {options own : Dict} (plan : (prepared kube c options).2 = .ok own) :
    ∃ entered fromDefinition, c.definition.metadata.get "namespace" .none = .ok fromDefinition ∧
      own = matchedNamespace fromDefinition entered ∧
      ∀ key value, key ≠ "name" → key ≠ "body" → entered.get? key = some value →
        options.get? key = some value := by
  cases detached : c.detached with
  | false =>
    rcases prepared_attached kube c options detached with ⟨entered, e, same, _⟩ | ⟨entered, same, frame⟩
    · rw [same] at plan
      cases plan
    · rw [same] at plan
      obtain ⟨fromDefinition, found, rfl⟩ := matched_ok plan
      exact ⟨entered, fromDefinition, found, rfl, fun key value name body present =>
        frame key name body ▸ present⟩
  | true =>
    obtain ⟨frame, rest⟩ := prepared_detached kube c options detached
    obtain ⟨taken, accepted⟩ := rest own plan
    obtain ⟨fromDefinition, found, rfl⟩ := matched_ok accepted
    refine ⟨_, fromDefinition, found, rfl, fun key value name body present => ?_⟩
    rw [remainingOptions, OrderedDict.get?_filter, Option.filter_eq_some_iff] at present
    exact frame key name body ▸ present.1

theorem customResourceEdit_ok {definition : KubernetesResourceDefinition}
    {annotations : List (String × Value)} (found : customAnnotations definition = .ok annotations)
    (options : Dict) : ∃ edit, customResourceEdit definition options = .ok edit := by
  simp only [customResourceEdit, found]
  exact ⟨_, rfl⟩

/-- What an edit makes of the options: all three coordinates, or nothing. -/
theorem customResourceEdit_cases {definition : KubernetesResourceDefinition} {options edit : Dict}
    (accepted : customResourceEdit definition options = .ok edit) :
    ∃ annotations, customAnnotations definition = .ok annotations ∧
      let value := coordinate annotations options
      ((∀ key ∈ customObjectNodeOptions, (value key).truthy = true) ∧
        edit = ((options.set "group" (value "group")).set "plural" (value "plural")).set "version"
          (value "version")) ∨
      (¬ ∀ key ∈ customObjectNodeOptions, (value key).truthy = true) ∧ edit = options := by
  simp only [customResourceEdit, bind, Except.bind, pure, Except.pure] at accepted
  split at accepted
  · cases accepted
  · rename_i annotations found
    cases accepted
    refine ⟨annotations, found, ?_⟩
    simp only [customObjectNodeOptions, List.forall_mem_cons, List.not_mem_nil, IsEmpty.forall_iff,
      implies_true, and_true, Bool.and_eq_true]
    split
    · rename_i complete
      exact .inl ⟨⟨complete.1.2, complete.1.1, complete.2⟩, rfl⟩
    · rename_i incomplete
      exact .inr ⟨fun complete => incomplete ⟨⟨complete.2.1, complete.1⟩, complete.2.2⟩, rfl⟩

theorem get?_customResourceEdit {definition : KubernetesResourceDefinition} {options edit : Dict}
    (accepted : customResourceEdit definition options = .ok edit) {key : String}
    (other : key ∉ customObjectNodeOptions) : edit.get? key = options.get? key := by
  simp only [customObjectNodeOptions, List.mem_cons, List.not_mem_nil, or_false, not_or] at other
  obtain ⟨plural, group, version⟩ := other
  obtain ⟨_, _, ⟨_, rfl⟩ | ⟨_, rfl⟩⟩ := customResourceEdit_cases accepted
  · rw [OrderedDict.get?_set_ne _ _ version, OrderedDict.get?_set_ne _ _ plural,
      OrderedDict.get?_set_ne _ _ group]
  · rfl

end CloudifyKubernetes
