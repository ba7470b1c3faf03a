import CloudifyKubernetes.History
import CloudifyKubernetes.K8s.OptionsFrame
import CloudifyKubernetes.K8s.Package

namespace CloudifyKubernetes

open Collections Effects

def KubernetesResourceDefinition.complete (d : KubernetesResourceDefinition) : Bool :=
  match customAnnotations d with
  | .ok annotations => customObjectNodeOptions.all fun key =>
    ((annotations.lookup ("cloudify-crd-" ++ key)).getD .none).truthy
  | .error _ => false

def aloneCoordinate (original : Dict) (d : KubernetesResourceDefinition) (key : String) : Value :=
  match customResourceEdit d original with
  | .ok edit => (edit.get? key).getD .none
  | .error _ => .none

def leftOptions (kube : Kubernetes) (options : Dict) : Event → Dict
  | .edited d =>
    match customResourceEdit d options with
    | .ok edit => edit
    | .error _ => options
  | .called c => if c.settles kube then executedOptions kube c.operation options else options
  | _ => options

def inheritedOptions (kube : Kubernetes) (original : Dict) (log : List Event) : Dict :=
  log.foldl (leftOptions kube) original

section

variable {kube : Kubernetes} {original options other : Dict} {log : List Event}
  {definition : KubernetesResourceDefinition} {key : String}

theorem get?_coordinate_customResourceEdit {edit : Dict} {annotations : List (String × Value)}
    (accepted : customResourceEdit definition options = .ok edit)
    (found : customAnnotations definition = .ok annotations) (member : key ∈ customObjectNodeOptions) :
    edit.get? key =
      if ∀ key ∈ customObjectNodeOptions, (coordinate annotations options key).truthy = true then
        some (coordinate annotations options key)
      else options.get? key := by
  obtain ⟨annotations', found', ⟨complete, rfl⟩ | ⟨incomplete, rfl⟩⟩ := customResourceEdit_cases accepted
  · cases found.symm.trans found'
    rw [if_pos complete]
    simp only [customObjectNodeOptions, List.mem_cons, List.not_mem_nil, or_false] at member
    rcases member with rfl | rfl | rfl <;> simp [OrderedDict.get?_set]
  · cases found.symm.trans found'
    rw [if_neg incomplete]

theorem customResourceEdit_congr {edit edit' : Dict}
    (same : ∀ key ∈ customObjectNodeOptions, options.get? key = other.get? key)
    (accepted : customResourceEdit definition options = .ok edit)
    (accepted' : customResourceEdit definition other = .ok edit')
    (member : key ∈ customObjectNodeOptions) : edit.get? key = edit'.get? key := by
  obtain ⟨annotations, found, _⟩ := customResourceEdit_cases accepted
  have alike : ∀ key ∈ customObjectNodeOptions,
      coordinate annotations options key = coordinate annotations other key := by
    intro key member
    rw [coordinate, coordinate, same key member]
  have complete : (∀ key ∈ customObjectNodeOptions, (coordinate annotations options key).truthy = true) ↔
      ∀ key ∈ customObjectNodeOptions, (coordinate annotations other key).truthy = true := by
    constructor
    · intro all key member
      rw [← alike key member]
      exact all key member
    · intro all key member
      rw [alike key member]
      exact all key member
  rw [get?_coordinate_customResourceEdit accepted found member,
    get?_coordinate_customResourceEdit accepted' found member, alike key member, same key member]
  simp only [complete]

theorem coordinate_ne (member : key ∈ customObjectNodeOptions) :
    key ≠ "name" ∧ key ≠ "body" ∧ key ≠ "namespace" := by
  simp only [customObjectNodeOptions, List.mem_cons, List.not_mem_nil, or_false] at member
  rcases member with rfl | rfl | rfl <;> decide

theorem inheritedOptions_append (log events : List Event) :
    inheritedOptions kube original (log ++ events) =
      inheritedOptions kube (inheritedOptions kube original log) events := List.foldl_append

theorem Issued.leftOptions_eq {c : ClientCall} {own : Dict} {e : Event} (issued : Issued kube c own e)
    (options : Dict) : leftOptions kube options e = options := by
  obtain ⟨m, _, names, arguments, answer, _, _, rfl⟩ := issued
  rfl

theorem inheritedOptions_of_quiet (original : Dict) {events : List Event}
    (quiet : ∀ e ∈ events, ∀ options, leftOptions kube options e = options) :
    inheritedOptions kube original events = original := by
  induction events with
  | nil => rfl
  | cons e rest ih =>
    rw [inheritedOptions, List.foldl_cons, quiet e List.mem_cons_self]
    exact ih fun other member => quiet other (List.mem_cons_of_mem _ member)

/-- The coordinates in the options are the ones that the log leaves. -/
theorem History.coordinates (history : History kube original log options) :
    ∀ key ∈ customObjectNodeOptions,
      (inheritedOptions kube original log).get? key = options.get? key := by
  induction history with
  | start => exact fun _ _ => rfl
  | entered before path mapping definition runtime ih =>
    rwa [inheritedOptions_append, inheritedOptions_of_quiet _ (by simp [leftOptions])]
  | mapped before definition ih =>
    rwa [inheritedOptions_append, inheritedOptions_of_quiet _ (by simp [leftOptions])]
  | @edited log options before definition edit accepted ih =>
    intro key member
    obtain ⟨annotations, found, _⟩ := customResourceEdit_cases accepted
    obtain ⟨edit', accepted'⟩ := customResourceEdit_ok found (inheritedOptions kube original log)
    rw [inheritedOptions_append]
    simp only [inheritedOptions, List.foldl_cons, List.foldl_nil, leftOptions]
    rw [show customResourceEdit definition (log.foldl (leftOptions kube) original) = .ok edit' from accepted']
    exact customResourceEdit_congr ih accepted' accepted member
  | @called log options before c aimed sent result sends ih =>
    have quiet : ∀ e ∈ sent ++ [.returned c result], ∀ options, leftOptions kube options e = options := by
      intro e member options
      rcases sent_events sends e member with ⟨request, answer, rfl⟩ | rfl <;> rfl
    have step : inheritedOptions kube original (log ++ .called c :: (sent ++ [.returned c result])) =
        leftOptions kube (inheritedOptions kube original log) (.called c) := by
      rw [inheritedOptions_append]
      exact inheritedOptions_of_quiet _ quiet
    intro key member
    rw [step, get?_sharedOptions kube c options (coordinate_ne member)]
    simp only [leftOptions]
    split
    · exact get?_executedOptions_congr _ _ (ih key member)
    · exact ih key member

/-- The annotations of a complete definition are its coordinates, whatever the options. -/
theorem complete_edit (original : Dict) {edit : Dict} (complete : definition.complete = true)
    (accepted : customResourceEdit definition options = .ok edit) (member : key ∈ customObjectNodeOptions) :
    edit.get? key = some (aloneCoordinate original definition key) ∧
      (aloneCoordinate original definition key).truthy = true := by
  obtain ⟨annotations, found, _⟩ := customResourceEdit_cases accepted
  have given : ∀ options : Dict, ∀ key ∈ customObjectNodeOptions,
      (annotations.lookup ("cloudify-crd-" ++ key)).getD .none = coordinate annotations options key ∧
        (coordinate annotations options key).truthy = true := by
    intro options key member
    rw [KubernetesResourceDefinition.complete, found] at complete
    have truthy := List.all_eq_true.mp complete key member
    rw [coordinate]
    cases value : annotations.lookup ("cloudify-crd-" ++ key) with
    | none =>
      rw [value] at truthy
      cases truthy
    | some value' =>
      rw [value] at truthy
      exact ⟨rfl, truthy⟩
  have edited : ∀ {options edit : Dict}, customResourceEdit definition options = .ok edit →
      edit.get? key = some ((annotations.lookup ("cloudify-crd-" ++ key)).getD .none) := by
    intro options edit accepted
    rw [get?_coordinate_customResourceEdit accepted found member,
      if_pos fun key member => (given options key member).2, (given options key member).1]
  obtain ⟨edit', accepted'⟩ := customResourceEdit_ok found original
  have alone : aloneCoordinate original definition key =
      (annotations.lookup ("cloudify-crd-" ++ key)).getD .none := by
    rw [aloneCoordinate, accepted']
    simp [edited accepted']
  rw [alone]
  exact ⟨edited accepted, (given options key member).1 ▸ (given options key member).2⟩

/-- After an edit by a complete definition the options hold its own coordinates. -/
theorem History.complete_coordinates (history : History kube original log options)
    (last : lastEdited log = some definition) (complete : definition.complete = true) :
    ∀ key ∈ customObjectNodeOptions,
      options.get? key = some (aloneCoordinate original definition key) ∧
        (aloneCoordinate original definition key).truthy = true := by
  induction history with
  | start => cases last
  | entered before path mapping definition' runtime ih =>
    exact ih ((lastEdited_append (by simp [Event.edited?])).symm.trans last)
  | mapped before definition' ih =>
    exact ih ((lastEdited_append (by simp [Event.edited?])).symm.trans last)
  | edited before definition' edit accepted ih =>
    rw [lastEdited_concat_edited, Option.some.injEq] at last
    subst last
    exact fun key member => complete_edit original complete accepted member
  | @called log options before c aimed sent result sends ih =>
    have unedited : ∀ e ∈ .called c :: (sent ++ [.returned c result]), e.edited? = none := by
      intro e member
      rcases List.mem_cons.mp member with rfl | member
      · rfl
      · rcases sent_events sends e member with ⟨request, answer, rfl⟩ | rfl <;> rfl
    intro key member
    obtain ⟨present, truthy⟩ := ih ((lastEdited_append unedited).symm.trans last) key member
    refine ⟨?_, truthy⟩
    rw [get?_sharedOptions kube c options (coordinate_ne member)]
    split
    · exact get?_executedOptions kube present truthy
    · exact present

/-- A mapping is chosen with the options of that moment. -/
theorem History.mapped_cause (history : History kube original log options) {pre post : List Event}
    {result : Except Exception KubernetesApiMapping}
    (split : log = pre ++ .mapped definition result :: post) :
    ∃ options, History kube original pre options ∧
      result = mappingByKind options.keys definition := by
  induction history generalizing post with
  | start => simp at split
  | entered before path mapping definition' runtime ih =>
    obtain ⟨tail, inside⟩ := split_concat split nofun
    exact ih inside
  | @mapped log options before definition' ih =>
    rcases split_append split with ⟨inner, behind, rest⟩ | ⟨tail, inside⟩
    · cases inner with
      | nil =>
        cases rest
        rw [List.append_nil] at behind
        exact ⟨options, behind ▸ before, rfl⟩
      | cons head inner => simp at rest
    · exact ih inside
  | edited before definition' edit accepted ih =>
    obtain ⟨tail, inside⟩ := split_concat split nofun
    exact ih inside
  | called before c aimed sent result' sends ih =>
    rcases split_append split with ⟨inner, behind, rest⟩ | ⟨tail, inside⟩
    · have member : .mapped definition result ∈ .called c :: (sent ++ [.returned c result']) := by
        rw [rest]
        simp
      rcases List.mem_cons.mp member with same | member
      · cases same
      · rcases sent_events sends _ member with ⟨request, answer, same⟩ | same <;> cases same
    · exact ih inside

end

def coordinatesPresent (options : Dict) : Bool := customObjectNodeOptions.all (· ∈ options.keys)

/-- A mapping and the coordinates of a request are those of a definition that is alone. -/
def Event.unleaked (original : Dict) : Event → Bool
  | mapped d result => result = mappingByKind original.keys d
  | requested c request _ =>
    c.mapping ≠ KubernetesApiMapping.customObjectsApi ||
      customObjectNodeOptions.all fun key =>
        match request.arguments.get? key with
        | some value => value.eq (aloneCoordinate original c.definition key)
        | none => true
  | _ => true

/-- A definition of a kind without a mapping finds the coordinates among the options exactly if
    the original options have them, and one that lacks an annotation finds its coordinates. -/
structure CoordinatesRestored (kube : Kubernetes) (original : Dict) (log : List Event) : Prop where
  present : ∀ pre d result post, log = pre ++ .mapped d result :: post → d.isAnnotated = false →
    supportedApiMappings.lookup d.kind = none →
    coordinatesPresent (inheritedOptions kube original pre) = coordinatesPresent original
  values : ∀ pre c request answer post, log = pre ++ .requested c request answer :: post →
    c.mapping = KubernetesApiMapping.customObjectsApi → c.definition.complete = false →
    ∀ key ∈ customObjectNodeOptions, (request.arguments.get? key).isSome = true →
      (((inheritedOptions kube original pre).get? key).getD .none).eq
        (aloneCoordinate original c.definition key) = true

section

variable {kube : Kubernetes} {original : Dict}

theorem mappingByKind_congr {d : KubernetesResourceDefinition} (keys other : List String)
    (known : d.isAnnotated = true ∨ supportedApiMappings.lookup d.kind ≠ none) :
    mappingByKind keys d = mappingByKind other d := by
  unfold mappingByKind
  rcases known with annotated | known
  · rw [if_pos annotated, if_pos annotated]
  · obtain ⟨mapping, found⟩ := Option.ne_none_iff_exists'.mp known
    simp [getMapping, found]

theorem mappingByKind_iff {d : KubernetesResourceDefinition} (options other : Dict)
    (plain : d.isAnnotated = false) (unknown : supportedApiMappings.lookup d.kind = none) :
    mappingByKind options.keys d = mappingByKind other.keys d ↔
      coordinatesPresent options = coordinatesPresent other := by
  have custom : getMapping "CustomObjectsApi" = .ok .customObjectsApi := by decide +kernel
  have failed : getMapping d.kind = .error ⟨.mappingNotFoundError,
      "Cloud not find API mapping for " ++ d.kind ++ " kind of kubernetes resource"⟩ := by
    rw [getMapping, unknown]
  simp only [mappingByKind, plain, Bool.false_eq_true, if_false, failed, custom]
  change (if coordinatesPresent options = true then _ else _) =
    (if coordinatesPresent other = true then _ else _) ↔ _
  cases coordinatesPresent options <;> cases coordinatesPresent other <;> simp

theorem coordinatesPresent_congr {options other : Dict}
    (same : ∀ key ∈ customObjectNodeOptions, options.get? key = other.get? key) :
    coordinatesPresent options = coordinatesPresent other := by
  rw [coordinatesPresent, coordinatesPresent, Bool.eq_iff_iff, List.all_eq_true, List.all_eq_true]
  refine forall_congr' fun key => forall_congr' fun member => ?_
  simp only [decide_eq_true_eq, OrderedDict.mem_keys_iff, same key member]

/-- A coordinate of a request stands in the options, before and after its call begins. -/
theorem Cause.coordinate {pre : List Event} {c : ClientCall} {request : Request} {answer : Answer}
    {key : String} {value : Value} (cause : Cause kube original pre c request answer)
    (member : key ∈ customObjectNodeOptions) (argument : request.arguments.get? key = some value) :
    (inheritedOptions kube original pre).get? key = some value ∧
      (c.definition.complete = true → value = aloneCoordinate original c.definition key) := by
  obtain ⟨before, sent, options, own, split, history, aimed, plan, siblings, issued⟩ := cause
  obtain ⟨m, _, names, arguments, answer', operation, prepared, same⟩ := issued
  cases same
  obtain ⟨entry, truthy⟩ := prepareArguments_get? prepared argument
  obtain ⟨entered, fromDefinition, found, rfl, frame⟩ := prepared_ok kube c plan
  obtain ⟨name, body, namesp⟩ := coordinate_ne member
  rw [get?_matchedNamespace_ne _ _ namesp] at entry
  have present := frame key value name body entry
  constructor
  · have step : inheritedOptions kube original pre =
        leftOptions kube (inheritedOptions kube original before) (.called c) := by
      rw [split, inheritedOptions_append]
      exact inheritedOptions_of_quiet _
        fun e member => (siblings e member).leftOptions_eq
    have inherited := (history.coordinates key member).trans present
    rw [step]
    simp only [leftOptions]
    split
    · exact get?_executedOptions kube inherited truthy
    · exact inherited
  · intro complete
    have alone := (history.complete_coordinates aimed complete key member).1
    exact Option.some.inj (present.symm.trans alone)

end

/-- Every mapping and every coordinate is that of a definition on its own exactly when the
    definitions that take coordinates from the options find there those that they are due. -/
theorem Operation.unleaked_iff (kube : Kubernetes) (node : Node) (ctx : OperationContext)
    (operation : Operation) (s : State) (fresh : s.log = []) :
    (∀ e ∈ (operation.run kube node ctx s).2.log, e.unleaked s.options = true) ↔
      CoordinatesRestored kube s.options (operation.run kube node ctx s).2.log := by
  have history := operation.run_history kube node ctx s fresh
  constructor
  · intro separate
    constructor
    · intro pre d result post split plain unknown
      obtain ⟨options, before, chosen⟩ := history.mapped_cause split
      have own := separate (.mapped d result) (by rw [split]; simp)
      rw [Event.unleaked, decide_eq_true_eq, chosen, mappingByKind_iff _ _ plain unknown] at own
      exact (coordinatesPresent_congr before.coordinates).trans own
    · intro pre c request answer post split custom incomplete key member argument
      obtain ⟨value, argument⟩ := Option.isSome_iff_exists.mp argument
      obtain ⟨cause⟩ := history.cause split
      have own := separate (.requested c request answer) (by rw [split]; simp)
      simp only [Event.unleaked, custom, ne_eq, not_true_eq_false, decide_false, Bool.false_or,
        List.all_eq_true] at own
      have here := own key member
      rw [argument] at here
      rw [(cause.coordinate member argument).1]
      exact here
  · intro restored e member
    obtain ⟨pre, post, split⟩ := List.append_of_mem member
    cases e with
    | mapped d result =>
      obtain ⟨options, before, chosen⟩ := history.mapped_cause split
      rw [Event.unleaked, decide_eq_true_eq, chosen]
      by_cases known : d.isAnnotated = true ∨ supportedApiMappings.lookup d.kind ≠ none
      · exact mappingByKind_congr _ _ known
      · rw [not_or, not_not, Bool.not_eq_true] at known
        rw [mappingByKind_iff _ _ known.1 known.2]
        exact (coordinatesPresent_congr before.coordinates).symm.trans
          (restored.present pre d result post split known.1 known.2)
    | requested c request answer =>
      obtain ⟨cause⟩ := history.cause split
      by_cases custom : c.mapping = KubernetesApiMapping.customObjectsApi
      · simp only [Event.unleaked, custom, ne_eq, not_true_eq_false, decide_false, Bool.false_or,
          List.all_eq_true]
        intro key member
        cases argument : request.arguments.get? key with
        | none => rfl
        | some value =>
          obtain ⟨inherited, alone⟩ := cause.coordinate member argument
          cases complete : c.definition.complete with
          | true => rw [alone complete]; exact Value.eq_refl _
          | false =>
            have left := restored.values pre c request answer post split custom complete key member
              (by rw [argument]; rfl)
            rw [inherited] at left
            exact left
      · simp [Event.unleaked, custom]
    | _ => rfl

namespace Package

def customObject (kind name : String) (annotations : List (String × String)) :
    KubernetesResourceDefinition where
  kind := kind
  apiVersion := .str "stable.example/v1"
  metadata := .dict [("name", .str name),
    ("annotations", .dict (annotations.map fun e => (e.1, .str e.2)))]
  attributes := .empty

def crontab : KubernetesResourceDefinition := customObject "CronTab" "first"
  [("cloudify-crd-group", "stable.example"), ("cloudify-crd-plural", "crontabs"),
    ("cloudify-crd-version", "v1")]

end Package

open Package

/-- The annotations of the first definition give a mapping to the second, of an unknown kind. -/
theorem coordinates_leak :
    ¬ ∀ e ∈ ((Operation.fileResourceCreate (some "objects.yaml")
        [crontab, customObject "Widget" "second" []]).run everything ownNode install
          mainNamespace).2.log, e.unleaked mainNamespace.options = true := by decide +kernel

theorem unleaked_iff_mainNamespace :
    (∀ e ∈ ((Operation.fileResourceCreate (some "objects.yaml")
        [crontab, configMap "second" none]).run everything ownNode install mainNamespace).2.log,
          e.unleaked mainNamespace.options = true) ↔
      CoordinatesRestored everything mainNamespace.options
        ((Operation.fileResourceCreate (some "objects.yaml")
          [crontab, configMap "second" none]).run everything ownNode install mainNamespace).2.log :=
  Operation.unleaked_iff everything ownNode install _ mainNamespace rfl

end CloudifyKubernetes
