import CloudifyKubernetes.History
import CloudifyKubernetes.K8s.OptionsFrame
import CloudifyKubernetes.K8s.Package

namespace CloudifyKubernetes

open Collections Effects

def KubernetesResourceDefinition.ownNamespace (d : KubernetesResourceDefinition) : Value :=
  match d.metadata.get "namespace" .none with
  | .ok own => own
  | .error _ => .none

def Event.called? : Event → Option ClientCall
  | called c => some c
  | _ => none

def leftNamespace (kube : Kubernetes) (current : Value) (c : ClientCall) : Value :=
  let own := c.definition.ownNamespace
  if c.settles kube && own.truthy && !current.eq own then own else current

def inheritedNamespace (kube : Kubernetes) (original : Value) (log : List Event) : Value :=
  (log.filterMap Event.called?).foldl (leftNamespace kube) original

section

variable {kube : Kubernetes}

theorem sharedOptions_namespace (c : ClientCall) {options : Dict} {current : Value}
    (present : options.get? "namespace" = some current) (kept : current.truthy = true) :
    (sharedOptions kube c options).get? "namespace" = some (leftNamespace kube current c) ∧
      (leftNamespace kube current c).truthy = true := by
  cases settles : c.settles kube with
  | false =>
    rw [sharedOptions_of_unsettled kube c options settles "namespace" nofun nofun, present]
    simp [leftNamespace, settles, kept]
  | true =>
    obtain ⟨entered, fromDefinition, same, found, shared⟩ := sharedOptions_of_settles kube c options settles
    have own : c.definition.ownNamespace = fromDefinition := by
      rw [KubernetesResourceDefinition.ownNamespace, found]
    have left : (matchedNamespace fromDefinition entered).get? "namespace" =
        some (leftNamespace kube current c) := by
      rw [get?_matchedNamespace, same "namespace" nofun nofun, present]
      simp [leftNamespace, settles, own]
    have truthy : (leftNamespace kube current c).truthy = true := by
      simp only [leftNamespace, settles, own, Bool.true_and]
      split
      · rename_i replaced
        exact (Bool.and_eq_true _ _ ▸ replaced).1
      · exact kept
    exact ⟨shared ▸ get?_executedOptions kube left truthy, truthy⟩

theorem inheritedNamespace_append (original : Value) (log events : List Event) :
    inheritedNamespace kube original (log ++ events) =
      inheritedNamespace kube (inheritedNamespace kube original log) events := by
  rw [inheritedNamespace, List.filterMap_append, List.foldl_append]
  rfl

theorem inheritedNamespace_of_uncalled (original : Value) {events : List Event}
    (uncalled : ∀ e ∈ events, e.called? = none) :
    inheritedNamespace kube original events = original := by
  rw [inheritedNamespace, List.filterMap_eq_nil_iff.mpr uncalled, List.foldl_nil]

theorem Issued.called?_eq {c : ClientCall} {own : Dict} {e : Event} (issued : Issued kube c own e) :
    e.called? = none := by
  obtain ⟨m, _, names, arguments, answer, _, _, rfl⟩ := issued
  rfl

/-- Along a history the options hold the namespace that the calls so far have left. -/
theorem History.namespace {original : Dict} {log : List Event} {options : Dict} {named : Value}
    (history : History kube original log options) (carried : original.get? "namespace" = some named)
    (truthy : named.truthy = true) :
    options.get? "namespace" = some (inheritedNamespace kube named log) ∧
      (inheritedNamespace kube named log).truthy = true := by
  induction history with
  | start => exact ⟨carried, truthy⟩
  | entered before path mapping definition runtime ih =>
    rwa [inheritedNamespace_append, inheritedNamespace_of_uncalled _ (by simp [Event.called?])]
  | mapped before definition ih =>
    rwa [inheritedNamespace_append, inheritedNamespace_of_uncalled _ (by simp [Event.called?])]
  | edited before definition edit accepted ih =>
    rw [inheritedNamespace_append, inheritedNamespace_of_uncalled _ (by simp [Event.called?])]
    rwa [get?_customResourceEdit accepted (by decide)]
  | @called log options before c aimed sent result sends ih =>
    have quiet : ∀ e ∈ sent ++ [.returned c result], e.called? = none := by
      intro e member
      rcases sent_events sends e member with ⟨request, answer, rfl⟩ | rfl <;> rfl
    have step : inheritedNamespace kube named (log ++ .called c :: (sent ++ [.returned c result])) =
        leftNamespace kube (inheritedNamespace kube named log) c := by
      rw [inheritedNamespace_append]
      exact inheritedNamespace_of_uncalled _ quiet
    rw [step]
    exact sharedOptions_namespace c ih.1 ih.2

/-- The namespace argument of a request is the own one of its definition, up to `==`, or else
    the one that the calls before have left. -/
theorem Cause.namespace {original : Dict} {pre : List Event} {c : ClientCall} {request : Request}
    {answer : Answer} {named value : Value} (cause : Cause kube original pre c request answer)
    (carried : original.get? "namespace" = some named) (truthy : named.truthy = true)
    (argument : request.arguments.get? "namespace" = some value) :
    if c.definition.ownNamespace.truthy then value.eq c.definition.ownNamespace = true
    else value = inheritedNamespace kube named pre := by
  obtain ⟨before, sent, options, own, split, history, aimed, plan, siblings, issued⟩ := cause
  obtain ⟨m, _, names, arguments, answer', operation, prepared, same⟩ := issued
  cases same
  have entry := (prepareArguments_get? prepared argument).1
  obtain ⟨entered, fromDefinition, found, rfl, frame⟩ := prepared_ok kube c plan
  have ownNamespace : c.definition.ownNamespace = fromDefinition := by
    rw [KubernetesResourceDefinition.ownNamespace, found]
  rw [get?_matchedNamespace, Option.map_eq_some_iff] at entry
  obtain ⟨current, present, settled⟩ := entry
  have inherited : current = inheritedNamespace kube named before := by
    have left := (history.namespace carried truthy).1
    rw [frame "namespace" current nofun nofun present] at left
    exact Option.some.inj left
  rw [ownNamespace]
  cases named' : fromDefinition.truthy with
  | true =>
    rw [named', Bool.true_and] at settled
    cases equal : current.eq fromDefinition with
    | true => simp [equal, ← settled]
    | false =>
      rw [equal] at settled
      simp only [← settled, Bool.not_false, if_true]
      exact fromDefinition.eq_refl
  | false =>
    rw [named', Bool.false_and] at settled
    have quiet : inheritedNamespace kube named pre = leftNamespace kube (inheritedNamespace kube named before) c := by
      rw [split, inheritedNamespace_append]
      exact inheritedNamespace_of_uncalled _
        fun e member => (siblings e member).called?_eq
    simp only [Bool.false_eq_true, if_false]
    rw [quiet]
    simp [leftNamespace, ownNamespace, named', ← settled, inherited]

end

def KubernetesResourceDefinition.targetNamespace (d : KubernetesResourceDefinition)
    (original : Value) : Value := if d.ownNamespace.truthy then d.ownNamespace else original

def Event.inNamespace (original : Value) : Event → Bool
  | requested c request _ =>
    match request.arguments.get? "namespace" with
    | some value => value.eq (c.definition.targetNamespace original)
    | none => true
  | _ => true

/-- Whenever a request with a namespace is made for a definition without one, the definitions
    before have left the original namespace in the options. -/
def NamespaceRestored (kube : Kubernetes) (original : Value) (log : List Event) : Prop :=
  ∀ pre c request answer post, log = pre ++ .requested c request answer :: post →
    (request.arguments.get? "namespace").isSome = true →
    c.definition.ownNamespace.truthy = false →
    (inheritedNamespace kube original pre).eq original = true

/-- Every request of an operation names the namespace that its definition is meant for exactly
    when the definitions without a namespace find the original one in the options. -/
theorem Operation.inNamespace_iff (kube : Kubernetes) (node : Node) (ctx : OperationContext)
    (operation : Operation) (s : State) (original : Value) (fresh : s.log = [])
    (carried : s.options.get? "namespace" = some original) (truthy : original.truthy = true) :
    (∀ e ∈ (operation.run kube node ctx s).2.log, e.inNamespace original = true) ↔
      NamespaceRestored kube original (operation.run kube node ctx s).2.log := by
  have history := operation.run_history kube node ctx s fresh
  constructor
  · intro separate pre c request answer post split argument unnamed
    obtain ⟨value, argument⟩ := Option.isSome_iff_exists.mp argument
    obtain ⟨cause⟩ := history.cause split
    have inherited := cause.namespace carried truthy argument
    have meant := separate (.requested c request answer) (by rw [split]; simp)
    simp only [unnamed, Bool.false_eq_true, if_false] at inherited
    simpa [Event.inNamespace, argument, KubernetesResourceDefinition.targetNamespace, unnamed,
      inherited] using meant
  · intro restored e member
    cases e with
    | requested c request answer =>
      obtain ⟨pre, post, split⟩ := List.append_of_mem member
      obtain ⟨cause⟩ := history.cause split
      cases argument : request.arguments.get? "namespace" with
      | none => simp [Event.inNamespace, argument]
      | some value =>
        have inherited := cause.namespace carried truthy argument
        have left := restored pre c request answer post split (by rw [argument]; rfl)
        cases named : c.definition.ownNamespace.truthy with
        | true =>
          rw [named, if_pos rfl] at inherited
          simpa [Event.inNamespace, argument, KubernetesResourceDefinition.targetNamespace, named]
            using inherited
        | false =>
          simp only [named, Bool.false_eq_true, if_false] at inherited
          simpa [Event.inNamespace, argument, KubernetesResourceDefinition.targetNamespace, named,
            inherited] using left named
    | _ => rfl

open Package

/-- The namespace of the first definition is the one that the second is read in. -/
theorem namespace_leaks :
    ¬ ∀ e ∈ ((Operation.fileResourceCreate (some "maps.yaml")
        [configMap "first" (some "alpha"), configMap "second" none]).run everything ownNode install
          mainNamespace).2.log, e.inNamespace (.str "main") = true := by decide +kernel

theorem inNamespace_iff_mainNamespace :
    (∀ e ∈ ((Operation.fileResourceCreate (some "maps.yaml")
        [configMap "first" (some "main"), configMap "second" none]).run everything ownNode install
          mainNamespace).2.log, e.inNamespace (.str "main") = true) ↔
      NamespaceRestored everything (.str "main") ((Operation.fileResourceCreate (some "maps.yaml")
        [configMap "first" (some "main"), configMap "second" none]).run everything ownNode install
          mainNamespace).2.log :=
  Operation.inNamespace_iff everything ownNode install _ mainNamespace (.str "main") rfl
    rfl rfl

end CloudifyKubernetes
