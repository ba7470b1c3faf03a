import CloudifyKubernetes.Utils

namespace CloudifyKubernetes

open Collections

/-- A related node: the types of its target, and the property `kubernetes` of the target's instance. -/
structure Relationship where
  typeHierarchy : List String
  kubernetes : Option Value

inductive ResourceDefinition
  | object (definition : KubernetesResourceDefinition)
  | value (v : Value)

section

variable (relationships : List Relationship) (kwargs : Dict) (resourceDefinition : ResourceDefinition)

def relatedNamespaces : List Relationship :=
  relationships.filter fun x => "cloudify.kubernetes.resources.Namespace" ∈ x.typeHierarchy

/-- The branch of `set_namespace` for other values. It reads `instance` of the relationship, which
    only its target has. -/
def relatedNamespace : Except Exception Value :=
  match relatedNamespaces relationships with
  | [] => .ok (.str "default")
  | _ :: _ => .error ⟨.attributeError, "'RelationshipContext' object has no attribute 'instance'"⟩

def setNamespace : Except Exception Dict := do
  let namesp ← match resourceDefinition with
    | .object definition => definition.metadata.get "namespace" .none
    | .value v =>
      match if v.truthy then v else .dict [] with
      | .dict entries => do
        let metadata ← (Value.dict entries).get "metadata" (.dict [])
        metadata.get "namespace" .none
      | _ => relatedNamespace relationships
  return kwargs.set "namespace" namesp

def ResourceDefinition.metadata : ResourceDefinition → Option Value
  | .object definition => some definition.metadata
  | .value (.dict entries) => entries.lookup "metadata"
  | .value _ => none

def namespaceIn : Value → Option Value
  | .dict fields => (fields.lookup "namespace").filter fun namesp => !namesp.isNone
  | _ => none

def ResourceDefinition.ownNamespace : Option Value := resourceDefinition.metadata.bind namespaceIn

def recordedNamespace : Except Exception Value :=
  match relatedNamespaces relationships with
  | [] => .ok (.str "default")
  | target :: _ => do
    let metadata ← (target.kubernetes.getD (.dict [])).index "metadata"
    metadata.index "name"

def resolvedNamespace : Except Exception Value :=
  match resourceDefinition.ownNamespace with
  | some namesp => .ok namesp
  | none => recordedNamespace relationships

def NamespaceResolved : Prop :=
  ∃ namesp, resolvedNamespace relationships resourceDefinition = .ok namesp ∧ namesp.isNone = false ∧
    setNamespace relationships kwargs resourceDefinition = .ok (kwargs.set "namespace" namesp)

def ResourceDefinition.isOther : ResourceDefinition → Bool
  | .object _ => false
  | .value (.dict _) => false
  | .value v => v.truthy

end

section

variable (relationships : List Relationship) (kwargs : Dict) {resourceDefinition : ResourceDefinition}

theorem get_namespace (metadata : Value) :
    metadata.get "namespace" .none = .ok ((namespaceIn metadata).getD .none) ∨
      namespaceIn metadata = none ∧ ∃ e, metadata.get "namespace" .none = .error e := by
  cases metadata with
  | dict fields =>
    refine .inl ?_
    rw [Value.get, namespaceIn]
    cases fields.lookup "namespace" with
    | none => rfl
    | some namesp => cases namesp <;> rfl
  | _ => exact .inr ⟨rfl, _, rfl⟩

theorem ownNamespace_isNone {namesp : Value} (own : resourceDefinition.ownNamespace = some namesp) :
    namesp.isNone = false := by
  obtain ⟨metadata, _, inside⟩ := Option.bind_eq_some_iff.mp own
  unfold namespaceIn at inside
  split at inside
  · simpa using (Option.filter_eq_some_iff.mp inside).2
  · cases inside

/-- The relationships are only searched for a value that is no definition at all. -/
theorem setNamespace_other (other : resourceDefinition.isOther = true) :
    resourceDefinition.ownNamespace = none ∧
      setNamespace relationships kwargs resourceDefinition =
        (relatedNamespace relationships).map (kwargs.set "namespace") := by
  cases resourceDefinition with
  | object definition => cases other
  | value v =>
    have searched : setNamespace relationships kwargs (.value v) =
        relatedNamespace relationships >>= fun namesp => pure (kwargs.set "namespace" namesp) := by
      cases v with
      | dict entries => cases other
      | none => cases other
      | _ =>
        simp only [ResourceDefinition.isOther] at other
        simp only [setNamespace, other, if_true]
    constructor
    · cases v with
      | dict entries => cases other
      | _ => rfl
    · rw [searched]
      cases relatedNamespace relationships <;> rfl

/-- A definition without a namespace gives `None` to the call, or raises. -/
theorem setNamespace_definition (known : resourceDefinition.isOther = false) :
    setNamespace relationships kwargs resourceDefinition =
        .ok (kwargs.set "namespace" (resourceDefinition.ownNamespace.getD .none)) ∨
      resourceDefinition.ownNamespace = none ∧
        ∃ e, setNamespace relationships kwargs resourceDefinition = .error e := by
  have assigned (metadata : Value) (own : resourceDefinition.ownNamespace = namespaceIn metadata)
      (run : setNamespace relationships kwargs resourceDefinition =
        metadata.get "namespace" .none >>= fun namesp => pure (kwargs.set "namespace" namesp)) :
      setNamespace relationships kwargs resourceDefinition =
          .ok (kwargs.set "namespace" (resourceDefinition.ownNamespace.getD .none)) ∨
        resourceDefinition.ownNamespace = none ∧
          ∃ e, setNamespace relationships kwargs resourceDefinition = .error e := by
    rw [run, own]
    rcases get_namespace metadata with read | ⟨absent, e, failed⟩
    · rw [read]
      exact .inl rfl
    · rw [failed]
      exact .inr ⟨absent, e, rfl⟩
  cases resourceDefinition with
  | object definition => exact assigned definition.metadata rfl rfl
  | value v =>
    cases v with
    | dict entries =>
      apply assigned ((entries.lookup "metadata").getD (.dict []))
      · rw [ResourceDefinition.ownNamespace, ResourceDefinition.metadata]
        cases entries.lookup "metadata" <;> rfl
      · cases entries <;> rfl
    | _ =>
      apply assigned (.dict []) rfl
      simp only [ResourceDefinition.isOther] at known
      simp only [setNamespace, known]
      rfl

end

/-- The namespace is resolved exactly if the definition has one itself, or if the argument is a
    value that is no definition and no namespace is related. -/
theorem namespaceResolved_iff (relationships : List Relationship) (kwargs : Dict)
    (resourceDefinition : ResourceDefinition) :
    NamespaceResolved relationships kwargs resourceDefinition ↔
      resourceDefinition.ownNamespace.isSome = true ∨
        resourceDefinition.isOther = true ∧ relatedNamespaces relationships = [] := by
  rw [NamespaceResolved, resolvedNamespace]
  cases other : resourceDefinition.isOther with
  | true =>
    obtain ⟨absent, run⟩ := setNamespace_other relationships kwargs other
    rw [absent, run, relatedNamespace, recordedNamespace]
    cases related : relatedNamespaces relationships with
    | nil => exact iff_of_true ⟨.str "default", rfl, rfl, rfl⟩ (.inr ⟨rfl, rfl⟩)
    | cons target others =>
      refine iff_of_false ?_ (by simp)
      rintro ⟨_, _, _, same⟩
      cases same
  | false =>
    rcases setNamespace_definition relationships kwargs other with run | ⟨absent, e, failed⟩
    · cases own : resourceDefinition.ownNamespace with
      | some namesp =>
        rw [run, own]
        exact iff_of_true ⟨namesp, rfl, ownNamespace_isNone own, rfl⟩ (.inl rfl)
      | none =>
        rw [run, own]
        refine iff_of_false ?_ (by simp)
        rintro ⟨namesp, _, given, same⟩
        have entry := congrArg (fun d : Dict => d.get? "namespace") (Except.ok.inj same)
        simp only [OrderedDict.get?_set_self, Option.some.injEq] at entry
        rw [← entry] at given
        cases given
    · rw [absent, failed]
      refine iff_of_false ?_ (by simp)
      rintro ⟨_, _, _, same⟩
      cases same

/-- A call without a definition gets `None`, not the default. -/
theorem missing_gives_none : ¬ NamespaceResolved [] .empty (.value .none) := by
  rintro ⟨namesp, resolved, _, same⟩
  have none : setNamespace [] .empty (.value .none) = .ok (OrderedDict.empty.set "namespace" .none) := rfl
  rw [none] at same
  have entry := congrArg (fun d : Dict => d.get? "namespace") (Except.ok.inj same)
  simp only [OrderedDict.get?_set_self, Option.some.injEq] at entry
  rw [← entry] at resolved
  cases resolved

end CloudifyKubernetes
