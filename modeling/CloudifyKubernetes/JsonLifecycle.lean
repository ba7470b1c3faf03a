import CloudifyKubernetes.HandledOperations

namespace CloudifyKubernetes

open Collections Effects Program

mutual

theorem isJson_clean : (v : Value) → isJson v.clean = true
  | .none => rfl
  | .bool _ => rfl
  | .int _ => rfl
  | .float value text => by
    rw [Value.clean]
    split <;> rfl
  | .str _ => rfl
  | .datetime _ _ => rfl
  | .list elements => by
    rw [Value.clean, isJson]
    exact elementsJson_clean elements
  | .dict entries => by
    rw [Value.clean, isJson]
    exact entriesJson_clean entries
  | .object _ _ => rfl

theorem elementsJson_clean : (elements : List Value) → elementsJson (Value.cleanElements elements) = true
  | [] => rfl
  | v :: rest => by rw [Value.cleanElements, elementsJson, isJson_clean v, elementsJson_clean rest, Bool.and_self]

theorem entriesJson_clean : (entries : List (String × Value)) → entriesJson (Value.cleanEntries entries) = true
  | [] => rfl
  | (_, v) :: rest => by rw [Value.cleanEntries, entriesJson, isJson_clean v, entriesJson_clean rest, Bool.and_self]

end

theorem entriesJson_iff {entries : List (String × Value)} :
    entriesJson entries = true ↔ ∀ e ∈ entries, isJson e.2 = true := by
  induction entries with
  | nil => simp [entriesJson]
  | cons e rest ih => rw [entriesJson, Bool.and_eq_true, ih, List.forall_mem_cons]

theorem isJson_index {value found : Value} {key : String} (json : isJson value = true)
    (indexed : value.index key = .ok found) : isJson found = true := by
  cases value with
  | dict entries =>
    simp only [Value.index] at indexed
    cases held : entries.lookup key with
    | none =>
      rw [held] at indexed
      cases indexed
    | some other =>
      rw [held] at indexed
      cases indexed
      rw [isJson, entriesJson_iff] at json
      exact json _ (mem_of_lookup held)
  | _ => cases indexed

theorem isJson_jsonCleanuper {raw found : Value} (cleaned : jsonCleanuper raw = .ok found) : isJson found = true := by
  cases raw with
  | dict entries =>
    cases cleaned
    exact isJson_clean _
  | _ => cases cleaned

structure Savable (runtime : RuntimeProperties) : Prop where
  files : ∀ e ∈ (recordedFiles runtime).items, isJson e.2 = true
  definitions : ∀ v ∈ storedDefinitions runtime, isJson v = true

/-- Nothing but JSON is stored. What is deleted does not matter here. -/
def jsonContents : Contents where
  value _ v := isJson v = true
  definition _ v := isJson v = true
  source _ _ := True
  deletion _ _ _ := True
  property v := isJson v = true
  value_mono _ json := json
  definition_mono _ json := json
  source_mono _ _ := trivial
  deletion_mono _ _ := trivial
  answered _ cleaned := isJson_jsonCleanuper cleaned
  missing _ := rfl
  entry json := entriesJson_iff.mp json
  stored _ _ := isJson_clean _
  recorded _ _ := trivial
  reread _ _ := trivial
  written _ := isJson_clean _
  again _ _ := trivial
  deleted _ _ := trivial
  text _ := rfl
  held json := json
  cleaned cleaned := isJson_jsonCleanuper cleaned
  part := isJson_index

section

variable (env : Environment)

/-- Over any run of operations the runtime properties stay JSON, whatever the API answers. -/
theorem lifecycle_savable (options : Dict) (operations : List (OperationContext × LifecycleOperation))
    {s : State} {properties : Dict} (savable : Savable s.runtime)
    (json : ∀ e ∈ properties.items, isJson e.2 = true) :
    Savable (lifecycle env options operations (s, properties)).2.1.runtime ∧
      ∀ e ∈ (lifecycle env options operations (s, properties)).2.2.items, isJson e.2 = true := by
  have all : jsonContents.HandlesAll s.known (lifecycle env options operations) fun _ _ => True :=
    lifecycle_handles env options (fun _ _ _ _ => trivial) fun _ _ _ _ _ _ _ _ => trivial
  have start : jsonContents.Holds s := by
    refine ⟨⟨savable.files, savable.definitions⟩, ?_⟩
    intro _ _ _ _ _ _ _ _ _
    trivial
  obtain ⟨holds, others⟩ := all.kept (s := (s, properties)) ⟨start, json⟩ (le_refl _)
  exact ⟨⟨holds.stores.files, holds.stores.definitions⟩, others⟩

end

open Package

def dated : Kubernetes := package fun _ request => .ok (.dict
  [("api_version", .str "v1"), ("kind", .str "ConfigMap"),
    ("metadata", .object "V1ObjectMeta" [("_name", (request.arguments.get? "name").getD .none)]),
    ("created", .datetime "2021-03-01 00:00:00" "datetime.datetime(2021, 3, 1, 0, 0)")])

def datedNode : Environment where
  kube := dated
  node := ownNode
  load _ := .error ⟨.valueError, "while scanning a text"⟩
  checkDrift _ _ := .ok .none
  instanceId := "config_1"

theorem lifecycle_savable_dated :
    Savable (lifecycle datedNode mainNamespace.options [(install, .plain (.resourceCreate (configMap "settings" none))),
        (install, .plain (.resourceDelete (configMap "settings" none)))] (mainNamespace, .empty)).2.1.runtime ∧
      ∀ e ∈ (lifecycle datedNode mainNamespace.options [(install, .plain (.resourceCreate (configMap "settings" none))),
        (install, .plain (.resourceDelete (configMap "settings" none)))] (mainNamespace, .empty)).2.2.items,
        isJson e.2 = true := by
  have nothingYet : Savable mainNamespace.runtime := by
    constructor
    · intro e member
      cases member
    · intro v member
      cases member
  apply lifecycle_savable datedNode _ _ nothingYet
  intro e member
  cases member

end CloudifyKubernetes
