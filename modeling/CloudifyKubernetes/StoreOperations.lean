import CloudifyKubernetes.Offline
import CloudifyKubernetes.StoredDefinitions

namespace CloudifyKubernetes

open Collections Effects Program

/-- A result that can be stored: a kind without dots, a version and metadata with a name. -/
structure IsResult (result : Value) (kind : String) (version : Value) (fields : List (String × Value)) : Prop where
  kinded : result.index "kind" = .ok (.str kind)
  plain : '.' ∉ kind.toList
  versioned : (do result.get "api_version" (← result.get "apiVersion" .none)) = .ok version
  given : version.isNone = false
  described : result.index "metadata" = .ok (.dict fields)
  named : ∃ name, fields.lookup "name" = some (.str name)
  spaced : fields.lookup "namespace" = none ∨ fields.lookup "namespace" = some .none ∨
    ∃ text, fields.lookup "namespace" = some (.str text)

def storedForm (kind : String) (version : Value) (fields : List (String × Value)) : Value :=
  (Value.dict [("kind", .str kind), ("apiVersion", version), ("metadata", .dict fields)]).clean

def resultIdentity (kind : String) (fields : List (String × Value)) : Identity where
  name := (fields.lookup "name").getD .none
  kind := .str kind
  namesp := (fields.lookup "namespace").getD (.str "default")

namespace IsResult

variable {result version : Value} {kind : String} {fields : List (String × Value)}

theorem identity_plain (is : IsResult result kind version fields) : (resultIdentity kind fields).Plain := by
  obtain ⟨name, named⟩ := is.named
  refine ⟨⟨name, ?_⟩, ⟨kind, rfl⟩, ?_⟩
  · rw [resultIdentity, named]
    rfl
  · rcases is.spaced with none | null | ⟨text, given⟩
    · exact .inr ⟨"default", by rw [resultIdentity, none]; rfl⟩
    · exact .inl (by rw [resultIdentity, null]; rfl)
    · exact .inr ⟨text, by rw [resultIdentity, given]; rfl⟩

theorem get_of_index {value found : Value} {key : String} (indexed : value.index key = .ok found)
    (default : Value) : value.get key default = .ok found := by
  cases value with
  | dict entries =>
    simp only [Value.index] at indexed
    cases given : entries.lookup key with
    | none =>
      rw [given] at indexed
      cases indexed
    | some other =>
      rw [given] at indexed
      cases indexed
      rw [Value.get, given]
      rfl
  | _ => cases indexed

theorem ofDict (is : IsResult result kind version fields) :
    Identity.ofDict result = .ok (resultIdentity kind fields) := by
  simp only [Identity.ofDict, get_of_index is.described, get_of_index is.kinded, bind, Except.bind]
  rfl

theorem definition (is : IsResult result kind version fields) :
    resultDefinition result = .ok (.plain kind version (.dict fields)) := by
  have short := KubernetesResourceDefinition.shortKind_of_plain is.plain
  obtain ⟨camel, first, versioned⟩ := ok_of_bind is.versioned
  have described : (Value.dict fields).isNone = false := rfl
  have made := KubernetesResourceDefinition.ofParts_str kind is.given described
  rw [short] at made
  simp only [resultDefinition, is.kinded, first, versioned, is.described, bind, Except.bind]
  exact made

theorem cleanup (kind : String) (version : Value) (fields : List (String × Value)) :
    (KubernetesResourceDefinition.plain kind version (.dict fields)).cleanup = storedForm kind version fields := by
  rw [KubernetesResourceDefinition.cleanup, toDict_plain]
  rfl

theorem ofDict_storedForm (is : IsResult result kind version fields) :
    Identity.ofDict (storedForm kind version fields) = .ok (resultIdentity kind fields) := by
  obtain ⟨name, named⟩ := is.named
  have name' : (Value.cleanEntries fields).lookup "name" = some (.str name) := by
    rw [Value.lookup_cleanEntries, named]
    rfl
  have space : ((Value.cleanEntries fields).lookup "namespace").getD (.str "default") =
      (fields.lookup "namespace").getD (.str "default") := by
    rw [Value.lookup_cleanEntries]
    rcases is.spaced with none | null | ⟨text, given⟩
    · rw [none]
      rfl
    · rw [null]
      rfl
    · rw [given]
      rfl
  have form : storedForm kind version fields = .dict [("kind", .str kind), ("apiVersion", version.clean),
      ("metadata", .dict (Value.cleanEntries fields))] := by
    simp only [storedForm, Value.clean, Value.cleanEntries]
  rw [form, resultIdentity, named, ← space]
  change Except.ok (Identity.mk (((Value.cleanEntries fields).lookup "name").getD .none) _ _) = _
  rw [name']
  rfl

end IsResult

theorem updateStored_eq {d : KubernetesResourceDefinition} {i : Identity} (own : Identity.ofDefinition d = .ok i)
    {definitions : List Value} (plain : ∀ v ∈ definitions, v.IsPlain) :
    updateStored d definitions = .ok (upsert (meets · d) d.cleanup definitions) := by
  apply updateStored_upsert
  intro stored member
  obtain ⟨j, found, _⟩ := plain stored member
  simp only [meets, matchDefinition, found, own, bind, Except.bind]
  rfl

theorem storeResultForRetrieveId_updated {result : Value} {d : KubernetesResourceDefinition} {updated : List Value}
    (made : resultDefinition result = .ok d) (path : String) {s : State}
    (ran : updateStored d (storedDefinitions s.runtime) = .ok updated) :
    ∃ s', storeResultForRetrieveId result path s = (.ok (), s') ∧ storedDefinitions s'.runtime = updated := by
  refine ⟨{ s with runtime := recordResult result path { s.runtime with resourceDefinitions := some updated } },
    ?_, ?_⟩
  · have ran : updateStored d (s.runtime.resourceDefinitions.getD []) = .ok updated := ran
    simp only [storeResultForRetrieveId, storeResourceDefinition, bind_run, made, ofExcept_run, getRuntime_run,
      ran, modifyRuntime_run]
  · rw [storedDefinitions, recordResult_resourceDefinitions]
    rfl

/-- The definition of a result takes the place of the entry for its resource if there is one. -/
theorem IsResult.upserts {result version : Value} {kind : String} {fields : List (String × Value)}
    (is : IsResult result kind version fields) {definitions : List Value} (distinct : Distinct definitions) :
    ∃ updated, updateStored (.plain kind version (.dict fields)) definitions = .ok updated ∧ Distinct updated ∧
      storedForm kind version fields ∈ updated ∧
      ∀ i, i ∈ updated.map Identity.ofDict ↔
        i = .ok (resultIdentity kind fields) ∨ i ∈ definitions.map Identity.ofDict := by
  have own : Identity.ofDefinition (.plain kind version (.dict fields)) = .ok (resultIdentity kind fields) := rfl
  have stored := updateStored_eq own distinct.plain
  rw [IsResult.cleanup] at stored
  have keyed : ∀ v ∈ definitions, meets v (.plain kind version (.dict fields)) = true ↔
      Identity.ofDict v = Identity.ofDict (storedForm kind version fields) := by
    intro v _
    rw [is.ofDict_storedForm]
    exact meets_iff_of_plain own is.identity_plain
  refine ⟨_, stored, ⟨fun v member => ?_, nodup_upsert keyed distinct.once⟩, self_mem_upsert _ _ _, fun i => ?_⟩
  · rcases mem_upsert member with rfl | before
    · exact ⟨_, is.ofDict_storedForm, is.identity_plain⟩
    · exact distinct.plain v before
  · rw [mem_keys_upsert keyed, is.ofDict_storedForm]

/-- A result is stored, in the place of the entry for its resource if there is one. -/
theorem storeResultForRetrieveId_upsert {result version : Value} {kind : String} {fields : List (String × Value)}
    (is : IsResult result kind version fields) (path : String) {s : State}
    (distinct : Distinct (storedDefinitions s.runtime)) :
    ∃ s', storeResultForRetrieveId result path s = (.ok (), s') ∧
      Distinct (storedDefinitions s'.runtime) ∧
      (storedDefinitions s'.runtime).filter (agrees · result) = [storedForm kind version fields] := by
  obtain ⟨updated, ran, distinct', stored, _⟩ := is.upserts distinct
  obtain ⟨s', run, same⟩ := storeResultForRetrieveId_updated is.definition path ran
  refine ⟨s', run, same ▸ distinct', ?_⟩
  rw [same]
  refine filter_key (fun v _ => ?_) distinct'.once stored
  rw [is.ofDict_storedForm]
  exact agrees_iff_of_plain is.ofDict is.identity_plain

def Shrinks (s s' : State) : Prop :=
  (storedDefinitions s'.runtime).Sublist (storedDefinitions s.runtime)

instance : Std.Refl Shrinks := ⟨fun _ => .refl _⟩

instance : IsTrans State Shrinks := ⟨fun _ _ _ first second => second.trans first⟩

theorem popStored_sublist (runtime : RuntimeProperties) :
    (storedDefinitions (popStored runtime)).Sublist (storedDefinitions runtime) := by
  rw [storedDefinitions_popStored]
  exact List.dropLast_sublist _

theorem takeAdjacent_shrinks (delete : Bool) (path : String) (resource : Value) (files : Dict) :
    Within Shrinks (takeAdjacent delete path resource files) := by
  unfold takeAdjacent
  split
  · have written (f : RuntimeProperties → Option Dict) : Within Shrinks (modifyRuntime fun runtime =>
        { runtime with kubernetes := f runtime, resourceDefinitions := some (runtime.resourceDefinitions.getD []) }) :=
      fun s => List.Sublist.refl _
    exact (Within.ofExcept _).bind fun _ => (Within.ofExcept _).bind fun _ =>
      (written fun _ => _).bind fun _ => .pure _
  · exact .pure _

theorem retrieveLastCreatePath_shrinks (path : String) (delete : Bool) :
    Within Shrinks (retrieveLastCreatePath path delete) := by
  cases delete with
  | true =>
    intro s
    have popped : Shrinks s { s with runtime := poppedFor path s.runtime } := by
      unfold poppedFor
      split
      · exact .refl _
      · exact popStored_sublist _
    rw [retrieveLastCreatePath_run]
    split
    · exact popped
    · exact IsTrans.trans _ _ _ popped (takeAdjacent_shrinks _ _ _ _ _)
  | false =>
    refine getRuntime_within.bind fun runtime => ?_
    dsimp only
    split
    · exact .pure _
    · split
      · exact .raise _
      · exact (Within.ofExcept _).bind fun _ => takeAdjacent_shrinks _ _ _ _

structure Lessens (s s' : State) : Prop where
  definitions : (storedDefinitions s'.runtime).Sublist (storedDefinitions s.runtime)
  files : ∀ path v, (recordedFiles s'.runtime).get? path = some v → (recordedFiles s.runtime).get? path = some v

instance : Std.Refl Lessens := ⟨fun _ => ⟨.refl _, fun _ _ found => found⟩⟩

instance : IsTrans State Lessens := ⟨fun _ _ _ first second =>
  ⟨second.definitions.trans first.definitions, fun path v found => first.files path v (second.files path v found)⟩⟩

structure Forgets (s s' : State) : Prop where
  definitions : (storedDefinitions s'.runtime).Sublist (storedDefinitions s.runtime)
  files : recordedFiles s'.runtime = recordedFiles s.runtime

instance : Std.Refl Forgets := ⟨fun _ => ⟨.refl _, rfl⟩⟩

instance : IsTrans State Forgets := ⟨fun _ _ _ first second =>
  ⟨second.definitions.trans first.definitions, second.files.trans first.files⟩⟩

theorem Forgets.lessens {s s' : State} (forgets : Forgets s s') : Lessens s s' :=
  ⟨forgets.definitions, fun _ _ found => forgets.files ▸ found⟩

theorem Forgets.shrinks {s s' : State} (forgets : Forgets s s') : Shrinks s s' := forgets.definitions

theorem removeResourceDefinition_forgets (kind : String) (name : Value) :
    Within Forgets (removeResourceDefinition kind name) := by
  intro s
  rw [removeResourceDefinition_run]
  exact ⟨removeNamed_sublist kind name _, rfl⟩

theorem chooseMapping_forgets (definition : KubernetesResourceDefinition) : Within Forgets (chooseMapping definition) := by
  intro s
  rw [chooseMapping_run]
  exact ⟨.refl _, rfl⟩

theorem retrieveStoredResource_forgets (node : Node) (definition : KubernetesResourceDefinition)
    (mapping : KubernetesApiMapping) (delete : Bool) :
    Within Forgets (retrieveStoredResource node definition mapping delete) := by
  have chosen (stored : Value) : Within Forgets (chosenDefinition node definition mapping stored) := by
    unfold chosenDefinition
    split
    · exact (Within.ofExcept _).bind fun _ => (chooseMapping_forgets _).bind fun _ => .pure _
    · exact .pure _
  refine getRuntime_within.bind fun _ => Within.bind (fun s =>
    ⟨popStored_sublist s.runtime, rfl⟩) fun _ => (chosen _).bind fun pair => ?_
  split
  · exact (Within.ofExcept _).bind fun _ => (removeResourceDefinition_forgets _ _).bind fun _ => .pure _
  · exact .pure _

theorem takeStored_forgets (chosen : KubernetesResourceDefinition × KubernetesApiMapping) :
    Within Forgets (takeStored chosen) :=
  (Within.ofExcept _).bind fun _ => (removeResourceDefinition_forgets _ _).bind fun _ => .pure _

theorem retrieveStoredResource_pops (node : Node) (definition : KubernetesResourceDefinition)
    (mapping : KubernetesApiMapping) (s : State) :
    (storedDefinitions (retrieveStoredResource node definition mapping true s).2.runtime).Sublist
      (storedDefinitions s.runtime).dropLast := by
  rw [← storedDefinitions_popStored, retrieveStoredResource_run]
  split
  · have forgets : Within Forgets (do
        let previous ← Program.ofExcept (KubernetesResourceDefinition.ofStored (lastStored definition s.runtime))
        let mapping ← chooseMapping previous
        takeStored (previous, mapping) : Task (KubernetesResourceDefinition × KubernetesApiMapping)) :=
      (Within.ofExcept _).bind fun _ => (chooseMapping_forgets _).bind fun _ => takeStored_forgets _
    exact (forgets { s with runtime := popStored s.runtime }).definitions
  · exact (takeStored_forgets _ { s with runtime := popStored s.runtime }).definitions

inductive StoreOperation
  | storeResult (result : Value) (path : String)
  | lastCreatePath (path : String) (delete : Bool)
  | storedResource (definition : KubernetesResourceDefinition) (mapping : KubernetesApiMapping) (delete : Bool)
  | removeDefinition (kind : String) (name : Value)

def StoreOperation.run (node : Node) : StoreOperation → Task Unit
  | .storeResult result path => storeResultForRetrieveId result path
  | .lastCreatePath path delete => do let _ ← retrieveLastCreatePath path delete
  | .storedResource definition mapping delete => do
    let _ ← retrieveStoredResource node definition mapping delete
  | .removeDefinition kind name => removeResourceDefinition kind name

def storeOperations (node : Node) (operations : List StoreOperation) : Task (List (Except Exception Unit)) :=
  Program.forEach operations fun operation => (operation.run node).attempt

def StoreOperation.Storable : StoreOperation → Prop
  | .storeResult result _ => ∃ kind version fields, IsResult result kind version fields
  | _ => True

theorem StoreOperation.run_distinct {node : Node} {operation : StoreOperation} (storable : operation.Storable)
    {s : State} (distinct : Distinct (storedDefinitions s.runtime)) :
    Distinct (storedDefinitions (operation.run node s).2.runtime) := by
  have shrinks {p : Task Unit} (inside : Within Shrinks p) :
      Distinct (storedDefinitions (p s).2.runtime) := distinct.sublist (inside s)
  cases operation with
  | storeResult result path =>
    obtain ⟨kind, version, fields, is⟩ := storable
    obtain ⟨s', run, distinct', _⟩ := storeResultForRetrieveId_upsert is path distinct
    rwa [StoreOperation.run, run]
  | lastCreatePath path delete =>
    exact shrinks ((retrieveLastCreatePath_shrinks path delete).bind fun _ => .pure _)
  | storedResource definition mapping delete =>
    have forgets := retrieveStoredResource_forgets node definition mapping delete
    exact shrinks ((forgets.mono fun _ _ forgets => forgets.shrinks).bind fun _ => .pure _)
  | removeDefinition kind name =>
    exact shrinks ((removeResourceDefinition_forgets kind name).mono fun _ _ forgets => forgets.shrinks)

theorem storeOperations_distinct {node : Node} {operations : List StoreOperation}
    (storable : ∀ operation ∈ operations, operation.Storable) :
    Within (Keeps fun s : State => Distinct (storedDefinitions s.runtime)) (storeOperations node operations) :=
  Within.forEach fun operation member =>
    Within.attempt fun _ => StoreOperation.run_distinct (storable operation member)

/-- From empty runtime properties on no two stored definitions match each other, and what is
    stored last is stored once. -/
theorem stored_once (node : Node) (options : Dict) (operations : List StoreOperation)
    (storable : ∀ operation ∈ operations, operation.Storable) :
    let s := (storeOperations node operations ⟨{}, options, []⟩).2
    Unmatched (storedDefinitions s.runtime) ∧
      ∀ result kind version fields path, IsResult result kind version fields →
        ∃ s', storeResultForRetrieveId result path s = (.ok (), s') ∧
          (storedDefinitions s'.runtime).filter (agrees · result) = [storedForm kind version fields] := by
  intro s
  have distinct : Distinct (storedDefinitions s.runtime) :=
    storeOperations_distinct storable ⟨{}, options, []⟩ Distinct.nil
  refine ⟨(distinct_iff distinct.plain).mp distinct, fun result kind version fields path is => ?_⟩
  obtain ⟨s', run, _, once⟩ := storeResultForRetrieveId_upsert is path distinct
  exact ⟨s', run, once⟩

open Package

theorem response_isResult (kind name : String) (plain : '.' ∉ kind.toList) :
    IsResult (response kind name) kind (.str "v1") [("name", .str name)] where
  kinded := rfl
  plain := plain
  versioned := rfl
  given := rfl
  described := rfl
  named := ⟨name, rfl⟩
  spaced := .inl rfl

theorem stored_once_settings :
    let operations : List StoreOperation := [.storeResult (response "ConfigMap" "settings") "maps.yaml",
      .lastCreatePath "other.yaml" true, .storeResult (response "ConfigMap" "settings") ""]
    let s := (storeOperations ownNode operations ⟨{}, .empty, []⟩).2
    Unmatched (storedDefinitions s.runtime) ∧
      ∀ result kind version fields path, IsResult result kind version fields →
        ∃ s', storeResultForRetrieveId result path s = (.ok (), s') ∧
          (storedDefinitions s'.runtime).filter (agrees · result) = [storedForm kind version fields] := by
  have settings := response_isResult "ConfigMap" "settings" (by decide +kernel)
  refine stored_once ownNode .empty _ ?_
  simp only [List.forall_mem_cons, StoreOperation.Storable, true_and]
  exact ⟨⟨_, _, _, settings⟩, ⟨_, _, _, settings⟩, by simp⟩

end CloudifyKubernetes
