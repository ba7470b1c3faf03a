import CloudifyKubernetes.ApiRuns
import CloudifyKubernetes.Collections.Upsert

namespace CloudifyKubernetes

open Collections Effects Program

structure ObjectName where
  kind : String
  name : String
  namesp : String
  deriving DecidableEq, Repr

def ObjectName.identity (n : ObjectName) : Identity := ⟨.str n.name, .str n.kind, .str n.namesp⟩

def Value.Names (v : Value) (n : ObjectName) : Prop := Identity.ofDict v = .ok n.identity

def KubernetesResourceDefinition.Names (d : KubernetesResourceDefinition) (n : ObjectName) : Prop :=
  Identity.ofDefinition d = .ok n.identity

theorem ObjectName.identity_same (n m : ObjectName) : n.identity.same m.identity = decide (n = m) := by
  obtain ⟨kind, name, namesp⟩ := n
  obtain ⟨kind', name', namesp'⟩ := m
  simp only [identity, Identity.same, Value.eq, mk.injEq]
  by_cases kinds : kind = kind' <;> by_cases names : name = name' <;> by_cases spaces : namesp = namesp' <;>
    simp [kinds, names, spaces]

def ObjectName.isOf (n : ObjectName) : Except Exception Identity → Bool
  | .ok identity => identity.same n.identity
  | .error _ => false

theorem ObjectName.isOf_iff (n : ObjectName) (result : Except Exception Identity) :
    n.isOf result = true ↔ result = .ok n.identity := by
  cases result with
  | error e => simp [isOf]
  | ok identity =>
    obtain ⟨name, kind, namesp⟩ := identity
    simp only [isOf, Identity.same, ObjectName.identity, Bool.and_eq_true, Value.eq_str_iff, Except.ok.injEq,
      Identity.mk.injEq, and_assoc]

instance (v : Value) (n : ObjectName) : Decidable (v.Names n) := decidable_of_iff _ (n.isOf_iff _)

instance (d : KubernetesResourceDefinition) (n : ObjectName) : Decidable (d.Names n) :=
  decidable_of_iff _ (n.isOf_iff _)

theorem Value.Names.unique {v : Value} {n m : ObjectName} (names : v.Names n) (names' : v.Names m) :
    n = m := by
  have same := names.symm.trans names'
  obtain ⟨kind, name, namesp⟩ := n
  obtain ⟨kind', name', namesp'⟩ := m
  simp [ObjectName.identity] at same
  simp [same]

theorem KubernetesResourceDefinition.Names.name {d : KubernetesResourceDefinition} {n : ObjectName}
    (names : d.Names n) : d.metadata.get "name" .none = .ok (.str n.name) := by
  simp only [Names, Identity.ofDefinition, bind, Except.bind] at names
  cases found : d.metadata.get "name" .none with
  | error e => simp [found] at names
  | ok name =>
    cases space : d.metadata.get "namespace" (.str "default") with
    | error e => simp [found, space] at names
    | ok namesp =>
      simp only [found, space, pure, Except.pure, Except.ok.injEq, ObjectName.identity,
        Identity.mk.injEq] at names
      rw [names.1]

theorem matchDefinition_names {left : Value} {right : KubernetesResourceDefinition} {n m : ObjectName}
    (names : left.Names n) (names' : right.Names m) : matchDefinition left right = .ok (decide (n = m)) := by
  rw [matchDefinition, names, names', ← ObjectName.identity_same]
  rfl

def KubernetesResourceDefinition.plain (kind : String) (apiVersion metadata : Value) :
    KubernetesResourceDefinition := ⟨kind, apiVersion, metadata, .empty⟩

theorem toDict_plain (kind : String) (apiVersion metadata : Value) :
    (KubernetesResourceDefinition.plain kind apiVersion metadata).toDict =
      .dict [("kind", .str kind), ("apiVersion", apiVersion), ("metadata", metadata)] := by
  have kindKey : KubernetesResourceDefinition.underscoreToCamelcase .ascii "kind" = "kind" := by decide +kernel
  have versionKey : KubernetesResourceDefinition.underscoreToCamelcase .ascii "api_version" = "apiVersion" := by
    decide +kernel
  have metadataKey : KubernetesResourceDefinition.underscoreToCamelcase .ascii "metadata" = "metadata" := by
    decide +kernel
  simp only [KubernetesResourceDefinition.toDict, KubernetesResourceDefinition.toDictBy,
    KubernetesResourceDefinition.vars, KubernetesResourceDefinition.plain, OrderedDict.empty, List.append_nil,
    List.map_cons, List.map_nil, kindKey, versionKey, metadataKey]
  rfl

def MetadataNames (n : ObjectName) (metadata : Value) : Prop :=
  ∃ entries, metadata = .dict entries ∧ entries.lookup "name" = some (.str n.name) ∧
    (entries.lookup "namespace").getD (.str "default") = .str n.namesp

theorem MetadataNames.clean {n : ObjectName} {metadata : Value} (named : MetadataNames n metadata) :
    MetadataNames n metadata.clean := by
  obtain ⟨entries, rfl, name, namesp⟩ := named
  refine ⟨Value.cleanEntries entries, by rw [Value.clean], ?_, ?_⟩
  · rw [Value.lookup_cleanEntries, name]
    simp [Value.clean]
  · rw [Value.lookup_cleanEntries]
    cases given : entries.lookup "namespace" with
    | none =>
      rw [given] at namesp
      simpa using namesp
    | some value =>
      rw [given] at namesp
      simp only [Option.getD_some] at namesp
      simp [namesp, Value.clean]

theorem MetadataNames.index {n : ObjectName} {metadata : Value} (named : MetadataNames n metadata) :
    metadata.index "name" = .ok (.str n.name) := by
  obtain ⟨entries, rfl, name, _⟩ := named
  rw [Value.index, name]

theorem names_dict_iff {n : ObjectName} {entries : List (String × Value)} {metadata : Value}
    (found : entries.lookup "metadata" = some metadata) :
    (Value.dict entries).Names n ↔
      entries.lookup "kind" = some (.str n.kind) ∧ MetadataNames n metadata := by
  simp only [Value.Names, Identity.ofDict, Value.get, found, Option.getD_some, bind, Except.bind, pure,
    Except.pure, ObjectName.identity, MetadataNames]
  cases metadata with
  | dict fields =>
    cases kind : entries.lookup "kind" <;> cases name : fields.lookup "name" <;>
      simp [name, and_comm, and_left_comm]
  | _ => simp

theorem plain_names_iff {n : ObjectName} {kind : String} {apiVersion metadata : Value} :
    (KubernetesResourceDefinition.plain kind apiVersion metadata).Names n ↔
      kind = n.kind ∧ MetadataNames n metadata := by
  simp only [KubernetesResourceDefinition.Names, Identity.ofDefinition, Value.get,
    KubernetesResourceDefinition.plain, bind, Except.bind, pure, Except.pure, ObjectName.identity,
    MetadataNames]
  cases metadata with
  | dict fields =>
    cases name : fields.lookup "name" <;> simp [name, and_comm, and_left_comm]
  | _ => simp

structure IsRecord (n : ObjectName) (v : Value) : Prop where
  names : v.Names n
  short : KubernetesResourceDefinition.shortKind n.kind = n.kind
  complete : (resultDefinition v).isOk = true

instance (n : ObjectName) (v : Value) : Decidable (IsRecord n v) :=
  decidable_of_iff (v.Names n ∧ KubernetesResourceDefinition.shortKind n.kind = n.kind ∧
      (resultDefinition v).isOk = true)
    ⟨fun parts => ⟨parts.1, parts.2.1, parts.2.2⟩, fun record => ⟨record.names, record.short, record.complete⟩⟩

theorem IsRecord.parts {n : ObjectName} {v : Value} (record : IsRecord n v) :
    ∃ entries apiVersion metadata, v = .dict entries ∧ entries.lookup "kind" = some (.str n.kind) ∧
      entries.lookup "metadata" = some metadata ∧
      (entries.lookup "api_version").getD ((entries.lookup "apiVersion").getD .none) = apiVersion ∧
      apiVersion.isNone = false ∧ MetadataNames n metadata := by
  obtain ⟨names, short, complete⟩ := record
  cases v with
  | dict entries =>
    simp only [resultDefinition, Value.index, Value.get, bind, Except.bind] at complete
    cases kind : entries.lookup "kind" with
    | none => simp [kind, Except.isOk, Except.toBool] at complete
    | some value =>
      cases found : entries.lookup "metadata" with
      | none => simp [kind, found, Except.isOk, Except.toBool] at complete
      | some metadata =>
        obtain ⟨kind', named⟩ := (names_dict_iff found).mp names
        rw [kind] at kind'
        cases kind'
        refine ⟨entries, _, metadata, rfl, kind, found, rfl, ?_, named⟩
        simp only [kind, found] at complete
        cases missing : ((entries.lookup "api_version").getD
            ((entries.lookup "apiVersion").getD .none)).isNone with
        | false => rfl
        | true =>
          exfalso
          obtain ⟨e, failed⟩ := KubernetesResourceDefinition.ofParts_unversioned n.kind missing metadata
          rw [failed] at complete
          cases complete
  | _ => simp [resultDefinition, Value.index, Except.isOk, Except.toBool, bind, Except.bind] at complete

theorem IsRecord.definition {n : ObjectName} {v : Value} (record : IsRecord n v) :
    ∃ apiVersion metadata, apiVersion.isNone = false ∧ MetadataNames n metadata ∧
      resultDefinition v = .ok (.plain n.kind apiVersion metadata) := by
  obtain ⟨entries, apiVersion, metadata, rfl, kind, found, version, versioned, named⟩ := record.parts
  refine ⟨apiVersion, metadata, versioned, named, ?_⟩
  have described : metadata.isNone = false := by
    obtain ⟨fields, rfl, _⟩ := named
    rfl
  have made := KubernetesResourceDefinition.ofParts_str n.kind versioned described
  rw [record.short] at made
  simp only [resultDefinition, Value.index, Value.get, kind, found, bind, Except.bind, version]
  exact made

theorem isRecord_cleanup {n : ObjectName} {apiVersion metadata : Value}
    (short : KubernetesResourceDefinition.shortKind n.kind = n.kind)
    (versioned : apiVersion.isNone = false) (named : MetadataNames n metadata) :
    IsRecord n (KubernetesResourceDefinition.plain n.kind apiVersion metadata).cleanup := by
  have clean : (KubernetesResourceDefinition.plain n.kind apiVersion metadata).cleanup =
      .dict [("kind", .str n.kind), ("apiVersion", apiVersion.clean), ("metadata", metadata.clean)] := by
    rw [KubernetesResourceDefinition.cleanup, toDict_plain]
    simp only [Value.clean, Value.cleanEntries]
  have found : [("kind", Value.str n.kind), ("apiVersion", apiVersion.clean),
      ("metadata", metadata.clean)].lookup "metadata" = some metadata.clean := rfl
  rw [clean]
  refine ⟨(names_dict_iff found).mpr ⟨rfl, named.clean⟩, short, ?_⟩
  have described : metadata.clean.isNone = false := by
    obtain ⟨fields, same, _⟩ := named.clean
    rw [same]
    rfl
  have versioned' : apiVersion.clean.isNone = false := by rw [Value.isNone_clean, versioned]
  have made := KubernetesResourceDefinition.ofParts_str n.kind versioned' described
  change (KubernetesResourceDefinition.ofParts (.str n.kind) apiVersion.clean metadata.clean).isOk = true
  rw [made]
  rfl

def AllNamed (definitions : List Value) : Prop := ∀ v ∈ definitions, ∃ n, v.Names n

theorem updateStored_upsert {definition : KubernetesResourceDefinition} {same : Value → Bool} {definitions : List Value}
    (compared : ∀ v ∈ definitions, matchDefinition v definition = .ok (same v)) :
    updateStored definition definitions = .ok (upsert same definition.cleanup definitions) := by
  induction definitions with
  | nil => rfl
  | cons stored rest ih =>
    obtain ⟨first, others⟩ := List.forall_mem_cons.mp compared
    simp only [updateStored, first, ih others, bind, Except.bind, upsert]
    split <;> rfl

theorem updateStored_named {definitions : List Value} {definition : KubernetesResourceDefinition}
    {n : ObjectName} (all : AllNamed definitions) (names : definition.Names n)
    (kept : definition.cleanup.Names n) :
    ∃ updated, updateStored definition definitions = .ok updated ∧ AllNamed updated ∧
      ∀ m, (∃ v ∈ updated, v.Names m) ↔ m = n ∨ ∃ v ∈ definitions, v.Names m := by
  have named {v : Value} {k : ObjectName} (given : v.Names k) (m : ObjectName) : v.Names m ↔ m = k :=
    ⟨fun other => other.unique given, fun same => same ▸ given⟩
  have compared : ∀ v ∈ definitions,
      matchDefinition v definition = .ok ((matchDefinition v definition).toOption == some true) := by
    intro v member
    obtain ⟨m, given⟩ := all v member
    rw [matchDefinition_names given names]
    by_cases matching : m = n
    · simp [matching, Except.toOption]
    · simp [matching, Except.toOption]
  refine ⟨_, updateStored_upsert compared, fun v member => ?_, exists_upsert_iff (named kept) fun v member matches_ => ?_⟩
  · rcases mem_upsert member with rfl | stored
    · exact ⟨n, kept⟩
    · exact all v stored
  · obtain ⟨m, given⟩ := all v member
    rw [matchDefinition_names given names] at matches_
    obtain rfl : m = n := by simpa [Except.toOption] using matches_
    exact named given

def State.Stored (s : State) (n : ObjectName) : Prop :=
  ∃ v ∈ s.runtime.resourceDefinitions.getD [], v.Names n

def State.Storable (s : State) : Prop := AllNamed (s.runtime.resourceDefinitions.getD [])

theorem storeResultForRetrieveId_run {n : ObjectName} {v : Value} (record : IsRecord n v) (path : String)
    {s : State} (storable : s.Storable) :
    ∃ definitions, storeResultForRetrieveId v path s = (.ok (), { s with
        runtime := recordResult v path { s.runtime with resourceDefinitions := some definitions } }) ∧
      AllNamed definitions ∧ ∀ m, (∃ v ∈ definitions, v.Names m) ↔ m = n ∨ s.Stored m := by
  obtain ⟨apiVersion, metadata, versioned, named, made⟩ := record.definition
  have kept := (isRecord_cleanup record.short versioned named).names
  obtain ⟨definitions, ran, all, names⟩ :=
    updateStored_named storable (plain_names_iff.mpr ⟨rfl, named⟩) kept
  refine ⟨definitions, ?_, all, names⟩
  simp only [storeResultForRetrieveId, storeResourceDefinition, bind_run, made, ofExcept_run,
    getRuntime_run, ran, modifyRuntime_run]

theorem recordResult_resourceDefinitions (v : Value) (path : String) (runtime : RuntimeProperties) :
    (recordResult v path runtime).resourceDefinitions = runtime.resourceDefinitions := by
  unfold recordResult
  split
  · rfl
  · split <;> rfl

end CloudifyKubernetes
