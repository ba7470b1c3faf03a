import CloudifyKubernetes.Merging
import CloudifyKubernetes.RoundTrip
import CloudifyKubernetes.Utils

namespace CloudifyKubernetes

open Collections Value

def metadataName (value : Value) : Except Exception Value := do
  let metadata ← value.get "metadata" (.dict [])
  metadata.get "name" .none

mutual

def isJson : Value → Bool
  | .datetime _ _ => false
  | .object _ _ => false
  | .list elements => elementsJson elements
  | .dict entries => entriesJson entries
  | _ => true

def elementsJson : List Value → Bool
  | [] => true
  | value :: rest => isJson value && elementsJson rest

def entriesJson : List (String × Value) → Bool
  | [] => true
  | (_, value) :: rest => isJson value && entriesJson rest

end

def updateEntries : List (String × Value) → List (String × Value) → List (String × Value) :=
  overlay fun _ value => value

def updateDict : Value → Value → Value
  | .dict entries, .dict changes => .dict (updateEntries entries changes)
  | value, _ => value

/-- `update_with_additions`. For another resource the definition stays, and the suggestion of
    the warning is written as JSON. -/
def updateWithAdditions (definition : KubernetesResourceDefinition) (additions : Value) :
    Except Exception Value := do
  let name ← metadataName definition.toDict
  let kind ← definition.toDict.get "kind" .none
  let name' ← metadataName additions
  let kind' ← additions.get "kind" .none
  if name.eq name' && kind.eq kind' then return updateDict definition.toDict additions
  else
    let suggestion := Value.dict [("metadata", .dict [("name", name)]), ("kind", kind)]
    if isJson (updateDict suggestion additions) then return definition.toDict
    else .error ⟨.typeError, "Object is not JSON serializable"⟩

namespace Value

def sameHeld : Option Value → Option Value → Prop
  | some value, some value' => value.eq value' = true
  | Option.none, Option.none => True
  | _, _ => False

theorem sameHeld_refl (held : Option Value) : sameHeld held held := by
  cases held with
  | none => trivial
  | some value => exact eq_refl value

theorem entriesIn_iff {part entries : List (String × Value)} (distinct : (entries.map Prod.fst).Nodup) :
    entriesIn part entries = true ↔
      ∀ e ∈ part, ∃ value, entries.lookup e.1 = some value ∧ e.2.eq value = true := by
  induction part with
  | nil => simp [entriesIn]
  | cons e rest ih =>
    obtain ⟨key, value⟩ := e
    have here : (entries.any fun e => e.1 == key && eq value e.2) = true ↔
        ∃ value', entries.lookup key = some value' ∧ value.eq value' = true := by
      rw [List.any_eq_true]
      constructor
      · rintro ⟨⟨key', value'⟩, member, same⟩
        rw [Bool.and_eq_true, beq_iff_eq] at same
        obtain ⟨rfl, same⟩ := same
        exact ⟨value', lookup_of_mem distinct member, same⟩
      · rintro ⟨value', held, same⟩
        exact ⟨(key, value'), mem_of_lookup held, by rw [same, beq_self_eq_true, Bool.and_self]⟩
    rw [entriesIn, Bool.and_eq_true, here, ih, List.forall_mem_cons]

theorem eq_dict_iff {left right : List (String × Value)} (distinct : (left.map Prod.fst).Nodup)
    (distinct' : (right.map Prod.fst).Nodup) :
    (dict left).eq (dict right) = true ↔ ∀ key, sameHeld (left.lookup key) (right.lookup key) := by
  rw [eq, Bool.and_eq_true, beq_iff_eq, entriesIn_iff distinct']
  constructor
  · rintro ⟨length, held⟩ key
    have inside : left.map Prod.fst ⊆ right.map Prod.fst := by
      intro key member
      obtain ⟨e, here, rfl⟩ := List.mem_map.mp member
      obtain ⟨value, there, _⟩ := held e here
      exact lookup_isSome_iff.mp (by rw [there]; rfl)
    have permuted := (distinct.subperm inside).perm_of_length_le (by simp [length])
    cases here : left.lookup key with
    | some value =>
      obtain ⟨value', there, same⟩ := held _ (mem_of_lookup here)
      rw [there]
      exact same
    | none =>
      have absent : right.lookup key = Option.none := by
        rw [← Option.not_isSome_iff_eq_none, lookup_isSome_iff, ← permuted.mem_iff, ← lookup_isSome_iff, here]
        decide
      rw [absent]
      trivial
  · intro held
    have inside : ∀ e ∈ left, ∃ value, right.lookup e.1 = some value ∧ e.2.eq value = true := by
      rintro ⟨key, value⟩ member
      have same := held key
      rw [lookup_of_mem distinct member] at same
      cases there : right.lookup key with
      | none =>
        rw [there] at same
        exact same.elim
      | some value' =>
        rw [there] at same
        exact ⟨value', rfl, same⟩
    refine ⟨?_, inside⟩
    have keys : ∀ key, key ∈ left.map Prod.fst ↔ key ∈ right.map Prod.fst := by
      intro key
      have same := held key
      rw [← lookup_isSome_iff, ← lookup_isSome_iff]
      cases here : left.lookup key <;> cases there : right.lookup key <;> simp_all [sameHeld]
    have permuted := (List.perm_ext_iff_of_nodup distinct distinct').mpr keys
    simpa using permuted.length_eq

mutual

def coveredBy : Value → Value → Bool
  | dict old, dict new => entriesCovered old new
  | _, _ => true

def entriesCovered : List (String × Value) → List (String × Value) → Bool
  | [], _ => true
  | (key, value) :: rest, new =>
    (match new.lookup key with
      | some value' => coveredBy value value'
      | Option.none => false) && entriesCovered rest new

end

theorem entriesCovered_iff {old new : List (String × Value)} :
    entriesCovered old new = true ↔
      ∀ e ∈ old, ∃ value, new.lookup e.1 = some value ∧ coveredBy e.2 value = true := by
  induction old with
  | nil => simp [entriesCovered]
  | cons e rest ih =>
    obtain ⟨key, value⟩ := e
    rw [entriesCovered, Bool.and_eq_true, ih, List.forall_mem_cons]
    cases new.lookup key <;> simp

/-- A merge leaves the new value as it is exactly if that covers the old one. -/
theorem eq_mergeValue_iff {old new : Value} (keyed : old.Keyed) (keyed' : new.Keyed) :
    new.eq (mergeValue (some old) new) = true ↔ coveredBy old new = true := by
  induction keyed generalizing new with
  | @leaf old leaf =>
    rw [mergeValue_over_leaf leaf]
    have covered : coveredBy old new = true := by cases old <;> first | rfl | cases leaf
    exact iff_of_true (eq_refl new) covered
  | @dict old distinct nested ih =>
    rcases isDict_or new with leafy | ⟨new, rfl⟩
    · rw [mergeValue_leaf leafy]
      have covered : coveredBy (.dict old) new = true := by cases new <;> first | rfl | cases leafy
      exact iff_of_true (eq_refl new) covered
    · have once := keyed'.entries.1
      rw [mergeValue, mergeEntries_eq, coveredBy, eq_dict_iff once (nodup_overlay new distinct), entriesCovered_iff]
      constructor
      · rintro same ⟨key, value⟩ member
        have here := same key
        rw [lookup_overlay once, lookup_of_mem distinct member] at here
        cases held : new.lookup key with
        | none =>
          rw [held] at here
          exact here.elim
        | some value' =>
          rw [held] at here
          exact ⟨value', rfl, (ih _ member (keyed'.lookup held)).mp here⟩
      · intro covered key
        rw [lookup_overlay once]
        cases held : new.lookup key with
        | none =>
          cases before : old.lookup key with
          | none => trivial
          | some value =>
            obtain ⟨value', there, _⟩ := covered _ (mem_of_lookup before)
            cases held.symm.trans there
        | some value' =>
          cases before : old.lookup key with
          | none =>
            rw [Option.elim_some, mergeValue_none]
            exact eq_refl value'
          | some value =>
            obtain ⟨value'', there, same⟩ := covered _ (mem_of_lookup before)
            cases held.symm.trans there
            exact (ih _ (mem_of_lookup before) (keyed'.lookup held)).mpr same

end Value

open KubernetesResourceDefinition

section

variable {entries additions again : List (String × Value)} {kind : String} {version metadata name : Value}
  {definition : KubernetesResourceDefinition}

theorem get_of_metadataName (named : metadataName (.dict entries) = .ok name) :
    ∃ fields, (entries.lookup "metadata").getD (.dict []) = .dict fields ∧
      (fields.lookup "name").getD .none = name := by
  simp only [metadataName, Value.get, bind, Except.bind] at named
  split at named
  · rename_i fields described
    exact ⟨fields, described, Except.ok.inj named⟩
  · cases named

theorem identity_of_parts {fields : List (String × Value)} {kind : Value}
    (described : (entries.lookup "metadata").getD (.dict []) = .dict fields)
    (named : (fields.lookup "name").getD .none = name) (kinded : (entries.lookup "kind").getD .none = kind) :
    Identity.ofDict (.dict entries) = .ok ⟨name, kind, (fields.lookup "namespace").getD (.str "default")⟩ := by
  simp only [Identity.ofDict, Value.get, described, named, kinded, bind, Except.bind]
  rfl

theorem lookup_updateEntries (distinct : (additions.map Prod.fst).Nodup) (key : String) :
    (updateEntries entries additions).lookup key = (additions.lookup key).or (entries.lookup key) := by
  rw [updateEntries, lookup_overlay distinct]
  cases additions.lookup key <;> rfl

structure SameResource (entries additions : List (String × Value)) (kind : String) (name : Value) : Prop where
  kinded : additions.lookup "kind" = some (.str kind)
  named : metadataName (.dict entries) = .ok name
  named' : metadataName (.dict additions) = .ok name

/-- The object that is made of the entries gives them back from `to_dict`, with the kind in its
    short form. -/
structure Survives (entries again : List (String × Value)) (kind : String)
    (definition : KubernetesResourceDefinition) : Prop where
  given : entries.lookup "kind" = some (.str kind)
  made : init entries = .ok definition
  toDict : definition.toDict = .dict again
  kinded : again.lookup "kind" = some (.str (shortKind kind))
  others : ∀ key, key ≠ "kind" → again.lookup key = entries.lookup key

def Covers (entries additions : List (String × Value)) : Prop :=
  ∀ key old new, entries.lookup key = some old → additions.lookup key = some new → coveredBy old new = true

def NamesNoNamespace (additions : List (String × Value)) : Prop :=
  ∀ fields, additions.lookup "metadata" = some (.dict fields) → fields.lookup "namespace" = Option.none

namespace Survives

variable (survives : Survives entries again kind definition)

include survives

theorem distinct : (again.map Prod.fst).Nodup := by
  obtain rfl : _ = again := Value.dict.inj survives.toDict
  exact (OrderedDict.ofEntries _).distinct

theorem metadataName_eq : metadataName (.dict again) = metadataName (.dict entries) := by
  simp only [metadataName, Value.get, survives.others "metadata" (by decide)]

/-- With the same kind the definition is updated, with another one it stays as it is. -/
theorem updateWithAdditions_eq (same : SameResource entries additions kind name) :
    updateWithAdditions definition (.dict additions) =
      if shortKind kind = kind then .ok (.dict (updateEntries again additions))
      else if isJson (updateDict (.dict [("metadata", .dict [("name", name)]), ("kind", .str (shortKind kind))])
          (.dict additions)) then .ok (.dict again)
      else .error ⟨.typeError, "Object is not JSON serializable"⟩ := by
  have short : (Value.dict again).get "kind" .none = .ok (.str (shortKind kind)) := by
    simp only [Value.get, survives.kinded, Option.getD_some]
  have given : (Value.dict additions).get "kind" .none = .ok (.str kind) := by
    simp only [Value.get, same.kinded, Option.getD_some]
  have compared : (Value.str (shortKind kind)).eq (.str kind) = decide (shortKind kind = kind) := by
    rw [Bool.eq_iff_iff, eq_str_iff, Value.str.injEq, decide_eq_true_iff]
  simp only [updateWithAdditions, survives.toDict, survives.metadataName_eq, same.named, same.named', short, given,
    bind, Except.bind, eq_refl, compared, Bool.true_and, decide_eq_true_eq]
  split <;> rfl

theorem eq_merged_iff (same : SameResource entries additions kind name) (keyed : (Value.dict entries).Keyed)
    (keyed' : (Value.dict additions).Keyed) :
    (Value.dict (updateEntries again additions)).eq (.dict (mergeEntries entries additions)) = true ↔
      Covers entries additions := by
  have once := keyed'.entries.1
  rw [updateEntries, mergeEntries_eq, eq_dict_iff (nodup_overlay _ survives.distinct) (nodup_overlay _ keyed.entries.1),
    ← updateEntries]
  · simp only [lookup_updateEntries once, lookup_overlay once]
    constructor
    · intro held key old new before after
      have here := held key
      rw [before, after] at here
      exact (eq_mergeValue_iff (keyed.lookup before) (keyed'.lookup after)).mp here
    · intro covers key
      cases after : additions.lookup key with
      | none =>
        have other : key ≠ "kind" := by
          rintro rfl
          cases after.symm.trans same.kinded
        rw [Option.none_or, survives.others key other]
        exact sameHeld_refl _
      | some new =>
        cases before : entries.lookup key with
        | none =>
          rw [Option.elim_some, mergeValue_none]
          exact eq_refl new
        | some old =>
          exact (eq_mergeValue_iff (keyed.lookup before) (keyed'.lookup after)).mpr (covers key old new before after)

/-- An update that covers the definition, and names no namespace, is still of its resource. -/
theorem matched (same : SameResource entries additions kind name) (keyed' : (Value.dict additions).Keyed)
    (covers : Covers entries additions) (unnamed : NamesNoNamespace additions) :
    matchResource (.dict (updateEntries again additions)) (.dict entries) = .ok true := by
  obtain ⟨fields, described, named⟩ := get_of_metadataName same.named
  obtain ⟨fields', described', named'⟩ := get_of_metadataName same.named'
  have once := keyed'.entries.1
  have right : Identity.ofDict (.dict entries) =
      .ok ⟨name, .str kind, (fields.lookup "namespace").getD (.str "default")⟩ :=
    identity_of_parts described named (by rw [survives.given]; rfl)
  have kinded : ((updateEntries again additions).lookup "kind").getD .none = .str kind := by
    rw [lookup_updateEntries once, same.kinded]
    rfl
  cases given : additions.lookup "metadata" with
  | none =>
    have metadata : ((updateEntries again additions).lookup "metadata").getD (.dict []) = .dict fields := by
      rw [lookup_updateEntries once, given, Option.none_or, survives.others _ (by decide), described]
    rw [matchResource, identity_of_parts metadata named kinded, right]
    simp only [bind, Except.bind, Identity.same, eq_refl, Bool.and_self]
    rfl
  | some metadata =>
    rw [given, Option.getD_some] at described'
    subst described'
    have metadata : ((updateEntries again additions).lookup "metadata").getD (.dict []) = .dict fields' := by
      rw [lookup_updateEntries once, given]
      rfl
    have unnamed' := unnamed fields' given
    have free : fields.lookup "namespace" = Option.none := by
      cases before : entries.lookup "metadata" with
      | none =>
        rw [before] at described
        cases described
        rfl
      | some old =>
        rw [before, Option.getD_some] at described
        subst described
        have covered := covers _ _ _ before given
        rw [coveredBy, entriesCovered_iff] at covered
        cases space : fields.lookup "namespace" with
        | none => rfl
        | some value =>
          obtain ⟨value', there, _⟩ := covered _ (mem_of_lookup space)
          cases unnamed'.symm.trans there
    rw [matchResource, identity_of_parts metadata named' kinded, right, free, unnamed']
    simp only [bind, Except.bind, Identity.same, eq_refl, Bool.and_self]
    rfl

end Survives

/-- For additions with the kind and the name of a definition that `to_dict` gives back, the update
    of a file resource is the merge of a blueprint resource, and without a namespace of their own
    it is still of the resource of the definition, exactly when the kind has no dots and the
    additions have every key of the definition wherever both have dictionaries. -/
theorem additions_agree_iff (keyed : (Value.dict entries).Keyed) (keyed' : (Value.dict additions).Keyed)
    (survives : Survives entries again kind definition) (same : SameResource entries additions kind name) :
    (∃ updated merged, updateWithAdditions definition (.dict additions) = .ok updated ∧
        mergeDefinitions (.dict entries) (.dict additions) = .ok merged ∧ updated.eq merged = true ∧
        (NamesNoNamespace additions → matchResource updated (.dict entries) = .ok true)) ↔
      '.' ∉ kind.toList ∧ Covers entries additions := by
  have run := survives.updateWithAdditions_eq same
  constructor
  · rintro ⟨updated, merged, ran, merge, equal, _⟩
    cases merge
    rw [run] at ran
    by_cases short : shortKind kind = kind
    · rw [if_pos short] at ran
      cases ran
      exact ⟨short ▸ shortKind_plain kind, (survives.eq_merged_iff same keyed keyed').mp equal⟩
    · -- The definition is left alone, and its kind is another one.
      exfalso
      rw [if_neg short] at ran
      split at ran
      · cases ran
        rw [mergeEntries_eq, eq_dict_iff survives.distinct (nodup_overlay _ keyed.entries.1)] at equal
        have kinds := equal "kind"
        rw [survives.kinded, lookup_overlay keyed'.entries.1, same.kinded, Option.elim_some, mergeValue_leaf rfl] at kinds
        exact short (Value.str.inj (eq_str_iff.mp kinds))
      · cases ran
  · rintro ⟨plain, covers⟩
    rw [if_pos (shortKind_of_plain plain)] at run
    exact ⟨_, _, run, rfl, (survives.eq_merged_iff same keyed keyed').mpr covers,
      survives.matched same keyed' covers⟩

end

namespace Package

def portMap (fields : List (String × Value)) (port : String) : List (String × Value) :=
  [("kind", .str "ConfigMap"), ("apiVersion", .str "v1"), ("metadata", .dict fields),
    ("data", .dict [("port", .str port)])]

def portFields : List (String × Value) := [("name", .str "ports"), ("namespace", .str "main")]

theorem portMap_keyed {fields : List (String × Value)} (keyed : (Value.dict fields).Keyed) (port : String) :
    (Value.dict (portMap fields port)).Keyed := by
  have data : (Value.dict [("port", .str port)]).Keyed :=
    .dict (by simp) (List.forall_mem_singleton.mpr (.leaf rfl))
  refine .dict (by simp [portMap]) ?_
  simp only [portMap, List.forall_mem_cons]
  exact ⟨.leaf rfl, .leaf rfl, keyed, data, by simp⟩

theorem named_keyed (name : String) : (Value.dict [("name", .str name)]).Keyed :=
  .dict (by simp) (List.forall_mem_singleton.mpr (.leaf rfl))

theorem portFields_keyed : (Value.dict portFields).Keyed :=
  .dict (by decide) (List.forall_mem_cons.mpr ⟨.leaf rfl, List.forall_mem_singleton.mpr (.leaf rfl)⟩)

end Package

open Package

theorem portMap_survives : ∃ again definition, Survives (portMap portFields "80") again "ConfigMap" definition := by
  have is : IsDefinition (portMap portFields "80") "ConfigMap" (.str "v1") (.dict portFields) :=
    ⟨by decide, rfl, rfl, rfl, rfl, rfl⟩
  have parameters : ∀ key ∈ (portMap portFields "80").map Prod.fst, key ∈ parameterNames := by decide
  have free : ∀ key ∈ parameterNames, key ≠ "self" ∧ key ∉ objectAttributes := by decide
  obtain ⟨d, made, toDict⟩ := is.toDict_eq (by decide)
    (fun key member further => absurd (parameters key member) further)
    fun key member => free key (parameters key member)
  have truthy : withoutFalsy (portMap portFields "80") = portMap portFields "80" := rfl
  refine ⟨_, d, rfl, made, toDict, ?_, fun key _ => ?_⟩
  · rw [is.lookup_rebuilt, truthy, shortKind_of_plain (by decide)]
    rfl
  · rw [is.lookup_rebuilt, truthy]

/-- The additions name the config map, and the update is sent to another namespace. -/
theorem namespace_dropped : ∃ again definition, Survives (portMap portFields "80") again "ConfigMap" definition ∧
    SameResource (portMap portFields "80") (portMap [("name", .str "ports")] "81") "ConfigMap" (.str "ports") ∧
    ¬ ∃ updated merged, updateWithAdditions definition (.dict (portMap [("name", .str "ports")] "81")) = .ok updated ∧
        mergeDefinitions (.dict (portMap portFields "80")) (.dict (portMap [("name", .str "ports")] "81")) = .ok merged ∧
        updated.eq merged = true ∧ (NamesNoNamespace (portMap [("name", .str "ports")] "81") →
          matchResource updated (.dict (portMap portFields "80")) = .ok true) := by
  obtain ⟨again, definition, survives⟩ := portMap_survives
  have same : SameResource (portMap portFields "80") (portMap [("name", .str "ports")] "81") "ConfigMap"
      (.str "ports") := ⟨rfl, rfl, rfl⟩
  refine ⟨again, definition, survives, same, ?_⟩
  rintro ⟨updated, merged, ran, merge, equal, _⟩
  rw [survives.updateWithAdditions_eq same, if_pos (shortKind_of_plain (by decide))] at ran
  cases ran
  cases merge
  have covers := (survives.eq_merged_iff same (portMap_keyed portFields_keyed "80")
    (portMap_keyed (named_keyed "ports") "81")).mp equal
  have metadata := covers "metadata" _ _ rfl rfl
  have uncovered : coveredBy (.dict portFields) (.dict [("name", .str "ports")]) = false := by decide +kernel
  cases metadata.symm.trans uncovered

theorem additions_agree_iff_ports : ∃ again definition,
    Survives (portMap portFields "80") again "ConfigMap" definition ∧
    ((∃ updated merged, updateWithAdditions definition (.dict (portMap portFields "81")) = .ok updated ∧
        mergeDefinitions (.dict (portMap portFields "80")) (.dict (portMap portFields "81")) = .ok merged ∧
        updated.eq merged = true ∧ (NamesNoNamespace (portMap portFields "81") →
          matchResource updated (.dict (portMap portFields "80")) = .ok true)) ↔
      '.' ∉ "ConfigMap".toList ∧ Covers (portMap portFields "80") (portMap portFields "81")) := by
  obtain ⟨again, definition, survives⟩ := portMap_survives
  have same : SameResource (portMap portFields "80") (portMap portFields "81") "ConfigMap" (.str "ports") :=
    ⟨rfl, rfl, rfl⟩
  exact ⟨again, definition, survives, additions_agree_iff (portMap_keyed portFields_keyed "80")
    (portMap_keyed portFields_keyed "81") survives same⟩

end CloudifyKubernetes
