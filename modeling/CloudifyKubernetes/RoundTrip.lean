import CloudifyKubernetes.Collections.Overlay
import CloudifyKubernetes.FieldNames

namespace CloudifyKubernetes

namespace KubernetesResourceDefinition

open Collections

/-- A mapping that the constructor accepts: distinct keys, and the three required ones. -/
structure IsDefinition (entries : List (String × Value)) (kind : String) (version metadata : Value) : Prop where
  distinct : (entries.map Prod.fst).Nodup
  kinded : entries.lookup "kind" = some (.str kind)
  versioned : entries.lookup "apiVersion" = some version
  described : entries.lookup "metadata" = some metadata
  given : version.isNone = false
  given' : metadata.isNone = false

def furtherEntries (entries : List (String × Value)) : List (String × Value) :=
  entries.filter fun e => e.1 ∉ parameterNames

def keptParameters (entries : List (String × Value)) (name : String × String → String) : List (String × Value) :=
  optionalParameters.filterMap fun parameter =>
    if ((entries.lookup parameter.1).getD .none).truthy then
      some (name parameter, (entries.lookup parameter.1).getD .none)
    else none

def withoutFalsy (entries : List (String × Value)) : List (String × Value) :=
  entries.filter fun e => e.1 ∉ optionalParameters.map Prod.fst || e.2.truthy

theorem foldl_keptParameters (entries : List (String × Value)) (parameters : List (String × String))
    (d : KubernetesResourceDefinition) :
    parameters.foldl (fun d entry =>
        if ((entries.lookup entry.1).getD .none).truthy then
          d.setAttribute entry.2 ((entries.lookup entry.1).getD .none)
        else d) d =
      (parameters.filterMap fun parameter =>
        if ((entries.lookup parameter.1).getD .none).truthy then
          some (parameter.2, (entries.lookup parameter.1).getD .none)
        else none).foldl (fun d e => d.setAttribute e.1 e.2) d := by
  induction parameters generalizing d with
  | nil => rfl
  | cons parameter rest ih =>
    rw [List.foldl_cons, List.filterMap_cons, ih]
    split <;> rfl

section

variable {letters : CaseMapping} {entries : List (String × Value)} {kind : String} {version metadata : Value}

theorem IsDefinition.init_eq (is : IsDefinition entries kind version metadata)
    (unreserved : ∀ key ∈ entries.map Prod.fst, key ≠ "self" ∧ key ∉ objectAttributes) :
    init entries = .ok ((keptParameters entries Prod.snd ++ furtherEntries entries).foldl
      (fun d e => d.setAttribute e.1 e.2) ⟨shortKind kind, version, metadata, .empty⟩) := by
  have self : entries.lookup "self" = none := by
    rw [← Option.not_isSome_iff_eq_none, lookup_isSome_iff]
    exact fun member => (unreserved _ member).1 rfl
  have plain : (entries.any fun e => e.1 ∈ objectAttributes) = false := by
    rw [List.any_eq_false]
    intro e member
    simpa using (unreserved e.1 (List.mem_map_of_mem member)).2
  have parts : (version.isNone || metadata.isNone) = false := by rw [is.given, is.given']; rfl
  simp only [init, self, is.kinded, is.versioned, is.described, plain, Option.getD_some, is.given, is.given',
    foldl_keptParameters, List.foldl_append, keptParameters, furtherEntries]
  rfl

theorem init_fold {d : KubernetesResourceDefinition} (made : init entries = .ok d) :
    ∃ required : KubernetesResourceDefinition, required.attributes = .empty ∧
      d = (keptParameters entries Prod.snd ++ furtherEntries entries).foldl
        (fun d e => d.setAttribute e.1 e.2) required := by
  unfold init at made
  simp only at made
  split at made
  · cases made
  split at made
  · cases made
  split at made
  · rename_i kind _
    split at made
    · cases made
    refine ⟨⟨shortKind kind, (entries.lookup "apiVersion").getD .none, (entries.lookup "metadata").getD .none, .empty⟩,
      rfl, ?_⟩
    rw [List.foldl_append, ← Except.ok.inj made, keptParameters, ← foldl_keptParameters]
    rfl
  · cases made

theorem init_unreserved {d : KubernetesResourceDefinition} (made : init entries = .ok d) :
    ∀ key ∈ entries.map Prod.fst, key ≠ "self" ∧ key ∉ objectAttributes := by
  intro key member
  unfold init at made
  simp only at made
  split at made
  · cases made
  rename_i free
  split at made
  · cases made
  split at made
  · split at made
    · cases made
    rename_i plain
    constructor
    · rintro rfl
      exact free (lookup_isSome_iff.mpr member)
    · intro reserved
      obtain ⟨e, inside, rfl⟩ := List.mem_map.mp member
      exact plain (List.any_eq_true.mpr ⟨e, inside, by simpa using reserved⟩)
  · cases made

/-- Every name that `to_dict` gives back is converted from an attribute of the object. -/
theorem vars_foldl {changes : List (String × Value)} {d : KubernetesResourceDefinition} {name : String}
    (member : name ∈ (changes.foldl (fun d e => d.setAttribute e.1 e.2) d).vars.map Prod.fst) :
    name ∈ d.vars.map Prod.fst ∨ name ∈ changes.map Prod.fst := by
  induction changes generalizing d with
  | nil => exact .inl member
  | cons change rest ih =>
    rcases ih member with before | later
    · have before : name ∈ (d.setAttribute change.1 change.2).vars.map Prod.fst := before
      unfold setAttribute at before
      split at before
      · exact .inl before
      · simp only [vars, List.map_append, List.mem_append, OrderedDict.set, keys_assign] at before ⊢
        rcases before with required | rfl | kept
        · exact .inl (.inl required)
        · exact .inr List.mem_cons_self
        · exact .inl (.inr kept)
    · exact .inr (List.mem_cons_of_mem _ later)

theorem foldl_setAttribute {changes : List (String × Value)} {d : KubernetesResourceDefinition}
    (distinct : ((d.attributes.items ++ changes).map Prod.fst).Nodup)
    (others : ∀ e ∈ changes, e.1 ≠ "api_version") :
    (changes.foldl (fun d e => d.setAttribute e.1 e.2) d).vars =
      [("kind", .str d.kind), ("api_version", d.apiVersion), ("metadata", d.metadata)] ++
        (d.attributes.items ++ changes) := by
  have whole : changes.foldl (fun d e => d.setAttribute e.1 e.2) d =
      { d with attributes := changes.foldl (fun d e => d.set e.1 e.2) d.attributes } := by
    clear distinct
    induction changes generalizing d with
    | nil => rfl
    | cons change rest ih =>
      obtain ⟨first, others⟩ := List.forall_mem_cons.mp others
      rw [List.foldl_cons, List.foldl_cons, setAttribute, if_neg first, ih others]
  rw [whole, vars, OrderedDict.items_collect distinct]

theorem mem_keptParameters {name : String × String → String} {key : String} {value : Value} :
    (key, value) ∈ keptParameters entries name ↔
      ∃ parameter ∈ optionalParameters, key = name parameter ∧ value.truthy = true ∧
        value = (entries.lookup parameter.1).getD .none := by
  simp only [keptParameters, List.mem_filterMap, Option.ite_none_right_eq_some, Option.some.injEq, Prod.mk.injEq]
  constructor
  · rintro ⟨parameter, member, truthy, rfl, rfl⟩
    exact ⟨parameter, member, rfl, truthy, rfl⟩
  · rintro ⟨parameter, member, rfl, truthy, rfl⟩
    exact ⟨parameter, member, truthy, rfl, rfl⟩

theorem keys_keptParameters (entries : List (String × Value)) (name : String × String → String) :
    ((keptParameters entries name).map Prod.fst).Sublist (optionalParameters.map name) := by
  rw [keptParameters]
  induction optionalParameters with
  | nil => simp
  | cons parameter rest ih =>
    rw [List.filterMap_cons]
    split
    · exact ih.cons _
    · rename_i found
      split at found
      · cases found
        exact ih.cons_cons _
      · cases found

def attributeNames : List String := ["kind", "api_version", "metadata"] ++ optionalParameters.map Prod.snd

theorem attributeNames_ascii : ∀ name ∈ attributeNames,
    underscoreToCamelcase letters name = underscoreToCamelcase .ascii name := by
  have plain : attributeNames.all isAscii = true := by decide +kernel
  exact fun name member => underscoreToCamelcase_ascii (List.all_eq_true.mp plain name member)

theorem converted_optional : ∀ parameter ∈ optionalParameters,
    underscoreToCamelcase letters parameter.2 = parameter.1 := by
  have all : (optionalParameters.all fun parameter => underscoreToCamelcase .ascii parameter.2 == parameter.1) = true := by
    decide +kernel
  intro parameter member
  have named : parameter.2 ∈ attributeNames := List.mem_append_right _ (List.mem_map_of_mem member)
  rw [attributeNames_ascii parameter.2 named]
  exact eq_of_beq (List.all_eq_true.mp all parameter member)

theorem converted_required : ["kind", "api_version", "metadata"].map (underscoreToCamelcase letters) =
    ["kind", "apiVersion", "metadata"] := by
  have ascii : ["kind", "api_version", "metadata"].map (underscoreToCamelcase .ascii) =
      ["kind", "apiVersion", "metadata"] := by decide +kernel
  rw [← ascii]
  exact List.map_congr_left fun name member => attributeNames_ascii name (List.mem_append_left _ member)

/-- The attributes of the parameters that are renamed are no keys that convert to themselves. -/
theorem attribute_converted : ∀ name ∈ "api_version" :: optionalParameters.map Prod.snd,
    name ∉ parameterNames → underscoreToCamelcase letters name ≠ name := by
  have all : (("api_version" :: optionalParameters.map Prod.snd).all fun name =>
      decide (name ∈ parameterNames) || underscoreToCamelcase .ascii name != name) = true := by decide +kernel
  intro name member other
  have named : name ∈ attributeNames := by
    rcases List.mem_cons.mp member with rfl | optional
    · exact List.mem_append_left _ (by decide)
    · exact List.mem_append_right _ optional
  have here := List.all_eq_true.mp all name member
  rw [decide_eq_false other, Bool.false_or, bne_iff_ne] at here
  rw [attributeNames_ascii name named]
  exact here

def rebuilt (kind : String) (version metadata : Value) (entries : List (String × Value)) : List (String × Value) :=
  [("kind", .str kind), ("apiVersion", version), ("metadata", metadata)] ++
    (keptParameters entries Prod.fst ++ furtherEntries entries)

theorem mem_furtherEntries {e : String × Value} :
    e ∈ furtherEntries entries ↔ e ∈ entries ∧ e.1 ∉ parameterNames := by
  rw [furtherEntries, List.mem_filter, decide_eq_true_iff]

theorem nodup_kept (distinct : (entries.map Prod.fst).Nodup) (front : List String)
    {name : String × String → String} (once : (front ++ optionalParameters.map name).Nodup)
    (apart : ∀ e ∈ furtherEntries entries, e.1 ∉ front ++ optionalParameters.map name) :
    (front ++ (keptParameters entries name ++ furtherEntries entries).map Prod.fst).Nodup := by
  have names := keys_keptParameters entries name
  have kept : (front ++ (keptParameters entries name).map Prod.fst).Sublist (front ++ optionalParameters.map name) :=
    (List.Sublist.refl front).append names
  rw [List.map_append, ← List.append_assoc, List.nodup_append]
  refine ⟨once.sublist kept, distinct.sublist (List.filter_sublist.map _), ?_⟩
  rintro key inside other further rfl
  obtain ⟨e, member, rfl⟩ := List.mem_map.mp further
  exact apart e member (kept.subset inside)

theorem IsDefinition.toDict_eq (is : IsDefinition entries kind version metadata) (plain : '.' ∉ kind.toList)
    (converts : ∀ key ∈ entries.map Prod.fst, key ∉ parameterNames → underscoreToCamelcase letters key = key)
    (unreserved : ∀ key ∈ entries.map Prod.fst, key ≠ "self" ∧ key ∉ objectAttributes) :
    ∃ d, init entries = .ok d ∧ d.toDictBy letters = .dict (rebuilt kind version metadata entries) := by
  have further : ∀ e ∈ furtherEntries entries, e.1 ∉ parameterNames ∧ underscoreToCamelcase letters e.1 = e.1 := by
    intro e member
    obtain ⟨inside, other⟩ := mem_furtherEntries.mp member
    exact ⟨other, converts e.1 (List.mem_map_of_mem inside) other⟩
  have apart : ∀ e ∈ furtherEntries entries, e.1 ∉ "api_version" :: optionalParameters.map Prod.snd := by
    intro e member here
    exact attribute_converted e.1 here (further e member).1 (further e member).2
  have once : (keptParameters entries Prod.snd ++ furtherEntries entries).map Prod.fst |>.Nodup := by
    refine nodup_kept is.distinct [] (by decide) fun e member here => ?_
    exact apart e member (List.mem_cons_of_mem _ here)
  have others : ∀ e ∈ keptParameters entries Prod.snd ++ furtherEntries entries, e.1 ≠ "api_version" := by
    rintro ⟨key, value⟩ member rfl
    rcases List.mem_append.mp member with kept | member
    · obtain ⟨parameter, inside, same, _⟩ := mem_keptParameters.mp kept
      have free : ∀ parameter ∈ optionalParameters, parameter.2 ≠ "api_version" := by decide
      exact free parameter inside same.symm
    · exact apart _ member List.mem_cons_self
  refine ⟨_, is.init_eq unreserved, ?_⟩
  have converted : ((keptParameters entries Prod.snd ++ furtherEntries entries).map fun e =>
      (underscoreToCamelcase letters e.1, e.2)) = keptParameters entries Prod.fst ++ furtherEntries entries := by
    rw [List.map_append]
    congr 1
    · rw [keptParameters, keptParameters, List.map_filterMap]
      refine List.filterMap_congr fun parameter member => ?_
      split
      · simp [converted_optional parameter member]
      · rfl
    · conv_rhs => rw [← List.map_id (furtherEntries entries)]
      exact List.map_congr_left fun e member => Prod.ext (further e member).2 rfl
  have distinct : ((rebuilt kind version metadata entries).map Prod.fst).Nodup :=
    nodup_kept is.distinct ["kind", "apiVersion", "metadata"] (by decide)
      fun e member => (further e member).1
  have set := @foldl_setAttribute (keptParameters entries Prod.snd ++ furtherEntries entries)
    ⟨shortKind kind, version, metadata, .empty⟩ once others
  rw [toDictBy, set]
  have required : [("kind", Value.str kind), ("api_version", version), ("metadata", metadata)].map
      (fun e => (underscoreToCamelcase letters e.1, e.2)) =
      [("kind", .str kind), ("apiVersion", version), ("metadata", metadata)] := by
    have names := @converted_required letters
    simp only [List.map_cons, List.map_nil, List.cons.injEq, and_true] at names
    simp only [List.map_cons, List.map_nil, names]
  have whole : (([("kind", Value.str (shortKind kind)), ("api_version", version), ("metadata", metadata)] ++
      (OrderedDict.empty.items ++ (keptParameters entries Prod.snd ++ furtherEntries entries))).map
        fun e : String × Value => (underscoreToCamelcase letters e.1, e.2)) = rebuilt kind version metadata entries := by
    rw [List.map_append, shortKind_of_plain plain, required]
    exact congrArg _ converted
  refine congrArg Value.dict ?_
  calc
    _ = (OrderedDict.ofEntries (rebuilt kind version metadata entries)).items :=
      congrArg (fun entries => (OrderedDict.ofEntries entries).items) whole
    _ = rebuilt kind version metadata entries := OrderedDict.items_ofEntries distinct

theorem nodup_rebuilt (distinct : (entries.map Prod.fst).Nodup) :
    ((rebuilt kind version metadata entries).map Prod.fst).Nodup :=
  nodup_kept distinct ["kind", "apiVersion", "metadata"] (by decide) fun _ member => (mem_furtherEntries.mp member).2

/-- It is the mapping without the falsy values of optional parameters. -/
theorem IsDefinition.lookup_rebuilt (is : IsDefinition entries kind version metadata) (key : String) :
    (rebuilt kind version metadata entries).lookup key = (withoutFalsy entries).lookup key := by
  refine lookup_congr (nodup_rebuilt is.distinct) (is.distinct.sublist (List.filter_sublist.map _)) ?_ key
  rintro ⟨key, value⟩
  have mem (name : String) (value : Value) := (OrderedDict.mk entries is.distinct).mem_items_iff name value
  simp only [OrderedDict.get?] at mem
  simp only [rebuilt, List.mem_append, List.mem_filter, List.mem_cons, List.not_mem_nil, or_false,
    Prod.mk.injEq, mem_keptParameters, mem_furtherEntries, Bool.or_eq_true, decide_eq_true_eq]
  constructor
  · rintro ((⟨rfl, rfl⟩ | ⟨rfl, rfl⟩ | ⟨rfl, rfl⟩) | ⟨parameter, member, rfl, truthy, held⟩ | ⟨member, further⟩)
    · exact ⟨(mem _ _).mpr is.kinded, .inl (by decide)⟩
    · exact ⟨(mem _ _).mpr is.versioned, .inl (by decide)⟩
    · exact ⟨(mem _ _).mpr is.described, .inl (by decide)⟩
    · refine ⟨(mem _ _).mpr ?_, .inr truthy⟩
      cases here : entries.lookup parameter.1 with
      | none =>
        rw [held, here] at truthy
        cases truthy
      | some other => rw [held, here, Option.getD_some]
    · refine ⟨member, .inl fun optional => further ?_⟩
      exact List.mem_append_right _ optional
  · rintro ⟨member, kept⟩
    have held := (mem _ _).mp member
    by_cases parameter : key ∈ parameterNames
    · rcases List.mem_append.mp parameter with required | optional
      · left
        simp only [List.mem_cons, List.not_mem_nil, or_false] at required
        rcases required with rfl | rfl | rfl
        · exact .inl ⟨rfl, Option.some.inj (held.symm.trans is.kinded)⟩
        · exact .inr (.inl ⟨rfl, Option.some.inj (held.symm.trans is.versioned)⟩)
        · exact .inr (.inr ⟨rfl, Option.some.inj (held.symm.trans is.described)⟩)
      · right
        left
        obtain ⟨entry, inside, rfl⟩ := List.mem_map.mp optional
        refine ⟨entry, inside, rfl, kept.resolve_left (not_not_intro optional), ?_⟩
        rw [held, Option.getD_some]
    · exact .inr (.inr ⟨member, parameter⟩)

/-- If no further key is lost, every one of them is a conversion of one of them. -/
theorem further_permuted {d : KubernetesResourceDefinition} {rebuilt : List (String × Value)}
    (made : init entries = .ok d) (again : d.toDictBy letters = .dict rebuilt)
    (same : ∀ key, rebuilt.lookup key = (withoutFalsy entries).lookup key) :
    ∀ key ∈ (furtherEntries entries).map Prod.fst,
      ∃ other ∈ (furtherEntries entries).map Prod.fst, underscoreToCamelcase letters other = key := by
  intro key member
  obtain ⟨e, inside, rfl⟩ := List.mem_map.mp member
  obtain ⟨given, further⟩ := mem_furtherEntries.mp inside
  have kept : e ∈ withoutFalsy entries := by
    have other : e.1 ∉ optionalParameters.map Prod.fst := fun optional => further (List.mem_append_right _ optional)
    exact List.mem_filter.mpr ⟨given, by rw [decide_eq_true other, Bool.true_or]⟩
  have held : (rebuilt.lookup e.1).isSome = true := by
    rw [same, lookup_isSome_iff]
    exact List.mem_map_of_mem kept
  obtain ⟨value, held⟩ := Option.isSome_iff_exists.mp held
  obtain rfl : _ = rebuilt := Value.dict.inj again
  have converted := OrderedDict.mem_of_get?_ofEntries held
  obtain ⟨⟨name, value'⟩, attribute', same'⟩ := List.mem_map.mp converted
  obtain ⟨conversion, _⟩ := Prod.mk.inj same'
  dsimp only at conversion
  obtain ⟨required, empty, rfl⟩ := init_fold made
  rcases vars_foldl (List.mem_map.mpr ⟨_, attribute', rfl⟩) with before | later
  · -- A required key is converted to the name of its parameter.
    exfalso
    rw [vars, empty, List.map_append] at before
    have named : name ∈ ["kind", "api_version", "metadata"] := by simpa [OrderedDict.empty] using before
    have inside : underscoreToCamelcase letters name ∈ ["kind", "apiVersion", "metadata"] := by
      rw [← converted_required]
      exact List.mem_map_of_mem named
    rw [conversion] at inside
    exact further (List.mem_append_left _ inside)
  · rw [List.map_append, List.mem_append] at later
    rcases later with optional | other
    · exfalso
      obtain ⟨parameter, known, rfl⟩ := List.mem_map.mp ((keys_keptParameters entries Prod.snd).subset optional)
      rw [converted_optional parameter known] at conversion
      rw [← conversion] at further
      exact further (List.mem_append_right _ (List.mem_map_of_mem known))
    · exact ⟨name, other, conversion⟩

/-- A definition whose kind has no dots comes back from `to_dict` without the falsy values of
    optional parameters exactly when no further key is changed by `underscore_to_camelcase`,
    and none is taken by the constructor or the object itself. -/
theorem roundTrip_iff (is : IsDefinition entries kind version metadata) (plain : '.' ∉ kind.toList) :
    (∃ d rebuilt, init entries = .ok d ∧ d.toDictBy letters = .dict rebuilt ∧
        ∀ key, rebuilt.lookup key = (withoutFalsy entries).lookup key) ↔
      ∀ key ∈ entries.map Prod.fst, key ∉ parameterNames →
        underscoreToCamelcase letters key = key ∧ key ≠ "self" ∧ key ∉ objectAttributes := by
  constructor
  · rintro ⟨d, rebuilt, made, again, same⟩ key member further
    refine ⟨?_, init_unreserved made key member⟩
    apply converted_of_permuted (further_permuted made again same)
    obtain ⟨e, inside, rfl⟩ := List.mem_map.mp member
    exact List.mem_map_of_mem (mem_furtherEntries.mpr ⟨inside, further⟩)
  · intro condition
    have free : ∀ key ∈ parameterNames, key ≠ "self" ∧ key ∉ objectAttributes := by decide
    obtain ⟨d, made, again⟩ := is.toDict_eq plain (fun key member further => (condition key member further).1)
      fun key member => by
        by_cases parameter : key ∈ parameterNames
        · exact free key parameter
        · exact (condition key member parameter).2
    exact ⟨d, _, made, again, is.lookup_rebuilt⟩

end

def storageClass : List (String × Value) :=
  [("kind", .str "StorageClass"), ("apiVersion", .str "storage.k8s.io/v1"),
    ("metadata", .dict [("name", .str "fast")]), ("provisioner", .str "kubernetes.io/no-provisioner"),
    ("reclaimPolicy", .str "Retain")]

theorem storageClass_isDefinition : IsDefinition storageClass "StorageClass" (.str "storage.k8s.io/v1")
    (.dict [("name", .str "fast")]) :=
  ⟨by decide, rfl, rfl, rfl, rfl, rfl⟩

/-- The reclaim policy comes back under another key, whatever the tables are. -/
theorem reclaimPolicy_renamed : ¬ ∃ letters d rebuilt, init storageClass = .ok d ∧
    d.toDictBy letters = .dict rebuilt ∧
    ∀ key, rebuilt.lookup key = (withoutFalsy storageClass).lookup key := by
  rintro ⟨letters, d, rebuilt, made, again, same⟩
  have kept := converted_of_permuted (further_permuted made again same) "reclaimPolicy" (by decide)
  have renamed : underscoreToCamelcase .ascii "reclaimPolicy" = "reclaimpolicy" := by decide +kernel
  rw [underscoreToCamelcase_ascii (by decide +kernel), renamed] at kept
  exact absurd kept (by decide)

theorem roundTrip_iff_storageClass :
    (∃ d rebuilt, init storageClass = .ok d ∧ d.toDictBy .ascii = .dict rebuilt ∧
        ∀ key, rebuilt.lookup key = (withoutFalsy storageClass).lookup key) ↔
      ∀ key ∈ storageClass.map Prod.fst, key ∉ parameterNames →
        underscoreToCamelcase .ascii key = key ∧ key ≠ "self" ∧ key ∉ objectAttributes :=
  roundTrip_iff storageClass_isDefinition (by decide)

end KubernetesResourceDefinition

end CloudifyKubernetes
