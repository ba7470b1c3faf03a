import CloudifyKubernetes.Collections.Overlay
import CloudifyKubernetes.Python.Value

namespace CloudifyKubernetes

open Collections

mutual

/-- The value that a key gets from the changes: two dictionaries are merged, any other
    value takes the place of what the key has. -/
def mergeValue : Option Value → Value → Value
  | some (.dict entries), .dict changes => .dict (mergeEntries entries changes)
  | _, value => value

def mergeEntries : List (String × Value) → List (String × Value) → List (String × Value)
  | entries, [] => entries
  | entries, (key, value) :: rest =>
    mergeEntries (assign key (mergeValue (entries.lookup key) value) entries) rest

end

def mergeDefinitions (old new : Value) : Except Exception Value :=
  match old, new with
  | .dict entries, .dict changes => .ok (.dict (mergeEntries entries changes))
  | .dict _, _ => .error ⟨.attributeError, "object has no attribute items"⟩
  | _, new => .ok new

theorem mergeEntries_eq (entries changes : List (String × Value)) :
    mergeEntries entries changes = overlay mergeValue entries changes := by
  induction changes generalizing entries with
  | nil => rw [mergeEntries, overlay]
  | cons change rest ih =>
    obtain ⟨key, value⟩ := change
    rw [mergeEntries, overlay, ih]

namespace Value

def isDict : Value → Bool
  | dict _ => true
  | _ => false

def at? : List String → Value → Option Value
  | [], value => some value
  | key :: path, dict entries => (entries.lookup key).bind (at? path)
  | _ :: _, _ => Option.none

theorem isDict_or (value : Value) : value.isDict = false ∨ ∃ entries, value = dict entries := by
  cases value <;> first | exact .inl rfl | exact .inr ⟨_, rfl⟩

def HasPath (value : Value) (path : List String) : Prop := ∃ found, value.at? path = some found

def HasLeaf (value : Value) (path : List String) (leaf : Value) : Prop :=
  value.at? path = some leaf ∧ leaf.isDict = false

def Frees (value : Value) (path : List String) : Prop :=
  ¬ value.HasPath path ∧ ∀ front leaf, front <+: path → front ≠ path → ¬ value.HasLeaf front leaf

inductive Keyed : Value → Prop
  | leaf {value : Value} (leaf : value.isDict = false) : Keyed value
  | dict {entries : List (String × Value)} (distinct : (entries.map Prod.fst).Nodup)
      (nested : ∀ entry ∈ entries, Keyed entry.2) : Keyed (.dict entries)

theorem Keyed.entries {entries : List (String × Value)} (keyed : (Value.dict entries).Keyed) :
    (entries.map Prod.fst).Nodup ∧ ∀ entry ∈ entries, entry.2.Keyed := by
  cases keyed with
  | leaf leaf => cases leaf
  | dict distinct nested => exact ⟨distinct, nested⟩

theorem Keyed.lookup {entries : List (String × Value)} {key : String} {value : Value}
    (keyed : (Value.dict entries).Keyed) (held : entries.lookup key = some value) : value.Keyed :=
  keyed.entries.2 _ (mem_of_lookup held)

theorem at?_of_leaf {value : Value} (leaf : value.isDict = false) (key : String) (path : List String) :
    value.at? (key :: path) = Option.none := by
  cases value <;> first | rfl | cases leaf

@[simp] theorem at?_dict (entries : List (String × Value)) (key : String) (path : List String) :
    (dict entries).at? (key :: path) = (entries.lookup key).bind (at? path) := rfl

theorem hasLeaf_cons {entries : List (String × Value)} {key : String} {path : List String} {leaf : Value} :
    (dict entries).HasLeaf (key :: path) leaf ↔
      ∃ value, entries.lookup key = some value ∧ value.HasLeaf path leaf := by
  simp only [HasLeaf, at?_dict, Option.bind_eq_some_iff]
  constructor
  · rintro ⟨⟨value, held, found⟩, leaf⟩
    exact ⟨value, held, found, leaf⟩
  · rintro ⟨value, held, found, leaf⟩
    exact ⟨⟨value, held, found⟩, leaf⟩

theorem hasPath_cons {entries : List (String × Value)} {key : String} {path : List String} :
    (dict entries).HasPath (key :: path) ↔ ∃ value, entries.lookup key = some value ∧ value.HasPath path := by
  simp only [HasPath, at?_dict, Option.bind_eq_some_iff]
  constructor
  · rintro ⟨found, value, held, here⟩
    exact ⟨value, held, found, here⟩
  · rintro ⟨value, held, found, here⟩
    exact ⟨found, value, held, here⟩

theorem hasLeaf_leaf {value leaf : Value} {path : List String} (is : value.isDict = false) :
    value.HasLeaf path leaf ↔ path = [] ∧ leaf = value := by
  cases path with
  | nil =>
    constructor
    · rintro ⟨found, _⟩
      cases found
      exact ⟨rfl, rfl⟩
    · rintro ⟨_, rfl⟩
      exact ⟨rfl, is⟩
  | cons key path =>
    rw [HasLeaf, at?_of_leaf is]
    simp

theorem not_hasLeaf_dict_nil {entries : List (String × Value)} {leaf : Value} :
    ¬ (dict entries).HasLeaf [] leaf := by
  rintro ⟨found, leaf⟩
  cases found
  cases leaf

theorem frees_of_absent {entries : List (String × Value)} {key : String} (absent : entries.lookup key = Option.none)
    (path : List String) : (dict entries).Frees (key :: path) := by
  constructor
  · rw [hasPath_cons, absent]
    rintro ⟨value, held, _⟩
    cases held
  · intro front leaf inside _ here
    cases front with
    | nil => exact not_hasLeaf_dict_nil here
    | cons first front =>
      obtain ⟨rfl, _⟩ := List.cons_prefix_cons.mp inside
      obtain ⟨value, held, _⟩ := hasLeaf_cons.mp here
      cases absent.symm.trans held

theorem frees_cons {entries : List (String × Value)} {key : String} {value : Value}
    (held : entries.lookup key = some value) (path : List String) :
    (dict entries).Frees (key :: path) ↔ value.Frees path := by
  constructor
  · rintro ⟨pathless, through⟩
    refine ⟨fun here => pathless (hasPath_cons.mpr ⟨value, held, here⟩), fun front leaf inside shorter here => ?_⟩
    exact through (key :: front) leaf (List.cons_prefix_cons.mpr ⟨rfl, inside⟩) (by simpa using shorter)
      (hasLeaf_cons.mpr ⟨value, held, here⟩)
  · rintro ⟨pathless, through⟩
    constructor
    · intro here
      obtain ⟨value', held', here⟩ := hasPath_cons.mp here
      cases held.symm.trans held'
      exact pathless here
    · intro front leaf inside shorter here
      cases front with
      | nil => exact not_hasLeaf_dict_nil here
      | cons first front =>
        obtain ⟨rfl, later⟩ := List.cons_prefix_cons.mp inside
        obtain ⟨value', held', here⟩ := hasLeaf_cons.mp here
        cases held.symm.trans held'
        exact through front leaf later (fun same => shorter (by rw [same])) here

theorem not_frees_leaf {value : Value} (is : value.isDict = false) (path : List String) : ¬ value.Frees path := by
  rintro ⟨pathless, through⟩
  cases path with
  | nil => exact pathless ⟨value, rfl⟩
  | cons key path =>
    exact through [] value (List.nil_prefix) (by simp) ⟨rfl, is⟩

end Value

open Value

theorem mergeValue_leaf {value : Value} (leaf : value.isDict = false) (held : Option Value) :
    mergeValue held value = value := by
  unfold mergeValue
  split
  · cases leaf
  · rfl

theorem mergeValue_none (value : Value) : mergeValue Option.none value = value := by
  cases value <;> rfl

theorem mergeValue_over_leaf {old : Value} (leaf : old.isDict = false) (value : Value) :
    mergeValue (some old) value = value := by
  cases old with
  | dict entries => cases leaf
  | _ => cases value <;> rfl

/-- Every leaf of a merge is one of the changes, or an old one that the changes free. -/
theorem hasLeaf_mergeEntries {entries changes : List (String × Value)} (keyed : (dict changes).Keyed)
    (path : List String) (leaf : Value) :
    (dict (mergeEntries entries changes)).HasLeaf path leaf ↔
      (dict changes).HasLeaf path leaf ∨ (dict entries).HasLeaf path leaf ∧ (dict changes).Frees path := by
  induction path generalizing entries changes with
  | nil => simp [not_hasLeaf_dict_nil]
  | cons key path ih =>
    rw [hasLeaf_cons, hasLeaf_cons, hasLeaf_cons, mergeEntries_eq, lookup_overlay keyed.entries.1]
    cases change : changes.lookup key with
    | none => simp [frees_of_absent change]
    | some value =>
      rw [frees_cons change]
      simp only [Option.elim_some, Option.some.injEq, exists_eq_left']
      rcases isDict_or value with leafy | ⟨nested, rfl⟩
      · rw [mergeValue_leaf leafy]
        simp [not_frees_leaf leafy]
      · cases held : entries.lookup key with
        | none => simp [mergeValue]
        | some old =>
          simp only [Option.some.injEq, exists_eq_left']
          rcases isDict_or old with leafy | ⟨olds, rfl⟩
          · -- The old leaf ends where the changes go on, so its path is one of theirs.
            have covered : ¬ (old.HasLeaf path leaf ∧ (dict nested).Frees path) := by
              rintro ⟨here, pathless, _⟩
              obtain ⟨rfl, _⟩ := (hasLeaf_leaf leafy).mp here
              exact pathless ⟨_, rfl⟩
            rw [mergeValue_over_leaf leafy]
            simp [covered]
          · rw [mergeValue]
            exact ih (keyed.lookup change)

theorem mergeValue_self {value : Value} (keyed : value.Keyed) : mergeValue (some value) value = value := by
  induction keyed with
  | leaf leaf => exact mergeValue_leaf leaf _
  | dict distinct nested ih => rw [mergeValue, mergeEntries_eq, overlay_self distinct ih]

theorem mergeValue_absorbs {value : Value} (keyed : value.Keyed) (held : Option Value) :
    mergeValue (some (mergeValue held value)) value = mergeValue held value := by
  induction keyed generalizing held with
  | leaf leaf => rw [mergeValue_leaf leaf, mergeValue_leaf leaf]
  | @dict entries distinct nested ih =>
    have self := mergeValue_self (.dict distinct nested)
    cases held with
    | none => exact self
    | some old =>
      rcases isDict_or old with leafy | ⟨olds, rfl⟩
      · rw [mergeValue_over_leaf leafy]
        exact self
      · rw [mergeValue, mergeValue, mergeEntries_eq, mergeEntries_eq, overlay_idem distinct ih]

/-- The result of `merge_definitions` has the leaves of the new dictionary, and those of the old
    one that neither lie on a path of the new one nor go through one of its leaves. It has no
    others, and merging the same dictionary again changes nothing. -/
theorem mergeDefinitions_deep {old new : List (String × Value)} (keyed : (dict new).Keyed) :
    ∃ merged, mergeDefinitions (dict old) (dict new) = .ok merged ∧
      (∀ path leaf, (dict new).HasLeaf path leaf → merged.HasLeaf path leaf) ∧
      (∀ path leaf, (dict old).HasLeaf path leaf → ¬ (dict new).HasPath path →
        (∀ front leaf, front <+: path → front ≠ path → ¬ (dict new).HasLeaf front leaf) →
        merged.HasLeaf path leaf) ∧
      (∀ path leaf, merged.HasLeaf path leaf → (dict new).HasLeaf path leaf ∨
        (dict old).HasLeaf path leaf ∧ ¬ (dict new).HasPath path ∧
          ∀ front leaf, front <+: path → front ≠ path → ¬ (dict new).HasLeaf front leaf) ∧
      mergeDefinitions merged (dict new) = .ok merged := by
  refine ⟨dict (mergeEntries old new), rfl, ?_, ?_, ?_, ?_⟩
  · intro path leaf here
    exact (hasLeaf_mergeEntries keyed path leaf).mpr (.inl here)
  · intro path leaf here pathless through
    exact (hasLeaf_mergeEntries keyed path leaf).mpr (.inr ⟨here, pathless, through⟩)
  · intro path leaf here
    exact (hasLeaf_mergeEntries keyed path leaf).mp here
  · have again := mergeValue_absorbs keyed (some (dict old))
    rw [mergeValue, mergeValue] at again
    exact congrArg Except.ok again

theorem mergeDefinitions_deep_labels :
    let old := [("kind", Value.str "ConfigMap"), ("metadata", .dict [("labels", .dict [("app", .str "web")])])]
    let new := [("metadata", Value.dict [("labels", .none)]), ("data", .dict [("port", .str "80")])]
    ∃ merged, mergeDefinitions (dict old) (dict new) = .ok merged ∧
      (∀ path leaf, (dict new).HasLeaf path leaf → merged.HasLeaf path leaf) ∧
      (∀ path leaf, (dict old).HasLeaf path leaf → ¬ (dict new).HasPath path →
        (∀ front leaf, front <+: path → front ≠ path → ¬ (dict new).HasLeaf front leaf) →
        merged.HasLeaf path leaf) ∧
      (∀ path leaf, merged.HasLeaf path leaf → (dict new).HasLeaf path leaf ∨
        (dict old).HasLeaf path leaf ∧ ¬ (dict new).HasPath path ∧
          ∀ front leaf, front <+: path → front ≠ path → ¬ (dict new).HasLeaf front leaf) ∧
      mergeDefinitions merged (dict new) = .ok merged := by
  intro old new
  have one {key : String} {value : Value} (keyed : value.Keyed) : (dict [(key, value)]).Keyed :=
    .dict (by simp) (List.forall_mem_singleton.mpr keyed)
  have keyed : (dict new).Keyed := by
    refine .dict (by decide) (List.forall_mem_cons.mpr ⟨?_, List.forall_mem_singleton.mpr ?_⟩)
    · exact one (.leaf rfl)
    · exact one (.leaf rfl)
  exact mergeDefinitions_deep keyed

end CloudifyKubernetes
