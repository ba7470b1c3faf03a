import Mathlib.Data.List.Nodup
import Mathlib.Data.List.Perm.Subperm

namespace Collections

variable {κ ν : Type} [DecidableEq κ]

/-- Assignment of one key in an insertion-ordered association list: a present key
    keeps its position, a new key goes to the end. -/
def assign (key : κ) (value : ν) : List (κ × ν) → List (κ × ν)
  | [] => [(key, value)]
  | (k, v) :: rest => if k = key then (key, value) :: rest else (k, v) :: assign key value rest

theorem lookup_cons_ne {key other : κ} (value : ν) (rest : List (κ × ν)) (different : other ≠ key) :
    ((key, value) :: rest).lookup other = rest.lookup other := by
  have test : (other == key) = false := beq_eq_false_iff_ne.mpr different
  rw [List.lookup_cons, test]

theorem lookup_assign (key other : κ) (value : ν) (entries : List (κ × ν)) :
    (assign key value entries).lookup other =
      if other = key then some value else entries.lookup other := by
  induction entries with
  | nil => by_cases same : other = key <;> simp [assign, same]
  | cons entry rest ih =>
    obtain ⟨k, v⟩ := entry
    by_cases here : k = key
    · subst here
      by_cases same : other = k
      · simp [assign, same]
      · simp [assign, lookup_cons_ne _ _ same, same]
    · by_cases same : other = k
      · subst same
        simp [assign, here]
      · simp [assign, here, lookup_cons_ne _ _ same, ih]

theorem keys_assign (key : κ) (value : ν) (entries : List (κ × ν)) (k : κ) :
    k ∈ (assign key value entries).map Prod.fst ↔ k = key ∨ k ∈ entries.map Prod.fst := by
  induction entries with
  | nil => simp [assign]
  | cons entry rest ih =>
    obtain ⟨head, v⟩ := entry
    by_cases here : head = key
    · subst here
      simp [assign]
    · simp only [assign, here, if_false, List.map_cons, List.mem_cons, ih]
      tauto

theorem assign_of_absent {key : κ} {entries : List (κ × ν)} (absent : key ∉ entries.map Prod.fst) (value : ν) :
    assign key value entries = entries ++ [(key, value)] := by
  induction entries with
  | nil => rfl
  | cons entry rest ih =>
    obtain ⟨k, v⟩ := entry
    rw [List.map_cons, List.mem_cons, not_or] at absent
    rw [assign, if_neg fun same => absent.1 same.symm, ih absent.2]
    rfl

theorem nodup_assign (key : κ) (value : ν) (entries : List (κ × ν))
    (distinct : (entries.map Prod.fst).Nodup) :
    ((assign key value entries).map Prod.fst).Nodup := by
  induction entries with
  | nil => simp [assign]
  | cons entry rest ih =>
    obtain ⟨head, v⟩ := entry
    rw [List.map_cons, List.nodup_cons] at distinct
    by_cases here : head = key
    · subst here
      simpa [assign] using distinct
    · simp only [assign, here, if_false, List.map_cons, List.nodup_cons]
      refine ⟨?_, ih distinct.2⟩
      rw [keys_assign]
      rintro (same | member)
      · exact here same
      · exact distinct.1 member

theorem forall_mem_assign {P : ν → Prop} {key : κ} {value : ν} {entries : List (κ × ν)} (here : P value)
    (others : ∀ e ∈ entries, P e.2) : ∀ e ∈ assign key value entries, P e.2 := by
  induction entries with
  | nil => exact List.forall_mem_cons.mpr ⟨here, List.forall_mem_nil _⟩
  | cons first rest ih =>
    obtain ⟨k, v⟩ := first
    obtain ⟨head, tail⟩ := List.forall_mem_cons.mp others
    rw [assign]
    split
    · exact List.forall_mem_cons.mpr ⟨here, tail⟩
    · exact List.forall_mem_cons.mpr ⟨head, ih tail⟩

structure OrderedDict (κ ν : Type) where
  items : List (κ × ν)
  distinct : (items.map Prod.fst).Nodup

namespace OrderedDict

def empty : OrderedDict κ ν := ⟨[], List.nodup_nil⟩

def get? (d : OrderedDict κ ν) (key : κ) : Option ν := d.items.lookup key

def contains (d : OrderedDict κ ν) (key : κ) : Bool := (d.get? key).isSome

def keys (d : OrderedDict κ ν) : List κ := d.items.map Prod.fst

def set (d : OrderedDict κ ν) (key : κ) (value : ν) : OrderedDict κ ν :=
  ⟨assign key value d.items, nodup_assign key value d.items d.distinct⟩

def filter (keep : κ → ν → Bool) (d : OrderedDict κ ν) : OrderedDict κ ν :=
  ⟨d.items.filter (fun e => keep e.1 e.2), d.distinct.sublist (List.filter_sublist.map _)⟩

def erase (d : OrderedDict κ ν) (key : κ) : OrderedDict κ ν :=
  d.filter (fun k _ => k ≠ key)

def ofEntries (entries : List (κ × ν)) : OrderedDict κ ν :=
  entries.foldl (fun d e => d.set e.1 e.2) empty

def isEmpty (d : OrderedDict κ ν) : Bool := d.items.isEmpty

omit [DecidableEq κ] in
@[ext] theorem ext {left right : OrderedDict κ ν} (same : left.items = right.items) :
    left = right := by
  cases left
  cases right
  cases same
  rfl

@[simp] theorem get?_empty (key : κ) : (empty : OrderedDict κ ν).get? key = none := rfl

theorem get?_set (d : OrderedDict κ ν) (key other : κ) (value : ν) :
    (d.set key value).get? other = if other = key then some value else d.get? other :=
  lookup_assign key other value d.items

@[simp] theorem get?_set_self (d : OrderedDict κ ν) (key : κ) (value : ν) :
    (d.set key value).get? key = some value := by simp [get?_set]

theorem get?_set_ne (d : OrderedDict κ ν) {key other : κ} (value : ν) (different : other ≠ key) :
    (d.set key value).get? other = d.get? other := by simp [get?_set, different]

theorem mem_items_iff (d : OrderedDict κ ν) (key : κ) (value : ν) :
    (key, value) ∈ d.items ↔ d.get? key = some value := by
  obtain ⟨items, distinct⟩ := d
  simp only [get?]
  induction items with
  | nil => simp
  | cons entry rest ih =>
    obtain ⟨k, v⟩ := entry
    rw [List.map_cons, List.nodup_cons] at distinct
    by_cases here : key = k
    · subst here
      have absent : (key, value) ∉ rest := fun member =>
        distinct.1 (List.mem_map.mpr ⟨(key, value), member, rfl⟩)
      simp [absent, eq_comm]
    · rw [lookup_cons_ne v rest here, ← ih distinct.2]
      simp [here]

theorem get?_filter (d : OrderedDict κ ν) (keep : κ → ν → Bool) (key : κ) :
    (d.filter keep).get? key = (d.get? key).filter (keep key) := by
  ext value
  rw [← mem_items_iff, Option.filter_eq_some_iff, ← mem_items_iff]
  simp [filter]

omit [DecidableEq κ] in
theorem mem_filter_iff (d : OrderedDict κ ν) (keep : κ → ν → Bool) (e : κ × ν) :
    e ∈ (d.filter keep).items ↔ e ∈ d.items ∧ keep e.1 e.2 = true := List.mem_filter

theorem mem_erase_iff (d : OrderedDict κ ν) (key : κ) (e : κ × ν) :
    e ∈ (d.erase key).items ↔ e ∈ d.items ∧ e.1 ≠ key := by
  rw [erase, mem_filter_iff, decide_eq_true_iff]

theorem eq_of_key_eq (d : OrderedDict κ ν) {e e' : κ × ν} (here : e ∈ d.items) (there : e' ∈ d.items)
    (same : e.1 = e'.1) : e = e' := by
  obtain ⟨key, value⟩ := e
  obtain ⟨key', value'⟩ := e'
  obtain rfl : key = key' := same
  rw [mem_items_iff] at here there
  rw [Option.some.inj (here.symm.trans there)]

theorem get?_erase (d : OrderedDict κ ν) (key other : κ) :
    (d.erase key).get? other = if other = key then none else d.get? other := by
  rw [erase, get?_filter]
  by_cases same : other = key
  · simp [same]
  · cases d.get? other <;> simp [same]

theorem mem_keys_iff (d : OrderedDict κ ν) (key : κ) :
    key ∈ d.keys ↔ ∃ value, d.get? key = some value := by
  simp [keys, ← mem_items_iff]

theorem contains_iff (d : OrderedDict κ ν) (key : κ) :
    d.contains key = true ↔ ∃ value, d.get? key = some value := by
  simp [contains, Option.isSome_iff_exists]

theorem get?_collect {entries : List (κ × ν)} {key : κ} {value : ν} (d : OrderedDict κ ν)
    (found : (entries.foldl (fun d e => d.set e.1 e.2) d).get? key = some value) :
    (key, value) ∈ entries ∨ d.get? key = some value := by
  induction entries generalizing d with
  | nil => exact .inr found
  | cons e rest ih =>
    rcases ih (d.set e.1 e.2) found with later | here
    · exact .inl (List.mem_cons_of_mem _ later)
    · rw [get?_set] at here
      split at here
      · rename_i same
        cases here
        exact .inl (by rw [same]; exact List.mem_cons_self)
      · exact .inr here

theorem mem_of_get?_ofEntries {entries : List (κ × ν)} {key : κ} {value : ν}
    (found : (ofEntries entries).get? key = some value) : (key, value) ∈ entries := by
  rcases get?_collect empty found with member | none
  · exact member
  · cases none

theorem items_collect {changes : List (κ × ν)} {d : OrderedDict κ ν}
    (distinct : ((d.items ++ changes).map Prod.fst).Nodup) :
    (changes.foldl (fun d e => d.set e.1 e.2) d).items = d.items ++ changes := by
  induction changes generalizing d with
  | nil => simp
  | cons change rest ih =>
    obtain ⟨key, value⟩ := change
    have absent : key ∉ d.items.map Prod.fst := by
      intro member
      rw [List.map_append, List.nodup_append] at distinct
      exact distinct.2.2 key member key (by simp) rfl
    have items : (d.set key value).items = d.items ++ [(key, value)] := assign_of_absent absent value
    have whole : (d.set key value).items ++ rest = d.items ++ (key, value) :: rest := by
      rw [items, List.append_assoc]
      rfl
    rw [List.foldl_cons, ih (whole ▸ distinct), whole]

theorem items_ofEntries {entries : List (κ × ν)} (distinct : (entries.map Prod.fst).Nodup) :
    (ofEntries entries).items = entries :=
  items_collect distinct

omit [DecidableEq κ] in
theorem isEmpty_iff (d : OrderedDict κ ν) : d.isEmpty = true ↔ d = empty := by
  rw [isEmpty, List.isEmpty_iff]
  exact ⟨fun none => ext none, fun same => by rw [same, empty]⟩

theorem length_le {d inner : OrderedDict κ ν} (inside : ∀ key value, inner.get? key = some value → d.get? key = some value) :
    inner.items.length ≤ d.items.length := by
  have subset : inner.items.map Prod.fst ⊆ d.items.map Prod.fst := by
    intro key named
    obtain ⟨e, member, rfl⟩ := List.mem_map.mp named
    have recorded := inside e.1 e.2 ((mem_items_iff inner e.1 e.2).mp member)
    exact List.mem_map_of_mem ((mem_items_iff d e.1 e.2).mpr recorded)
  have shorter := (inner.distinct.subperm subset).length_le
  rwa [List.length_map, List.length_map] at shorter

theorem length_lt {d inner : OrderedDict κ ν} (inside : ∀ key value, inner.get? key = some value → d.get? key = some value)
    {key : κ} {value : ν} (there : d.get? key = some value) (gone : inner.get? key = none) :
    inner.items.length < d.items.length := by
  have shorter : inner.items.length ≤ (d.erase key).items.length := by
    apply length_le
    intro other found recorded
    have different : other ≠ key := by
      intro same
      rw [same, gone] at recorded
      cases recorded
    rw [get?_erase, if_neg different]
    exact inside other found recorded
  have fewer : (d.erase key).items.length < d.items.length := by
    apply List.length_filter_lt_length_iff_exists.mpr
    refine ⟨(key, value), (mem_items_iff d key value).mpr there, ?_⟩
    simp
  omega

end OrderedDict

end Collections
