import CloudifyKubernetes.Collections.OrderedDict

namespace Collections

variable {κ ν : Type} [DecidableEq κ]

theorem assign_of_lookup {key : κ} {value : ν} {entries : List (κ × ν)}
    (held : entries.lookup key = some value) : assign key value entries = entries := by
  induction entries with
  | nil => cases held
  | cons entry rest ih =>
    obtain ⟨k, v⟩ := entry
    by_cases here : k = key
    · subst here
      rw [List.lookup_cons_self] at held
      cases held
      simp [assign]
    · rw [lookup_cons_ne v rest fun same => here same.symm] at held
      simp only [assign, here, if_false, ih held]

theorem lookup_isSome_iff {key : κ} {entries : List (κ × ν)} :
    (entries.lookup key).isSome = true ↔ key ∈ entries.map Prod.fst := by
  induction entries with
  | nil => simp
  | cons entry rest ih =>
    obtain ⟨k, v⟩ := entry
    by_cases here : key = k
    · subst here
      simp
    · rw [lookup_cons_ne v rest here, ih]
      simp [here]

theorem mem_of_lookup {key : κ} {value : ν} {entries : List (κ × ν)}
    (held : entries.lookup key = some value) : (key, value) ∈ entries := by
  induction entries with
  | nil => cases held
  | cons entry rest ih =>
    obtain ⟨k, v⟩ := entry
    by_cases here : key = k
    · subst here
      rw [List.lookup_cons_self] at held
      cases held
      exact List.mem_cons_self
    · rw [lookup_cons_ne v rest here] at held
      exact List.mem_cons_of_mem _ (ih held)

theorem lookup_of_mem {key : κ} {value : ν} {entries : List (κ × ν)} (distinct : (entries.map Prod.fst).Nodup)
    (member : (key, value) ∈ entries) : entries.lookup key = some value :=
  ((OrderedDict.mk entries distinct).mem_items_iff key value).mp member

/-- Lists with the same entries, each of a key of its own, have the same value for every key. -/
theorem lookup_congr {left right : List (κ × ν)} (distinct : (left.map Prod.fst).Nodup)
    (distinct' : (right.map Prod.fst).Nodup) (same : ∀ entry, entry ∈ left ↔ entry ∈ right) (key : κ) :
    left.lookup key = right.lookup key := by
  ext value
  constructor
  · intro held
    exact lookup_of_mem distinct' ((same _).mp (mem_of_lookup held))
  · intro held
    exact lookup_of_mem distinct ((same _).mpr (mem_of_lookup held))

def overlay (combine : Option ν → ν → ν) : List (κ × ν) → List (κ × ν) → List (κ × ν)
  | entries, [] => entries
  | entries, (key, value) :: rest => overlay combine (assign key (combine (entries.lookup key) value) entries) rest

section

variable {combine : Option ν → ν → ν} {entries changes : List (κ × ν)}

theorem lookup_overlay (distinct : (changes.map Prod.fst).Nodup) (key : κ) :
    (overlay combine entries changes).lookup key =
      (changes.lookup key).elim (entries.lookup key) fun value => some (combine (entries.lookup key) value) := by
  induction changes generalizing entries with
  | nil => rfl
  | cons change rest ih =>
    obtain ⟨k, v⟩ := change
    rw [List.map_cons, List.nodup_cons] at distinct
    rw [overlay, ih distinct.2, lookup_assign]
    by_cases here : key = k
    · subst here
      have absent : rest.lookup key = none := by
        rw [← Option.not_isSome_iff_eq_none, lookup_isSome_iff]
        exact distinct.1
      rw [absent, List.lookup_cons_self, if_pos rfl]
      rfl
    · rw [lookup_cons_ne v rest here, if_neg here]

theorem nodup_overlay (changes : List (κ × ν)) (distinct : (entries.map Prod.fst).Nodup) :
    ((overlay combine entries changes).map Prod.fst).Nodup := by
  induction changes generalizing entries with
  | nil => exact distinct
  | cons change rest ih =>
    obtain ⟨k, v⟩ := change
    exact ih (nodup_assign k _ entries distinct)

theorem overlay_of_held (held : ∀ change ∈ changes, ∃ value, entries.lookup change.1 = some value ∧
    combine (some value) change.2 = value) : overlay combine entries changes = entries := by
  induction changes with
  | nil => rfl
  | cons change rest ih =>
    obtain ⟨k, v⟩ := change
    obtain ⟨⟨value, here, absorbed⟩, others⟩ := List.forall_mem_cons.mp held
    dsimp only at here absorbed
    rw [overlay, here, absorbed, assign_of_lookup here]
    exact ih others

theorem overlay_idem (distinct : (changes.map Prod.fst).Nodup)
    (absorbs : ∀ change ∈ changes, ∀ held, combine (some (combine held change.2)) change.2 = combine held change.2) :
    overlay combine (overlay combine entries changes) changes = overlay combine entries changes := by
  apply overlay_of_held
  rintro ⟨key, value⟩ member
  refine ⟨combine (entries.lookup key) value, ?_, absorbs _ member _⟩
  rw [lookup_overlay distinct, lookup_of_mem distinct member]
  rfl

theorem overlay_self (distinct : (entries.map Prod.fst).Nodup)
    (absorbs : ∀ entry ∈ entries, combine (some entry.2) entry.2 = entry.2) :
    overlay combine entries entries = entries := by
  apply overlay_of_held
  rintro ⟨key, value⟩ member
  exact ⟨value, lookup_of_mem distinct member, absorbs _ member⟩

end

end Collections
