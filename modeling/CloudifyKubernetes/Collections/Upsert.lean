import Mathlib.Data.List.Nodup
import Mathlib.Data.List.Perm.Basic

namespace Collections

variable {α κ : Type}

def upsert (same : α → Bool) (x : α) : List α → List α
  | [] => [x]
  | y :: rest => if same y then x :: rest else y :: upsert same x rest

theorem self_mem_upsert (same : α → Bool) (x : α) (l : List α) : x ∈ upsert same x l := by
  induction l with
  | nil => simp [upsert]
  | cons y rest ih =>
    rw [upsert]
    split
    · exact List.mem_cons_self
    · exact List.mem_cons_of_mem _ ih

theorem mem_upsert {same : α → Bool} {x y : α} {l : List α} (member : y ∈ upsert same x l) :
    y = x ∨ y ∈ l := by
  induction l with
  | nil => exact .inl (List.mem_singleton.mp member)
  | cons z rest ih =>
    rw [upsert] at member
    split at member
    · rcases List.mem_cons.mp member with here | later
      · exact .inl here
      · exact .inr (List.mem_cons_of_mem _ later)
    · rcases List.mem_cons.mp member with here | later
      · exact .inr (here ▸ List.mem_cons_self)
      · exact (ih later).imp_right (List.mem_cons_of_mem _)

section Keys

variable {key : α → κ} {same : α → Bool} {x : α} {l : List α}

theorem exists_upsert_iff {R : α → κ → Prop} {k : κ} (own : ∀ m, R x m ↔ m = k)
    (replaced : ∀ y ∈ l, same y = true → ∀ m, R y m ↔ m = k) (m : κ) :
    (∃ y ∈ upsert same x l, R y m) ↔ m = k ∨ ∃ y ∈ l, R y m := by
  induction l with
  | nil => simp [upsert, own]
  | cons y rest ih =>
    obtain ⟨first, others⟩ := List.forall_mem_cons.mp replaced
    rw [upsert]
    split
    · rename_i here
      simp [own, first here]
    · simp only [List.mem_cons, or_and_right, exists_or, exists_eq_left, ih others]
      tauto

theorem mem_keys_upsert (keyed : ∀ y ∈ l, same y = true ↔ key y = key x) (k : κ) :
    k ∈ (upsert same x l).map key ↔ k = key x ∨ k ∈ l.map key := by
  rw [List.mem_map, List.mem_map]
  apply exists_upsert_iff (R := fun y m => key y = m)
  · intro m
    exact eq_comm
  · intro y member here m
    rw [(keyed y member).mp here]
    exact eq_comm

theorem nodup_upsert (keyed : ∀ y ∈ l, same y = true ↔ key y = key x) (once : (l.map key).Nodup) :
    ((upsert same x l).map key).Nodup := by
  induction l with
  | nil => simp [upsert]
  | cons y rest ih =>
    obtain ⟨first, others⟩ := List.forall_mem_cons.mp keyed
    rw [List.map_cons, List.nodup_cons] at once
    rw [upsert]
    split
    · rename_i here
      rw [List.map_cons, List.nodup_cons, ← first.mp here]
      exact once
    · rename_i other
      rw [List.map_cons, List.nodup_cons, mem_keys_upsert others]
      refine ⟨?_, ih others once.2⟩
      rintro (here | later)
      · exact other (first.mpr here)
      · exact once.1 later

theorem filter_key (keyed : ∀ y ∈ l, same y = true ↔ key y = key x) (once : (l.map key).Nodup)
    (member : x ∈ l) : l.filter same = [x] := by
  have single : ∀ y, y ∈ l.filter same ↔ y ∈ [x] := by
    intro y
    rw [List.mem_filter, List.mem_singleton]
    constructor
    · rintro ⟨inside, here⟩
      exact List.inj_on_of_nodup_map once inside member ((keyed y inside).mp here)
    · rintro rfl
      exact ⟨member, (keyed y member).mpr rfl⟩
  have permuted := (List.perm_ext_iff_of_nodup (once.of_map.filter _) (List.nodup_singleton x)).mpr single
  exact List.perm_singleton.mp permuted

end Keys

end Collections
