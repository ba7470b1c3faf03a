import Mathlib.Data.List.Chain
import Mathlib.Tactic.Tauto

namespace Collections

variable {α : Type} (p : α → Bool)

/-- The loop with its position: a deletion moves what is behind it to the position that the
    loop is about to leave. -/
def sweepAt (position : Nat) (l : List α) : List α :=
  if inside : position < l.length then
    if p l[position] then sweepAt (position + 1) (l.eraseIdx position)
    else sweepAt (position + 1) l
  else l
termination_by l.length - position
decreasing_by
  · rw [List.length_eraseIdx_of_lt inside]
    omega
  · omega

def sweep : List α → List α
  | [] => []
  | [x] => if p x then [] else [x]
  | x :: y :: rest => if p x then y :: sweep rest else x :: sweep (y :: rest)

variable {p}

theorem sweepAt_end {position : Nat} {l : List α} (past : l.length ≤ position) : sweepAt p position l = l := by
  rw [sweepAt, dif_neg (by omega)]

theorem sweepAt_found {x : α} (found : p x = true) (front rest : List α) :
    sweepAt p front.length (front ++ x :: rest) = sweepAt p (front.length + 1) (front ++ rest) := by
  have inside : front.length < (front ++ x :: rest).length := by simp
  have here : (front ++ x :: rest)[front.length] = x := by simp
  have left : (front ++ x :: rest).eraseIdx front.length = front ++ rest := by
    rw [List.eraseIdx_append_of_length_le (Nat.le_refl _), Nat.sub_self, List.eraseIdx_cons_zero]
  rw [sweepAt, dif_pos inside, here, if_pos found, left]

theorem sweepAt_other {x : α} (other : ¬ p x = true) (front rest : List α) :
    sweepAt p front.length (front ++ x :: rest) = sweepAt p (front.length + 1) (front ++ x :: rest) := by
  have inside : front.length < (front ++ x :: rest).length := by simp
  have here : (front ++ x :: rest)[front.length] = x := by simp
  rw [sweepAt, dif_pos inside, here, if_neg other]

theorem sweepAt_append (front l : List α) : sweepAt p front.length (front ++ l) = front ++ sweep p l := by
  induction l using sweep.induct p generalizing front with
  | case1 =>
    apply sweepAt_end
    simp
  | case2 x found =>
    rw [sweepAt_found found, sweep, if_pos found]
    apply sweepAt_end
    simp
  | case3 x other =>
    rw [sweepAt_other other, sweep, if_neg other]
    apply sweepAt_end
    simp
  | case4 x y rest found ih =>
    have later := ih (front ++ [y])
    simp only [List.length_append, List.length_singleton, List.append_assoc, List.singleton_append] at later
    rw [sweepAt_found found, sweep, if_pos found]
    exact later
  | case5 x y rest other ih =>
    have later := ih (front ++ [x])
    simp only [List.length_append, List.length_singleton, List.append_assoc, List.singleton_append] at later
    rw [sweepAt_other other, sweep, if_neg other]
    exact later

theorem sweepAt_zero (l : List α) : sweepAt p 0 l = sweep p l :=
  sweepAt_append [] l

theorem filter_sweep (l : List α) : (sweep p l).filter (fun x => !p x) = l.filter fun x => !p x := by
  induction l using sweep.induct p with
  | case1 => rfl
  | case2 x found => simp [sweep, found]
  | case3 x other => simp [sweep, other]
  | case4 x y rest found ih =>
    rw [sweep, if_pos found, List.filter_cons, List.filter_cons, List.filter_cons, ih]
    simp [found]
  | case5 x y rest other ih =>
    rw [sweep, if_neg other, List.filter_cons, List.filter_cons (x := x), ih]

def Apart (p : α → Bool) (l : List α) : Prop :=
  l.IsChain fun x y => ¬ (p x = true ∧ p y = true)

instance (l : List α) : Decidable (Apart p l) :=
  inferInstanceAs (Decidable (l.IsChain fun x y => ¬ (p x = true ∧ p y = true)))

theorem apart_cons_iff {x : α} (other : ¬ p x = true) (l : List α) : Apart p (x :: l) ↔ Apart p l := by
  cases l with
  | nil => simp [Apart]
  | cons y rest => simp [Apart, other]

theorem sweep_finds_iff (l : List α) : (∀ x ∈ sweep p l, ¬ p x = true) ↔ Apart p l := by
  induction l using sweep.induct p with
  | case1 => simp [sweep, Apart]
  | case2 x found => simp [sweep, found, Apart]
  | case3 x other => simp [sweep, other, Apart]
  | case4 x y rest found ih =>
    rw [sweep, if_pos found, List.forall_mem_cons, ih]
    by_cases next : p y = true
    · simp [Apart, found, next]
    · rw [← apart_cons_iff next rest]
      simp [Apart, next]
  | case5 x y rest other ih =>
    rw [sweep, if_neg other, List.forall_mem_cons, ih, apart_cons_iff other]
    simp [other]

theorem sweep_eq_filter_iff (l : List α) : sweep p l = l.filter (fun x => !p x) ↔ Apart p l := by
  rw [← filter_sweep l, eq_comm, List.filter_eq_self, ← sweep_finds_iff l]
  simp

end Collections
