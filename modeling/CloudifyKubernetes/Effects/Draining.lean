import Mathlib.Order.WellFounded

namespace Effects

section

variable {σ : Type}

def behind (attempt : Nat → σ → σ) (s : σ) : Nat → σ
  | 0 => s
  | n + 1 => attempt n (behind attempt s n)

theorem behind_succ (attempt : Nat → σ → σ) (s : σ) (n : Nat) :
    behind attempt s (n + 1) = behind (fun m => attempt (m + 1)) (attempt 0 s) n := by
  induction n with
  | zero => rfl
  | succ n ih =>
    show attempt (n + 1) (behind attempt s (n + 1)) = attempt (n + 1) _
    rw [ih]

/-- If every attempt is through or leaves less behind, one of them is through. Where every attempt
    that is not through lowers the size, it is among the first so many. -/
theorem exists_through {less : σ → σ → Prop} (descends : WellFounded less) (invariant : σ → Prop) (lowers : Prop)
    (size : σ → Nat) (attempt : Nat → σ → σ) (through : Nat → σ → Prop)
    (drains : ∀ n s, invariant s → through n s ∨
      invariant (attempt n s) ∧ less (attempt n s) s ∧ (lowers → size (attempt n s) < size s))
    {s : σ} (holds : invariant s) : ∃ n, (lowers → n ≤ size s) ∧ through n (behind attempt s n) := by
  induction s using descends.induction generalizing attempt through with
  | _ s ih =>
    rcases drains 0 s holds with done | ⟨kept, lower, lowered⟩
    · exact ⟨0, fun _ => Nat.zero_le _, done⟩
    · obtain ⟨n, early, done⟩ := ih (attempt 0 s) lower (fun m => attempt (m + 1)) (fun m => through (m + 1))
        (fun m => drains (m + 1)) kept
      refine ⟨n + 1, ?_, ?_⟩
      · intro lowers
        have here := early lowers
        have there := lowered lowers
        omega
      · rw [behind_succ]
        exact done

end

end Effects
