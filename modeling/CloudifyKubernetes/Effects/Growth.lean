import Mathlib.Logic.Relation

namespace Effects

theorem growth_split {ι : Type} {log middle last whole front back : List ι} (grown : last = log ++ whole)
    (first : middle = log ++ front) (second : last = middle ++ back) : whole = front ++ back := by
  rw [second, first, List.append_assoc] at grown
  exact (List.append_cancel_left grown).symm

section

variable {σ ι : Type} {log : σ → List ι} {cause effect : ι → Prop} {s s' : σ}

def Grows (log : σ → List ι) (cause effect : ι → Prop) (s s' : σ) : Prop :=
  ∃ events, log s' = log s ++ events ∧ ((∃ e ∈ events, effect e) ↔ ∃ e ∈ events, cause e)

namespace Grows

instance : Std.Refl (Grows log cause effect) := ⟨fun s => ⟨[], by simp, by simp⟩⟩

instance : IsTrans σ (Grows log cause effect) where
  trans s s' s'' first second := by
    obtain ⟨events, grown, balanced⟩ := first
    obtain ⟨events', grown', balanced'⟩ := second
    refine ⟨events ++ events', by rw [grown', grown, List.append_assoc], ?_⟩
    simp only [List.mem_append, or_and_right, exists_or, balanced, balanced']

theorem of_same {events : List ι} (grown : log s' = log s ++ events)
    (same : ∀ e ∈ events, effect e ↔ cause e) : Grows log cause effect s s' := by
  refine ⟨events, grown, exists_congr fun e => ?_⟩
  constructor
  · rintro ⟨member, effects⟩
    exact ⟨member, (same e member).mp effects⟩
  · rintro ⟨member, causes⟩
    exact ⟨member, (same e member).mpr causes⟩

theorem of_neutral {events : List ι} (grown : log s' = log s ++ events)
    (neutral : ∀ e ∈ events, ¬ effect e ∧ ¬ cause e) : Grows log cause effect s s' :=
  of_same grown fun e member => iff_of_false (neutral e member).1 (neutral e member).2

theorem of_both {events : List ι} (grown : log s' = log s ++ events)
    (effected : ∃ e ∈ events, effect e) (caused : ∃ e ∈ events, cause e) :
    Grows log cause effect s s' := ⟨events, grown, iff_of_true effected caused⟩

theorem of_eq (same : log s' = log s) : Grows log cause effect s s' :=
  of_neutral (show log s' = log s ++ [] by rw [same, List.append_nil]) (by simp)

theorem iff_of_empty (grows : Grows log cause effect s s') (empty : log s = []) :
    (∃ e ∈ log s', effect e) ↔ ∃ e ∈ log s', cause e := by
  obtain ⟨events, grown, balanced⟩ := grows
  rwa [grown, empty, List.nil_append]

end Grows

end

end Effects
