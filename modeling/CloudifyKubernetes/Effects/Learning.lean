import CloudifyKubernetes.Effects.Program
import Mathlib.Order.Basic

namespace Effects

namespace Program

variable {σ τ ε α β κ : Type} [Preorder κ]

/-- From every state of the invariant in which at least `known` is known, a run keeps the invariant and
    what is known, and what it returns has the property by all that is known in the end. -/
def Learns (knowledge : σ → κ) (invariant : σ → Prop) (known : κ) (p : Program σ ε α) (ok : κ → α → Prop) : Prop :=
  Triple (fun s => invariant s ∧ known ≤ knowledge s) p
    (fun value s => ok (knowledge s) value ∧ invariant s ∧ known ≤ knowledge s)
    fun _ s => invariant s ∧ known ≤ knowledge s

namespace Learns

variable {knowledge : σ → κ} {invariant : σ → Prop} {known : κ} {P : κ → α → Prop} {Q : κ → β → Prop}

theorem of_run {p : Program σ ε α}
    (kept : ∀ s, invariant s → known ≤ knowledge s → invariant (p s).2 ∧ knowledge s ≤ knowledge (p s).2)
    (returned : ∀ s, invariant s → known ≤ knowledge s → ∀ value, (p s).1 = .ok value → P (knowledge (p s).2) value) :
    Learns knowledge invariant known p P := by
  intro s holds
  have kept := kept s holds.1 holds.2
  have returned := returned s holds.1 holds.2
  generalize p s = ran at kept returned ⊢
  obtain ⟨e | value, s'⟩ := ran
  · exact ⟨kept.1, holds.2.trans kept.2⟩
  · exact ⟨returned value rfl, kept.1, holds.2.trans kept.2⟩

theorem kept {p : Program σ ε α} (learns : Learns knowledge invariant known p P) {s : σ} (holds : invariant s)
    (above : known ≤ knowledge s) : invariant (p s).2 := by
  have step := learns s ⟨holds, above⟩
  generalize p s = ran at step ⊢
  obtain ⟨e | value, s'⟩ := ran
  · exact step.1
  · exact step.2.1

theorem weaken {P' : κ → α → Prop} {p : Program σ ε α} (learns : Learns knowledge invariant known p P')
    (weaker : ∀ known value, P' known value → P known value) : Learns knowledge invariant known p P :=
  Triple.weaken learns (fun _ holds => holds) (fun value _ found => ⟨weaker _ value found.1, found.2⟩) fun _ _ kept => kept

theorem pure {value : α} (fine : ∀ known', known ≤ known' → P known' value) :
    Learns knowledge invariant known (Pure.pure value : Program σ ε α) P :=
  fun s holds => ⟨fine (knowledge s) holds.2, holds⟩

theorem raise (e : ε) : Learns knowledge invariant known (Program.raise e : Program σ ε α) P := fun _ holds => holds

theorem ofExcept {result : Except ε α} (fine : ∀ known' value, known ≤ known' → result = .ok value → P known' value) :
    Learns knowledge invariant known (Program.ofExcept result : Program σ ε α) P := by
  intro s holds
  rw [ofExcept_run]
  cases result with
  | error e => exact holds
  | ok value => exact ⟨fine (knowledge s) value holds.2 rfl, holds⟩

theorem modify {f : σ → σ} (moves : ∀ s, invariant s → known ≤ knowledge s → invariant (f s))
    (same : ∀ s, knowledge (f s) = knowledge s) :
    Learns knowledge invariant known (Program.modify f : Program σ ε Unit) fun _ _ => True :=
  fun s holds => ⟨trivial, moves s holds.1 holds.2, (same s).symm ▸ holds.2⟩

theorem bind {p : Program σ ε α} {next : α → Program σ ε β} (first : Learns knowledge invariant known p P)
    (rest : ∀ known' value, known ≤ known' → P known' value → Learns knowledge invariant known' (next value) Q) :
    Learns knowledge invariant known (p >>= next) Q := by
  intro s holds
  have step := first s holds
  rw [bind_run]
  generalize p s = ran at step ⊢
  obtain ⟨e | value, middle⟩ := ran
  · exact step
  · have later := rest (knowledge middle) value step.2.2 step.1 middle ⟨step.2.1, le_refl _⟩
    dsimp only
    generalize next value middle = ran at later ⊢
    obtain ⟨e | result, s'⟩ := ran
    · exact ⟨later.1, step.2.2.trans later.2⟩
    · exact ⟨later.1, later.2.1, step.2.2.trans later.2.2⟩

theorem attempt {p : Program σ ε α} (inner : Learns knowledge invariant known p P) :
    Learns knowledge invariant known p.attempt fun known' result => ∀ value, result = .ok value → P known' value := by
  intro s holds
  have step := inner s holds
  rw [attempt_run]
  generalize p s = ran at step ⊢
  obtain ⟨e | value, s'⟩ := ran
  · refine ⟨?_, step⟩
    intro value same
    cases same
  · refine ⟨?_, step.2⟩
    intro value same
    cases same
    exact step.1

theorem forEach {items : List α} {body : α → Program σ ε β}
    (each : ∀ a ∈ items, ∀ known', known ≤ known' → Learns knowledge invariant known' (body a) Q) :
    Learns knowledge invariant known (Program.forEach items body) fun _ _ => True := by
  induction items generalizing known with
  | nil => exact pure fun _ _ => trivial
  | cons a rest ih =>
    obtain ⟨first, others⟩ := List.forall_mem_cons.mp each
    apply bind (first known (le_refl _))
    intro middle b above _
    refine bind (ih fun other member known' later => others other member known' (above.trans later)) fun _ _ _ _ => ?_
    exact pure fun _ _ => trivial

theorem onFirst {K : τ → Prop} {p : Program σ ε α} (inner : Learns knowledge invariant known p P) :
    Learns (fun s : σ × τ => knowledge s.1) (fun s => invariant s.1 ∧ K s.2) known (Program.onFirst p) P := by
  intro s holds
  have step := inner s.1 ⟨holds.1.1, holds.2⟩
  change Outcome _ _ ((p s.1).1, ((p s.1).2, s.2))
  generalize p s.1 = ran at step ⊢
  obtain ⟨e | value, s'⟩ := ran
  · exact ⟨⟨step.1, holds.1.2⟩, step.2⟩
  · exact ⟨step.1, ⟨step.2.1, holds.1.2⟩, step.2.2⟩

end Learns

end Program

end Effects
