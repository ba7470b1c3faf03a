import CloudifyKubernetes.Effects.Program

namespace Effects

namespace Program

variable {σ τ ε α β : Type}

def Yields (invariant : σ → Prop) (p : Program σ ε α) (ok : α → Prop) : Prop :=
  Triple invariant p (fun value s => ok value ∧ invariant s) fun _ => invariant

namespace Yields

variable {invariant : σ → Prop} {P : α → Prop} {Q : β → Prop}

theorem of_run {p : Program σ ε α} (kept : ∀ s, invariant s → invariant (p s).2)
    (returned : ∀ s, invariant s → ∀ value, (p s).1 = .ok value → P value) : Yields invariant p P := by
  intro s holds
  have kept := kept s holds
  have returned := returned s holds
  generalize p s = ran at kept returned ⊢
  obtain ⟨e | value, s'⟩ := ran
  · exact kept
  · exact ⟨returned value rfl, kept⟩

theorem kept {p : Program σ ε α} (yields : Yields invariant p P) {s : σ} (holds : invariant s) :
    invariant (p s).2 := by
  have step := yields s holds
  generalize p s = ran at step ⊢
  obtain ⟨e | value, s'⟩ := ran
  · exact step
  · exact step.2

theorem pure {value : α} (fine : P value) : Yields invariant (Pure.pure value : Program σ ε α) P :=
  fun _ holds => ⟨fine, holds⟩

theorem raise (e : ε) : Yields invariant (Program.raise e : Program σ ε α) P := fun _ holds => holds

theorem ofExcept {result : Except ε α} (fine : ∀ value, result = .ok value → P value) :
    Yields invariant (Program.ofExcept result : Program σ ε α) P := by
  intro s holds
  rw [ofExcept_run]
  cases result with
  | error e => exact holds
  | ok value => exact ⟨fine value rfl, holds⟩

theorem modify {f : σ → σ} (moves : ∀ s, invariant s → invariant (f s)) :
    Yields invariant (Program.modify f : Program σ ε Unit) fun _ => True :=
  fun s holds => ⟨trivial, moves s holds⟩

theorem bind {p : Program σ ε α} {next : α → Program σ ε β} (first : Yields invariant p P)
    (rest : ∀ value, P value → Yields invariant (next value) Q) : Yields invariant (p >>= next) Q := by
  apply Triple.bind first
  intro value s holds
  exact rest value holds.1 s holds.2

theorem attempt {p : Program σ ε α} (inner : Yields invariant p P) :
    Yields invariant p.attempt fun result => ∀ value, result = .ok value → P value := by
  intro s holds
  have step := inner s holds
  rw [attempt_run]
  generalize p s = ran at step ⊢
  obtain ⟨e | value, s'⟩ := ran
  · refine ⟨?_, step⟩
    intro value same
    cases same
  · refine ⟨?_, step.2⟩
    intro value same
    cases same
    exact step.1

theorem forEach {items : List α} {body : α → Program σ ε β} (each : ∀ a ∈ items, Yields invariant (body a) Q) :
    Yields invariant (Program.forEach items body) fun _ => True := by
  induction items with
  | nil => exact pure trivial
  | cons a rest ih =>
    apply bind (each a List.mem_cons_self)
    intro b _
    apply bind (ih fun other member => each other (List.mem_cons_of_mem _ member))
    intro bs _
    exact pure trivial

theorem onFirst {K : τ → Prop} {p : Program σ ε α} (inner : Yields invariant p P) :
    Yields (fun s : σ × τ => invariant s.1 ∧ K s.2) (Program.onFirst p) P := by
  intro s holds
  have step := inner s.1 holds.1
  change Outcome _ _ ((p s.1).1, ((p s.1).2, s.2))
  generalize p s.1 = ran at step ⊢
  obtain ⟨e | value, s'⟩ := ran
  · exact ⟨step, holds.2⟩
  · exact ⟨step.1, step.2, holds.2⟩

end Yields

end Program

end Effects
