import CloudifyKubernetes.Effects.Program

namespace Effects

open Program

section

variable {σ τ ι κ ε α β : Type}

/-- What a run enters in the log counts for some of the expected items, in their order. If all
    events are fine the run returns, and has entered them all if it is to be complete. -/
def Enters (log : σ → List ι) (counts : ι → Option κ) (fine : ι → Prop) (complete : Prop) (expected : List κ)
    (s : σ) (ran : Except ε α × σ) : Prop :=
  ∃ events, log ran.2 = log s ++ events ∧ (events.filterMap counts).Sublist expected ∧
    ((∀ e ∈ events, fine e) → (∃ value, ran.1 = .ok value) ∧ (complete → events.filterMap counts = expected))

namespace Enters

variable {log : σ → List ι} {counts : ι → Option κ} {fine : ι → Prop} {complete : Prop} {expected others : List κ}
  {s : σ}

theorem quiet {ran : Except ε α × σ} {value : α} (returned : ran.1 = .ok value) (same : log ran.2 = log s) :
    Enters log counts fine complete [] s ran :=
  ⟨[], by rw [same, List.append_nil], .slnil, fun _ => ⟨⟨value, returned⟩, fun _ => rfl⟩⟩

theorem uncounted {ran : Except ε α × σ} {value : α} {events : List ι} (returned : ran.1 = .ok value)
    (grown : log ran.2 = log s ++ events) (free : ∀ e ∈ events, counts e = none) :
    Enters log counts fine complete [] s ran := by
  have none : events.filterMap counts = [] := List.filterMap_eq_nil_iff.mpr free
  exact ⟨events, grown, none ▸ .slnil, fun _ => ⟨⟨value, returned⟩, fun _ => none⟩⟩

theorem bind {p : Program σ ε α} {next : α → Program σ ε β} (first : Enters log counts fine complete expected s (p s))
    (rest : ∀ value s', p s = (.ok value, s') → Enters log counts fine complete others s' (next value s')) :
    Enters log counts fine complete (expected ++ others) s ((p >>= next) s) := by
  obtain ⟨events, grown, counted, returns⟩ := first
  rw [bind_run]
  generalize ran : p s = outcome at grown returns rest
  obtain ⟨e | value, s'⟩ := outcome
  · refine ⟨events, grown, counted.trans (List.sublist_append_left _ _), fun fine => ?_⟩
    obtain ⟨⟨_, returned⟩, _⟩ := returns fine
    cases returned
  · obtain ⟨later, grown', counted', returns'⟩ := rest value s' rfl
    refine ⟨events ++ later, ?_, ?_, fun fine => ?_⟩
    · have grown : log s' = log s ++ events := grown
      rw [grown', grown, List.append_assoc]
    · rw [List.filterMap_append]
      exact counted.append counted'
    · obtain ⟨_, whole⟩ := returns fun e member => fine e (List.mem_append_left _ member)
      obtain ⟨returned, whole'⟩ := returns' fun e member => fine e (List.mem_append_right _ member)
      refine ⟨returned, fun asked => ?_⟩
      rw [List.filterMap_append, whole asked, whole' asked]

theorem bind_left {p : Program σ ε α} {next : α → Program σ ε β} (first : Enters log counts fine complete [] s (p s))
    (rest : ∀ value s', p s = (.ok value, s') → Enters log counts fine complete others s' (next value s')) :
    Enters log counts fine complete others s ((p >>= next) s) := first.bind rest

theorem bind_right {p : Program σ ε α} {next : α → Program σ ε β}
    (first : Enters log counts fine complete expected s (p s))
    (rest : ∀ value s', p s = (.ok value, s') → Enters log counts fine complete [] s' (next value s')) :
    Enters log counts fine complete expected s ((p >>= next) s) := by
  have whole := first.bind rest
  rwa [List.append_nil] at whole

theorem onFirst {p : Program σ ε α} (inner : Enters log counts fine complete expected s (p s)) (t : τ) :
    Enters (fun pair : σ × τ => log pair.1) counts fine complete expected (s, t) (onFirst p (s, t)) := inner

theorem forEach {items : List α} {body : α → Program σ ε β} {entered : α → List κ}
    (each : ∀ a ∈ items, ∀ s, Enters log counts fine complete (entered a) s (body a s)) :
    Enters log counts fine complete (items.flatMap entered) s (forEach items body s) := by
  induction items generalizing s with
  | nil => exact quiet rfl rfl
  | cons a rest ih =>
    have first := each a List.mem_cons_self s
    refine first.bind fun b s' _ => bind_right (ih fun other member => each other (List.mem_cons_of_mem _ member)) ?_
    exact fun bs s'' _ => quiet rfl rfl

end Enters

end

end Effects
