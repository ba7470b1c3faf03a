import CloudifyKubernetes.Effects.Program

namespace Effects

namespace Program

variable {σ τ ε α β : Type}

inductive Alike (returns raises : σ → σ → Prop) : Except ε α × σ → Except ε α × σ → Prop
  | value {s t : σ} (value : α) (related : returns s t) : Alike returns raises (.ok value, s) (.ok value, t)
  | exception {s t : σ} (e : ε) (related : raises s t) : Alike returns raises (.error e, s) (.error e, t)

namespace Alike

variable {returns raises R : σ → σ → Prop} {ran ran' : Except ε α × σ}

theorem result_eq (alike : Alike returns raises ran ran') : ran.1 = ran'.1 := by
  cases alike <;> rfl

theorem related (alike : Alike R R ran ran') : R ran.2 ran'.2 := by
  cases alike <;> assumption

theorem of_parts (result : ran.1 = ran'.1) (related : R ran.2 ran'.2) : Alike R R ran ran' := by
  obtain ⟨e | value, s⟩ := ran
  · obtain ⟨_, t⟩ := ran'
    cases result
    exact .exception e related
  · obtain ⟨_, t⟩ := ran'
    cases result
    exact .value value related

end Alike

def Coupled (before : σ → σ → Prop) (p : Program σ ε α) (returns raises : σ → σ → Prop) : Prop :=
  ∀ s t, before s t → Alike returns raises (p s) (p t)

def Settles (before : σ → σ → Prop) (p : Program σ ε α) : Prop := ∀ s t, before s t → p s = p t

section

variable {before middle returns raises R : σ → σ → Prop}

theorem Settles.bind {p : Program σ ε α} (settles : Settles before p) (next : α → Program σ ε β) :
    Settles before (p >>= next) := by
  intro s t related
  rw [bind_run, bind_run, settles s t related]

theorem Settles.coupled [Std.Refl returns] [Std.Refl raises] {p : Program σ ε α} (settles : Settles before p) :
    Coupled before p returns raises := by
  intro s t related
  rw [settles s t related]
  generalize p t = ran
  obtain ⟨e | value, s'⟩ := ran
  · exact .exception e (Std.Refl.refl s')
  · exact .value value (Std.Refl.refl s')

namespace Coupled

theorem pure (value : α) : Coupled R (Pure.pure value : Program σ ε α) R raises := fun _ _ related =>
  .value value related

theorem raise (e : ε) : Coupled R (Program.raise e : Program σ ε α) returns R := fun _ _ related =>
  .exception e related

theorem modify {f : σ → σ} (moves : ∀ s t, before s t → returns (f s) (f t)) :
    Coupled before (Program.modify f : Program σ ε Unit) returns raises := fun s t related =>
  .value () (moves s t related)

theorem observe {p : Program σ ε α} {f : σ → Except ε α} (ran : ∀ s, p s = (f s, s))
    (same : ∀ s t, R s t → f s = f t) : Coupled R p R R := by
  intro s t related
  rw [ran s, ran t]
  exact .of_parts (same s t related) related

theorem ofExcept (result : Except ε α) : Coupled R (Program.ofExcept result : Program σ ε α) R R :=
  observe (fun _ => ofExcept_run _ _) fun _ _ _ => rfl

theorem weaken {stronger returns' raises' : σ → σ → Prop} {p : Program σ ε α}
    (inner : Coupled before p returns raises) (pre : ∀ s t, stronger s t → before s t)
    (post : ∀ s t, returns s t → returns' s t) (fail : ∀ s t, raises s t → raises' s t) :
    Coupled stronger p returns' raises' := by
  intro s t related
  have step := inner s t (pre s t related)
  generalize p s = ran at step ⊢
  generalize p t = ran' at step ⊢
  cases step with
  | value value related => exact .value value (post _ _ related)
  | exception e related => exact .exception e (fail _ _ related)

theorem bind {p : Program σ ε α} {next : α → Program σ ε β} (first : Coupled before p middle raises)
    (rest : ∀ value, Coupled middle (next value) returns raises) : Coupled before (p >>= next) returns raises := by
  intro s t related
  have step := first s t related
  rw [bind_run, bind_run]
  generalize p s = ran at step ⊢
  generalize p t = ran' at step ⊢
  cases step with
  | value value related => exact rest value _ _ related
  | exception e related => exact .exception e related

theorem attempt {p : Program σ ε α} (inner : Coupled before p R R) : Coupled before p.attempt R raises := by
  intro s t related
  have step := inner s t related
  rw [attempt_run, attempt_run, step.result_eq]
  exact .value _ step.related

theorem forEach {items : List α} {body : α → Program σ ε β} (each : ∀ a ∈ items, Coupled R (body a) R R) :
    Coupled R (Program.forEach items body) R R := by
  induction items with
  | nil => exact pure _
  | cons a rest ih =>
    apply bind (each a List.mem_cons_self)
    intro b
    apply bind (ih fun other member => each other (List.mem_cons_of_mem _ member))
    intro bs
    exact pure _

theorem onFirst {K : τ → τ → Prop} {p : Program σ ε α} (inner : Coupled before p returns raises) :
    Coupled (fun s t : σ × τ => before s.1 t.1 ∧ K s.2 t.2) (Program.onFirst p)
      (fun s t => returns s.1 t.1 ∧ K s.2 t.2) (fun s t => raises s.1 t.1 ∧ K s.2 t.2) := by
  intro s t related
  obtain ⟨s, other⟩ := s
  obtain ⟨t, other'⟩ := t
  obtain ⟨related, same⟩ := related
  have step := inner s t related
  change Alike _ _ ((p s).1, ((p s).2, other)) ((p t).1, ((p t).2, other'))
  generalize p s = ran at step ⊢
  generalize p t = ran' at step ⊢
  cases step with
  | value value related => exact .value value ⟨related, same⟩
  | exception e related => exact .exception e ⟨related, same⟩

end Coupled

end

end Program

end Effects
