import CloudifyKubernetes.Effects.Program

namespace Effects

open Program

section

variable {σ ι τ ε α β : Type}

/-- The starts that a run enters go down one after another from what it starts with, and down to
    what it ends with if it returns. -/
def Descends (log : σ → List ι) (start : ι → Option τ) (view : σ → τ) (R : τ → τ → Prop) (s : σ)
    (ran : Except ε α × σ) : Prop :=
  ∃ events, log ran.2 = log s ++ events ∧ (view s :: events.filterMap start).Pairwise R ∧
    ((∃ value, ran.1 = .ok value) → ∀ t ∈ view s :: events.filterMap start, R t (view ran.2))

namespace Descends

variable {log : σ → List ι} {start : ι → Option τ} {view : σ → τ} {R : τ → τ → Prop} {s : σ}

theorem of_unstarted {ran : Except ε α × σ} {events : List ι} (grown : log ran.2 = log s ++ events)
    (unstarted : ∀ e ∈ events, start e = none) (returns : (∃ value, ran.1 = .ok value) → R (view s) (view ran.2)) :
    Descends log start view R s ran := by
  have none : events.filterMap start = [] := List.filterMap_eq_nil_iff.mpr unstarted
  refine ⟨events, grown, ?_, ?_⟩
  · rw [none]
    exact List.pairwise_singleton R (view s)
  · intro returned t member
    rw [none, List.mem_singleton] at member
    rw [member]
    exact returns returned

theorem pure [Std.Refl R] (value : α) : Descends log start view R s ((Pure.pure value : Program σ ε α) s) :=
  of_unstarted (List.append_nil _).symm (by simp) fun _ => Std.Refl.refl _

theorem raise (e : ε) : Descends log start view R s ((Program.raise e : Program σ ε α) s) := by
  apply of_unstarted (List.append_nil _).symm (by simp)
  intro returned
  obtain ⟨value, same⟩ := returned
  cases same

theorem bind [IsTrans τ R] {p : Program σ ε α} {next : α → Program σ ε β}
    (first : Descends log start view R s (p s))
    (rest : ∀ value s', p s = (.ok value, s') → Descends log start view R s' (next value s')) :
    Descends log start view R s ((p >>= next) s) := by
  obtain ⟨events, grown, chain, returns⟩ := first
  rw [bind_run]
  generalize ran : p s = outcome at grown returns rest
  obtain ⟨e | value, s'⟩ := outcome
  · refine ⟨events, grown, chain, ?_⟩
    intro returned
    obtain ⟨value, same⟩ := returned
    cases same
  · obtain ⟨later, grown', chain', returns'⟩ := rest value s' rfl
    have grown : log s' = log s ++ events := grown
    have above : ∀ t ∈ view s :: events.filterMap start, R t (view s') := returns ⟨value, rfl⟩
    have whole : view s :: (events ++ later).filterMap start =
        (view s :: events.filterMap start) ++ later.filterMap start := by
      rw [List.filterMap_append]
      rfl
    refine ⟨events ++ later, ?_, ?_, ?_⟩
    · rw [grown', grown, List.append_assoc]
    · -- What is started later is below the state between the two halves.
      rw [whole, List.pairwise_append]
      refine ⟨chain, (List.pairwise_cons.mp chain').2, ?_⟩
      intro t member t' later
      exact IsTrans.trans _ _ _ (above t member) ((List.pairwise_cons.mp chain').1 t' later)
    · intro returned t member
      have ends := returns' returned
      rw [whole, List.mem_append] at member
      apply member.elim
      · intro member
        exact IsTrans.trans _ _ _ (above t member) (ends _ List.mem_cons_self)
      · intro member
        exact ends t (List.mem_cons_of_mem _ member)

theorem forEach [Std.Refl R] [IsTrans τ R] {items : List α} {body : α → Program σ ε β}
    (each : ∀ a ∈ items, ∀ s, Descends log start view R s (body a s)) :
    Descends log start view R s (forEach items body s) := by
  induction items generalizing s with
  | nil => exact pure _
  | cons a rest ih =>
    apply bind (each a List.mem_cons_self s)
    intro b s' _
    apply bind (ih fun other member => each other (List.mem_cons_of_mem _ member))
    intro bs s'' _
    exact pure _

theorem below {value : α} {s' : σ} (descends : Descends log start view R s ((.ok value : Except ε α), s')) :
    R (view s) (view s') := by
  obtain ⟨events, _, _, returns⟩ := descends
  exact returns ⟨value, rfl⟩ _ List.mem_cons_self

end Descends

theorem Within.along {p : Program σ ε α} {R : σ → σ → Prop} {s s' : σ} {result : Except ε α} (inside : Within R p)
    (ran : p s = (result, s')) : R s s' := by
  have moved := inside s
  rwa [ran] at moved

theorem forEach_congr {items : List α} {body body' : α → Program σ ε β} {P : σ → Prop}
    (agree : ∀ a ∈ items, ∀ s, P s → body a s = body' a s)
    (keeps : ∀ a ∈ items, ∀ s b s', P s → body' a s = (.ok b, s') → P s') {s : σ} (holds : P s) :
    forEach items body s = forEach items body' s := by
  induction items generalizing s with
  | nil => rfl
  | cons a rest ih =>
    rw [forEach, forEach, bind_run, bind_run, agree a List.mem_cons_self s holds]
    generalize ran : body' a s = outcome
    obtain ⟨e | b, s'⟩ := outcome
    · rfl
    · have later := ih (fun other member => agree other (List.mem_cons_of_mem _ member))
        (fun other member => keeps other (List.mem_cons_of_mem _ member))
        (keeps a List.mem_cons_self s b s' holds ran)
      dsimp only
      rw [bind_run, bind_run, later]

end

end Effects
