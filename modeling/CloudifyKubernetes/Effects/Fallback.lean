import CloudifyKubernetes.Effects.Program

namespace Effects

namespace Program

variable {σ ε ι α : Type}

def fallback (body : ι → Program σ ε α) (passes : ε → Bool) (otherwise : Program σ ε α) :
    List ι → Program σ ε α
  | [] => otherwise
  | candidate :: rest => do
    match ← (body candidate).attempt with
    | .ok value => pure value
    | .error e => if passes e then fallback body passes otherwise rest else raise e

def passedOver (passes : ε → Bool) : Except ε α → Bool
  | .ok _ => false
  | .error e => passes e

/-- The candidates that were tried from one state to another, each with its result. -/
inductive Tried (body : ι → Program σ ε α) (passes : ε → Bool) :
    List ι → σ → List (ι × Except ε α) → σ → Prop
  | exhausted (s : σ) : Tried body passes [] s [] s
  | settled {candidate : ι} {rest : List ι} {s s' : σ} {result : Except ε α}
      (ran : body candidate s = (result, s')) (ends : passedOver passes result = false) :
      Tried body passes (candidate :: rest) s [(candidate, result)] s'
  | passed {candidate : ι} {rest : List ι} {s middle s' : σ} {result : Except ε α}
      {later : List (ι × Except ε α)} (ran : body candidate s = (result, middle))
      (passes' : passedOver passes result = true) (next : Tried body passes rest middle later s') :
      Tried body passes (candidate :: rest) s ((candidate, result) :: later) s'

namespace Tried

variable {body : ι → Program σ ε α} {passes : ε → Bool} {candidates : List ι} {s s' : σ}
  {tried : List (ι × Except ε α)}

theorem inOrder (tries : Tried body passes candidates s tried s') : tried.map Prod.fst <+: candidates := by
  induction tries with
  | exhausted => exact List.nil_prefix
  | settled => simp
  | passed _ _ _ ih => exact List.cons_prefix_cons.mpr ⟨rfl, ih⟩

theorem passed_before (tries : Tried body passes candidates s tried s') :
    ∀ attempt ∈ tried.dropLast, passedOver passes attempt.2 = true := by
  induction tries with
  | exhausted => simp
  | settled => simp
  | passed ran passes' next ih =>
    cases next with
    | exhausted => simp
    | settled => simpa using passes'
    | passed => exact List.forall_mem_cons.mpr ⟨passes', ih⟩

theorem last_of_settled (tries : Tried body passes candidates s tried s') {attempt : ι × Except ε α}
    (member : attempt ∈ tried) (settles : passedOver passes attempt.2 = false) :
    tried.getLast? = some attempt := by
  induction tries with
  | exhausted => cases member
  | settled =>
    rw [List.mem_singleton.mp member]
    rfl
  | passed ran passes' next ih =>
    rcases List.mem_cons.mp member with rfl | later
    · rw [passes'] at settles
      cases settles
    · rw [List.getLast?_cons, ih later]
      rfl

theorem complete_or_settled (tries : Tried body passes candidates s tried s') :
    tried.map Prod.fst = candidates ∨ ∃ last, tried.getLast? = some last ∧ passedOver passes last.2 = false := by
  induction tries with
  | exhausted => exact .inl rfl
  | settled _ ends => exact .inr ⟨_, rfl, ends⟩
  | passed _ _ next ih =>
    rcases ih with all | ⟨last, ends, settles⟩
    · exact .inl (congrArg _ all)
    · exact .inr ⟨last, by rw [List.getLast?_cons, ends]; rfl, settles⟩

end Tried

/-- A fallback gives the last result if that is not passed over, and goes on otherwise. -/
theorem fallback_tried (body : ι → Program σ ε α) (passes : ε → Bool) (otherwise : Program σ ε α)
    (candidates : List ι) (s : σ) :
    ∃ tried s', Tried body passes candidates s tried s' ∧
      ((∃ last, tried.getLast? = some last ∧ passedOver passes last.2 = false ∧
          fallback body passes otherwise candidates s = (last.2, s')) ∨
        (∀ attempt ∈ tried, passedOver passes attempt.2 = true) ∧
          fallback body passes otherwise candidates s = otherwise s') := by
  induction candidates generalizing s with
  | nil => exact ⟨[], s, .exhausted s, .inr ⟨by simp, rfl⟩⟩
  | cons candidate rest ih =>
    obtain ⟨result, middle, ran⟩ : ∃ result middle, body candidate s = (result, middle) := ⟨_, _, rfl⟩
    have step : fallback body passes otherwise (candidate :: rest) s =
        if passedOver passes result then fallback body passes otherwise rest middle else (result, middle) := by
      rw [fallback, bind_run, attempt_run, ran]
      cases result with
      | ok value => rfl
      | error e =>
        show (if passes e then fallback body passes otherwise rest else raise e) middle = _
        by_cases skips : passes e = true
        · rw [if_pos skips, if_pos (show passedOver passes (.error e : Except ε α) = true from skips)]
        · rw [if_neg skips, if_neg (show ¬ passedOver passes (.error e : Except ε α) = true from skips)]
          rfl
    cases skips : passedOver passes result with
    | false =>
      rw [skips] at step
      exact ⟨_, middle, .settled ran skips, .inl ⟨_, rfl, skips, step⟩⟩
    | true =>
      rw [skips, if_pos rfl] at step
      obtain ⟨tried, s', tries, ends⟩ := ih middle
      refine ⟨_, s', .passed ran skips tries, ?_⟩
      rw [step]
      rcases ends with ⟨last, ends, settles, outcome⟩ | ⟨all, outcome⟩
      · exact .inl ⟨last, by rw [List.getLast?_cons, ends]; rfl, settles, outcome⟩
      · exact .inr ⟨List.forall_mem_cons.mpr ⟨skips, all⟩, outcome⟩

end Program

end Effects
