import CloudifyKubernetes.Effects.Program

namespace Effects

open Program

section

variable {ι : Type} {counts : ι → Bool} {reason : ι → List ι → Prop} {events later : List ι}

def Reasoned (counts : ι → Bool) (reason : ι → List ι → Prop) (events : List ι) : Prop :=
  ∀ front e back, events = front ++ e :: back → counts e = true → reason e front

def Lasting (reason : ι → List ι → Prop) : Prop := ∀ e before front, reason e front → reason e (before ++ front)

namespace Reasoned

theorem of_uncounted (free : ∀ e ∈ events, counts e = false) : Reasoned counts reason events := by
  intro front e back split counted
  have member : e ∈ events := by
    rw [split]
    simp
  rw [free e member] at counted
  cases counted

theorem extend (first : Reasoned counts reason events)
    (rest : ∀ front e back, later = front ++ e :: back → counts e = true → reason e (events ++ front)) :
    Reasoned counts reason (events ++ later) := by
  intro front e back split counted
  rcases List.append_eq_append_iff.mp split with ⟨between, before, behind⟩ | ⟨between, before, behind⟩
  · rw [before]
    exact rest between e back behind counted
  · cases between with
    | nil =>
      rw [List.append_nil] at before
      rw [← before, ← List.append_nil events]
      exact rest [] e back behind.symm counted
    | cons e' between =>
      obtain ⟨rfl, _⟩ := List.cons.inj behind
      exact first front e between before counted

theorem append (lasting : Lasting reason) (first : Reasoned counts reason events)
    (rest : Reasoned counts reason later) : Reasoned counts reason (events ++ later) :=
  first.extend fun front e back split counted => lasting e events front (rest front e back split counted)

/-- One event that counts, with its reason directly before it. -/
theorem single {e : ι} (because : reason e events) (free : ∀ e ∈ events, counts e = false)
    (free' : ∀ e ∈ later, counts e = false) : Reasoned counts reason (events ++ e :: later) := by
  intro front e' back split counted
  rcases List.append_eq_append_iff.mp split with ⟨between, before, behind⟩ | ⟨between, before, behind⟩
  · cases between with
    | nil =>
      rw [List.append_nil] at before
      obtain ⟨rfl, _⟩ := List.cons.inj behind
      rw [before]
      exact because
    | cons e'' between =>
      obtain ⟨_, behind⟩ := List.cons.inj behind
      rw [free' e' (by rw [behind]; simp)] at counted
      cases counted
  · cases between with
    | nil =>
      rw [List.append_nil] at before
      obtain ⟨rfl, _⟩ := List.cons.inj behind
      rw [← before]
      exact because
    | cons e'' between =>
      obtain ⟨rfl, _⟩ := List.cons.inj behind
      rw [free e' (by rw [before]; simp)] at counted
      cases counted

end Reasoned

end

section

variable {σ ι ε α β : Type}

/-- A run moves the state along a relation. If it returns it has logged nothing that counts, and
    otherwise at most so many events, each for its reason. -/
def Spends (R : σ → σ → Prop) (log : σ → List ι) (counts : ι → Bool) (reason : ι → List ι → Prop) (limit : Nat) (s : σ)
    (ran : Except ε α × σ) : Prop :=
  R s ran.2 ∧ ∃ events, log ran.2 = log s ++ events ∧ Reasoned counts reason events ∧
    events.countP counts ≤ if ran.1.isOk then 0 else limit

namespace Spends

variable {R : σ → σ → Prop} {log : σ → List ι} {counts : ι → Bool} {reason : ι → List ι → Prop} {limit : Nat} {s : σ}

theorem free {ran : Except ε α × σ} {events : List ι} (moved : R s ran.2) (grown : log ran.2 = log s ++ events)
    (uncounted : ∀ e ∈ events, counts e = false) : Spends R log counts reason limit s ran := by
  refine ⟨moved, events, grown, .of_uncounted uncounted, ?_⟩
  have none : events.countP counts = 0 := by
    rw [List.countP_eq_zero]
    intro e member
    rw [uncounted e member]
    exact Bool.false_ne_true
  omega

theorem unmoved [Std.Refl R] (result : Except ε α) : Spends R log counts reason limit s (result, s) :=
  free (Std.Refl.refl s) (List.append_nil _).symm (by simp)

theorem ofExcept [Std.Refl R] (result : Except ε α) :
    Spends R log counts reason limit s (Program.ofExcept result s : Except ε α × σ) := by
  rw [ofExcept_run]
  exact unmoved result

theorem bind [IsTrans σ R] (lasting : Lasting reason) {p : Program σ ε α} {next : α → Program σ ε β}
    (first : Spends R log counts reason limit s (p s))
    (rest : ∀ value s', p s = (.ok value, s') → Spends R log counts reason limit s' (next value s')) :
    Spends R log counts reason limit s ((p >>= next) s) := by
  obtain ⟨moved, events, grown, reasoned, bounded⟩ := first
  rw [bind_run]
  generalize ran : p s = outcome at moved grown bounded rest
  obtain ⟨e | value, s'⟩ := outcome
  · exact ⟨moved, events, grown, reasoned, bounded⟩
  · obtain ⟨moved', later, grown', reasoned', bounded'⟩ := rest value s' rfl
    refine ⟨IsTrans.trans _ _ _ moved moved', events ++ later, ?_, reasoned.append lasting reasoned', ?_⟩
    · have grown : log s' = log s ++ events := grown
      rw [grown', grown, List.append_assoc]
    · have unspent : events.countP counts ≤ 0 := bounded
      rw [List.countP_append]
      change _ ≤ if (next value s').1.isOk then 0 else limit
      omega

theorem forEach [Std.Refl R] [IsTrans σ R] (lasting : Lasting reason) {items : List α} {body : α → Program σ ε β}
    (each : ∀ a ∈ items, ∀ s, Spends R log counts reason limit s (body a s)) :
    Spends R log counts reason limit s (Program.forEach items body s) := by
  induction items generalizing s with
  | nil => exact unmoved _
  | cons a rest ih =>
    refine bind lasting (each a List.mem_cons_self s) fun b s' _ => ?_
    refine bind lasting (ih fun other member => each other (List.mem_cons_of_mem _ member)) fun bs s'' _ => ?_
    exact unmoved _

theorem of_same {ran : Except ε α × σ} {ran' : Except ε β × σ} (inner : Spends R log counts reason limit s ran)
    (state : ran'.2 = ran.2) (ok : ran'.1.isOk = ran.1.isOk) : Spends R log counts reason limit s ran' := by
  obtain ⟨moved, events, grown, reasoned, bounded⟩ := inner
  refine ⟨state ▸ moved, events, state ▸ grown, reasoned, ?_⟩
  rw [ok]
  exact bounded

end Spends

end

end Effects
