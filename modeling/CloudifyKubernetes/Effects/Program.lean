import Mathlib.Logic.Relation

namespace Effects

def Program (σ ε α : Type) : Type := σ → Except ε α × σ

namespace Program

variable {σ ε α β : Type}

protected def pure (value : α) : Program σ ε α := fun s => (.ok value, s)

protected def bind (p : Program σ ε α) (next : α → Program σ ε β) : Program σ ε β := fun s =>
  match p s with
  | (.ok value, s') => next value s'
  | (.error e, s') => (.error e, s')

instance : Monad (Program σ ε) where
  pure := Program.pure
  bind := Program.bind

def raise (e : ε) : Program σ ε α := fun s => (.error e, s)

def attempt (p : Program σ ε α) : Program σ ε (Except ε α) := fun s => (.ok (p s).1, (p s).2)

def get : Program σ ε σ := fun s => (.ok s, s)

def modify (f : σ → σ) : Program σ ε Unit := fun s => (.ok (), f s)

def ofExcept : Except ε α → Program σ ε α
  | .ok value => Program.pure value
  | .error e => raise e

def onFirst {τ : Type} (p : Program σ ε α) : Program (σ × τ) ε α := fun s =>
  let (result, s') := p s.1
  (result, (s', s.2))

def forEach : List α → (α → Program σ ε β) → Program σ ε (List β)
  | [], _ => Program.pure []
  | a :: rest, body => do
    let b ← body a
    let bs ← forEach rest body
    return b :: bs

@[simp] theorem pure_run (value : α) (s : σ) :
    (pure value : Program σ ε α) s = (.ok value, s) := rfl

theorem bind_run (p : Program σ ε α) (next : α → Program σ ε β) (s : σ) :
    (p >>= next) s = match p s with
      | (.ok value, s') => next value s'
      | (.error e, s') => (.error e, s') := rfl

theorem bind_run_ok {p : Program σ ε α} {s s' : σ} {value : α} (ran : p s = (.ok value, s'))
    (next : α → Program σ ε β) : (p >>= next) s = next value s' := by rw [bind_run, ran]

theorem bind_run_error {p : Program σ ε α} {s s' : σ} {e : ε} (ran : p s = (.error e, s'))
    (next : α → Program σ ε β) : (p >>= next) s = (.error e, s') := by rw [bind_run, ran]

@[simp] theorem raise_run (e : ε) (s : σ) : (raise e : Program σ ε α) s = (.error e, s) := rfl

@[simp] theorem attempt_run (p : Program σ ε α) (s : σ) :
    attempt p s = (.ok (p s).1, (p s).2) := rfl

@[simp] theorem get_run (s : σ) : (get : Program σ ε σ) s = (.ok s, s) := rfl

@[simp] theorem modify_run (f : σ → σ) (s : σ) : (modify f : Program σ ε Unit) s = (.ok (), f s) := rfl

@[simp] theorem ofExcept_run (result : Except ε α) (s : σ) :
    (ofExcept result : Program σ ε α) s = (result, s) := by cases result <;> rfl

theorem onFirst_inv {τ : Type} {p : Program σ ε α} {s s' : σ} {t t' : τ} {result : Except ε α}
    (ran : onFirst p (s, t) = (result, (s', t'))) : p s = (result, s') ∧ t' = t := by
  cases ran
  exact ⟨rfl, rfl⟩

theorem ok_of_bind {result : Except ε α} {next : α → Except ε β} {b : β}
    (whole : result >>= next = .ok b) : ∃ value, result = .ok value ∧ next value = .ok b := by
  cases result with
  | error e => cases whole
  | ok value => exact ⟨value, rfl, whole⟩

theorem ofExcept_bind (result : Except ε α) (next : α → Except ε β) :
    (ofExcept (result >>= next) : Program σ ε β) = ofExcept result >>= fun value => ofExcept (next value) := by
  cases result <;> rfl

theorem bind_assoc {γ : Type} (p : Program σ ε α) (next : α → Program σ ε β) (last : β → Program σ ε γ) :
    (p >>= next) >>= last = p >>= fun value => next value >>= last := by
  funext s
  simp only [bind_run]
  rcases p s with ⟨e | value, s'⟩ <;> rfl

theorem bind_ok_inv {p : Program σ ε α} {next : α → Program σ ε β} {s s' : σ} {b : β}
    (ran : (p >>= next) s = (.ok b, s')) :
    ∃ value middle, p s = (.ok value, middle) ∧ next value middle = (.ok b, s') := by
  rw [bind_run] at ran
  split at ran
  · rename_i value middle first
    exact ⟨value, middle, first, ran⟩
  · cases ran

theorem bind_ofExcept_ok_inv {result : Except ε α} {next : α → Program σ ε β} {s s' : σ} {b : β}
    (ran : (ofExcept result >>= next) s = (.ok b, s')) :
    ∃ value, result = .ok value ∧ next value s = (.ok b, s') := by
  cases result with
  | error e => cases ran
  | ok value => exact ⟨value, rfl, ran⟩

theorem bind_ofExcept_error_inv {result : Except ε α} {next : α → Program σ ε β} {s s' : σ} {e : ε}
    (ran : (ofExcept result >>= next) s = (.error e, s')) :
    result = .error e ∧ s' = s ∨ ∃ value, result = .ok value ∧ next value s = (.error e, s') := by
  cases result with
  | error e' =>
    cases ran
    exact .inl ⟨rfl, rfl⟩
  | ok value => exact .inr ⟨value, rfl, ran⟩

theorem attempt_ok_inv {p : Program σ ε α} {s s' : σ} {result : Except ε α} (ran : p.attempt s = (.ok result, s')) :
    p s = (result, s') := by
  cases ran
  rfl

theorem bind_error_inv {p : Program σ ε α} {next : α → Program σ ε β} {s s' : σ} {e : ε}
    (ran : (p >>= next) s = (.error e, s')) :
    p s = (.error e, s') ∨
      ∃ value middle, p s = (.ok value, middle) ∧ next value middle = (.error e, s') := by
  rw [bind_run] at ran
  split at ran
  · rename_i value middle first
    exact .inr ⟨value, middle, first, ran⟩
  · rename_i e' middle first
    cases ran
    exact .inl first

theorem forEach_returns {body : α → Program σ ε β} (returns : ∀ a s, ∃ b s', body a s = (.ok b, s'))
    (items : List α) (s : σ) : ∃ bs s', forEach items body s = (.ok bs, s') := by
  induction items generalizing s with
  | nil => exact ⟨[], s, rfl⟩
  | cons a rest ih =>
    obtain ⟨b, middle, first⟩ := returns a s
    obtain ⟨bs, s', others⟩ := ih middle
    refine ⟨b :: bs, s', ?_⟩
    rw [forEach, bind_run_ok first, bind_run_ok others]
    rfl

theorem forEach_concat {front : List α} {body : α → Program σ ε β} {bs : List β} {s middle : σ}
    (ran : forEach front body s = (.ok bs, middle)) (last : α) :
    forEach (front ++ [last]) body s = (body last >>= fun b => pure (bs ++ [b])) middle := by
  induction front generalizing s bs with
  | nil =>
    cases ran
    rw [List.nil_append, forEach, bind_run, bind_run]
    rcases body last middle with ⟨e | b, s'⟩ <;> rfl
  | cons a rest ih =>
    obtain ⟨b, next, first, ran⟩ := bind_ok_inv ran
    obtain ⟨others, last', ran, done⟩ := bind_ok_inv ran
    cases done
    rw [List.cons_append, forEach, bind_run_ok first, bind_run, ih ran, bind_run, bind_run]
    rcases body last middle with ⟨e | b', s'⟩ <;> rfl

def returning (check : α → σ → Bool) : Except ε α × σ → Bool
  | (.ok value, s) => check value s
  | (.error _, _) => false

theorem returning_of_ok {ran : Except ε α × σ} {value : α} (returned : ran.1 = .ok value) :
    returning (fun _ _ => true) ran = true := by
  obtain ⟨result, s⟩ := ran
  cases returned
  rfl

theorem returning_iff {check : α → σ → Bool} {ran : Except ε α × σ} :
    returning check ran = true ↔ ∃ value s, ran = (.ok value, s) ∧ check value s = true := by
  obtain ⟨e | value, s⟩ := ran
  · constructor
    · intro passed
      cases passed
    · rintro ⟨value, _, ran, -⟩
      cases ran
  · constructor
    · intro passed
      exact ⟨value, s, rfl, passed⟩
    · rintro ⟨_, _, ran, passed⟩
      cases ran
      exact passed

def raising (check : ε → σ → Bool) : Except ε α × σ → Bool
  | (.ok _, _) => false
  | (.error e, s) => check e s

theorem raising_iff {check : ε → σ → Bool} {ran : Except ε α × σ} :
    raising check ran = true ↔ ∃ e s, ran = (.error e, s) ∧ check e s = true := by
  obtain ⟨e | value, s⟩ := ran
  · constructor
    · intro passed
      exact ⟨e, s, rfl, passed⟩
    · rintro ⟨_, _, ran, passed⟩
      cases ran
      exact passed
  · constructor
    · intro passed
      cases passed
    · rintro ⟨e, _, ran, -⟩
      cases ran

inductive Rounds (body : α → Program σ ε β) : List α → σ → σ → Prop
  | nil (s : σ) : Rounds body [] s s
  | cons {a : α} {rest : List α} {b : β} {s middle s' : σ} (first : body a s = (.ok b, middle))
      (others : Rounds body rest middle s') : Rounds body (a :: rest) s s'

namespace Rounds

variable {body : α → Program σ ε β} {s s' : σ}

theorem of_forEach {items : List α} {bs : List β} (ran : forEach items body s = (.ok bs, s')) :
    Rounds body items s s' := by
  induction items generalizing s bs with
  | nil =>
    cases ran
    exact .nil _
  | cons a rest ih =>
    obtain ⟨b, middle, first, ran⟩ := bind_ok_inv ran
    obtain ⟨others, last, ran, done⟩ := bind_ok_inv ran
    cases done
    exact .cons first (ih ran)

theorem of_forEach_error {items : List α} {e : ε} (ran : forEach items body s = (.error e, s')) :
    ∃ front a back middle, items = front ++ a :: back ∧ Rounds body front s middle ∧
      body a middle = (.error e, s') := by
  induction items generalizing s with
  | nil => cases ran
  | cons a rest ih =>
    rcases bind_error_inv ran with failed | ⟨b, middle, first, later⟩
    · exact ⟨[], a, rest, s, rfl, .nil s, failed⟩
    · rcases bind_error_inv later with failed | ⟨_, _, _, ended⟩
      · obtain ⟨front, a', back, last, split, rounds, raised⟩ := ih failed
        exact ⟨a :: front, a', back, last, by rw [split]; rfl, .cons first rounds, raised⟩
      · cases ended

theorem append {items others : List α} {middle : σ} (first : Rounds body items s middle)
    (rest : Rounds body others middle s') : Rounds body (items ++ others) s s' := by
  induction first with
  | nil => exact rest
  | cons ran _ ih => exact .cons ran (ih rest)

theorem map {γ : Type} {f : γ → α} {items : List γ} (rounds : Rounds (fun c => body (f c)) items s s') :
    Rounds body (items.map f) s s' := by
  induction rounds with
  | nil => exact .nil _
  | cons ran _ ih => exact .cons ran ih

theorem flatMap {γ δ : Type} {outer : γ → Program σ ε δ} {inner : γ → List α} {items : List γ}
    (rounds : Rounds outer items s s')
    (nested : ∀ c d s s', outer c s = (.ok d, s') → Rounds body (inner c) s s') :
    Rounds body (items.flatMap inner) s s' := by
  induction rounds with
  | nil => exact .nil _
  | cons ran _ ih => exact (nested _ _ _ _ ran).append ih

theorem forEach_run {items : List α} (rounds : Rounds body items s s') :
    ∃ bs, forEach items body s = (.ok bs, s') := by
  induction rounds with
  | nil s => exact ⟨[], rfl⟩
  | @cons a rest b s middle s' first _ ih =>
    obtain ⟨bs, looped⟩ := ih
    have both : forEach (a :: rest) body s = (.ok (b :: bs), s') := by
      rw [forEach, bind_run_ok first, bind_run_ok looped]
      rfl
    exact ⟨b :: bs, both⟩

theorem of_append {items others : List α} (rounds : Rounds body (items ++ others) s s') :
    ∃ middle, Rounds body items s middle ∧ Rounds body others middle s' := by
  induction items generalizing s with
  | nil => exact ⟨s, .nil s, rounds⟩
  | cons a rest ih =>
    cases rounds with
    | cons first later =>
      obtain ⟨middle, front, back⟩ := ih later
      exact ⟨middle, .cons first front, back⟩

theorem of_map {γ : Type} {f : γ → α} {items : List γ} (rounds : Rounds body (items.map f) s s') :
    Rounds (fun c => body (f c)) items s s' := by
  induction items generalizing s with
  | nil =>
    cases rounds
    exact .nil _
  | cons c rest ih =>
    cases rounds with
    | cons first later => exact .cons first (ih later)

theorem of_flatMap {γ δ : Type} {outer : γ → Program σ ε δ} {inner : γ → List α} {items : List γ}
    (rounds : Rounds body (items.flatMap inner) s s')
    (nested : ∀ c s s', Rounds body (inner c) s s' → ∃ d, outer c s = (.ok d, s')) :
    Rounds outer items s s' := by
  induction items generalizing s with
  | nil =>
    cases rounds
    exact .nil _
  | cons c rest ih =>
    rw [List.flatMap_cons] at rounds
    obtain ⟨middle, front, back⟩ := rounds.of_append
    obtain ⟨d, first⟩ := nested c s middle front
    exact .cons first (ih back)

theorem unique {items : List α} {s'' : σ} (rounds : Rounds body items s s') (others : Rounds body items s s'') : s' = s'' := by
  induction rounds with
  | nil s =>
    cases others
    rfl
  | cons ran _ ih =>
    cases others with
    | cons ran' rest =>
      cases ran.symm.trans ran'
      exact ih rest

/-- A round that fails is not among those that return. -/
theorem failed_at {front back passed : List α} {a last : α} {middle middle' s'' : σ} {e : ε}
    (split : front ++ a :: back = passed ++ [last]) (rounds : Rounds body passed s middle)
    (before : Rounds body front s middle') (failed : body a middle' = (.error e, s'')) :
    a = last ∧ middle' = middle := by
  rcases List.append_eq_append_iff.mp split with ⟨more, rfl, rest⟩ | ⟨more, rfl, rest⟩
  · cases more with
    | nil =>
      rw [List.append_nil] at rounds
      exact ⟨(List.cons.inj rest).1, before.unique rounds⟩
    | cons a' more =>
      obtain ⟨rfl, _⟩ := List.cons.inj rest
      obtain ⟨reached, first, later⟩ := rounds.of_append
      obtain rfl := first.unique before
      cases later with
      | cons ran _ => cases failed.symm.trans ran
  · cases more with
    | nil =>
      rw [List.append_nil] at before
      exact ⟨(List.cons.inj rest).1.symm, before.unique rounds⟩
    | cons a' more => simp at rest

end Rounds

def Commutes (f : σ → σ) (p : Program σ ε α) : Prop := ∀ s, p (f s) = ((p s).1, f (p s).2)

namespace Commutes

variable {f : σ → σ}

theorem pure (value : α) : Commutes f (Pure.pure value : Program σ ε α) := fun _ => rfl

theorem raise (e : ε) : Commutes f (Program.raise e : Program σ ε α) := fun _ => rfl

theorem ofExcept (result : Except ε α) : Commutes f (Program.ofExcept result : Program σ ε α) := by
  intro s
  rw [ofExcept_run, ofExcept_run]

theorem bind {p : Program σ ε α} {next : α → Program σ ε β} (first : Commutes f p)
    (rest : ∀ value, Commutes f (next value)) : Commutes f (p >>= next) := by
  intro s
  rw [bind_run, bind_run, first s]
  rcases p s with ⟨e | value, s'⟩
  · rfl
  · exact rest value s'

end Commutes

def Within (R : σ → σ → Prop) (p : Program σ ε α) : Prop := ∀ s, R s (p s).2

namespace Within

variable {R : σ → σ → Prop}

theorem mono {S : σ → σ → Prop} {p : Program σ ε α} (inside : Within R p)
    (weaker : ∀ s s', R s s' → S s s') : Within S p := fun s => weaker _ _ (inside s)

theorem modify {f : σ → σ} (moves : ∀ s, R s (f s)) : Within R (Program.modify f : Program σ ε Unit) :=
  moves

theorem attempt {p : Program σ ε α} (inside : Within R p) : Within R p.attempt := inside

theorem bind_at [IsTrans σ R] {p : Program σ ε α} {next : α → Program σ ε β} {start s : σ}
    (first : R start (p s).2) (rest : ∀ value, Within R (next value)) : R start ((p >>= next) s).2 := by
  rw [bind_run]
  split
  · rename_i value middle ran
    rw [ran] at first
    exact IsTrans.trans _ _ _ first (rest value middle)
  · rename_i e middle ran
    rw [ran] at first
    exact first

theorem bind [IsTrans σ R] {p : Program σ ε α} {next : α → Program σ ε β} (first : Within R p)
    (rest : ∀ value, Within R (next value)) : Within R (p >>= next) := fun s => bind_at (first s) rest

section Reflexive

variable [Std.Refl R]

theorem pure (value : α) : Within R (Pure.pure value : Program σ ε α) := fun s => Std.Refl.refl s

theorem raise (e : ε) : Within R (Program.raise e : Program σ ε α) := fun s => Std.Refl.refl s

theorem get : Within R (Program.get : Program σ ε σ) := fun s => Std.Refl.refl s

theorem ofExcept (result : Except ε α) : Within R (Program.ofExcept result : Program σ ε α) := by
  intro s
  rw [ofExcept_run]
  exact Std.Refl.refl s

theorem bindExcept {result : Except ε α} {next : α → Program σ ε β}
    (rest : ∀ value, result = .ok value → Within R (next value)) :
    Within R (Program.ofExcept result >>= next) := by
  intro s
  cases result with
  | ok value => exact rest value rfl s
  | error e => exact Std.Refl.refl s

theorem forEach [IsTrans σ R] {items : List α} {body : α → Program σ ε β}
    (each : ∀ item ∈ items, Within R (body item)) : Within R (Program.forEach items body) := by
  induction items with
  | nil => exact pure _
  | cons item rest ih =>
    exact (each item (by simp)).bind fun _ =>
      (ih fun other member => each other (by simp [member])).bind fun _ => pure _

end Reflexive

end Within

theorem Rounds.within {R : σ → σ → Prop} [Std.Refl R] [IsTrans σ R] {body : α → Program σ ε β} {items : List α}
    {s s' : σ} (rounds : Rounds body items s s') (each : ∀ item ∈ items, Within R (body item)) : R s s' := by
  obtain ⟨bs, ran⟩ := rounds.forEach_run
  have whole := Within.forEach each s
  rwa [ran] at whole

def Keeps (invariant : σ → Prop) (s s' : σ) : Prop := invariant s → invariant s'

instance (invariant : σ → Prop) : Std.Refl (Keeps invariant) := ⟨fun _ holds => holds⟩

instance (invariant : σ → Prop) : IsTrans σ (Keeps invariant) :=
  ⟨fun _ _ _ first second holds => second (first holds)⟩

def Outcome (returns : α → σ → Prop) (raises : ε → σ → Prop) : Except ε α × σ → Prop
  | (.ok value, s) => returns value s
  | (.error e, s) => raises e s

def Triple (before : σ → Prop) (p : Program σ ε α) (returns : α → σ → Prop)
    (raises : ε → σ → Prop) : Prop := ∀ s, before s → Outcome returns raises (p s)

namespace Triple

variable {before : σ → Prop} {raises : ε → σ → Prop}

theorem pure {returns : α → σ → Prop} (value : α) (post : ∀ s, before s → returns value s) :
    Triple before (Pure.pure value : Program σ ε α) returns raises := post

theorem raise {returns : α → σ → Prop} (e : ε) (post : ∀ s, before s → raises e s) :
    Triple before (Program.raise e : Program σ ε α) returns raises := post

theorem bind {p : Program σ ε α} {next : α → Program σ ε β} {middle : α → σ → Prop}
    {returns : β → σ → Prop} (first : Triple before p middle raises)
    (rest : ∀ value, Triple (middle value) (next value) returns raises) :
    Triple before (p >>= next) returns raises := by
  intro s holds
  have step := first s holds
  rw [bind_run]
  split
  · rename_i value s' ran
    rw [ran] at step
    exact rest value s' step
  · rename_i e s' ran
    rw [ran] at step
    exact step

theorem attempt {p : Program σ ε α} {returns : Except ε α → σ → Prop}
    (inner : Triple before p (fun value => returns (.ok value)) (fun e => returns (.error e))) :
    Triple before p.attempt returns raises := by
  intro s holds
  have step := inner s holds
  rw [attempt_run]
  change returns (p s).1 (p s).2
  generalize p s = result at step ⊢
  obtain ⟨value | value, s'⟩ := result <;> exact step

theorem get {returns : σ → σ → Prop} (post : ∀ s, before s → returns s s) :
    Triple before (Program.get : Program σ ε σ) returns raises := post

theorem modify {f : σ → σ} {returns : Unit → σ → Prop} (post : ∀ s, before s → returns () (f s)) :
    Triple before (Program.modify f : Program σ ε Unit) returns raises := post

theorem ofExcept {result : Except ε α} {returns : α → σ → Prop}
    (ok : ∀ value s, result = .ok value → before s → returns value s)
    (error : ∀ e s, result = .error e → before s → raises e s) :
    Triple before (Program.ofExcept result : Program σ ε α) returns raises := by
  intro s holds
  rw [ofExcept_run]
  cases result with
  | ok value => exact ok value s rfl holds
  | error e => exact error e s rfl holds

theorem weaken {stronger : σ → Prop} {p : Program σ ε α} {returns' returns : α → σ → Prop}
    {raises' : ε → σ → Prop} (inner : Triple before p returns' raises')
    (pre : ∀ s, stronger s → before s) (post : ∀ value s, returns' value s → returns value s)
    (fail : ∀ e s, raises' e s → raises e s) : Triple stronger p returns raises := by
  intro s holds
  have step := inner s (pre s holds)
  generalize p s = result at step ⊢
  obtain ⟨value | value, s'⟩ := result
  · exact fail _ _ step
  · exact post _ _ step

/-- An invariant that says of each element that has been passed what its round has left. -/
theorem forEach_upTo {body : α → Program σ ε β} {invariant : List α → σ → Prop}
    (each : ∀ done item, Triple (invariant done) (body item)
      (fun _ => invariant (done ++ [item])) raises) (done items : List α) :
    Triple (invariant done) (Program.forEach items body) (fun _ => invariant (done ++ items)) raises := by
  induction items generalizing done with
  | nil => exact pure _ fun _ holds => by rwa [List.append_nil]
  | cons item rest ih =>
    refine (each done item).bind fun _ => (ih (done ++ [item])).bind fun _ => pure _ fun _ holds => ?_
    rwa [List.append_assoc] at holds

theorem forEach_each {items : List α} {body : α → Program σ ε β} (invariant : List α → σ → Prop)
    (each : ∀ done item rest, done ++ item :: rest = items → Triple (invariant done) (body item)
      (fun _ => invariant (done ++ [item])) raises) :
    Triple (invariant []) (Program.forEach items body) (fun _ => invariant items) raises := by
  have from_ (done rest : List α) (split : done ++ rest = items) :
      Triple (invariant done) (Program.forEach rest body) (fun _ => invariant items) raises := by
    induction rest generalizing done with
    | nil =>
      rw [List.append_nil] at split
      exact pure _ fun _ holds => split ▸ holds
    | cons item rest ih =>
      have later := ih (done ++ [item]) (by rw [List.append_assoc]; exact split)
      exact (each done item rest split).bind fun _ => later.bind fun _ => pure _ fun _ holds => holds
  exact from_ [] items rfl

theorem forEach {items : List α} {body : α → Program σ ε β} {invariant : σ → Prop}
    (each : ∀ item ∈ items, Triple invariant (body item) (fun _ => invariant) raises) :
    Triple invariant (Program.forEach items body) (fun _ => invariant) raises := by
  induction items with
  | nil => exact pure _ fun _ holds => holds
  | cons item rest ih =>
    exact (each item (by simp)).bind fun _ =>
      (ih fun other member => each other (by simp [member])).bind fun _ => pure _ fun _ holds => holds

end Triple

end Program

end Effects
