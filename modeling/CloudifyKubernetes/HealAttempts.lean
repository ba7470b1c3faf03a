import CloudifyKubernetes.Completion
import CloudifyKubernetes.Creation
import CloudifyKubernetes.Effects.Spending
import CloudifyKubernetes.Lifecycle

namespace CloudifyKubernetes

open Collections Effects Program

/-- The read of the same resource in the same task has failed, and nothing has been called since. -/
def MissedBefore (e : Event) (front : List Event) : Prop :=
  ∃ mapping definition earlier failure, e = .called ⟨.create, mapping, definition⟩ ∧
    failure.isA .apiOperationError = true ∧
    front = earlier ++ [.returned ⟨.read .task, mapping, definition⟩ (.error failure), .edited definition]

theorem missedBefore_lasting : Lasting MissedBefore := by
  intro e before front ⟨mapping, definition, earlier, failure, same, missed, split⟩
  exact ⟨mapping, definition, before ++ earlier, failure, same, missed, by rw [split, List.append_assoc]⟩

def OperationContext.allows (ctx : OperationContext) : Nat := if ctx.heals then 1 else 0

abbrev HealSpends {α : Type} (ctx : OperationContext) (s : State) (ran : Except Exception α × State) : Prop :=
  Spends Untouched State.log Event.creates MissedBefore ctx.allows s ran

section

variable {kube : Kubernetes} {node : Node} {ctx : OperationContext} {mapping : KubernetesApiMapping}
  {definition : KubernetesResourceDefinition}

theorem CallEvents.uncreating {c : ClientCall} {result : Except Exception Value} {events : List Event}
    (call : CallEvents c result events) (other : c.verb.isCreate = false) : ∀ e ∈ events, e.creates = false := by
  intro e member
  have about := call.call?_eq e member
  cases e with
  | called c' =>
    cases about
    exact other
  | _ => rfl

theorem CallEvents.afterwards {c : ClientCall} {result : Except Exception Value} {events : List Event}
    (call : CallEvents c result events) : ∃ sent, events = .called c :: sent ∧ ∀ e ∈ sent, e.creates = false := by
  obtain ⟨sent, rfl, requests⟩ := call
  refine ⟨sent ++ [.returned c result], rfl, ?_⟩
  intro e member
  rcases List.mem_append.mp member with member | member
  · obtain ⟨request, answer, rfl⟩ := requests e member
    rfl
  · rw [List.mem_singleton.mp member]
    rfl

/-- A status check that returns has read the resource, and done nothing else. -/
theorem resourceCheckStatus_ok {s s' : State}
    (ran : resourceCheckStatus kube node ctx mapping definition s = (.ok (), s')) :
    s' = (doResourceRead kube .task mapping definition s).2 ∧
      (doResourceRead kube .task mapping definition s).1.isOk = true := by
  obtain ⟨state, outcome⟩ := healableResourceCheckStatus_state kube node mapping definition s
  rw [resourceCheckStatus, bind_run_ok (attempt_run _ _)] at ran
  cases checked : (healableResourceCheckStatus kube node mapping definition s).1 with
  | ok value =>
    rw [checked] at ran outcome
    cases ran
    rcases outcome with ⟨e, _, failed⟩ | ⟨read, _⟩
    · cases failed
    · exact ⟨state, read⟩
  | error e =>
    rw [checked] at ran
    dsimp only at ran
    split at ran
    · obtain ⟨_, _, _, ran⟩ := bind_ok_inv ran
      obtain ⟨_, _, _, ran⟩ := bind_ok_inv ran
      cases ran
    · cases ran

theorem resourceCheckStatus_calm (calm : ctx.heals = false) (s : State) :
    (resourceCheckStatus kube node ctx mapping definition s).2 = (doResourceRead kube .task mapping definition s).2 := by
  obtain ⟨state, _⟩ := healableResourceCheckStatus_state kube node mapping definition s
  rw [resourceCheckStatus, bind_run_ok (attempt_run _ _), state]
  cases (healableResourceCheckStatus kube node mapping definition s).1 with
  | ok value => rfl
  | error e =>
    simp only [calm, Bool.and_false, Bool.false_eq_true, if_false]
    rfl

theorem doResourceRead_uncreating (kube : Kubernetes) (mapping : KubernetesApiMapping)
    (definition : KubernetesResourceDefinition) (site : Site) (s : State) :
    ∃ events, (doResourceRead kube site mapping definition s).2.log = s.log ++ events ∧
      ∀ e ∈ events, e.creates = false := by
  have run := doResourceRead_run kube site mapping definition s
  generalize doResourceRead kube site mapping definition s = ran at run ⊢
  cases run with
  | malformed e failed => exact ⟨[], (List.append_nil _).symm, by simp⟩
  | called result options events readable call =>
    exact ⟨.edited definition :: events, rfl, List.forall_mem_cons.mpr ⟨rfl, call.uncreating rfl⟩⟩

/-- A read that is answered with an operation error ends with that answer. -/
theorem doResourceRead_missed {s : State} {e : Exception} (missed : (doResourceRead kube .task mapping definition s).1 = .error e)
    (asked : e.isA .apiOperationError = true) :
    (∃ annotations, customAnnotations definition = .ok annotations) ∧
      ∃ events, (doResourceRead kube .task mapping definition s).2.log =
        s.log ++ (events ++ [.returned ⟨.read .task, mapping, definition⟩ (.error e)]) ∧
        ∀ e ∈ events, e.creates = false := by
  have run := doResourceRead_run kube .task mapping definition s
  generalize doResourceRead kube .task mapping definition s = ran at run missed ⊢
  cases run with
  | malformed e' failed =>
    cases missed
    rw [Exception.isA, customAnnotations_error failed] at asked
    cases asked
  | called result options events readable call =>
    refine ⟨readable, ?_⟩
    have answered : result = .error e := by
      cases result with
      | error e' => exact missed
      | ok value =>
        rw [Exception.isA, jsonCleanuper_error (show jsonCleanuper value = .error e from missed)] at asked
        cases asked
    have uncreating := call.uncreating rfl
    obtain ⟨sent, rfl, _⟩ := call
    rw [answered]
    refine ⟨.edited definition :: .called ⟨.read .task, mapping, definition⟩ :: sent, rfl, ?_⟩
    intro e' member
    rcases List.mem_cons.mp member with rfl | member
    · rfl
    · apply uncreating e'
      rw [← List.cons_append]
      exact List.mem_append_left _ member

theorem resourceCheckStatus_spends (s : State) :
    HealSpends ctx s (resourceCheckStatus kube node ctx mapping definition s) := by
  have kept : Untouched s (doResourceRead kube .task mapping definition s).2 := doResourceRead_untouched .task s
  have reads (state : (resourceCheckStatus kube node ctx mapping definition s).2 =
      (doResourceRead kube .task mapping definition s).2) :
      HealSpends ctx s (resourceCheckStatus kube node ctx mapping definition s) := by
    obtain ⟨events, grown, uncreating⟩ := doResourceRead_uncreating kube mapping definition .task s
    exact .free (state ▸ kept) (state ▸ grown) uncreating
  cases heals : ctx.heals with
  | false => exact reads (resourceCheckStatus_calm heals s)
  | true =>
    rcases resourceCheckStatus_state kube node heals mapping definition s with ⟨e, missed, asked, state⟩ | ⟨_, state⟩
    · obtain ⟨⟨annotations, readable⟩, events, grown, uncreating⟩ := doResourceRead_missed missed asked
      have create := editedCall_run kube ⟨.create, mapping, definition⟩
        { (doResourceRead kube .task mapping definition s).2 with
          runtime := { (doResourceRead kube .task mapping definition s).2.runtime with performTask := some true } }
      generalize editedCall kube ⟨.create, mapping, definition⟩ _ = ran at create state
      cases create with
      | malformed e' failed => cases readable.symm.trans failed
      | called result options events' _ create =>
        have behind := create.afterwards
        obtain ⟨sent, rfl, free⟩ := behind
        have raised : (resourceCheckStatus kube node ctx mapping definition s).1.isOk = false := by
          cases returned : (resourceCheckStatus kube node ctx mapping definition s).1 with
          | error e' => rfl
          | ok value =>
            obtain ⟨_, read⟩ := resourceCheckStatus_ok (Prod.ext returned rfl :
              resourceCheckStatus kube node ctx mapping definition s = (.ok (), _))
            rw [missed] at read
            cases read
        have before : ∀ e' ∈ events ++ [.returned ⟨.read .task, mapping, definition⟩ (.error e), .edited definition],
            e'.creates = false := by
          intro e' member
          rcases List.mem_append.mp member with member | member
          · exact uncreating e' member
          · simp only [List.mem_cons, List.not_mem_nil, or_false] at member
            rcases member with rfl | rfl <;> rfl
        refine ⟨?_, (events ++ [.returned ⟨.read .task, mapping, definition⟩ (.error e), .edited definition]) ++
          .called ⟨.create, mapping, definition⟩ :: sent, ?_, ?_, ?_⟩
        · rw [state]
          exact ⟨kept.kubernetes, kept.resourceDefinitions⟩
        · rw [state]
          dsimp only
          rw [grown]
          simp
        · exact .single ⟨mapping, definition, events, e, rfl, asked, rfl⟩ before free
        · have none (list : List Event) (free : ∀ e ∈ list, e.creates = false) : list.countP Event.creates = 0 := by
            rw [List.countP_eq_zero]
            intro e' member
            rw [free e' member]
            exact Bool.false_ne_true
          have one : Event.creates (.called ⟨.create, mapping, definition⟩) = true := rfl
          rw [List.countP_append, List.countP_cons, none _ before, none _ free, raised, one, OperationContext.allows,
            heals]
          decide
    · exact reads state

end

structure Observes (s s' : State) : Prop where
  kept : Untouched s s'
  grown : ∃ events, s'.log = s.log ++ events ∧ ∀ e ∈ events, e.creates = false

instance : Std.Refl Observes := ⟨fun s => ⟨Std.Refl.refl s, [], (List.append_nil _).symm, by simp⟩⟩

instance : IsTrans State Observes where
  trans s s' s'' first second := by
    obtain ⟨kept, events, grown, free⟩ := first
    obtain ⟨kept', later, grown', free'⟩ := second
    refine ⟨IsTrans.trans _ _ _ kept kept', events ++ later, by rw [grown', grown, List.append_assoc], ?_⟩
    intro e member
    exact (List.mem_append.mp member).elim (free e) (free' e)

section

variable {kube : Kubernetes} {node : Node} {ctx : OperationContext} {mapping : KubernetesApiMapping}
  {definition : KubernetesResourceDefinition}

theorem Observes.spends {α : Type} {s : State} {ran : Except Exception α × State} (observes : Observes s ran.2) :
    HealSpends ctx s ran := by
  obtain ⟨kept, events, grown, free⟩ := observes
  exact .free kept grown free

theorem Observes.of_untouched {s s' : State} (kept : Untouched s s') (same : s'.log = s.log) : Observes s s' :=
  ⟨kept, [], by rw [same, List.append_nil], by simp⟩

theorem chooseMapping_observes (definition : KubernetesResourceDefinition) : Within Observes (chooseMapping definition) := by
  intro s
  rw [chooseMapping_run]
  refine ⟨⟨rfl, rfl⟩, _, rfl, ?_⟩
  intro e member
  rw [List.mem_singleton.mp member]
  rfl

theorem recordedState_observes (path : String) : Within Observes (recordedState path) := by
  have got : Within Observes getRuntime := fun s => Std.Refl.refl s
  refine got.bind fun runtime => ?_
  split <;> exact .pure _

theorem checkIfResourceExists_observes (site : Site) :
    Within Observes (checkIfResourceExists kube site mapping definition) := by
  intro s
  rw [checkIfResourceExists_eq]
  exact ⟨doResourceRead_untouched site s, doResourceRead_uncreating kube mapping definition site s⟩

theorem modifyRuntime_observes {f : RuntimeProperties → RuntimeProperties}
    (kept : ∀ runtime, (f runtime).kubernetes = runtime.kubernetes ∧
      (f runtime).resourceDefinitions = runtime.resourceDefinitions) : Within Observes (modifyRuntime f) := by
  intro s
  exact .of_untouched ⟨(kept s.runtime).1, (kept s.runtime).2⟩ rfl

theorem handleExistingResource_observes (found : Value) : Within Observes (handleExistingResource node found) := by
  intro s
  rw [handleExistingResource_run]
  exact .of_untouched ⟨rfl, rfl⟩ rfl

variable {operation : ResourceTask}

theorem statusRound_spends (task : operation.task = fun _ => resourceCheckStatus kube node ctx)
    (kept : operation.cleanupRuntimeProperties = false)
    (mapped : ∀ definition, Within Observes (operation.retrieveMapping definition))
    (state : operation.resourceStateFunction = none ∨
      operation.resourceStateFunction = some (checkIfResourceExists kube .stateFunction))
    (path : String) (definition : KubernetesResourceDefinition) (s : State) :
    HealSpends ctx s (definitionTask node operation path definition s) := by
  have lasting := missedBefore_lasting
  have rest (mapping : KubernetesApiMapping) (currentState : Value) (s : State) : HealSpends ctx s ((do
      handleExistingResource node currentState
      operation.task path mapping definition
      modifyRuntime fun runtime => { runtime with performTask := none }
      if currentState.truthy && operation.cleanupRuntimeProperties then modifyRuntime (dropRecord path) : Task Unit) s) := by
    refine Spends.bind lasting (handleExistingResource_observes currentState s).spends fun _ s₁ _ => ?_
    have checked : HealSpends ctx s₁ (operation.task path mapping definition s₁) := by
      rw [task]
      exact resourceCheckStatus_spends s₁
    refine Spends.bind lasting checked fun _ s₂ _ => ?_
    have unflag : Within Observes (modifyRuntime fun runtime => { runtime with performTask := none }) :=
      modifyRuntime_observes fun _ => ⟨rfl, rfl⟩
    refine Spends.bind lasting (unflag s₂).spends fun _ s₃ _ => ?_
    rw [kept, Bool.and_false]
    exact .unmoved _
  refine Spends.bind lasting (mapped definition s).spends fun mapping s₁ _ => ?_
  refine Spends.bind lasting (.ofExcept _) fun resourceId s₂ _ => ?_
  apply state.elim
  · intro unset
    rw [unset]
    exact Spends.bind lasting (recordedState_observes path s₂).spends fun found s₃ _ => rest mapping found s₃
  · intro set
    rw [set]
    dsimp only
    split
    · exact Spends.bind lasting (checkIfResourceExists_observes .stateFunction s₂).spends fun found s₃ _ =>
        rest mapping found s₃
    · exact Spends.bind lasting (recordedState_observes path s₂).spends fun found s₃ _ => rest mapping found s₃

theorem statusTask_spends (task : operation.task = fun _ => resourceCheckStatus kube node ctx)
    (kept : operation.cleanupRuntimeProperties = false)
    (mapped : ∀ definition, Within Observes (operation.retrieveMapping definition))
    (state : operation.resourceStateFunction = none ∨
      operation.resourceStateFunction = some (checkIfResourceExists kube .stateFunction))
    (file : Option String) (definitions : List KubernetesResourceDefinition) (s : State) :
    HealSpends ctx s (resourceTask node operation file definitions s) := by
  have all : HealSpends ctx s (multidefinitionResourceTask node operation file definitions s) := by
    have rounds := Spends.forEach (s := s) missedBefore_lasting fun indexed (_ : indexed ∈ definitions.zipIdx) s =>
      statusRound_spends task kept mapped state
        (definitionPath node file (definitions.length > 1) indexed.2) indexed.1 s
    exact Spends.bind missedBefore_lasting rounds fun _ s' _ => .unmoved _
  rw [resourceTask, bind_run, attempt_run]
  generalize multidefinitionResourceTask node operation file definitions s = ran at all ⊢
  obtain ⟨e | value, s'⟩ := ran <;> exact all.of_same rfl rfl

theorem Operation.run_spends {operation : Operation} (checks : operation.checksStatus = true) (s : State) :
    HealSpends ctx s (operation.run kube node ctx s) := by
  have byData (definition : KubernetesResourceDefinition) :
      Within Observes (Program.ofExcept (mappingByData node) : Task KubernetesApiMapping) := .ofExcept _
  cases operation with
  | resourceReadCheckStatus definition => exact statusTask_spends rfl rfl chooseMapping_observes (.inl rfl) _ _ s
  | customCheckStatus definition => exact statusTask_spends rfl rfl byData (.inr rfl) _ _ s
  | fileResourceCheckStatus file definitions => exact statusTask_spends rfl rfl chooseMapping_observes (.inl rfl) _ _ s
  | multipleFileResourceCheckStatus files =>
    change HealSpends ctx s (multipleFileResource (CloudifyKubernetes.fileResourceCheckStatus kube node ctx) files s)
    unfold multipleFileResource
    split
    · exact .unmoved _
    · refine Spends.bind missedBefore_lasting (Spends.forEach missedBefore_lasting fun file _ s => ?_) fun _ s' _ =>
        .unmoved _
      exact statusTask_spends rfl rfl chooseMapping_observes (.inl rfl) _ _ s
  | _ => cases checks

end

section

variable (env : Environment)

theorem OperationContext.heals_retryNumber {ctx : OperationContext} (heals : ctx.heals = true) : ctx.retryNumber = 0 := by
  simp only [OperationContext.heals, Bool.and_eq_true, beq_iff_eq] at heals
  exact heals.1.2

theorem healing_once {checks : List (OperationContext × Operation)} {results : List (Except Exception Unit)}
    (same : results.length = checks.length) (once : (checks.map fun check => check.1.retryNumber).Nodup) :
    (checks.zip results).countP (fun attempt => attempt.1.1.heals && !attempt.2.isOk) ≤ 1 := by
  have fewer : (checks.zip results).countP (fun attempt => attempt.1.1.heals && !attempt.2.isOk) ≤
      (checks.zip results).countP fun attempt => attempt.1.1.retryNumber == 0 := by
    apply List.countP_mono_left
    intro attempt _ healed
    rw [Bool.and_eq_true] at healed
    exact beq_iff_eq.mpr (OperationContext.heals_retryNumber healed.1)
  have first : (checks.zip results).countP (fun attempt => attempt.1.1.retryNumber == 0) =
      (checks.map fun check => check.1.retryNumber).count 0 := by
    have whole : (checks.zip results).map Prod.fst = checks := List.map_fst_zip (by omega)
    conv_rhs => rw [← whole]
    rw [List.count, List.map_map, List.countP_map]
    rfl
  have atMost := List.nodup_iff_count_le_one.mp once 0
  omega

theorem statusAttempts_spend (options : Dict) (checks : List (OperationContext × Operation))
    (status : ∀ check ∈ checks, check.2.checksStatus = true) (s : State) (properties : Dict) :
    ∃ results s' events, lifecycle env options (checks.map fun check => (check.1, .plain check.2)) (s, properties) =
        (.ok results, (s', properties)) ∧ Untouched s s' ∧ s'.log = s.log ++ events ∧
      Reasoned Event.creates MissedBefore events ∧ results.length = checks.length ∧
      events.countP Event.creates ≤ (checks.zip results).countP fun attempt => attempt.1.1.heals && !attempt.2.isOk := by
  induction checks generalizing s with
  | nil => exact ⟨[], s, [], rfl, Std.Refl.refl s, (List.append_nil _).symm, .of_uncounted (by simp), rfl, Nat.le_refl 0⟩
  | cons check rest ih =>
    obtain ⟨first, others⟩ := List.forall_mem_cons.mp status
    have spends : HealSpends check.1 { s with options } (check.2.run env.kube env.node check.1 { s with options }) :=
      check.2.run_spends first _
    have attempted : LifecycleOperation.attempt env options (check.1, .plain check.2) (s, properties) =
        (.ok (check.2.run env.kube env.node check.1 { s with options }).1,
          ((check.2.run env.kube env.node check.1 { s with options }).2, properties)) := rfl
    generalize check.2.run env.kube env.node check.1 { s with options } = ran at spends attempted
    obtain ⟨kept, events, grown, reasoned, bounded⟩ := spends
    obtain ⟨results, s', later, looped, kept', grown', reasoned', same, bounded'⟩ := ih others ran.2
    refine ⟨ran.1 :: results, s', events ++ later, ?_, ?_, ?_, reasoned.append missedBefore_lasting reasoned', ?_, ?_⟩
    · rw [lifecycle, List.map_cons, forEach, bind_run_ok attempted]
      rw [lifecycle] at looped
      rw [bind_run_ok looped]
      rfl
    · exact ⟨kept'.kubernetes.trans kept.kubernetes, kept'.resourceDefinitions.trans kept.resourceDefinitions⟩
    · rw [grown', grown, List.append_assoc]
    · rw [List.length_cons, List.length_cons, same]
    · rw [List.countP_append, List.zip_cons_cons, List.countP_cons]
      have own : events.countP Event.creates ≤ if (check.1.heals && !ran.1.isOk) = true then 1 else 0 := by
        rw [OperationContext.allows] at bounded
        cases ended : ran.1.isOk <;> cases heals : check.1.heals <;> simpa [ended, heals] using bounded
      dsimp only
      omega

/-- However often a status check is attempted, the runtime properties stay as they are, a resource is
    only created directly behind a read of the same attempt that has missed it, by an attempt that heals and
    raises, and over all attempts of one operation there is at most one creation. -/
theorem heal_attempts (options : Dict) (checks : List (OperationContext × Operation))
    (status : ∀ check ∈ checks, check.2.checksStatus = true) (s : State) (properties : Dict) :
    ∃ results s' events, lifecycle env options (checks.map fun check => (check.1, .plain check.2)) (s, properties) =
        (.ok results, (s', properties)) ∧ Untouched s s' ∧ s'.log = s.log ++ events ∧
      Reasoned Event.creates MissedBefore events ∧
      events.countP Event.creates ≤ (checks.zip results).countP (fun attempt => attempt.1.1.heals && !attempt.2.isOk) ∧
      ((checks.map fun check => check.1.retryNumber).Nodup → events.countP Event.creates ≤ 1) := by
  obtain ⟨results, s', events, ran, kept, grown, reasoned, same, bounded⟩ :=
    statusAttempts_spend env options checks status s properties
  refine ⟨results, s', events, ran, kept, grown, reasoned, bounded, ?_⟩
  intro once
  have atMost := healing_once same once
  omega

end

open Package

def missingNode : Environment where
  kube := nothing
  node := ownNode
  load _ := .error ⟨.valueError, "while scanning a text"⟩
  checkDrift _ _ := .ok .none
  instanceId := "config_1"

def healing : List (OperationContext × Operation) :=
  [(heal, .resourceReadCheckStatus (configMap "settings" none)),
    ({ heal with retryNumber := 1 }, .resourceReadCheckStatus (configMap "settings" none))]

theorem heal_attempts_missing : ∃ results s' events,
    lifecycle missingNode mainNamespace.options (healing.map fun check => (check.1, .plain check.2))
        (mainNamespace, .empty) = (.ok results, (s', .empty)) ∧
      Untouched mainNamespace s' ∧ s'.log = mainNamespace.log ++ events ∧ Reasoned Event.creates MissedBefore events ∧
      events.countP Event.creates ≤ (healing.zip results).countP (fun attempt => attempt.1.1.heals && !attempt.2.isOk) ∧
      ((healing.map fun check => check.1.retryNumber).Nodup → events.countP Event.creates ≤ 1) := by
  have status : ∀ check ∈ healing, check.2.checksStatus = true := by
    intro check member
    simp only [healing, List.mem_cons, List.not_mem_nil, or_false] at member
    rcases member with rfl | rfl <;> rfl
  exact heal_attempts missingNode mainNamespace.options healing status mainNamespace .empty

end CloudifyKubernetes
