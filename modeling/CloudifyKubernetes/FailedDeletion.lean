import CloudifyKubernetes.Restoration

namespace CloudifyKubernetes

open Collections Effects Program

def Event.failsCall : Event → Bool
  | .returned ⟨.read .task, _, _⟩ (.error e) => e.isA .apiOperationError
  | .returned ⟨.delete _, _, _⟩ (.error e) => e.isA .apiOperationError
  | _ => false

def Quiet : State → State → Prop := Grows State.log (fun _ => False) fun e => e.failsCall = true

instance : Std.Refl Quiet := inferInstanceAs (Std.Refl (Grows _ _ _))

instance : IsTrans State Quiet := inferInstanceAs (IsTrans State (Grows _ _ _))

theorem quiet_offline : Offline Quiet := by
  refine grows_offline fun e uncalled => ⟨?_, id⟩
  cases e with
  | returned c result => cases uncalled
  | _ => exact Bool.false_ne_true

def EndsIn (c : ClientCall) (s s' : State) : Prop :=
  ∃ events result, s'.log = s.log ++ events ∧ events.getLast? = some (.returned c result)

section

variable {s s' s'' : State} {c : ClientCall}

theorem Quiet.of_events {events : List Event} (grown : s'.log = s.log ++ events)
    (quiet : ∀ e ∈ events, e.failsCall = false) : Quiet s s' :=
  .of_neutral grown fun e member => ⟨by rw [quiet e member]; exact Bool.false_ne_true, id⟩

theorem Quiet.last (quiet : Quiet s s') {e : Event} (ended : (s'.log.drop s.log.length).getLast? = some e) :
    e.failsCall = false := by
  obtain ⟨events, grown, calls⟩ := quiet
  rw [grown, List.drop_left] at ended
  by_contra fails
  obtain ⟨_, _, impossible⟩ := calls.mp ⟨e, List.mem_of_getLast? ended, by simpa using fails⟩
  exact impossible

theorem CallEvents.quiet {result : Except Exception Value} {events : List Event}
    (call : CallEvents c result events) (returned : (Event.returned c result).failsCall = false) :
    ∀ e ∈ events, e.failsCall = false := call.pass rfl (fun _ _ => rfl) returned

theorem CallEvents.endsIn {result : Except Exception Value} {events : List Event}
    (call : CallEvents c result events) (front : List Event) (grown : s'.log = s.log ++ (front ++ events)) :
    EndsIn c s s' := by
  obtain ⟨sent, rfl, _⟩ := call
  refine ⟨_, result, grown, ?_⟩
  rw [← List.cons_append, ← List.append_assoc, List.getLast?_concat]

theorem EndsIn.after (extends_ : ∃ events, s'.log = s.log ++ events) (ends : EndsIn c s' s'') : EndsIn c s s'' := by
  obtain ⟨front, grown⟩ := extends_
  obtain ⟨events, result, grown', last⟩ := ends
  refine ⟨front ++ events, result, by rw [grown', grown, List.append_assoc], ?_⟩
  rw [List.getLast?_append, last]
  rfl

/-- What a task that raises has left: the stores of a failed read, or those that a deletion
    takes the last definition from. -/
inductive FailedTask (s s' : State) : Prop
  | quiet (quiet : Quiet s s')
  | read (mapping : KubernetesApiMapping) (definition : KubernetesResourceDefinition) (kept : Untouched s s')
      (ends : EndsIn ⟨.read .task, mapping, definition⟩ s s')
  | delete (resourceId : Value) (mapping : KubernetesApiMapping) (definition : KubernetesResourceDefinition)
      (kind : String) (name : Value) (files : recordedFiles s'.runtime = recordedFiles s.runtime)
      (definitions : storedDefinitions s'.runtime = (removeNamed kind name (storedDefinitions s.runtime).dropLast).2)
      (ends : EndsIn ⟨.delete resourceId, mapping, definition⟩ s s')

end

section

variable {kube : Kubernetes} {node : Node} {mapping : KubernetesApiMapping}
  {definition : KubernetesResourceDefinition} {s s' : State}

theorem failsCall_error {c : ClientCall} {result : Except Exception Value}
    (fails : (Event.returned c result).failsCall = true) : ∃ e, result = .error e := by
  cases result with
  | error e => exact ⟨e, rfl⟩
  | ok value =>
    obtain ⟨verb, mapping, definition⟩ := c
    cases verb with
    | read site => cases site <;> cases fails
    | _ => cases fails

theorem doResourceRead_ended {result : Except Exception Value}
    (ran : doResourceRead kube .task mapping definition s = (result, s')) :
    Untouched s s' ∧ (Quiet s s' ∨ (∃ e, result = .error e) ∧ EndsIn ⟨.read .task, mapping, definition⟩ s s') := by
  have run := doResourceRead_run kube .task mapping definition s
  rw [ran] at run
  generalize returned : (result, s') = whole at run
  cases run with
  | malformed e failed =>
    cases returned
    exact ⟨Std.Refl.refl _, .inl (Std.Refl.refl _)⟩
  | called answer options events readable call =>
    obtain ⟨rfl, rfl⟩ := Prod.mk.inj returned
    refine ⟨⟨rfl, rfl⟩, ?_⟩
    cases fails : (Event.returned ⟨.read .task, mapping, definition⟩ answer).failsCall with
    | false => exact .inl (.of_events rfl (List.forall_mem_cons.mpr ⟨rfl, call.quiet fails⟩))
    | true =>
      obtain ⟨e, rfl⟩ := failsCall_error fails
      exact .inr ⟨⟨e, rfl⟩, call.endsIn [.edited definition] rfl⟩

theorem checkIfResourceExists_quiet {site : Site} (other : site ≠ .task) :
    Within Quiet (checkIfResourceExists kube site mapping definition) := by
  apply checkIfResourceExists_within
  intro s
  have run := doResourceRead_run kube site mapping definition s
  generalize doResourceRead kube site mapping definition s = ran at run ⊢
  cases run with
  | malformed e failed => exact Std.Refl.refl s
  | called answer options events readable call =>
    have passes : (Event.returned ⟨.read site, mapping, definition⟩ answer).failsCall = false := by
      cases site <;> first | rfl | exact absurd rfl other
    exact .of_events rfl (List.forall_mem_cons.mpr ⟨rfl, call.quiet passes⟩)

theorem doResourceDelete_ended {resourceId : Value} {result : Except Exception Value}
    (ran : doResourceDelete kube node mapping definition resourceId s = (result, s')) :
    Untouched s s' ∧ (Quiet s s' ∨ (∃ e, result = .error e) ∧ EndsIn ⟨.delete resourceId, mapping, definition⟩ s s') := by
  have run := doResourceDelete_run kube node mapping definition resourceId s
  rw [ran] at run
  generalize returned : (result, s') = whole at run
  have edits {events : List Event} (rest : ∀ e ∈ events, e.failsCall = false) :
      ∀ e ∈ Event.edited definition :: .edited definition :: events, e.failsCall = false :=
    List.forall_mem_cons.mpr ⟨rfl, List.forall_mem_cons.mpr ⟨rfl, rest⟩⟩
  cases run with
  | malformed e failed =>
    cases returned
    exact ⟨Std.Refl.refl _, .inl (Std.Refl.refl _)⟩
  | unchecked readable checked e options events check failed =>
    cases returned
    exact ⟨⟨rfl, rfl⟩, .inl (.of_events rfl (edits (check.quiet rfl)))⟩
  | withheld readable checked found options events check answered expected =>
    obtain ⟨rfl, rfl⟩ := Prod.mk.inj returned
    exact ⟨⟨rfl, rfl⟩, .inl (.of_events rfl (edits (check.quiet rfl)))⟩
  | deleted readable checked found options events check answered unexpected answer events' delete =>
    obtain ⟨rfl, rfl⟩ := Prod.mk.inj returned
    refine ⟨⟨rfl, rfl⟩, ?_⟩
    cases fails : (Event.returned ⟨.delete resourceId, mapping, definition⟩ answer).failsCall with
    | false =>
      refine .inl (.of_events rfl (edits fun e member => ?_))
      rcases List.mem_append.mp member with member | member
      · exact check.quiet rfl e member
      · exact delete.quiet fails e member
    | true =>
      obtain ⟨e, rfl⟩ := failsCall_error fails
      exact .inr ⟨⟨e, rfl⟩, delete.endsIn (.edited definition :: .edited definition :: events) rfl⟩

theorem deleteUnlessMissing_raises {marker : String}
    {resourceExists : Value → KubernetesApiMapping → KubernetesResourceDefinition → Task Value}
    (exists_quiet : ∀ found mapping definition, Within Quiet (resourceExists found mapping definition))
    {e : Exception} (ran : deleteUnlessMissing kube node marker resourceExists mapping definition s = (.error e, s')) :
    FailedTask s s' := by
  rw [deleteUnlessMissing, bind_run, attempt_run] at ran
  generalize read : doResourceRead kube .task mapping definition s = outcome at ran
  obtain ⟨e' | found, middle⟩ := outcome
  · obtain ⟨kept, ended⟩ := doResourceRead_ended read
    have same : s' = middle := by
      simp only at ran
      split at ran
      · split at ran
        · cases ran
        · exact (Prod.mk.inj ran).2.symm
      · exact (Prod.mk.inj ran).2.symm
    rw [same]
    rcases ended with quiet | ⟨_, ends⟩
    · exact .quiet quiet
    · exact .read mapping definition kept ends
  · obtain ⟨kept, quiet | ⟨⟨_, failed⟩, _⟩⟩ := doResourceRead_ended read
    swap
    · cases failed
    simp only at ran
    have before {s'' : State} (later : Quiet middle s'') : FailedTask s s'' := .quiet (IsTrans.trans _ _ _ quiet later)
    have taking := retrieveStoredResource_within quiet_offline node definition mapping true middle
    have forgets := retrieveStoredResource_forgets node definition mapping true middle
    rcases bind_error_inv ran with taken | ⟨chosen, taken, taken', ran⟩
    · rw [taken] at taking
      exact before taking
    rw [taken'] at taking forgets
    obtain ⟨_, name', _, _, definitions⟩ := retrieveStoredResource_ok taken'
    rcases bind_ofExcept_error_inv ran with ⟨_, rfl⟩ | ⟨name, _, ran⟩
    · exact before taking
    rcases bind_error_inv ran with failed | ⟨response, deleted, deleted', ran⟩
    · obtain ⟨kept', ended⟩ := doResourceDelete_ended failed
      rcases ended with later | ⟨_, ends⟩
      · exact before (IsTrans.trans _ _ _ taking later)
      · have files := forgets.files
        refine .delete name chosen.2 chosen.1 chosen.1.kind name' ?_ ?_ (ends.after ?_)
        · rw [kept'.files, files, kept.files]
        · rw [kept'.definitions, definitions, kept.definitions]
        · obtain ⟨events, grown, _⟩ := IsTrans.trans _ _ _ quiet taking
          exact ⟨events, grown⟩
    · obtain ⟨_, later | ⟨⟨_, failed⟩, _⟩⟩ := doResourceDelete_ended deleted'
      swap
      · cases failed
      have rest : Within Quiet (do
          let found' ← resourceExists found chosen.2 chosen.1
          handleDeleteResource node found'.truthy
          if ← getPerformTask then
            storeResultForRetrieveId found ""
            Program.raise ⟨.operationRetry, "Delete response: " ++ response.toText⟩ : Task Unit) := by
        refine (exists_quiet _ _ _).bind fun _ => (handleDeleteResource_within quiet_offline _ _).bind fun _ =>
          getPerformTask_within.bind fun perform => ?_
        split
        · exact (storeResultForRetrieveId_within quiet_offline _ _).bind fun _ => .raise _
        · exact .pure _
      have ended := rest deleted
      rw [show _ = (Except.error e, s') from ran] at ended
      exact before (IsTrans.trans _ _ _ taking (IsTrans.trans _ _ _ later ended))

end

section

variable {node : Node} {operation : ResourceTask} {path : String} {definition : KubernetesResourceDefinition}
  {s s' : State} {e : Exception}

theorem FailedTask.after {before : State} (kept : Untouched s before) (quiet : Quiet s before)
    (failed : FailedTask before s') : FailedTask s s' := by
  have grown : ∃ events, before.log = s.log ++ events := by
    obtain ⟨events, grown, _⟩ := quiet
    exact ⟨events, grown⟩
  cases failed with
  | quiet later => exact .quiet (IsTrans.trans _ _ _ quiet later)
  | read mapping definition kept' ends =>
    exact .read mapping definition (IsTrans.trans _ _ _ kept kept') (ends.after grown)
  | delete resourceId mapping definition kind name files definitions ends =>
    refine .delete resourceId mapping definition kind name ?_ ?_ (ends.after grown)
    · rw [files, kept.files]
    · rw [definitions, kept.definitions]

structure ResourceTask.AsksQuietly (operation : ResourceTask) : Prop extends operation.Asks where
  quietMapping : ∀ definition, Within Quiet (operation.retrieveMapping definition)
  quietState : ∀ stateFunction, operation.resourceStateFunction = some stateFunction →
    ∀ mapping definition, Within Quiet (stateFunction mapping definition)

theorem ResourceTask.AsksQuietly.currentState (asks : operation.AsksQuietly) (path : String)
    (mapping : KubernetesApiMapping) (definition : KubernetesResourceDefinition) (resourceId : Value) :
    Within Quiet (currentState operation path mapping definition resourceId) :=
  currentState_within asks.quietState path mapping definition resourceId

/-- A round that raises before its task makes no call of it, and otherwise ends as its task. -/
theorem taskRound_raises (asks : operation.AsksQuietly)
    (tasks : ∀ mapping s s' e, operation.task path mapping definition s = (.error e, s') → FailedTask s s')
    (ran : taskRound node operation path definition s = (.error e, s')) : FailedTask s s' := by
  rw [taskRound_eq] at ran
  rcases bind_error_inv ran with unmapped | ⟨mapping, mapped, chosen, ran⟩
  · have quiet := asks.quietMapping definition s
    rw [unmapped] at quiet
    exact .quiet quiet
  have kept := asks.mapping definition s
  have quiet := asks.quietMapping definition s
  rw [chosen] at kept quiet
  rcases bind_ofExcept_error_inv ran with ⟨_, rfl⟩ | ⟨resourceId, _, ran⟩
  · exact .quiet quiet
  have kept' := asks.toAsks.currentState path mapping definition resourceId mapped
  have quiet' := asks.currentState path mapping definition resourceId mapped
  rcases bind_error_inv ran with unread | ⟨found, read, checked, ran⟩
  · rw [unread] at quiet'
    exact .quiet (IsTrans.trans _ _ _ quiet quiet')
  rw [checked] at kept' quiet'
  have kept'' := handleExistingResource_untouched node found read
  have quiet'' := handleExistingResource_within quiet_offline node found read
  have ready : (handleExistingResource node found read).1 = .ok () := by
    rw [handleExistingResource_run]
  generalize flagged : handleExistingResource node found read = outcome at kept'' quiet'' ready
  obtain ⟨result, middle⟩ := outcome
  cases ready
  rw [runTask, bind_run_ok flagged] at ran
  have before : FailedTask middle s' := by
    rcases bind_error_inv ran with failed | ⟨_, after, done, ran⟩
    · exact tasks mapping middle s' e failed
    · cases ran
  exact before.after (IsTrans.trans _ _ _ (IsTrans.trans _ _ _ kept kept') kept'')
    (IsTrans.trans _ _ _ (IsTrans.trans _ _ _ quiet quiet') quiet'')

theorem resourceTask_raises
    (ran : resourceTask node operation none [definition] s = (.error e, s')) :
    ∃ e', taskRound node operation (definitionPath node none false 0) definition s = (.error e', s') := by
  obtain ⟨front, target, back, middle, e', split, rounds, failed⟩ := resourceTask_failed ran
  cases front with
  | nil =>
    obtain ⟨rfl, _⟩ := List.cons.inj split
    cases rounds
    rw [definitionTask_eq] at failed
    rcases bind_error_inv failed with failed | ⟨found, _, _, ran⟩
    · exact ⟨e', failed⟩
    · rw [cleanupRound] at ran
      split at ran <;> cases ran
  | cons _ _ =>
    have short := congrArg List.length split
    simp [fileTargets] at short

end

namespace SingleDeletion

variable {kube : Kubernetes} {node : Node} (deletion : SingleDeletion)

theorem asksQuietly : (deletion.task kube node).AsksQuietly := by
  have check (mapping : KubernetesApiMapping) (definition : KubernetesResourceDefinition) :
      Within Quiet (checkIfResourceExists kube .stateFunction mapping definition) :=
    checkIfResourceExists_quiet (by decide)
  cases deletion with
  | resource d =>
    refine ⟨asks _, quiet_offline.mapped, fun stateFunction given => ?_⟩
    cases given
    exact check
  | custom d =>
    refine ⟨asks _, fun _ => .ofExcept _, fun stateFunction given => ?_⟩
    cases given
    exact check

theorem task_raises {path : String} {definition : KubernetesResourceDefinition} (mapping : KubernetesApiMapping)
    (s s' : State) (e : Exception)
    (ran : (deletion.task kube node).task path mapping definition s = (.error e, s')) : FailedTask s s' := by
  cases deletion with
  | resource d =>
    have ran : deleteUnlessMissing kube node codeMarker (fun found _ _ => pure found) mapping definition s =
      (.error e, s') := ran
    exact deleteUnlessMissing_raises (fun _ _ _ => .pure _) ran
  | custom d =>
    have ran : deleteUnlessMissing kube node "(404)" (fun _ => checkIfResourceExists kube .afterDelete)
      mapping definition s = (.error e, s') := ran
    exact deleteUnlessMissing_raises (fun _ _ _ => checkIfResourceExists_quiet (by decide)) ran

theorem run_raises {ctx : OperationContext} {s s' : State} {e : Exception}
    (ran : deletion.operation.run kube node ctx s = (.error e, s')) : FailedTask s s' := by
  rw [operation_run] at ran
  obtain ⟨e', round⟩ := resourceTask_raises ran
  exact taskRound_raises deletion.asksQuietly deletion.task_raises round

/-- A deletion that ends with a failed call of its task has kept the two stores exactly if that
    call was the read, or no definition was stored. -/
theorem stores_kept_iff {ctx : OperationContext} {s s' : State} {e e' : Exception} {c : ClientCall}
    (ran : deletion.operation.run kube node ctx s = (.error e, s'))
    (ended : (s'.log.drop s.log.length).getLast? = some (.returned c (.error e')))
    (failed : (Event.returned c (.error e')).failsCall = true) :
    (storedDefinitions s'.runtime = storedDefinitions s.runtime ∧
        recordedFiles s'.runtime = recordedFiles s.runtime) ↔
      c.verb = .read .task ∨ storedDefinitions s.runtime = [] := by
  have endsIn {c' : ClientCall} (ends : EndsIn c' s s') : c' = c := by
    obtain ⟨events, result, grown, last⟩ := ends
    rw [grown, List.drop_left, last] at ended
    cases ended
    rfl
  cases deletion.run_raises ran with
  | quiet quiet =>
    rw [quiet.last ended] at failed
    cases failed
  | read mapping definition kept ends =>
    obtain rfl := endsIn ends
    exact iff_of_true ⟨kept.definitions, kept.files⟩ (.inl rfl)
  | delete resourceId mapping definition kind name files definitions ends =>
    obtain rfl := endsIn ends
    rw [files, definitions, and_iff_left rfl]
    constructor
    · intro kept
      refine .inr (List.eq_nil_of_length_eq_zero ?_)
      have shorter := (removeNamed_sublist kind name (storedDefinitions s.runtime).dropLast).length_le
      rw [kept, List.length_dropLast] at shorter
      omega
    · rintro (read | empty)
      · cases read
      · rw [empty]
        rfl

end SingleDeletion

theorem failsCall_inv {event : Event} (fails : event.failsCall = true) : ∃ c e, event = .returned c (.error e) := by
  cases event with
  | returned c result =>
    obtain ⟨e, rfl⟩ := failsCall_error fails
    exact ⟨c, e, rfl⟩
  | _ => cases fails

namespace Package

def refusing : Kubernetes := package fun _ request =>
  if request.method = "delete_namespaced_config_map" then
    .error (.apiException { status := some 500, reason := "Internal Server Error" })
  else .ok (response "ConfigMap" "settings")

def storedSettings : State :=
  { mainNamespace with runtime := { resourceDefinitions := some [response "ConfigMap" "settings"] } }

def settingsDeletion : SingleDeletion := .resource (configMap "settings" none)

end Package

open Package

theorem settingsDeletion_run : ∃ e s' c e', settingsDeletion.operation.run refusing ownNode install storedSettings =
      (.error e, s') ∧
    (s'.log.drop storedSettings.log.length).getLast? = some (.returned c (.error e')) ∧
    (Event.returned c (.error e')).failsCall = true ∧ storedDefinitions s'.runtime = [] := by
  have failed : raising (fun _ s' => ((s'.log.drop storedSettings.log.length).getLast?.any Event.failsCall) &&
        (storedDefinitions s'.runtime).isEmpty)
      (settingsDeletion.operation.run refusing ownNode install storedSettings) = true := by decide +kernel
  obtain ⟨e, s', ran, check⟩ := raising_iff.mp failed
  rw [Bool.and_eq_true, List.isEmpty_iff, Option.any_eq_true] at check
  obtain ⟨⟨event, ended, fails⟩, empty⟩ := check
  obtain ⟨c, e', rfl⟩ := failsCall_inv fails
  exact ⟨e, s', c, e', ran, ended, fails, empty⟩

/-- The stored definition is gone before the delete request fails. -/
theorem stored_definition_lost : ∃ e s' c e', settingsDeletion.operation.run refusing ownNode install storedSettings =
      (.error e, s') ∧
    (s'.log.drop storedSettings.log.length).getLast? = some (.returned c (.error e')) ∧
    (Event.returned c (.error e')).failsCall = true ∧
    ¬ (storedDefinitions s'.runtime = storedDefinitions storedSettings.runtime ∧
      recordedFiles s'.runtime = recordedFiles storedSettings.runtime) := by
  obtain ⟨e, s', c, e', ran, ended, fails, empty⟩ := settingsDeletion_run
  refine ⟨e, s', c, e', ran, ended, fails, ?_⟩
  rintro ⟨same, _⟩
  rw [empty] at same
  cases same

theorem stores_kept_iff_settings : ∃ e s' c e',
    settingsDeletion.operation.run refusing ownNode install storedSettings = (.error e, s') ∧
    (s'.log.drop storedSettings.log.length).getLast? = some (.returned c (.error e')) ∧
    ((storedDefinitions s'.runtime = storedDefinitions storedSettings.runtime ∧
        recordedFiles s'.runtime = recordedFiles storedSettings.runtime) ↔
      c.verb = .read .task ∨ storedDefinitions storedSettings.runtime = []) := by
  obtain ⟨e, s', c, e', ran, ended, fails, _⟩ := settingsDeletion_run
  exact ⟨e, s', c, e', ran, ended, settingsDeletion.stores_kept_iff ran ended fails⟩

end CloudifyKubernetes
