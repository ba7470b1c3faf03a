import CloudifyKubernetes.ApiCalls
import CloudifyKubernetes.K8s.OptionsFrame

namespace CloudifyKubernetes

open Collections Effects Program

@[simp] theorem setPerformTask_run (perform : Bool) (s : State) :
    setPerformTask perform s =
      (.ok (), { s with runtime := { s.runtime with performTask := some perform } }) := rfl

@[simp] theorem getPerformTask_run (s : State) :
    getPerformTask s = (.ok (s.runtime.performTask.getD false), s) := rfl

@[simp] theorem handleDeleteResource_run (node : Node) (found : Bool) (s : State) :
    handleDeleteResource node found s = (.ok (), { s with
      runtime := { s.runtime with performTask := some !(found && node.useExternalResource) } }) := by
  unfold handleDeleteResource
  cases expected : found && node.useExternalResource <;> rfl

theorem chooseMapping_run (definition : KubernetesResourceDefinition) (s : State) :
    chooseMapping definition s = (mappingByKind s.options.keys definition,
      { s with log := s.log ++ [.mapped definition (mappingByKind s.options.keys definition)] }) := by
  simp only [chooseMapping, bind_run, getOptions_run, record_run, ofExcept_run]

def CallEvents (c : ClientCall) (result : Except Exception Value) (events : List Event) : Prop :=
  ∃ sent, events = .called c :: (sent ++ [.returned c result]) ∧
    ∀ e ∈ sent, ∃ request answer, e = .requested c request answer

theorem CallEvents.mem_iff {c : ClientCall} {result : Except Exception Value} {events : List Event}
    (call : CallEvents c result events) {e : Event} (unrequested : ∀ request answer, e ≠ .requested c request answer) :
    e ∈ events ↔ e = .called c ∨ e = .returned c result := by
  obtain ⟨sent, rfl, requests⟩ := call
  have absent : e ∉ sent := fun member => by
    obtain ⟨request, answer, same⟩ := requests e member
    exact unrequested request answer same
  simp [absent]

theorem setCustomResource_run (definition : KubernetesResourceDefinition) (s : State) :
    (∃ e, customAnnotations definition = .error e ∧ setCustomResource definition s = (.error e, s)) ∨
    ∃ options, (∃ annotations, customAnnotations definition = .ok annotations) ∧
      customResourceEdit definition s.options = .ok options ∧
      setCustomResource definition s =
        (.ok (), { s with options, log := s.log ++ [.edited definition] }) := by
  simp only [setCustomResource, bind_run, getOptions_run, ofExcept_run]
  cases found : customAnnotations definition with
  | error e =>
    have failed : customResourceEdit definition s.options = .error e := by
      simp only [customResourceEdit, found]
      rfl
    rw [failed]
    exact .inl ⟨e, rfl, rfl⟩
  | ok annotations =>
    obtain ⟨options, accepted⟩ := customResourceEdit_ok found s.options
    rw [accepted]
    exact .inr ⟨options, ⟨annotations, rfl⟩, rfl, rfl⟩

theorem customAnnotations_error {definition : KubernetesResourceDefinition} {e : Exception}
    (failed : customAnnotations definition = .error e) : e.cls = .attributeError := by
  unfold customAnnotations Value.get at failed
  cases given : definition.metadata with
  | dict entries =>
    rw [given] at failed
    simp only [bind, Except.bind] at failed
    split at failed <;> cases failed
    rfl
  | _ =>
    rw [given] at failed
    cases failed
    rfl

theorem jsonCleanuper_error {response : Value} {e : Exception}
    (failed : jsonCleanuper response = .error e) : e.cls = .attributeError := by
  unfold jsonCleanuper at failed
  split at failed <;> cases failed
  rfl

section

variable (kube : Kubernetes)

theorem clientCall_events (c : ClientCall) (s : State) :
    ∃ events, CallEvents c (clientCall kube c s).1 events ∧
      (clientCall kube c s).2 =
        { s with options := sharedOptions kube c s.options, log := s.log ++ events } := by
  have run := clientCall_run kube c s
  obtain ⟨sent, log, sends⟩ := run.log
  refine ⟨_, ⟨sent, rfl, fun e member => ?_⟩, ?_⟩
  · cases plan : (prepared kube c s.options).2 with
    | error e' =>
      rw [plan] at sends
      rw [sends.1] at member
      cases member
    | ok own =>
      rw [plan] at sends
      obtain ⟨m, _, names, arguments, answer, _, _, same⟩ := sends.1 e member
      exact ⟨_, answer, same⟩
  · have runtime := run.runtime
    have options := run.options
    generalize clientCall kube c s = result at runtime options log
    obtain ⟨value, ⟨runtime', options', log'⟩⟩ := result
    simp_all

def editedCall (c : ClientCall) : Task Value := do
  setCustomResource c.definition
  let response ← clientCall kube c
  Program.ofExcept (jsonCleanuper response)

inductive EditedRun (c : ClientCall) (s : State) : Except Exception Value × State → Prop
  | malformed (e : Exception) (failed : customAnnotations c.definition = .error e) :
      EditedRun c s (.error e, s)
  | called (result : Except Exception Value) (options : Dict) (events : List Event)
      (readable : ∃ annotations, customAnnotations c.definition = .ok annotations)
      (call : CallEvents c result events) :
      EditedRun c s (result >>= jsonCleanuper,
        { s with options, log := s.log ++ .edited c.definition :: events })

theorem editedCall_run (c : ClientCall) (s : State) : EditedRun c s (editedCall kube c s) := by
  rcases setCustomResource_run c.definition s with ⟨e, failed, run⟩ | ⟨options, readable, _, run⟩
  · rw [editedCall, bind_run_error run]
    exact .malformed e failed
  · rw [editedCall, bind_run_ok run]
    obtain ⟨events, call, ran⟩ := clientCall_events kube c
      { s with options, log := s.log ++ [.edited c.definition] }
    rw [bind_run]
    generalize clientCall kube c { s with options, log := s.log ++ [.edited c.definition] } = result
      at call ran ⊢
    obtain ⟨result, s'⟩ := result
    simp only at call ran
    subst ran
    have whole := EditedRun.called result (sharedOptions kube c options) events readable call (s := s)
    cases result with
    | error e => simpa [bind, Except.bind] using whole
    | ok value => simpa [bind, Except.bind, ofExcept_run] using whole

theorem doResourceRead_run (site : Site) (mapping : KubernetesApiMapping)
    (definition : KubernetesResourceDefinition) (s : State) :
    EditedRun ⟨.read site, mapping, definition⟩ s (doResourceRead kube site mapping definition s) :=
  editedCall_run kube ⟨.read site, mapping, definition⟩ s

theorem doResourceUpdate_run (mapping : KubernetesApiMapping)
    (definition : KubernetesResourceDefinition) (s : State) :
    EditedRun ⟨.update, mapping, definition⟩ s (doResourceUpdate kube mapping definition s) :=
  editedCall_run kube ⟨.update, mapping, definition⟩ s

def existing (definition : KubernetesResourceDefinition) :
    Except Exception Value → Except Exception Value
  | .ok found => .ok found
  | .error e =>
    if e.isA .apiOperationError then (definition.metadata.index "name").map fun _ => .none
    else .error e

theorem existing_missing {definition : KubernetesResourceDefinition} {e : Exception} {found : Value}
    (answered : existing definition (.error e) = .ok found) :
    e.isA .apiOperationError = true ∧ found = .none := by
  simp only [existing] at answered
  split at answered
  · rename_i operation
    cases named : definition.metadata.index "name" with
    | error e' =>
      rw [named] at answered
      cases answered
    | ok name =>
      rw [named] at answered
      cases answered
      exact ⟨operation, rfl⟩
  · cases answered

theorem checkIfResourceExists_eq (site : Site) (mapping : KubernetesApiMapping)
    (definition : KubernetesResourceDefinition) (s : State) :
    checkIfResourceExists kube site mapping definition s =
      (existing definition (doResourceRead kube site mapping definition s).1,
        (doResourceRead kube site mapping definition s).2) := by
  simp only [checkIfResourceExists, bind_run, attempt_run]
  generalize doResourceRead kube site mapping definition s = run
  obtain ⟨e | found, s'⟩ := run
  · simp only [existing]
    split
    · rw [bind_run, ofExcept_run]
      cases definition.metadata.index "name" <;> rfl
    · rfl
  · rfl

inductive DeleteRun (node : Node) (mapping : KubernetesApiMapping)
    (definition : KubernetesResourceDefinition) (resourceId : Value) (s : State) :
    Except Exception Value × State → Prop
  | malformed (e : Exception) (failed : customAnnotations definition = .error e) :
      DeleteRun node mapping definition resourceId s (.error e, s)
  | unchecked (readable : ∃ annotations, customAnnotations definition = .ok annotations)
      (checked : Except Exception Value) (e : Exception) (options : Dict) (events : List Event)
      (check : CallEvents ⟨.read .beforeDelete, mapping, definition⟩ checked events)
      (failed : existing definition (checked >>= jsonCleanuper) = .error e) :
      DeleteRun node mapping definition resourceId s (.error e,
        { s with options, log := s.log ++ .edited definition :: .edited definition :: events })
  | withheld (readable : ∃ annotations, customAnnotations definition = .ok annotations)
      (checked : Except Exception Value) (found : Value) (options : Dict) (events : List Event)
      (check : CallEvents ⟨.read .beforeDelete, mapping, definition⟩ checked events)
      (answered : existing definition (checked >>= jsonCleanuper) = .ok found)
      (expected : (found.truthy && node.useExternalResource) = true) :
      DeleteRun node mapping definition resourceId s (jsonCleanuper found,
        { s with
          runtime := { s.runtime with performTask := some false }
          options
          log := s.log ++ .edited definition :: .edited definition :: events })
  | deleted (readable : ∃ annotations, customAnnotations definition = .ok annotations)
      (checked : Except Exception Value) (found : Value) (options : Dict) (events : List Event)
      (check : CallEvents ⟨.read .beforeDelete, mapping, definition⟩ checked events)
      (answered : existing definition (checked >>= jsonCleanuper) = .ok found)
      (unexpected : (found.truthy && node.useExternalResource) = false)
      (result : Except Exception Value) (events' : List Event)
      (delete : CallEvents ⟨.delete resourceId, mapping, definition⟩ result events') :
      DeleteRun node mapping definition resourceId s (result >>= jsonCleanuper,
        { s with
          runtime := { s.runtime with performTask := some true }
          options
          log := s.log ++ .edited definition :: .edited definition :: (events ++ events') })

theorem doResourceDelete_run (node : Node) (mapping : KubernetesApiMapping)
    (definition : KubernetesResourceDefinition) (resourceId : Value) (s : State) :
    DeleteRun node mapping definition resourceId s
      (doResourceDelete kube node mapping definition resourceId s) := by
  rcases setCustomResource_run definition s with ⟨e, failed, run⟩ | ⟨options, readable, _, run⟩
  · rw [doResourceDelete, bind_run_error run]
    exact .malformed e failed
  rw [doResourceDelete, bind_run_ok run, bind_run, checkIfResourceExists_eq]
  have read := doResourceRead_run kube .beforeDelete mapping definition
    { s with options, log := s.log ++ [.edited definition] }
  generalize doResourceRead kube .beforeDelete mapping definition
    { s with options, log := s.log ++ [.edited definition] } = checked at read ⊢
  cases read with
  | malformed e failed =>
    obtain ⟨annotations, found⟩ := readable
    cases found.symm.trans failed
  | called checked options' events _ check =>
    simp only [List.append_assoc, List.cons_append, List.nil_append]
    cases answered : existing definition (checked >>= jsonCleanuper) with
    | error e => exact .unchecked readable checked e options' events check answered
    | ok found =>
      simp only [bind_run, handleDeleteResource_run, getPerformTask_run, Option.getD_some]
      cases expected : found.truthy && node.useExternalResource with
      | true =>
        simp only [Bool.not_true, Bool.false_eq_true, if_false, ofExcept_run]
        exact .withheld readable checked found options' events check answered expected
      | false =>
        simp only [Bool.not_false, if_true]
        have delete := clientCall_events kube ⟨.delete resourceId, mapping, definition⟩
          { s with
            runtime := { s.runtime with performTask := some true }
            options := options'
            log := s.log ++ .edited definition :: .edited definition :: events }
        simp only [clientCall] at delete
        obtain ⟨events', delete, ran⟩ := delete
        rw [bind_run]
        generalize deleteResource kube mapping definition resourceId _ = result at delete ran ⊢
        obtain ⟨result, s'⟩ := result
        simp only at delete ran
        subst ran
        have whole := fun options => DeleteRun.deleted (s := s) readable checked found options events check
          answered expected result events' delete
        cases result with
        | error e => simpa [bind, Except.bind] using whole _
        | ok value => simpa [bind, Except.bind, ofExcept_run] using whole _

end

end CloudifyKubernetes
