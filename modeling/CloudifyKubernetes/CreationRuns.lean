import CloudifyKubernetes.Adoption
import CloudifyKubernetes.LastCreatePath

namespace CloudifyKubernetes

open Collections Effects Program

def fileCreation (kube : Kubernetes) (node : Node) : ResourceTask where
  task := fileResourceCreateTask kube node
  retrieveMapping := chooseMapping

theorem fileResourceCreate_eq (kube : Kubernetes) (node : Node) (file : Option String)
    (definitions : List KubernetesResourceDefinition) :
    fileResourceCreate kube node file definitions = resourceTask node (fileCreation kube node) file definitions :=
  rfl

def creates (node : Node) (found : Value) : Bool :=
  !found.truthy && (!node.useExternalResource || node.createIfMissing)

theorem handleExistingResource_run (node : Node) (found : Value) (s : State) :
    handleExistingResource node found s =
      (.ok (), { s with runtime := { s.runtime with performTask := some (creates node found) } }) := by
  have flag : handleExistingResource node found = setPerformTask (creates node found) := by
    unfold handleExistingResource creates
    cases found.truthy <;> cases node.useExternalResource <;> cases node.useIfExists <;>
      cases node.createIfMissing <;> rfl
  rw [flag, setPerformTask_run]

theorem storeResultForRetrieveId_cases (v : Value) (path : String) (s : State) :
    (∃ e, storeResultForRetrieveId v path s = (.error e, s)) ∨
      ∃ d updated, resultDefinition v = .ok d ∧ updateStored d (storedDefinitions s.runtime) = .ok updated ∧
        storeResultForRetrieveId v path s = (.ok (), { s with
          runtime := recordResult v path { s.runtime with resourceDefinitions := some updated } }) := by
  cases made : resultDefinition v with
  | error e =>
    refine .inl ⟨e, ?_⟩
    rw [storeResultForRetrieveId, made]
    rfl
  | ok d =>
    cases ran : updateStored d (storedDefinitions s.runtime) with
    | error e =>
      have ran : updateStored d (s.runtime.resourceDefinitions.getD []) = .error e := ran
      refine .inl ⟨e, ?_⟩
      simp only [storeResultForRetrieveId, storeResourceDefinition, bind_run, made, ofExcept_run, getRuntime_run, ran]
    | ok updated =>
      refine .inr ⟨d, updated, rfl, ran, ?_⟩
      have ran : updateStored d (s.runtime.resourceDefinitions.getD []) = .ok updated := ran
      simp only [storeResultForRetrieveId, storeResourceDefinition, bind_run, made, ofExcept_run, getRuntime_run, ran,
        modifyRuntime_run]

def State.after (s : State) (performTask : Option Bool) (options : Dict) (events : List Event) : State :=
  { runtime := { s.runtime with performTask }, options, log := s.log ++ events }

/-- The runs of `_file_resource_create`, up to the storing of what has been found or created. -/
inductive CreateRun (node : Node) (mapping : KubernetesApiMapping) (definition : KubernetesResourceDefinition)
    (path : String) (s : State) : Except Exception Unit × State → Prop
  | malformed (e : Exception) (failed : customAnnotations definition = .error e) :
      CreateRun node mapping definition path s (.error e, s)
  | unchecked (checked : Except Exception Value) (e : Exception) (options : Dict) (events : List Event)
      (check : CallEvents ⟨.read .beforeCreate, mapping, definition⟩ checked events)
      (failed : existing definition (checked >>= jsonCleanuper) = .error e) :
      CreateRun node mapping definition path s
        (.error e, s.after s.runtime.performTask options (.edited definition :: events))
  | found (checked : Except Exception Value) (object : Value) (options : Dict) (events : List Event)
      (check : CallEvents ⟨.read .beforeCreate, mapping, definition⟩ checked events)
      (answered : existing definition (checked >>= jsonCleanuper) = .ok object)
      (kept : creates node object = false) :
      CreateRun node mapping definition path s
        (storeResultForRetrieveId object path (s.after (some false) options (.edited definition :: events)))
  | uncreated (checked : Except Exception Value) (object : Value) (events : List Event)
      (check : CallEvents ⟨.read .beforeCreate, mapping, definition⟩ checked events)
      (answered : existing definition (checked >>= jsonCleanuper) = .ok object)
      (missing : creates node object = true) (result : Except Exception Value) (e : Exception) (options : Dict)
      (events' : List Event) (create : CallEvents ⟨.create, mapping, definition⟩ result events')
      (failed : result >>= jsonCleanuper = .error e) :
      CreateRun node mapping definition path s (.error e, s.after (some true) options
        (.edited definition :: (events ++ .edited definition :: events')))
  | created (checked : Except Exception Value) (object : Value) (events : List Event)
      (check : CallEvents ⟨.read .beforeCreate, mapping, definition⟩ checked events)
      (answered : existing definition (checked >>= jsonCleanuper) = .ok object)
      (missing : creates node object = true) (raw response : Value) (options : Dict) (events' : List Event)
      (create : CallEvents ⟨.create, mapping, definition⟩ (.ok raw) events')
      (cleaned : jsonCleanuper raw = .ok response) :
      CreateRun node mapping definition path s
        (storeResultForRetrieveId response path (s.after (some true) options
          (.edited definition :: (events ++ .edited definition :: events'))))

theorem fileResourceCreateTask_run (kube : Kubernetes) (node : Node) (path : String)
    (mapping : KubernetesApiMapping) (definition : KubernetesResourceDefinition) (s : State) :
    CreateRun node mapping definition path s (fileResourceCreateTask kube node path mapping definition s) := by
  rw [fileResourceCreateTask, bind_run, checkIfResourceExists_eq]
  have read := doResourceRead_run kube .beforeCreate mapping definition s
  generalize doResourceRead kube .beforeCreate mapping definition s = ran at read ⊢
  cases read with
  | malformed e failed =>
    have unread : existing definition (.error e) = .error e := by
      rw [existing, Exception.isA, customAnnotations_error failed]
      rfl
    simp only [unread]
    exact .malformed e failed
  | called checked options events readable check =>
    simp only
    cases answered : existing definition (checked >>= jsonCleanuper) with
    | error e => exact .unchecked checked e options events check answered
    | ok object =>
      simp only [bind_run, handleExistingResource_run, getPerformTask_run, Option.getD_some]
      cases missing : creates node object with
      | false => exact .found checked object options events check answered missing
      | true =>
        simp only [if_true]
        rw [bind_run, doResourceCreate_up rfl]
        have create := editedCall_run kube ⟨.create, mapping, definition⟩
          { s with
            runtime := { s.runtime with performTask := some true }
            options := options
            log := s.log ++ .edited definition :: events }
        generalize editedCall kube ⟨.create, mapping, definition⟩ _ = ran at create ⊢
        cases create with
        | malformed e failed =>
          obtain ⟨annotations, fine⟩ := readable
          cases fine.symm.trans failed
        | called result options' events' _ create =>
          cases cleaned : result >>= jsonCleanuper with
          | error e =>
            have run : CreateRun node mapping definition path s _ := .uncreated checked object events check answered
              missing result e options' events' create cleaned
            simpa [State.after] using run
          | ok response =>
            obtain ⟨raw, rfl, cleaned⟩ := ok_of_bind cleaned
            have run : CreateRun node mapping definition path s _ := .created checked object events check answered
              missing raw response options' events' create cleaned
            simpa [State.after] using run

def finished : Except Exception Unit × State → Except Exception Unit × State
  | (.ok _, s) => (.ok (), { s with runtime := { s.runtime with performTask := none } })
  | (.error e, s) => (.error e, s)

/-- A definition without a mapping or a name is not worked on; for any other the round is its task. -/
theorem creationRound_cases (kube : Kubernetes) (node : Node) (path : String)
    (definition : KubernetesResourceDefinition) (s : State) :
    (∃ e flag events, definitionTask node (fileCreation kube node) path definition s =
        (.error e, s.after flag s.options events) ∧ (∀ e ∈ events, e.call? = none) ∧
        (mappingByKind s.options.keys definition = .error e ∨ definition.metadata.get "name" .none = .error e)) ∨
      ∃ mapping flag, mappingByKind s.options.keys definition = .ok mapping ∧
        definitionTask node (fileCreation kube node) path definition s =
          finished (fileResourceCreateTask kube node path mapping definition
            (s.after flag s.options [.mapped definition (.ok mapping)])) := by
  have chosen := chooseMapping_run definition s
  rw [definitionTask, fileCreation]
  cases mapped : mappingByKind s.options.keys definition with
  | error e =>
    rw [mapped] at chosen
    rw [bind_run_error chosen]
    refine .inl ⟨e, s.runtime.performTask, _, rfl, ?_, .inl rfl⟩
    simp [Event.call?]
  | ok mapping =>
    rw [mapped] at chosen
    rw [bind_run_ok chosen, bind_run, ofExcept_run]
    cases named : definition.metadata.get "name" .none with
    | error e =>
      refine .inl ⟨e, s.runtime.performTask, [.mapped definition (.ok mapping)], rfl, ?_, .inr rfl⟩
      simp [Event.call?]
    | ok name =>
      obtain ⟨found, read⟩ := recordedState_run path
        (s.after s.runtime.performTask s.options [.mapped definition (.ok mapping)])
      refine .inr ⟨mapping, some (creates node found), rfl, ?_⟩
      have read : recordedState path { s with log := s.log ++ [.mapped definition (.ok mapping)] } = (.ok found,
        { s with log := s.log ++ [.mapped definition (.ok mapping)] }) := read
      dsimp only
      rw [bind_run_ok read, bind_run_ok (handleExistingResource_run _ _ _), bind_run]
      simp only [State.after, Bool.and_false, Bool.false_eq_true, if_false]
      generalize fileResourceCreateTask kube node path mapping definition _ = ran
      obtain ⟨e | value, s'⟩ := ran <;> rfl

def recordFile (path : String) (v : Value) (files : Dict) : Dict :=
  if path ≠ "" then files.set path v
  else
    match v with
    | .dict entries => .ofEntries entries
    | _ => files

theorem recordedFiles_recordResult (v : Value) (path : String) (runtime : RuntimeProperties) :
    recordedFiles (recordResult v path runtime) = recordFile path v (recordedFiles runtime) := by
  unfold recordResult recordFile
  split
  · rfl
  · cases v <;> rfl

def CallsFor (definition : KubernetesResourceDefinition) (events : List Event) : Prop :=
  ∀ e ∈ events, ∀ c, e.call? = some c → c.definition = definition

def EndsWith (definition : KubernetesResourceDefinition) (v : Value) (events : List Event) : Prop :=
  ∃ front c raw, events = front ++ [.returned c (.ok raw)] ∧ c.definition = definition ∧
    jsonCleanuper raw = .ok v

theorem CallEvents.callsFor {c : ClientCall} {result : Except Exception Value} {events : List Event}
    (call : CallEvents c result events) : CallsFor c.definition events := by
  intro e member c' called
  cases (call.call?_eq e member).symm.trans called
  rfl

theorem CallsFor.append {definition : KubernetesResourceDefinition} {events events' : List Event}
    (first : CallsFor definition events) (rest : CallsFor definition events') :
    CallsFor definition (events ++ events') := by
  intro e member
  rcases List.mem_append.mp member with member | member
  · exact first e member
  · exact rest e member

theorem CallsFor.cons {definition : KubernetesResourceDefinition} {e : Event} {events : List Event}
    (free : e.call? = none) (rest : CallsFor definition events) : CallsFor definition (e :: events) := by
  intro e' member c called
  rcases List.mem_cons.mp member with rfl | member
  · cases free.symm.trans called
  · exact rest e' member c called

theorem CallEvents.endsWith {c : ClientCall} {raw v : Value} {events : List Event}
    (call : CallEvents c (.ok raw) events) (cleaned : jsonCleanuper raw = .ok v) :
    EndsWith c.definition v events := by
  obtain ⟨sent, rfl, _⟩ := call
  exact ⟨.called c :: sent, c, raw, rfl, rfl, cleaned⟩

theorem EndsWith.prepend {definition : KubernetesResourceDefinition} {v : Value} {events : List Event}
    (ends : EndsWith definition v events) (before : List Event) : EndsWith definition v (before ++ events) := by
  obtain ⟨front, c, raw, rfl, about, cleaned⟩ := ends
  exact ⟨before ++ front, c, raw, (List.append_assoc _ _ _).symm, about, cleaned⟩

structure Untouched (s s' : State) : Prop where
  kubernetes : s'.runtime.kubernetes = s.runtime.kubernetes
  resourceDefinitions : s'.runtime.resourceDefinitions = s.runtime.resourceDefinitions

structure StoredAs (path : String) (v : Value) (s s' : State) : Prop where
  files : recordedFiles s'.runtime = recordFile path v (recordedFiles s.runtime)
  definitions : ∃ d, resultDefinition v = .ok d ∧
    updateStored d (storedDefinitions s.runtime) = .ok (storedDefinitions s'.runtime)
  finished : s'.runtime.performTask = none

/-- How a round ends: after an exception the stores are as they were, and otherwise they have the
    last answer of the API. -/
def RoundEnds (path : String) (definition : KubernetesResourceDefinition) (s : State) :
    Except Exception Unit × State → Prop
  | (.error _, s') => Untouched s s' ∧ ∃ events, s'.log = s.log ++ events ∧ CallsFor definition events
  | (.ok _, s') => ∃ v events, s'.log = s.log ++ events ∧ CallsFor definition events ∧
      EndsWith definition v events ∧ StoredAs path v s s'

variable {node : Node} {mapping : KubernetesApiMapping} {definition : KubernetesResourceDefinition} {path : String}

theorem existing_stored {checked : Except Exception Value} {object : Value} {d : KubernetesResourceDefinition}
    (answered : existing definition (checked >>= jsonCleanuper) = .ok object) (made : resultDefinition object = .ok d) :
    ∃ raw, checked = .ok raw ∧ jsonCleanuper raw = .ok object := by
  cases cleaned : checked >>= jsonCleanuper with
  | error e =>
    rw [cleaned] at answered
    obtain ⟨_, rfl⟩ := existing_missing answered
    cases made
  | ok found =>
    rw [cleaned] at answered
    cases answered
    exact ok_of_bind cleaned

theorem roundEnds_of_store {v : Value} {s s₁ : State} {events : List Event} (kept : Untouched s s₁)
    (grown : s₁.log = s.log ++ events) (calls : CallsFor definition events)
    (ends : ∀ d, resultDefinition v = .ok d → EndsWith definition v events) :
    RoundEnds path definition s (finished (storeResultForRetrieveId v path s₁)) := by
  rcases storeResultForRetrieveId_cases v path s₁ with ⟨e, ran⟩ | ⟨d, updated, made, stored, ran⟩
  · rw [ran]
    exact ⟨kept, events, grown, calls⟩
  · rw [ran]
    refine ⟨v, events, grown, calls, ends d made, ?_, ⟨d, made, ?_⟩, rfl⟩
    · have same : recordedFiles s₁.runtime = recordedFiles s.runtime := by rw [recordedFiles, kept.kubernetes]; rfl
      rw [← same]
      exact recordedFiles_recordResult v path _
    · have same : storedDefinitions s₁.runtime = storedDefinitions s.runtime := by
        rw [storedDefinitions, kept.resourceDefinitions]
        rfl
      rw [← same, stored]
      congr 1
      change updated = storedDefinitions (recordResult v path _)
      rw [storedDefinitions, recordResult_resourceDefinitions]
      rfl

theorem CreateRun.roundEnds {s s₁ : State} {ran : Except Exception Unit × State}
    (run : CreateRun node mapping definition path s₁ ran) (kept : Untouched s s₁) {events : List Event}
    (grown : s₁.log = s.log ++ events) (free : CallsFor definition events) :
    RoundEnds path definition s (finished ran) := by
  have edited : CallsFor definition [.edited definition] := .cons rfl (by simp [CallsFor])
  have behind (flag : Option Bool) (options : Dict) (later : List Event) :
      Untouched s (s₁.after flag options later) ∧
        (s₁.after flag options later).log = s.log ++ (events ++ later) := by
    refine ⟨⟨kept.kubernetes, kept.resourceDefinitions⟩, ?_⟩
    rw [State.after, grown, List.append_assoc]
  cases run with
  | malformed e failed => exact ⟨kept, events, grown, free⟩
  | unchecked checked e options later check failed =>
    obtain ⟨kept, grown⟩ := behind s₁.runtime.performTask options (.edited definition :: later)
    exact ⟨kept, _, grown, free.append (edited.append check.callsFor)⟩
  | found checked object options later check answered existed =>
    obtain ⟨kept, grown⟩ := behind (some false) options (.edited definition :: later)
    refine roundEnds_of_store kept grown (free.append (edited.append check.callsFor)) fun d made => ?_
    obtain ⟨raw, rfl, cleaned⟩ := existing_stored answered made
    exact ((check.endsWith cleaned).prepend [.edited definition]).prepend events
  | uncreated checked object later check answered missing result e options later' create failed =>
    obtain ⟨kept, grown⟩ := behind (some true) options (.edited definition :: (later ++ .edited definition :: later'))
    exact ⟨kept, _, grown,
      free.append (edited.append (check.callsFor.append (edited.append create.callsFor)))⟩
  | created checked object later check answered missing raw response options later' create cleaned =>
    obtain ⟨kept, grown⟩ := behind (some true) options (.edited definition :: (later ++ .edited definition :: later'))
    refine roundEnds_of_store kept grown
      (free.append (edited.append (check.callsFor.append (edited.append create.callsFor)))) fun d made => ?_
    have ends := ((create.endsWith cleaned).prepend [.edited definition]).prepend later
    exact (ends.prepend [.edited definition]).prepend events

theorem creationRound_ends (kube : Kubernetes) (node : Node) (path : String)
    (definition : KubernetesResourceDefinition) (s : State) :
    RoundEnds path definition s (definitionTask node (fileCreation kube node) path definition s) := by
  rcases creationRound_cases kube node path definition s with
    ⟨e, flag, events, ran, free, _⟩ | ⟨mapping, flag, _, ran⟩
  · rw [ran]
    refine ⟨⟨rfl, rfl⟩, events, rfl, fun e member c called => ?_⟩
    cases (free e member).symm.trans called
  · rw [ran]
    exact (fileResourceCreateTask_run kube node path mapping definition _).roundEnds ⟨rfl, rfl⟩ rfl
      (.cons rfl (by simp [CallsFor]))

end CloudifyKubernetes
