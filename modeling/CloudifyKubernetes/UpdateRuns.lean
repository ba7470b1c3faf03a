import CloudifyKubernetes.DriftChecks
import CloudifyKubernetes.Resumption

namespace CloudifyKubernetes

open Collections Effects Program

def Event.updated? : Event → Option (KubernetesResourceDefinition × Except Exception Value)
  | returned ⟨.update, _, definition⟩ result => some (definition, result)
  | _ => none

def storeAll (answers : List Value) (stored : List Value) : Except Exception (List Value) :=
  answers.foldlM (fun stored answer => do updateStored (← resultDefinition answer) stored) stored

def fileUpdate (kube : Kubernetes) (additions : Value) : ResourceTask where
  task := fun path mapping definition => do
    let amended ← Program.ofExcept (amendedDefinition additions definition)
    fileResourceUpdateTask kube path mapping amended
  retrieveMapping := chooseMapping

/-- The updates of several targets have been answered, each for the amended definition of its target. -/
inductive Answered (additions : Value) : List (String × KubernetesResourceDefinition) →
    List (KubernetesResourceDefinition × Except Exception Value) → List Value → Prop
  | nil : Answered additions [] [] []
  | cons {target : String × KubernetesResourceDefinition} {definition : KubernetesResourceDefinition} {raw v : Value}
      {rest : List (String × KubernetesResourceDefinition)}
      {sent : List (KubernetesResourceDefinition × Except Exception Value)} {answers : List Value}
      (amended : amendedDefinition additions target.2 = .ok definition) (cleaned : jsonCleanuper raw = .ok v)
      (others : Answered additions rest sent answers) :
      Answered additions (target :: rest) ((definition, .ok raw) :: sent) (v :: answers)

/-- The runs of a round: it sends nothing, its update fails or cannot be stored, or it is answered
    and recorded. -/
inductive UpdateRound (additions : Value) (path : String) (definition : KubernetesResourceDefinition) (s : State) :
    Except Exception Unit × State → Prop
  | unsent (e : Exception) {s' : State} (kept : Untouched s s') (events : List Event)
      (grown : s'.log = s.log ++ events) (silent : events.filterMap Event.updated? = []) :
      UpdateRound additions path definition s (.error e, s')
  | failed (e : Exception) {s' : State} (kept : Untouched s s') (events : List Event)
      (grown : s'.log = s.log ++ events) {amended : KubernetesResourceDefinition}
      (made : amendedDefinition additions definition = .ok amended) (result : Except Exception Value)
      (sent : events.filterMap Event.updated? = [(amended, result)]) :
      UpdateRound additions path definition s (.error e, s')
  | answered {s' : State} (events : List Event) (grown : s'.log = s.log ++ events)
      {amended : KubernetesResourceDefinition} (made : amendedDefinition additions definition = .ok amended)
      {raw v : Value} (cleaned : jsonCleanuper raw = .ok v)
      (sent : events.filterMap Event.updated? = [(amended, .ok raw)]) (stored : StoredAs path v s s') :
      UpdateRound additions path definition s (.ok (), s')

section

variable {kube : Kubernetes} {node : Node} {additions : Value}

theorem CallEvents.updates {mapping : KubernetesApiMapping} {definition : KubernetesResourceDefinition}
    {result : Except Exception Value} {events : List Event} (call : CallEvents ⟨.update, mapping, definition⟩ result events) :
    events.filterMap Event.updated? = [(definition, result)] := by
  obtain ⟨sent, rfl, requests⟩ := call
  have silent : sent.filterMap Event.updated? = [] := by
    apply List.filterMap_eq_nil_iff.mpr
    intro e member
    obtain ⟨request, answer, rfl⟩ := requests e member
    rfl
  have first : Event.updated? (.called ⟨.update, mapping, definition⟩) = none := rfl
  rw [List.filterMap_cons_none first, List.filterMap_append, silent]
  rfl

theorem storedAs_of_store {path : String} {v : Value} {s s₁ last : State} (kept : Untouched s s₁)
    (ran : storeResultForRetrieveId v path s₁ = (.ok (), last)) :
    StoredAs path v s { last with runtime := { last.runtime with performTask := none } } := by
  rcases storeResultForRetrieveId_cases v path s₁ with ⟨e, failed⟩ | ⟨d, updated, object, stored, whole⟩
  · cases failed.symm.trans ran
  · cases whole.symm.trans ran
    refine ⟨?_, ⟨d, object, ?_⟩, rfl⟩
    · rw [← kept.files]
      exact recordedFiles_recordResult v path _
    · rw [← kept.definitions, stored]
      apply congrArg Except.ok
      change updated = storedDefinitions (recordResult v path _)
      rw [storedDefinitions, recordResult_resourceDefinitions]
      rfl

theorem storeResultForRetrieveId_raises {v : Value} {path : String} {s s' : State} {e : Exception}
    (ran : storeResultForRetrieveId v path s = (.error e, s')) : s' = s := by
  rcases storeResultForRetrieveId_cases v path s with ⟨_, failed⟩ | ⟨_, _, _, _, returned⟩
  · cases failed.symm.trans ran
    rfl
  · cases returned.symm.trans ran

/-- The end of a round whose update has been answered: the answer is stored, or the stores are kept. -/
theorem updateRound_of_store {path : String} {definition amended : KubernetesResourceDefinition}
    (made : amendedDefinition additions definition = .ok amended) {raw v : Value} (cleaned : jsonCleanuper raw = .ok v)
    {s s₁ : State} (kept : Untouched s s₁) {events : List Event} (grown : s₁.log = s.log ++ events)
    (sent : events.filterMap Event.updated? = [(amended, .ok raw)]) :
    UpdateRound additions path definition s (finished (storeResultForRetrieveId v path s₁)) := by
  have log := finished_store_log v path s₁
  generalize stored : storeResultForRetrieveId v path s₁ = ran at log ⊢
  obtain ⟨e | _, last⟩ := ran
  · cases storeResultForRetrieveId_raises stored
    exact .failed e kept events grown made (.ok raw) sent
  · have grown : ({ last with runtime := { last.runtime with performTask := none } } : State).log = s.log ++ events :=
      log.trans grown
    exact .answered events grown made cleaned sent (storedAs_of_store kept stored)

/-- The update of an amended definition, from a state that has sent nothing in this round. -/
theorem updateRound_of_task (mapping : KubernetesApiMapping) {path : String}
    {definition amended : KubernetesResourceDefinition} (made : amendedDefinition additions definition = .ok amended)
    {s s₁ : State} (kept : Untouched s s₁) (before : List Event) (grown : s₁.log = s.log ++ before)
    (silent : before.filterMap Event.updated? = []) :
    UpdateRound additions path definition s (finished (fileResourceUpdateTask kube path mapping amended s₁)) := by
  have run := doResourceUpdate_run kube mapping amended s₁
  rw [fileResourceUpdateTask, bind_run]
  generalize doResourceUpdate kube mapping amended s₁ = ran at run ⊢
  cases run with
  | malformed e failed => exact .unsent e kept before grown silent
  | called result options events readable call =>
    have grown' : s₁.log ++ .edited amended :: events = s.log ++ (before ++ .edited amended :: events) := by
      rw [grown, List.append_assoc]
    have sent : (before ++ .edited amended :: events).filterMap Event.updated? = [(amended, result)] := by
      have first : Event.updated? (.edited amended) = none := rfl
      rw [List.filterMap_append, silent, List.filterMap_cons_none first, call.updates]
      rfl
    cases cleaned : result >>= jsonCleanuper with
    | error e => exact .failed e ⟨kept.kubernetes, kept.resourceDefinitions⟩ _ grown' made result sent
    | ok v =>
      obtain ⟨raw, rfl, cleaned⟩ := ok_of_bind cleaned
      exact updateRound_of_store made cleaned ⟨kept.kubernetes, kept.resourceDefinitions⟩ grown' sent

variable (kube node additions) in
theorem updateRound (path : String) (definition : KubernetesResourceDefinition) (s : State) :
    UpdateRound additions path definition s (definitionTask node (fileUpdate kube additions) path definition s) := by
  rcases plainRound_cases (show (fileUpdate kube additions).retrieveMapping = _ from rfl) rfl rfl node path definition s with
    ⟨e, failed, _⟩ | ⟨mapping, name, flag, mapped, called, whole⟩
  · rw [failed]
    exact .unsent e ⟨rfl, rfl⟩ _ rfl rfl
  · rw [whole]
    change UpdateRound additions path definition s (finished ((ofExcept (amendedDefinition additions definition) >>=
      fun amended => fileResourceUpdateTask kube path mapping amended : Task Unit) _))
    rw [bind_run, ofExcept_run]
    cases made : amendedDefinition additions definition with
    | error e => exact .unsent e ⟨rfl, rfl⟩ [.mapped definition (.ok mapping)] rfl rfl
    | ok amended =>
      exact updateRound_of_task mapping made ⟨rfl, rfl⟩ [.mapped definition (.ok mapping)] rfl rfl

end

structure Updated (additions : Value) (done : List (String × KubernetesResourceDefinition))
    (sent : List (KubernetesResourceDefinition × Except Exception Value)) (answers : List Value) (s s' : State) : Prop where
  answered : Answered additions done sent answers
  files : recordedFiles s'.runtime = recordAll (done.zip answers) (recordedFiles s.runtime)
  definitions : storeAll answers (storedDefinitions s.runtime) = .ok (storedDefinitions s'.runtime)

section

variable {kube : Kubernetes} {node : Node} {additions : Value} {done todo : List (String × KubernetesResourceDefinition)}
  {sent : List (KubernetesResourceDefinition × Except Exception Value)} {answers : List Value} {s middle s' : State}

theorem Updated.nil (additions : Value) (s : State) : Updated additions [] [] [] s s := ⟨.nil, rfl, rfl⟩

theorem Updated.keep (updated : Updated additions done sent answers s middle) (kept : Untouched middle s') :
    Updated additions done sent answers s s' :=
  ⟨updated.answered, kept.files.trans updated.files, kept.definitions ▸ updated.definitions⟩

theorem updateRounds_updated
    (rounds : Rounds (fun target => definitionTask node (fileUpdate kube additions) target.1 target.2) done s s') :
    ∃ sent answers events, s'.log = s.log ++ events ∧ events.filterMap Event.updated? = sent ∧
      Updated additions done sent answers s s' := by
  induction rounds with
  | nil s => exact ⟨[], [], [], (List.append_nil _).symm, rfl, .nil additions s⟩
  | @cons target rest _ s middle s' ran _ ih =>
    obtain ⟨sent, answers, later, grown', sends, updated⟩ := ih
    have round := updateRound kube node additions target.1 target.2 s
    rw [ran] at round
    cases round with
    | @answered _ events grown amended made raw v cleaned first stored =>
      obtain ⟨d, object, stores⟩ := stored.definitions
      refine ⟨(amended, .ok raw) :: sent, v :: answers, events ++ later, ?_, ?_, .cons made cleaned updated.answered, ?_, ?_⟩
      · rw [grown', grown, List.append_assoc]
      · rw [List.filterMap_append, first, sends]
        rfl
      · rw [updated.files, stored.files]
        rfl
      · have step : (do updateStored (← resultDefinition v) (storedDefinitions s.runtime)) =
            .ok (storedDefinitions middle.runtime) := by
          rw [object]
          exact stores
        rw [storeAll, List.foldlM_cons, step]
        exact updated.definitions

/-- Wherever an update of several files ends, it has sent one update for each definition of a front of
    them, in their order, and both stores have exactly the answers; at most one update more was sent,
    for the definition it ends at, and it returns only if there is no such definition. -/
theorem update_progress (kube : Kubernetes) (node : Node) (additions : Value)
    (files : List (String × List KubernetesResourceDefinition)) (s : State) :
    ∃ done todo sent last answers events, targets node files = done ++ todo ∧
      (multipleFileResourceUpdateWith kube node additions files s).2.log = s.log ++ events ∧
      events.filterMap Event.updated? = sent ++ last ∧
      Updated additions done sent answers s (multipleFileResourceUpdateWith kube node additions files s).2 ∧
      (last = [] ∨ ∃ target amended result, todo.head? = some target ∧
        amendedDefinition additions target.2 = .ok amended ∧ last = [(amended, result)]) ∧
      ((multipleFileResourceUpdateWith kube node additions files s).1 = .ok () ↔ files ≠ [] ∧ todo = []) := by
  generalize ran : multipleFileResourceUpdateWith kube node additions files s = outcome
  obtain ⟨e | _, s'⟩ := outcome
  · have ran : multipleFileResource (resourceTask node (fileUpdate kube additions)) files s = (.error e, s') := ran
    by_cases given : files = []
    · subst given
      cases ran
      exact ⟨[], [], [], [], [], [], rfl, (List.append_nil _).symm, rfl, .nil additions s, .inl rfl, by simp⟩
    · obtain ⟨front, target, back, middle, e', split, rounds, failed⟩ := multipleFileResource_failed given ran
      obtain ⟨sent, answers, events, grown, sends, updated⟩ := updateRounds_updated rounds
      have round := updateRound kube node additions target.1 target.2 middle
      rw [failed] at round
      cases round with
      | unsent e kept later grown' silent =>
        refine ⟨front, target :: back, sent, [], answers, events ++ later, split, ?_, ?_, updated.keep kept, .inl rfl, ?_⟩
        · rw [grown', grown, List.append_assoc]
        · rw [List.filterMap_append, sends, silent]
        · simp
      | @failed e _ kept later grown' amended made result one =>
        refine ⟨front, target :: back, sent, [(amended, result)], answers, events ++ later, split, ?_, ?_,
          updated.keep kept, .inr ⟨target, amended, result, rfl, made, rfl⟩, ?_⟩
        · rw [grown', grown, List.append_assoc]
        · rw [List.filterMap_append, sends, one]
        · simp
  · have ran : multipleFileResource (resourceTask node (fileUpdate kube additions)) files s = (.ok (), s') := ran
    obtain ⟨sent, answers, events, grown, sends, updated⟩ := updateRounds_updated (multipleFileResource_rounds ran)
    refine ⟨targets node files, [], sent, [], answers, events, (List.append_nil _).symm, grown, ?_, updated, .inl rfl, ?_⟩
    · rw [sends, List.append_nil]
    · have some : files ≠ [] := by
        intro none
        rw [none] at ran
        cases ran
      exact ⟨fun _ => ⟨some, rfl⟩, fun _ => rfl⟩

end

end CloudifyKubernetes
