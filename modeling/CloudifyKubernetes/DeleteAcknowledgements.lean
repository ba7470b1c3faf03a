import CloudifyKubernetes.DeleteAttempts
import CloudifyKubernetes.Uninstall

namespace CloudifyKubernetes

open Collections Effects Program

def Event.answersTask : Event → Bool
  | .returned ⟨.read .task, _, _⟩ _ => true
  | _ => false

/-- The read of a task has failed, and the text of the failure has the marker of a missing resource. -/
def Event.saysGone (marker : String) : Event → Bool
  | .returned ⟨.read .task, _, _⟩ (.error e) => Text.contains e.text marker
  | _ => false

/-- Nothing but reads, of which so many are those of a task, and each of these is answered as missing. -/
structure Acknowledged (marker : String) (count : Nat) (events : List Event) : Prop where
  reads : ∀ e ∈ events, ∀ c, e.call? = some c → ∃ site, c.verb = .read site
  answers : events.countP Event.answersTask = count
  gone : ∀ e ∈ events, e.answersTask = true → e.saysGone marker = true

def Acknowledges (marker : String) (count : Nat) (s s' : State) : Prop :=
  ∃ events, s'.log = s.log ++ events ∧ Acknowledged marker count events

section

variable {marker : String} {count count' : Nat} {s s' s'' : State}

theorem Acknowledged.append {events later : List Event} (first : Acknowledged marker count events)
    (rest : Acknowledged marker count' later) : Acknowledged marker (count + count') (events ++ later) where
  reads e member := (List.mem_append.mp member).elim (first.reads e) (rest.reads e)
  answers := by rw [List.countP_append, first.answers, rest.answers]
  gone e member := (List.mem_append.mp member).elim (first.gone e) (rest.gone e)

theorem Acknowledges.trans (first : Acknowledges marker count s s') (rest : Acknowledges marker count' s' s'') :
    Acknowledges marker (count + count') s s'' := by
  obtain ⟨events, grown, acknowledged⟩ := first
  obtain ⟨later, grown', acknowledged'⟩ := rest
  exact ⟨events ++ later, by rw [grown', grown, List.append_assoc], acknowledged.append acknowledged'⟩

theorem Acknowledged.of_unanswered {events : List Event}
    (reads : ∀ e ∈ events, ∀ c, e.call? = some c → ∃ site, c.verb = .read site)
    (unanswered : ∀ e ∈ events, e.answersTask = false) : Acknowledged marker 0 events where
  reads := reads
  answers := by
    rw [List.countP_eq_zero]
    intro e member
    rw [unanswered e member]
    exact Bool.false_ne_true
  gone e member answers := by
    rw [unanswered e member] at answers
    cases answers

theorem Acknowledges.of_eq (same : s'.log = s.log) : Acknowledges marker 0 s s' :=
  ⟨[], by rw [same, List.append_nil], .of_unanswered (by simp) (by simp)⟩

theorem Acknowledges.of_steps {kube : Kubernetes} {site : Site} (other : site ≠ .task)
    (steps : Steps kube (fun verb => verb = .read site) s s') : Acknowledges marker 0 s s' := by
  obtain ⟨events, grown, allowed⟩ := steps_events steps
  refine ⟨events, grown, .of_unanswered (fun e member c called => ⟨site, allowed e member c called⟩) ?_⟩
  intro e member
  cases e with
  | returned c result =>
    obtain ⟨verb, mapping, definition⟩ := c
    have same : verb = .read site := allowed _ member _ rfl
    subst same
    cases site with
    | task => exact absurd rfl other
    | _ => rfl
  | _ => rfl

/-- The read of a task that fails with the marker. -/
theorem CallEvents.acknowledged {mapping : KubernetesApiMapping} {definition : KubernetesResourceDefinition} {e : Exception}
    {events : List Event} (call : CallEvents ⟨.read .task, mapping, definition⟩ (.error e) events)
    (spoken : Text.contains e.text marker = true) : Acknowledged marker 1 (.edited definition :: events) := by
  have about := call.call?_eq
  obtain ⟨sent, rfl, requests⟩ := call
  have silent : ∀ e ∈ sent, e.answersTask = false := by
    intro e member
    obtain ⟨request, answer, rfl⟩ := requests e member
    rfl
  have started : Acknowledged marker 0 (.edited definition :: .called ⟨.read .task, mapping, definition⟩ :: sent) := by
    apply Acknowledged.of_unanswered
    · intro e' member c called
      rcases List.mem_cons.mp member with rfl | member
      · cases called
      · have inside := List.mem_append_left [.returned ⟨.read .task, mapping, definition⟩ (.error e)] member
        rw [List.cons_append] at inside
        cases (about e' inside).symm.trans called
        exact ⟨.task, rfl⟩
    · exact List.forall_mem_cons.mpr ⟨rfl, List.forall_mem_cons.mpr ⟨rfl, silent⟩⟩
  have answered : Acknowledged marker 1 [.returned ⟨.read .task, mapping, definition⟩ (.error e)] := by
    refine ⟨?_, rfl, ?_⟩
    · intro e' member c called
      rw [List.mem_singleton.mp member] at called
      cases called
      exact ⟨.task, rfl⟩
    · intro e' member _
      rw [List.mem_singleton.mp member]
      exact spoken
  exact started.append answered

end

section

variable {kube : Kubernetes} {node : Node} {mapping : KubernetesApiMapping} {definition : KubernetesResourceDefinition}
  {s s' : State}

/-- The deletion of a single own resource only returns if its read fails with the marker. -/
theorem deleteUnlessMissing_spoken (owned : node.useExternalResource = false) {marker : String}
    {resourceExists : Value → KubernetesApiMapping → KubernetesResourceDefinition → Task Value}
    (ran : deleteUnlessMissing kube node marker resourceExists mapping definition s = (.ok (), s')) :
    ∃ e, (doResourceRead kube .task mapping definition s).1 = .error e ∧ e.isA .apiOperationError = true ∧
      Text.contains e.text marker = true := by
  obtain ⟨result, middle, read, ran⟩ := bind_ok_inv ran
  rw [attempt_run] at read
  cases read
  cases outcome : (doResourceRead kube .task mapping definition s).1 with
  | error e =>
    simp only [outcome] at ran
    split at ran
    · rename_i asked
      split at ran
      · rename_i spoken
        exact ⟨e, rfl, asked, spoken⟩
      · cases ran
    · cases ran
  | ok found =>
    -- Whatever becomes of the deletion, it is to be looked at again.
    simp only [outcome] at ran
    obtain ⟨chosen, _, _, ran⟩ := bind_ok_inv ran
    obtain ⟨name, _, _, ran⟩ := bind_ok_inv ran
    obtain ⟨response, _, _, ran⟩ := bind_ok_inv ran
    obtain ⟨again, _, _, ran⟩ := bind_ok_inv ran
    rw [bind_run_ok (handleDeleteResource_run _ _ _), bind_run_ok (getPerformTask_run _)] at ran
    simp only [owned, Bool.and_false, Bool.not_false, Option.getD_some, if_true] at ran
    obtain ⟨_, _, _, ran⟩ := bind_ok_inv ran
    cases ran

theorem deleteUnlessMissing_acknowledged (owned : node.useExternalResource = false) {marker : String}
    {resourceExists : Value → KubernetesApiMapping → KubernetesResourceDefinition → Task Value}
    (ran : deleteUnlessMissing kube node marker resourceExists mapping definition s = (.ok (), s')) :
    Acknowledges marker 1 s s' := by
  obtain ⟨e, failed, asked, spoken⟩ := deleteUnlessMissing_spoken owned ran
  have state := deleteUnlessMissing_returns owned ran
  have read := doResourceRead_run kube .task mapping definition s
  generalize doResourceRead kube .task mapping definition s = answer at failed read state
  subst state
  cases read with
  | malformed e' unreadable =>
    cases failed
    rw [Exception.isA, customAnnotations_error unreadable] at asked
    cases asked
  | called result options events readable call =>
    cases result with
    | ok response =>
      rw [Exception.isA, jsonCleanuper_error (show jsonCleanuper response = .error e from failed)] at asked
      cases asked
    | error e' =>
      cases failed
      exact ⟨_, rfl, call.acknowledged spoken⟩

/-- The deletion of a file goes down into adjacent resources only to raise behind them. -/
theorem fileDeletion_acknowledged (owned : node.useExternalResource = false) {path : String}
    (ran : (fileDeletion kube node).task path mapping definition s = (.ok (), s')) : Acknowledges "(404)" 1 s s' := by
  have ran : (getRuntime >>= fun runtime => fileResourceDeleteTask kube node (recursionDepth runtime) path mapping
    definition : Task Unit) s = (.ok (), s') := ran
  rw [bind_run_ok (getRuntime_run s), recursionDepth, fileResourceDeleteTask_succ] at ran
  obtain ⟨chosen, middle, looked, ran⟩ := bind_ok_inv ran
  obtain ⟨_, e, options, events, call, spoken, rfl⟩ := deleteWithAdjacentResources_missed owned ran
  have deleted : Acknowledges "(404)" 1 middle { middle with options, log := middle.log ++ .edited chosen.2.1 :: events } :=
    ⟨_, rfl, call.acknowledged spoken⟩
  have lookup : Within (Steps kube fun verb => verb = .read .stateFunction)
      (getPathWithAdjacentResources node path mapping definition) :=
    getPathWithAdjacentResources_within steps_offline node path
  have first := lookup { s with log := s.log ++ [.entered path mapping definition s.runtime] }
  rw [looked] at first
  have before : Acknowledges "(404)" 0 s middle :=
    .of_steps (by decide) (first.head (.entered s path mapping definition s.runtime))
  have whole := before.trans deleted
  rwa [Nat.zero_add] at whole

/-- A round returns with what its task has been told. -/
theorem deletingRound_acknowledged {operation : ResourceTask} {marker path : String}
    (mapped : ∀ definition, Within (Steps kube fun verb => verb = .read .stateFunction)
      (operation.retrieveMapping definition))
    (state : operation.resourceStateFunction = some (checkIfResourceExists kube .stateFunction))
    (task : ∀ mapping s s', operation.task path mapping definition s = (.ok (), s') → Acknowledges marker 1 s s')
    (ran : definitionTask node operation path definition s = (.ok (), s')) : Acknowledges marker 1 s s' := by
  rw [definitionTask_behind] at ran
  obtain ⟨⟨mapping, found⟩, before, ready, ran⟩ := bind_ok_inv ran
  obtain ⟨_, after, worked, ran⟩ := bind_ok_inv ran
  obtain ⟨_, unflagged, cleared, ran⟩ := bind_ok_inv ran
  cases cleared
  have asked : Within (Steps kube fun verb => verb = .read .stateFunction)
      (beforeTask node operation path definition) := by
    refine (mapped definition).bind fun mapping => (Within.ofExcept _).bind fun resourceId => ?_
    have looks : Within (Steps kube fun verb => verb = .read .stateFunction)
        (currentState operation path mapping definition resourceId) := by
      unfold currentState
      rw [state]
      dsimp only
      split
      · exact checkIfResourceExists_steps rfl
      · exact getRuntime_within.bind fun runtime => by split <;> exact .pure _
    exact looks.bind fun _ => (handleExistingResource_within steps_offline _ _).bind fun _ => .pure _
  have first := asked s
  rw [ready] at first
  have unasked : Acknowledges marker 0 s before := .of_steps (by decide) first
  have told := unasked.trans (task mapping before after worked)
  have cleaned : s'.log = after.log := by
    rw [cleanupRound] at ran
    split at ran <;> cases ran <;> rfl
  have whole := told.trans (.of_eq cleaned)
  rwa [Nat.zero_add] at whole

theorem deletingRounds_acknowledged {operation : ResourceTask} {marker : String}
    {todo : List (String × KubernetesResourceDefinition)}
    (round : ∀ path definition s s', definitionTask node operation path definition s = (.ok (), s') →
      Acknowledges marker 1 s s')
    (rounds : Rounds (fun target => definitionTask node operation target.1 target.2) todo s s') :
    Acknowledges marker todo.length s s' := by
  induction rounds with
  | nil s => exact .of_eq rfl
  | cons ran _ ih =>
    have whole := (round _ _ _ _ ran).trans ih
    rwa [Nat.add_comm] at whole

end

def Operation.definitions : Operation → List KubernetesResourceDefinition
  | .resourceCreate definition | .resourceRead definition | .resourceReadCheckStatus definition
  | .resourceUpdate definition | .resourceDelete definition | .customResourceCreate definition
  | .customResourceRead definition | .customCheckStatus definition | .customResourceUpdate definition
  | .customResourceDelete definition => [definition]
  | .fileResourceCreate _ definitions | .fileResourceRead _ definitions | .fileResourceCheckStatus _ definitions
  | .fileResourceUpdate _ definitions | .fileResourceDelete _ definitions => definitions
  | .multipleFileResourceCreate files | .multipleFileResourceRead files | .multipleFileResourceCheckStatus files
  | .multipleFileResourceUpdate files | .multipleFileResourceDelete files => files.flatMap Prod.snd

def Operation.missingMarker : Operation → String
  | .resourceDelete _ => codeMarker
  | _ => "(404)"

theorem length_fileTargets (node : Node) (file : Option String) (definitions : List KubernetesResourceDefinition) :
    (fileTargets node file definitions).length = definitions.length := by
  rw [fileTargets, List.length_map, List.length_zipIdx]

theorem length_targets (node : Node) (files : List (String × List KubernetesResourceDefinition)) :
    (targets node files).length = (files.flatMap Prod.snd).length := by
  induction files with
  | nil => rfl
  | cons file rest ih =>
    have ih : (rest.flatMap fun file => fileTargets node (some file.1) file.2).length = _ := ih
    rw [targets, List.flatMap_cons, List.flatMap_cons, List.length_append, List.length_append, length_fileTargets, ih]

/-- A deletion on a node that owns its resources only returns from an attempt that has asked and done
    nothing else: every answer to the read of a task in it says that a resource is gone, and there are as
    many as definitions. So whatever an attempt deletes or releases, it ends with an exception. -/
theorem deletion_acknowledged {kube : Kubernetes} {node : Node} {ctx : OperationContext} {operation : Operation}
    (owned : node.useExternalResource = false) (deletes : operation.deletes = true) {s s' : State}
    (ran : operation.run kube node ctx s = (.ok (), s')) :
    Acknowledges operation.missingMarker operation.definitions.length s s' := by
  have byKind (definition : KubernetesResourceDefinition) :
      Within (Steps kube fun verb => verb = .read .stateFunction) (chooseMapping definition) :=
    chooseMapping_steps definition
  have byData (definition : KubernetesResourceDefinition) : Within (Steps kube fun verb => verb = .read .stateFunction)
      (Program.ofExcept (mappingByData node) : Task KubernetesApiMapping) := .ofExcept _
  have ofFile (path : String) (definition : KubernetesResourceDefinition) (s s' : State)
      (ran : definitionTask node (fileDeletion kube node) path definition s = (.ok (), s')) :
      Acknowledges "(404)" 1 s s' :=
    deletingRound_acknowledged byKind rfl (fun _ _ _ => fileDeletion_acknowledged owned) ran
  cases operation with
  | resourceDelete definition =>
    have task (mapping : KubernetesApiMapping) (definition : KubernetesResourceDefinition) (s s' : State)
        (ran : deleteUnlessMissing kube node codeMarker (fun found _ _ => pure found) mapping definition s = (.ok (), s')) :
        Acknowledges codeMarker 1 s s' := deleteUnlessMissing_acknowledged owned ran
    exact deletingRounds_acknowledged (fun path definition s s' => deletingRound_acknowledged byKind rfl
      fun mapping s s' => task mapping definition s s') (resourceTask_rounds ran)
  | customResourceDelete definition =>
    have task (mapping : KubernetesApiMapping) (definition : KubernetesResourceDefinition) (s s' : State)
        (ran : deleteUnlessMissing kube node "(404)" (fun _ => checkIfResourceExists kube .afterDelete) mapping definition s =
          (.ok (), s')) : Acknowledges "(404)" 1 s s' := deleteUnlessMissing_acknowledged owned ran
    exact deletingRounds_acknowledged (fun path definition s s' => deletingRound_acknowledged byData rfl
      fun mapping s s' => task mapping definition s s') (resourceTask_rounds ran)
  | fileResourceDelete file definitions =>
    have rounds := FileDeletion.run_returned (.file file definitions) ran
    have told := deletingRounds_acknowledged ofFile rounds
    rwa [show ((FileDeletion.file file definitions).targets node).length = definitions.length from
      length_fileTargets node file definitions] at told
  | multipleFileResourceDelete files =>
    have rounds := FileDeletion.run_returned (.files files) ran
    have told := deletingRounds_acknowledged ofFile rounds
    rwa [show ((FileDeletion.files files).targets node).length = (files.flatMap Prod.snd).length from
      length_targets node files] at told
  | _ => cases deletes

open Package

theorem deletion_acknowledged_gone : ∃ s', (Operation.multipleFileResourceDelete renderedTwice).run nothing ownNode install
      mainNamespace = (.ok (), s') ∧
    Acknowledges (Operation.multipleFileResourceDelete renderedTwice).missingMarker
      (Operation.multipleFileResourceDelete renderedTwice).definitions.length mainNamespace s' := by
  have returned : returning (fun _ _ => true)
      ((Operation.multipleFileResourceDelete renderedTwice).run nothing ownNode install mainNamespace) = true := by
    decide +kernel
  obtain ⟨_, s', ran, _⟩ := returning_iff.mp returned
  exact ⟨s', ran, deletion_acknowledged rfl rfl ran⟩

end CloudifyKubernetes
