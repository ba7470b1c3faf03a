import CloudifyKubernetes.FailedDeletion

namespace CloudifyKubernetes

open Collections Effects Program

def Event.takes : Event → Bool
  | .returned ⟨.read .task, _, _⟩ (.ok raw) => (jsonCleanuper raw).isOk
  | _ => false

def Event.finds : Event → Bool
  | .returned ⟨.read .stateFunction, _, _⟩ (.ok raw) => (jsonCleanuper raw).toOption.any Value.truthy
  | _ => false

def Event.restocked (stored : Nat) (e : Event) : Nat :=
  if e.takes then stored - 1 else if e.deleted then stored + 1 else stored

def Event.unstocking (e : Event) : Prop := e.takes = false ∧ e.deleted = false

/-- How many definitions are stored at most behind some events: an answered read of a task takes
    one, and an answered deletion stores one. -/
def stillStored (stored : Nat) (events : List Event) : Nat := events.foldl Event.restocked stored

section

variable {stored : Nat} {front back events : List Event}

theorem stillStored_append : stillStored stored (front ++ back) = stillStored (stillStored stored front) back :=
  List.foldl_append

theorem stillStored_mono {more : Nat} (less : stored ≤ more) (events : List Event) :
    stillStored stored events ≤ stillStored more events := by
  induction events generalizing stored more with
  | nil => exact less
  | cons e rest ih =>
    apply ih
    unfold Event.restocked
    split
    · omega
    · split <;> omega

theorem stillStored_unstocking (quiet : ∀ e ∈ events, e.unstocking) : stillStored stored events = stored := by
  induction events with
  | nil => rfl
  | cons e rest ih =>
    obtain ⟨⟨untaken, undeleted⟩, quiet⟩ := List.forall_mem_cons.mp quiet
    have here : e.restocked stored = stored := by
      rw [Event.restocked, untaken, undeleted]
      rfl
    change stillStored (e.restocked stored) rest = stored
    rw [here]
    exact ih quiet

theorem stillStored_taken {e : Event} (takes : e.takes = true) (quiet : ∀ e ∈ front, e.unstocking) :
    stillStored stored (front ++ [e]) = stored - 1 := by
  rw [stillStored_append, stillStored_unstocking quiet]
  change e.restocked stored = stored - 1
  rw [Event.restocked, if_pos takes]

theorem le_stillStored (untaken : ∀ e ∈ events, e.takes = false) : stored ≤ stillStored stored events := by
  induction events generalizing stored with
  | nil => exact Nat.le_refl _
  | cons e rest ih =>
    obtain ⟨here, others⟩ := List.forall_mem_cons.mp untaken
    have step : stored ≤ e.restocked stored := by
      rw [Event.restocked, here]
      split
      · contradiction
      · split <;> omega
    exact step.trans (ih others)

theorem lt_stillStored (untaken : ∀ e ∈ events, e.takes = false) (deleted : ∃ e ∈ events, e.deleted = true) :
    stored < stillStored stored events := by
  obtain ⟨e, member, deletes⟩ := deleted
  obtain ⟨front, back, rfl⟩ := List.append_of_mem member
  rw [stillStored_append]
  have first := @le_stillStored stored front fun e member => untaken e (List.mem_append_left _ member)
  have here : e.restocked (stillStored stored front) = stillStored stored front + 1 := by
    rw [Event.restocked, untaken e member, deletes]
    rfl
  have last := @le_stillStored (e.restocked (stillStored stored front)) back fun e member =>
    untaken e (List.mem_append_right _ (List.mem_cons_of_mem _ member))
  have whole : stillStored (stillStored stored front) (e :: back) =
      stillStored (e.restocked (stillStored stored front)) back := rfl
  omega

end

def Counted (s s' : State) : Prop :=
  ∃ events, s'.log = s.log ++ events ∧
    (storedDefinitions s'.runtime).length ≤ stillStored (storedDefinitions s.runtime).length events

instance : Std.Refl Counted := ⟨fun _ => ⟨[], (List.append_nil _).symm, Nat.le_refl _⟩⟩

instance : IsTrans State Counted := ⟨by
  intro s middle s' first second
  obtain ⟨events, grown, fewer⟩ := first
  obtain ⟨events', grown', fewer'⟩ := second
  refine ⟨events ++ events', by rw [grown', grown, List.append_assoc], ?_⟩
  rw [stillStored_append]
  exact fewer'.trans (stillStored_mono fewer events')⟩

section

variable {s s' : State}

theorem Passing.counted (passing : Passing Event.unstocking s s') : Counted s s' := by
  obtain ⟨kept, events, grown, quiet⟩ := passing
  refine ⟨events, grown, ?_⟩
  rw [kept.definitions, stillStored_unstocking quiet]

theorem CallEvents.unstocking {c : ClientCall} {result : Except Exception Value} {events : List Event}
    (call : CallEvents c result events) (quiet : (Event.returned c result).unstocking) : ∀ e ∈ events, e.unstocking :=
  fun e member => ⟨call.pass rfl (fun _ _ => rfl) quiet.1 e member, call.undeleted quiet.2 e member⟩

end

section

variable {kube : Kubernetes} {node : Node} {mapping : KubernetesApiMapping} {definition : KubernetesResourceDefinition}
  {s s' : State}

theorem Event.takes_asks {e : Event} (takes : e.takes = true) : ∃ c, e.call? = some c ∧ c.verb = .read .task := by
  unfold Event.takes at takes
  split at takes
  · exact ⟨_, rfl, rfl⟩
  · cases takes

theorem Event.finds_asks {e : Event} (finds : e.finds = true) :
    ∃ c, e.call? = some c ∧ c.verb = .read .stateFunction := by
  unfold Event.finds at finds
  split at finds
  · exact ⟨_, rfl, rfl⟩
  · cases finds

theorem Event.deleted_asks {e : Event} (deleted : e.deleted = true) : ∃ c id, e.call? = some c ∧ c.verb = .delete id := by
  unfold Event.deleted at deleted
  split at deleted
  · exact ⟨_, _, rfl, rfl⟩
  · cases deleted

theorem steps_unstocking {allowed : Verb → Prop} (steps : Steps kube allowed s s')
    (other : ∀ verb, allowed verb → verb ≠ .read .task ∧ ∀ id, verb ≠ .delete id) :
    ∃ events, s'.log = s.log ++ events ∧ ∀ e ∈ events, e.unstocking := by
  have asks (e : Event) (stocks : (e.takes || e.deleted) = true) : ∃ c, e.call? = some c ∧ ¬ allowed c.verb := by
    rcases Bool.or_eq_true_iff.mp stocks with takes | deleted
    · obtain ⟨c, called, verb⟩ := Event.takes_asks takes
      exact ⟨c, called, fun permitted => (other _ permitted).1 verb⟩
    · obtain ⟨c, id, called, verb⟩ := Event.deleted_asks deleted
      exact ⟨c, called, fun permitted => (other _ permitted).2 id verb⟩
  obtain ⟨events, grown, quiet⟩ := steps_lack steps asks
  exact ⟨events, grown, fun e member => Bool.or_eq_false_iff.mp (quiet e member)⟩

theorem chooseMapping_passing (definition : KubernetesResourceDefinition) :
    Within (Passing Event.unstocking) (chooseMapping definition) := by
  intro s
  rw [chooseMapping_run]
  exact ⟨⟨rfl, rfl⟩, _, rfl, List.forall_mem_singleton.mpr ⟨rfl, rfl⟩⟩

theorem checkIfResourceExists_passing {site : Site} (other : site ≠ .task) :
    Within (Passing Event.unstocking) (checkIfResourceExists kube site mapping definition) := by
  intro s
  have steps : Steps kube (fun verb => verb = .read site) s (checkIfResourceExists kube site mapping definition s).2 :=
    checkIfResourceExists_steps (by rfl) s
  refine ⟨checkIfResourceExists_untouched site s, steps_unstocking steps ?_⟩
  rintro verb rfl
  exact ⟨fun same => other (Verb.read.inj same), fun id same => by cases same⟩

theorem handleExistingResource_passing (found : Value) :
    Within (Passing Event.unstocking) (handleExistingResource node found) := by
  intro s
  rw [handleExistingResource_run]
  exact ⟨⟨rfl, rfl⟩, [], (List.append_nil _).symm, List.forall_mem_nil _⟩

/-- What the read of a task adds to the log: it ends with an answer exactly if it returns. -/
theorem readTask_ends {result : Except Exception Value}
    (ran : doResourceRead kube .task mapping definition s = (result, s')) :
    Untouched s s' ∧ ∃ events, s'.log = s.log ++ events ∧ ((∃ e, result = .error e) → ∀ e ∈ events, e.unstocking) ∧
      ((∃ v, result = .ok v) → ∃ front e, events = front ++ [e] ∧ (∀ e ∈ front, e.unstocking) ∧ e.takes = true) := by
  have run := doResourceRead_run kube .task mapping definition s
  rw [ran] at run
  generalize returned : (result, s') = whole at run
  cases run with
  | malformed e failed =>
    cases returned
    exact ⟨Std.Refl.refl _, [], (List.append_nil _).symm, fun _ => List.forall_mem_nil _, fun ⟨_, ok⟩ => by cases ok⟩
  | called answer options events readable call =>
    obtain ⟨rfl, rfl⟩ := Prod.mk.inj returned
    refine ⟨⟨rfl, rfl⟩, _, rfl, fun failed => ?_, fun answered => ?_⟩
    · refine List.forall_mem_cons.mpr ⟨⟨rfl, rfl⟩, call.unstocking ⟨?_, rfl⟩⟩
      obtain ⟨e, failed⟩ := failed
      cases answer with
      | error e' => rfl
      | ok raw =>
        have failed : jsonCleanuper raw = .error e := failed
        simp [Event.takes, failed, Except.isOk, Except.toBool]
    · obtain ⟨v, answered⟩ := answered
      obtain ⟨raw, rfl, cleaned⟩ := ok_of_bind answered
      obtain ⟨sent, rfl, requests⟩ := call
      refine ⟨.edited definition :: .called _ :: sent, _, rfl, ?_, ?_⟩
      · refine List.forall_mem_cons.mpr ⟨⟨rfl, rfl⟩, List.forall_mem_cons.mpr ⟨⟨rfl, rfl⟩, fun e member => ?_⟩⟩
        obtain ⟨request, answer, rfl⟩ := requests e member
        exact ⟨rfl, rfl⟩
      · simp [Event.takes, cleaned, Except.isOk, Except.toBool]

/-- What a deletion adds to the log: an answer to it exactly if it returns. -/
theorem doResourceDelete_answers (owned : node.useExternalResource = false) {resourceId : Value}
    {result : Except Exception Value}
    (ran : doResourceDelete kube node mapping definition resourceId s = (result, s')) :
    Untouched s s' ∧ ∃ events, s'.log = s.log ++ events ∧ (∀ e ∈ events, e.takes = false) ∧
      ((∃ e, result = .error e) → ∀ e ∈ events, e.deleted = false) ∧
      ((∃ v, result = .ok v) → ∃ e ∈ events, e.deleted = true) := by
  have steps : Steps kube (fun verb => verb ≠ .read .task) s
      (doResourceDelete kube node mapping definition resourceId s).2 :=
    doResourceDelete_steps node resourceId (by simp) (by simp) s
  obtain ⟨events, grown, untaken⟩ := steps_lack steps fun e takes => by
    obtain ⟨c, called, verb⟩ := Event.takes_asks takes
    exact ⟨c, called, fun other => other verb⟩
  rw [ran] at grown
  cases result with
  | error e =>
    obtain ⟨kept, events', grown', undeleted⟩ := doResourceDelete_failed ran
    obtain rfl : events = events' := List.append_cancel_left (grown.symm.trans grown')
    exact ⟨kept, events, grown, untaken, fun _ => undeleted, fun ⟨_, ok⟩ => by cases ok⟩
  | ok v =>
    obtain ⟨kept, _, events', grown', _, deleted⟩ := doResourceDelete_returned ran
    obtain rfl : events = events' := List.append_cancel_left (grown.symm.trans grown')
    exact ⟨kept, events, grown, untaken, (fun ⟨_, failed⟩ => by cases failed), fun _ => deleted owned⟩

theorem updateStored_length {definitions updated : List Value} (ran : updateStored definition definitions = .ok updated) :
    updated.length ≤ definitions.length + 1 := by
  induction definitions generalizing updated with
  | nil =>
    cases ran
    exact Nat.le_refl _
  | cons stored rest ih =>
    obtain ⟨same, _, ran⟩ := ok_of_bind ran
    cases same with
    | true =>
      cases ran
      exact Nat.le_succ _
    | false =>
      obtain ⟨others, done, ran⟩ := ok_of_bind ran
      cases ran
      exact Nat.succ_le_succ (ih done)

theorem storeResultForRetrieveId_adds (result : Value) (path : String) (s : State) :
    (storeResultForRetrieveId result path s).2.log = s.log ∧
      (storedDefinitions (storeResultForRetrieveId result path s).2.runtime).length ≤
        (storedDefinitions s.runtime).length + 1 := by
  rcases storeResultForRetrieveId_cases result path s with ⟨e, ran⟩ | ⟨d, updated, _, stored, ran⟩
  · rw [ran]
    exact ⟨rfl, Nat.le_succ _⟩
  · have same : storedDefinitions (recordResult result path { s.runtime with resourceDefinitions := some updated }) =
        updated := by
      rw [storedDefinitions, recordResult_resourceDefinitions]
      rfl
    rw [ran]
    refine ⟨rfl, ?_⟩
    dsimp only
    rw [same]
    exact updateStored_length stored

theorem deletion_counted (owned : node.useExternalResource = false)
    {resourceExists : Value → KubernetesApiMapping → KubernetesResourceDefinition → Task Value}
    (asks : ∀ found mapping definition, Within (Passing Event.unstocking) (resourceExists found mapping definition))
    (found resourceId : Value) :
    Within Counted (do
      let response ← doResourceDelete kube node mapping definition resourceId
      let found' ← resourceExists found mapping definition
      handleDeleteResource node found'.truthy
      if ← getPerformTask then
        storeResultForRetrieveId found ""
        Program.raise ⟨.operationRetry, "Delete response: " ++ response.toText⟩ : Task Unit) := by
  intro s
  rw [bind_run]
  generalize deletion : doResourceDelete kube node mapping definition resourceId s = ran
  obtain ⟨result, deleted⟩ := ran
  obtain ⟨kept, events, grown, untaken, failed, answered⟩ := doResourceDelete_answers owned deletion
  cases result with
  | error e => exact Passing.counted ⟨kept, events, grown, fun e' member => ⟨untaken e' member, failed ⟨e, rfl⟩ e' member⟩⟩
  | ok response =>
    -- Nothing but the storing is left, and the answer makes up for it.
    have settled (s' : State) (more : ∃ later, s'.log = deleted.log ++ later ∧ ∀ e ∈ later, e.unstocking)
        (fewer : (storedDefinitions s'.runtime).length ≤ (storedDefinitions deleted.runtime).length + 1) :
        Counted s s' := by
      obtain ⟨later, grown', quiet⟩ := more
      refine ⟨events ++ later, by rw [grown', grown, List.append_assoc], ?_⟩
      rw [stillStored_append, stillStored_unstocking quiet]
      rw [kept.definitions] at fewer
      exact fewer.trans (lt_stillStored untaken (answered ⟨response, rfl⟩))
    have unmoved (s' : State) (passing : Passing Event.unstocking deleted s') : Counted s s' := by
      refine settled s' passing.2 ?_
      rw [passing.1.definitions]
      exact Nat.le_succ _
    have checking := asks found mapping definition deleted
    dsimp only
    rw [bind_run]
    generalize resourceExists found mapping definition deleted = checked at checking ⊢
    obtain ⟨e | found', after⟩ := checked
    · exact unmoved after checking
    · dsimp only
      rw [bind_run_ok (handleDeleteResource_run _ _ _), bind_run_ok (getPerformTask_run _)]
      have marked (flag : Option Bool) : Passing Event.unstocking deleted
          { after with runtime := { after.runtime with performTask := flag } } :=
        ⟨⟨checking.1.kubernetes, checking.1.resourceDefinitions⟩, checking.2⟩
      split
      · rw [bind_run]
        obtain ⟨log, fewer⟩ := storeResultForRetrieveId_adds found "" { after with
          runtime := { after.runtime with performTask := some !(found'.truthy && node.useExternalResource) } }
        generalize storeResultForRetrieveId found "" _ = stored at log fewer ⊢
        obtain ⟨events', grown', quiet⟩ := checking.2
        have last : Counted s stored.2 := by
          refine settled stored.2 ⟨events', log.trans grown', quiet⟩ ?_
          rw [← checking.1.definitions]
          exact fewer
        obtain ⟨e | _, stored⟩ := stored <;> exact last
      · exact unmoved _ (marked _)

/-- An answered read takes a definition out, and an answered deletion puts one in. -/
theorem deleteUnlessMissing_counted (owned : node.useExternalResource = false) (marker : String)
    {resourceExists : Value → KubernetesApiMapping → KubernetesResourceDefinition → Task Value}
    (asks : ∀ found mapping definition, Within (Passing Event.unstocking) (resourceExists found mapping definition)) :
    Within Counted (deleteUnlessMissing kube node marker resourceExists mapping definition) := by
  intro s
  rw [deleteUnlessMissing, bind_run, attempt_run]
  generalize read : doResourceRead kube .task mapping definition s = ran
  obtain ⟨e | found, middle⟩ := ran
  · obtain ⟨kept, events, grown, unanswered, _⟩ := readTask_ends read
    have stayed : Counted s middle := Passing.counted ⟨kept, events, grown, unanswered ⟨e, rfl⟩⟩
    dsimp only
    split
    · split <;> exact stayed
    · exact stayed
  · obtain ⟨kept, events, grown, _, answered⟩ := readTask_ends read
    obtain ⟨front, e, rfl, quiet, takes⟩ := answered ⟨found, rfl⟩
    have taken : Counted s (retrieveStoredResource node definition mapping true middle).2 := by
      have steps : Steps kube (fun _ => False) middle (retrieveStoredResource node definition mapping true middle).2 :=
        retrieveStoredResource_within steps_offline _ _ _ _ middle
      obtain ⟨later, grown', silent⟩ := steps_unstocking steps fun _ impossible => impossible.elim
      have popped := (retrieveStoredResource_pops node definition mapping middle).length_le
      refine ⟨front ++ [e] ++ later, by rw [grown', grown, List.append_assoc], ?_⟩
      rw [stillStored_append, stillStored_unstocking silent, stillStored_taken takes quiet, ← kept.definitions]
      rwa [List.length_dropLast] at popped
    exact Within.bind_at taken fun chosen => (Within.ofExcept _).bind fun name => deletion_counted owned asks found name

end

section

variable {node : Node} {operation : ResourceTask} {path : String} {definition : KubernetesResourceDefinition}

theorem passing_counted {α : Type} {p : Task α} (passing : Within (Passing Event.unstocking) p) : Within Counted p :=
  fun s => (passing s).counted

theorem taskRound_counted
    (mapping : ∀ definition, Within (Passing Event.unstocking) (operation.retrieveMapping definition))
    (state : ∀ stateFunction, operation.resourceStateFunction = some stateFunction →
      ∀ mapping definition, Within (Passing Event.unstocking) (stateFunction mapping definition))
    (task : ∀ mapping, Within Counted (operation.task path mapping definition)) :
    Within Counted (taskRound node operation path definition) := by
  rw [taskRound_eq]
  refine (passing_counted (mapping definition)).bind fun chosen => (Within.ofExcept _).bind fun resourceId =>
    (passing_counted (currentState_within state _ _ _ _)).bind fun found =>
      (passing_counted (handleExistingResource_passing found)).bind fun _ => (task chosen).bind fun _ =>
        Within.bind (fun s => ?_) fun _ => .pure _
  exact ⟨[], (List.append_nil _).symm, Nat.le_refl _⟩

theorem cleanupRound_counted (found : Value) : Within Counted (cleanupRound operation path found) := by
  intro s
  have less := (dropRecord_lessens path s).definitions.length_le
  rw [cleanupRound]
  split
  · exact ⟨[], (List.append_nil _).symm, less⟩
  · exact Std.Refl.refl s

end

def Unfound (s s' : State) : Prop := ∃ events, s'.log = s.log ++ events ∧ ∀ e ∈ events, e.finds = false

instance : Std.Refl Unfound := ⟨fun _ => ⟨[], (List.append_nil _).symm, List.forall_mem_nil _⟩⟩

instance : IsTrans State Unfound := ⟨by
  intro s middle s' first second
  obtain ⟨events, grown, quiet⟩ := first
  obtain ⟨events', grown', quiet'⟩ := second
  exact ⟨events ++ events', by rw [grown', grown, List.append_assoc], List.forall_mem_append.mpr ⟨quiet, quiet'⟩⟩⟩

section

variable {kube : Kubernetes} {node : Node} {operation : ResourceTask} {path : String} {mapping : KubernetesApiMapping}
  {definition : KubernetesResourceDefinition} {s s' : State} {found : Value}

theorem steps_unfound (steps : Steps kube (fun verb => verb ≠ .read .stateFunction) s s') : Unfound s s' :=
  steps_lack steps fun e finds => by
    obtain ⟨c, called, verb⟩ := Event.finds_asks finds
    exact ⟨c, called, fun other => other verb⟩

theorem checkIfResourceExists_unfound
    (ran : checkIfResourceExists kube .stateFunction mapping definition s = (.ok found, s'))
    (missing : found.truthy = false) : Unfound s s' := by
  rw [checkIfResourceExists_eq] at ran
  have run := doResourceRead_run kube .stateFunction mapping definition s
  generalize doResourceRead kube .stateFunction mapping definition s = answer at run ran
  obtain ⟨existed, rfl⟩ := Prod.mk.inj ran
  cases run with
  | malformed e failed => exact Std.Refl.refl _
  | called result options events readable call =>
    refine ⟨_, rfl, List.forall_mem_cons.mpr ⟨rfl, call.pass rfl (fun _ _ => rfl) ?_⟩⟩
    cases result with
    | error e => rfl
    | ok raw =>
      have existed : existing definition (jsonCleanuper raw) = .ok found := existed
      cases cleaned : jsonCleanuper raw with
      | error e => simp [Event.finds, cleaned, Except.toOption]
      | ok v =>
        rw [cleaned] at existed
        cases existed
        simp [Event.finds, cleaned, Except.toOption, missing]

theorem currentState_unfound (function : operation.resourceStateFunction = some (checkIfResourceExists kube .stateFunction))
    {resourceId : Value} (ran : currentState operation path mapping definition resourceId s = (.ok found, s'))
    (missing : found.truthy = false) : Unfound s s' := by
  unfold currentState at ran
  rw [function] at ran
  dsimp only at ran
  split at ran
  · exact checkIfResourceExists_unfound ran missing
  · have kept : Unfound s (recordedState path s).2 := recordedState_within path s
    rwa [ran] at kept

/-- A round that reads the state as missing has not found the resource. -/
theorem taskRound_unfound (function : operation.resourceStateFunction = some (checkIfResourceExists kube .stateFunction))
    (mapped : ∀ definition, Within Unfound (operation.retrieveMapping definition))
    (tasks : ∀ mapping, Within Unfound (operation.task path mapping definition))
    (ran : taskRound node operation path definition s = (.ok found, s')) (missing : found.truthy = false) :
    Unfound s s' := by
  rw [taskRound_eq] at ran
  obtain ⟨mapping, chosen, first, ran⟩ := bind_ok_inv ran
  obtain ⟨resourceId, _, ran⟩ := bind_ofExcept_ok_inv ran
  obtain ⟨current, read, checked, ran⟩ := bind_ok_inv ran
  obtain ⟨_, ready, flagged, ran⟩ := bind_ok_inv ran
  obtain ⟨_, after, done, ran⟩ := bind_ok_inv ran
  cases ran
  have before : Unfound s chosen := by
    have kept := mapped definition s
    rwa [first] at kept
  have asked : Unfound chosen read := currentState_unfound function checked missing
  have task : Unfound ready after := by
    have kept := tasks mapping ready
    rwa [done] at kept
  rw [handleExistingResource_run] at flagged
  cases flagged
  exact IsTrans.trans _ _ _ before (IsTrans.trans _ _ _ asked task)

end

namespace SingleDeletion

variable {kube : Kubernetes} {node : Node} (deletion : SingleDeletion)

theorem mapping_passing (definition : KubernetesResourceDefinition) :
    Within (Passing Event.unstocking) ((deletion.task kube node).retrieveMapping definition) := by
  cases deletion with
  | resource d => exact chooseMapping_passing definition
  | custom d => exact .ofExcept _

theorem state_passing (stateFunction : KubernetesApiMapping → KubernetesResourceDefinition → Task Value)
    (given : (deletion.task kube node).resourceStateFunction = some stateFunction) (mapping : KubernetesApiMapping)
    (definition : KubernetesResourceDefinition) : Within (Passing Event.unstocking) (stateFunction mapping definition) := by
  cases deletion <;>
  · cases given
    exact checkIfResourceExists_passing (by decide)

theorem task_counted (owned : node.useExternalResource = false) {path : String} {mapping : KubernetesApiMapping}
    {definition : KubernetesResourceDefinition} :
    Within Counted ((deletion.task kube node).task path mapping definition) := by
  cases deletion with
  | resource d => exact deleteUnlessMissing_counted owned codeMarker fun _ _ _ => .pure _
  | custom d => exact deleteUnlessMissing_counted owned "(404)" fun _ _ _ => checkIfResourceExists_passing (by decide)

/-- One attempt, however it ends. -/
theorem run_counted (owned : node.useExternalResource = false) (ctx : OperationContext) :
    Within Counted (deletion.operation.run kube node ctx) := by
  intro s
  have round (path : String) (definition : KubernetesResourceDefinition) :
      Within Counted (taskRound node (deletion.task kube node) path definition) :=
    taskRound_counted deletion.mapping_passing deletion.state_passing fun _ => deletion.task_counted owned
  generalize ran : deletion.operation.run kube node ctx s = outcome
  obtain ⟨e | _, s'⟩ := outcome
  · rw [operation_run] at ran
    obtain ⟨e', raised⟩ := resourceTask_raises ran
    have counted := round (definitionPath node none false 0) deletion.definition s
    rwa [raised] at counted
  · have first := deletion.run_task ran
    have counted : Counted s (definitionTask node (deletion.task kube node) (definitionPath node none false 0)
        deletion.definition s).2 := by
      rw [definitionTask_eq]
      exact (round _ _).bind (fun found => cleanupRound_counted found) s
    rwa [first] at counted

theorem state_function :
    (deletion.task kube node).resourceStateFunction = some (checkIfResourceExists kube .stateFunction) := by
  cases deletion <;> rfl

theorem mapping_unfound (definition : KubernetesResourceDefinition) :
    Within Unfound ((deletion.task kube node).retrieveMapping definition) := by
  cases deletion with
  | resource d => exact fun s => @steps_unfound kube _ _ (chooseMapping_steps definition s)
  | custom d => exact .ofExcept _

theorem task_unfound {path : String} {definition : KubernetesResourceDefinition} (mapping : KubernetesApiMapping) :
    Within Unfound ((deletion.task kube node).task path mapping definition) := by
  have asked (marker : String) {resourceExists : Value → KubernetesApiMapping → KubernetesResourceDefinition → Task Value}
      (check : ∀ found mapping definition, Within (Steps kube fun verb => verb ≠ .read .stateFunction)
        (resourceExists found mapping definition)) :
      Within Unfound (deleteUnlessMissing kube node marker resourceExists mapping definition) :=
    fun s => steps_unfound (deleteUnlessMissing_within steps_offline node marker check (doResourceRead_steps (by simp))
      (fun _ _ _ _ => doResourceDelete_steps _ _ (by simp) (by simp)) s)
  cases deletion with
  | resource d => exact asked codeMarker fun _ _ _ => .pure _
  | custom d => exact asked "(404)" fun _ _ _ => checkIfResourceExists_steps (by simp)

/-- An attempt that returns has found the resource at first, if its log says so. -/
theorem existsBefore_of_finds (unfiled : node.file = none) {ctx : OperationContext} {s s' : State} {events : List Event}
    (ran : deletion.operation.run kube node ctx s = (.ok (), s')) (grown : s'.log = s.log ++ events)
    (found : ∃ e ∈ events, e.finds = true) :
    existsBefore (deletion.task kube node) "" deletion.definition s = true := by
  have first := deletion.run_task ran
  rw [path_unfiled unfiled] at first
  obtain ⟨current, middle, round, same⟩ := definitionTask_returns first
  rw [(taskRound_returns deletion.asks round).1]
  by_contra missing
  have unfound := taskRound_unfound deletion.state_function
    deletion.mapping_unfound deletion.task_unfound round (by simpa using missing)
  obtain ⟨events', grown', quiet⟩ := unfound
  have log : s'.log = middle.log := by
    rw [same]
    split <;> rfl
  obtain rfl : events = events' := List.append_cancel_left (grown.symm.trans (log.trans grown'))
  obtain ⟨e, member, finds⟩ := found
  rw [quiet e member] at finds
  cases finds

/-- Any number of attempts. -/
theorem attempts_counted (owned : node.useExternalResource = false) (options : Dict) (contexts : List OperationContext) :
    Within Counted (attempts kube node options (contexts.map fun ctx => (ctx, deletion.operation))) := by
  refine .forEach fun next member => ?_
  obtain ⟨ctx, _, rfl⟩ := List.mem_map.mp member
  have reset : Within Counted (modifyOptions fun _ => options) := fun s =>
    ⟨[], (List.append_nil _).symm, Nat.le_refl _⟩
  exact reset.bind fun _ => (deletion.run_counted owned ctx).attempt

/-- The answers to a run of attempts by which none of the definitions is left: as many reads of the
    task have been answered as there are definitions to take, and the last attempt finds the
    resource before its task, and not in it. -/
structure Settles (deletion : SingleDeletion) (kube : Kubernetes) (node : Node) (options : Dict)
    (contexts : List OperationContext) (s s' : State) : Prop where
  taken : stillStored (storedDefinitions s.runtime).length (s'.log.drop s.log.length) = 0
  found : ∃ e ∈ s'.log.drop
    (attempts kube node options (contexts.map fun ctx => (ctx, deletion.operation)) s).2.log.length, e.finds = true

/-- Attempts with such answers leave neither a definition nor a record. -/
theorem attempts_forget (owned : node.useExternalResource = false) (unfiled : node.file = none) {options : Dict}
    {contexts : List OperationContext} {ctx : OperationContext} {s s' : State} {results : List (Except Exception Unit)}
    (ran : attempts kube node options ((contexts ++ [ctx]).map fun ctx => (ctx, deletion.operation)) s =
      (.ok (results ++ [.ok ()]), s'))
    (settles : deletion.Settles kube node options contexts s s') (n : ObjectName) : Forgotten n s'.runtime := by
  have none_stored : storedDefinitions s'.runtime = [] := by
    have counted := @attempts_counted kube node deletion owned options (contexts ++ [ctx]) s
    rw [ran] at counted
    obtain ⟨events, grown, few⟩ := counted
    have taken := settles.taken
    rw [grown, List.drop_left] at taken
    exact List.length_eq_zero_iff.mp (Nat.le_zero.mp (few.trans_eq taken))
  rw [List.map_append, List.map_singleton] at ran
  have last := attempts_returned_iff.mp ⟨results, ran⟩
  obtain ⟨e, member, finds⟩ := settles.found
  generalize (attempts kube node options (contexts.map fun ctx => (ctx, deletion.operation)) s).2 = before at last member
  have counted := @run_counted kube node deletion owned ctx { before with options }
  rw [last] at counted
  obtain ⟨events, grown, _⟩ := counted
  rw [grown, List.drop_left] at member
  have existed := deletion.existsBefore_of_finds unfiled last grown ⟨e, member, finds⟩
  obtain ⟨_, files⟩ := deletion.run_returned owned unfiled last
  rw [if_pos existed] at files
  refine ⟨fun v stored => ?_, fun path => files ▸ not_recordedAt_empty n path⟩
  rw [none_stored] at stored
  cases stored

end SingleDeletion

end CloudifyKubernetes
