import CloudifyKubernetes.KeptRecords

namespace CloudifyKubernetes

open Collections Effects Program

def Event.AsksDeletion (i : Identity) : Event → Prop
  | .requested ⟨.delete _, mapping, definition⟩ _ _ => mapping.suits definition = true ∧
      Identity.ofDefinition definition = .ok i
  | _ => False

def Handled (i : Identity) (events : List Event) : Prop := (∃ e ∈ events, e.AsksDeletion i) ∨ Missed i events

theorem Missed.append {i : Identity} {events : List Event} (missed : Missed i events) (front : List Event) :
    Missed i (front ++ events) := by
  obtain ⟨e, member, misses⟩ := missed
  exact ⟨e, List.mem_append_right _ member, misses⟩

theorem Handled.append {i : Identity} {events : List Event} (handled : Handled i events) (later : List Event) :
    Handled i (events ++ later) := by
  rcases handled with ⟨e, member, asks⟩ | ⟨e, member, misses⟩
  · exact .inl ⟨e, List.mem_append_left _ member, asks⟩
  · exact .inr ⟨e, List.mem_append_left _ member, misses⟩

section

variable {kube : Kubernetes} {node : Node} {path : String} {mapping : KubernetesApiMapping}
  {definition : KubernetesResourceDefinition}

theorem readOutcome_gone {answer : Except Exception Value} {e : Exception}
    (outcome : readOutcome (answer >>= jsonCleanuper) = .ok (some e)) (missing : e.isA .missingResource = true) :
    ∃ e', answer = .error e' ∧ Text.contains e'.text "(404)" = true := by
  by_contra none
  have found : ∀ e', answer = .error e' → Text.contains e'.text "(404)" = false := by
    intro e' same
    by_contra said
    exact none ⟨e', same, by simpa using said⟩
  rcases readOutcome_found found outcome with ⟨_, _, same⟩ | ⟨_, same, other⟩
  · cases same
  · cases same
    cases other.symm.trans missing

/-- A deletion of an own resource only returns if nothing was taken with it and its read speaks of a 404. -/
theorem deleteWithAdjacentResources_missed (owned : node.useExternalResource = false)
    {delete : KubernetesApiMapping → KubernetesResourceDefinition → Task Unit} {adjacent : List (String × Value)}
    {s s' : State}
    (ran : deleteWithAdjacentResources kube node delete path adjacent definition mapping s = (.ok (), s')) :
    adjacent = [] ∧ ∃ e options events, CallEvents ⟨.read .task, mapping, definition⟩ (.error e) events ∧
      Text.contains e.text "(404)" = true ∧ s' = { s with options, log := s.log ++ .edited definition :: events } := by
  rcases readWhileAdjacentResources_cases kube mapping definition s with
    ⟨e, read⟩ | ⟨answer, options, events, call, read⟩
  · cases ran.symm.trans (bind_run_error read _)
  cases outcome : readOutcome (answer >>= jsonCleanuper) with
  | error e =>
    rw [outcome] at read
    cases ran.symm.trans (bind_run_error read _)
  | ok said =>
    rw [outcome] at read
    have rest := (bind_run_ok read _).symm.trans ran
    cases said with
    | none =>
      obtain ⟨result, last, deleted, rest⟩ := bind_ok_inv rest
      obtain ⟨text, rfl⟩ := deleteWhileAdjacentResources_returns owned deleted
      cases rest
    | some e =>
      dsimp only at rest
      split at rest
      · rename_i missing
        obtain ⟨e', rfl, spoken⟩ := readOutcome_gone outcome missing
        split at rest
        · rename_i alone
          obtain ⟨_, rfl⟩ := Prod.mk.inj rest
          exact ⟨List.isEmpty_iff.mp alone, e', options, events, call, spoken, rfl⟩
        · obtain ⟨_, _, _, rest⟩ := bind_ok_inv rest
          obtain ⟨_, _, _, rest⟩ := bind_ok_inv rest
          cases rest
      · cases rest

structure ReturnedDeletion (path : String) (s : State) (events : List Event) (s' : State) : Prop where
  spoken : SaysMissing events
  lessens : Lessens s s'
  left : recordedFiles s'.runtime = leftBy path s.runtime
  free : (recordedFiles s'.runtime).get? path = none
  taken : ∀ found, takenAt path s.runtime = some found → found.adjacent = [] ∧
    (ReadMisses events → ∀ i, Identity.ofDict found.resource = .ok i → Missed i events)

theorem fileResourceDeleteTask_returned (owned : node.useExternalResource = false) {depth : Nat} {s s' : State}
    {events : List Event} (stored : WellStored s)
    (ran : fileResourceDeleteTask kube node (depth + 1) path mapping definition s = (.ok (), s'))
    (grown : s'.log = s.log ++ .entered path mapping definition s.runtime :: events) :
    ReturnedDeletion path s events s' := by
  have entered : Lessens s { s with log := s.log ++ [.entered path mapping definition s.runtime] } :=
    ⟨.refl _, fun _ _ found => found⟩
  have stored := entered.wellStored stored
  have lookup := @getPathWithAdjacentResources_ends node path mapping definition _ stored
  have less : Lessens _ _ := @getPathWithAdjacentResources_lessens node path mapping definition
    { s with log := s.log ++ [.entered path mapping definition s.runtime] }
  obtain ⟨choices, grown', unanswered⟩ := @getPathWithAdjacentResources_unanswered node path mapping definition
    { s with log := s.log ++ [.entered path mapping definition s.runtime] }
  rw [fileResourceDeleteTask_succ] at ran
  obtain ⟨⟨adjacent, definition', mapping'⟩, s₂, looked, ran⟩ := bind_ok_inv ran
  rw [looked] at lookup less grown'
  obtain ⟨alone, e, options, front, call, spoken, rfl⟩ := deleteWithAdjacentResources_missed owned ran
  have less : Lessens s s₂ := IsTrans.trans _ _ _ entered less
  obtain rfl : events = choices ++ .edited definition' :: front := by
    have whole : s₂.log ++ .edited definition' :: front = _ := grown
    rw [show s₂.log = _ from grown'] at whole
    simpa using whole.symm
  have first : firstAnswer (choices ++ .edited definition' :: front) = some (.error e) := by
    rw [firstAnswer_append unanswered]
    change firstAnswer front = _
    have answer := call.firstAnswer []
    rwa [List.append_nil] at answer
  refine ⟨⟨e, first, spoken⟩, ⟨less.definitions, less.files⟩, ?_, ?_, ?_⟩
  · cases lookup with
    | unresolved _ _ untaken _ files => exact files.trans (leftBy_untaken stored untaken).symm
    | taken _ _ _ _ _ left => exact left
  · cases lookup with
    | unresolved _ _ _ free files =>
      change (recordedFiles s₂.runtime).get? path = none
      rw [files]
      exact free
    | taken found _ _ _ taken left =>
      change (recordedFiles s₂.runtime).get? path = none
      rw [left]
      exact (takenAt_took taken).free.1
  · intro found taken
    cases lookup with
    | unresolved _ _ untaken => cases untaken.symm.trans taken
    | taken found' _ _ _ taken' _ made suits =>
      obtain rfl : found' = found := Option.some.inj (taken'.symm.trans taken)
      refine ⟨alone, fun misses i named => ?_⟩
      obtain ⟨e', same, gone⟩ := misses.answer first
      cases same
      exact ⟨.returned ⟨.read .task, mapping', definition'⟩ (.error e), by simp [call.returned_mem], gone, suits,
        made.identity.trans named⟩

end

def beforeTask (node : Node) (operation : ResourceTask) (path : String) (definition : KubernetesResourceDefinition) :
    Task (KubernetesApiMapping × Value) := do
  let mapping ← operation.retrieveMapping definition
  let resourceId ← Program.ofExcept (definition.metadata.get "name" .none)
  let found ← currentState operation path mapping definition resourceId
  handleExistingResource node found
  return (mapping, found)

theorem definitionTask_behind (node : Node) (operation : ResourceTask) (path : String)
    (definition : KubernetesResourceDefinition) : definitionTask node operation path definition =
      beforeTask node operation path definition >>= fun ready =>
        operation.task path ready.1 definition >>= fun _ =>
          modifyRuntime (fun runtime => { runtime with performTask := none }) >>= fun _ =>
            cleanupRound operation path ready.2 := by
  rw [definitionTask_eq, taskRound_eq]
  simp only [beforeTask, runTask, bind_assoc]
  rfl

def deletionRound (kube : Kubernetes) (node : Node) (target : String × KubernetesResourceDefinition) : Task Unit :=
  definitionTask node (fileDeletion kube node) target.1 target.2

section

variable {kube : Kubernetes} {node : Node} {path : String} {mapping : KubernetesApiMapping}
  {definition : KubernetesResourceDefinition}

variable (kube node path definition) in
theorem beforeTask_untouched : Within Untouched (beforeTask node (fileDeletion kube node) path definition) :=
  (chooseMapping_untouched _).bind fun _ => (Within.ofExcept _).bind fun _ =>
    ((fileDeletion_asks kube node).currentState _ _ _ _).bind fun _ =>
      (handleExistingResource_untouched _ _).bind fun _ => .pure _

variable (kube node path definition) in
theorem beforeTask_asks {allowed : Verb → Prop} (reads : allowed (.read .stateFunction)) :
    Within (Steps kube allowed) (beforeTask node (fileDeletion kube node) path definition) := by
  refine (chooseMapping_steps _).bind fun mapping => (Within.ofExcept _).bind fun resourceId => ?_
  have state : Within (Steps kube allowed) (currentState (fileDeletion kube node) path mapping definition resourceId) := by
    refine currentState_within (fun stateFunction given => ?_) path mapping definition resourceId
    cases given
    exact fun _ _ => checkIfResourceExists_steps reads
  exact state.bind fun _ => (handleExistingResource_within steps_offline _ _).bind fun _ => .pure _

variable (kube node path definition) in
theorem beforeTask_steps :
    Within (Steps kube fun _ => True) (beforeTask node (fileDeletion kube node) path definition) :=
  beforeTask_asks kube node path definition trivial

def leftBehind (path : String) (found : Value) (runtime : RuntimeProperties) : RuntimeProperties :=
  if found.truthy then dropRecord path { runtime with performTask := none } else { runtime with performTask := none }

/-- How a round of the deletion ends: before its task, as its task raises, or behind it. -/
inductive DeletionRoundEnds (kube : Kubernetes) (node : Node) (path : String)
    (definition : KubernetesResourceDefinition) (s : State) : Except Exception Unit × State → Prop
  | early (e : Exception) (s' : State) (kept : Untouched s s') (grown : ∃ events, s'.log = s.log ++ events) :
      DeletionRoundEnds kube node path definition s (.error e, s')
  | raised (mapping : KubernetesApiMapping) (found : Value) (before : State)
      (ready : beforeTask node (fileDeletion kube node) path definition s = (.ok (mapping, found), before))
      (e : Exception) (s' : State)
      (ran : fileResourceDeleteTask kube node (recursionDepth before.runtime) path mapping definition before =
        (.error e, s')) : DeletionRoundEnds kube node path definition s (.error e, s')
  | returned (mapping : KubernetesApiMapping) (found : Value) (before : State)
      (ready : beforeTask node (fileDeletion kube node) path definition s = (.ok (mapping, found), before))
      (after : State)
      (ran : fileResourceDeleteTask kube node (recursionDepth before.runtime) path mapping definition before =
        (.ok (), after)) :
      DeletionRoundEnds kube node path definition s
        (.ok (), { after with runtime := leftBehind path found after.runtime })

variable (kube node path definition) in
theorem deletionRound_ends (s : State) :
    DeletionRoundEnds kube node path definition s (deletionRound kube node (path, definition) s) := by
  rw [deletionRound, definitionTask_behind, bind_run]
  have kept := beforeTask_untouched kube node path definition s
  have grown := steps_extend (beforeTask_steps kube node path definition s)
  generalize ready : beforeTask node (fileDeletion kube node) path definition s = outcome at kept grown
  obtain ⟨e | ⟨mapping, found⟩, before⟩ := outcome
  · exact .early e before kept grown
  · have task : (fileDeletion kube node).task path mapping definition before =
        fileResourceDeleteTask kube node (recursionDepth before.runtime) path mapping definition before := rfl
    dsimp only
    rw [bind_run, task]
    generalize ran : fileResourceDeleteTask kube node _ path mapping definition before = outcome
    obtain ⟨e | _, after⟩ := outcome
    · exact .raised mapping found before ready e after ran
    · have cleans : (fileDeletion kube node).cleanupRuntimeProperties = true := rfl
      have ends := DeletionRoundEnds.returned mapping found before ready after ran
      dsimp only
      rw [bind_run_ok (modifyRuntime_run _ _), cleanupRound, cleans, Bool.and_true]
      rw [leftBehind] at ends
      split at ends <;> rename_i there
      · rwa [if_pos there]
      · rwa [if_neg there]

end

inductive Spared (node : Node) (found : LastCreatePath) (left : Dict) (log events : List Event) : Prop
  | restored (back : GoesBack node found left events)
  | handled (each : ∀ i, found.Names i → Handled i log ∨ Records left i)
      (alone : SaysMissing events → found.adjacent = [])

/-- A call, and the cleanup behind it, drop no record of a resource that has not been handled. -/
structure SafeCall (node : Node) (existed : Bool) (path : String) (runtime : RuntimeProperties)
    (log events : List Event) : Prop where
  taken : ∀ found, takenAt path runtime = some found → Spared node found (leftBy path runtime) log events
  wiped : existed = true → SaysMissing events → (∀ found, takenAt path runtime = some found → found.adjacent = []) →
    ∀ i, Records (leftBy path runtime) i → Handled i log

def SafeRound (kube : Kubernetes) (node : Node) (since : Nat) (target : String × KubernetesResourceDefinition)
    (s : State) : Prop :=
  ∀ mapping found before,
    beforeTask node (fileDeletion kube node) target.1 target.2 s = (.ok (mapping, found), before) →
    ∀ result after events,
      fileResourceDeleteTask kube node (recursionDepth before.runtime) target.1 mapping target.2 before =
        (result, after) →
      after.log = before.log ++ .entered target.1 mapping target.2 before.runtime :: events →
      SafeCall node found.truthy target.1 before.runtime (after.log.drop since) events

/-- Only results are recorded, each under the path of one of the targets, and what is stored has been
    stored for results. -/
structure Filed (todo : List (String × KubernetesResourceDefinition)) (s : State) : Prop where
  targets : ∀ target ∈ todo, target.1 ≠ "" ∧ target.2.Storable
  records : ∀ path v, (recordedFiles s.runtime).get? path = some v →
    path ∈ todo.map Prod.fst ∧ ∃ kind version fields, IsResult v kind version fields
  stored : ∀ v ∈ storedDefinitions s.runtime, v.IsStored

structure Accounted (todo : List (String × KubernetesResourceDefinition)) (start s : State) : Prop where
  filed : Filed todo s
  grown : ∃ events, s.log = start.log ++ events
  kept : ∀ i, Records (recordedFiles start.runtime) i →
    Records (recordedFiles s.runtime) i ∨ Handled i (s.log.drop start.log.length)

section

variable {todo : List (String × KubernetesResourceDefinition)} {start s s' : State} {path : String}

theorem Filed.wellStored (filed : Filed todo s) : WellStored s := by
  refine ⟨fun path v found => ?_, fun v member => (filed.stored v member).plain⟩
  obtain ⟨inside, result⟩ := filed.records path v found
  obtain ⟨target, member, rfl⟩ := List.mem_map.mp inside
  exact ⟨(filed.targets target member).1, result⟩

theorem Filed.refills (filed : Filed todo s) (member : path ∈ todo.map Prod.fst) (refills : Refills path s s') :
    Filed todo s' := by
  refine ⟨filed.targets, fun key v there => ?_, fun v there => ?_⟩
  · rcases refills.files key v there with old | ⟨rfl, result⟩
    · exact filed.records key v old
    · exact ⟨member, result⟩
  · rcases refills.definitions v there with old | stored
    · exact filed.stored v old
    · exact stored

theorem Accounted.step (accounted : Accounted todo start s) (member : path ∈ todo.map Prod.fst)
    (refills : Refills path s s') (grown : ∃ events, s'.log = s.log ++ events)
    (kept : ∀ i, Records (recordedFiles s.runtime) i →
      Records (recordedFiles s'.runtime) i ∨ Handled i (s'.log.drop start.log.length)) : Accounted todo start s' := by
  obtain ⟨events, grown⟩ := grown
  obtain ⟨front, before⟩ := accounted.grown
  have later : s'.log.drop start.log.length = s.log.drop start.log.length ++ events := by
    rw [grown, List.drop_append_of_le_length]
    rw [before, List.length_append]
    exact Nat.le_add_right _ _
  refine ⟨accounted.filed.refills member refills, ⟨front ++ events, by rw [grown, before, List.append_assoc]⟩, ?_⟩
  intro i recorded
  rcases accounted.kept i recorded with still | handled
  · exact kept i still
  · rw [later]
    exact .inr (handled.append events)

end

def AnswersResults (events : List Event) : Prop :=
  ∀ c raw v, .returned c (.ok raw) ∈ events → jsonCleanuper raw = .ok v → ∃ kind version fields, IsResult v kind version fields

theorem Filed.stores {todo : List (String × KubernetesResourceDefinition)} {s s' : State}
    {target : String × KubernetesResourceDefinition} (filed : Filed todo s) (member : target ∈ todo) {v : Value}
    (result : ∃ kind version fields, IsResult v kind version fields) (stored : StoredAs target.1 v s s') :
    Filed todo s' := by
  obtain ⟨kind, version, fields, is⟩ := result
  refine filed.refills (List.mem_map_of_mem member) ⟨?_, fun key w there => ?_⟩
  · obtain ⟨d, made, ran⟩ := stored.definitions
    obtain rfl := Except.ok.inj (is.definition.symm.trans made)
    exact is.restocks filed.wellStored.plain ran
  · rw [stored.files, recordFile_named (filed.targets target member).1, OrderedDict.get?_set] at there
    split at there
    · rename_i here
      cases there
      exact .inr ⟨here, kind, version, fields, is⟩
    · exact .inl there

theorem creationRounds_file {kube : Kubernetes} {node : Node} {todo rest : List (String × KubernetesResourceDefinition)}
    {s s' : State} (inside : ∀ target ∈ rest, target ∈ todo)
    (rounds : Rounds (fun target => definitionTask node (fileCreation kube node) target.1 target.2) rest s s') :
    (∃ events, s'.log = s.log ++ events) ∧ (Filed todo s → AnswersResults s'.log → Filed todo s') := by
  induction rounds with
  | nil s => exact ⟨⟨[], (List.append_nil _).symm⟩, fun filed _ => filed⟩
  | @cons target rest _ s middle s' ran _ ih =>
    obtain ⟨member, inside⟩ := List.forall_mem_cons.mp inside
    have ends := creationRound_ends kube node target.1 target.2 s
    rw [ran] at ends
    obtain ⟨v, first, grown, _, ⟨front, c, raw, rfl, _, cleaned⟩, stored⟩ := ends
    obtain ⟨⟨events, grown'⟩, files⟩ := ih inside
    refine ⟨⟨front ++ [.returned c (.ok raw)] ++ events, by rw [grown', grown, List.append_assoc]⟩, ?_⟩
    intro filed answers
    have answered : .returned c (.ok raw) ∈ s'.log := by
      rw [grown', grown]
      simp
    exact files (filed.stores member (answers c raw v answered cleaned) stored) answers

section

variable {node : Node} {definition : KubernetesResourceDefinition} {path : String} {s s' : State}
  {front events : List Event} {existed : Bool}

theorem RaisedDeletion.refills (raised : RaisedDeletion node definition path s events s')
    (owned : node.useExternalResource = false) (named : path ≠ "") (storable : definition.Storable)
    (stored : ∀ v ∈ storedDefinitions s.runtime, v.IsStored)
    (safe : SafeCall node existed path s.runtime (front ++ events) events) : Refills path s s' := by
  cases raised with
  | untaken _ _ refills => exact refills named storable stored
  | dropped _ _ _ _ _ refills => exact refills
  | external _ _ _ external _ => cases external.symm.trans owned
  | answered _ _ _ _ _ _ _ _ refills => exact refills named
  | missing found taken missing alone continued =>
    cases safe.taken found taken with
    | restored back =>
      cases back with
      | answered _ read _ _ =>
        obtain ⟨response, answer⟩ := read
        obtain ⟨e, other, _⟩ := missing
        cases answer.symm.trans other
      | spared present _ => exact absurd missing present
      | continued missed inner => exact (continued missed inner).2
    | handled _ single => exact (alone (single missing)).2

theorem RaisedDeletion.accounts (raised : RaisedDeletion node definition path s events s')
    (owned : node.useExternalResource = false) (named : path ≠ "")
    (safe : SafeCall node existed path s.runtime (front ++ events) events) {i : Identity}
    (recorded : Records (recordedFiles s.runtime) i) :
    Records (recordedFiles s'.runtime) i ∨ Handled i (front ++ events) := by
  have restored (restores : Restores node path s.runtime events) :
      Records (recordedFiles s'.runtime) i ∨ Handled i (front ++ events) :=
    (raised.keeps restores i recorded).imp_right fun missed => .inr (missed.append front)
  cases taken : takenAt path s.runtime with
  | none =>
    refine restored ⟨fun unnamed => absurd unnamed named, fun found some => ?_⟩
    cases taken.symm.trans some
  | some found =>
    cases safe.taken found taken with
    | restored back =>
      refine restored ⟨fun unnamed => absurd unnamed named, fun found' taken' => ?_⟩
      obtain rfl : found = found' := Option.some.inj (taken.symm.trans taken')
      exact back
    | handled each single =>
      have dropped (same : recordedFiles s'.runtime = leftBy path s.runtime) :
          Records (recordedFiles s'.runtime) i ∨ Handled i (front ++ events) :=
        (takenAt_took taken).spared each (fun _ left => same ▸ left) recorded
      cases raised with
      | untaken untaken _ _ => cases untaken.symm.trans taken
      | dropped _ _ _ same _ _ => exact dropped same
      | external _ _ _ external _ => cases external.symm.trans owned
      | answered found' taken' _ _ _ v same put _ =>
        rw [recordFile_named named] at put
        rw [put]
        exact .inl ((takenAt_took taken').restored same recorded)
      | missing found' taken' missing alone _ =>
        obtain rfl : found = found' := Option.some.inj (taken.symm.trans taken')
        exact dropped (alone (single missing)).1

theorem ReturnedDeletion.accounts (returned : ReturnedDeletion path s events s') (stored : WellStored s)
    (safe : SafeCall node existed path s.runtime (front ++ events) events) {i : Identity}
    (recorded : Records (recordedFiles s.runtime) i) :
    Records (recordedFiles s'.runtime) i ∨ Handled i (front ++ events) := by
  rw [returned.left]
  cases taken : takenAt path s.runtime with
  | none =>
    rw [leftBy_untaken stored taken]
    exact .inl recorded
  | some found =>
    obtain ⟨alone, missed⟩ := returned.taken found taken
    have each (j : Identity) (names : found.Names j) :
        Handled j (front ++ events) ∨ Records (leftBy path s.runtime) j := by
      cases safe.taken found taken with
      | restored back =>
        cases back with
        | answered _ read _ _ =>
          obtain ⟨response, answer⟩ := read
          obtain ⟨e, other, _⟩ := returned.spoken
          cases answer.symm.trans other
        | spared present _ => exact absurd returned.spoken present
        | continued misses _ =>
          rcases names with own | ⟨e, inside, _⟩
          · exact .inl (.inr ((missed misses j own).append front))
          · rw [alone] at inside
            cases inside
      | handled each _ => exact each j names
    exact (takenAt_took taken).spared each (fun _ left => left) recorded

theorem leftBehind_lessens (path : String) (found : Value) (s : State) :
    Lessens s { s with runtime := leftBehind path found s.runtime } := by
  unfold leftBehind
  split
  · have less := dropRecord_lessens path { s with runtime := { s.runtime with performTask := none } }
    exact ⟨less.definitions, less.files⟩
  · exact ⟨.refl _, fun _ _ found => found⟩

/-- The cleanup behind a task that has freed its path leaves no record at all. -/
theorem recordedFiles_leftBehind {runtime : RuntimeProperties} (free : (recordedFiles runtime).get? path = none)
    (found : Value) : recordedFiles (leftBehind path found runtime) =
      if found.truthy then .empty else recordedFiles runtime := by
  unfold leftBehind
  split
  · have absent : ¬ (path ≠ "" ∧ (recordedFiles runtime).contains path = true) := by
      rintro ⟨_, there⟩
      rw [OrderedDict.contains_iff, free] at there
      obtain ⟨v, there⟩ := there
      cases there
    have absent : ¬ (path ≠ "" ∧ (({ runtime with performTask := none } : RuntimeProperties).kubernetes.getD
      .empty).contains path = true) := absent
    rw [dropRecord, if_neg absent]
    rfl
  · rfl

end

section

variable {kube : Kubernetes} {node : Node} {todo : List (String × KubernetesResourceDefinition)} {start s s' : State}
  {target : String × KubernetesResourceDefinition}

theorem Accounted.untouched (accounted : Accounted todo start s) (member : target ∈ todo) (kept : Untouched s s')
    (grown : ∃ events, s'.log = s.log ++ events) : Accounted todo start s' :=
  accounted.step (List.mem_map_of_mem member) (kept.lessens.refills target.1) grown
    fun _ recorded => .inl (kept.files ▸ recorded)

/-- A round whose call is safe keeps the account, and it frees its path if it returns. -/
theorem deletionRound_accounts (owned : node.useExternalResource = false) (member : target ∈ todo)
    (accounted : Accounted todo start s) (safe : SafeRound kube node start.log.length target s)
    {result : Except Exception Unit} (ran : deletionRound kube node target s = (result, s')) :
    Accounted todo start s' ∧
      (result = .ok () → Lessens s s' ∧ (recordedFiles s'.runtime).get? target.1 = none) := by
  obtain ⟨named, storable⟩ := accounted.filed.targets target member
  have ends := deletionRound_ends kube node target.1 target.2 s
  have whole : deletionRound kube node (target.1, target.2) s = (result, s') := ran
  rw [whole] at ends
  clear ran whole
  -- What the call starts from, once the decorator has read the state.
  have prepared {mapping : KubernetesApiMapping} {found : Value} {before : State}
      (ready : beforeTask node (fileDeletion kube node) target.1 target.2 s = (.ok (mapping, found), before)) :
      Untouched s before ∧ Accounted todo start before := by
    have kept := beforeTask_untouched kube node target.1 target.2 s
    have grown := steps_extend (beforeTask_steps kube node target.1 target.2 s)
    rw [ready] at kept grown
    exact ⟨kept, accounted.untouched member kept grown⟩
  have called (mapping : KubernetesApiMapping) {before after : State} {outcome : Except Exception Unit}
      (ran : fileResourceDeleteTask kube node (recursionDepth before.runtime) target.1 mapping target.2 before =
        (outcome, after)) (accounted : Accounted todo start before) :
      ∃ events front, after.log = before.log ++ .entered target.1 mapping target.2 before.runtime :: events ∧
        after.log.drop start.log.length = front ++ events := by
    obtain ⟨events, grown⟩ := fileResourceDeleteTask_enters kube node target.1 mapping target.2
      (before.runtime.kubernetes.getD .empty).items.length before
    have grown : after.log = before.log ++ .entered target.1 mapping target.2 before.runtime :: events := by
      rw [← grown]
      exact congrArg (·.2.log) ran.symm
    obtain ⟨front, since⟩ := accounted.grown
    refine ⟨events, front ++ [.entered target.1 mapping target.2 before.runtime], grown, ?_⟩
    rw [grown, since, List.append_assoc, List.drop_left, List.append_assoc]
    rfl
  cases ends with
  | early e s' kept grown => exact ⟨accounted.untouched member kept grown, fun returned => by cases returned⟩
  | raised mapping found before ready e s' ran =>
    obtain ⟨_, accounted⟩ := prepared ready
    obtain ⟨events, front, grown, since⟩ := called mapping ran accounted
    have raised := fileResourceDeleteTask_raised accounted.filed.wellStored ran grown
    have safe := safe mapping found before ready _ _ events ran grown
    rw [since] at safe
    have refills := raised.refills owned named storable accounted.filed.stored safe
    refine ⟨accounted.step (List.mem_map_of_mem member) refills ⟨_, grown⟩ fun i recorded => ?_, fun returned => by
      cases returned⟩
    rw [since]
    exact raised.accounts owned named safe recorded
  | returned mapping found before ready after ran =>
    obtain ⟨kept, accounted⟩ := prepared ready
    obtain ⟨events, front, grown, since⟩ := called mapping ran accounted
    have returned := fileResourceDeleteTask_returned owned accounted.filed.wellStored ran grown
    have safe := safe mapping found before ready _ _ events ran grown
    rw [since] at safe
    have less := IsTrans.trans _ _ _ returned.lessens (leftBehind_lessens target.1 found after)
    refine ⟨accounted.step (List.mem_map_of_mem member) (less.refills target.1) ⟨_, grown⟩ fun i recorded => ?_,
      fun _ => ⟨IsTrans.trans _ _ _ kept.lessens less, ?_⟩⟩
    · change Records (recordedFiles (leftBehind target.1 found after.runtime)) i ∨
        Handled i (after.log.drop start.log.length)
      rw [since, recordedFiles_leftBehind returned.free]
      rcases returned.accounts accounted.filed.wellStored safe recorded with still | handled
      · split
        · rename_i existed
          refine .inr (safe.wiped existed returned.spoken (fun found taken => (returned.taken found taken).1) i ?_)
          rwa [← returned.left]
        · exact .inl still
      · exact .inr handled
    · change (recordedFiles (leftBehind target.1 found after.runtime)).get? target.1 = none
      rw [recordedFiles_leftBehind returned.free]
      split
      · rfl
      · exact returned.free

def Comes (kube : Kubernetes) (node : Node) (todo : List (String × KubernetesResourceDefinition)) (s : State)
    (target : String × KubernetesResourceDefinition) (s' : State) : Prop :=
  ∃ front back, todo = front ++ target :: back ∧ Rounds (deletionRound kube node) front s s'

/-- Rounds whose calls are safe keep the account, and free their paths. -/
theorem deletionRounds_account (owned : node.useExternalResource = false)
    {rest : List (String × KubernetesResourceDefinition)} (inside : ∀ target ∈ rest, target ∈ todo)
    (accounted : Accounted todo start s)
    (safe : ∀ target middle, Comes kube node rest s target middle → SafeRound kube node start.log.length target middle)
    (rounds : Rounds (deletionRound kube node) rest s s') :
    Accounted todo start s' ∧ Lessens s s' ∧ ∀ target ∈ rest, (recordedFiles s'.runtime).get? target.1 = none := by
  induction rounds with
  | nil s => exact ⟨accounted, Std.Refl.refl s, by simp⟩
  | @cons target rest _ s middle s' ran others ih =>
    obtain ⟨member, inside⟩ := List.forall_mem_cons.mp inside
    have first := safe target s ⟨[], rest, rfl, .nil s⟩
    obtain ⟨accounted, freed⟩ := deletionRound_accounts owned member accounted first ran
    obtain ⟨less, free⟩ := freed rfl
    have later : ∀ other last, Comes kube node rest middle other last →
        SafeRound kube node start.log.length other last := by
      intro other last comes
      obtain ⟨front, back, split, rounds⟩ := comes
      exact safe other last ⟨target :: front, back, by rw [split]; rfl, .cons ran rounds⟩
    obtain ⟨accounted, less', frees⟩ := ih inside accounted later
    refine ⟨accounted, IsTrans.trans _ _ _ less less', List.forall_mem_cons.mpr ⟨?_, frees⟩⟩
    by_contra there
    obtain ⟨v, there⟩ := Option.ne_none_iff_exists'.mp there
    cases free.symm.trans (less'.files _ v there)

end

inductive FileDeletion
  | file (file : Option String) (definitions : List KubernetesResourceDefinition)
  | files (files : List (String × List KubernetesResourceDefinition))

namespace FileDeletion

def targets (node : Node) : FileDeletion → List (String × KubernetesResourceDefinition)
  | file origin definitions => fileTargets node origin definitions
  | files origins => CloudifyKubernetes.targets node origins

def operation : FileDeletion → Operation
  | file origin definitions => .fileResourceDelete origin definitions
  | files origins => .multipleFileResourceDelete origins

def before (deletion : FileDeletion) (kube : Kubernetes) (node : Node) (options : Dict)
    (earlier : List OperationContext) (s : State) : State :=
  { (attempts kube node options (earlier.map fun ctx => (ctx, deletion.operation)) s).2 with options }

variable {kube : Kubernetes} {node : Node} {ctx : OperationContext} (deletion : FileDeletion) {s s' : State}

theorem run_returned (ran : deletion.operation.run kube node ctx s = (.ok (), s')) :
    Rounds (deletionRound kube node) (deletion.targets node) s s' := by
  cases deletion with
  | file origin definitions =>
    have ran : fileResourceDelete kube node origin definitions s = (.ok (), s') := ran
    rw [fileResourceDelete_eq] at ran
    exact resourceTask_rounds ran
  | files origins =>
    have ran : multipleFileResource (resourceTask node (fileDeletion kube node)) origins s = (.ok (), s') := ran
    exact multipleFileResource_rounds ran

variable {deletion} in
theorem run_failed_at (given : deletion ≠ .files []) {e : Exception}
    (ran : deletion.operation.run kube node ctx s = (.error e, s')) :
    ∃ target middle e', Comes kube node (deletion.targets node) s target middle ∧
      deletionRound kube node target middle = (.error e', s') := by
  cases deletion with
  | file origin definitions =>
    have ran : fileResourceDelete kube node origin definitions s = (.error e, s') := ran
    rw [fileResourceDelete_eq] at ran
    obtain ⟨front, target, back, middle, e', split, rounds, failed⟩ := resourceTask_failed ran
    exact ⟨target, middle, e', ⟨front, back, split, rounds⟩, failed⟩
  | files origins =>
    have ran : multipleFileResource (resourceTask node (fileDeletion kube node)) origins s = (.error e, s') := ran
    have given : origins ≠ [] := fun none => given (none ▸ rfl)
    obtain ⟨front, target, back, middle, e', split, rounds, failed⟩ := multipleFileResource_failed given ran
    exact ⟨target, middle, e', ⟨front, back, split, rounds⟩, failed⟩

theorem run_failed {e : Exception} (ran : deletion.operation.run kube node ctx s = (.error e, s')) :
    s' = s ∨ ∃ target middle e', Comes kube node (deletion.targets node) s target middle ∧
      deletionRound kube node target middle = (.error e', s') := by
  by_cases given : deletion = .files []
  · subst given
    cases ran
    exact .inl rfl
  · exact .inr (run_failed_at given ran)

variable {start : State}

/-- An attempt whose calls are safe keeps the account, and leaves no record if it returns. -/
theorem run_accounts (owned : node.useExternalResource = false) (accounted : Accounted (deletion.targets node) start s)
    (safe : ∀ target middle, Comes kube node (deletion.targets node) s target middle →
      SafeRound kube node start.log.length target middle)
    {result : Except Exception Unit} (ran : deletion.operation.run kube node ctx s = (result, s')) :
    Accounted (deletion.targets node) start s' ∧
      (result = .ok () → ∀ path, (recordedFiles s'.runtime).get? path = none) := by
  cases result with
  | ok value =>
    obtain ⟨accounted, _, free⟩ := deletionRounds_account owned (fun _ member => member) accounted safe
      (deletion.run_returned ran)
    refine ⟨accounted, fun _ path => ?_⟩
    by_contra there
    obtain ⟨v, there⟩ := Option.ne_none_iff_exists'.mp there
    obtain ⟨inside, _⟩ := accounted.filed.records path v there
    obtain ⟨target, member, rfl⟩ := List.mem_map.mp inside
    cases (free target member).symm.trans there
  | error e =>
    refine ⟨?_, fun returned => by cases returned⟩
    rcases deletion.run_failed ran with rfl | ⟨target, middle, e', ⟨front, back, split, rounds⟩, failed⟩
    · exact accounted
    · have inside : ∀ other ∈ front ++ target :: back, other ∈ deletion.targets node := fun other member => split ▸ member
      obtain ⟨accounted, _⟩ := deletionRounds_account owned
        (fun other member => inside other (List.mem_append_left _ member)) accounted
        (fun other last ⟨front', back', split', rounds'⟩ => safe other last
          ⟨front', back' ++ target :: back, by rw [split, split', List.append_assoc, List.cons_append], rounds'⟩) rounds
      exact (deletionRound_accounts owned (inside target (by simp)) accounted
        (safe target middle ⟨front, back, split, rounds⟩) failed).1

theorem before_concat (options : Dict) (contexts : List OperationContext) (ctx : OperationContext) :
    deletion.before kube node options (contexts ++ [ctx]) start =
      { (deletion.operation.run kube node ctx (deletion.before kube node options contexts start)).2 with options } := by
  obtain ⟨results, whole⟩ := attempts_concat kube node options (contexts.map fun ctx => (ctx, deletion.operation)) ctx
    deletion.operation start
  rw [before, List.map_append, List.map_singleton, whole]
  rfl

/-- Any number of attempts whose calls are safe keep the account. -/
theorem attempts_account (owned : node.useExternalResource = false) (options : Dict) {contexts : List OperationContext}
    (filed : Filed (deletion.targets node) start)
    (safe : ∀ earlier, earlier <+: contexts → earlier ≠ contexts → ∀ target middle,
      Comes kube node (deletion.targets node) (deletion.before kube node options earlier start) target middle →
      SafeRound kube node start.log.length target middle) :
    Accounted (deletion.targets node) start (deletion.before kube node options contexts start) := by
  induction contexts using List.reverseRecOn with
  | nil => exact ⟨⟨filed.targets, filed.records, filed.stored⟩, ⟨[], (List.append_nil _).symm⟩, fun _ recorded => .inl recorded⟩
  | append_singleton contexts ctx ih =>
    have shorter {earlier : List OperationContext} (inside : earlier <+: contexts) : earlier ≠ contexts ++ [ctx] := by
      rintro rfl
      have long := inside.length_le
      rw [List.length_append, List.length_singleton] at long
      omega
    have accounted := ih fun earlier inside _ =>
      safe earlier (inside.trans (List.prefix_append _ _)) (shorter inside)
    have last := safe contexts (List.prefix_append _ _) (shorter (List.prefix_refl _))
    generalize ran : deletion.operation.run kube node ctx (deletion.before kube node options contexts start) = outcome
    obtain ⟨result, s'⟩ := outcome
    obtain ⟨⟨filed, grown, kept⟩, _⟩ := deletion.run_accounts owned accounted last ran
    rw [deletion.before_concat, ran]
    exact ⟨⟨filed.targets, filed.records, filed.stored⟩, grown, kept⟩

theorem attempts_returned_iff (options : Dict) (contexts : List OperationContext) (ctx : OperationContext) :
    (∃ results, attempts kube node options ((contexts ++ [ctx]).map fun ctx => (ctx, deletion.operation)) s =
      (.ok (results ++ [.ok ()]), s')) ↔
    deletion.operation.run kube node ctx (deletion.before kube node options contexts s) = (.ok (), s') := by
  rw [List.map_append, List.map_singleton]
  exact CloudifyKubernetes.attempts_returned_iff

end FileDeletion

/-- Every resource that is recorded of the files of a node has been asked to be deleted, or has been
    answered 404 for, once an attempt of their deletion returns, if every call of the attempts is safe. -/
theorem attempts_handle {kube : Kubernetes} {node : Node} (owned : node.useExternalResource = false) (options : Dict)
    (deletion : FileDeletion) (contexts : List OperationContext) (ctx : OperationContext) {s s' : State}
    (filed : Filed (deletion.targets node) s)
    (safe : ∀ earlier, earlier <+: contexts → ∀ target middle,
      Comes kube node (deletion.targets node) (deletion.before kube node options earlier s) target middle →
      SafeRound kube node s.log.length target middle) {results : List (Except Exception Unit)}
    (ran : attempts kube node options ((contexts ++ [ctx]).map fun ctx => (ctx, deletion.operation)) s =
      (.ok (results ++ [.ok ()]), s')) {i : Identity} (recorded : Records (recordedFiles s.runtime) i) :
    Handled i (s'.log.drop s.log.length) := by
  have last := (deletion.attempts_returned_iff options contexts ctx).mp ⟨results, ran⟩
  have accounted := deletion.attempts_account owned options filed fun earlier inside _ => safe earlier inside
  obtain ⟨accounted, gone⟩ := deletion.run_accounts owned accounted (safe contexts (List.prefix_refl _)) last
  rcases accounted.kept i recorded with ⟨path, v, there, _⟩ | handled
  · cases (gone rfl path).symm.trans there
  · exact handled

open Package

def Value.isResult (v : Value) : Bool :=
  match v.index "kind", (do v.get "api_version" (← v.get "apiVersion" .none)), v.index "metadata" with
  | .ok (.str kind), .ok version, .ok (.dict fields) =>
    !kind.toList.contains '.' && !version.isNone &&
      (match fields.lookup "name" with
        | some (.str _) => true
        | _ => false) &&
      match fields.lookup "namespace" with
      | Option.none | some .none | some (.str _) => true
      | _ => false
  | _, _, _ => false

theorem isResult_of_check {v : Value} (checked : v.isResult = true) :
    ∃ kind version fields, IsResult v kind version fields := by
  unfold Value.isResult at checked
  split at checked
  · rename_i kind version fields kinded versioned described
    simp only [Bool.and_eq_true, Bool.not_eq_true'] at checked
    obtain ⟨⟨⟨plain, given⟩, named⟩, spaced⟩ := checked
    refine ⟨kind, version, fields, kinded, by simpa using plain, versioned, given, described, ?_, ?_⟩
    · split at named
      · rename_i name found
        exact ⟨name, found⟩
      · cases named
    · split at spaced
      · rename_i found
        exact .inl found
      · rename_i found
        exact .inr (.inl found)
      · rename_i text found
        exact .inr (.inr ⟨text, found⟩)
      · cases spaced
  · cases checked

def Event.answersResult : Event → Bool
  | .returned _ (.ok raw) =>
    match jsonCleanuper raw with
    | .ok v => v.isResult
    | .error _ => true
  | _ => true

theorem answersResults_of_check {events : List Event} (checked : events.all Event.answersResult = true) :
    AnswersResults events := by
  intro c raw v member cleaned
  have passed := List.all_eq_true.mp checked _ member
  rw [Event.answersResult, cleaned] at passed
  exact isResult_of_check passed

theorem filed_start {todo : List (String × KubernetesResourceDefinition)}
    (checked : (todo.all fun target => target.1 != "" && target.2.cleanup.isResult) = true) :
    Filed todo mainNamespace := by
  refine ⟨fun target member => ?_, fun path v there => ?_, fun v member => ?_⟩
  rotate_left
  · cases there
  · cases member
  have passed := List.all_eq_true.mp checked target member
  rw [Bool.and_eq_true, bne_iff_ne] at passed
  exact ⟨passed.1, isResult_of_check passed.2⟩

def mainConfigMap (name : String) : Value := .dict [("api_version", .str "v1"), ("kind", .str "ConfigMap"),
  ("metadata", .dict [("name", .str name), ("namespace", .str "main")])]

/-- An API server that fails in the second read of the settings that are created first. -/
def losing : Kubernetes := package fun earlier request =>
  let asked (verb : String) : Nat := earlier.countP fun request => Text.contains request.method verb
  let missing : Answer := .error (.apiException { status := some 404, reason := "Not Found" })
  if Text.contains request.method "create" then
    .ok (mainConfigMap (if asked "create" = 0 then "settings" else "limits"))
  else if Text.contains request.method "read" then
    if ((request.arguments.get? "name").getD .none).eq (.str "settings") then
      if asked "create" = 0 then missing
      else if asked "read" = 3 then .error (.apiException { status := some 500, reason := "Internal Server Error" })
      else .ok (mainConfigMap "settings")
    else if asked "create" < 2 ∨ 0 < asked "delete" then missing
    else .ok (mainConfigMap "limits")
  else .ok (.dict [("status", .str "Success")])

def settingsAndLimits : List (String × List KubernetesResourceDefinition) :=
  [("settings.yaml", [configMap "settings" none]), ("limits.yaml", [configMap "limits" none])]

def createdBy (kube : Kubernetes) (files : List (String × List KubernetesResourceDefinition)) : State :=
  (multipleFileResourceCreate kube ownNode files mainNamespace).2

def recordsName (path name : String) (s : State) : Bool :=
  ((recordedFiles s.runtime).get? path).any fun v => (Identity.ofDict v).toOption.any fun i => i.name.eq (.str name)

theorem createdBy_filed {kube : Kubernetes} {files : List (String × List KubernetesResourceDefinition)}
    (startable : ((targets ownNode files).all fun target => target.1 != "" && target.2.cleanup.isResult) = true)
    {check : State → Bool} (created : returning (fun _ s => s.log.all Event.answersResult && check s)
      (multipleFileResourceCreate kube ownNode files mainNamespace) = true) :
    multipleFileResourceCreate kube ownNode files mainNamespace = (.ok (), createdBy kube files) ∧
      Filed (targets ownNode files) (createdBy kube files) ∧ check (createdBy kube files) = true := by
  obtain ⟨_, s, ran, passed⟩ := returning_iff.mp created
  obtain ⟨answers, passed⟩ := Bool.and_eq_true_iff.mp passed
  obtain rfl : createdBy kube files = s := congrArg Prod.snd ran
  refine ⟨ran, ?_, passed⟩
  have rounds : Rounds (fun target => definitionTask ownNode (fileCreation kube ownNode) target.1 target.2)
      (targets ownNode files) mainNamespace (createdBy kube files) := multipleFileResource_rounds ran
  exact (creationRounds_file (fun _ member => member) rounds).2 (filed_start startable) (answersResults_of_check answers)

theorem records_of_name {path name : String} {s : State} (found : recordsName path name s = true) :
    ∃ i, Records (recordedFiles s.runtime) i ∧ i.name = .str name := by
  obtain ⟨v, there, found⟩ := (Option.any_eq_true _ _).mp found
  obtain ⟨i, named, same⟩ := (Option.any_eq_true _ _).mp found
  refine ⟨i, ⟨path, v, there, ?_⟩, Value.eq_str_iff.mp same⟩
  cases told : Identity.ofDict v with
  | ok j =>
    rw [told] at named
    rw [Option.some.inj named]
  | error e =>
    rw [told] at named
    cases named

def Event.neglects (name : String) (e : Event) : Bool :=
  match e.call? with
  | some c => !((c.definition.metadata.get "name" .none).toOption.getD .none).eq (.str name) ||
    (match c.verb with
      | .delete _ => false
      | _ => true) && e.isNoMiss
  | none => true

theorem name_of_identity {definition : KubernetesResourceDefinition} {i : Identity}
    (named : Identity.ofDefinition definition = .ok i) : definition.metadata.get "name" .none = .ok i.name := by
  obtain ⟨name, given, named⟩ := ok_of_bind named
  obtain ⟨namesp, _, named⟩ := ok_of_bind named
  rw [← Except.ok.inj named]
  exact given

theorem not_handled {i : Identity} {name : String} {events : List Event} (own : i.name = .str name)
    (all : (events.all fun e => e.neglects name) = true) : ¬ Handled i events := by
  have neglected {e : Event} {c : ClientCall} (member : e ∈ events) (called : e.call? = some c)
      (named : Identity.ofDefinition c.definition = .ok i) :
      (∀ resourceId, c.verb ≠ .delete resourceId) ∧ e.isNoMiss = true := by
    have passed := List.all_eq_true.mp all e member
    have found : ((c.definition.metadata.get "name" .none).toOption.getD .none).eq (.str name) = true := by
      rw [name_of_identity named, own]
      exact Value.eq_refl _
    simp only [Event.neglects, called, found, Bool.not_true, Bool.false_or, Bool.and_eq_true] at passed
    refine ⟨fun resourceId same => ?_, passed.2⟩
    rw [same] at passed
    cases passed.1
  rintro (⟨e, member, asks⟩ | ⟨e, member, misses⟩)
  · cases e with
    | requested c request answer =>
      obtain ⟨verb, mapping, definition⟩ := c
      cases verb with
      | delete resourceId => exact (neglected member rfl asks.2).1 resourceId rfl
      | _ => exact asks
    | _ => exact asks
  · cases e with
    | returned c result =>
      cases result with
      | ok response => exact misses
      | error e =>
        have quiet := (neglected member rfl misses.2.2).2
        simp [Event.isNoMiss, Event.returned?, misses.1.told] at quiet
    | _ => exact misses

/-- Behind a read that failed, the deletion of one file takes the record of the other, and the third
    attempt returns without ever asking to delete what the first one had to delete. -/
theorem settings_orphaned : ∃ created results s',
    multipleFileResourceCreate losing ownNode settingsAndLimits mainNamespace = (.ok (), created) ∧
    Filed (targets ownNode settingsAndLimits) created ∧
    attempts losing ownNode mainNamespace.options (([install, install] ++ [install]).map fun ctx =>
      (ctx, (FileDeletion.files settingsAndLimits).operation)) created = (.ok (results ++ [.ok ()]), s') ∧
    ∃ i, Records (recordedFiles created.runtime) i ∧ ¬ Handled i (s'.log.drop created.log.length) := by
  have created : returning (fun _ s => s.log.all Event.answersResult && recordsName "settings.yaml" "settings" s)
      (multipleFileResourceCreate losing ownNode settingsAndLimits mainNamespace) = true := by decide +kernel
  obtain ⟨ran, filed, found⟩ := createdBy_filed (by decide +kernel) created
  have returned : returning (fun _ s => (s.log.drop (createdBy losing settingsAndLimits).log.length).all fun e =>
      e.neglects "settings") ((FileDeletion.files settingsAndLimits).operation.run losing ownNode install
        ((FileDeletion.files settingsAndLimits).before losing ownNode mainNamespace.options [install, install]
          (createdBy losing settingsAndLimits))) = true := by decide +kernel
  obtain ⟨_, s', last, neglected⟩ := returning_iff.mp returned
  obtain ⟨results, whole⟩ := ((FileDeletion.files settingsAndLimits).attempts_returned_iff mainNamespace.options
    [install, install] install).mpr last
  obtain ⟨i, recorded, named⟩ := records_of_name found
  exact ⟨_, results, s', ran, filed, whole, i, recorded, not_handled named neglected⟩

def Event.isEntered : Event → Bool
  | .entered _ _ _ _ => true
  | _ => false

def keptMissing : ApiException := { status := some 404, reason := "Not Found", body := some codeMarker }

def restoresAll (existed : Bool) (events : List Event) : Bool :=
  match firstAnswer events with
  | some (.ok _) => events.any Event.deleted && events.all fun e => !e.unreleased
  | some (.error e) => e == executionError (Failure.apiException keptMissing).raised && (events.all fun e => !e.isEntered) && !existed
  | Option.none => false

theorem safeCall_of_check {node : Node} (owned : node.useExternalResource = false) {existed : Bool} {path : String}
    {runtime : RuntimeProperties} {log events : List Event} (checked : restoresAll existed events = true) :
    SafeCall node existed path runtime log events := by
  unfold restoresAll at checked
  split at checked
  · rename_i response first
    obtain ⟨deleted, released⟩ := Bool.and_eq_true_iff.mp checked
    refine ⟨fun found _ => .restored (.answered owned ⟨response, first⟩ (List.any_eq_true.mp deleted) fun e member => ?_),
      fun _ missing => ?_⟩
    · simpa using List.all_eq_true.mp released e member
    · obtain ⟨e, answer, _⟩ := missing
      cases first.symm.trans answer
  · rename_i e first
    simp only [Bool.and_eq_true, beq_iff_eq, Bool.not_eq_true'] at checked
    obtain ⟨⟨same, flat⟩, absent⟩ := checked
    refine ⟨fun found _ => .restored (.continued ⟨e, first, keptMissing, rfl, same⟩ ?_), fun there => ?_⟩
    · intro front path mapping definition runtime rest split
      have entered := List.all_eq_true.mp flat (.entered path mapping definition runtime) (by rw [split]; simp)
      cases entered
    · cases absent.symm.trans there
  · cases checked

def safeCheck (kube : Kubernetes) (target : String × KubernetesResourceDefinition) (s : State) : Bool :=
  match beforeTask ownNode (fileDeletion kube ownNode) target.1 target.2 s with
  | (.error _, _) => true
  | (.ok (mapping, found), before) =>
    restoresAll found.truthy ((fileResourceDeleteTask kube ownNode (recursionDepth before.runtime) target.1 mapping
      target.2 before).2.log.drop (before.log.length + 1))

theorem safeRound_of_check {kube : Kubernetes} {since : Nat} {target : String × KubernetesResourceDefinition} {s : State}
    (checked : safeCheck kube target s = true) : SafeRound kube ownNode since target s := by
  intro mapping found before ready result after events ran grown
  rw [safeCheck, ready] at checked
  simp only [ran, grown] at checked
  rw [List.drop_append, List.drop_eq_nil_of_le (Nat.le_succ _), List.nil_append,
    Nat.add_sub_cancel_left, List.drop_one, List.tail_cons] at checked
  exact safeCall_of_check rfl checked

def settingsOnly : List (String × List KubernetesResourceDefinition) :=
  [("settings.yaml", [configMap "settings" none])]

theorem attempts_handle_settings : ∃ results s' i,
    attempts keeping ownNode mainNamespace.options (([install] ++ [install]).map fun ctx =>
      (ctx, (FileDeletion.files settingsOnly).operation)) (createdBy keeping settingsOnly) =
        (.ok (results ++ [.ok ()]), s') ∧
    Records (recordedFiles (createdBy keeping settingsOnly).runtime) i ∧
    Handled i (s'.log.drop (createdBy keeping settingsOnly).log.length) := by
  have created : returning (fun _ s => s.log.all Event.answersResult && recordsName "settings.yaml" "settings" s)
      (multipleFileResourceCreate keeping ownNode settingsOnly mainNamespace) = true := by decide +kernel
  obtain ⟨_, filed, found⟩ := createdBy_filed (by decide +kernel) created
  obtain ⟨i, recorded, _⟩ := records_of_name found
  have returned : returning (fun _ _ => true) ((FileDeletion.files settingsOnly).operation.run keeping ownNode install
      ((FileDeletion.files settingsOnly).before keeping ownNode mainNamespace.options [install]
        (createdBy keeping settingsOnly))) = true := by decide +kernel
  obtain ⟨_, s', last, _⟩ := returning_iff.mp returned
  obtain ⟨results, ran⟩ := ((FileDeletion.files settingsOnly).attempts_returned_iff mainNamespace.options [install]
    install).mpr last
  have checks : [[], [install]].all (fun earlier => safeCheck keeping ("settings.yaml", configMap "settings" none)
      ((FileDeletion.files settingsOnly).before keeping ownNode mainNamespace.options earlier
        (createdBy keeping settingsOnly))) = true := by decide +kernel
  refine ⟨results, s', i, ran, recorded, attempts_handle rfl mainNamespace.options (.files settingsOnly) [install]
    install filed ?_ ran recorded⟩
  intro earlier inside target middle
  have listed : earlier ∈ [[], [install]] := by
    rcases List.prefix_cons_iff.mp inside with rfl | ⟨rest, rfl, rest'⟩
    · simp
    · simp [List.prefix_nil.mp rest']
  have checked := List.all_eq_true.mp checks earlier listed
  rintro ⟨front, back, split, rounds⟩
  cases front with
  | nil =>
    obtain ⟨rfl, _⟩ := List.cons.inj split
    cases rounds
    exact safeRound_of_check checked
  | cons _ _ =>
    have short := congrArg List.length split
    simp [FileDeletion.targets, settingsOnly, targets, fileTargets] at short

end CloudifyKubernetes
