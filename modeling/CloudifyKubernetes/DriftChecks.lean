import CloudifyKubernetes.Completion
import CloudifyKubernetes.CoupledCalls
import CloudifyKubernetes.Lifecycle

namespace CloudifyKubernetes

open Collections Effects Program

/-- The answers do not depend on what has been asked before: nothing changes the cluster meanwhile. -/
def Quiescent (kube : Kubernetes) : Prop :=
  ∀ history history' request, kube.respond history request = kube.respond history' request

/-- What a read of a definition gives from some options, with the options that it leaves behind. -/
def reading (kube : Kubernetes) (options : Dict) (definition : KubernetesResourceDefinition) :
    Except Exception (Value × Dict) := do
  let mapping ← mappingByKind options.keys definition
  let _ ← definition.metadata.get "name" .none
  let ran := doResourceRead kube .task mapping definition ⟨⟨none, none, none⟩, options, []⟩
  let found ← ran.1
  return (found, ran.2.options)

def readings (kube : Kubernetes) : Dict → List KubernetesResourceDefinition → Except Exception (List Value)
  | _, [] => .ok []
  | options, definition :: rest => do
    let (found, options) ← reading kube options definition
    let others ← readings kube options rest
    return found :: others

def fileReading (kube : Kubernetes) (node : Node) : ResourceTask where
  task := fileResourceReadTask kube node
  retrieveMapping := chooseMapping

def driftCheck (kube : Kubernetes) (checkDrift : Value → Value → Except Exception Value) : ResourceTask where
  task := resourceCheckDriftTask kube checkDrift
  retrieveMapping := chooseMapping

def Undrifted (checkDrift : Value → Value → Except Exception Value) (previous current : Value) : Prop :=
  ∃ diff, checkDrift previous current = .ok diff ∧ diff.truthy = false

section

variable {kube : Kubernetes} {definition : KubernetesResourceDefinition}

theorem quiescent_indistinct (quiet : Quiescent kube) : Indistinct kube fun s t => s.options = t.options where
  options same := same
  edited _ _ := rfl
  recorded same _ := same
  answers _ _ := quiet _ _ _

theorem doResourceRead_quiescent (quiet : Quiescent kube) (mapping : KubernetesApiMapping)
    (definition : KubernetesResourceDefinition) {s t : State} (same : s.options = t.options) :
    (doResourceRead kube .task mapping definition s).1 = (doResourceRead kube .task mapping definition t).1 ∧
      (doResourceRead kube .task mapping definition s).2.options =
        (doResourceRead kube .task mapping definition t).2.options := by
  have coupled := doResourceRead_coupled (quiescent_indistinct quiet) .task mapping definition s t same
  exact ⟨coupled.result_eq, coupled.related⟩

theorem doResourceRead_runtime (kube : Kubernetes) (site : Site) (mapping : KubernetesApiMapping)
    (definition : KubernetesResourceDefinition) (s : State) :
    (doResourceRead kube site mapping definition s).2.runtime = s.runtime := by
  have run := doResourceRead_run kube site mapping definition s
  generalize doResourceRead kube site mapping definition s = ran at run ⊢
  cases run <;> rfl

theorem reading_of_run (quiet : Quiescent kube) {mapping : KubernetesApiMapping} {name found : Value} {options : Dict}
    {s s' : State} (mapped : mappingByKind options.keys definition = .ok mapping)
    (named : definition.metadata.get "name" .none = .ok name) (same : s.options = options)
    (ran : doResourceRead kube .task mapping definition s = (.ok found, s')) :
    reading kube options definition = .ok (found, s'.options) := by
  obtain ⟨result, left⟩ := doResourceRead_quiescent quiet mapping definition (s := ⟨⟨none, none, none⟩, options, []⟩)
    (t := s) same.symm
  rw [ran] at result left
  simp only [reading, mapped, named, bind, Except.bind, result, left]
  rfl

theorem reading_ok (quiet : Quiescent kube) {options options' : Dict} {found : Value}
    (read : reading kube options definition = .ok (found, options')) :
    ∃ mapping name, mappingByKind options.keys definition = .ok mapping ∧
      definition.metadata.get "name" .none = .ok name ∧ ∀ s : State, s.options = options →
        ∃ s', doResourceRead kube .task mapping definition s = (.ok found, s') ∧ s'.options = options' ∧
          s'.runtime = s.runtime := by
  obtain ⟨mapping, mapped, read⟩ := ok_of_bind read
  obtain ⟨name, named, read⟩ := ok_of_bind read
  obtain ⟨found', ran, read⟩ := ok_of_bind read
  cases read
  refine ⟨mapping, name, mapped, named, ?_⟩
  intro s same
  obtain ⟨result, left⟩ := doResourceRead_quiescent quiet mapping definition (t := ⟨⟨none, none, none⟩, options, []⟩) same
  rw [ran] at result
  exact ⟨_, Prod.ext result rfl, left, doResourceRead_runtime kube .task mapping definition s⟩

end

section

variable {kube : Kubernetes} {node : Node} {path : String} {definition : KubernetesResourceDefinition} {s s' : State}

/-- A round is its task, behind an event and a write of the flag, if the definition has a mapping and
    a name; otherwise it raises. -/
theorem plainRound_cases {operation : ResourceTask} (byKind : operation.retrieveMapping = chooseMapping)
    (recorded : operation.resourceStateFunction = none) (kept : operation.cleanupRuntimeProperties = false)
    (node : Node) (path : String) (definition : KubernetesResourceDefinition) (s : State) :
    (∃ e, definitionTask node operation path definition s = (.error e,
          s.after s.runtime.performTask s.options [.mapped definition (mappingByKind s.options.keys definition)]) ∧
        (mappingByKind s.options.keys definition = .error e ∨ definition.metadata.get "name" .none = .error e)) ∨
      ∃ mapping name flag, mappingByKind s.options.keys definition = .ok mapping ∧
        definition.metadata.get "name" .none = .ok name ∧
        definitionTask node operation path definition s =
          finished (operation.task path mapping definition
            (s.after flag s.options [.mapped definition (.ok mapping)])) := by
  have chosen := chooseMapping_run definition s
  rw [definitionTask, byKind, recorded, kept]
  cases mapped : mappingByKind s.options.keys definition with
  | error e =>
    rw [mapped] at chosen
    rw [bind_run_error chosen]
    exact .inl ⟨e, rfl, .inl rfl⟩
  | ok mapping =>
    rw [mapped] at chosen
    rw [bind_run_ok chosen, bind_run, ofExcept_run]
    cases named : definition.metadata.get "name" .none with
    | error e => exact .inl ⟨e, rfl, .inr rfl⟩
    | ok name =>
      obtain ⟨found, read⟩ := recordedState_run path
        (s.after s.runtime.performTask s.options [.mapped definition (.ok mapping)])
      refine .inr ⟨mapping, name, some (creates node found), rfl, rfl, ?_⟩
      have read : recordedState path { s with log := s.log ++ [.mapped definition (.ok mapping)] } = (.ok found,
        { s with log := s.log ++ [.mapped definition (.ok mapping)] }) := read
      dsimp only
      rw [bind_run_ok read, bind_run_ok (handleExistingResource_run _ _ _), bind_run]
      simp only [State.after, Bool.and_false, Bool.false_eq_true, if_false]
      generalize operation.task path mapping definition _ = ran
      obtain ⟨e | value, s'⟩ := ran <;> rfl

theorem finished_ok {ran : Except Exception Unit × State} (ended : finished ran = (.ok (), s')) :
    ∃ last, ran = (.ok (), last) ∧ s' = { last with runtime := { last.runtime with performTask := none } } := by
  obtain ⟨e | value, last⟩ := ran
  · cases ended
  · cases ended
    exact ⟨last, rfl, rfl⟩

structure LeavesFiles (s s' : State) : Prop where
  options : s'.options = s.options
  files : recordedFiles s'.runtime = recordedFiles s.runtime

theorem takeAdjacent_leaves (path : String) (resource : Value) (s : State) :
    LeavesFiles s (takeAdjacent false path resource (recordedFiles s.runtime) s).2 := by
  unfold takeAdjacent
  cases resource.truthy with
  | false => exact ⟨rfl, rfl⟩
  | true =>
    simp only [if_true]
    rw [bind_run, ofExcept_run]
    cases fileStem path with
    | error e => exact ⟨rfl, rfl⟩
    | ok stem =>
      dsimp only
      rw [bind_run, ofExcept_run]
      cases adjacentResources stem resource (recordedFiles s.runtime).items <;> exact ⟨rfl, rfl⟩

theorem retrieveLastCreatePath_leaves (path : String) (s : State) :
    LeavesFiles s (retrieveLastCreatePath path false s).2 := by
  rw [retrieveLastCreatePath, bind_run_ok (getRuntime_run s)]
  dsimp only
  cases (s.runtime.kubernetes.getD .empty).get? path with
  | some resource => exact ⟨rfl, rfl⟩
  | none =>
    cases (s.runtime.resourceDefinitions.getD []).getLast? with
    | none => exact ⟨rfl, rfl⟩
    | some definition =>
      change LeavesFiles s ((ofExcept (recordedFile definition path .none (recordedFiles s.runtime).items) >>=
        fun settled => takeAdjacent false settled.1 settled.2 (recordedFiles s.runtime) : Task LastCreatePath) s).2
      rw [bind_run, ofExcept_run]
      cases recordedFile definition path .none (recordedFiles s.runtime).items with
      | error e => exact ⟨rfl, rfl⟩
      | ok settled => exact takeAdjacent_leaves settled.1 settled.2 s

theorem checkStatusOf_state (node : Node) (response : Value) : (checkStatusOf node definition response s).2 = s := by
  unfold checkStatusOf
  split
  · rw [bind_run, ofExcept_run]
    cases doResourceStatusCheck node.validateResourceStatus definition.kind response <;> rfl
  · rfl

/-- A round of a read that returns has recorded what a read gives from the options before it. -/
theorem readRound_reading (quiet : Quiescent kube)
    (ran : definitionTask node (fileReading kube node) path definition s = (.ok (), s')) :
    ∃ found, reading kube s.options definition = .ok (found, s'.options) ∧
      recordedFiles s'.runtime = recordFile path found (recordedFiles s.runtime) := by
  rcases plainRound_cases (show (fileReading kube node).retrieveMapping = _ from rfl) rfl rfl node path definition s with
    ⟨e, failed, _⟩ | ⟨mapping, name, flag, mapped, named, whole⟩
  · cases failed.symm.trans ran
  · obtain ⟨last, task, rfl⟩ := finished_ok (whole.symm.trans ran)
    obtain ⟨_, looked, lookup, task⟩ := bind_ok_inv task
    obtain ⟨found, answered, read, task⟩ := bind_ok_inv task
    obtain ⟨_, stored, store, checked⟩ := bind_ok_inv task
    have left := retrieveLastCreatePath_leaves path (s.after flag s.options [.mapped definition (.ok mapping)])
    rw [lookup] at left
    dsimp only at left read
    have unchanged := doResourceRead_runtime kube .task mapping definition looked
    rw [read] at unchanged
    have same : last = stored := by
      have kept : (checkStatusOf node definition found stored).2 = stored := checkStatusOf_state node found
      rwa [checked] at kept
    subst same
    rcases storeResultForRetrieveId_cases found path answered with ⟨e, failed⟩ | ⟨d, updated, _, _, storing⟩
    · cases failed.symm.trans store
    · cases storing.symm.trans store
      have files : recordedFiles answered.runtime = recordedFiles s.runtime := by
        rw [show answered.runtime = looked.runtime from unchanged]
        exact left.files
      have given := reading_of_run quiet mapped named left.options read
      refine ⟨found, given, ?_⟩
      rw [← files]
      exact recordedFiles_recordResult found path _

theorem getResultForRetrieveId_after {previous : Value} (named : path ≠ "")
    (recorded : (recordedFiles s.runtime).get? path = some previous) (flag : Option Bool) (events : List Event) :
    getResultForRetrieveId path (s.after flag s.options events) = (.ok previous, s.after flag s.options events) :=
  getResultForRetrieveId_recorded named (s := s.after flag s.options events) recorded

/-- A round of a check that returns has read something that has not drifted from the record. -/
theorem checkRound_compares (quiet : Quiescent kube) {checkDrift : Value → Value → Except Exception Value}
    {previous : Value} (named : path ≠ "") (recorded : (recordedFiles s.runtime).get? path = some previous)
    (ran : definitionTask node (driftCheck kube checkDrift) path definition s = (.ok (), s')) :
    ∃ found, reading kube s.options definition = .ok (found, s'.options) ∧ Undrifted checkDrift previous found ∧
      s'.runtime = { s.runtime with performTask := none } := by
  rcases plainRound_cases (show (driftCheck kube checkDrift).retrieveMapping = _ from rfl) rfl rfl node path definition s with
    ⟨e, failed, _⟩ | ⟨mapping, name, flag, mapped, called, whole⟩
  · cases failed.symm.trans ran
  · obtain ⟨last, task, rfl⟩ := finished_ok (whole.symm.trans ran)
    obtain ⟨_, _, got, task⟩ := bind_ok_inv task
    cases (getResultForRetrieveId_after named recorded flag _).symm.trans got
    obtain ⟨found, answered, read, task⟩ := bind_ok_inv task
    have start : (s.after flag s.options [.mapped definition (.ok mapping)]).options = s.options := rfl
    have given := reading_of_run quiet mapped called start read
    have unchanged := doResourceRead_runtime kube .task mapping definition
      (s.after flag s.options [.mapped definition (.ok mapping)])
    rw [read] at unchanged
    obtain ⟨diff, compared, task⟩ := bind_ofExcept_ok_inv task
    cases same : diff.truthy with
    | true =>
      rw [same] at task
      cases task
    | false =>
      rw [same] at task
      cases task
      refine ⟨found, given, ⟨diff, compared, same⟩, ?_⟩
      change RuntimeProperties.mk last.runtime.kubernetes last.runtime.resourceDefinitions none = _
      rw [show last.runtime = _ from unchanged]
      rfl

theorem checkRound_returns (node : Node) (quiet : Quiescent kube) {checkDrift : Value → Value → Except Exception Value}
    {previous found : Value} {options' : Dict} (named : path ≠ "")
    (recorded : (recordedFiles s.runtime).get? path = some previous)
    (given : reading kube s.options definition = .ok (found, options')) (undrifted : Undrifted checkDrift previous found) :
    ∃ s', definitionTask node (driftCheck kube checkDrift) path definition s = (.ok (), s') ∧ s'.options = options' ∧
      s'.runtime = { s.runtime with performTask := none } := by
  obtain ⟨diff, compared, same⟩ := undrifted
  obtain ⟨mapping, name, mapped, called, reads⟩ := reading_ok quiet given
  rcases plainRound_cases (show (driftCheck kube checkDrift).retrieveMapping = _ from rfl) rfl rfl node path definition s with
    ⟨e, _, failed⟩ | ⟨mapping', name', flag, mapped', _, whole⟩
  · rcases failed with unmapped | unnamed
    · cases mapped.symm.trans unmapped
    · cases called.symm.trans unnamed
  · cases mapped.symm.trans mapped'
    obtain ⟨answered, read, left, unchanged⟩ := reads (s.after flag s.options [.mapped definition (.ok mapping)]) rfl
    have task : (driftCheck kube checkDrift).task path mapping definition
        (s.after flag s.options [.mapped definition (.ok mapping)]) = (.ok (), answered) := by
      change resourceCheckDriftTask kube checkDrift path mapping definition _ = _
      rw [resourceCheckDriftTask, bind_run_ok (getResultForRetrieveId_after named recorded flag _), bind_run_ok read,
        compared]
      change (if diff.truthy then _ else _ : Task Unit) answered = _
      rw [same]
      rfl
    rw [whole, task]
    refine ⟨_, rfl, left, ?_⟩
    change RuntimeProperties.mk answered.runtime.kubernetes answered.runtime.resourceDefinitions none = _
    rw [unchanged]
    rfl

end

section

variable {kube : Kubernetes} {node : Node} {todo : List (String × KubernetesResourceDefinition)}

theorem readRounds_readings (quiet : Quiescent kube) {s s' : State}
    (rounds : Rounds (fun target => definitionTask node (fileReading kube node) target.1 target.2) todo s s') :
    ∃ found, readings kube s.options (todo.map Prod.snd) = .ok found ∧ found.length = todo.length ∧
      recordedFiles s'.runtime = recordAll (todo.zip found) (recordedFiles s.runtime) := by
  induction rounds with
  | nil s => exact ⟨[], rfl, rfl, rfl⟩
  | @cons target rest _ s middle s' ran _ ih =>
    obtain ⟨v, read, stored⟩ := readRound_reading quiet ran
    obtain ⟨found, others, length, recorded⟩ := ih
    refine ⟨v :: found, ?_, by rw [List.length_cons, List.length_cons, length], ?_⟩
    · simp only [List.map_cons, readings, read, bind, Except.bind, others]
      rfl
    · rw [recorded, stored]
      rfl

def RecordedUnder (todo : List (String × KubernetesResourceDefinition)) (records : List Value) (files : Dict) : Prop :=
  List.Forall₂ (fun target record => target.1 ≠ "" ∧ files.get? target.1 = some record) todo records

theorem checkRounds_iff (node : Node) (quiet : Quiescent kube) (checkDrift : Value → Value → Except Exception Value)
    {records : List Value} {files : Dict} (recorded : RecordedUnder todo records files) {s : State}
    (same : recordedFiles s.runtime = files) :
    (∃ s', Rounds (fun target => definitionTask node (driftCheck kube checkDrift) target.1 target.2) todo s s') ↔
      ∃ found, readings kube s.options (todo.map Prod.snd) = .ok found ∧
        List.Forall₂ (Undrifted checkDrift) records found := by
  induction recorded generalizing s with
  | nil => exact ⟨fun _ => ⟨[], rfl, .nil⟩, fun _ => ⟨s, .nil s⟩⟩
  | @cons target record rest records held _ ih =>
    have held : target.1 ≠ "" ∧ (recordedFiles s.runtime).get? target.1 = some record := same ▸ held
    -- The check leaves the files as they are, so that the others are compared with the same records.
    have kept {s' : State} (unchanged : s'.runtime = { s.runtime with performTask := none }) :
        recordedFiles s'.runtime = files := by
      rw [unchanged]
      exact same
    constructor
    · intro ⟨s', rounds⟩
      cases rounds with
      | @cons _ _ _ _ middle _ ran later =>
        obtain ⟨v, read, undrifted, unchanged⟩ := checkRound_compares quiet held.1 held.2 ran
        obtain ⟨found, others, compared⟩ := (ih (kept unchanged)).mp ⟨s', later⟩
        refine ⟨v :: found, ?_, .cons undrifted compared⟩
        simp only [List.map_cons, readings, read, bind, Except.bind, others]
        rfl
    · intro ⟨found, read, compared⟩
      obtain ⟨⟨v, options'⟩, first, read⟩ := ok_of_bind read
      obtain ⟨others, later, done⟩ := ok_of_bind read
      cases done
      cases compared with
      | cons undrifted compared =>
        obtain ⟨middle, ran, left, unchanged⟩ := checkRound_returns node quiet held.1 held.2 first undrifted
        subst left
        obtain ⟨s', rounds⟩ := (ih (kept unchanged)).mpr ⟨others, later, compared⟩
        exact ⟨s', .cons ran rounds⟩

theorem recordedUnder_recordAll {found : List Value} (length : found.length = todo.length)
    (named : ∀ target ∈ todo, target.1 ≠ "") (once : (todo.map Prod.fst).Nodup) (files : Dict) :
    RecordedUnder todo found (recordAll (todo.zip found) files) := by
  have targets : (todo.zip found).map Prod.fst = todo := List.map_fst_zip (by omega)
  have named' : ∀ answer ∈ todo.zip found, answer.1.1 ≠ "" := by
    intro answer member
    exact named answer.1 (List.of_mem_zip member).1
  have once' : ((todo.zip found).map fun answer => answer.1.1).Nodup := by
    rw [show (todo.zip found).map (fun answer => answer.1.1) = ((todo.zip found).map Prod.fst).map Prod.fst from
      (List.map_map ..).symm, targets]
    exact once
  apply List.forall₂_iff_zip.mpr
  refine ⟨length.symm, ?_⟩
  intro target v member
  exact ⟨named' _ member, get?_recordAll named' once' files _ member⟩

end

section

variable {node : Node} {operation : ResourceTask}

theorem resourceTask_of_rounds {file : Option String} {definitions : List KubernetesResourceDefinition} {s s' : State}
    (rounds : Rounds (fun target => definitionTask node operation target.1 target.2)
      (fileTargets node file definitions) s s') :
    resourceTask node operation file definitions s = (.ok (), s') := by
  obtain ⟨done, looped⟩ := Rounds.forEach_run (Rounds.of_map rounds)
  have looped : forEach definitions.zipIdx (fun indexed => definitionTask node operation
      (definitionPath node file (definitions.length > 1) indexed.2) indexed.1) s = (.ok done, s') := looped
  have whole : multidefinitionResourceTask node operation file definitions s = (.ok (), s') := by
    rw [multidefinitionResourceTask, bind_run_ok looped]
    rfl
  rw [resourceTask, bind_run, attempt_run, whole]
  rfl

theorem multipleFileResource_of_rounds {files : List (String × List KubernetesResourceDefinition)} {s s' : State}
    (some : files ≠ [])
    (rounds : Rounds (fun target => definitionTask node operation target.1 target.2) (targets node files) s s') :
    multipleFileResource (resourceTask node operation) files s = (.ok (), s') := by
  have each : Rounds (fun file : String × List KubernetesResourceDefinition =>
      resourceTask node operation (.some file.1) file.2) files s s' :=
    Rounds.of_flatMap rounds fun file s s' rounds => ⟨(), resourceTask_of_rounds rounds⟩
  obtain ⟨done, looped⟩ := each.forEach_run
  have given : files.isEmpty = false := by
    cases files with
    | nil => exact absurd rfl some
    | cons file rest => rfl
  rw [multipleFileResource, given]
  simp only [Bool.false_eq_true, if_false]
  rw [bind_run_ok looped]
  rfl

end

section

variable {kube kube' : Kubernetes} {node : Node} {checkDrift : Value → Value → Except Exception Value}
  {files : List (String × List KubernetesResourceDefinition)}

theorem multipleFileResourceRead_ne_nil {s s' : State} (read : multipleFileResourceRead kube node files s = (.ok (), s')) :
    files ≠ [] := by
  intro none
  subst none
  cases read

theorem readFiles_readings (quiet : Quiescent kube) {s s' : State} (named : ∀ target ∈ targets node files, target.1 ≠ "")
    (once : ((targets node files).map Prod.fst).Nodup)
    (read : multipleFileResourceRead kube node files s = (.ok (), s')) :
    ∃ found, readings kube s.options ((targets node files).map Prod.snd) = .ok found ∧
      RecordedUnder (targets node files) found (recordedFiles s'.runtime) := by
  have rounds : Rounds (fun target => definitionTask node (fileReading kube node) target.1 target.2)
      (targets node files) s s' := multipleFileResource_rounds read
  obtain ⟨found, given, length, recorded⟩ := readRounds_readings quiet rounds
  refine ⟨found, given, ?_⟩
  rw [recorded]
  exact recordedUnder_recordAll length named once _

theorem checkFiles_iff (quiet : Quiescent kube) {records : List Value} {s : State} (some : files ≠ [])
    (recorded : RecordedUnder (targets node files) records (recordedFiles s.runtime)) :
    (multipleFileResourceCheckDrift kube node checkDrift files s).1 = .ok () ↔
      ∃ found, readings kube s.options ((targets node files).map Prod.snd) = .ok found ∧
        List.Forall₂ (Undrifted checkDrift) records found := by
  rw [← checkRounds_iff node quiet checkDrift recorded rfl]
  constructor
  · intro returned
    exact ⟨_, multipleFileResource_rounds (Prod.ext returned rfl)⟩
  · intro ⟨s', rounds⟩
    have ran := multipleFileResource_of_rounds some rounds
    exact congrArg Prod.fst ran

/-- A check leaves both stores as they are, however it ends. -/
theorem multipleFileResourceCheckDrift_untouched (kube : Kubernetes) (node : Node)
    (checkDrift : Value → Value → Except Exception Value) (files : List (String × List KubernetesResourceDefinition)) :
    Within Untouched (multipleFileResourceCheckDrift kube node checkDrift files) := by
  have unflag : Within Untouched (modifyRuntime fun runtime => { runtime with performTask := none }) :=
    fun s => ⟨rfl, rfl⟩
  have task (path : String) (mapping : KubernetesApiMapping) (definition : KubernetesResourceDefinition) :
      Within Untouched (resourceCheckDriftTask kube checkDrift path mapping definition) := by
    have got : Within Untouched (getResultForRetrieveId path) := by
      refine getRuntime_within.bind fun runtime => ?_
      split
      · split
        · exact .pure _
        · exact .raise _
      · exact .pure _
    refine got.bind fun previous => (doResourceRead_untouched .task).bind fun current =>
      (Within.ofExcept _).bind fun diff => ?_
    split
    · exact .raise _
    · exact .pure _
  have round (path : String) (definition : KubernetesResourceDefinition) :
      Within Untouched (definitionTask node (driftCheck kube checkDrift) path definition) := by
    refine (chooseMapping_untouched definition).bind fun mapping => (Within.ofExcept _).bind fun resourceId =>
      (recordedState_within path).bind fun currentState => (handleExistingResource_untouched node currentState).bind
        fun _ => (task path mapping definition).bind fun _ => unflag.bind fun _ => ?_
    rw [show (driftCheck kube checkDrift).cleanupRuntimeProperties = false from rfl, Bool.and_false]
    exact .pure _
  apply multipleFileResource_within
  intro file definitions
  have all : Within Untouched (multidefinitionResourceTask node (driftCheck kube checkDrift) file definitions) :=
    (Within.forEach fun _ _ => round _ _).bind fun _ => .pure _
  refine all.attempt.bind fun result => ?_
  cases result with
  | ok value => exact .pure _
  | error e => exact .raise _

/-- A check of drift behind a read, with any two clusters at the two times, returns if and only if
    every definition can be read again and none of the answers differs from the one that was read. -/
theorem check_after_read_iff (quiet : Quiescent kube) (quiet' : Quiescent kube') {s s' t : State}
    (named : ∀ target ∈ targets node files, target.1 ≠ "") (once : ((targets node files).map Prod.fst).Nodup)
    (read : multipleFileResourceRead kube node files s = (.ok (), s'))
    (kept : recordedFiles t.runtime = recordedFiles s'.runtime) :
    (multipleFileResourceCheckDrift kube' node checkDrift files t).1 = .ok () ↔
      ∃ before after, readings kube s.options ((targets node files).map Prod.snd) = .ok before ∧
        readings kube' t.options ((targets node files).map Prod.snd) = .ok after ∧
        List.Forall₂ (Undrifted checkDrift) before after := by
  obtain ⟨before, given, recorded⟩ := readFiles_readings quiet named once read
  rw [checkFiles_iff quiet' (multipleFileResourceRead_ne_nil read) (kept ▸ recorded)]
  constructor
  · intro ⟨after, found, same⟩
    exact ⟨before, after, given, found, same⟩
  · intro ⟨other, after, given', found, same⟩
    cases given.symm.trans given'
    exact ⟨after, found, same⟩

end

section

variable (env : Environment) {files : List (String × List KubernetesResourceDefinition)}

theorem checks_return (quiet : Quiescent env.kube) (reflexive : ∀ v, Undrifted env.checkDrift v v) (some : files ≠ [])
    {options : Dict} {records : List Value}
    (given : readings env.kube options ((targets env.node files).map Prod.snd) = .ok records)
    (checks : List OperationContext) (s : State) (properties : Dict)
    (recorded : RecordedUnder (targets env.node files) records (recordedFiles s.runtime))
    {results : List (Except Exception Unit)}
    (ran : (lifecycle env options (checks.map fun ctx => (ctx, .multipleFileResourceCheckDrift files)) (s, properties)).1 =
      .ok results) : ∀ result ∈ results, result = .ok () := by
  induction checks generalizing s results with
  | nil =>
    cases ran
    simp
  | cons ctx rest ih =>
    obtain ⟨others, rfl, later⟩ := lifecycle_cons env options _ _ s properties ran
    have same : List.Forall₂ (Undrifted env.checkDrift) records records :=
      List.forall₂_same.mpr fun v _ => reflexive v
    have here : RecordedUnder (targets env.node files) records (recordedFiles ({ s with options } : State).runtime) :=
      recorded
    have first : (multipleFileResourceCheckDrift env.kube env.node env.checkDrift files { s with options }).1 = .ok () :=
      (checkFiles_iff quiet some here).mpr ⟨records, given, same⟩
    have kept := (multipleFileResourceCheckDrift_untouched env.kube env.node env.checkDrift files { s with options }).files
    refine List.forall_mem_cons.mpr ⟨first, ?_⟩
    apply ih (multipleFileResourceCheckDrift env.kube env.node env.checkDrift files { s with options }).2 _ later
    rw [kept]
    exact recorded

/-- In a quiescent cluster no check behind a read that returns finds a drift, however many there are. -/
theorem no_drift_after_read (quiet : Quiescent env.kube) (reflexive : ∀ v, Undrifted env.checkDrift v v)
    (named : ∀ target ∈ targets env.node files, target.1 ≠ "") (once : ((targets env.node files).map Prod.fst).Nodup)
    (options : Dict) (ctx : OperationContext) (checks : List OperationContext) (s : State) (properties : Dict)
    {results : List (Except Exception Unit)}
    (ran : (lifecycle env options ((ctx, .plain (.multipleFileResourceRead files)) ::
      checks.map fun ctx => (ctx, .multipleFileResourceCheckDrift files)) (s, properties)).1 = .ok results)
    (read : results.head? = some (.ok ())) : ∀ result ∈ results, result = .ok () := by
  obtain ⟨others, rfl, later⟩ := lifecycle_cons env options _ _ s properties ran
  have returned : (multipleFileResourceRead env.kube env.node files { s with options }).1 = .ok () :=
    Option.some.inj read
  have whole : multipleFileResourceRead env.kube env.node files { s with options } =
      (.ok (), (multipleFileResourceRead env.kube env.node files { s with options }).2) := Prod.ext returned rfl
  obtain ⟨records, given, recorded⟩ := readFiles_readings quiet named once whole
  have others := checks_return env quiet reflexive (multipleFileResourceRead_ne_nil whole) given checks _ properties
    recorded later
  exact List.forall_mem_cons.mpr ⟨returned, others⟩

end

open Package

def comparing (previous current : Value) : Except Exception Value :=
  .ok (.dict (if previous.eq current then [] else [("values_changed", current)]))

theorem comparing_reflexive (v : Value) : Undrifted comparing v v :=
  ⟨.dict [], by rw [comparing, if_pos (Value.eq_refl v)], rfl⟩

theorem everything_quiescent : Quiescent everything := fun _ _ _ => rfl

def deployed : List (String × List KubernetesResourceDefinition) :=
  [("deploy.yaml", [configMap "settings" none, configMap "limits" none])]

def deployedState : State := { mainNamespace with
  runtime := { kubernetes := some ((OrderedDict.empty.set "deploy.yaml#0" (response "ConfigMap" "settings")).set
    "deploy.yaml#1" (response "ConfigMap" "limits")) } }

theorem deployed_read : ∃ s', multipleFileResourceRead everything ownNode deployed deployedState = (.ok (), s') := by
  have read : returning (fun _ _ => true) (multipleFileResourceRead everything ownNode deployed deployedState) = true := by
    decide +kernel
  obtain ⟨_, s', ran, _⟩ := returning_iff.mp read
  exact ⟨s', ran⟩

def labelled : Kubernetes := package fun _ request => .ok (.dict
  [("api_version", .str "v1"), ("kind", .str "ConfigMap"),
    ("metadata", .dict [("name", (request.arguments.get? "name").getD .none),
      ("labels", .dict [("tier", .str "front")])])])

theorem deployed_paths : (∀ target ∈ targets ownNode deployed, target.1 ≠ "") ∧
    ((targets ownNode deployed).map Prod.fst).Nodup := by decide +kernel

theorem check_after_read_iff_labelled : ∃ s',
    multipleFileResourceRead everything ownNode deployed deployedState = (.ok (), s') ∧
    ((multipleFileResourceCheckDrift labelled ownNode comparing deployed s').1 = .ok () ↔
      ∃ before after, readings everything deployedState.options ((targets ownNode deployed).map Prod.snd) = .ok before ∧
        readings labelled s'.options ((targets ownNode deployed).map Prod.snd) = .ok after ∧
        List.Forall₂ (Undrifted comparing) before after) := by
  obtain ⟨s', read⟩ := deployed_read
  exact ⟨s', read, check_after_read_iff everything_quiescent (fun _ _ _ => rfl) deployed_paths.1 deployed_paths.2 read rfl⟩

def everywhere : Environment where
  kube := everything
  node := ownNode
  load _ := .error ⟨.valueError, "while scanning a text"⟩
  checkDrift := comparing
  instanceId := "config_1"

theorem no_drift_after_read_everywhere : ∃ results,
    (lifecycle everywhere mainNamespace.options ((install, .plain (.multipleFileResourceRead deployed)) ::
      [install, install].map fun ctx => (ctx, .multipleFileResourceCheckDrift deployed)) (deployedState, .empty)).1 =
        .ok results ∧ ∀ result ∈ results, result = .ok () := by
  have ran : returning (fun results _ => results.head?.map Except.isOk == some true)
      (lifecycle everywhere mainNamespace.options ((install, .plain (.multipleFileResourceRead deployed)) ::
        [install, install].map fun ctx => (ctx, .multipleFileResourceCheckDrift deployed)) (deployedState, .empty)) =
      true := by decide +kernel
  obtain ⟨results, s', ran, first⟩ := returning_iff.mp ran
  refine ⟨results, congrArg Prod.fst ran, ?_⟩
  apply no_drift_after_read everywhere everything_quiescent comparing_reflexive deployed_paths.1 deployed_paths.2 _ _ _ _ _
    (congrArg Prod.fst ran)
  cases results with
  | nil => cases first
  | cons result rest =>
    cases result with
    | ok value => rfl
    | error e => cases first

end CloudifyKubernetes
