import Mathlib.Data.List.Dedup
import CloudifyKubernetes.CreationRuns

namespace CloudifyKubernetes

open Collections Effects Program

def targetAt (node : Node) (file : Option String) (multicalls : Bool)
    (indexed : KubernetesResourceDefinition × Nat) : String × KubernetesResourceDefinition :=
  (definitionPath node file multicalls indexed.2, indexed.1)

def fileTargets (node : Node) (file : Option String) (definitions : List KubernetesResourceDefinition) :
    List (String × KubernetesResourceDefinition) :=
  definitions.zipIdx.map (targetAt node file (definitions.length > 1))

def targets (node : Node) (files : List (String × List KubernetesResourceDefinition)) :
    List (String × KubernetesResourceDefinition) :=
  files.flatMap fun file => fileTargets node (some file.1) file.2

theorem resourceTask_rounds {node : Node} {operation : ResourceTask} {file : Option String}
    {definitions : List KubernetesResourceDefinition} {s s' : State}
    (ran : resourceTask node operation file definitions s = (.ok (), s')) :
    Rounds (fun target => definitionTask node operation target.1 target.2) (fileTargets node file definitions) s s' := by
  obtain ⟨result, middle, tried, ran⟩ := bind_ok_inv ran
  rw [attempt_run] at tried
  cases tried
  generalize whole : multidefinitionResourceTask node operation file definitions s = outcome at ran
  obtain ⟨e | value, last⟩ := outcome
  · cases ran
  · cases ran
    obtain ⟨done, last, ran, ended⟩ := bind_ok_inv whole
    cases ended
    exact (Rounds.of_forEach ran).map

/-- An operation that raises has gone round some of its definitions, and raises in the next round. -/
theorem resourceTask_failed {node : Node} {operation : ResourceTask} {file : Option String}
    {definitions : List KubernetesResourceDefinition} {s s' : State} {e : Exception}
    (ran : resourceTask node operation file definitions s = (.error e, s')) :
    ∃ front target back middle e', fileTargets node file definitions = front ++ target :: back ∧
      Rounds (fun target => definitionTask node operation target.1 target.2) front s middle ∧
      definitionTask node operation target.1 target.2 middle = (.error e', s') := by
  obtain ⟨e', looped⟩ : ∃ e', forEach definitions.zipIdx (fun indexed => definitionTask node operation
      (definitionPath node file (definitions.length > 1) indexed.2) indexed.1) s = (.error e', s') := by
    rw [resourceTask, bind_run, attempt_run, multidefinitionResourceTask, bind_run] at ran
    generalize forEach definitions.zipIdx _ s = outcome at ran ⊢
    obtain ⟨e' | _, middle⟩ := outcome
    · exact ⟨e', Prod.ext rfl (Prod.mk.inj ran).2⟩
    · cases ran
  obtain ⟨front, indexed, back, middle, split, rounds, failed⟩ := Rounds.of_forEach_error looped
  refine ⟨front.map (targetAt node file (definitions.length > 1)), targetAt node file (definitions.length > 1) indexed,
    back.map (targetAt node file (definitions.length > 1)), middle, e', ?_, Rounds.map rounds, failed⟩
  rw [fileTargets, split, List.map_append, List.map_cons]

theorem multipleFileResource_rounds {node : Node} {operation : ResourceTask}
    {files : List (String × List KubernetesResourceDefinition)} {s s' : State}
    (ran : multipleFileResource (resourceTask node operation) files s = (.ok (), s')) :
    Rounds (fun target => definitionTask node operation target.1 target.2) (targets node files) s s' := by
  unfold multipleFileResource at ran
  split at ran
  · cases ran
  · obtain ⟨done, last, ran, ended⟩ := bind_ok_inv ran
    cases ended
    exact (Rounds.of_forEach ran).flatMap fun file _ s s' ran => resourceTask_rounds ran

/-- An operation on several files that raises does so in the round of a definition. -/
theorem multipleFileResource_failed {node : Node} {operation : ResourceTask}
    {files : List (String × List KubernetesResourceDefinition)} {s s' : State} {e : Exception} (given : files ≠ [])
    (ran : multipleFileResource (resourceTask node operation) files s = (.error e, s')) :
    ∃ front target back middle e', targets node files = front ++ target :: back ∧
      Rounds (fun target => definitionTask node operation target.1 target.2) front s middle ∧
      definitionTask node operation target.1 target.2 middle = (.error e', s') := by
  unfold multipleFileResource at ran
  split at ran
  · rename_i none
    exact absurd (List.isEmpty_iff.mp none) given
  rcases bind_error_inv ran with looped | ⟨_, _, _, ended⟩
  swap
  · cases ended
  obtain ⟨earlier, file, later, started, rfl, rounds, failed⟩ := Rounds.of_forEach_error looped
  obtain ⟨front, target, back, middle, e', split, rounds', failed⟩ := resourceTask_failed failed
  have rounds : Rounds (fun target => definitionTask node operation target.1 target.2) (targets node earlier) s started :=
    rounds.flatMap fun file _ s s' ran => resourceTask_rounds ran
  refine ⟨targets node earlier ++ front, target, back ++ targets node later, middle, e', ?_, rounds.append rounds', failed⟩
  simp only [targets, List.flatMap_append, List.flatMap_cons, split, List.append_assoc, List.cons_append]

def LastAnswer (definition : KubernetesResourceDefinition) (v : Value) (events : List Event) : Prop :=
  ∃ front c raw back, events = front ++ .returned c (.ok raw) :: back ∧ c.definition = definition ∧
    jsonCleanuper raw = .ok v ∧ ∀ e ∈ back, ∀ c', e.call? = some c' → c'.definition ≠ definition

theorem LastAnswer.unique {definition : KubernetesResourceDefinition} {v w : Value} {events : List Event}
    (here : LastAnswer definition v events) (there : LastAnswer definition w events) : v = w := by
  obtain ⟨front, c, raw, back, rfl, about, cleaned, behind⟩ := here
  obtain ⟨front', c', raw', back', same, about', cleaned', behind'⟩ := there
  rcases List.append_eq_append_iff.mp same with ⟨between, _, split⟩ | ⟨between, _, split⟩
  · cases between with
    | nil =>
      cases split
      exact Except.ok.inj (cleaned.symm.trans cleaned')
    | cons e between =>
      cases split
      exact absurd about' (behind (.returned c' (.ok raw')) (by simp) c' rfl)
  · cases between with
    | nil =>
      cases split
      exact Except.ok.inj (cleaned.symm.trans cleaned')
    | cons e between =>
      cases split
      exact absurd about (behind' (.returned c (.ok raw)) (by simp) c rfl)

theorem LastAnswer.prepend {definition : KubernetesResourceDefinition} {v : Value} {events : List Event}
    (last : LastAnswer definition v events) (before : List Event) : LastAnswer definition v (before ++ events) := by
  obtain ⟨front, c, raw, back, rfl, rest⟩ := last
  exact ⟨before ++ front, c, raw, back, (List.append_assoc _ _ _).symm, rest⟩

theorem EndsWith.lastAnswer {definition : KubernetesResourceDefinition} {v : Value} {events later : List Event}
    (ends : EndsWith definition v events)
    (other : ∀ e ∈ later, ∀ c, e.call? = some c → c.definition ≠ definition) :
    LastAnswer definition v (events ++ later) := by
  obtain ⟨front, c, raw, rfl, about, cleaned⟩ := ends
  exact ⟨front, c, raw, later, by simp, about, cleaned, other⟩

def recordAll (answers : List ((String × KubernetesResourceDefinition) × Value)) (files : Dict) : Dict :=
  answers.foldl (fun files answer => recordFile answer.1.1 answer.2 files) files

theorem creationRounds_answers {kube : Kubernetes} {node : Node}
    {todo : List (String × KubernetesResourceDefinition)} {s s' : State}
    (rounds : Rounds (fun target => definitionTask node (fileCreation kube node) target.1 target.2) todo s s')
    (distinct : (todo.map Prod.snd).Nodup) :
    ∃ answers events, answers.map Prod.fst = todo ∧ s'.log = s.log ++ events ∧
      (∀ e ∈ events, ∀ c, e.call? = some c → c.definition ∈ todo.map Prod.snd) ∧
      (∀ answer ∈ answers, LastAnswer answer.1.2 answer.2 events) ∧
      recordedFiles s'.runtime = recordAll answers (recordedFiles s.runtime) := by
  induction rounds with
  | nil s => exact ⟨[], [], rfl, by simp, by simp, by simp, rfl⟩
  | @cons target rest _ s middle s' ran _ ih =>
    rw [List.map_cons, List.nodup_cons] at distinct
    obtain ⟨answers, events, same, grown, about, last, recorded⟩ := ih distinct.2
    have ends := creationRound_ends kube node target.1 target.2 s
    rw [ran] at ends
    obtain ⟨v, first, grown', calls, ending, stored⟩ := ends
    refine ⟨(target, v) :: answers, first ++ events, ?_, ?_, ?_, ?_, ?_⟩
    · rw [List.map_cons, same]
    · rw [grown, grown', List.append_assoc]
    · intro e member c called
      rcases List.mem_append.mp member with member | member
      · rw [calls e member c called]
        exact List.mem_cons_self
      · exact List.mem_cons_of_mem _ (about e member c called)
    · refine List.forall_mem_cons.mpr ⟨?_, fun answer member => (last answer member).prepend first⟩
      apply ending.lastAnswer
      intro e member c called here
      exact distinct.1 (here ▸ about e member c called)
    · rw [recorded, stored.files]
      rfl

section

variable {answers : List ((String × KubernetesResourceDefinition) × Value)}

theorem recordFile_named {path : String} (named : path ≠ "") (v : Value) (files : Dict) :
    recordFile path v files = files.set path v := if_pos named

theorem get?_recordAll_of_absent (named : ∀ answer ∈ answers, answer.1.1 ≠ "") {path : String}
    (absent : ∀ answer ∈ answers, answer.1.1 ≠ path) (files : Dict) :
    (recordAll answers files).get? path = files.get? path := by
  induction answers generalizing files with
  | nil => rfl
  | cons answer rest ih =>
    obtain ⟨first, others⟩ := List.forall_mem_cons.mp named
    obtain ⟨different, absent⟩ := List.forall_mem_cons.mp absent
    change (recordAll rest (recordFile answer.1.1 answer.2 files)).get? path = _
    rw [ih others absent, recordFile_named first, OrderedDict.get?_set_ne _ _ (Ne.symm different)]

theorem get?_recordAll (named : ∀ answer ∈ answers, answer.1.1 ≠ "")
    (once : (answers.map fun answer => answer.1.1).Nodup) (files : Dict) :
    ∀ answer ∈ answers, (recordAll answers files).get? answer.1.1 = some answer.2 := by
  induction answers generalizing files with
  | nil => simp
  | cons answer rest ih =>
    obtain ⟨first, others⟩ := List.forall_mem_cons.mp named
    rw [List.map_cons, List.nodup_cons] at once
    refine List.forall_mem_cons.mpr ⟨?_, ih others once.2 _⟩
    have absent : ∀ other ∈ rest, other.1.1 ≠ answer.1.1 := by
      intro other member same
      exact once.1 (same ▸ List.mem_map_of_mem member)
    change (recordAll rest (recordFile answer.1.1 answer.2 files)).get? answer.1.1 = _
    rw [get?_recordAll_of_absent others absent, recordFile_named first, OrderedDict.get?_set_self]

theorem mem_keys_recordAll (named : ∀ answer ∈ answers, answer.1.1 ≠ "") (files : Dict) (path : String) :
    path ∈ (recordAll answers files).keys ↔ path ∈ files.keys ∨ path ∈ answers.map fun answer => answer.1.1 := by
  induction answers generalizing files with
  | nil => simp [recordAll]
  | cons answer rest ih =>
    obtain ⟨first, others⟩ := List.forall_mem_cons.mp named
    change path ∈ (recordAll rest (recordFile answer.1.1 answer.2 files)).keys ↔ _
    rw [ih others, recordFile_named first, OrderedDict.mem_keys_iff, OrderedDict.mem_keys_iff,
      OrderedDict.get?_set, List.map_cons, List.mem_cons]
    by_cases same : path = answer.1.1 <;> simp [same]

theorem length_recordAll_iff (named : ∀ answer ∈ answers, answer.1.1 ≠ "") :
    (recordAll answers .empty).items.length = answers.length ↔ (answers.map fun answer => answer.1.1).Nodup := by
  have keys : (recordAll answers .empty).keys.Perm (answers.map fun answer => answer.1.1).dedup := by
    apply (List.perm_ext_iff_of_nodup (recordAll answers .empty).distinct (List.nodup_dedup _)).mpr
    intro path
    rw [List.mem_dedup]
    change path ∈ (recordAll answers .empty).keys ↔ _
    rw [mem_keys_recordAll named]
    simp [OrderedDict.keys, OrderedDict.empty]
  have count : (recordAll answers .empty).items.length = (answers.map fun answer => answer.1.1).dedup.length := by
    rw [← keys.length_eq, OrderedDict.keys, List.length_map]
  rw [count]
  constructor
  · intro full
    have same := (List.dedup_sublist (answers.map fun answer => answer.1.1)).eq_of_length
      (by rw [full, List.length_map])
    exact List.dedup_eq_self.mp same
  · intro once
    rw [List.dedup_eq_self.mpr once, List.length_map]

/-- A response that is recorded without a path replaces the map, and cannot be found in it. -/
theorem unnamed_unrecorded (entries : List (String × Value)) :
    (OrderedDict.ofEntries entries).get? "" ≠ some (.dict entries) := by
  intro found
  have smaller := List.sizeOf_lt_of_mem (OrderedDict.mem_of_get?_ofEntries found)
  simp at smaller
  omega

theorem last_unnamed (unnamed : ∃ answer ∈ answers, answer.1.1 = "") :
    ∃ front answer back, answers = front ++ answer :: back ∧ answer.1.1 = "" ∧
      ∀ other ∈ back, other.1.1 ≠ "" := by
  induction answers with
  | nil => simp at unnamed
  | cons answer rest ih =>
    by_cases later : ∃ other ∈ rest, other.1.1 = ""
    · obtain ⟨front, other, back, split, here, named⟩ := ih later
      exact ⟨answer :: front, other, back, by rw [split]; rfl, here, named⟩
    · obtain ⟨other, member, here⟩ := unnamed
      rcases List.mem_cons.mp member with rfl | member
      · exact ⟨[], other, rest, rfl, here, fun other member same => later ⟨other, member, same⟩⟩
      · exact absurd ⟨other, member, here⟩ later

end

/-- Every definition has its record: there are as many as definitions, and the last answer for each
    is recorded under its path, where a check of drift finds it. -/
structure OneRecordEach (todo : List (String × KubernetesResourceDefinition)) (s s' : State) : Prop where
  count : (recordedFiles s'.runtime).items.length = todo.length
  recorded : ∀ target ∈ todo, ∃ v, LastAnswer target.2 v (s'.log.drop s.log.length) ∧
    (recordedFiles s'.runtime).get? target.1 = some v ∧ getResultForRetrieveId target.1 s' = (.ok v, s')

theorem getResultForRetrieveId_recorded {path : String} (named : path ≠ "") {s : State} {v : Value}
    (found : (recordedFiles s.runtime).get? path = some v) : getResultForRetrieveId path s = (.ok v, s) := by
  rw [getResultForRetrieveId, bind_run_ok (getRuntime_run s), if_pos named]
  cases recorded : s.runtime.kubernetes with
  | none => simp [recordedFiles, recorded] at found
  | some files =>
    rw [recordedFiles, recorded] at found
    have found : files.get? path = some v := found
    simp only [found]
    rfl

/-- After a creation of several files every definition has its record exactly when the paths
    that are computed for the definitions are given and no two are the same. -/
theorem oneRecordEach_iff {kube : Kubernetes} {node : Node}
    {files : List (String × List KubernetesResourceDefinition)} {s s' : State}
    (distinct : ((targets node files).map fun target => Identity.ofDefinition target.2).Nodup)
    (fresh : recordedFiles s.runtime = .empty)
    (ran : multipleFileResourceCreate kube node files s = (.ok (), s')) :
    OneRecordEach (targets node files) s s' ↔
      (∀ target ∈ targets node files, target.1 ≠ "") ∧ ((targets node files).map Prod.fst).Nodup := by
  have rounds : Rounds (fun target => definitionTask node (fileCreation kube node) target.1 target.2)
      (targets node files) s s' := multipleFileResource_rounds ran
  have definitions : ((targets node files).map Prod.snd).Nodup := by
    have mapped : (((targets node files).map Prod.snd).map Identity.ofDefinition).Nodup := by
      rwa [List.map_map]
    exact mapped.of_map _
  obtain ⟨answers, events, same, grown, _, last, recorded⟩ := creationRounds_answers rounds definitions
  have after : s'.log.drop s.log.length = events := by rw [grown, List.drop_left]
  rw [fresh] at recorded
  generalize targets node files = todo at *
  subst same
  have paths : (answers.map Prod.fst).map Prod.fst = answers.map fun answer => answer.1.1 := by
    rw [List.map_map]
    rfl
  rw [List.forall_mem_map, paths]
  constructor
  · intro each
    have named : ∀ answer ∈ answers, answer.1.1 ≠ "" := by
      by_contra! unnamed
      obtain ⟨front, answer, back, rfl, here, named⟩ := last_unnamed unnamed
      obtain ⟨v, own, found, _⟩ := each.recorded answer.1 (by simp)
      rw [after] at own
      obtain rfl := own.unique (last answer (by simp))
      have dict : ∃ entries, answer.2 = .dict entries := by
        obtain ⟨_, _, raw, _, _, _, cleaned, _⟩ := own
        cases raw with
        | dict entries =>
          rw [← Except.ok.inj cleaned]
          exact ⟨_, by rw [Value.clean]⟩
        | _ => cases cleaned
      obtain ⟨entries, whole⟩ := dict
      have split : recordAll (front ++ answer :: back) .empty =
          recordAll back (recordFile answer.1.1 answer.2 (recordAll front .empty)) := by
        simp [recordAll]
      rw [recorded, split, get?_recordAll_of_absent named (fun other member => by rw [here]; exact named other member),
        here, whole] at found
      exact unnamed_unrecorded entries found
    refine ⟨named, (length_recordAll_iff named).mp ?_⟩
    rw [← recorded, each.count, List.length_map]
  · rintro ⟨named, once⟩
    refine ⟨?_, fun target member => ?_⟩
    · rw [recorded, (length_recordAll_iff named).mpr once, List.length_map]
    · obtain ⟨answer, inside, rfl⟩ := List.mem_map.mp member
      have found : (recordedFiles s'.runtime).get? answer.1.1 = some answer.2 := by
        rw [recorded]
        exact get?_recordAll named once .empty answer inside
      rw [after]
      exact ⟨answer.2, last answer inside, found, getResultForRetrieveId_recorded (named answer inside) found⟩

open Package

def creating : Kubernetes := package fun _ request =>
  match request.arguments.get? "body" with
  | some (.object _ fields) => .ok (.dict [("api_version", .str "v1"), ("kind", .str "ConfigMap"),
      ("metadata", (fields.lookup "_metadata").getD .none)])
  | _ => .error (.apiException { status := some 404, reason := "Not Found" })

def renderedTwice : List (String × List KubernetesResourceDefinition) :=
  [("deploy.yaml", [configMap "settings" none]), ("deploy.yaml", [configMap "limits" none])]

theorem renderedTwice_created : ∃ s', multipleFileResourceCreate creating ownNode renderedTwice mainNamespace =
    (.ok (), s') ∧ (recordedFiles s'.runtime).items.length = 1 := by
  have created : returning (fun _ s' => (recordedFiles s'.runtime).items.length == 1)
      (multipleFileResourceCreate creating ownNode renderedTwice mainNamespace) = true := by decide +kernel
  obtain ⟨_, s', ran, single⟩ := returning_iff.mp created
  exact ⟨s', ran, beq_iff_eq.mp single⟩

/-- The two definitions of one path have one record. -/
theorem renderedTwice_collides : ∃ s', multipleFileResourceCreate creating ownNode renderedTwice mainNamespace =
    (.ok (), s') ∧ ¬ OneRecordEach (targets ownNode renderedTwice) mainNamespace s' := by
  obtain ⟨s', ran, single⟩ := renderedTwice_created
  refine ⟨s', ran, fun each => ?_⟩
  have two : (targets ownNode renderedTwice).length = 2 := by decide +kernel
  have count := each.count
  omega

theorem oneRecordEach_iff_renderedTwice : ∃ s',
    multipleFileResourceCreate creating ownNode renderedTwice mainNamespace = (.ok (), s') ∧
    (OneRecordEach (targets ownNode renderedTwice) mainNamespace s' ↔
      (∀ target ∈ targets ownNode renderedTwice, target.1 ≠ "") ∧
        ((targets ownNode renderedTwice).map Prod.fst).Nodup) := by
  obtain ⟨s', ran, _⟩ := renderedTwice_created
  have named (name : String) : Identity.ofDefinition (configMap name none) =
      .ok ⟨.str name, .str "ConfigMap", .str "default"⟩ := rfl
  have distinct : ((targets ownNode renderedTwice).map fun target => Identity.ofDefinition target.2).Nodup := by
    change [Identity.ofDefinition (configMap "settings" none), Identity.ofDefinition (configMap "limits" none)].Nodup
    simp [named]
  exact ⟨s', ran, oneRecordEach_iff distinct rfl ran⟩

end CloudifyKubernetes
