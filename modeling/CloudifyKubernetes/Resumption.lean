import CloudifyKubernetes.ClusterLog
import CloudifyKubernetes.FileRecords

namespace CloudifyKubernetes

open Collections Effects Program

theorem definitionPath_several {node : Node} {file : Option String} {i : Nat}
    (named : definitionPath node file true i ≠ "") :
    ∃ origin, ∀ j, definitionPath node file true j = origin ++ "#" ++ toString j := by
  have numbered (origin : String) (path : ∀ j, definitionPath node file true j =
      if origin = "" then "" else origin ++ "#" ++ toString j) :
      ∃ origin, ∀ j, definitionPath node file true j = origin ++ "#" ++ toString j := by
    by_cases empty : origin = ""
    · rw [path, if_pos empty] at named
      exact absurd rfl named
    · exact ⟨origin, fun j => (path j).trans (if_neg empty)⟩
  cases file with
  | some origin => exact numbered origin fun j => rfl
  | none =>
    cases given : node.file with
    | some origin =>
      apply numbered origin
      intro j
      simp only [definitionPath, Option.isSome_none, Bool.and_true, Bool.false_eq_true, if_false, given]
    | none =>
      simp [definitionPath, given] at named

theorem fileTargets_distinct {node : Node} {file : Option String} {definitions : List KubernetesResourceDefinition}
    (named : ∀ target ∈ fileTargets node file definitions, target.1 ≠ "") :
    ((fileTargets node file definitions).map Prod.fst).Nodup := by
  have paths : (fileTargets node file definitions).map Prod.fst =
      (List.range definitions.length).map (definitionPath node file (definitions.length > 1)) := by
    have indices : definitions.zipIdx.map Prod.snd = List.range definitions.length := by
      rw [List.zipIdx_map_snd, List.range_eq_range']
    rw [← indices, fileTargets, List.map_map, List.map_map]
    rfl
  rw [paths]
  refine List.Nodup.map_on (fun i here j there same => ?_) List.nodup_range
  rw [List.mem_range] at here there
  by_cases several : definitions.length > 1
  · have first : definitionPath node file (definitions.length > 1) i ∈
        (fileTargets node file definitions).map Prod.fst := by
      rw [paths]
      exact List.mem_map_of_mem (List.mem_range.mpr here)
    obtain ⟨target, member, path⟩ := List.mem_map.mp first
    have given := named target member
    rw [path] at given
    simp only [several, decide_true] at given same
    obtain ⟨origin, numbered⟩ := definitionPath_several given
    rw [numbered, numbered] at same
    apply Text.toString_injective
    apply String.toList_injective
    have lists := congrArg String.toList same
    simp only [String.toList_append] at lists
    exact List.append_cancel_left lists
  · omega

def Gives (options : Dict) (key : String) : Prop := ∃ value, options.get? key = some value ∧ value.truthy = true

/-- The coordinates of a custom object stay in the options. -/
theorem steps_give {kube : Kubernetes} {allowed : Verb → Prop} {s s' : State} (steps : Steps kube allowed s s')
    {key : String} (member : key ∈ customObjectNodeOptions) (given : Gives s.options key) :
    Gives s'.options key := by
  induction steps with
  | refl => exact given
  | @tail middle _ _ step ih =>
    cases step with
    | runtime => exact ih
    | entered => exact ih
    | mapped => exact ih
    | edited definition options edit =>
      obtain ⟨annotations, _, ⟨complete, rfl⟩ | ⟨_, rfl⟩⟩ := customResourceEdit_cases edit
      · have truthy := complete key member
        simp only [customObjectNodeOptions, List.mem_cons, List.not_mem_nil, or_false] at member
        rcases member with rfl | rfl | rfl
        · exact ⟨_, by simp [OrderedDict.get?_set], truthy⟩
        · exact ⟨_, by simp [OrderedDict.get?_set], truthy⟩
        · exact ⟨_, by simp, truthy⟩
      · exact ih
    | called c _ _ =>
      obtain ⟨value, present, truthy⟩ := ih
      refine ⟨value, ?_, truthy⟩
      have other : key ≠ "name" ∧ key ≠ "body" ∧ key ≠ "namespace" := by
        simp only [customObjectNodeOptions, List.mem_cons, List.not_mem_nil, or_false] at member
        rcases member with rfl | rfl | rfl <;> decide
      rw [(clientCall_run kube c middle).options, get?_sharedOptions kube c _ other]
      split
      · exact get?_executedOptions kube present truthy
      · exact present

/-- A definition that can be created at all: the plugin knows how to ask the API for it, by its
    kind, its annotations or the options of the node. -/
structure Creatable (options : Dict) (d : KubernetesResourceDefinition) : Prop where
  supported : d.isAnnotated = true ∨ (getMapping d.kind).isOk = true ∨
    ∀ key ∈ customObjectNodeOptions, Gives options key
  plain : '.' ∉ d.kind.toList
  versioned : d.apiVersion.isNone = false
  named : ∃ name, d.metadata.get "name" .none = .ok (.str name)
  readable : ∃ annotations, customAnnotations d = .ok annotations

theorem Creatable.key {options : Dict} {d : KubernetesResourceDefinition} (creatable : Creatable options d) :
    ∃ key, d.resourceKey = some key ∧ key.1 = d.kind := by
  obtain ⟨name, named⟩ := creatable.named
  exact ⟨(d.kind, name), by rw [KubernetesResourceDefinition.resourceKey, named], rfl⟩

theorem Creatable.mapped {options options' : Dict} {d : KubernetesResourceDefinition}
    (creatable : Creatable options d)
    (kept : ∀ key ∈ customObjectNodeOptions, Gives options key → Gives options' key) :
    (mappingByKind options'.keys d).isOk = true := by
  have custom : (getMapping "CustomObjectsApi").isOk = true := by decide +kernel
  unfold mappingByKind
  split
  · exact custom
  · rename_i plain
    rcases creatable.supported with annotated | known | given
    · exact absurd annotated plain
    · cases found : getMapping d.kind with
      | ok mapping => rfl
      | error e =>
        rw [found] at known
        cases known
    · cases getMapping d.kind with
      | ok mapping => rfl
      | error e =>
        have all : customObjectNodeOptions.all (· ∈ options'.keys) = true := by
          rw [List.all_eq_true]
          intro key member
          obtain ⟨value, present, _⟩ := kept key member (given key member)
          rw [decide_eq_true_iff, OrderedDict.mem_keys_iff]
          exact ⟨value, present⟩
        simp only [all, if_true]
        exact custom

def placed (space : String × String → Option String) (key : String × String) : Identity :=
  ⟨.str key.2, .str key.1, (space key).elim .none .str⟩

section

variable {todo : List (String × KubernetesResourceDefinition)} {space : String × String → Option String}
  {effective : Nat → Bool} {options : Dict} {d : KubernetesResourceDefinition} {key : String × String}

theorem IsResponse.isResult {v : Value} (response : IsResponse d key.2 (space key) v)
    (creatable : Creatable options d) (own : d.resourceKey = some key) :
    ∃ fields, IsResult v d.kind d.apiVersion fields ∧ resultIdentity d.kind fields = placed space key := by
  obtain ⟨fields, described, named, spaced⟩ := response.described
  obtain ⟨key', own', kind⟩ := creatable.key
  obtain rfl : key = key' := Option.some.inj (own.symm.trans own')
  refine ⟨fields, ⟨response.kinded, creatable.plain, response.versioned, creatable.versioned, described,
    ⟨_, named⟩, ?_⟩, ?_⟩
  · cases found : fields.lookup "namespace" with
    | none => exact .inl rfl
    | some value =>
      rw [found] at spaced
      have spaced : value = (space key).elim .none .str := spaced
      cases given : space key with
      | none => exact .inr (.inl (by rw [spaced, given]; rfl))
      | some text => exact .inr (.inr ⟨text, by rw [spaced, given]; rfl⟩)
  · rw [resultIdentity, placed, named, spaced, kind]
    rfl

structure Partly (todo : List (String × KubernetesResourceDefinition)) (space : String × String → Option String)
    (s : State) : Prop where
  files : ∀ path ∈ (recordedFiles s.runtime).keys, path ∈ todo.map Prod.fst
  distinct : Distinct (storedDefinitions s.runtime)
  stored : ∀ i ∈ (storedDefinitions s.runtime).map Identity.ofDict,
    ∃ target ∈ todo, ∃ key, target.2.resourceKey = some key ∧ i = .ok (placed space key)
  idle : todo = [] → s.runtime.performTask = none

/-- A response is stored under its path and in the place of its definition, and nothing else changes. -/
structure StoredResponse (path : String) (v : Value) (i : Identity) (s s' : State) : Prop where
  files : recordedFiles s'.runtime = (recordedFiles s.runtime).set path v
  distinct : Distinct (storedDefinitions s'.runtime)
  stored : ∀ j, j ∈ (storedDefinitions s'.runtime).map Identity.ofDict ↔
    j = .ok i ∨ j ∈ (storedDefinitions s.runtime).map Identity.ofDict

theorem StoredAs.response {path : String} {v : Value} {s s' : State} (stored : StoredAs path v s s')
    (named : path ≠ "") (distinct : Distinct (storedDefinitions s.runtime)) (creatable : Creatable options d)
    (own : d.resourceKey = some key) (response : IsResponse d key.2 (space key) v) :
    StoredResponse path v (placed space key) s s' := by
  obtain ⟨fields, is, identity⟩ := response.isResult creatable own
  obtain ⟨updated, ran, distinct', _, identities⟩ := is.upserts distinct
  obtain ⟨made, same, ran'⟩ := stored.definitions
  cases is.definition.symm.trans same
  have after : storedDefinitions s'.runtime = updated := Except.ok.inj (ran'.symm.trans ran)
  rw [identity] at identities
  exact ⟨by rw [stored.files, recordFile_named named], after ▸ distinct', after ▸ identities⟩

theorem Partly.step {path : String} {v : Value} {s s' : State} (before : Partly todo space s)
    (member : (path, d) ∈ todo) (own : d.resourceKey = some key)
    (stored : StoredResponse path v (placed space key) s s') : Partly todo space s' := by
  refine ⟨fun other inside => ?_, stored.distinct, fun i inside => ?_, fun empty => ?_⟩
  · rw [stored.files, OrderedDict.mem_keys_iff, OrderedDict.get?_set] at inside
    by_cases same : other = path
    · rw [same]
      exact List.mem_map_of_mem member
    · rw [if_neg same] at inside
      exact before.files other ((OrderedDict.mem_keys_iff _ _).mpr inside)
  · rcases (stored.stored i).mp inside with rfl | earlier
    · exact ⟨(path, d), member, key, own, rfl⟩
    · exact before.stored i earlier
  · rw [empty] at member
    cases member

theorem Partly.untouched {s s' : State} (before : Partly todo space s) (busy : todo ≠ [])
    (same : Untouched s s') : Partly todo space s' := by
  have files : recordedFiles s'.runtime = recordedFiles s.runtime := by
    rw [recordedFiles, same.kubernetes]
    rfl
  have definitions : storedDefinitions s'.runtime = storedDefinitions s.runtime := by
    rw [storedDefinitions, same.resourceDefinitions]
    rfl
  exact ⟨files ▸ before.files, definitions ▸ before.distinct, definitions ▸ before.stored,
    fun empty => absurd empty busy⟩

theorem EndsWith.response {v : Value} {log events : List Event} (ends : EndsWith d v events)
    (answers : Answers effective space (log ++ events)) (own : d.resourceKey = some key) :
    (∃ c raw, .returned c (.ok raw) ∈ log ++ events ∧ c.definition = d ∧ jsonCleanuper raw = .ok v) ∧
      IsResponse d key.2 (space key) v := by
  obtain ⟨front, c, raw, rfl, rfl, cleaned⟩ := ends
  have member : .returned c (.ok raw) ∈ log ++ (front ++ [.returned c (.ok raw)]) := by simp
  obtain ⟨v', cleaned', response⟩ := answers.response c raw key member own
  obtain rfl : v = v' := Except.ok.inj (cleaned.symm.trans cleaned')
  exact ⟨⟨c, raw, member, rfl, cleaned⟩, response⟩

def Sound (todo : List (String × KubernetesResourceDefinition)) (space : String × String → Option String)
    (effective : Nat → Bool) (s : State) : Prop := Answers effective space s.log → Partly todo space s

theorem creationRound_sound {kube : Kubernetes} {node : Node} {path : String} (member : (path, d) ∈ todo)
    (named : path ≠ "") (creatable : Creatable options d) :
    Within (Keeps (Sound todo space effective)) (definitionTask node (fileCreation kube node) path d) := by
  intro s sound
  have ends := creationRound_ends kube node path d s
  generalize definitionTask node (fileCreation kube node) path d s = ran at ends ⊢
  obtain ⟨key, own, _⟩ := creatable.key
  obtain ⟨e | done, s'⟩ := ran
  · obtain ⟨same, events, grown, _⟩ := ends
    intro answers
    rw [grown] at answers
    exact (sound answers.of_append).untouched (List.ne_nil_of_mem member) same
  · obtain ⟨v, events, grown, _, ending, stored⟩ := ends
    intro answers
    rw [grown] at answers
    have before := sound answers.of_append
    have response := (ending.response answers own).2
    exact before.step member own (stored.response named before.distinct creatable own response)

theorem fileResourceCreate_sound {kube : Kubernetes} {node : Node} {file : Option String}
    {definitions : List KubernetesResourceDefinition}
    (named : ∀ target ∈ fileTargets node file definitions, target.1 ≠ "")
    (creatable : ∀ d ∈ definitions, Creatable options d) :
    Within (Keeps (Sound (fileTargets node file definitions) space effective))
      (fileResourceCreate kube node file definitions) := by
  have rounds : Within (Keeps (Sound (fileTargets node file definitions) space effective))
      (multidefinitionResourceTask node (fileCreation kube node) file definitions) := by
    refine (Within.forEach fun indexed member => ?_).bind fun _ => .pure _
    have inside : (definitionPath node file (definitions.length > 1) indexed.2, indexed.1) ∈
        fileTargets node file definitions := List.mem_map_of_mem member
    exact creationRound_sound inside (named _ inside) (creatable _ (List.fst_mem_of_mem_zipIdx member))
  rw [fileResourceCreate_eq]
  refine rounds.attempt.bind fun result => ?_
  cases result with
  | ok done => exact .pure _
  | error e => exact .raise _

/-- The records are sound after any number of attempts, whatever became of them. -/
theorem attempts_sound {kube : Kubernetes} {node : Node} {file : Option String}
    {definitions : List KubernetesResourceDefinition}
    (named : ∀ target ∈ fileTargets node file definitions, target.1 ≠ "")
    (creatable : ∀ d ∈ definitions, Creatable options d) (contexts : List OperationContext) :
    Within (Keeps (Sound (fileTargets node file definitions) space effective))
      (attempts kube node options (contexts.map fun ctx => (ctx, .fileResourceCreate file definitions))) := by
  refine Within.forEach fun next member => ?_
  obtain ⟨ctx, _, rfl⟩ := List.mem_map.mp member
  have reread : Within (Keeps (Sound (fileTargets node file definitions) space effective))
      (modifyOptions fun _ => options) := fun s sound answers => by
    obtain ⟨files, distinct, stored, idle⟩ := sound answers
    exact ⟨files, distinct, stored, idle⟩
  exact reread.bind fun _ => (fileResourceCreate_sound named creatable).attempt

theorem IsResponse.truthy {name : String} {namesp : Option String} {v : Value}
    (response : IsResponse d name namesp v) : v.truthy = true := by
  have kinded := response.kinded
  cases v with
  | dict entries =>
    cases entries with
    | nil => cases kinded
    | cons entry rest => rfl
  | _ => cases kinded

theorem Creatable.index {name : String} (named : d.metadata.get "name" .none = .ok (.str name)) :
    d.metadata.index "name" = .ok (.str name) := by
  cases given : d.metadata with
  | dict fields =>
    rw [given] at named
    simp only [Value.get, Value.index] at named ⊢
    cases found : fields.lookup "name" with
    | none =>
      rw [found] at named
      cases named
    | some value =>
      rw [found] at named
      exact named
  | _ =>
    rw [given] at named
    cases named

theorem existing_true {since : Nat} {site : Site} {mapping : KubernetesApiMapping}
    {checked : Except Exception Value} {log pre post : List Event}
    (split : log = pre ++ .returned ⟨.read site, mapping, d⟩ checked :: post)
    (creatable : Creatable options d) (own : d.resourceKey = some key) (answers : Answers effective space log)
    (truly : AnswersTruly effective since log) (late : since ≤ pre.length) :
    (0 < creations effective key pre ∧ ∃ v, IsResponse d key.2 (space key) v ∧
        existing d (checked >>= jsonCleanuper) = .ok v) ∨
      creations effective key pre = 0 ∧ existing d (checked >>= jsonCleanuper) = .ok .none := by
  by_cases present : 0 < creations effective key pre
  · have fine := truly.found pre site mapping d checked post key split late own present
    cases checked with
    | error e => cases fine
    | ok raw =>
      obtain ⟨v, cleaned, response⟩ :=
        answers.response ⟨.read site, mapping, d⟩ raw key (by rw [split]; simp) own
      exact .inl ⟨present, v, response, congrArg (existing d) cleaned⟩
  · have absent : creations effective key pre = 0 := by omega
    obtain ⟨e, rfl, operation, _⟩ := truly.missing pre site mapping d checked post key split late own absent
    obtain ⟨name, named⟩ := creatable.named
    refine .inr ⟨absent, ?_⟩
    change existing d (.error e) = _
    simp only [existing, operation, if_true, Creatable.index named]
    rfl

theorem CallEvents.answer {c : ClientCall} {result : Except Exception Value} {events : List Event}
    (call : CallEvents c result events) (key : String × String) : ∃ asked, events = asked ++ [.returned c result] ∧
      ∀ e ∈ asked, ∀ effective, e.takesEffect effective key = false := by
  obtain ⟨sent, rfl, requests⟩ := call
  refine ⟨.called c :: sent, rfl, fun e member effective => ?_⟩
  rcases List.mem_cons.mp member with rfl | member
  · rfl
  · obtain ⟨request, answer, rfl⟩ := requests e member
    rfl

theorem finished_store {v : Value} (path : String) {s : State} (distinct : Distinct (storedDefinitions s.runtime))
    (creatable : Creatable options d) (own : d.resourceKey = some key)
    (response : IsResponse d key.2 (space key) v) :
    ∃ s', finished (storeResultForRetrieveId v path s) = (.ok (), s') ∧ s'.log = s.log := by
  obtain ⟨fields, is, _⟩ := response.isResult creatable own
  obtain ⟨s', run, _⟩ := storeResultForRetrieveId_upsert is path distinct
  rcases storeResultForRetrieveId_cases v path s with ⟨e, ran⟩ | ⟨made, updated, _, _, ran⟩
  · cases ran.symm.trans run
  · exact ⟨_, congrArg finished ran, rfl⟩

theorem finished_store_log (v : Value) (path : String) (s : State) :
    (finished (storeResultForRetrieveId v path s)).2.log = s.log := by
  rcases storeResultForRetrieveId_cases v path s with ⟨e, ran⟩ | ⟨made, updated, _, _, ran⟩
  · rw [ran]
    rfl
  · rw [ran]
    rfl

variable {node : Node} {mapping : KubernetesApiMapping} {path : String} {since : Nat}

theorem late_append {log : List Event} (late : since ≤ log.length) (events : List Event) :
    since ≤ (log ++ events).length := by
  rw [List.length_append]
  omega

theorem creations_asked {asked : List Event} (quiet : ∀ e ∈ asked, ∀ effective, e.takesEffect effective key = false)
    (log : List Event) : creations effective key (log ++ .edited d :: asked) = creations effective key log :=
  creations_append_quiet (List.forall_mem_cons.mpr ⟨fun _ => rfl, quiet⟩) log

theorem quiet_asked {asked asked' : List Event} (site : Site) (checked : Except Exception Value)
    (quiet : ∀ e ∈ asked, ∀ effective, e.takesEffect effective key = false)
    (quiet' : ∀ e ∈ asked', ∀ effective, e.takesEffect effective key = false) :
    ∀ e ∈ asked ++ [.returned ⟨.read site, mapping, d⟩ checked] ++ .edited d :: asked',
      ∀ effective, e.takesEffect effective key = false := by
  intro e member effective
  simp only [List.append_assoc, List.singleton_append, List.mem_append, List.mem_cons] at member
  rcases member with member | rfl | rfl | member
  · exact quiet e member effective
  · rfl
  · rfl
  · exact quiet' e member effective

theorem absent_of_creates {log asked later : List Event} {checked : Except Exception Value} {object : Value}
    (creatable : Creatable options d) (key' : d.resourceKey = some key) (late : since ≤ log.length)
    (answered : existing d (checked >>= jsonCleanuper) = .ok object) (missing : creates node object = true)
    (quiet : ∀ e ∈ asked, ∀ effective, e.takesEffect effective key = false)
    (answers : Answers effective space (log ++ .edited d ::
      (asked ++ [.returned ⟨.read .beforeCreate, mapping, d⟩ checked] ++ later)))
    (truly : AnswersTruly effective since (log ++ .edited d ::
      (asked ++ [.returned ⟨.read .beforeCreate, mapping, d⟩ checked] ++ later))) :
    creations effective key log = 0 := by
  have split : log ++ .edited d :: (asked ++ [.returned ⟨.read .beforeCreate, mapping, d⟩ checked] ++ later) =
      (log ++ .edited d :: asked) ++ .returned ⟨.read .beforeCreate, mapping, d⟩ checked :: later := by simp
  rcases existing_true split creatable key' answers truly (late_append late _) with ⟨_, v, response, found⟩ | ⟨absent, _⟩
  · cases answered.symm.trans found
    simp [creates, response.truthy] at missing
  · rwa [creations_asked quiet] at absent

/-- With truthful answers the task returns, and the resource exists. -/
theorem CreateRun.returns {s : State} {ran : Except Exception Unit × State}
    (run : CreateRun node mapping d path s ran) (own : node.useExternalResource = false)
    (creatable : Creatable options d) (key' : d.resourceKey = some key)
    (distinct : Distinct (storedDefinitions s.runtime)) (late : since ≤ s.log.length)
    (answers : Answers effective space (finished ran).2.log)
    (truly : AnswersTruly effective since (finished ran).2.log) :
    (finished ran).1 = .ok () ∧ 0 < creations effective key (finished ran).2.log := by
  have split (asked : List Event) (checked : Except Exception Value) :
      s.log ++ .edited d :: (asked ++ [.returned ⟨.read .beforeCreate, mapping, d⟩ checked]) =
        (s.log ++ .edited d :: asked) ++ .returned ⟨.read .beforeCreate, mapping, d⟩ checked :: [] := by simp
  have splitCreate (asked asked' : List Event) (checked result : Except Exception Value) :
      s.log ++ .edited d :: (asked ++ [.returned ⟨.read .beforeCreate, mapping, d⟩ checked] ++ .edited d ::
          (asked' ++ [.returned ⟨.create, mapping, d⟩ result])) =
        (s.log ++ .edited d :: (asked ++ [.returned ⟨.read .beforeCreate, mapping, d⟩ checked] ++ .edited d ::
          asked')) ++ [.returned ⟨.create, mapping, d⟩ result] := by simp
  cases run with
  | malformed e failed =>
    obtain ⟨annotations, fine⟩ := creatable.readable
    cases fine.symm.trans failed
  | unchecked checked e options' events check failed =>
    obtain ⟨asked, rfl, quiet⟩ := check.answer key
    rcases existing_true (split asked checked) creatable key' answers truly (late_append late _) with
      ⟨_, v, _, found⟩ | ⟨_, none⟩
    · cases failed.symm.trans found
    · cases failed.symm.trans none
  | found checked object options' events check answered kept =>
    obtain ⟨asked, rfl, quiet⟩ := check.answer key
    rw [finished_store_log] at answers truly
    rcases existing_true (split asked checked) creatable key' answers truly (late_append late _) with
      ⟨present, v, response, found⟩ | ⟨_, none⟩
    · cases answered.symm.trans found
      have distinct' : Distinct (storedDefinitions (s.after (some false) options'
        (.edited d :: (asked ++ [.returned ⟨.read .beforeCreate, mapping, d⟩ checked]))).runtime) := distinct
      obtain ⟨s', ran, grown⟩ := finished_store path distinct' creatable key' response
      rw [ran]
      refine ⟨rfl, ?_⟩
      rw [grown]
      rw [creations_asked quiet] at present
      exact Nat.lt_of_lt_of_le present (creations_le_append _ _)
    · cases answered.symm.trans none
      simp [creates, own, Value.truthy] at kept
  | uncreated checked object events check answered missing result e options' events' create failed =>
    obtain ⟨asked, rfl, quiet⟩ := check.answer key
    obtain ⟨asked', rfl, quiet'⟩ := create.answer key
    have absent := absent_of_creates creatable key' late answered missing quiet answers truly
    rw [← creations_asked (quiet_asked .beforeCreate checked quiet quiet') s.log] at absent
    have fine := truly.created _ mapping d result [] key (splitCreate asked asked' checked result)
      (late_append late _) key' absent
    cases result with
    | error e => cases fine
    | ok raw =>
      have member : .returned ⟨.create, mapping, d⟩ (.ok raw) ∈ s.log ++ .edited d ::
          (asked ++ [.returned ⟨.read .beforeCreate, mapping, d⟩ checked] ++ .edited d ::
            (asked' ++ [.returned ⟨.create, mapping, d⟩ (.ok raw)])) := by simp
      obtain ⟨v, cleaned, _⟩ := answers.response ⟨.create, mapping, d⟩ raw key member key'
      cases failed.symm.trans cleaned
  | created checked object events check answered missing raw response options' events' create cleaned =>
    obtain ⟨asked, rfl, quiet⟩ := check.answer key
    obtain ⟨asked', rfl, quiet'⟩ := create.answer key
    rw [finished_store_log] at answers truly
    have member : .returned ⟨.create, mapping, d⟩ (.ok raw) ∈ s.log ++ .edited d ::
        (asked ++ [.returned ⟨.read .beforeCreate, mapping, d⟩ checked] ++ .edited d ::
          (asked' ++ [.returned ⟨.create, mapping, d⟩ (.ok raw)])) := by simp
    obtain ⟨v, cleaned', is⟩ := answers.response ⟨.create, mapping, d⟩ raw key member key'
    obtain rfl : response = v := Except.ok.inj (cleaned.symm.trans cleaned')
    obtain ⟨s', ran, grown⟩ := finished_store path (s := s.after (some true) options' _) distinct creatable key' is
    rw [ran]
    refine ⟨rfl, ?_⟩
    rw [grown, State.after, splitCreate, creations_concat]
    have took (late : Bool) : Event.takesEffect late key (.returned ⟨.create, mapping, d⟩ (.ok raw)) = true := by
      simp [Event.takesEffect, key', Except.isOk, Except.toBool]
    rw [if_pos (took _)]
    omega

theorem creationRound_returns {kube : Kubernetes} {s : State} (own : node.useExternalResource = false)
    (creatable : Creatable options d) (key' : d.resourceKey = some key)
    (kept : ∀ key ∈ customObjectNodeOptions, Gives options key → Gives s.options key)
    (distinct : Distinct (storedDefinitions s.runtime)) (late : since ≤ s.log.length)
    (answers : Answers effective space (definitionTask node (fileCreation kube node) path d s).2.log)
    (truly : AnswersTruly effective since (definitionTask node (fileCreation kube node) path d s).2.log) :
    (definitionTask node (fileCreation kube node) path d s).1 = .ok () ∧
      0 < creations effective key (definitionTask node (fileCreation kube node) path d s).2.log := by
  rcases creationRound_cases kube node path d s with ⟨e, flag, events, _, _, unmapped | unnamed⟩ |
    ⟨mapping, flag, _, ran⟩
  · have mapped := creatable.mapped kept
    rw [unmapped] at mapped
    cases mapped
  · obtain ⟨name, named⟩ := creatable.named
    cases named.symm.trans unnamed
  · rw [ran] at answers truly ⊢
    have later : since ≤ (s.after flag s.options [.mapped d (.ok mapping)]).log.length := by
      rw [State.after, List.length_append]
      omega
    exact (fileResourceCreateTask_run kube node path mapping d _).returns own creatable key' distinct later answers
      truly

theorem creationRound_steps (kube : Kubernetes) (node : Node) (path : String) (d : KubernetesResourceDefinition) :
    Within (Steps kube fun _ => True) (definitionTask node (fileCreation kube node) path d) :=
  definitionTask_within steps_offline node _ path d (chooseMapping_steps d) (by simp [fileCreation])
    fun mapping found => (handleExistingResource_within steps_offline node found).bind fun _ =>
      fileResourceCreateTask_within steps_offline node path (doResourceRead_steps trivial)
        (doResourceCreate_steps trivial trivial)

end

structure Complete (todo done : List (String × KubernetesResourceDefinition))
    (space : String × String → Option String) (effective : Nat → Bool) (s : State) : Prop where
  partly : Partly todo space s
  records : ∀ target ∈ done, ∃ c raw v, .returned c (.ok raw) ∈ s.log ∧ c.definition = target.2 ∧
    jsonCleanuper raw = .ok v ∧ (recordedFiles s.runtime).get? target.1 = some v
  stored : ∀ target ∈ done, ∀ key, target.2.resourceKey = some key →
    .ok (placed space key) ∈ (storedDefinitions s.runtime).map Identity.ofDict
  created : ∀ target ∈ done, ∀ key, target.2.resourceKey = some key → 0 < creations effective key s.log
  flag : done ≠ [] → s.runtime.performTask = none

structure Progress (todo done : List (String × KubernetesResourceDefinition)) (options : Dict)
    (space : String × String → Option String) (effective : Nat → Bool) (since : Nat) (s : State) : Prop where
  late : since ≤ s.log.length
  kept : ∀ key ∈ customObjectNodeOptions, Gives options key → Gives s.options key
  complete : Answers effective space s.log → AnswersTruly effective since s.log →
    Complete todo done space effective s

section

variable {todo done rest : List (String × KubernetesResourceDefinition)} {space : String × String → Option String}
  {effective : Nat → Bool} {options : Dict} {kube : Kubernetes} {node : Node} {since : Nat}
  {target : String × KubernetesResourceDefinition}

theorem Complete.step {s s' : State} {v : Value} {events : List Event} {key : String × String}
    (complete : Complete todo done space effective s) (split : done ++ target :: rest = todo)
    (paths : (todo.map Prod.fst).Nodup) (grown : s'.log = s.log ++ events)
    (own : target.2.resourceKey = some key) (exists_ : 0 < creations effective key s'.log)
    (answered : ∃ c raw, .returned c (.ok raw) ∈ s'.log ∧ c.definition = target.2 ∧ jsonCleanuper raw = .ok v)
    (stored : StoredResponse target.1 v (placed space key) s s') (finished : s'.runtime.performTask = none) :
    Complete todo (done ++ [target]) space effective s' := by
  have member : target ∈ todo := by simp [← split]
  have earlier {p : String × KubernetesResourceDefinition → Prop} (old : ∀ other ∈ done, p other) (new : p target) :
      ∀ other ∈ done ++ [target], p other := by
    intro other inside
    rcases List.mem_append.mp inside with inside | inside
    · exact old other inside
    · exact List.mem_singleton.mp inside ▸ new
  refine ⟨complete.partly.step member own stored, earlier (fun other inside => ?_) ?_,
    earlier (fun other inside key' own' => ?_) ?_, earlier (fun other inside key' own' => ?_) ?_, fun _ => finished⟩
  · obtain ⟨c, raw, v', returned, about, cleaned, found⟩ := complete.records other inside
    refine ⟨c, raw, v', by rw [grown]; exact List.mem_append_left _ returned, about, cleaned, ?_⟩
    have different : other.1 ≠ target.1 := by
      rw [← split, List.map_append, List.nodup_append] at paths
      exact paths.2.2 _ (List.mem_map_of_mem inside) _ (by simp)
    rw [stored.files, OrderedDict.get?_set_ne _ _ different, found]
  · obtain ⟨c, raw, returned, about, cleaned⟩ := answered
    exact ⟨c, raw, v, returned, about, cleaned, by rw [stored.files, OrderedDict.get?_set_self]⟩
  · exact (stored.stored _).mpr (.inr (complete.stored other inside key' own'))
  · intro key' own'
    obtain rfl : key = key' := Option.some.inj (own.symm.trans own')
    exact (stored.stored _).mpr (.inl rfl)
  · rw [grown]
    exact Nat.lt_of_lt_of_le (complete.created other inside key' own') (creations_le_append _ _)
  · intro key' own'
    obtain rfl : key = key' := Option.some.inj (own.symm.trans own')
    exact exists_

/-- A round of the last attempt goes wrong only if the API has not been truthful. -/
theorem creationRound_progress (own : node.useExternalResource = false) (split : done ++ target :: rest = todo)
    (paths : (todo.map Prod.fst).Nodup) (named : target.1 ≠ "") (creatable : Creatable options target.2) :
    Triple (Progress todo done options space effective since)
      (definitionTask node (fileCreation kube node) target.1 target.2)
      (fun _ => Progress todo (done ++ [target]) options space effective since)
      fun _ s => Answers effective space s.log → ¬ AnswersTruly effective since s.log := by
  intro s progress
  obtain ⟨key, key', _⟩ := creatable.key
  have ends := creationRound_ends kube node target.1 target.2 s
  have steps := creationRound_steps kube node target.1 target.2 s
  have returns (answers : Answers effective space s.log) (truly : AnswersTruly effective since s.log)
      (after : Answers effective space (definitionTask node (fileCreation kube node) target.1 target.2 s).2.log)
      (later : AnswersTruly effective since (definitionTask node (fileCreation kube node) target.1 target.2 s).2.log) :=
    creationRound_returns own creatable key' progress.kept (progress.complete answers truly).partly.distinct
      progress.late after later
  generalize definitionTask node (fileCreation kube node) target.1 target.2 s = ran at ends steps returns ⊢
  obtain ⟨e | done', s'⟩ := ran
  · obtain ⟨_, events, grown, _⟩ := ends
    intro answers truly
    have answers' := answers
    have truly' := truly
    rw [grown] at answers' truly'
    cases (returns answers'.of_append truly'.of_append answers truly).1
  · obtain ⟨v, events, grown, _, ending, stored⟩ := ends
    refine ⟨?_, fun key member given => steps_give steps member (progress.kept key member given),
      fun answers truly => ?_⟩
    · have late := progress.late
      rw [grown, List.length_append]
      omega
    · have answers' := answers
      have truly' := truly
      rw [grown] at answers' truly'
      have before := progress.complete answers'.of_append truly'.of_append
      have present := (returns answers'.of_append truly'.of_append answers truly).2
      obtain ⟨answered, response⟩ := ending.response answers' key'
      rw [← grown] at answered
      exact before.step split paths grown key' present answered
        (stored.response named before.partly.distinct creatable key' response) stored.finished

theorem fileResourceCreate_completes {file : Option String} {definitions : List KubernetesResourceDefinition}
    (own : node.useExternalResource = false)
    (named : ∀ target ∈ fileTargets node file definitions, target.1 ≠ "")
    (creatable : ∀ d ∈ definitions, Creatable options d) {s : State}
    (progress : Progress (fileTargets node file definitions) [] options space effective since s)
    (answers : Answers effective space (fileResourceCreate kube node file definitions s).2.log)
    (truly : AnswersTruly effective since (fileResourceCreate kube node file definitions s).2.log) :
    (fileResourceCreate kube node file definitions s).1 = .ok () ∧
      Complete (fileTargets node file definitions) (fileTargets node file definitions) space effective
        (fileResourceCreate kube node file definitions s).2 := by
  have paths := fileTargets_distinct named
  have looped : Triple (Progress (fileTargets node file definitions) [] options space effective since)
      (forEach definitions.zipIdx fun indexed => definitionTask node (fileCreation kube node)
        (definitionPath node file (definitions.length > 1) indexed.2) indexed.1)
      (fun _ => Progress (fileTargets node file definitions) (fileTargets node file definitions) options space
        effective since)
      fun _ s => Answers effective space s.log → ¬ AnswersTruly effective since s.log := by
    refine Triple.forEach_each (fun done => Progress (fileTargets node file definitions)
      (done.map (targetAt node file (definitions.length > 1))) options space effective since)
      fun done indexed rest split => ?_
    have member : indexed ∈ definitions.zipIdx := by simp [← split]
    have inside : targetAt node file (definitions.length > 1) indexed ∈ fileTargets node file definitions :=
      List.mem_map_of_mem member
    have whole : done.map (targetAt node file (definitions.length > 1)) ++
        targetAt node file (definitions.length > 1) indexed ::
          rest.map (targetAt node file (definitions.length > 1)) = fileTargets node file definitions := by
      rw [fileTargets, ← split, List.map_append, List.map_cons]
    rw [List.map_append]
    exact creationRound_progress own whole paths (named _ inside)
      (creatable _ (List.fst_mem_of_mem_zipIdx member))
  have ran := looped s progress
  rw [fileResourceCreate_eq] at answers truly ⊢
  simp only [resourceTask, multidefinitionResourceTask, bind_run, attempt_run] at answers truly ⊢
  generalize forEach definitions.zipIdx _ s = result at ran answers truly ⊢
  obtain ⟨e | done, s'⟩ := result
  · exact absurd truly (ran answers)
  · exact ⟨rfl, (ran.complete answers truly)⟩

end

def storedKey (v : Value) : Option (String × String) :=
  match Identity.ofDict v with
  | .ok ⟨.str name, .str kind, _⟩ => some (kind, name)
  | _ => none

/-- Every definition has its resource and its records, once: a response under its path and nothing
    under any other, and one stored definition. -/
structure CreatedOnce (todo : List (String × KubernetesResourceDefinition)) (effective : Nat → Bool) (s : State) :
    Prop where
  paths : ∀ path, path ∈ (recordedFiles s.runtime).keys ↔ path ∈ todo.map Prod.fst
  records : ∀ target ∈ todo, ∃ c raw v, .returned c (.ok raw) ∈ s.log ∧ c.definition = target.2 ∧
    jsonCleanuper raw = .ok v ∧ (recordedFiles s.runtime).get? target.1 = some v
  definitions : ((storedDefinitions s.runtime).map storedKey).Perm (todo.map fun target => target.2.resourceKey)
  created : ∀ target ∈ todo, ∀ key, target.2.resourceKey = some key → creations effective key s.log = 1
  flag : s.runtime.performTask = none

theorem Complete.createdOnce {todo : List (String × KubernetesResourceDefinition)}
    {space : String × String → Option String} {effective : Nat → Bool} {s : State}
    (complete : Complete todo todo space effective s) (answers : Answers effective space s.log)
    (keyed : ∀ target ∈ todo, ∃ key, target.2.resourceKey = some key)
    (distinct : (todo.map fun target => target.2.resourceKey).Nodup) : CreatedOnce todo effective s := by
  have keys {v : Value} {key : String × String} (own : Identity.ofDict v = .ok (placed space key)) :
      storedKey v = some key := by rw [storedKey, own]; rfl
  have stored : ∀ v ∈ storedDefinitions s.runtime, ∃ target ∈ todo, ∃ key, target.2.resourceKey = some key ∧
      Identity.ofDict v = .ok (placed space key) := fun v member =>
    complete.partly.stored _ (List.mem_map_of_mem member)
  refine ⟨fun path => ⟨complete.partly.files path, fun member => ?_⟩, complete.records, ?_, ?_, ?_⟩
  · obtain ⟨target, inside, rfl⟩ := List.mem_map.mp member
    obtain ⟨c, raw, v, _, _, _, found⟩ := complete.records target inside
    exact (OrderedDict.mem_keys_iff _ _).mpr ⟨v, found⟩
  · have once : ((storedDefinitions s.runtime).map storedKey).Nodup := by
      refine List.Nodup.map_on (fun v here w there same => ?_) complete.partly.distinct.nodup
      obtain ⟨_, _, key, _, own⟩ := stored v here
      obtain ⟨_, _, key', _, own'⟩ := stored w there
      rw [keys own, keys own'] at same
      cases same
      exact complete.partly.distinct.eq_of_identity here there (own.trans own'.symm)
    refine (List.perm_ext_iff_of_nodup once distinct).mpr fun key => ?_
    constructor
    · intro member
      obtain ⟨v, inside, rfl⟩ := List.mem_map.mp member
      obtain ⟨target, given, key, own, identity⟩ := stored v inside
      rw [keys identity, ← own]
      exact List.mem_map_of_mem given
    · intro member
      obtain ⟨target, given, rfl⟩ := List.mem_map.mp member
      obtain ⟨key, own⟩ := keyed target given
      obtain ⟨v, inside, identity⟩ := List.mem_map.mp (complete.stored target given key own)
      rw [own, ← keys identity]
      exact List.mem_map_of_mem inside
  · intro target member key own
    have once := answers.creations_le_one key
    have some_ := complete.created target member key own
    omega
  · by_cases empty : todo = []
    · exact complete.partly.idle empty
    · exact complete.flag empty

/-- However often the creation of a file has been attempted before, and wherever those attempts
    failed, an attempt in which the API is truthful returns with every resource created once. -/
theorem creation_resumed {kube : Kubernetes} {node : Node} {options : Dict} {file : Option String}
    {definitions : List KubernetesResourceDefinition} {effective : Nat → Bool}
    {space : String × String → Option String} {s s' : State} {results : Except Exception (List (Except Exception Unit))}
    (own : node.useExternalResource = false)
    (named : ∀ target ∈ fileTargets node file definitions, target.1 ≠ "")
    (creatable : ∀ d ∈ definitions, Creatable options d)
    (distinct : (definitions.map KubernetesResourceDefinition.resourceKey).Nodup)
    (failed : List OperationContext) (ctx : OperationContext)
    (before : (attempts kube node options (failed.map fun ctx => (ctx, .fileResourceCreate file definitions))
      ⟨{}, options, []⟩).2 = s)
    (ran : attempts kube node options [(ctx, .fileResourceCreate file definitions)] s = (results, s'))
    (answers : Answers effective space s'.log) (truly : AnswersTruly effective s.log.length s'.log) :
    results = .ok [.ok ()] ∧ CreatedOnce (fileTargets node file definitions) effective s' := by
  have whole : attempts kube node options [(ctx, .fileResourceCreate file definitions)] s =
      (.ok [(fileResourceCreate kube node file definitions { s with options }).1],
        (fileResourceCreate kube node file definitions { s with options }).2) := rfl
  rw [whole] at ran
  obtain ⟨rfl, rfl⟩ := Prod.mk.inj ran
  have sound : Sound (fileTargets node file definitions) space effective s := by
    have start : Sound (fileTargets node file definitions) space effective ⟨{}, options, []⟩ := fun _ =>
      ⟨by simp [recordedFiles, OrderedDict.keys, OrderedDict.empty], Distinct.nil,
        by simp [storedDefinitions], fun _ => rfl⟩
    have kept : Sound (fileTargets node file definitions) space effective (attempts kube node options
        (failed.map fun ctx => (ctx, .fileResourceCreate file definitions)) ⟨{}, options, []⟩).2 :=
      attempts_sound named creatable failed ⟨{}, options, []⟩ start
    rwa [before] at kept
  have progress : Progress (fileTargets node file definitions) [] options space effective s.log.length
      { s with options } := by
    refine ⟨Nat.le_refl _, fun _ _ given => given, fun answers _ => ?_⟩
    obtain ⟨files, distinct, stored, idle⟩ := sound answers
    exact ⟨⟨files, distinct, stored, idle⟩, by simp, by simp, by simp, by simp⟩
  obtain ⟨returned, complete⟩ := fileResourceCreate_completes own named creatable progress answers truly
  have definition {target : String × KubernetesResourceDefinition}
      (member : target ∈ fileTargets node file definitions) : target.2 ∈ definitions := by
    obtain ⟨indexed, inside, rfl⟩ := List.mem_map.mp member
    exact List.fst_mem_of_mem_zipIdx inside
  refine ⟨by rw [returned], complete.createdOnce answers (fun target member => ?_) ?_⟩
  · obtain ⟨key, own, _⟩ := (creatable _ (definition member)).key
    exact ⟨key, own⟩
  · have same : (fileTargets node file definitions).map (fun target => target.2.resourceKey) =
        definitions.map KubernetesResourceDefinition.resourceKey := by
      rw [fileTargets, List.map_map]
      have first : definitions = definitions.zipIdx.map Prod.fst := (List.zipIdx_map_fst _ _).symm
      conv_rhs => rw [first, List.map_map]
      rfl
    rw [same]
    exact distinct

open Package

/-- Whether a response is one for the resource of a definition whose API version is a text. -/
def isResponse (d : KubernetesResourceDefinition) (name : String) (namesp : Option String) (v : Value) : Bool :=
  match d.apiVersion, v.index "kind", (do v.get "api_version" (← v.get "apiVersion" .none) : Except Exception Value),
      v.index "metadata" with
  | .str version, .ok kind, .ok given, .ok (.dict fields) =>
    kind.eq (.str d.kind) && given.eq (.str version) &&
      (match fields.lookup "name" with
        | some text => text.eq (.str name)
        | none => false) &&
      (match namesp with
        | some text => ((fields.lookup "namespace").getD (.str "default")).eq (.str text)
        | none => false)
  | _, _, _, _ => false

theorem IsResponse.of_check {d : KubernetesResourceDefinition} {name : String} {namesp : Option String} {v : Value}
    (check : isResponse d name namesp v = true) : IsResponse d name namesp v := by
  unfold isResponse at check
  split at check
  · rename_i version kind given fields versioned kinded got described
    simp only [Bool.and_eq_true, Value.eq_str_iff] at check
    obtain ⟨⟨⟨rfl, rfl⟩, named⟩, spaced⟩ := check
    cases found : fields.lookup "name" with
    | none => simp [found] at named
    | some text =>
      cases namesp with
      | none => cases spaced
      | some place =>
        simp only [found, Value.eq_str_iff] at named spaced
        exact ⟨kinded, got.trans (congrArg Except.ok versioned.symm), fields, described, by rw [found, named], spaced⟩
  · cases check

def Event.fair (effective : Nat → Bool) (space : String × String → Option String) (since : Nat)
    (pre : List Event) : Event → Bool
  | .returned c result =>
    match c.definition.resourceKey with
    | none => true
    | some key =>
      (match result with
        | .ok raw => match jsonCleanuper raw with
          | .ok v => isResponse c.definition key.2 (space key) v
          | .error _ => false
        | .error _ => true) &&
      match c.verb with
      | .create =>
        if 0 < creations effective key pre then !result.isOk && !effective pre.length
        else decide (pre.length < since) || result.isOk
      | .read _ => decide (pre.length < since) ||
        (if 0 < creations effective key pre then result.isOk
        else match result with
          | .ok _ => false
          | .error e => e.isA .apiOperationError && Text.contains e.text "(404)")
      | _ => true
  | _ => true

def fairLog (effective : Nat → Bool) (space : String × String → Option String) (since : Nat) (log : List Event) :
    Bool :=
  log.zipIdx.all fun e => e.1.fair effective space since (log.take e.2)

theorem fair_of_fairLog {effective : Nat → Bool} {space : String × String → Option String} {since : Nat}
    {log : List Event} (fair : fairLog effective space since log = true) {pre post : List Event} {e : Event}
    (split : log = pre ++ e :: post) : e.fair effective space since pre = true := by
  have member : (e, pre.length) ∈ log.zipIdx := by
    rw [split, List.zipIdx_append]
    simp
  have all := List.all_eq_true.mp fair (e, pre.length) member
  have front : log.take pre.length = pre := by rw [split, List.take_left']; rfl
  rwa [front] at all

theorem answers_of_fairLog {effective : Nat → Bool} {space : String × String → Option String} {since : Nat}
    {log : List Event} (fair : fairLog effective space since log = true) :
    Answers effective space log ∧ AnswersTruly effective since log := by
  refine ⟨⟨fun pre mapping d result post key split own present => ?_, fun c raw key member own => ?_⟩,
    ⟨fun pre site mapping d result post key split late own present => ?_,
      fun pre site mapping d result post key split late own absent => ?_,
      fun pre mapping d result post key split late own absent => ?_⟩⟩
  · have here := fair_of_fairLog fair split
    simp only [Event.fair, own, present, if_true, Bool.and_eq_true, Bool.not_eq_true'] at here
    exact here.2
  · obtain ⟨pre, post, split⟩ := List.append_of_mem member
    have here := fair_of_fairLog fair split
    simp only [Event.fair, own, Bool.and_eq_true] at here
    cases cleaned : jsonCleanuper raw with
    | error e => simp [cleaned] at here
    | ok v =>
      simp only [cleaned] at here
      exact ⟨v, rfl, .of_check here.1⟩
  · have here := fair_of_fairLog fair split
    have early : ¬ pre.length < since := by omega
    simp only [Event.fair, own, present, if_true, early, decide_false, Bool.false_or, Bool.and_eq_true] at here
    exact here.2
  · have here := fair_of_fairLog fair split
    have early : ¬ pre.length < since := by omega
    simp only [Event.fair, own, absent, early, decide_false, Bool.false_or, Bool.and_eq_true, Nat.lt_irrefl,
      if_false] at here
    cases result with
    | ok raw => simp at here
    | error e => exact ⟨e, rfl, by simpa using here.2⟩
  · have here := fair_of_fairLog fair split
    have early : ¬ pre.length < since := by omega
    simp only [Event.fair, own, absent, early, decide_false, Bool.false_or, Bool.and_eq_true, Nat.lt_irrefl,
      if_false] at here
    exact here.2

def Request.bodyName (request : Request) : Option Value :=
  match request.arguments.get? "body" with
  | some (.object _ fields) =>
    match fields.lookup "_metadata" with
    | some (.dict metadata) => metadata.lookup "name"
    | _ => none
  | _ => none

/-- An API server that has what it has been told to create, though the first creation of `limits`
    is answered with an error. -/
def remembering : Kubernetes := package fun earlier request =>
  let has := fun name => earlier.any fun before => (before.bodyName.getD .none).eq name
  let configMap := fun name => Value.dict
    [("api_version", .str "v1"), ("kind", .str "ConfigMap"), ("metadata", .dict [("name", name), ("namespace", .str "main")])]
  match request.bodyName with
  | some name =>
    if has name then .error (.apiException { status := some 409, reason := "Conflict" })
    else if name.eq (.str "limits") then
      .error (.apiException { status := some 500, reason := "Internal Server Error" })
    else .ok (configMap name)
  | none =>
    let name := (request.arguments.get? "name").getD .none
    if has name then .ok (configMap name)
    else .error (.apiException { status := some 404, reason := "Not Found" })

def mapsNode : Node := { ownNode with file := some "maps.yaml" }

def twoMaps : List KubernetesResourceDefinition := [configMap "settings" none, configMap "limits" none]

theorem configMap_creatable (name : String) (options : Dict) : Creatable options (configMap name none) where
  supported := by
    have known : (getMapping "ConfigMap").isOk = true := by decide +kernel
    exact .inr (.inl known)
  plain := by
    have letters : '.' ∉ "ConfigMap".toList := by decide +kernel
    exact letters
  versioned := rfl
  named := ⟨name, rfl⟩
  readable := ⟨[], rfl⟩

theorem creation_resumed_twoMaps :
    let create := (install, Operation.fileResourceCreate none twoMaps)
    let attempted := (attempts remembering mapsNode mainNamespace.options [create] ⟨{}, mainNamespace.options, []⟩).2
    let resumed := attempts remembering mapsNode mainNamespace.options [create] attempted
    resumed.1 = .ok [.ok ()] ∧ CreatedOnce (fileTargets mapsNode none twoMaps) (fun _ => true) resumed.2 := by
  intro create attempted resumed
  have fair : fairLog (fun _ => true) (fun _ => some "main") attempted.log.length resumed.2.log = true := by
    decide +kernel
  obtain ⟨answers, truly⟩ := answers_of_fairLog fair
  have paths : (fileTargets mapsNode none twoMaps).map Prod.fst = ["maps.yaml#0", "maps.yaml#1"] := by
    decide +kernel
  have given : "" ∉ ["maps.yaml#0", "maps.yaml#1"] := by decide +kernel
  have named : ∀ target ∈ fileTargets mapsNode none twoMaps, target.1 ≠ "" := by
    rintro target member empty
    rw [← paths, ← empty] at given
    exact given (List.mem_map_of_mem member)
  have creatable : ∀ d ∈ twoMaps, Creatable mainNamespace.options d := by
    intro d member
    rcases List.mem_cons.mp member with rfl | member
    · exact configMap_creatable "settings" _
    · rw [List.mem_singleton.mp member]
      exact configMap_creatable "limits" _
  have distinct : (twoMaps.map KubernetesResourceDefinition.resourceKey).Nodup := by
    have keys : twoMaps.map KubernetesResourceDefinition.resourceKey =
      [some ("ConfigMap", "settings"), some ("ConfigMap", "limits")] := rfl
    rw [keys]
    simp
  have ran : attempts remembering mapsNode mainNamespace.options [create] attempted = (resumed.1, resumed.2) :=
    (Prod.eta _).symm
  have own : mapsNode.useExternalResource = false := rfl
  have before : (attempts remembering mapsNode mainNamespace.options
      ([install].map fun ctx => (ctx, .fileResourceCreate none twoMaps)) ⟨{}, mainNamespace.options, []⟩).2 =
        attempted := by
    rw [List.map_singleton]
  exact creation_resumed own named creatable distinct [install] install before ran answers truly

end CloudifyKubernetes
