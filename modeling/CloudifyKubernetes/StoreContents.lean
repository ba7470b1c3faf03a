import CloudifyKubernetes.Adoption
import CloudifyKubernetes.Completion
import CloudifyKubernetes.Effects.Learning
import CloudifyKubernetes.Effects.Spending
import CloudifyKubernetes.LastCreatePath
import CloudifyKubernetes.Lifecycle
import CloudifyKubernetes.Lookup
import Mathlib.Order.CompletePartialOrder

namespace CloudifyKubernetes

open Collections Effects Program

def State.known (s : State) : Set Event := {e | e ∈ s.log}

def PartOf (v : Value) (d : KubernetesResourceDefinition) : Prop :=
  ∃ entries kind version metadata, v = .dict entries ∧ entries.lookup "kind" = some kind ∧
    entries.lookup "metadata" = some metadata ∧ (∃ key, entries.lookup key = some version) ∧
    KubernetesResourceDefinition.ofParts kind version metadata = .ok d

/-- What may be a record, a stored definition, a definition that is worked on, a deletion and another
    runtime property, by the events so far. The laws are those that the operations go by. -/
structure Contents where
  value : Set Event → Value → Prop
  definition : Set Event → Value → Prop
  source : Set Event → KubernetesResourceDefinition → Prop
  deletion : Set Event → Value → KubernetesResourceDefinition → Prop
  property : Value → Prop
  value_mono {known known' : Set Event} {v : Value} : known ≤ known' → value known v → value known' v
  definition_mono {known known' : Set Event} {v : Value} : known ≤ known' → definition known v → definition known' v
  source_mono {known known' : Set Event} {d : KubernetesResourceDefinition} :
    known ≤ known' → source known d → source known' d
  deletion_mono {known known' : Set Event} {id : Value} {d : KubernetesResourceDefinition} :
    known ≤ known' → deletion known id d → deletion known' id d
  answered {known : Set Event} {c : ClientCall} {raw v : Value} :
    .returned c (.ok raw) ∈ known → jsonCleanuper raw = .ok v → value known v
  missing (known : Set Event) : value known .none
  entry {known : Set Event} {entries : List (String × Value)} :
    value known (.dict entries) → ∀ e ∈ entries, value known e.2
  stored {known : Set Event} {v : Value} {d : KubernetesResourceDefinition} :
    value known v → PartOf v d → definition known d.cleanup
  recorded {known : Set Event} {v : Value} {d : KubernetesResourceDefinition} : value known v → PartOf v d → source known d
  reread {known : Set Event} {v : Value} {d : KubernetesResourceDefinition} :
    definition known v → KubernetesResourceDefinition.ofStored v = .ok d → source known d
  written {known : Set Event} {d : KubernetesResourceDefinition} : source known d → value known d.cleanup
  again {known : Set Event} {d d' : KubernetesResourceDefinition} :
    source known d → KubernetesResourceDefinition.ofStored d.cleanup = .ok d' → source known d'
  deleted {known : Set Event} {d : KubernetesResourceDefinition} {id : Value} :
    source known d → d.metadata.index "name" = .ok id → deletion known id d
  text (text : String) : property (.str text)
  held {known : Set Event} {v : Value} : value known v → property v
  cleaned {raw v : Value} : jsonCleanuper raw = .ok v → property v
  part {v found : Value} {key : String} : property v → v.index key = .ok found → property found

namespace Contents

variable (C : Contents)

def Reason (e : Event) (front : List Event) : Prop :=
  ∀ id mapping d, e = .called ⟨.delete id, mapping, d⟩ → C.deletion {e | e ∈ front} id d

structure Stores (known : Set Event) (runtime : RuntimeProperties) : Prop where
  files : ∀ e ∈ (recordedFiles runtime).items, C.value known e.2
  definitions : ∀ v ∈ storedDefinitions runtime, C.definition known v

structure Holds (s : State) : Prop where
  stores : C.Stores s.known s.runtime
  deletions : Reasoned (Event.deletes fun _ => true) C.Reason s.log

abbrev Handles (known : Set Event) {α : Type} (p : Task α) (ok : Set Event → α → Prop) : Prop :=
  Learns State.known C.Holds known p ok

end Contents

section

variable {C : Contents} {known known' : Set Event}

theorem Contents.Stores.mono {runtime : RuntimeProperties} (stores : C.Stores known runtime) (more : known ≤ known') :
    C.Stores known' runtime :=
  ⟨fun e member => C.value_mono more (stores.files e member),
    fun v member => C.definition_mono more (stores.definitions v member)⟩

theorem Contents.Stores.flagged {runtime : RuntimeProperties} (stores : C.Stores known runtime) (flag : Option Bool) :
    C.Stores known { runtime with performTask := flag } := ⟨stores.files, stores.definitions⟩

theorem State.known_grown {s s' : State} {events : List Event} (grown : s'.log = s.log ++ events) : s.known ≤ s'.known := by
  intro e member
  change e ∈ s'.log
  rw [grown]
  exact List.mem_append_left _ member

theorem Contents.Holds.grow {s s' : State} {events : List Event} (holds : C.Holds s) (kept : Untouched s s')
    (grown : s'.log = s.log ++ events)
    (reasons : ∀ front e back, events = front ++ e :: back → e.deletes (fun _ => true) = true →
      C.Reason e (s.log ++ front)) : C.Holds s' := by
  have stores := holds.stores.mono (State.known_grown grown)
  refine ⟨⟨?_, ?_⟩, ?_⟩
  · rw [kept.files]
    exact stores.files
  · rw [kept.definitions]
    exact stores.definitions
  · rw [grown]
    exact holds.deletions.extend reasons

theorem Contents.Holds.quiet {s s' : State} {events : List Event} (holds : C.Holds s) (kept : Untouched s s')
    (grown : s'.log = s.log ++ events) (free : ∀ e ∈ events, e.deletes (fun _ => true) = false) : C.Holds s' := by
  apply holds.grow kept grown
  intro front e back split deletes
  have member : e ∈ events := by
    rw [split]
    simp
  rw [free e member] at deletes
  cases deletes

theorem CallEvents.undeleting {c : ClientCall} {result : Except Exception Value} {events : List Event}
    (call : CallEvents c result events) (other : ∀ id, c.verb ≠ .delete id) :
    ∀ e ∈ events, e.deletes (fun _ => true) = false := by
  intro e member
  have about := call.call?_eq e member
  cases e with
  | called c' =>
    cases about
    obtain ⟨verb, mapping, definition⟩ := c
    cases verb with
    | delete id => exact absurd rfl (other id)
    | _ => rfl
  | _ => rfl

theorem CallEvents.mem_returned {c : ClientCall} {result : Except Exception Value} {events : List Event}
    (call : CallEvents c result events) : .returned c result ∈ events := by
  obtain ⟨sent, rfl, _⟩ := call
  simp

theorem getRuntime_handles : C.Handles known getRuntime C.Stores :=
  fun _ holds => ⟨holds.1.stores, holds⟩

theorem modifyRuntime_handles {f : RuntimeProperties → RuntimeProperties}
    (moves : ∀ known' runtime, known ≤ known' → C.Stores known' runtime → C.Stores known' (f runtime)) :
    C.Handles known (modifyRuntime f) fun _ _ => True := by
  apply Learns.modify
  · intro s holds above
    exact ⟨moves s.known s.runtime above holds.stores, holds.deletions⟩
  · intro s
    rfl

theorem unflagged_handles (flag : Option Bool) :
    C.Handles known (modifyRuntime fun runtime => { runtime with performTask := flag }) fun _ _ => True :=
  modifyRuntime_handles fun _ _ _ stores => stores.flagged flag

theorem setPerformTask_handles (perform : Bool) : C.Handles known (setPerformTask perform) fun _ _ => True :=
  unflagged_handles _

theorem getPerformTask_handles : C.Handles known getPerformTask fun _ _ => True := fun _ holds => ⟨trivial, holds⟩

theorem handleExistingResource_handles (node : Node) (found : Value) :
    C.Handles known (handleExistingResource node found) fun _ _ => True := by
  unfold handleExistingResource
  dsimp only
  split
  · exact setPerformTask_handles _
  · split <;> exact setPerformTask_handles _

theorem handleDeleteResource_handles (node : Node) (found : Bool) :
    C.Handles known (handleDeleteResource node found) fun _ _ => True := by
  unfold handleDeleteResource
  split <;> exact setPerformTask_handles _

theorem ofExcept_handles {α : Type} (result : Except Exception α) :
    C.Handles known (Program.ofExcept result : Task α) fun _ value => result = .ok value :=
  .ofExcept fun _ _ _ same => same

theorem handles_of_events {α : Type} {p : Task α} {P : Set Event → α → Prop}
    (runs : ∀ s, Untouched s (p s).2 ∧ ∃ events, (p s).2.log = s.log ++ events ∧
      ∀ e ∈ events, e.deletes (fun _ => true) = false)
    (returned : ∀ s value, (p s).1 = .ok value → P (p s).2.known value) : C.Handles known p P := by
  apply Learns.of_run
  · intro s holds _
    obtain ⟨kept, events, grown, free⟩ := runs s
    exact ⟨holds.quiet kept grown free, State.known_grown grown⟩
  · intro s _ _ value same
    exact returned s value same

theorem record_handles {e : Event} (free : e.deletes (fun _ => true) = false) :
    C.Handles known (record e) fun _ _ => True := by
  apply handles_of_events
  · intro s
    refine ⟨⟨rfl, rfl⟩, [e], rfl, ?_⟩
    intro e' member
    rw [List.mem_singleton.mp member]
    exact free
  · intro _ _ _
    trivial

theorem chooseMapping_handles (definition : KubernetesResourceDefinition) :
    C.Handles known (chooseMapping definition) fun _ _ => True := by
  apply handles_of_events
  · intro s
    rw [chooseMapping_run]
    refine ⟨⟨rfl, rfl⟩, _, rfl, ?_⟩
    intro e member
    rw [List.mem_singleton.mp member]
    rfl
  · intro _ _ _
    trivial

end

section

variable {C : Contents} {known : Set Event} {kube : Kubernetes} {node : Node} {mapping : KubernetesApiMapping}
  {definition : KubernetesResourceDefinition}

theorem editedRun_handles {c : ClientCall} {p : Task Value} (other : ∀ id, c.verb ≠ .delete id)
    (run : ∀ s, EditedRun c s (p s)) : C.Handles known p C.value := by
  apply handles_of_events
  · intro s
    have run := run s
    generalize p s = ran at run ⊢
    cases run with
    | malformed e failed => exact ⟨⟨rfl, rfl⟩, [], (List.append_nil _).symm, List.forall_mem_nil _⟩
    | called result options events readable call =>
      exact ⟨⟨rfl, rfl⟩, _, rfl, List.forall_mem_cons.mpr ⟨rfl, call.undeleting other⟩⟩
  · intro s value returned
    have run := run s
    generalize p s = ran at run returned ⊢
    cases run with
    | malformed e failed => cases returned
    | called result options events readable call =>
      obtain ⟨raw, rfl, cleaned⟩ := ok_of_bind returned
      apply C.answered (c := c) _ cleaned
      exact List.mem_append_right _ (List.mem_cons_of_mem _ call.mem_returned)

theorem doResourceRead_handles (site : Site) : C.Handles known (doResourceRead kube site mapping definition) C.value := by
  apply editedRun_handles _ (doResourceRead_run kube site mapping definition)
  intro id same
  cases same

theorem doResourceUpdate_handles : C.Handles known (doResourceUpdate kube mapping definition) C.value := by
  apply editedRun_handles _ (doResourceUpdate_run kube mapping definition)
  intro id same
  cases same

theorem setCustomResource_handles : C.Handles known (setCustomResource definition) fun _ _ => True := by
  apply handles_of_events
  · intro s
    apply (setCustomResource_run definition s).elim
    · intro failed
      obtain ⟨e, _, run⟩ := failed
      rw [run]
      exact ⟨⟨rfl, rfl⟩, [], (List.append_nil _).symm, List.forall_mem_nil _⟩
    · intro edited
      obtain ⟨options, _, _, run⟩ := edited
      rw [run]
      exact ⟨⟨rfl, rfl⟩, [.edited definition], rfl, List.forall_mem_cons.mpr ⟨rfl, List.forall_mem_nil _⟩⟩
  · intro _ _ _
    trivial

theorem createResource_handles : C.Handles known (createResource kube mapping definition) fun known response =>
    ∀ v, jsonCleanuper response = .ok v → C.value known v := by
  have calls (s : State) := clientCall_events kube ⟨.create, mapping, definition⟩ s
  change C.Handles known (clientCall kube ⟨.create, mapping, definition⟩) _
  apply handles_of_events
  · intro s
    obtain ⟨events, call, ran⟩ := calls s
    rw [ran]
    refine ⟨⟨rfl, rfl⟩, events, rfl, call.undeleting ?_⟩
    intro id same
    cases same
  · intro s response returned v cleaned
    obtain ⟨events, call, ran⟩ := calls s
    rw [returned] at call
    apply C.answered (c := ⟨.create, mapping, definition⟩) _ cleaned
    rw [ran]
    exact List.mem_append_right _ call.mem_returned

theorem doResourceCreate_handles : C.Handles known (doResourceCreate kube mapping definition) C.value := by
  apply Learns.bind setCustomResource_handles
  intro _ _ _ _
  apply Learns.bind getPerformTask_handles
  intro _ perform _ _
  split
  · apply Learns.bind createResource_handles
    intro _ response _ answered
    apply Learns.ofExcept
    intro _ v more cleaned
    exact C.value_mono more (answered v cleaned)
  · exact doResourceRead_handles .task

theorem checkIfResourceExists_handles (site : Site) :
    C.Handles known (checkIfResourceExists kube site mapping definition) C.value := by
  apply Learns.bind (doResourceRead_handles site).attempt
  intro _ result _ held
  cases result with
  | ok found =>
    apply Learns.pure
    intro _ more
    exact C.value_mono more (held found rfl)
  | error e =>
    dsimp only
    split
    · apply Learns.bind (ofExcept_handles _)
      intro _ _ _ _
      exact .pure fun known' _ => C.missing known'
    · exact .raise _

/-- The one call that has to be accounted for. -/
theorem doResourceDelete_handles {id : Value} (called : C.deletion known id definition) :
    C.Handles known (doResourceDelete kube node mapping definition id) fun _ v => C.property v := by
  have mine {events : List Event} {checked result : Except Exception Value} {events' : List Event}
      (check : CallEvents ⟨.read .beforeDelete, mapping, definition⟩ checked events)
      (delete : CallEvents ⟨.delete id, mapping, definition⟩ result events') {e : Event}
      (member : e ∈ events ++ events') (deletes : e.deletes (fun _ => true) = true) :
      e.call? = some ⟨.delete id, mapping, definition⟩ := by
    apply (List.mem_append.mp member).elim
    · intro first
      rw [check.undeleting (fun id same => by cases same) e first] at deletes
      cases deletes
    · exact delete.call?_eq e
  apply Learns.of_run
  · intro s holds above
    have run := doResourceDelete_run kube node mapping definition id s
    generalize doResourceDelete kube node mapping definition id s = ran at run ⊢
    have checks {events : List Event} {checked : Except Exception Value}
        (check : CallEvents ⟨.read .beforeDelete, mapping, definition⟩ checked events) :
        ∀ e ∈ .edited definition :: .edited definition :: events, e.deletes (fun _ => true) = false :=
      List.forall_mem_cons.mpr ⟨rfl, List.forall_mem_cons.mpr ⟨rfl, check.undeleting fun id same => by cases same⟩⟩
    cases run with
    | malformed e failed => exact ⟨holds, le_refl _⟩
    | unchecked readable checked e options events check failed =>
      exact ⟨holds.quiet ⟨rfl, rfl⟩ rfl (checks check), State.known_grown rfl⟩
    | withheld readable checked found options events check answered expected =>
      exact ⟨holds.quiet ⟨rfl, rfl⟩ rfl (checks check), State.known_grown rfl⟩
    | deleted readable checked found options events check answered unexpected result events' delete =>
      refine ⟨holds.grow ⟨rfl, rfl⟩ rfl ?_, State.known_grown rfl⟩
      intro front e back split deletes id' mapping' d' same
      have member : e ∈ .edited definition :: .edited definition :: (events ++ events') := by
        rw [split]
        simp
      have own : e.call? = some ⟨.delete id, mapping, definition⟩ := by
        subst same
        simp only [List.mem_cons, reduceCtorEq, false_or] at member
        exact mine check delete member deletes
      rw [same] at own
      cases own
      apply C.deletion_mono _ called
      intro e member
      exact List.mem_append_left _ (above member)
  · intro s _ _ value returned
    have run := doResourceDelete_run kube node mapping definition id s
    generalize doResourceDelete kube node mapping definition id s = ran at run returned
    cases run with
    | malformed e failed => cases returned
    | unchecked readable checked e options events check failed => cases returned
    | withheld readable checked found options events check answered expected => exact C.cleaned returned
    | deleted readable checked found options events check answered unexpected result events' delete =>
      obtain ⟨raw, _, cleaned⟩ := ok_of_bind returned
      exact C.cleaned cleaned

end

section

open KubernetesResourceDefinition

theorem ofParts_ok {kind version metadata : Value} {d : KubernetesResourceDefinition}
    (made : ofParts kind version metadata = .ok d) :
    ∃ text, kind = .str text ∧ version.isNone = false ∧ metadata.isNone = false ∧
      d = ⟨shortKind text, version, metadata, .empty⟩ := by
  cases given : (kind.isNone || version.isNone || metadata.isNone) with
  | true =>
    have failed : ∃ e, ofParts kind version metadata = .error e := ⟨_, if_pos given⟩
    obtain ⟨e, failed⟩ := failed
    cases failed.symm.trans made
  | false =>
    have unkinded {e : Exception} (failed : ofParts kind version metadata = .error e) : False := by
      cases failed.symm.trans made
    have whole := given
    rw [Bool.or_eq_false_iff, Bool.or_eq_false_iff] at given
    cases kind with
    | str text =>
      cases (ofParts_str text given.1.2 given.2).symm.trans made
      exact ⟨text, rfl, given.1.2, given.2, rfl⟩
    | none => cases given.1.1
    | _ => exact (unkinded (if_neg (whole ▸ Bool.false_ne_true))).elim

variable {v : Value} {d : KubernetesResourceDefinition}

theorem lookup_of_index {entries : List (String × Value)} {key : String} {found : Value}
    (indexed : (Value.dict entries).index key = .ok found) : entries.lookup key = some found := by
  simp only [Value.index] at indexed
  cases held : entries.lookup key with
  | none =>
    rw [held] at indexed
    cases indexed
  | some value =>
    rw [held] at indexed
    cases indexed
    rfl

theorem get_ok {entries : List (String × Value)} {key : String} {found : Value} (given : found.isNone = false)
    (got : (Value.dict entries).get key .none = .ok found) : entries.lookup key = some found := by
  cases held : entries.lookup key with
  | none =>
    simp only [Value.get, held, Option.getD_none] at got
    cases got
    cases given
  | some value =>
    simp only [Value.get, held, Option.getD_some] at got
    cases got
    rfl

theorem isNone_of_truthy (truthy : v.truthy = true) : v.isNone = false := by
  cases v <;> first | rfl | cases truthy

theorem partOf_of_result (made : resultDefinition v = .ok d) : PartOf v d := by
  cases v with
  | dict entries =>
    obtain ⟨kind, indexed, made⟩ := ok_of_bind made
    obtain ⟨camel, got, made⟩ := ok_of_bind made
    obtain ⟨version, got', made⟩ := ok_of_bind made
    obtain ⟨metadata, indexed', parts⟩ := ok_of_bind made
    obtain ⟨_, _, given, _⟩ := ofParts_ok parts
    refine ⟨entries, kind, version, metadata, rfl, lookup_of_index indexed, lookup_of_index indexed', ?_, parts⟩
    cases held : entries.lookup "api_version" with
    | some value =>
      simp only [Value.get, held, Option.getD_some] at got'
      cases got'
      exact ⟨_, held⟩
    | none =>
      simp only [Value.get, held, Option.getD_none] at got'
      cases got'
      exact ⟨_, get_ok given got⟩
  | _ => cases made

theorem partOf_of_adjacent (made : adjacentDefinition v = .ok (some d)) : PartOf v d := by
  obtain ⟨kind, got, made⟩ := ok_of_bind made
  obtain ⟨version, got', made⟩ := ok_of_bind made
  obtain ⟨metadata, got'', made⟩ := ok_of_bind made
  split at made
  · rename_i all
    rw [Bool.and_eq_true, Bool.and_eq_true] at all
    obtain ⟨_, parts, made⟩ := ok_of_bind made
    cases made
    cases v with
    | dict entries =>
      exact ⟨entries, kind, version, metadata, rfl, get_ok (isNone_of_truthy all.2) got,
        get_ok (isNone_of_truthy all.1.1) got'', ⟨_, get_ok (isNone_of_truthy all.1.2) got'⟩, parts⟩
    | _ => cases got
  · cases made

theorem partOf_of_recorded {kind version metadata : Value} (kinded : v.index "kind" = .ok kind)
    (described : v.index "metadata" = .ok metadata) (versioned : recordedVersion v = .ok version)
    (truthy : version.truthy = true) (made : ofParts kind version metadata = .ok d) : PartOf v d := by
  cases v with
  | dict entries =>
    refine ⟨entries, kind, version, metadata, rfl, lookup_of_index kinded, lookup_of_index described, ?_, made⟩
    obtain ⟨camel, got, versioned⟩ := ok_of_bind versioned
    split at versioned
    · cases versioned
      exact ⟨_, get_ok (isNone_of_truthy truthy) got⟩
    · exact ⟨_, get_ok (isNone_of_truthy truthy) versioned⟩
  | _ => cases kinded

end

section

variable {C : Contents} {known : Set Event}

theorem updateStored_contents {d : KubernetesResourceDefinition} {definitions updated : List Value}
    (held : ∀ v ∈ definitions, C.definition known v) (stored : C.definition known d.cleanup)
    (ran : updateStored d definitions = .ok updated) : ∀ v ∈ updated, C.definition known v := by
  induction definitions generalizing updated with
  | nil =>
    cases ran
    exact List.forall_mem_cons.mpr ⟨stored, List.forall_mem_nil _⟩
  | cons first rest ih =>
    obtain ⟨here, others⟩ := List.forall_mem_cons.mp held
    simp only [updateStored] at ran
    obtain ⟨same, _, ran⟩ := ok_of_bind ran
    cases same with
    | true =>
      cases ran
      exact List.forall_mem_cons.mpr ⟨stored, others⟩
    | false =>
      obtain ⟨later, done, ran⟩ := ok_of_bind ran
      cases ran
      exact List.forall_mem_cons.mpr ⟨here, ih others done⟩

theorem recordResult_stores {result : Value} (held : C.value known result) (path : String)
    {runtime : RuntimeProperties} (stores : C.Stores known runtime) : C.Stores known (recordResult result path runtime) := by
  refine ⟨?_, ?_⟩
  · unfold recordResult
    split
    · exact forall_mem_assign held stores.files
    · cases result with
      | dict entries =>
        intro e member
        have inside := OrderedDict.mem_of_get?_ofEntries (((OrderedDict.ofEntries entries).mem_items_iff e.1 e.2).mp member)
        exact C.entry held (e.1, e.2) inside
      | _ => exact stores.files
  · rw [storedDefinitions, recordResult_resourceDefinitions]
    exact stores.definitions

theorem storeResultForRetrieveId_handles {result : Value} (held : C.value known result) (path : String) :
    C.Handles known (storeResultForRetrieveId result path) fun _ _ => True := by
  apply Learns.bind (ofExcept_handles _)
  intro known' d more made
  have stored : C.Handles known' (storeResourceDefinition d) fun _ _ => True := by
    apply Learns.bind getRuntime_handles
    intro known'' runtime more' stores
    apply Learns.bind (P := fun known updated => ∀ v ∈ updated, C.definition known v)
    · apply Learns.ofExcept
      intro last updated later ran v member
      have definition := C.stored (C.value_mono (more.trans more') held) (partOf_of_result made)
      exact C.definition_mono later (updateStored_contents stores.definitions definition ran v member)
    · intro last updated _ stored
      apply modifyRuntime_handles
      intro known runtime later stores
      exact ⟨stores.files, fun v member => C.definition_mono later (stored v member)⟩
  apply Learns.bind stored
  intro known'' _ more' _
  apply modifyRuntime_handles
  intro last runtime later stores
  exact recordResult_stores (C.value_mono ((more.trans more').trans later) held) path stores

theorem storeAdjacent_handles {adjacent : List (String × Value)} (held : ∀ e ∈ adjacent, C.value known e.2) :
    C.Handles known (storeAdjacent adjacent) fun _ _ => True := by
  refine Learns.bind (Learns.forEach (Q := fun _ _ => True) ?_) fun _ _ _ _ => .pure fun _ _ => trivial
  intro e member known' more
  exact storeResultForRetrieveId_handles (C.value_mono more (held e member)) e.1

def Contents.Found (C : Contents) (known : Set Event) (found : LastCreatePath) : Prop :=
  C.value known found.resource ∧ ∀ e ∈ found.adjacent, C.value known e.2

theorem takeAdjacent_handles (delete : Bool) (path : String) {resource : Value} (held : C.value known resource) {files : Dict}
    (others : ∀ e ∈ files.items, C.value known e.2) :
    C.Handles known (takeAdjacent delete path resource files) C.Found := by
  unfold takeAdjacent
  split
  · apply Learns.bind (ofExcept_handles _)
    intro known' stem more _
    apply Learns.bind (ofExcept_handles _)
    intro known'' adjacent more' found
    have taken : ∀ e ∈ adjacent, C.value known'' e.2 := by
      intro e member
      rw [(adjacentResources_iff stem resource files.items adjacent).mp found |>.2] at member
      exact C.value_mono (more.trans more') (others e (List.mem_of_mem_filter member))
    have kept : ∀ e ∈ (if delete then files.filter fun key _ => key ∉ adjacent.map Prod.fst else files).items,
        C.value known'' e.2 := by
      have inside : ∀ e ∈ (if delete then files.filter fun key _ => key ∉ adjacent.map Prod.fst else files).items,
          e ∈ files.items := by
        split
        · exact fun e member => List.mem_of_mem_filter member
        · exact fun e member => member
      exact fun e member => C.value_mono (more.trans more') (others e (inside e member))
    refine Learns.bind (modifyRuntime_handles ?_) fun last _ later _ => ?_
    · intro last runtime later stores
      exact ⟨fun e member => C.value_mono later (kept e member), stores.definitions⟩
    · apply Learns.pure
      intro end' later'
      exact ⟨C.value_mono (((more.trans more').trans later).trans later') held,
        fun e member => C.value_mono (later.trans later') (taken e member)⟩
  · apply Learns.pure
    intro known' more
    exact ⟨C.value_mono more held, List.forall_mem_nil _⟩

theorem held_of_mem_erase {files : Dict} (held : ∀ e ∈ files.items, C.value known e.2) (name : String) :
    ∀ e ∈ (files.erase name).items, C.value known e.2 := fun e member => held e (List.mem_of_mem_filter member)

/-- The record that a search ends with is in the path map, or there is none. -/
theorem recordedFile_held {definition : Value} {path : String} {files : Dict} {settled : String × Value}
    (held : ∀ e ∈ files.items, C.value known e.2) (ran : recordedFile definition path .none files.items = .ok settled) :
    C.value known settled.2 := by
  obtain ⟨name, found⟩ := settled
  rcases recordedFile_cases ran with ⟨member, _⟩ | ⟨_, last⟩
  · exact held _ member
  · cases ended : files.items.getLast? with
    | none =>
      rw [ended] at last
      rw [← congrArg Prod.snd last]
      exact C.missing known
    | some e =>
      rw [ended] at last
      rw [← congrArg Prod.snd last]
      exact held e (List.mem_of_getLast? ended)

theorem retrieveLastCreatePath_handles (path : String) (delete : Bool) :
    C.Handles known (retrieveLastCreatePath path delete) C.Found := by
  apply Learns.bind getRuntime_handles
  intro known' runtime _ stores
  dsimp only
  split
  · rename_i resource found
    have held : C.value known' resource := stores.files (path, resource) ((OrderedDict.mem_items_iff _ _ _).mpr found)
    split
    · exact takeAdjacent_handles _ _ held (held_of_mem_erase stores.files _)
    · apply Learns.pure
      intro known'' more
      exact ⟨C.value_mono more held, List.forall_mem_nil _⟩
  · split
    · exact .raise _
    · rename_i definition last
      have search {known'' : Set Event} (more : known' ≤ known'') (left : String → Dict)
          (kept : ∀ name, ∀ e ∈ (left name).items, C.value known' e.2) : C.Handles known'' (do
            let settled ← Program.ofExcept (recordedFile definition path .none (recordedFiles runtime).items)
            takeAdjacent delete settled.1 settled.2 (left settled.1)) C.Found := by
        apply Learns.bind (ofExcept_handles _)
        intro last settled later ran
        apply takeAdjacent_handles
        · exact C.value_mono (more.trans later) (recordedFile_held stores.files ran)
        · intro e member
          exact C.value_mono (more.trans later) (kept _ e member)
      split
      · refine Learns.bind (modifyRuntime_handles ?_) fun known'' _ more _ =>
          search more _ (held_of_mem_erase stores.files)
        intro known'' runtime' more stores'
        refine ⟨stores'.files, ?_⟩
        intro v member
        exact C.definition_mono more (stores.definitions v (List.dropLast_subset _ member))
      · exact search (le_refl _) _ fun _ => stores.files

variable {kube : Kubernetes} {node : Node} {mapping : KubernetesApiMapping} {definition : KubernetesResourceDefinition}

theorem retrieveStoredResource_handles (delete : Bool) (given : C.source known definition) :
    C.Handles known (retrieveStoredResource node definition mapping delete) fun known chosen => C.source known chosen.1 := by
  -- What is reread is a stored definition, or the given one if nothing is stored.
  have chosen {known' : Set Event} {stored : Value} (more : known ≤ known')
      (held : C.definition known' stored ∨ stored = definition.cleanup) :
      C.Handles known' (chosenDefinition node definition mapping stored) fun known chosen => C.source known chosen.1 := by
    unfold chosenDefinition
    split
    · apply Learns.bind (ofExcept_handles _)
      intro known'' previous more' made
      have source : C.source known'' previous := by
        apply held.elim
        · intro held
          exact C.source_mono more' (C.reread held made)
        · intro same
          rw [same] at made
          exact C.source_mono (more.trans more') (C.again given made)
      apply Learns.bind (chooseMapping_handles _)
      intro last _ later _
      apply Learns.pure
      intro known later'
      exact C.source_mono (later.trans later') source
    · apply Learns.pure
      intro known' more'
      exact C.source_mono (more.trans more') given
  have removed {known' : Set Event} (kind : String) (name : Value) :
      C.Handles known' (removeResourceDefinition kind name) fun _ _ => True := by
    apply Learns.of_run
    · intro s holds _
      rw [removeResourceDefinition_run]
      refine ⟨⟨⟨holds.stores.files, ?_⟩, holds.deletions⟩, le_refl _⟩
      intro v member
      exact holds.stores.definitions v ((removeNamed_sublist kind name _).subset member)
    · intro _ _ _ _ _
      trivial
  have rest {known' : Set Event} {stored : Value} (more : known ≤ known')
      (held : C.definition known' stored ∨ stored = definition.cleanup) : C.Handles known' (do
      let chosen ← chosenDefinition node definition mapping stored
      if delete then
        let name ← Program.ofExcept (chosen.1.metadata.index "name")
        removeResourceDefinition chosen.1.kind name
      return chosen) fun known chosen => C.source known chosen.1 := by
    apply Learns.bind (chosen more held)
    intro known'' pair _ source
    split
    · apply Learns.bind (ofExcept_handles _)
      intro last name later _
      apply Learns.bind (removed _ _)
      intro last' _ later' _
      exact .pure fun known later'' => C.source_mono ((later.trans later').trans later'') source
    · exact .pure fun known later => C.source_mono later source
  apply Learns.bind getRuntime_handles
  intro known' runtime more stores
  have held : C.definition known' ((runtime.resourceDefinitions.bind List.getLast?).getD definition.cleanup) ∨
      (runtime.resourceDefinitions.bind List.getLast?).getD definition.cleanup = definition.cleanup := by
    cases last : runtime.resourceDefinitions.bind List.getLast? with
    | none => exact .inr rfl
    | some stored =>
      obtain ⟨definitions, listed, last⟩ := Option.bind_eq_some_iff.mp last
      refine .inl (stores.definitions stored ?_)
      rw [storedDefinitions, listed]
      exact List.mem_of_getLast? last
  refine Learns.bind (modifyRuntime_handles ?_) fun known'' _ more' _ =>
    rest (more.trans more') (held.imp_left fun held => C.definition_mono more' held)
  intro known'' runtime' more' stores'
  refine ⟨stores'.files, ?_⟩
  intro v member
  have member : v ∈ (runtime'.resourceDefinitions.map List.dropLast).getD [] := member
  cases listed : runtime'.resourceDefinitions with
  | none =>
    rw [listed] at member
    cases member
  | some definitions =>
    rw [listed] at member
    apply stores'.definitions
    rw [storedDefinitions, listed]
    exact List.dropLast_subset _ member

end

end CloudifyKubernetes
