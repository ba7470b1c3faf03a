import CloudifyKubernetes.DeleteAcknowledgements
import CloudifyKubernetes.DeletionProgress

namespace CloudifyKubernetes

open Collections Effects Program

/-- The stores are of resources with some names only, and none of them is stored twice. -/
structure Listed (todo : List (String × KubernetesResourceDefinition)) (names : List (Except Exception Identity))
    (s : State) : Prop extends Filed todo s where
  distinct : Distinct (storedDefinitions s.runtime)
  named : ∀ v ∈ storedDefinitions s.runtime, Identity.ofDict v ∈ names
  recorded : ∀ path v, (recordedFiles s.runtime).get? path = some v → Identity.ofDict v ∈ names

/-- What is stored for the definition is for a resource with one of the names. -/
structure Belongs (names : List (Except Exception Identity)) (definition : KubernetesResourceDefinition) : Prop where
  storable : definition.Storable
  named : Identity.ofDict definition.cleanup ∈ names

/-- A record that may be put back. -/
structure Returnable (todo : List (String × KubernetesResourceDefinition)) (names : List (Except Exception Identity))
    (entry : String × Value) : Prop where
  target : entry.1 ∈ todo.map Prod.fst
  result : ∃ kind version fields, IsResult entry.2 kind version fields
  named : Identity.ofDict entry.2 ∈ names

section

variable {todo : List (String × KubernetesResourceDefinition)} {names : List (Except Exception Identity)} {s s' : State}

theorem Listed.length_le (listed : Listed todo names s) : (storedDefinitions s.runtime).length ≤ names.length := by
  have inside : (storedDefinitions s.runtime).map Identity.ofDict ⊆ names := by
    intro i member
    obtain ⟨v, stored, rfl⟩ := List.mem_map.mp member
    exact listed.named v stored
  have fewer := (List.subperm_of_subset listed.distinct.once inside).length_le
  rwa [List.length_map] at fewer

theorem Lessens.listed (less : Lessens s s') (listed : Listed todo names s) : Listed todo names s' where
  targets := listed.targets
  records path v there := listed.records path v (less.files path v there)
  stored v member := listed.stored v (less.definitions.subset member)
  distinct := listed.distinct.sublist less.definitions
  named v member := listed.named v (less.definitions.subset member)
  recorded path v there := listed.recorded path v (less.files path v there)

theorem Untouched.listed (kept : Untouched s s') (listed : Listed todo names s) : Listed todo names s' :=
  kept.lessens.listed listed

theorem untouched_listed {α : Type} {p : Task α} (kept : Within Untouched p) : Within (Keeps (Listed todo names)) p :=
  fun s => (kept s).listed

theorem Filed.named (filed : Filed todo s) {path : String} (target : path ∈ todo.map Prod.fst) : path ≠ "" := by
  obtain ⟨own, member, rfl⟩ := List.mem_map.mp target
  exact (filed.targets own member).1

theorem storeResultForRetrieveId_listed {entry : String × Value} (returnable : Returnable todo names entry) :
    Within (Keeps (Listed todo names)) (storeResultForRetrieveId entry.2 entry.1) := by
  obtain ⟨target, ⟨kind, version, fields, is⟩, listed⟩ := returnable
  intro s before
  have named := before.toFiled.named target
  obtain ⟨s', ran, files, restocks, _⟩ := storeResultForRetrieveId_put is entry.1 before.distinct.plain
  obtain ⟨updated, stored, distinct, _, keys⟩ := is.upserts before.distinct
  obtain ⟨s'', ran', same⟩ := storeResultForRetrieveId_updated is.definition entry.1 stored
  cases ran.symm.trans ran'
  rw [ran]
  rw [recordFile_named named] at files
  have put (key : String) (v : Value) (there : (recordedFiles s'.runtime).get? key = some v) :
      (recordedFiles s.runtime).get? key = some v ∨ key = entry.1 ∧ v = entry.2 := by
    rw [files, OrderedDict.get?_set] at there
    split at there
    · rename_i here
      exact .inr ⟨here, (Option.some.inj there).symm⟩
    · exact .inl there
  refine ⟨before.toFiled.refills target ⟨restocks, fun key v there => ?_⟩, same ▸ distinct, fun v member => ?_,
    fun key v there => ?_⟩
  · rcases put key v there with old | ⟨here, rfl⟩
    · exact .inl old
    · exact .inr ⟨here, kind, version, fields, is⟩
  · rw [same] at member
    rcases (keys _).mp (List.mem_map_of_mem member) with new | old
    · rw [new, ← is.ofDict]
      exact listed
    · obtain ⟨w, there, same⟩ := List.mem_map.mp old
      rw [← same]
      exact before.named w there
  · rcases put key v there with old | ⟨_, rfl⟩
    · exact before.recorded key v old
    · exact listed

theorem storeAdjacent_listed {adjacent : List (String × Value)} (returnable : ∀ e ∈ adjacent, Returnable todo names e) :
    Within (Keeps (Listed todo names)) (storeAdjacent adjacent) :=
  (Within.forEach fun entry member => storeResultForRetrieveId_listed (returnable entry member)).bind fun _ => .pure _

end

section

variable {todo : List (String × KubernetesResourceDefinition)} {names : List (Except Exception Identity)}
  {kube : Kubernetes} {node : Node} {path : String} {mapping : KubernetesApiMapping}
  {definition : KubernetesResourceDefinition} {adjacent : List (String × Value)}

theorem afterDeletion_listed (target : path ∈ todo.map Prod.fst) (belongs : Belongs names definition)
    (returnable : ∀ e ∈ adjacent, Returnable todo names e) (response : Value) :
    Within (Keeps (Listed todo names)) (afterDeletion kube node path mapping definition adjacent response) := by
  have stored (perform : Bool) : Within (Keeps (Listed todo names)) (do
      if perform then
        storeResultForRetrieveId definition.cleanup path
        storeAdjacent adjacent
        return some ⟨.operationRetry, "Delete response: " ++ response.toText⟩
      else return none : Task (Option Exception)) := by
    split
    · exact (@storeResultForRetrieveId_listed _ _ (path, definition.cleanup)
        ⟨target, belongs.storable, belongs.named⟩).bind fun _ => (storeAdjacent_listed returnable).bind fun _ => .pure _
    · exact .pure _
  have flagged : Within Untouched (handleDeleteResource node true) := by
    intro s
    rw [handleDeleteResource_run]
    exact ⟨rfl, rfl⟩
  have released : Within Untouched (preparePvcDelete kube mapping definition) := fun s =>
    (preparePvcDelete_within (fun _ => doResourceUpdate_passing) s).1
  refine (untouched_listed flagged).bind fun _ => getPerformTask_within.bind fun perform => ?_
  dsimp only
  split
  · exact (untouched_listed released).bind fun _ => stored perform
  · exact stored perform

theorem doResourceDelete_untouched (resourceId : Value) :
    Within Untouched (doResourceDelete kube node mapping definition resourceId) := by
  intro s
  generalize ran : doResourceDelete kube node mapping definition resourceId s = outcome
  obtain ⟨e | response, s'⟩ := outcome
  · exact (doResourceDelete_failed ran).1
  · exact (doResourceDelete_returned ran).1

theorem deleteWhileAdjacentResources_listed (target : path ∈ todo.map Prod.fst) (belongs : Belongs names definition)
    (returnable : ∀ e ∈ adjacent, Returnable todo names e) :
    Within (Keeps (Listed todo names)) (deleteWhileAdjacentResources kube node path mapping definition adjacent) := by
  refine (Within.ofExcept _).bind fun name =>
    (untouched_listed (doResourceDelete_untouched name)).attempt.bind fun result => ?_
  cases result with
  | error e =>
    dsimp only
    split <;> exact .raise _
  | ok response => exact afterDeletion_listed target belongs returnable response

theorem adjacentDefinition_madeOf {v version : Value} {kind : String} {fields : List (String × Value)}
    (is : IsResult v kind version fields) {inner : KubernetesResourceDefinition}
    (made : adjacentDefinition v = .ok (some inner)) : MadeOf v inner := by
  obtain ⟨kind', got, made⟩ := ok_of_bind made
  obtain ⟨version', _, made⟩ := ok_of_bind made
  obtain ⟨metadata, got', made⟩ := ok_of_bind made
  obtain rfl := Except.ok.inj ((IsResult.get_of_index is.kinded _).symm.trans got)
  obtain rfl := Except.ok.inj ((IsResult.get_of_index is.described _).symm.trans got')
  split at made
  · rename_i truthy
    have given : version'.isNone = false := by
      cases version' <;> first | rfl | simp [Value.truthy] at truthy
    have plain := KubernetesResourceDefinition.ofParts_str kind given
      (show (Value.dict fields).isNone = false from rfl)
    rw [KubernetesResourceDefinition.shortKind_of_plain is.plain] at plain
    rw [plain] at made
    cases made
    exact ⟨kind, version', fields, rfl, given, version, is⟩
  · cases made

theorem MadeOf.belongs {v : Value} (made : MadeOf v definition) (named : Identity.ofDict v ∈ names) :
    Belongs names definition :=
  ⟨made.cleanup.1, made.cleanup.2 ▸ named⟩

theorem deleteAdjacentResources_listed
    {delete : KubernetesApiMapping → KubernetesResourceDefinition → Task Unit}
    (inner : ∀ mapping definition, Belongs names definition → Within (Keeps (Listed todo names)) (delete mapping definition))
    (returnable : ∀ e ∈ adjacent, Returnable todo names e) :
    Within (Keeps (Listed todo names)) (deleteAdjacentResources delete definition adjacent) := by
  refine (Within.forEach fun entry member => Within.bindExcept fun found made => ?_).bind fun _ => .pure _
  obtain ⟨_, ⟨_, _, _, is⟩, named⟩ := returnable entry member
  cases found with
  | none => exact .pure _
  | some definition' =>
    exact (Within.ofExcept _).bind fun mapping => inner mapping definition' ((adjacentDefinition_madeOf is made).belongs named)

theorem deleteWithAdjacentResources_listed
    {delete : KubernetesApiMapping → KubernetesResourceDefinition → Task Unit}
    (inner : ∀ mapping definition, Belongs names definition → Within (Keeps (Listed todo names)) (delete mapping definition))
    (target : path ∈ todo.map Prod.fst) (belongs : Belongs names definition)
    (returnable : ∀ e ∈ adjacent, Returnable todo names e) :
    Within (Keeps (Listed todo names))
      (deleteWithAdjacentResources kube node delete path adjacent definition mapping) := by
  have ending (text : String) : Within (Keeps (Listed todo names)) (do
      if adjacent.isEmpty then return ()
      else
        storeAdjacent adjacent
        Program.raise (⟨.operationRetry, text⟩ : Exception) : Task Unit) := by
    split
    · exact .pure _
    · exact (storeAdjacent_listed returnable).bind fun _ => .raise _
  have read : Within Untouched (readWhileAdjacentResources kube mapping definition) :=
    readWhileAdjacentResources_within (doResourceRead_untouched .task)
  refine (untouched_listed read).bind fun result => ?_
  cases result with
  | some e =>
    dsimp only
    split
    · split
      · exact .pure _
      · exact (deleteAdjacentResources_listed inner returnable).bind fun _ =>
          (storeAdjacent_listed returnable).bind fun _ => .raise _
    · exact .raise _
  | none =>
    refine (deleteWhileAdjacentResources_listed target belongs returnable).bind fun result => ?_
    cases result with
    | none => exact ending _
    | some e =>
      dsimp only
      split
      · exact (Within.raise _).bind fun _ => ending _
      · exact ending _

variable {s s' : State}

/-- A lookup that takes a record goes on with its definition and with the records next to it. -/
theorem LookupEnds.listed {found : LastCreatePath} (listed : Listed todo names s)
    (taken : takenAt path s.runtime = some found) (made : MadeOf found.resource definition) :
    Belongs names definition ∧ ∀ e ∈ found.adjacent, Returnable todo names e := by
  have took := takenAt_took taken
  refine ⟨made.belongs (listed.recorded _ _ took.entry), fun e member => ?_⟩
  have there := (took.adjacent e member).1
  obtain ⟨target, result⟩ := listed.records _ _ there
  exact ⟨target, result, listed.recorded _ _ there⟩

theorem decided_belongs (stored : ∀ v ∈ storedDefinitions s.runtime, v.IsStored)
    (named : ∀ v ∈ storedDefinitions s.runtime, Identity.ofDict v ∈ names) (belongs : Belongs names definition)
    {runtime : RuntimeProperties} (inside : (storedDefinitions runtime).Sublist (storedDefinitions s.runtime))
    {chosen : KubernetesResourceDefinition} (decision : decided node definition runtime = .ok chosen) :
    Belongs names chosen := by
  unfold decided at decision
  split at decision
  · rename_i replaced
    have last := inside.subset (List.mem_of_getLast? (lastStored_of_replaces replaced))
    exact (ofStored_madeOf (stored _ last) decision).belongs (named _ last)
  · cases decision
    exact belongs

theorem getPathWithAdjacentResources_listed (listed : Listed todo names s) (belongs : Belongs names definition)
    {chosen : KubernetesResourceDefinition × KubernetesApiMapping}
    (ran : getPathWithAdjacentResources node path mapping definition s = (.ok (adjacent, chosen), s')) :
    Belongs names chosen.1 ∧ ∀ e ∈ adjacent, Returnable todo names e := by
  have ends := @getPathWithAdjacentResources_ends node path mapping definition s listed.toFiled.wellStored
  obtain ⟨definition', mapping'⟩ := chosen
  rw [ran] at ends
  cases ends with
  | unresolved _ _ untaken _ _ =>
    obtain ⟨runtime, inside, decision⟩ := getPathWithAdjacentResources_decided untaken ran
    exact ⟨decided_belongs listed.stored listed.named belongs inside decision, List.forall_mem_nil _⟩
  | taken found _ _ _ taken _ made _ _ => exact LookupEnds.listed listed taken made

theorem entered_listed {event : Event} (listed : Listed todo names s) :
    Listed todo names { s with log := s.log ++ [event] } := by
  have same : Lessens s { s with log := s.log ++ [event] } := ⟨.refl _, fun _ _ found => found⟩
  exact same.listed listed

theorem fileResourceDeleteTask_listed (target : path ∈ todo.map Prod.fst) (depth : Nat)
    (mapping : KubernetesApiMapping) (definition : KubernetesResourceDefinition) (belongs : Belongs names definition) :
    Within (Keeps (Listed todo names)) (fileResourceDeleteTask kube node depth path mapping definition) := by
  induction depth generalizing mapping definition with
  | zero => exact .raise _
  | succ depth ih =>
    intro s listed
    have entered := @entered_listed _ _ _ (.entered path mapping definition s.runtime) listed
    have less : Lessens _ _ := @getPathWithAdjacentResources_lessens node path mapping definition
      { s with log := s.log ++ [.entered path mapping definition s.runtime] }
    rw [fileResourceDeleteTask_succ, bind_run]
    generalize looked : getPathWithAdjacentResources node path mapping definition _ = outcome at less
    obtain ⟨e | ⟨adjacent, chosen⟩, middle⟩ := outcome
    · exact less.listed entered
    · obtain ⟨chosen, returnable⟩ := getPathWithAdjacentResources_listed entered belongs looked
      exact deleteWithAdjacentResources_listed ih target chosen returnable middle (less.listed entered)

end

/-- No more resources are named in the stores than there are targets. -/
def Bounded (todo : List (String × KubernetesResourceDefinition)) (s : State) : Prop :=
  ∃ names, names.length ≤ todo.length ∧ Listed todo names s

section

variable {todo : List (String × KubernetesResourceDefinition)} {kube : Kubernetes} {node : Node} {path : String}
  {mapping : KubernetesApiMapping} {definition : KubernetesResourceDefinition} {s s' : State}

theorem Lessens.bounded (less : Lessens s s') (bounded : Bounded todo s) : Bounded todo s' := by
  obtain ⟨names, few, listed⟩ := bounded
  exact ⟨names, few, less.listed listed⟩

theorem Bounded.reset (bounded : Bounded todo s) (options : Dict) : Bounded todo { s with options } := by
  have same : Lessens s { s with options } := ⟨.refl _, fun _ _ found => found⟩
  exact same.bounded bounded

theorem Bounded.filed (bounded : Bounded todo s) : Filed todo s := by
  obtain ⟨_, _, listed⟩ := bounded
  exact listed.toFiled

theorem Bounded.length_le (bounded : Bounded todo s) : (storedDefinitions s.runtime).length ≤ todo.length := by
  obtain ⟨_, few, listed⟩ := bounded
  exact listed.length_le.trans few

/-- A lookup is only left without a record if there are none at all, or no definitions. -/
theorem unresolved_empty (stored : WellStored s) (untaken : takenAt path s.runtime = none)
    {chosen : List (String × Value) × KubernetesResourceDefinition × KubernetesApiMapping}
    (ran : getPathWithAdjacentResources node path mapping definition s = (.ok chosen, s')) :
    storedDefinitions s.runtime = [] ∨ (recordedFiles s.runtime).items = [] := by
  by_contra both
  rw [not_or] at both
  obtain ⟨listed, recorded⟩ := both
  rw [getPathWithAdjacentResources_run] at ran
  unfold takenAt at untaken
  generalize looked : lookupRecord path s.runtime = lookup at untaken ran
  obtain ⟨e | ⟨found, kind, metadata⟩, runtime⟩ := lookup
  swap
  · cases untaken
  dsimp only at ran
  split at ran
  swap
  · cases ran
  rename_i unresolved
  have free := (lookupRecord_untaken (fun path v found => (stored.records path v found).2) looked).2 unresolved
  -- The search ends with one of the records, as there is a definition to look for.
  have plain : ∀ e ∈ (recordedFiles s.runtime).items, e.2.IsPlain := by
    intro e member
    obtain ⟨_, _, _, _, is⟩ := stored.records e.1 e.2 ((OrderedDict.mem_items_iff _ _ _).mp member)
    exact ⟨_, is.ofDict, is.identity_plain⟩
  obtain ⟨last, final⟩ := Option.isSome_iff_exists.mp (List.getLast?_isSome.mpr listed)
  obtain ⟨⟨name, resource⟩, search⟩ := recordedFile_returns (stored.plain last (List.mem_of_getLast? final)) plain path .none
  have settled : settledFile path s.runtime = .ok (name, resource) := by simp only [settledFile, free, final, search]
  have member : (name, resource) ∈ (recordedFiles s.runtime).items := by
    rcases recordedFile_cases search with ⟨member, _⟩ | ⟨_, ended⟩
    · exact member
    · obtain ⟨entry, final⟩ := Option.isSome_iff_exists.mp (List.getLast?_isSome.mpr recorded)
      rw [final, Option.getD_some] at ended
      rw [← ended]
      exact List.mem_of_getLast? final
  obtain ⟨_, _, _, _, is⟩ := stored.records name resource ((OrderedDict.mem_items_iff _ _ _).mp member)
  have truthy := truthy_of_index is.kinded
  obtain ⟨middle, whole, _⟩ := lookupRecord_inv looked
  rcases bind_error_inv whole with failed | ⟨found, middle, taken, rest⟩
  · rw [retrieveLastCreatePath_run] at failed
    simp only [settled, takeAdjacent_run, truthy, if_true] at failed
    cases others : takenWith name resource ((recordedFiles s.runtime).erase name) with
    | ok adjacent =>
      rw [others] at failed
      cases failed
    | error e' =>
      rw [others] at failed
      cases failed
      rcases takenWith_error_cls others with cls | cls <;>
        simp [Exception.unresolved, Exception.isA, cls, ExceptionClass.isSubclass] at unresolved
  · have same := (retrieveLastCreatePath_settled taken).symm.trans settled
    obtain ⟨_, same⟩ := Prod.mk.inj (Except.ok.inj same)
    rw [same, is.kinded, is.described] at rest
    cases rest

theorem Bounded.entries_lt (bounded : Bounded todo s) (target : path ∈ todo.map Prod.fst)
    (free : (recordedFiles s.runtime).get? path = none) : (recordedFiles s.runtime).items.length < todo.length := by
  have absent : path ∉ (recordedFiles s.runtime).items.map Prod.fst := by
    intro member
    obtain ⟨entry, there, rfl⟩ := List.mem_map.mp member
    cases free.symm.trans ((OrderedDict.mem_items_iff _ _ _).mp there)
  have once := List.nodup_cons.mpr ⟨absent, (recordedFiles s.runtime).distinct⟩
  have inside : path :: (recordedFiles s.runtime).items.map Prod.fst ⊆ todo.map Prod.fst := by
    refine List.cons_subset.mpr ⟨target, fun key member => ?_⟩
    obtain ⟨entry, there, rfl⟩ := List.mem_map.mp member
    exact (bounded.filed.records entry.1 entry.2 ((OrderedDict.mem_items_iff _ _ _).mp there)).1
  have fewer := (List.subperm_of_subset once inside).length_le
  simp only [List.length_cons, List.length_map] at fewer
  exact fewer

/-- A call for a target without a record may store its own definition: there is room for it. -/
theorem getPathWithAdjacentResources_bounded (bounded : Bounded todo s) (target : path ∈ todo.map Prod.fst)
    (storable : definition.Storable) {chosen : KubernetesResourceDefinition × KubernetesApiMapping}
    {adjacent : List (String × Value)}
    (ran : getPathWithAdjacentResources node path mapping definition s = (.ok (adjacent, chosen), s')) :
    ∃ names, names.length ≤ todo.length ∧ Listed todo names s' ∧ Belongs names chosen.1 ∧
      ∀ e ∈ adjacent, Returnable todo names e := by
  have less : Lessens s s' := by
    have less := @getPathWithAdjacentResources_lessens node path mapping definition s
    rwa [ran] at less
  have stored := bounded.filed.wellStored
  have ends := @getPathWithAdjacentResources_ends node path mapping definition s stored
  have takes := getPathWithAdjacentResources_takes ran
  obtain ⟨definition', mapping'⟩ := chosen
  rw [ran] at ends
  cases ends with
  | taken found _ _ _ taken _ made _ _ =>
    obtain ⟨names, few, listed⟩ := bounded
    obtain ⟨belongs, returnable⟩ := LookupEnds.listed listed taken made
    exact ⟨names, few, less.listed listed, belongs, returnable⟩
  | unresolved _ _ untaken free files =>
    obtain ⟨runtime, inside, decision⟩ := getPathWithAdjacentResources_decided untaken ran
    have after := less.bounded bounded
    have own := decided_storable (fun v member => bounded.filed.stored v (inside.subset member)) storable decision
    have few := bounded.length_le
    have fewer := takes.popped.length_le
    have one : unrecorded [path] (recordedFiles s.runtime) = 1 := by
      simp [unrecorded, OrderedDict.contains, free]
    rw [one, List.rdrop, List.length_take] at fewer
    refine ⟨Identity.ofDict definition'.cleanup :: ((recordedFiles s'.runtime).items.map (fun e => Identity.ofDict e.2) ++
      (storedDefinitions s'.runtime).map Identity.ofDict), ?_, ?_, ⟨own, by simp⟩, List.forall_mem_nil _⟩
    · simp only [List.length_cons, List.length_append, List.length_map]
      rw [files]
      rcases unresolved_empty stored untaken ran with none | none
      · have room := bounded.entries_lt target free
        rw [none, List.length_nil] at fewer
        omega
      · have some : todo ≠ [] := by
          rintro rfl
          cases target
        have room := List.length_pos_of_ne_nil some
        rw [none, List.length_nil]
        omega
    · obtain ⟨_, _, listed⟩ := after
      refine ⟨listed.toFiled, listed.distinct, fun v member => ?_, fun key v there => ?_⟩
      · exact List.mem_cons_of_mem _ (List.mem_append_right _ (List.mem_map_of_mem member))
      · refine List.mem_cons_of_mem _ (List.mem_append_left _ (List.mem_map.mpr ⟨(key, v), ?_, rfl⟩))
        exact (OrderedDict.mem_items_iff _ _ _).mpr there

theorem fileResourceDeleteTask_bounded (target : path ∈ todo.map Prod.fst) (storable : definition.Storable)
    (depth : Nat) : Within (Keeps (Bounded todo)) (fileResourceDeleteTask kube node depth path mapping definition) := by
  cases depth with
  | zero => exact .raise _
  | succ depth =>
    intro s bounded
    have same : Lessens s { s with log := s.log ++ [.entered path mapping definition s.runtime] } :=
      ⟨.refl _, fun _ _ found => found⟩
    have entered := same.bounded bounded
    have less : Lessens _ _ := @getPathWithAdjacentResources_lessens node path mapping definition
      { s with log := s.log ++ [.entered path mapping definition s.runtime] }
    rw [fileResourceDeleteTask_succ, bind_run]
    generalize looked : getPathWithAdjacentResources node path mapping definition _ = outcome at less
    obtain ⟨e | ⟨adjacent, chosen⟩, middle⟩ := outcome
    · exact less.bounded entered
    · obtain ⟨names, few, listed, belongs, returnable⟩ :=
        getPathWithAdjacentResources_bounded entered target storable looked
      exact ⟨names, few, deleteWithAdjacentResources_listed
        (fun mapping definition => fileResourceDeleteTask_listed target depth mapping definition) target belongs
        returnable middle listed⟩

variable (kube node) in
theorem deletionRound_bounded {round : String × KubernetesResourceDefinition} (member : round ∈ todo) :
    Within (Keeps (Bounded todo)) (deletionRound kube node round) := by
  intro s bounded
  have target : round.1 ∈ todo.map Prod.fst := List.mem_map_of_mem member
  have storable := (bounded.filed.targets round member).2
  have ends := deletionRound_ends kube node round.1 round.2 s
  change DeletionRoundEnds kube node round.1 round.2 s (deletionRound kube node round s) at ends
  generalize deletionRound kube node round s = outcome at ends ⊢
  have ready {mapping : KubernetesApiMapping} {found : Value} {before : State}
      (ran : beforeTask node (fileDeletion kube node) round.1 round.2 s = (.ok (mapping, found), before)) :
      Bounded todo before := by
    have kept := beforeTask_untouched kube node round.1 round.2 s
    rw [ran] at kept
    exact kept.lessens.bounded bounded
  have called (mapping : KubernetesApiMapping) (depth : Nat) {before after : State} {result : Except Exception Unit}
      (ran : fileResourceDeleteTask kube node depth round.1 mapping round.2 before = (result, after))
      (bounded : Bounded todo before) : Bounded todo after := by
    have kept : Bounded todo (fileResourceDeleteTask kube node depth round.1 mapping round.2 before).2 :=
      fileResourceDeleteTask_bounded target storable depth before bounded
    rwa [ran] at kept
  cases ends with
  | early e s' kept grown => exact kept.lessens.bounded bounded
  | raised mapping found before first e s' ran => exact called mapping _ ran (ready first)
  | returned mapping found before first after ran =>
    exact (leftBehind_lessens round.1 found after).bounded (called mapping _ ran (ready first))

theorem Listed.stores {names : List (Except Exception Identity)} {round : String × KubernetesResourceDefinition}
    (listed : Listed todo names s) (member : round ∈ todo) {v : Value}
    (result : ∃ kind version fields, IsResult v kind version fields) (stored : StoredAs round.1 v s s') :
    Listed todo (Identity.ofDict v :: names) s' := by
  have filed := listed.toFiled.stores member result stored
  obtain ⟨kind, version, fields, is⟩ := result
  obtain ⟨d, made, ran⟩ := stored.definitions
  obtain rfl := Except.ok.inj (is.definition.symm.trans made)
  obtain ⟨updated, ran', distinct, _, keys⟩ := is.upserts listed.distinct
  obtain rfl := Except.ok.inj (ran.symm.trans ran')
  refine ⟨filed, distinct, fun w inside => ?_, fun key w there => ?_⟩
  · rcases (keys _).mp (List.mem_map_of_mem inside) with new | old
    · rw [new, is.ofDict]
      exact List.mem_cons_self
    · obtain ⟨w', before, same⟩ := List.mem_map.mp old
      rw [← same]
      exact List.mem_cons_of_mem _ (listed.named w' before)
  · rw [stored.files, recordFile_named (listed.targets round member).1, OrderedDict.get?_set] at there
    split at there
    · cases there
      exact List.mem_cons_self
    · exact List.mem_cons_of_mem _ (listed.recorded key w there)

/-- A creation that the API answers with resources names no more of them than it has targets. -/
theorem creationRounds_listed {names : List (Except Exception Identity)} {rest : List (String × KubernetesResourceDefinition)}
    (inside : ∀ round ∈ rest, round ∈ todo)
    (rounds : Rounds (fun round => definitionTask node (fileCreation kube node) round.1 round.2) rest s s')
    (answers : AnswersResults s'.log) (listed : Listed todo names s) :
    ∃ names', names'.length = names.length + rest.length ∧ Listed todo names' s' := by
  induction rounds generalizing names with
  | nil s => exact ⟨names, rfl, listed⟩
  | @cons round rest _ s middle s' ran others ih =>
    obtain ⟨member, inside⟩ := List.forall_mem_cons.mp inside
    have ends := creationRound_ends kube node round.1 round.2 s
    rw [ran] at ends
    obtain ⟨v, first, grown, _, ⟨front, c, raw, rfl, _, cleaned⟩, stored⟩ := ends
    obtain ⟨⟨events, grown'⟩, _⟩ := creationRounds_file inside others
    have answered : .returned c (.ok raw) ∈ s'.log := by
      rw [grown', grown]
      simp
    obtain ⟨names', length, listed'⟩ := ih inside answers (listed.stores member (answers c raw v answered cleaned) stored)
    refine ⟨names', ?_, listed'⟩
    rw [length, List.length_cons, List.length_cons]
    omega

end

def Emptied (s : State) : Prop := ∀ path, (recordedFiles s.runtime).get? path = none

section

variable {kube : Kubernetes} {node : Node} {path : String} {mapping : KubernetesApiMapping}
  {definition : KubernetesResourceDefinition} {s s' : State} {events : List Event} {result : Except Exception Unit}

theorem Lessens.emptied (less : Lessens s s') (emptied : Emptied s) : Emptied s' := by
  intro path
  by_contra there
  obtain ⟨v, there⟩ := Option.ne_none_iff_exists'.mp there
  cases (emptied path).symm.trans (less.files path v there)

theorem Emptied.items (emptied : Emptied s) : (recordedFiles s.runtime).items = [] := by
  rw [List.eq_nil_iff_forall_not_mem]
  intro e member
  cases (emptied e.1).symm.trans ((OrderedDict.mem_items_iff _ _ _).mp member)

/-- Without a record, only an answered deletion makes one. -/
theorem deleteWithAdjacentResources_emptied (owned : node.useExternalResource = false)
    {delete : KubernetesApiMapping → KubernetesResourceDefinition → Task Unit}
    (plain : ∀ v ∈ storedDefinitions s.runtime, v.IsPlain) (emptied : Emptied s)
    (ran : deleteWithAdjacentResources kube node delete path [] definition mapping s = (result, s'))
    (grown : s'.log = s.log ++ events) (undeleted : ∀ e ∈ events, e.deleted = false) : Emptied s' := by
  cases result with
  | ok value =>
    rw [deleteWithAdjacentResources_returns owned ran]
    exact (doResourceRead_untouched .task s).lessens.emptied emptied
  | error e =>
    rcases (deleteWithAdjacentResources_untaken plain ran grown).1 with same | ⟨⟨x, member, deleted⟩, _⟩
    · intro path
      rw [same]
      exact emptied path
    · cases (undeleted x member).symm.trans deleted

/-- A call takes the last record, if it comes to its read. -/
theorem fileResourceDeleteTask_empties (owned : node.useExternalResource = false) {depth : Nat} (stored : WellStored s)
    (only : ∀ key v, (recordedFiles s.runtime).get? key = some v → key = path)
    (ran : fileResourceDeleteTask kube node (depth + 1) path mapping definition s = (result, s'))
    (grown : s'.log = s.log ++ .entered path mapping definition s.runtime :: events)
    (undeleted : ∀ e ∈ events, e.deleted = false)
    (cause : Emptied s ∨ ∃ e ∈ events, e.answersTask = true) : Emptied s' := by
  have entered : Lessens s { s with log := s.log ++ [.entered path mapping definition s.runtime] } :=
    ⟨.refl _, fun _ _ found => found⟩
  have lookup := @getPathWithAdjacentResources_ends node path mapping definition _ (entered.wellStored stored)
  have less : Lessens _ _ := @getPathWithAdjacentResources_lessens node path mapping definition
    { s with log := s.log ++ [.entered path mapping definition s.runtime] }
  obtain ⟨choices, grown', unanswered⟩ := @getPathWithAdjacentResources_unanswered node path mapping definition
    { s with log := s.log ++ [.entered path mapping definition s.runtime] }
  rw [fileResourceDeleteTask_succ, bind_run] at ran
  generalize getPathWithAdjacentResources node path mapping definition _ = outcome at lookup less grown' ran
  obtain ⟨e | ⟨adjacent, definition', mapping'⟩, middle⟩ := outcome
  · cases ran
    rcases cause with emptied | ⟨e, member, answers⟩
    · exact less.emptied emptied
    · obtain rfl : choices = events := by
        have whole := grown'.symm.trans grown
        simpa using whole
      have quiet := unanswered e member
      cases e with
      | returned c result => cases quiet
      | _ => cases answers
  have ran : deleteWithAdjacentResources kube node (fileResourceDeleteTask kube node depth path) path adjacent
      definition' mapping' middle = (result, s') := ran
  obtain ⟨rest, extended⟩ : ∃ rest, s'.log = middle.log ++ rest := by
    have steps := steps_extend (deleteWithAdjacentResources_steps kube node path mapping' definition' depth adjacent
      middle)
    rwa [ran] at steps
  obtain rfl : events = choices ++ rest := by
    have whole := grown.symm.trans (extended.trans (congrArg (· ++ rest) grown'))
    simpa using whole
  obtain ⟨emptied, rfl⟩ : Emptied middle ∧ adjacent = [] := by
    cases lookup with
    | unresolved _ _ _ free files =>
      refine ⟨fun key => ?_, rfl⟩
      rw [files]
      by_contra there
      obtain ⟨v, there⟩ := Option.ne_none_iff_exists'.mp there
      rw [only key v there] at there
      cases free.symm.trans there
    | taken found _ _ _ taken left _ _ _ =>
      have took := takenAt_took taken
      have own : found.path = path := only _ _ took.entry
      have left : recordedFiles middle.runtime = leftBy path s.runtime := left
      refine ⟨fun key => ?_, ?_⟩
      · rw [left, took.left]
        split
        · rfl
        · rename_i other
          by_contra there
          obtain ⟨v, there⟩ := Option.ne_none_iff_exists'.mp there
          exact other (.inl ((only key v there).trans own.symm))
      · rw [List.eq_nil_iff_forall_not_mem]
        intro e member
        obtain ⟨there, other⟩ := took.adjacent e member
        exact other ((only _ _ there).trans own.symm)
  exact deleteWithAdjacentResources_emptied owned (less.wellStored (entered.wellStored stored)).plain emptied ran extended
    fun e member => undeleted e (List.mem_append_right _ member)

theorem Event.answersTask_asks {e : Event} (answers : e.answersTask = true) :
    ∃ c, e.call? = some c ∧ c.verb = .read .task := by
  unfold Event.answersTask at answers
  split at answers
  · exact ⟨_, rfl, rfl⟩
  · cases answers

theorem beforeTask_unanswered {outcome : Except Exception (KubernetesApiMapping × Value)}
    (ran : beforeTask node (fileDeletion kube node) path definition s = (outcome, s')) :
    ∃ events, s'.log = s.log ++ events ∧ ∀ e ∈ events, e.answersTask = false := by
  have steps : Steps kube (fun verb => verb ≠ .read .task) s
      (beforeTask node (fileDeletion kube node) path definition s).2 :=
    beforeTask_asks kube node path definition (by simp) s
  rw [ran] at steps
  exact steps_lack steps fun e answers => by
    obtain ⟨c, called, verb⟩ := Event.answersTask_asks answers
    exact ⟨c, called, fun other => other verb⟩

theorem deletionRound_empties (owned : node.useExternalResource = false) (stored : WellStored s)
    (only : ∀ key v, (recordedFiles s.runtime).get? key = some v → key = path)
    (ran : deletionRound kube node (path, definition) s = (result, s')) (grown : s'.log = s.log ++ events)
    (undeleted : ∀ e ∈ events, e.deleted = false) (cause : Emptied s ∨ ∃ e ∈ events, e.answersTask = true) :
    Emptied s' := by
  have kept := beforeTask_untouched kube node path definition s
  generalize ready : beforeTask node (fileDeletion kube node) path definition s = outcome at kept
  obtain ⟨outcome, before⟩ := outcome
  obtain ⟨front, before', unanswered⟩ := beforeTask_unanswered ready
  cases outcome with
  | error e =>
    have ended : deletionRound kube node (path, definition) s = (.error e, before) := by
      rw [deletionRound, definitionTask_behind, bind_run_error ready]
    cases ended.symm.trans ran
    rcases cause with emptied | ⟨e, member, answers⟩
    · exact kept.lessens.emptied emptied
    · obtain rfl : events = front := List.append_cancel_left (grown.symm.trans before')
      cases (unanswered e member).symm.trans answers
  | ok prepared =>
    obtain ⟨mapping, found⟩ := prepared
    obtain ⟨after, called, less, same⟩ := deletionRound_called ready ran
    obtain ⟨own, extended⟩ := fileResourceDeleteTask_enters kube node path mapping definition before.runtime.entries before
    have called : fileResourceDeleteTask kube node (before.runtime.entries + 1) path mapping definition before =
        (result, after) := called
    rw [called] at extended
    obtain rfl := growth_split grown before' (same.trans extended)
    refine less.emptied (fileResourceDeleteTask_empties owned (kept.lessens.wellStored stored) ?_ called extended ?_ ?_)
    · exact fun key v there => only key v (kept.lessens.files key v there)
    · exact fun e member => undeleted e (List.mem_append_right _ (List.mem_cons_of_mem _ member))
    · rcases cause with emptied | ⟨e, member, answers⟩
      · exact .inl (kept.lessens.emptied emptied)
      · refine .inr ⟨e, ?_, answers⟩
        rcases List.mem_append.mp member with early | late
        · cases (unanswered e early).symm.trans answers
        · rcases List.mem_cons.mp late with rfl | late
          · cases answers
          · exact late

end

/-- As long as no deletion is answered nothing is recorded again. -/
def StaysEmpty (todo : List (String × KubernetesResourceDefinition)) (s s' : State) : Prop :=
  ∃ events, s'.log = s.log ++ events ∧ ((∀ e ∈ events, e.deleted = false) → Bounded todo s → Emptied s → Emptied s') ∧
    (Bounded todo s → Bounded todo s')

instance (todo : List (String × KubernetesResourceDefinition)) : Std.Refl (StaysEmpty todo) :=
  ⟨fun _ => ⟨[], (List.append_nil _).symm, fun _ _ emptied => emptied, id⟩⟩

instance (todo : List (String × KubernetesResourceDefinition)) : IsTrans State (StaysEmpty todo) := ⟨by
  intro s middle s' first second
  obtain ⟨events, grown, empties, bounds⟩ := first
  obtain ⟨events', grown', empties', bounds'⟩ := second
  refine ⟨events ++ events', by rw [grown', grown, List.append_assoc], fun undeleted bounded emptied => ?_,
    fun bounded => bounds' (bounds bounded)⟩
  obtain ⟨front, back⟩ := List.forall_mem_append.mp undeleted
  exact empties' back (bounds bounded) (empties front bounded emptied)⟩

section

variable {kube : Kubernetes} {node : Node} {todo : List (String × KubernetesResourceDefinition)}

theorem deletionRound_staysEmpty (owned : node.useExternalResource = false)
    {round : String × KubernetesResourceDefinition} (member : round ∈ todo) :
    Within (StaysEmpty todo) (deletionRound kube node round) := by
  intro s
  obtain ⟨events, grown⟩ := steps_extend (deletionRound_steps kube node round s)
  refine ⟨events, grown, fun undeleted bounded emptied => ?_, deletionRound_bounded kube node member s⟩
  generalize ran : deletionRound kube node round s = outcome at grown ⊢
  exact deletionRound_empties owned bounded.filed.wellStored
    (fun key v there => by cases (emptied key).symm.trans there) ran grown undeleted (.inl emptied)

end

namespace FileDeletion

variable {kube : Kubernetes} {node : Node} {R : State → State → Prop} [Std.Refl R] [IsTrans State R]
  {deletion : FileDeletion}

theorem run_within (rounds : ∀ round ∈ deletion.targets node, Within R (deletionRound kube node round))
    (ctx : OperationContext) : Within R (deletion.operation.run kube node ctx) := by
  intro s
  generalize ran : deletion.operation.run kube node ctx s = outcome
  obtain ⟨e | value, s'⟩ := outcome
  · rcases deletion.run_failed ran with rfl | ⟨target, middle, e', ⟨front, back, split, passed⟩, failed⟩
    · exact Std.Refl.refl _
    · rw [split] at rounds
      have last := rounds target (by simp) middle
      rw [failed] at last
      exact IsTrans.trans _ _ _ (passed.within fun round member => rounds round (List.mem_append_left _ member)) last
  · exact (deletion.run_returned ran).within rounds

theorem before_within (rounds : ∀ round ∈ deletion.targets node, Within R (deletionRound kube node round))
    (reset : ∀ (s : State) (options : Dict), R s { s with options }) (options : Dict)
    (earlier later : List OperationContext) (s : State) :
    R (deletion.before kube node options earlier s) (deletion.before kube node options (earlier ++ later) s) := by
  induction later using List.reverseRecOn with
  | nil =>
    rw [List.append_nil]
    exact Std.Refl.refl _
  | append_singleton later ctx ih =>
    rw [← List.append_assoc, before_concat]
    exact IsTrans.trans _ _ _ ih (IsTrans.trans _ _ _ (run_within rounds ctx _) (reset _ options))

/-- An attempt that has passed all targets but the last one ends as the round of this one. -/
theorem run_last {front : List (String × KubernetesResourceDefinition)} {last : String × KubernetesResourceDefinition}
    (split : deletion.targets node = front ++ [last]) {s middle : State}
    (passed : Rounds (deletionRound kube node) front s middle) (ctx : OperationContext) :
    (deletion.operation.run kube node ctx s).2 = (deletionRound kube node last middle).2 := by
  generalize ran : deletion.operation.run kube node ctx s = outcome
  obtain ⟨e | value, s'⟩ := outcome
  · have given : deletion ≠ .files [] := by
      rintro rfl
      simp [targets, CloudifyKubernetes.targets] at split
    obtain ⟨target, middle', e', ⟨front', back, split', passed'⟩, failed⟩ := run_failed_at given ran
    obtain ⟨rfl, rfl⟩ := passed.failed_at (split'.symm.trans split) passed' failed
    rw [failed]
  · have rounds := deletion.run_returned ran
    rw [split] at rounds
    obtain ⟨middle', first, second⟩ := rounds.of_append
    obtain rfl := first.unique passed
    cases second with
    | cons ended none =>
      cases none
      rw [ended]

/-- An attempt comes to the read of the last target, and behind it no deletion is answered. -/
def Strips (deletion : FileDeletion) (kube : Kubernetes) (node : Node) (options : Dict)
    (earlier : List OperationContext) (s s' : State) : Prop :=
  ∃ front last middle, deletion.targets node = front ++ [last] ∧
    Rounds (deletionRound kube node) front (deletion.before kube node options earlier s) middle ∧
    (∃ e ∈ (deletionRound kube node last middle).2.log.drop middle.log.length, e.answersTask = true) ∧
    ∀ e ∈ s'.log.drop middle.log.length, e.deleted = false

theorem before_bounded (options : Dict) (earlier : List OperationContext) {s : State}
    (bounded : Bounded (deletion.targets node) s) :
    Bounded (deletion.targets node) (deletion.before kube node options earlier s) := by
  have kept : Keeps (Bounded (deletion.targets node)) (deletion.before kube node options [] s)
      (deletion.before kube node options ([] ++ earlier) s) :=
    before_within (fun _ member => deletionRound_bounded kube node member) (fun _ options bounded => bounded.reset options) options []
      earlier s
  exact kept (bounded.reset options)

/-- Whatever the attempts behind it come to, the last one finds no record. -/
theorem stripped_emptied (owned : node.useExternalResource = false) {options : Dict} {earlier later : List OperationContext}
    {ctx : OperationContext} {s s' : State} (bounded : Bounded (deletion.targets node) s)
    (grown : ∃ events, s'.log = (deletion.before kube node options (earlier ++ ctx :: later) s).log ++ events)
    (strips : deletion.Strips kube node options earlier s s') :
    Emptied (deletion.before kube node options (earlier ++ ctx :: later) s) := by
  obtain ⟨front, last, middle, split, passed, answered, undeleted⟩ := strips
  have start := @before_bounded kube node deletion options earlier s bounded
  have inside : ∀ round ∈ front, round ∈ deletion.targets node := fun round member => by
    rw [split]
    exact List.mem_append_left _ member
  have own : last ∈ deletion.targets node := by
    rw [split]
    simp
  have bounded : Bounded (deletion.targets node) middle :=
    passed.within (R := Keeps (Bounded (deletion.targets node)))
      (fun round member => deletionRound_bounded kube node (inside round member)) start
  have filed := bounded.filed
  obtain ⟨_, cleared, _⟩ := fileDeletions_take owned passed
  -- The rounds before have each taken their record.
  have only : ∀ key v, (recordedFiles middle.runtime).get? key = some v → key = last.1 := by
    intro key v there
    obtain ⟨target, _, _, _, is⟩ := filed.records key v there
    rw [split, List.map_append, List.mem_append] at target
    rcases target with early | here
    · obtain ⟨round, member, rfl⟩ := List.mem_map.mp early
      cases (cleared round member v there).symm.trans (truthy_of_index is.kinded)
    · simpa using here
  obtain ⟨events, ended⟩ := steps_extend (deletionRound_steps kube node last middle)
  have rounds : ∀ round ∈ deletion.targets node, Within (StaysEmpty (deletion.targets node)) (deletionRound kube node round) :=
    fun _ member => deletionRound_staysEmpty owned member
  have reset (s : State) (options : Dict) : StaysEmpty (deletion.targets node) s { s with options } :=
    ⟨[], (List.append_nil _).symm, fun _ _ emptied => emptied, fun bounded => bounded.reset options⟩
  obtain ⟨more, extended, stays, _⟩ := before_within rounds reset options (earlier ++ [ctx]) later s
  rw [List.append_assoc, List.singleton_append] at extended stays
  obtain ⟨rest, grown⟩ := grown
  have reached := run_last split passed ctx
  rw [before_concat] at extended stays
  dsimp only at extended
  rw [reached, ended] at extended
  rw [grown, extended, List.append_assoc, List.append_assoc, List.drop_left] at undeleted
  obtain ⟨first, undeleted⟩ := List.forall_mem_append.mp undeleted
  rw [ended, List.drop_left] at answered
  generalize ran : deletionRound kube node last middle = outcome at ended reached
  have emptied := deletionRound_empties owned filed.wellStored only ran ended first (.inr answered)
  have kept := deletionRound_bounded kube node own middle bounded
  rw [ran] at kept
  refine stays (List.forall_mem_append.mp undeleted).1 ?_ ?_
  · rw [reached]
    exact kept.reset options
  · rw [reached]
    exact emptied

/-- The last attempt takes a definition for each target then, and no more than these are stored. -/
theorem attempts_forget (owned : node.useExternalResource = false) {options : Dict} {contexts : List OperationContext}
    {ctx : OperationContext} {s s' : State} {results : List (Except Exception Unit)}
    (ran : attempts kube node options ((contexts ++ [ctx]).map fun ctx => (ctx, deletion.operation)) s =
      (.ok (results ++ [.ok ()]), s'))
    (bounded : Bounded (deletion.targets node) s)
    (strips : ∃ earlier ctx', earlier ++ [ctx'] <+: contexts ∧ deletion.Strips kube node options earlier s s')
    (n : ObjectName) : Forgotten n s'.runtime := by
  have rounds := deletion.run_returned ((deletion.attempts_returned_iff options contexts ctx).mp ⟨results, ran⟩)
  obtain ⟨events, grown, _⟩ : StaysEmpty (deletion.targets node) _ s' :=
    rounds.within fun _ member => deletionRound_staysEmpty owned member
  obtain ⟨earlier, ctx', ⟨later, rfl⟩, strips⟩ := strips
  have ready := @before_bounded kube node deletion options (earlier ++ [ctx'] ++ later) s bounded
  rw [List.append_assoc, List.singleton_append] at rounds grown ready
  have emptied := stripped_emptied owned bounded ⟨events, grown⟩ strips
  generalize deletion.before kube node options (earlier ++ ctx' :: later) s = before at *
  obtain ⟨less, _, popped⟩ := fileDeletions_take owned rounds
  have each : unrecorded ((deletion.targets node).map Prod.fst) (recordedFiles before.runtime) =
      (deletion.targets node).length := by
    rw [unrecorded, List.countP_eq_length.mpr, List.length_map]
    intro path _
    simp [OrderedDict.contains, emptied path]
  rw [each, List.rdrop, Nat.sub_eq_zero_of_le ready.length_le, List.take_zero, List.sublist_nil] at popped
  have emptied := less.emptied emptied
  refine ⟨fun v stored => ?_, fun path recorded => ?_⟩
  · rw [popped] at stored
    cases stored
  · rcases recorded with ⟨_, names⟩ | ⟨v, there, _⟩
    · rw [emptied.items] at names
      cases names
    · cases (emptied path).symm.trans there

end FileDeletion

end CloudifyKubernetes
