import CloudifyKubernetes.DefinitionRemoval
import CloudifyKubernetes.DeleteAttempts
import CloudifyKubernetes.DeletionRecursion
import CloudifyKubernetes.Effects.Draining
import Mathlib.Data.Prod.Lex

namespace CloudifyKubernetes

open Collections Effects Program

def Event.Absent : Event → Prop
  | .returned _ result => ∃ e, result = .error e ∧ e.NotFound ∧ e.isA .apiOperationError = true
  | _ => True

def AllAbsent (events : List Event) : Prop := ∀ e ∈ events, e.Absent

structure Tidied (s s' : State) : Prop where
  files : ∀ key v, (recordedFiles s'.runtime).get? key = some v → (recordedFiles s.runtime).get? key = some v
  definitions : Restocks s s'

def Clears (s s' : State) : Prop :=
  ∃ events, s'.log = s.log ++ events ∧ (AllAbsent events → WellStored s → Tidied s s')

structure Askable (d : KubernetesResourceDefinition) : Prop where
  known : ∃ mapping, getMapping d.kind = .ok mapping
  readable : ∃ annotations, customAnnotations d = .ok annotations
  named : ∃ name, d.metadata.index "name" = .ok name

section

variable {s middle s' : State} {front back : List Event}

theorem AllAbsent.left (absent : AllAbsent (front ++ back)) : AllAbsent front :=
  fun e member => absent e (List.mem_append_left _ member)

theorem AllAbsent.right (absent : AllAbsent (front ++ back)) : AllAbsent back :=
  fun e member => absent e (List.mem_append_right _ member)

instance : Std.Refl Tidied := ⟨fun s => ⟨fun _ _ there => there, Std.Refl.refl s⟩⟩

instance : IsTrans State Tidied := ⟨fun _ _ _ first second =>
  ⟨fun key v there => first.files key v (second.files key v there),
    IsTrans.trans _ _ _ first.definitions second.definitions⟩⟩

theorem Lessens.tidied (less : Lessens s s') : Tidied s s' :=
  ⟨less.files, fun _ member => .inl (less.definitions.subset member)⟩

theorem Tidied.wellStored (tidied : Tidied s s') (stored : WellStored s) : WellStored s' where
  records key v there := stored.records key v (tidied.files key v there)
  plain := tidied.definitions.plain stored.plain

theorem Tidied.entries (tidied : Tidied s s') : s'.runtime.entries ≤ s.runtime.entries :=
  OrderedDict.length_le tidied.files

instance : Std.Refl Clears := ⟨fun s => ⟨[], (List.append_nil _).symm, fun _ _ => Std.Refl.refl s⟩⟩

instance : IsTrans State Clears := ⟨fun _ _ _ first second => by
  obtain ⟨front, grown, tidies⟩ := first
  obtain ⟨back, grown', tidies'⟩ := second
  refine ⟨front ++ back, by rw [grown', grown, List.append_assoc], ?_⟩
  intro absent stored
  have first := tidies absent.left stored
  exact IsTrans.trans _ _ _ first (tidies' absent.right (first.wellStored stored))⟩

end

section

variable {kube : Kubernetes} {node : Node} {path : String} {mapping : KubernetesApiMapping}
  {definition : KubernetesResourceDefinition}

theorem CallEvents.absent {c : ClientCall} {result : Except Exception Value} {events : List Event}
    (call : CallEvents c result events) (absent : AllAbsent events) :
    ∃ e, result = .error e ∧ e.NotFound ∧ e.isA .apiOperationError = true :=
  absent (.returned c result) call.returned_mem

variable (kube mapping definition) in
theorem readWhileAdjacentResources_absent (s : State) :
    ∃ result s' events, readWhileAdjacentResources kube mapping definition s = (result, s') ∧ Untouched s s' ∧
      s'.log = s.log ++ events ∧ (AllAbsent events →
        (∃ e, result = .ok (some e) ∧ e.isA .missingResource = true) ∨
          (∃ e, result = .error e) ∧ ∃ e, customAnnotations definition = .error e) := by
  rw [readWhileAdjacentResources_run]
  have run := doResourceRead_run kube .task mapping definition s
  generalize doResourceRead kube .task mapping definition s = ran at run ⊢
  cases run with
  | malformed e failed =>
    have cls := customAnnotations_error failed
    refine ⟨_, _, [], rfl, Std.Refl.refl s, (List.append_nil _).symm, fun _ => .inr ⟨⟨e, ?_⟩, e, failed⟩⟩
    simp [readOutcome, Exception.isA, cls, ExceptionClass.isSubclass]
  | called result options events readable call =>
    refine ⟨_, _, _, rfl, ⟨rfl, rfl⟩, rfl, fun absent => .inl ?_⟩
    obtain ⟨e, rfl, gone, _⟩ := call.absent fun e member => absent e (List.mem_cons_of_mem _ member)
    exact ⟨_, gone.readOutcome, rfl⟩

variable (definition) in
theorem deleteAdjacentResources_clears {delete : KubernetesApiMapping → KubernetesResourceDefinition → Task Unit}
    (inner : ∀ mapping definition, Within Clears (delete mapping definition)) (adjacent : List (String × Value)) :
    Within Clears (deleteAdjacentResources delete definition adjacent) := by
  refine (Within.forEach fun entry _ => ?_).bind fun _ => .pure _
  refine (Within.ofExcept _).bind fun found => ?_
  cases found with
  | none => exact .pure _
  | some inner' => exact (Within.ofExcept _).bind fun mapping => inner mapping inner'

variable {depth : Nat} {s s' : State} {result : Except Exception Unit} {events : List Event}

theorem deleteWithAdjacentResources_alone_absent
    (ran : deleteWithAdjacentResources kube node (fileResourceDeleteTask kube node depth path) path [] definition mapping
      s = (result, s')) (grown : s'.log = s.log ++ events) (absent : AllAbsent events) :
    Untouched s s' ∧ ((∃ e, result = .error e) → ∃ e, customAnnotations definition = .error e) := by
  obtain ⟨outcome, middle, front, read, kept, grown', told⟩ :=
    readWhileAdjacentResources_absent kube mapping definition s
  obtain ⟨back, extended⟩ := deleteWithAdjacentResources_extends node depth path [] read
  rw [ran] at extended
  obtain rfl : events = front ++ back := growth_split grown grown' extended
  rcases told absent.left with ⟨e, rfl, missing⟩ | ⟨⟨e, rfl⟩, unreadable⟩
  · have ran := (bind_run_ok read _).symm.trans ran
    dsimp only at ran
    rw [if_pos missing] at ran
    cases ran
    exact ⟨kept, fun ⟨_, failed⟩ => by cases failed⟩
  · have ended := (bind_run_error read _).symm.trans ran
    cases ended
    exact ⟨kept, fun _ => unreadable⟩

theorem Took.tidied {files files' files'' : Dict} {found : LastCreatePath} (took : Took path files found files')
    (less : ∀ key v, files''.get? key = some v → files'.get? key = some v) :
    (∀ key v, files''.get? key = some v → files.get? key = some v) ∧ files''.get? found.path = none := by
  constructor
  · intro key v there
    have left := less key v there
    rw [took.left] at left
    split at left
    · cases left
    · exact left
  · by_contra there
    obtain ⟨v, there⟩ := Option.ne_none_iff_exists'.mp there
    have left := less found.path v there
    rw [took.left, if_pos (.inl rfl)] at left
    cases left

structure Cleared (files : Dict) (found : LastCreatePath) (s s' : State) : Prop where
  files : ∀ key v, (recordedFiles s'.runtime).get? key = some v → files.get? key = some v
  free : (recordedFiles s'.runtime).get? found.path = none
  definitions : Restocks s s'

theorem Took.cleared {files : Dict} {found : LastCreatePath} (took : Took path files found (recordedFiles s.runtime))
    (tidied : Tidied s s') : Cleared files found s s' := by
  obtain ⟨inside, free⟩ := took.tidied tidied.files
  exact ⟨inside, free, tidied.definitions⟩

theorem Took.put {files : Dict} {found : LastCreatePath} (took : Took path files found (recordedFiles s.runtime))
    (results : ∀ e ∈ found.adjacent, e.1 ≠ "" ∧ ∃ kind version fields, IsResult e.2 kind version fields)
    {last : State} (tidied : Tidied s last) (stored : WellStored s) :
    ∃ final, storeAdjacent found.adjacent last = (.ok (), final) ∧ Cleared files found s final := by
  obtain ⟨final, put, files', restocks, _⟩ := storeAdjacent_put results (tidied.wellStored stored).plain
  refine ⟨final, put, ⟨?_, ?_, IsTrans.trans _ _ _ tidied.definitions restocks⟩⟩
  · intro key v there
    rw [files'] at there
    exact took.of_putBack tidied.files there
  · have other : found.path ∉ found.adjacent.map Prod.fst := by
      intro member
      obtain ⟨e, inside, same⟩ := List.mem_map.mp member
      exact (took.adjacent e inside).2 same
    rw [files', get?_putBack_absent other]
    exact (took.tidied tidied.files).2

theorem deleteWithAdjacentResources_absent
    (inner : ∀ mapping definition, Within Clears (fileResourceDeleteTask kube node depth path mapping definition))
    {files : Dict} {found : LastCreatePath} (took : Took path files found (recordedFiles s.runtime))
    (results : ∀ e ∈ found.adjacent, e.1 ≠ "" ∧ ∃ kind version fields, IsResult e.2 kind version fields)
    (stored : WellStored s)
    (ran : deleteWithAdjacentResources kube node (fileResourceDeleteTask kube node depth path) path found.adjacent
      definition mapping s = (result, s')) (grown : s'.log = s.log ++ events) (absent : AllAbsent events) :
    Cleared files found s s' := by
  obtain ⟨outcome, middle, front, read, kept, grown', told⟩ :=
    readWhileAdjacentResources_absent kube mapping definition s
  obtain ⟨back, extended⟩ := deleteWithAdjacentResources_extends node depth path found.adjacent read
  rw [ran] at extended
  obtain rfl : events = front ++ back := growth_split grown grown' extended
  have stays : Tidied s middle := kept.lessens.tidied
  rcases told absent.left with ⟨e, rfl, missing⟩ | ⟨⟨e, rfl⟩, _⟩
  swap
  · have ended := (bind_run_error read _).symm.trans ran
    cases ended
    exact took.cleared stays
  have ran := (bind_run_ok read _).symm.trans ran
  dsimp only at ran
  rw [if_pos missing] at ran
  split at ran
  · cases ran
    exact took.cleared stays
  have loop := deleteAdjacentResources_clears definition inner found.adjacent middle
  rw [bind_run] at ran
  generalize deleteAdjacentResources _ definition found.adjacent middle = looped at loop ran
  obtain ⟨others, grown'', tidies⟩ := loop
  have tidies (quiet : AllAbsent others) : Tidied s looped.2 :=
    IsTrans.trans _ _ _ stays (tidies quiet (stays.wellStored stored))
  obtain ⟨e' | _, last⟩ := looped
  · cases ran
    obtain rfl : back = others := List.append_cancel_left (extended.symm.trans grown'')
    exact took.cleared (tidies absent.right)
  · dsimp only at ran
    have steps : Within (Steps kube fun _ => True) (storeAdjacent found.adjacent >>= fun _ =>
        raise ⟨.operationRetry, "Continue to deletion of adjacent resources: " ++ e.text⟩ : Task Unit) :=
      (storeAdjacent_within steps_offline _).bind fun _ => .raise _
    obtain ⟨more, rest⟩ := steps_extend (steps last)
    rw [ran] at rest
    obtain rfl : back = others ++ more := growth_split extended grown'' rest
    obtain ⟨final, put, cleared⟩ := took.put results (tidies absent.right.left) stored
    have ended := (bind_run_ok put _).symm.trans ran
    cases ended
    exact cleared

theorem matchResource_returns {left right : Value} (plain : left.IsPlain) (plain' : right.IsPlain) :
    ∃ same, matchResource left right = .ok same := by
  obtain ⟨i, own, _⟩ := plain
  obtain ⟨j, own', _⟩ := plain'
  rw [matchResource, own, own']
  exact ⟨_, rfl⟩

theorem recordedFile_returns {definition : Value} (plain : definition.IsPlain) {items : List (String × Value)}
    (others : ∀ e ∈ items, e.2.IsPlain) (path : String) (resource : Value) :
    ∃ settled, recordedFile definition path resource items = .ok settled := by
  induction items generalizing path resource with
  | nil => exact ⟨_, rfl⟩
  | cons entry rest ih =>
    obtain ⟨key, value⟩ := entry
    obtain ⟨first, others⟩ := List.forall_mem_cons.mp others
    obtain ⟨same, compared⟩ := matchResource_returns plain first
    simp only [recordedFile, compared, bind, Except.bind]
    cases same with
    | true => exact ⟨_, rfl⟩
    | false => exact ih others key value

structure Lookable (s : State) : Prop extends WellStored s where
  stems : ∀ path v, (recordedFiles s.runtime).get? path = some v → ∃ stem, fileStem path = .ok stem

theorem Lookable.plain_of_mem {s : State} (lookable : Lookable s) {e : String × Value}
    (member : e ∈ (recordedFiles s.runtime).items) : e.2.IsPlain := by
  obtain ⟨_, _, _, _, is⟩ := lookable.records e.1 e.2 ((OrderedDict.mem_items_iff _ _ _).mp member)
  exact ⟨_, is.ofDict, is.identity_plain⟩

theorem Lookable.clean {s : State} (lookable : Lookable s) (path : String) :
    Clean s (retrieveLastCreatePath path true s) := by
  rw [clean_iff]
  have takeable {name : String} {resource : Value} (settled : settledFile path s.runtime = .ok (name, resource))
      (truthy : resource.truthy = true) : Takeable name resource (recordedFiles s.runtime) := by
    have recorded := settledFile_entry settled truthy
    refine ⟨(fileStem_ok_iff name).mp (lookable.stems name resource recorded), fun stem _ e member _ => ?_⟩
    rw [OrderedDict.mem_erase_iff] at member
    obtain ⟨same, compared⟩ := matchResource_returns (lookable.plain_of_mem member.1)
      (lookable.plain_of_mem ((OrderedDict.mem_items_iff _ _ _).mpr recorded))
    rw [compared]
    rfl
  cases recorded : (recordedFiles s.runtime).get? path with
  | some v =>
    have settled : settledFile path s.runtime = .ok (path, v) := by simp only [settledFile, recorded]
    exact .inr ⟨path, v, settled, takeable settled⟩
  | none =>
    cases last : (storedDefinitions s.runtime).getLast? with
    | none => exact .inl ⟨rfl, List.getLast?_eq_none_iff.mp last⟩
    | some definition =>
      obtain ⟨⟨name, resource⟩, found⟩ := recordedFile_returns (lookable.plain definition (List.mem_of_getLast? last))
        (fun e member => lookable.plain_of_mem member) path .none
      have settled : settledFile path s.runtime = .ok (name, resource) := by simp only [settledFile, recorded, last, found]
      exact .inr ⟨name, resource, settled, takeable settled⟩

theorem index_unresolved {v : Value} {key : String} {e : Exception} (failed : v.index key = .error e) :
    e.unresolved = true := by
  cases v with
  | dict entries =>
    simp only [Value.index] at failed
    split at failed <;> cases failed
    rfl
  | _ =>
    cases failed
    rfl

theorem lookupRecord_unresolved {s : State} (lookable : Lookable s) (untaken : takenAt path s.runtime = none) :
    ∃ e, (lookupRecord path s.runtime).1 = .error e ∧ e.unresolved = true := by
  unfold takenAt at untaken
  generalize looked : lookupRecord path s.runtime = lookup at untaken ⊢
  obtain ⟨e | ⟨found, kind, metadata⟩, runtime⟩ := lookup
  swap
  · cases untaken
  refine ⟨e, rfl, ?_⟩
  have ran := recordedResource_run path s
  rw [looked] at ran
  rcases bind_error_inv ran with failed | ⟨found, middle, taken, rest⟩
  · obtain ⟨rfl, _⟩ := lookable.clean path e (congrArg Prod.fst failed)
    rfl
  · rcases bind_ofExcept_error_inv rest with ⟨indexed, _⟩ | ⟨_, _, rest⟩
    · exact index_unresolved indexed
    · rcases bind_ofExcept_error_inv rest with ⟨indexed, _⟩ | ⟨_, _, rest⟩
      · exact index_unresolved indexed
      · cases rest

theorem Value.IsPlain.hasName {v : Value} (plain : v.IsPlain) : v.HasName := by
  obtain ⟨i, own, described⟩ := plain
  obtain ⟨entries, fields, rfl, kinded, inside, named⟩ := ofDict_parts own described
  refine ⟨i.kind, .dict fields, i.name, ?_, ?_, ?_⟩
  · simp only [Value.index, kinded]
  · simp only [Value.index, inside]
  · simp only [Value.index, named]

structure Redefines (node : Node) (s s' : State) : Prop where
  allowed : node.allowNodeRedefinition = true
  fewer : (storedDefinitions s'.runtime).length < (storedDefinitions s.runtime).length

theorem retrieveStoredResource_redefines {s s' : State}
    {result : Except Exception (KubernetesResourceDefinition × KubernetesApiMapping)}
    (named : ∃ name, definition.metadata.index "name" = .ok name) (plain : ∀ v ∈ storedDefinitions s.runtime, v.IsPlain)
    (ran : retrieveStoredResource node definition mapping true s = (result, s')) :
    (∃ chosen, result = .ok chosen ∧ chosen.1 = definition) ∨ Redefines node s s' := by
  have popped := (retrieveStoredResource_pops node definition mapping s).length_le
  rw [ran, List.length_dropLast] at popped
  rw [retrieveStoredResource_run] at ran
  split at ran
  · rename_i replaced
    have last := lastStored_of_replaces replaced
    have some : 0 < (storedDefinitions s.runtime).length := List.length_pos_of_mem (List.mem_of_getLast? last)
    refine .inr ⟨?_, ?_⟩
    · rw [replaces, Bool.and_eq_true] at replaced
      exact replaced.2
    · dsimp only at popped
      omega
  · obtain ⟨name, named⟩ := named
    have described : ∀ v ∈ storedDefinitions (popStored s.runtime), isNamed definition.kind name v =
        .ok (isFor definition.kind name v) := by
      intro v member
      rw [storedDefinitions_popStored] at member
      exact isNamed_of_hasName (plain v (List.dropLast_subset _ member)).hasName
    have swept := removeNamed_sweep described
    have removed := removeResourceDefinition_run definition.kind name { s with runtime := popStored s.runtime }
    have whole : (removeNamed definition.kind name ((popStored s.runtime).resourceDefinitions.getD [])).1 = .ok () :=
      congrArg Prod.fst swept
    dsimp only at removed
    rw [whole] at removed
    rw [takeStored, named, bind_run, ofExcept_run] at ran
    dsimp only at ran
    rw [bind_run_ok removed] at ran
    cases ran
    exact .inl ⟨_, rfl, rfl⟩

/-- Without a record, a call goes on with its own definition, or a stored one has been taken. -/
theorem getPathWithAdjacentResources_absent {s s' : State}
    {result : Except Exception (List (String × Value) × KubernetesResourceDefinition × KubernetesApiMapping)}
    (lookable : Lookable s) (named : ∃ name, definition.metadata.index "name" = .ok name)
    (untaken : takenAt path s.runtime = none)
    (ran : getPathWithAdjacentResources node path mapping definition s = (result, s')) :
    (∃ mapping', result = .ok ([], definition, mapping')) ∨ Redefines node s s' := by
  obtain ⟨e, failed, unresolved⟩ := lookupRecord_unresolved lookable untaken
  have less := recordedResource_lessens path s
  rw [recordedResource_run] at less
  rw [getPathWithAdjacentResources_run] at ran
  simp only [failed, unresolved, if_true] at ran
  rw [bind_run] at ran
  generalize retrieved : retrieveStoredResource node definition mapping true _ = outcome at ran
  obtain ⟨chosen, last⟩ := outcome
  rcases retrieveStoredResource_redefines named (fun v member => lookable.plain v (less.definitions.subset member))
    retrieved with ⟨⟨_, mapping'⟩, rfl, rfl⟩ | redefines
  · cases ran
    exact .inl ⟨mapping', rfl⟩
  · have same : s' = last := by
      cases chosen with
      | error e =>
        cases ran
        rfl
      | ok chosen =>
        cases ran
        rfl
    refine .inr ⟨redefines.allowed, ?_⟩
    rw [same]
    have shorter := less.definitions.length_le
    have fewer := redefines.fewer
    dsimp only at fewer shorter
    omega

end

/-- How a call ends that is told of absent resources only: it takes a record away, or it finds none,
    and then it fails at the lookup or as the definition that it goes on with cannot be read. -/
inductive AbsentCall (node : Node) (path : String) (mapping : KubernetesApiMapping)
    (definition : KubernetesResourceDefinition) (s : State) : Except Exception Unit × State → Prop
  | taken (found : LastCreatePath) (result : Except Exception Unit) (s' : State)
      (entry : (recordedFiles s.runtime).get? found.path = some found.resource) (tidied : Tidied s s')
      (free : (recordedFiles s'.runtime).get? found.path = none) : AbsentCall node path mapping definition s (result, s')
  | untaken (result : Except Exception Unit) (middle s' : State)
      (looked : Except Exception (List (String × Value) × KubernetesResourceDefinition × KubernetesApiMapping))
      (untaken : takenAt path s.runtime = none)
      (looking : getPathWithAdjacentResources node path mapping definition
        { s with log := s.log ++ [.entered path mapping definition s.runtime] } = (looked, middle))
      (kept : Untouched middle s') (less : Lessens s s')
      (cause : (∃ e, result = .error e) → (∃ e, looked = .error e) ∨
        ∃ definition' mapping' e, looked = .ok ([], definition', mapping') ∧ customAnnotations definition' = .error e) :
      AbsentCall node path mapping definition s (result, s')

section

variable {kube : Kubernetes} {node : Node} {path : String} {mapping : KubernetesApiMapping}
  {definition : KubernetesResourceDefinition} {s s' : State} {result : Except Exception Unit} {events : List Event}

theorem AbsentCall.tidied (call : AbsentCall node path mapping definition s (result, s')) : Tidied s s' := by
  cases call with
  | taken _ _ _ _ tidied _ => exact tidied
  | untaken _ _ _ _ _ _ _ less _ => exact less.tidied

theorem fileResourceDeleteTask_absent {depth : Nat}
    (inner : ∀ mapping definition, Within Clears (fileResourceDeleteTask kube node depth path mapping definition))
    (stored : WellStored s) (ran : fileResourceDeleteTask kube node (depth + 1) path mapping definition s = (result, s'))
    (grown : s'.log = s.log ++ .entered path mapping definition s.runtime :: events) (absent : AllAbsent events) :
    AbsentCall node path mapping definition s (result, s') := by
  have entered : Lessens s { s with log := s.log ++ [.entered path mapping definition s.runtime] } :=
    ⟨.refl _, fun _ _ found => found⟩
  have lookup := @getPathWithAdjacentResources_ends node path mapping definition _ (entered.wellStored stored)
  have less : Lessens _ _ := @getPathWithAdjacentResources_lessens node path mapping definition
    { s with log := s.log ++ [.entered path mapping definition s.runtime] }
  obtain ⟨choices, grown', _⟩ := @getPathWithAdjacentResources_unanswered node path mapping definition
    { s with log := s.log ++ [.entered path mapping definition s.runtime] }
  rw [fileResourceDeleteTask_succ, bind_run] at ran
  generalize looked : getPathWithAdjacentResources node path mapping definition _ = outcome at lookup less grown' ran
  obtain ⟨e | ⟨adjacent, definition', mapping'⟩, middle⟩ := outcome
  -- A lookup that fails behind the record it has taken does not put it back.
  · cases ran
    have less : Lessens s s' := IsTrans.trans _ _ _ entered less
    cases taken : takenAt path s.runtime with
    | none => exact .untaken _ _ _ _ taken looked (Std.Refl.refl _) less fun _ => .inl ⟨e, rfl⟩
    | some found =>
      cases lookup with
      | failed _ _ left =>
        have took := takenAt_took taken
        have left : recordedFiles s'.runtime = leftBy path s.runtime := left
        refine .taken found _ _ took.entry less.tidied ?_
        rw [left, took.left, if_pos (.inl rfl)]
  have lessens : Lessens s middle := IsTrans.trans _ _ _ entered less
  have ran : deleteWithAdjacentResources kube node (fileResourceDeleteTask kube node depth path) path adjacent
      definition' mapping' middle = (result, s') := ran
  obtain ⟨rest, extended⟩ : ∃ rest, s'.log = middle.log ++ rest := by
    have steps := steps_extend (deleteWithAdjacentResources_steps kube node path mapping' definition' depth adjacent
      middle)
    rwa [ran] at steps
  obtain rfl : events = choices ++ rest := by
    have whole := grown.symm.trans (extended.trans (congrArg (· ++ rest) grown'))
    simpa using whole
  cases lookup with
  | unresolved _ _ untaken _ _ =>
    obtain ⟨kept, unreadable⟩ := deleteWithAdjacentResources_alone_absent ran extended absent.right
    refine .untaken _ _ _ _ untaken looked kept (IsTrans.trans _ _ _ lessens kept.lessens) fun failed => .inr ?_
    obtain ⟨e, cause⟩ := unreadable failed
    exact ⟨definition', mapping', e, rfl, cause⟩
  | taken found _ _ _ taken left _ _ _ =>
    have took := takenAt_took taken
    have results : ∀ e ∈ found.adjacent, e.1 ≠ "" ∧ ∃ kind version fields, IsResult e.2 kind version fields :=
      fun e member => stored.records e.1 e.2 (took.adjacent e member).1
    have left : recordedFiles middle.runtime = leftBy path s.runtime := left
    have cleared := deleteWithAdjacentResources_absent inner (left ▸ took) results (lessens.wellStored stored) ran
      extended absent.right
    exact .taken found _ _ took.entry ⟨cleared.files, IsTrans.trans _ _ _ lessens.tidied.definitions cleared.definitions⟩
      cleared.free

variable (kube node path) in
theorem fileResourceDeleteTask_clears (depth : Nat) (mapping : KubernetesApiMapping)
    (definition : KubernetesResourceDefinition) :
    Within Clears (fileResourceDeleteTask kube node depth path mapping definition) := by
  induction depth generalizing mapping definition with
  | zero => exact .raise _
  | succ depth ih =>
    intro s
    obtain ⟨events, grown⟩ := fileResourceDeleteTask_enters kube node path mapping definition depth s
    refine ⟨_, grown, fun absent stored => ?_⟩
    generalize ran : fileResourceDeleteTask kube node (depth + 1) path mapping definition s = outcome at grown ⊢
    obtain ⟨result, s'⟩ := outcome
    have call := fileResourceDeleteTask_absent ih stored ran grown fun e member => absent e (List.mem_cons_of_mem _ member)
    exact call.tidied

theorem Tidied.lookable (tidied : Tidied s s') (lookable : Lookable s) : Lookable s' where
  toWellStored := tidied.wellStored lookable.toWellStored
  stems path v there := lookable.stems path v (tidied.files path v there)

structure Drains (node : Node) (result : Except Exception Unit) (s s' : State) : Prop where
  tidied : Tidied s s'
  fewer : s'.runtime.entries < s.runtime.entries ∨
    (storedDefinitions s'.runtime).length ≤ (storedDefinitions s.runtime).length ∧
      ((∃ e, result = .error e) → Redefines node s s')

variable {middle : State}

theorem Drains.of_lessens (node : Node) (less : Lessens s s') : Drains node (.ok ()) s s' :=
  ⟨less.tidied, .inr ⟨less.definitions.length_le, fun ⟨_, failed⟩ => by cases failed⟩⟩

theorem Drains.trans (first : Drains node (.ok ()) s middle) (second : Drains node result middle s') :
    Drains node result s s' := by
  refine ⟨IsTrans.trans _ _ _ first.tidied second.tidied, ?_⟩
  rcases first.fewer with fewer | ⟨shorter, _⟩
  · exact .inl (second.tidied.entries.trans_lt fewer)
  rcases second.fewer with fewer | ⟨shorter', redefines⟩
  · exact .inl (fewer.trans_le first.tidied.entries)
  · refine .inr ⟨shorter'.trans shorter, fun failed => ?_⟩
    have redefines := redefines failed
    exact ⟨redefines.allowed, redefines.fewer.trans_le shorter⟩

theorem Drains.lessens (first : Drains node result s middle) (less : Lessens middle s') : Drains node result s s' := by
  refine ⟨IsTrans.trans _ _ _ first.tidied less.tidied, ?_⟩
  have shorter := less.definitions.length_le
  rcases first.fewer with fewer | ⟨shorter', redefines⟩
  · exact .inl (less.tidied.entries.trans_lt fewer)
  · refine .inr ⟨shorter.trans shorter', fun failed => ?_⟩
    have redefines := redefines failed
    exact ⟨redefines.allowed, shorter.trans_lt redefines.fewer⟩

theorem AbsentCall.drains (call : AbsentCall node path mapping definition s (result, s')) (lookable : Lookable s)
    (askable : Askable definition) : Drains node result s s' := by
  cases call with
  | taken found _ _ entry tidied free => exact ⟨tidied, .inl (OrderedDict.length_lt tidied.files entry free)⟩
  | untaken _ middle _ looked untaken looking kept less cause =>
    refine ⟨less.tidied, .inr ⟨less.definitions.length_le, fun failed => ?_⟩⟩
    -- With its own definition the call would have returned.
    have entered : Lookable { s with log := s.log ++ [.entered path mapping definition s.runtime] } :=
      ⟨⟨lookable.records, lookable.plain⟩, lookable.stems⟩
    rcases getPathWithAdjacentResources_absent entered askable.named untaken looking with ⟨mapping', rfl⟩ | redefines
    · rcases cause failed with ⟨e, same⟩ | ⟨definition', _, e, same, unreadable⟩
      · cases same
      · cases same
        obtain ⟨_, readable⟩ := askable.readable
        cases readable.symm.trans unreadable
    · refine ⟨redefines.allowed, ?_⟩
      rw [kept.definitions]
      exact redefines.fewer

theorem Askable.mapped (askable : Askable definition) (keys : List String) :
    ∃ mapping, mappingByKind keys definition = .ok mapping := by
  obtain ⟨mapping, known⟩ := askable.known
  have custom : getMapping "CustomObjectsApi" = .ok .customObjectsApi := by decide +kernel
  unfold mappingByKind
  split
  · exact ⟨_, custom⟩
  · rw [known]
    exact ⟨mapping, rfl⟩

theorem checkIfResourceExists_absent (askable : Askable definition) {found : Except Exception Value}
    (ran : checkIfResourceExists kube .stateFunction mapping definition s = (found, s'))
    (grown : s'.log = s.log ++ events) (absent : AllAbsent events) : found = .ok .none := by
  rw [checkIfResourceExists_eq] at ran
  have run := doResourceRead_run kube .stateFunction mapping definition s
  generalize doResourceRead kube .stateFunction mapping definition s = answer at run ran
  cases run with
  | malformed e failed =>
    obtain ⟨_, readable⟩ := askable.readable
    cases readable.symm.trans failed
  | called result options events' _ call =>
    cases ran
    obtain rfl : events = .edited definition :: events' := (List.append_cancel_left grown).symm
    obtain ⟨e, rfl, _, api⟩ := call.absent fun e member => absent e (List.mem_cons_of_mem _ member)
    obtain ⟨name, named⟩ := askable.named
    change existing definition (.error e) = _
    rw [existing, if_pos api, named]
    rfl

theorem beforeTask_absent (askable : Askable definition) {e : Exception}
    (ran : beforeTask node (fileDeletion kube node) path definition s = (.error e, s'))
    (grown : s'.log = s.log ++ events) : ¬ AllAbsent events := by
  intro absent
  obtain ⟨name, named⟩ := askable.named
  obtain ⟨mapping, mapped⟩ := askable.mapped s.options.keys
  have chosen := chooseMapping_run definition s
  rw [mapped] at chosen
  have ran := (bind_run_ok chosen _).symm.trans ran
  rw [IsResult.get_of_index named, bind_run, ofExcept_run] at ran
  dsimp only at ran
  -- The mapping and the name are there, so that only the state is left to fail.
  rcases bind_error_inv ran with failed | ⟨found, middle, _, rest⟩
  · unfold currentState at failed
    dsimp only [fileDeletion] at failed
    split at failed
    · have steps : Within (Steps kube fun _ => True) (checkIfResourceExists kube .stateFunction mapping definition) :=
        checkIfResourceExists_steps trivial
      obtain ⟨own, grown'⟩ := steps_extend (steps { s with log := s.log ++ [.mapped definition (.ok mapping)] })
      rw [failed] at grown'
      obtain rfl : events = [.mapped definition (.ok mapping)] ++ own := growth_split grown rfl grown'
      cases checkIfResourceExists_absent askable failed grown' absent.right
    · obtain ⟨found, read⟩ := recordedState_run path { s with log := s.log ++ [.mapped definition (.ok mapping)] }
      cases read.symm.trans failed
  · rw [bind_run_ok (handleExistingResource_run node found middle)] at rest
    cases rest

variable (kube node) in
theorem deletionRound_steps (target : String × KubernetesResourceDefinition) :
    Within (Steps kube fun _ => True) (deletionRound kube node target) := by
  apply definitionTask_within steps_offline
  · exact chooseMapping_steps _
  · intro stateFunction inside mapping
    cases inside
    exact checkIfResourceExists_steps trivial
  · intro mapping found
    refine (handleExistingResource_within steps_offline node found).bind fun _ => ?_
    exact getRuntime_within.bind fun _ => fileResourceDeleteTask_steps _ _ _ _ _ _ (fun _ => trivial) trivial fun _ => trivial

theorem deletionRound_called {found : Value} {before : State}
    (ready : beforeTask node (fileDeletion kube node) path definition s = (.ok (mapping, found), before))
    (ran : deletionRound kube node (path, definition) s = (result, s')) :
    ∃ after, fileResourceDeleteTask kube node (recursionDepth before.runtime) path mapping definition before =
      (result, after) ∧ Lessens after s' ∧ s'.log = after.log := by
  rw [deletionRound, definitionTask_behind, bind_run_ok ready, bind_run] at ran
  have task : (fileDeletion kube node).task path mapping definition before =
      fileResourceDeleteTask kube node (recursionDepth before.runtime) path mapping definition before := rfl
  dsimp only at ran
  rw [task] at ran
  generalize fileResourceDeleteTask kube node _ path mapping definition before = outcome at ran ⊢
  obtain ⟨e | _, after⟩ := outcome
  · cases ran
    exact ⟨s', rfl, Std.Refl.refl _, rfl⟩
  · have cleans : (fileDeletion kube node).cleanupRuntimeProperties = true := rfl
    have less := leftBehind_lessens path found after
    dsimp only at ran
    rw [bind_run_ok (modifyRuntime_run _ _), cleanupRound, cleans, Bool.and_true] at ran
    rw [leftBehind] at less
    split at less <;> rename_i there
    · rw [if_pos there] at ran
      cases ran
      exact ⟨after, rfl, less, rfl⟩
    · rw [if_neg there] at ran
      cases ran
      exact ⟨after, rfl, less, rfl⟩

theorem deletionRound_drains {target : String × KubernetesResourceDefinition} (askable : Askable target.2)
    (lookable : Lookable s) (ran : deletionRound kube node target s = (result, s'))
    (grown : s'.log = s.log ++ events) (absent : AllAbsent events) : Drains node result s s' := by
  have kept := beforeTask_untouched kube node target.1 target.2 s
  obtain ⟨front, before'⟩ := steps_extend (beforeTask_steps kube node target.1 target.2 s)
  generalize ready : beforeTask node (fileDeletion kube node) target.1 target.2 s = outcome at kept before'
  obtain ⟨e | ⟨mapping, found⟩, before⟩ := outcome
  · have ended : deletionRound kube node target s = (.error e, before) := by
      rw [deletionRound, definitionTask_behind, bind_run_error ready]
    cases ended.symm.trans ran
    exact absurd absent (beforeTask_absent askable ready grown)
  · obtain ⟨after, called, less, same⟩ := deletionRound_called ready ran
    obtain ⟨own, extended⟩ := fileResourceDeleteTask_enters kube node target.1 mapping target.2 before.runtime.entries before
    have called : fileResourceDeleteTask kube node (before.runtime.entries + 1) target.1 mapping target.2 before =
        (result, after) := called
    rw [called] at extended
    obtain rfl := growth_split grown before' (same.trans extended)
    have lookable' := kept.lessens.tidied.lookable lookable
    have call := fileResourceDeleteTask_absent (fileResourceDeleteTask_clears kube node target.1 before.runtime.entries)
      lookable'.toWellStored called extended fun e member => absent.right e (List.mem_cons_of_mem _ member)
    have drains := (Drains.of_lessens node kept.lessens).trans (call.drains lookable' askable)
    exact drains.lessens less

theorem deletionRounds_drain {rest : List (String × KubernetesResourceDefinition)}
    (askable : ∀ target ∈ rest, Askable target.2) (rounds : Rounds (deletionRound kube node) rest s s') :
    ∃ events, s'.log = s.log ++ events ∧ (AllAbsent events → Lookable s → Drains node (.ok ()) s s') := by
  induction rounds with
  | nil s => exact ⟨[], (List.append_nil _).symm, fun _ _ => .of_lessens node (Std.Refl.refl s)⟩
  | @cons target rest _ s middle s' ran _ ih =>
    obtain ⟨here, others⟩ := List.forall_mem_cons.mp askable
    obtain ⟨back, grown', drains'⟩ := ih others
    obtain ⟨front, grown⟩ := steps_extend (deletionRound_steps kube node target s)
    rw [ran] at grown
    refine ⟨front ++ back, by rw [grown', grown, List.append_assoc], fun absent lookable => ?_⟩
    have first := deletionRound_drains here lookable ran grown absent.left
    exact first.trans (drains' absent.right (first.tidied.lookable lookable))

end

def Drained : State → State → Prop :=
  InvImage (Prod.Lex (· < ·) (· < ·)) fun s => (s.runtime.entries, (storedDefinitions s.runtime).length)

theorem drained_wellFounded : WellFounded Drained := InvImage.wf _ (WellFounded.prod_lex wellFounded_lt wellFounded_lt)

theorem Drains.drained {node : Node} {e : Exception} {s s' : State} (drains : Drains node (.error e) s s') :
    Drained s' s := by
  rcases drains.fewer with fewer | ⟨_, redefines⟩
  · exact .left _ _ fewer
  · rcases drains.tidied.entries.lt_or_eq with fewer | same
    · exact .left _ _ fewer
    · have shorter := (redefines ⟨e, rfl⟩).fewer
      simp only [Drained, InvImage, same]
      exact .right _ shorter

namespace FileDeletion

variable {kube : Kubernetes} {node : Node} {ctx : OperationContext} {deletion : FileDeletion} {s s' : State}

theorem run_drains (given : deletion ≠ .files []) (askable : ∀ target ∈ deletion.targets node, Askable target.2)
    {result : Except Exception Unit} (ran : deletion.operation.run kube node ctx s = (result, s')) :
    ∃ events, s'.log = s.log ++ events ∧ (AllAbsent events → Lookable s → Drains node result s s') := by
  cases result with
  | ok value => exact deletionRounds_drain askable (deletion.run_returned ran)
  | error e =>
    obtain ⟨target, middle, e', ⟨front, back, split, rounds⟩, failed⟩ := run_failed_at given ran
    rw [split] at askable
    obtain ⟨events, grown, drains⟩ := deletionRounds_drain
      (fun target member => askable target (List.mem_append_left _ member)) rounds
    obtain ⟨later, grown'⟩ := steps_extend (deletionRound_steps kube node target middle)
    rw [failed] at grown'
    refine ⟨events ++ later, by rw [grown', grown, List.append_assoc], fun absent lookable => ?_⟩
    have first := drains absent.left lookable
    have last := deletionRound_drains (askable target (by simp)) (first.tidied.lookable lookable) failed grown' absent.right
    have whole := first.trans last
    exact ⟨whole.tidied, whole.fewer.imp_right fun ⟨shorter, redefines⟩ => ⟨shorter, fun _ => redefines ⟨e', rfl⟩⟩⟩

def Through (deletion : FileDeletion) (kube : Kubernetes) (node : Node) (ctx : OperationContext) (s : State) : Prop :=
  (deletion.operation.run kube node ctx s).1 = .ok () ∨
    ∃ e ∈ (deletion.operation.run kube node ctx s).2.log.drop s.log.length, ¬ e.Absent

variable (deletion) in
theorem behind_before (options : Dict) (contexts : Nat → OperationContext) (n : Nat) :
    behind (fun n s => { (deletion.operation.run kube node (contexts n) s).2 with options }) { s with options } n =
      deletion.before kube node options ((List.range n).map contexts) s := by
  induction n with
  | zero => rfl
  | succ n ih =>
    rw [List.range_succ, List.map_append, List.map_singleton, before_concat, ← ih]
    rfl

theorem through_or_drained (given : deletion ≠ .files []) (askable : ∀ target ∈ deletion.targets node, Askable target.2)
    (options : Dict) (ctx : OperationContext) (lookable : Lookable s) :
    deletion.Through kube node ctx s ∨
      Lookable { (deletion.operation.run kube node ctx s).2 with options } ∧
      Drained { (deletion.operation.run kube node ctx s).2 with options } s ∧
      (node.allowNodeRedefinition = false →
        (deletion.operation.run kube node ctx s).2.runtime.entries < s.runtime.entries) := by
  generalize ran : deletion.operation.run kube node ctx s = outcome
  obtain ⟨result, s'⟩ := outcome
  obtain ⟨events, grown, drains⟩ := run_drains given askable ran
  by_cases absent : AllAbsent events
  · cases result with
    | ok value => exact .inl (.inl (congrArg Prod.fst ran))
    | error e =>
      have drains := drains absent lookable
      have kept := drains.tidied.lookable lookable
      refine .inr ⟨⟨⟨kept.records, kept.plain⟩, kept.stems⟩, drains.drained, fun fixed => ?_⟩
      rcases drains.fewer with fewer | ⟨_, redefines⟩
      · exact fewer
      · cases fixed.symm.trans (redefines ⟨e, rfl⟩).allowed
  · unfold AllAbsent at absent
    push Not at absent
    obtain ⟨e, member, present⟩ := absent
    refine .inl (.inr ⟨e, ?_, present⟩)
    rw [ran, grown, List.drop_left]
    exact member

end FileDeletion

/-- Retried for as long as it fails, the deletion of the files of a node comes to an attempt that
    returns, or that is told of a resource that is still there. On a node that does not take stored
    definitions in the place of its own, no more attempts fail before than there are records. -/
theorem deletion_ends {kube : Kubernetes} {node : Node} (options : Dict) {deletion : FileDeletion}
    (given : deletion ≠ .files []) (contexts : Nat → OperationContext) {s : State}
    (filed : Filed (deletion.targets node) s)
    (stems : ∀ target ∈ deletion.targets node, ∃ stem, fileStem target.1 = .ok stem)
    (askable : ∀ target ∈ deletion.targets node, Askable target.2) :
    ∃ n, (node.allowNodeRedefinition = false → n ≤ s.runtime.entries) ∧
      deletion.Through kube node (contexts n) (deletion.before kube node options ((List.range n).map contexts) s) := by
  have lookable : Lookable { s with options } := by
    refine ⟨⟨filed.wellStored.records, filed.wellStored.plain⟩, fun path v there => ?_⟩
    obtain ⟨inside, _⟩ := filed.records path v there
    obtain ⟨target, member, rfl⟩ := List.mem_map.mp inside
    exact stems target member
  obtain ⟨n, early, through⟩ := exists_through drained_wellFounded Lookable (node.allowNodeRedefinition = false)
    (fun s => s.runtime.entries) (fun n s => { (deletion.operation.run kube node (contexts n) s).2 with options })
    (fun n => deletion.Through kube node (contexts n))
    (fun n s lookable => FileDeletion.through_or_drained given askable options (contexts n) lookable) lookable
  refine ⟨n, early, ?_⟩
  rwa [FileDeletion.behind_before] at through

open Package

theorem askable_configMap {name : String} : Askable (configMap name none) := by
  have known : getMapping "ConfigMap" = .ok configMapMapping := by decide +kernel
  exact ⟨⟨configMapMapping, known⟩, ⟨_, rfl⟩, ⟨.str name, rfl⟩⟩

def settingsFile : List (String × List KubernetesResourceDefinition) :=
  [("settings.yaml", [configMap "settings" none, configMap "limits" none])]

/-- Both are recorded, and the server has nothing: the first attempt is retried. -/
theorem deletion_ends_settings :
    ((FileDeletion.files settingsFile).operation.run nothing ownNode install
      ((FileDeletion.files settingsFile).before nothing ownNode mainNamespace.options []
        (createdBy losing settingsFile))).1 ≠ .ok () ∧
    ∃ n ≤ 2, (FileDeletion.files settingsFile).Through nothing ownNode install
      ((FileDeletion.files settingsFile).before nothing ownNode mainNamespace.options
        ((List.range n).map fun _ => install) (createdBy losing settingsFile)) := by
  have created : returning (fun _ s => s.log.all Event.answersResult && s.runtime.entries == 2)
      (multipleFileResourceCreate losing ownNode settingsFile mainNamespace) = true := by decide +kernel
  obtain ⟨_, filed, entries⟩ := createdBy_filed (by decide +kernel) created
  have filed : Filed ((FileDeletion.files settingsFile).targets ownNode) (createdBy losing settingsFile) := filed
  have retried : returning (fun _ _ => true) ((FileDeletion.files settingsFile).operation.run nothing ownNode install
      ((FileDeletion.files settingsFile).before nothing ownNode mainNamespace.options []
        (createdBy losing settingsFile))) = false := by decide +kernel
  have listed : (FileDeletion.files settingsFile).targets ownNode =
      [("settings.yaml#0", configMap "settings" none), ("settings.yaml#1", configMap "limits" none)] := rfl
  obtain ⟨n, early, through⟩ := @deletion_ends nothing ownNode mainNamespace.options (.files settingsFile)
    (fun same => by cases same) (fun _ => install) _ filed
    (by
      rw [listed, List.forall_mem_cons, List.forall_mem_singleton]
      exact ⟨⟨"settings", by decide +kernel⟩, ⟨"settings", by decide +kernel⟩⟩)
    (by
      rw [listed, List.forall_mem_cons, List.forall_mem_singleton]
      exact ⟨askable_configMap, askable_configMap⟩)
  refine ⟨fun returned => ?_, n, ?_, through⟩
  · rw [Bool.eq_false_iff] at retried
    exact retried (returning_of_ok returned)
  · rw [← beq_iff_eq.mp entries]
    exact early rfl

end CloudifyKubernetes
