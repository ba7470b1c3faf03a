import CloudifyKubernetes.Restoration

namespace CloudifyKubernetes

open Collections Effects Program

def Event.Misses (i : Identity) : Event → Prop
  | .returned call (.error e) => e.NotFound ∧ call.mapping.suits call.definition = true ∧
      Identity.ofDefinition call.definition = .ok i
  | _ => False

def Missed (i : Identity) (events : List Event) : Prop := ∃ e ∈ events, e.Misses i

def Event.returned? : Event → Option (Except Exception Value)
  | .returned _ result => some result
  | _ => none

def firstAnswer (events : List Event) : Option (Except Exception Value) := events.findSome? Event.returned?

def Unanswered (events : List Event) : Prop := ∀ e ∈ events, e.returned? = none

theorem firstAnswer_append {front : List Event} (unanswered : Unanswered front) (events : List Event) :
    firstAnswer (front ++ events) = firstAnswer events := by
  have none : front.findSome? Event.returned? = none := List.findSome?_eq_none_iff.mpr unanswered
  rw [firstAnswer, List.findSome?_append, none]
  rfl

theorem CallEvents.firstAnswer {c : ClientCall} {result : Except Exception Value} {events : List Event}
    (call : CallEvents c result events) (later : List Event) :
    firstAnswer (events ++ later) = some result := by
  obtain ⟨sent, rfl, requests⟩ := call
  have unanswered : Unanswered (.called c :: sent) := by
    intro e member
    rcases List.mem_cons.mp member with rfl | member
    · rfl
    · obtain ⟨request, answer, rfl⟩ := requests e member
      rfl
  have split : Event.called c :: (sent ++ [.returned c result]) ++ later =
      (.called c :: sent) ++ (.returned c result :: later) := by simp
  rw [split, firstAnswer_append unanswered]
  rfl

def takenAt (path : String) (runtime : RuntimeProperties) : Option LastCreatePath :=
  match (lookupRecord path runtime).1 with
  | .ok (found, _, _) => some found
  | .error _ => none

def leftBy (path : String) (runtime : RuntimeProperties) : Dict := recordedFiles (lookupRecord path runtime).2

def ReadMisses (events : List Event) : Prop := ∃ e, firstAnswer events = some (.error e) ∧ e.NotFound

/-- The calls that a deletion makes of itself each find their resource missing, and nothing next to it. -/
def InnerMisses (events : List Event) : Prop :=
  ∀ front path mapping definition runtime rest, events = front ++ .entered path mapping definition runtime :: rest →
    (∀ found, takenAt path runtime = some found → found.adjacent = []) ∧ ReadMisses rest

def SaysMissing (events : List Event) : Prop :=
  ∃ e, firstAnswer events = some (.error e) ∧ Text.contains e.text "(404)" = true

def LastCreatePath.Names (found : LastCreatePath) (i : Identity) : Prop :=
  Identity.ofDict found.resource = .ok i ∨ ∃ e ∈ found.adjacent, Identity.ofDict e.2 = .ok i

/-- What has been taken for a call of the deletion goes back or is not missed: its read and its deletion
    are answered and no release fails, or each of it is answered 404 or recorded elsewhere, or its read is
    answered 404 and every call for an adjacent record finds nothing. -/
inductive GoesBack (node : Node) (found : LastCreatePath) (left : Dict) (events : List Event) : Prop
  | answered (owned : node.useExternalResource = false) (read : ∃ response, firstAnswer events = some (.ok response))
      (deleted : ∃ e ∈ events, e.deleted = true) (released : ∀ e ∈ events, e.unreleased = false)
  | spared (found' : ¬ SaysMissing events) (each : ∀ i, found.Names i → Missed i events ∨ Records left i)
  | continued (missed : ReadMisses events) (inner : InnerMisses events)

/-- When a deletion that fails loses no record: what it has taken goes back or is not missed, and it
    does not put anything back without a path. -/
structure Restores (node : Node) (path : String) (runtime : RuntimeProperties) (events : List Event) : Prop where
  named : path = "" → ∀ e ∈ events, e.deleted = false
  taken : ∀ found, takenAt path runtime = some found →
    GoesBack node found (leftBy path runtime) events

section

variable {kube : Kubernetes} {node : Node} {path : String} {mapping : KubernetesApiMapping}
  {definition : KubernetesResourceDefinition}

theorem retrieveLastCreatePath_lessens (path : String) : Within Lessens (retrieveLastCreatePath path true) := by
  intro s
  refine ⟨retrieveLastCreatePath_shrinks path true s, fun other v found => ?_⟩
  generalize ran : retrieveLastCreatePath path true s = whole at found
  obtain ⟨result, s'⟩ := whole
  by_cases taken : ∃ found, result = .ok found ∧ found.resource.truthy = true
  · obtain ⟨taken, rfl, truthy⟩ := taken
    have left := (retrieveLastCreatePath_took ran truthy).left other
    rw [left] at found
    split at found
    · cases found
    · exact found
  · rw [retrieveLastCreatePath_untaken ran] at found
    · exact found
    · intro found same
      by_contra truthy
      exact taken ⟨found, same, by simpa using truthy⟩

theorem recordedResource_lessens (path : String) : Within Lessens (recordedResource path) :=
  (retrieveLastCreatePath_lessens path).bind fun _ => (Within.ofExcept _).bind fun _ =>
    (Within.ofExcept _).bind fun _ => .pure _

theorem getPathWithAdjacentResources_lessens :
    Within Lessens (getPathWithAdjacentResources node path mapping definition) := by
  refine (recordedResource_lessens path).attempt.bind fun result => ?_
  cases result with
  | error e =>
    dsimp only
    split
    · exact ((retrieveStoredResource_forgets _ _ _ _).mono fun _ _ forgets => forgets.lessens).bind fun _ => .pure _
    · exact .raise _
  | ok found =>
    refine (Within.ofExcept _).bind fun version => ?_
    split
    · exact (Within.ofExcept _).bind fun _ => (Within.ofExcept _).bind fun _ => .pure _
    · exact .raise _

theorem takenAt_took {runtime : RuntimeProperties} {found : LastCreatePath}
    (taken : takenAt path runtime = some found) : Took path (recordedFiles runtime) found (leftBy path runtime) := by
  unfold takenAt at taken
  rw [leftBy]
  generalize looked : lookupRecord path runtime = lookup at taken
  obtain ⟨e | ⟨found', kind, metadata⟩, runtime'⟩ := lookup
  · cases taken
  · cases taken
    exact (lookupRecord_took looked).1

theorem leftBy_untaken {s : State} (stored : WellStored s) (untaken : takenAt path s.runtime = none) :
    leftBy path s.runtime = recordedFiles s.runtime := by
  unfold takenAt at untaken
  rw [leftBy]
  generalize looked : lookupRecord path s.runtime = lookup at untaken
  obtain ⟨e | ⟨found, kind, metadata⟩, runtime⟩ := lookup
  · exact (lookupRecord_untaken (fun path v found => (stored.records path v found).2) looked).1
  · cases untaken

/-- How the lookup of a call ends: it fails, it goes on without a record, or with one. -/
inductive LookupEnds (path : String) (s : State) :
    Except Exception (List (String × Value) × KubernetesResourceDefinition × KubernetesApiMapping) × State → Prop
  | failed (e : Exception) (s' : State) (left : recordedFiles s'.runtime = leftBy path s.runtime) :
      LookupEnds path s (.error e, s')
  | unresolved (chosen : KubernetesResourceDefinition × KubernetesApiMapping) (s' : State)
      (untaken : takenAt path s.runtime = none) (free : (recordedFiles s.runtime).get? path = none)
      (files : recordedFiles s'.runtime = recordedFiles s.runtime) : LookupEnds path s (.ok ([], chosen), s')
  | taken (found : LastCreatePath) (definition : KubernetesResourceDefinition) (mapping : KubernetesApiMapping)
      (s' : State) (taken : takenAt path s.runtime = some found) (left : recordedFiles s'.runtime = leftBy path s.runtime)
      (made : MadeOf found.resource definition) (suits : mapping.suits definition = true)
      (chosen : mappingByKind [] definition = .ok mapping) :
      LookupEnds path s (.ok (found.adjacent, definition, mapping), s')

theorem getPathWithAdjacentResources_ends {s : State} (stored : WellStored s) :
    LookupEnds path s (getPathWithAdjacentResources node path mapping definition s) := by
  rw [getPathWithAdjacentResources_run]
  have untaken := @leftBy_untaken path s stored
  have took := @takenAt_took path s.runtime
  generalize looked : lookupRecord path s.runtime = lookup
  obtain ⟨e | ⟨found, kind, metadata⟩, runtime⟩ := lookup
  · have none : takenAt path s.runtime = none := by rw [takenAt, looked]
    have files : recordedFiles runtime = leftBy path s.runtime := by rw [leftBy, looked]
    dsimp only
    cases unresolved : e.unresolved with
    | false => exact .failed e _ files
    | true =>
      simp only [if_true]
      rw [bind_run]
      have forgets := retrieveStoredResource_forgets node definition mapping true { s with runtime }
      generalize retrieveStoredResource node definition mapping true { s with runtime } = ran at forgets ⊢
      have files' : recordedFiles ran.2.runtime = leftBy path s.runtime := forgets.files.trans files
      have free := (lookupRecord_untaken (fun path v found => (stored.records path v found).2) looked).2 unresolved
      obtain ⟨e' | chosen, s'⟩ := ran
      · exact .failed e' s' files'
      · exact .unresolved chosen s' none free (files'.trans (untaken none))
  · have taken : takenAt path s.runtime = some found := by rw [takenAt, looked]
    have files : recordedFiles runtime = leftBy path s.runtime := by rw [leftBy, looked]
    obtain ⟨_, kinded, described⟩ := lookupRecord_took looked
    obtain ⟨_, _, _, _, is⟩ := stored.records _ _ (took taken).entry
    dsimp only
    cases made : rebuilt found kind metadata with
    | error e => exact .failed e _ files
    | ok chosen =>
      obtain ⟨adjacent, definition', mapping'⟩ := chosen
      obtain ⟨rfl, made', suits⟩ := rebuilt_madeOf is kinded described made
      exact .taken found definition' mapping' _ taken files made' suits (rebuilt_ok made).2.1

/-- A lookup that takes nothing decides between the given definition and a stored one. -/
theorem getPathWithAdjacentResources_decided {s s' : State} {adjacent : List (String × Value)}
    {definition' : KubernetesResourceDefinition} {mapping' : KubernetesApiMapping}
    (untaken : takenAt path s.runtime = none)
    (ran : getPathWithAdjacentResources node path mapping definition s = (.ok (adjacent, definition', mapping'), s')) :
    ∃ runtime, (storedDefinitions runtime).Sublist (storedDefinitions s.runtime) ∧
      decided node definition runtime = .ok definition' := by
  have less := recordedResource_lessens path s
  rw [recordedResource_run] at less
  rw [getPathWithAdjacentResources_run] at ran
  unfold takenAt at untaken
  generalize lookupRecord path s.runtime = lookup at untaken less ran
  obtain ⟨e | ⟨found, kind, metadata⟩, runtime⟩ := lookup
  · dsimp only at ran
    split at ran
    · obtain ⟨chosen, middle, retrieved, ended⟩ := bind_ok_inv ran
      cases ended
      exact ⟨runtime, less.definitions, (retrieveStoredResource_ok retrieved).1⟩
    · cases ran
  · cases untaken

theorem ofStored_madeOf {v : Value} {d : KubernetesResourceDefinition} (stored : v.IsStored)
    (made : KubernetesResourceDefinition.ofStored v = .ok d) : MadeOf v d := by
  obtain ⟨kind, version, fields, rfl, given, result, is⟩ := stored
  have stored := is.storedForm given
  have form : storedForm kind version fields = .dict [("kind", .str kind), ("apiVersion", version.clean),
      ("metadata", .dict (Value.cleanEntries fields))] := by
    simp only [storedForm, Value.clean, Value.cleanEntries]
  have plain := KubernetesResourceDefinition.ofParts_str kind stored.given
    (show (Value.dict (Value.cleanEntries fields)).isNone = false from rfl)
  rw [KubernetesResourceDefinition.shortKind_of_plain is.plain] at plain
  rw [form] at made
  obtain rfl := Except.ok.inj (plain.symm.trans made)
  exact ⟨kind, version.clean, Value.cleanEntries fields, rfl, stored.given, _, stored⟩

theorem decided_storable {runtime : RuntimeProperties} {definition' : KubernetesResourceDefinition}
    (stored : ∀ v ∈ storedDefinitions runtime, v.IsStored) (storable : definition.Storable)
    (chosen : decided node definition runtime = .ok definition') : definition'.Storable := by
  unfold decided at chosen
  split at chosen
  · rename_i replaced
    exact (ofStored_madeOf (stored _ (List.mem_of_getLast? (lastStored_of_replaces replaced))) chosen).cleanup.1
  · cases chosen
    exact storable

theorem getPathWithAdjacentResources_unanswered (s : State) :
    ∃ events, (getPathWithAdjacentResources node path mapping definition s).2.log = s.log ++ events ∧
      Unanswered events := by
  obtain ⟨⟨events, grown, mapped⟩, _⟩ := @getPathWithAdjacentResources_paired node path mapping definition s
  refine ⟨events, grown, fun e member => ?_⟩
  obtain ⟨d, result, rfl⟩ := mapped e member
  rfl

variable (kube mapping definition) in
theorem readWhileAdjacentResources_cases (s : State) :
    (∃ e, readWhileAdjacentResources kube mapping definition s = (.error e, s)) ∨
      ∃ result options events, CallEvents ⟨.read .task, mapping, definition⟩ result events ∧
        readWhileAdjacentResources kube mapping definition s = (readOutcome (result >>= jsonCleanuper),
          { s with options, log := s.log ++ .edited definition :: events }) := by
  rw [readWhileAdjacentResources_run]
  have run := doResourceRead_run kube .task mapping definition s
  generalize doResourceRead kube .task mapping definition s = ran at run ⊢
  cases run with
  | malformed e failed =>
    have cls := customAnnotations_error failed
    refine .inl ⟨e, ?_⟩
    simp [readOutcome, Exception.isA, cls, ExceptionClass.isSubclass]
  | called result options events readable call => exact .inr ⟨result, options, events, call, rfl⟩

theorem Untouched.restocks {s s' : State} (kept : Untouched s s') : Restocks s s' :=
  fun _ member => .inl (kept.definitions ▸ member)

/-- A deletion that has taken nothing leaves the path map as it is, or puts its definition there. -/
theorem deleteWithAdjacentResources_untaken
    {delete : KubernetesApiMapping → KubernetesResourceDefinition → Task Unit} {s s' : State} {e : Exception}
    {events : List Event} (plain : ∀ v ∈ storedDefinitions s.runtime, v.IsPlain)
    (ran : deleteWithAdjacentResources kube node delete path [] definition mapping s = (.error e, s'))
    (grown : s'.log = s.log ++ events) :
    (recordedFiles s'.runtime = recordedFiles s.runtime ∨ (∃ x ∈ events, x.deleted = true) ∧
      recordedFiles s'.runtime = recordFile path definition.cleanup (recordedFiles s.runtime)) ∧
      (definition.Storable → Restocks s s') := by
  have read := readWhileAdjacentResources_cases kube mapping definition s
  rcases bind_error_inv ran with failed | ⟨outcome, middle, first, ran⟩
  · rcases read with ⟨e', same⟩ | ⟨result, options, front, _, same⟩ <;>
    · rw [same] at failed
      obtain ⟨_, rfl⟩ := Prod.mk.inj failed
      exact ⟨.inl rfl, fun _ _ member => .inl member⟩
  obtain ⟨kept, front, grown'⟩ : Untouched s middle ∧ ∃ front, middle.log = s.log ++ front := by
    rcases read with ⟨e', same⟩ | ⟨result, options, front, _, same⟩
    · cases same.symm.trans first
    · rw [same] at first
      obtain ⟨_, rfl⟩ := Prod.mk.inj first
      exact ⟨⟨rfl, rfl⟩, _, rfl⟩
  cases outcome with
  | some e' =>
    dsimp only at ran
    split at ran
    · cases ran
    · cases ran
      exact ⟨.inl kept.files, fun _ => kept.restocks⟩
  | none =>
    have ends : DeletionEnds node path definition [] middle
        (deleteWhileAdjacentResources kube node path mapping definition [] middle) :=
      deleteWhileAdjacentResources_ends (by simp) (.inl rfl) (kept.definitions ▸ plain)
    rcases bind_error_inv ran with failed | ⟨result, last, deleted, rest⟩
    · rw [failed] at ends
      cases ends with
      | failed _ _ kept' _ _ _ =>
        exact ⟨.inl (kept'.files.trans kept.files), fun _ => (IsTrans.trans _ _ _ kept kept').restocks⟩
    rw [deleted] at ends
    cases ends with
    | external _ kept' _ _ _ => cases rest
    | retried text _ back grown'' answered _ files restocks =>
      have raised : (.error ⟨.operationRetry, text⟩, last) = ((.error e, s') : Except Exception Unit × State) := rest
      obtain ⟨_, rfl⟩ := Prod.mk.inj raised
      obtain ⟨x, member, told⟩ := answered
      have whole : events = front ++ back := growth_split grown grown' grown''
      refine ⟨.inr ⟨⟨x, whole ▸ List.mem_append_right _ member, told⟩, ?_⟩,
        fun storable => IsTrans.trans _ _ _ kept.restocks (restocks storable)⟩
      rw [files, kept.files]
      rfl

theorem fileResourceDeleteTask_succ (depth : Nat) (s : State) :
    fileResourceDeleteTask kube node (depth + 1) path mapping definition s =
      (getPathWithAdjacentResources node path mapping definition >>= fun chosen =>
        deleteWithAdjacentResources kube node (fileResourceDeleteTask kube node depth path) path chosen.1 chosen.2.1
          chosen.2.2) { s with log := s.log ++ [.entered path mapping definition s.runtime] } := rfl

theorem ReadMisses.answer {events : List Event} {result : Except Exception Value} (misses : ReadMisses events)
    (first : firstAnswer events = some result) : ∃ e, result = .error e ∧ e.NotFound := by
  obtain ⟨e, answer, gone⟩ := misses
  exact ⟨e, Option.some.inj (first.symm.trans answer), gone⟩

theorem not_readMisses {events : List Event} (unanswered : Unanswered events) : ¬ ReadMisses events := by
  rintro ⟨e, answer, _⟩
  have none : firstAnswer events = none := List.findSome?_eq_none_iff.mpr unanswered
  cases none.symm.trans answer

theorem LookupEnds.spares {s s' : State} {adjacent : List (String × Value)}
    {chosen : KubernetesResourceDefinition × KubernetesApiMapping}
    (ends : LookupEnds path s (.ok (adjacent, chosen), s'))
    (alone : ∀ found, takenAt path s.runtime = some found → found.adjacent = []) :
    adjacent = [] ∧ ∀ i, Records (recordedFiles s.runtime) i → Records (recordedFiles s'.runtime) i ∨
      chosen.2.suits chosen.1 = true ∧ Identity.ofDefinition chosen.1 = .ok i := by
  cases ends with
  | unresolved _ _ untaken free files => exact ⟨rfl, fun i recorded => .inl (files ▸ recorded)⟩
  | taken found _ _ _ taken left made suits _ =>
    refine ⟨alone found taken, ?_⟩
    rintro i ⟨key, v, here, named⟩
    rw [left]
    rcases (takenAt_took taken).cases here with ⟨_, rfl⟩ | inside | left
    · exact .inr ⟨suits, made.identity.trans named⟩
    · rw [alone found taken] at inside
      cases inside
    · exact .inl ⟨key, v, left, named⟩

theorem deleteWithAdjacentResources_extends (node : Node) (depth : Nat) (path : String)
    (adjacent : List (String × Value)) {s middle : State} {outcome : Except Exception (Option Exception)}
    (read : readWhileAdjacentResources kube mapping definition s = (outcome, middle)) :
    ∃ events, (deleteWithAdjacentResources kube node (fileResourceDeleteTask kube node depth path) path adjacent
      definition mapping s).2.log = middle.log ++ events := by
  have steps (mapping : KubernetesApiMapping) (definition : KubernetesResourceDefinition) :
      Within (Steps kube fun _ => True) (fileResourceDeleteTask kube node depth path mapping definition) :=
    fileResourceDeleteTask_steps _ _ _ _ _ _ (fun _ => trivial) trivial fun _ => trivial
  have deletion : Within (Steps kube fun _ => True)
      (deleteWhileAdjacentResources kube node path mapping definition adjacent) :=
    deleteWhileAdjacentResources_within steps_offline _ _ _
      (fun _ => doResourceDelete_steps _ _ trivial trivial)
      (preparePvcDelete_within fun _ => doResourceUpdate_steps trivial)
  obtain ⟨rest, whole, follows⟩ := deleteWithAdjacentResources_rest steps_offline node path steps adjacent deletion
  rw [whole, bind_run, read]
  cases outcome with
  | error e => exact ⟨[], (List.append_nil _).symm⟩
  | ok value => exact steps_extend (follows value middle)

theorem innerCall_misses {depth : Nat} {s s' : State} {result : Except Exception Unit} {events later : List Event}
    (stored : WellStored s)
    (ran : fileResourceDeleteTask kube node (depth + 1) path mapping definition s = (result, s'))
    (grown : s'.log = s.log ++ events) (ends : ∀ e, result = .error e → later = [])
    (misses : InnerMisses (events ++ later)) :
    result = .ok () ∧ Lessens s s' ∧ ∀ i, Records (recordedFiles s.runtime) i →
      Records (recordedFiles s'.runtime) i ∨ Missed i events := by
  rw [fileResourceDeleteTask_succ] at ran
  have entered : Lessens s { s with log := s.log ++ [.entered path mapping definition s.runtime] } :=
    ⟨.refl _, fun _ _ found => found⟩
  have stored := entered.wellStored stored
  have lookup := @getPathWithAdjacentResources_ends node path mapping definition _ stored
  have less : Lessens _ _ := @getPathWithAdjacentResources_lessens node path mapping definition
    { s with log := s.log ++ [.entered path mapping definition s.runtime] }
  obtain ⟨choices, grown', unanswered⟩ := @getPathWithAdjacentResources_unanswered node path mapping definition
    { s with log := s.log ++ [.entered path mapping definition s.runtime] }
  rw [bind_run] at ran
  generalize getPathWithAdjacentResources node path mapping definition _ = looked at lookup less grown' ran
  obtain ⟨e | ⟨adjacent, definition', mapping'⟩, s₂⟩ := looked
  · cases ran
    have whole : events = [.entered path mapping definition s.runtime] ++ choices := growth_split grown rfl grown'
    have missed := (misses [] path mapping definition s.runtime (choices ++ later) (by rw [whole]; rfl)).2
    rw [ends e rfl, List.append_nil] at missed
    exact absurd missed (not_readMisses unanswered)
  · have less : Lessens s s₂ := IsTrans.trans _ _ _ entered less
    have ran : deleteWithAdjacentResources kube node (fileResourceDeleteTask kube node depth path) path adjacent
        definition' mapping' s₂ = (result, s') := ran
    rcases readWhileAdjacentResources_cases kube mapping' definition' s₂ with
      ⟨e, read⟩ | ⟨answer, options, front, call, read⟩
    · have ended : (result, s') = (.error e, s₂) := ran.symm.trans (bind_run_error read _)
      obtain ⟨rfl, rfl⟩ := Prod.mk.inj ended
      have whole : events = [.entered path mapping definition s.runtime] ++ choices := growth_split grown rfl grown'
      have missed := (misses [] path mapping definition s.runtime (choices ++ later) (by rw [whole]; rfl)).2
      rw [ends e rfl, List.append_nil] at missed
      exact absurd missed (not_readMisses unanswered)
    · obtain ⟨back, extended⟩ := deleteWithAdjacentResources_extends node depth path adjacent read
      rw [ran] at extended
      have whole : events = [.entered path mapping definition s.runtime] ++
          (choices ++ (.edited definition' :: (front ++ back))) := by
        apply growth_split grown rfl
        rw [extended, grown', List.append_assoc, List.append_assoc]
        rfl
      obtain ⟨alone, missed⟩ := misses [] path mapping definition s.runtime
        (choices ++ (.edited definition' :: (front ++ back)) ++ later) (by rw [whole]; rfl)
      have first : firstAnswer (choices ++ (.edited definition' :: (front ++ back)) ++ later) = some answer := by
        rw [List.append_assoc, firstAnswer_append unanswered]
        change firstAnswer (front ++ back ++ later) = _
        rw [List.append_assoc, call.firstAnswer]
      obtain ⟨e, rfl, gone⟩ := missed.answer first
      obtain ⟨rfl, spares⟩ := lookup.spares alone
      have outcome : readOutcome ((Except.error e : Except Exception Value) >>= jsonCleanuper) =
          .ok (some ⟨.missingResource, e.text⟩) := gone.readOutcome
      rw [outcome] at read
      have ended : (result, s') = (.ok (), { s₂ with options, log := s₂.log ++ .edited definition' :: front }) :=
        ran.symm.trans (bind_run_ok read _)
      obtain ⟨rfl, rfl⟩ := Prod.mk.inj ended
      refine ⟨rfl, ⟨less.definitions, less.files⟩, fun i recorded => ?_⟩
      rcases spares i recorded with left | ⟨suits, named⟩
      · exact .inl left
      · refine .inr ⟨.returned ⟨.read .task, mapping', definition'⟩ (.error e), ?_, gone, suits, named⟩
        rw [whole]
        simp [call.returned_mem]

def adjacentRound (delete : KubernetesApiMapping → KubernetesResourceDefinition → Task Unit)
    (definition : KubernetesResourceDefinition) (entry : String × Value) : Task Unit := do
  match ← Program.ofExcept (adjacentDefinition entry.2) with
  | none => return ()
  | some inner =>
    let innerMapping ← Program.ofExcept (mappingByKind [] definition)
    delete innerMapping inner

theorem adjacentDefinition_result {v version : Value} {kind : String} {fields : List (String × Value)}
    (is : IsResult v kind version fields) : ∃ inner, adjacentDefinition v = .ok inner := by
  obtain ⟨w, versioned⟩ : ∃ w, v.get "api_version" .none = .ok w := by
    obtain ⟨camel, _, given⟩ := ok_of_bind is.versioned
    cases v with
    | dict entries => exact ⟨_, rfl⟩
    | _ => cases given
  simp only [adjacentDefinition, IsResult.get_of_index is.kinded, IsResult.get_of_index is.described, versioned, bind,
    Except.bind]
  split
  · rename_i truthy
    have given : w.isNone = false := by
      cases w <;> first | rfl | simp [Value.truthy] at truthy
    rw [KubernetesResourceDefinition.ofParts_str kind given (show (Value.dict fields).isNone = false from rfl)]
    exact ⟨_, rfl⟩
  · exact ⟨none, rfl⟩

theorem adjacentRound_result {delete : KubernetesApiMapping → KubernetesResourceDefinition → Task Unit}
    {entry : String × Value} {version : Value} {kind : String} {fields : List (String × Value)}
    (is : IsResult entry.2 kind version fields) (chosen : mappingByKind [] definition = .ok mapping) (s : State) :
    adjacentRound delete definition entry s = (.ok (), s) ∨
      ∃ inner, adjacentRound delete definition entry s = delete mapping inner s := by
  obtain ⟨found, made⟩ := adjacentDefinition_result is
  rw [adjacentRound, bind_run, ofExcept_run, made]
  cases found with
  | none => exact .inl rfl
  | some inner =>
    refine .inr ⟨inner, ?_⟩
    dsimp only
    rw [bind_run, ofExcept_run, chosen]

variable (kube node path definition) in
theorem adjacentRound_steps (depth : Nat) (entry : String × Value) : Within (Steps kube fun _ => True)
    (adjacentRound (fileResourceDeleteTask kube node (depth + 1) path) definition entry) := by
  refine (Within.ofExcept _).bind fun found => ?_
  cases found with
  | none => exact .pure _
  | some inner =>
    exact (Within.ofExcept _).bind fun _ =>
      fileResourceDeleteTask_steps _ _ _ _ _ _ (fun _ => trivial) trivial fun _ => trivial

variable (kube node path definition) in
theorem adjacentRounds_steps (depth : Nat) (adjacent : List (String × Value)) : Within (Steps kube fun _ => True)
    (forEach adjacent (adjacentRound (fileResourceDeleteTask kube node (depth + 1) path) definition)) :=
  Within.forEach fun entry _ => adjacentRound_steps kube node path definition depth entry

theorem InnerMisses.drop (front : List Event) {back later : List Event}
    (misses : InnerMisses (front ++ back ++ later)) : InnerMisses (back ++ later) := by
  intro before path mapping definition runtime rest split
  refine misses (front ++ before) path mapping definition runtime rest ?_
  rw [List.append_assoc, split, List.append_assoc]

theorem innerCalls_miss {depth : Nat} {adjacent : List (String × Value)}
    (results : ∀ e ∈ adjacent, e.1 ≠ "" ∧ ∃ kind version fields, IsResult e.2 kind version fields)
    (chosen : mappingByKind [] definition = .ok mapping) {s s' : State} {result : Except Exception (List Unit)}
    {events later : List Event} (stored : WellStored s)
    (ran : forEach adjacent (adjacentRound (fileResourceDeleteTask kube node (depth + 1) path) definition) s =
      (result, s')) (grown : s'.log = s.log ++ events) (ends : ∀ e, result = .error e → later = [])
    (misses : InnerMisses (events ++ later)) :
    (∃ done, result = .ok done) ∧ Lessens s s' ∧ ∀ i, Records (recordedFiles s.runtime) i →
      Records (recordedFiles s'.runtime) i ∨ Missed i events := by
  induction adjacent generalizing s result events with
  | nil =>
    cases ran
    exact ⟨⟨[], rfl⟩, Std.Refl.refl _, fun i recorded => .inl recorded⟩
  | cons entry rest ih =>
    obtain ⟨⟨_, _, _, _, is⟩, others⟩ := List.forall_mem_cons.mp results
    rw [forEach, bind_run] at ran
    generalize first : adjacentRound (fileResourceDeleteTask kube node (depth + 1) path) definition entry s = round
      at ran
    obtain ⟨outcome, middle⟩ := round
    -- What the round does, given the events that follow.
    have round (front later : List Event) (grown : middle.log = s.log ++ front)
        (ends : ∀ e, outcome = .error e → later = []) (misses : InnerMisses (front ++ later)) :
        outcome = .ok () ∧ Lessens s middle ∧ ∀ i, Records (recordedFiles s.runtime) i →
          Records (recordedFiles middle.runtime) i ∨ Missed i front := by
      rcases adjacentRound_result is chosen s with same | ⟨inner, same⟩
      · rw [same] at first
        cases first
        exact ⟨rfl, Std.Refl.refl s, fun i recorded => .inl recorded⟩
      · rw [same] at first
        exact innerCall_misses stored first grown ends misses
    obtain ⟨front, grown'⟩ : ∃ front, middle.log = s.log ++ front := by
      have steps := steps_extend (adjacentRound_steps kube node path definition depth entry s)
      rwa [first] at steps
    cases outcome with
    | error e =>
      cases ran
      have whole : events = front := List.append_cancel_left (grown.symm.trans grown')
      obtain ⟨failed, _⟩ := round events later grown (fun e' _ => ends e rfl) misses
      cases failed
    | ok value =>
      dsimp only at ran
      rw [bind_run] at ran
      generalize looped : forEach rest (adjacentRound (fileResourceDeleteTask kube node (depth + 1) path) definition)
        middle = loop at ran
      obtain ⟨outcome, last⟩ := loop
      obtain ⟨back, grown''⟩ : ∃ back, last.log = middle.log ++ back := by
        have steps := steps_extend (adjacentRounds_steps kube node path definition depth rest middle)
        rwa [looped] at steps
      have ended : s' = last ∧ ∀ e, outcome = .error e → result = .error e := by
        cases outcome with
        | error e =>
          cases ran
          exact ⟨rfl, fun _ same => by cases same; rfl⟩
        | ok bs =>
          cases ran
          exact ⟨rfl, fun _ same => by cases same⟩
      obtain ⟨rfl, failed⟩ := ended
      obtain rfl : events = front ++ back := growth_split grown grown' grown''
      obtain ⟨_, less, spares⟩ := round front (back ++ later) grown' (fun _ failed => by cases failed)
        (List.append_assoc front back later ▸ misses)
      obtain ⟨⟨done, finished⟩, less', spares'⟩ := ih others (less.wellStored stored) looped grown''
        (fun e same => ends e (failed e same)) (misses.drop front)
      subst finished
      cases ran
      refine ⟨⟨_, rfl⟩, IsTrans.trans _ _ _ less less', fun i recorded => ?_⟩
      rcases spares i recorded with kept | ⟨e, member, missed⟩
      · rcases spares' i kept with kept | ⟨e, member, missed⟩
        · exact .inl kept
        · exact .inr ⟨e, List.mem_append_right _ member, missed⟩
      · exact .inr ⟨e, List.mem_append_left _ member, missed⟩

theorem Records.recordFile {files : Dict} {i : Identity} (recorded : Records files i)
    (free : files.get? path = none) (named : path ≠ "") (v : Value) : Records (recordFile path v files) i := by
  obtain ⟨key, w, here, same⟩ := recorded
  refine ⟨key, w, ?_, same⟩
  rw [recordFile_named named, OrderedDict.get?_set_ne, here]
  rintro rfl
  cases free.symm.trans here

theorem deleteWithAdjacentResources_keeps
    {delete : KubernetesApiMapping → KubernetesResourceDefinition → Task Unit} {s s' : State} {e : Exception}
    {events : List Event} (plain : ∀ v ∈ storedDefinitions s.runtime, v.IsPlain)
    (ran : deleteWithAdjacentResources kube node delete path [] definition mapping s = (.error e, s'))
    (grown : s'.log = s.log ++ events) (free : (recordedFiles s.runtime).get? path = none)
    (named : path = "" → ∀ e ∈ events, e.deleted = false) {i : Identity}
    (recorded : Records (recordedFiles s.runtime) i) : Records (recordedFiles s'.runtime) i := by
  rcases (deleteWithAdjacentResources_untaken plain ran grown).1 with same | ⟨⟨x, member, deleted⟩, put⟩
  · exact same ▸ recorded
  · have named : path ≠ "" := by
      intro unnamed
      cases deleted.symm.trans (named unnamed x member)
    rw [put]
    exact recorded.recordFile free named _

inductive FoundEnds (node : Node) (path : String) (definition : KubernetesResourceDefinition)
    (adjacent : List (String × Value)) (files : Dict) (answer : Except Exception Value) (events : List Event)
    (files' : Dict) : Prop
  | failed (same : files' = files)
      (cause : (∀ x ∈ events, x.deleted = false) ∨ ∃ x ∈ events, x.unreleased = true)
  | external (external : node.useExternalResource = true) (put : files' = putBack adjacent files)
  | answered (read : ∃ response, answer = .ok response) (deleted : ∃ x ∈ events, x.deleted = true)
      (released : ∀ x ∈ events, x.unreleased = false)
      (put : files' = putBack adjacent (recordFile path definition.cleanup files))

theorem readOutcome_missing {e : Exception} (spoken : Text.contains e.text "(404)" = true) :
    readOutcome (.error e) = .error e ∨ readOutcome (.error e) = .ok (some ⟨.missingResource, e.text⟩) := by
  rw [readOutcome, if_pos spoken]
  split
  · exact .inr rfl
  · exact .inl rfl

theorem readOutcome_found {answer : Except Exception Value}
    (found : ∀ e, answer = .error e → Text.contains e.text "(404)" = false) {said : Option Exception}
    (outcome : readOutcome (answer >>= jsonCleanuper) = .ok said) :
    (∃ response, answer = .ok response ∧ said = none) ∨ ∃ e, said = some e ∧ e.isA .missingResource = false := by
  cases answer with
  | error e =>
    change readOutcome (.error e) = _ at outcome
    rw [readOutcome, found e rfl] at outcome
    split at outcome
    · cases outcome
      exact .inr ⟨_, rfl, rfl⟩
    · cases outcome
  | ok response =>
    change readOutcome (jsonCleanuper response) = _ at outcome
    cases clean : jsonCleanuper response with
    | ok value =>
      rw [clean] at outcome
      cases outcome
      exact .inl ⟨response, rfl, rfl⟩
    | error e =>
      rw [clean] at outcome
      simp [readOutcome, Exception.isA, jsonCleanuper_error clean, ExceptionClass.isSubclass] at outcome

theorem deleteWithAdjacentResources_found
    {delete : KubernetesApiMapping → KubernetesResourceDefinition → Task Unit} {adjacent : List (String × Value)}
    {s middle s' : State} {e : Exception} {events : List Event} {answer : Except Exception Value}
    (results : ∀ e ∈ adjacent, e.1 ≠ "" ∧ ∃ kind version fields, IsResult e.2 kind version fields)
    (plain : ∀ v ∈ storedDefinitions s.runtime, v.IsPlain) (made : ∃ v, MadeOf v definition)
    (kept : Untouched s middle)
    (read : readWhileAdjacentResources kube mapping definition s = (readOutcome (answer >>= jsonCleanuper), middle))
    (found : ∀ e, answer = .error e → Text.contains e.text "(404)" = false)
    (ran : deleteWithAdjacentResources kube node delete path adjacent definition mapping s = (.error e, s'))
    (grown : s'.log = middle.log ++ events) :
    FoundEnds node path definition adjacent (recordedFiles s.runtime) answer events (recordedFiles s'.runtime) ∧
      Restocks s s' := by
  have unasked (ended : s' = middle) : FoundEnds node path definition adjacent (recordedFiles s.runtime) answer events
      (recordedFiles s'.runtime) ∧ Restocks s s' := by
    subst ended
    have none : events = [] := List.append_cancel_left (grown.symm.trans (List.append_nil _).symm)
    exact ⟨.failed kept.files (.inl (by simp [none])), kept.restocks⟩
  cases outcome : readOutcome (answer >>= jsonCleanuper) with
  | error e' =>
    rw [outcome] at read
    exact unasked (Prod.mk.inj (ran.symm.trans (bind_run_error read _))).2
  | ok said =>
    rw [outcome] at read
    have ran := (bind_run_ok read _).symm.trans ran
    rcases readOutcome_found found outcome with ⟨response, rfl, rfl⟩ | ⟨e', rfl, other⟩
    swap
    · dsimp only at ran
      rw [if_neg (by rw [other]; exact Bool.false_ne_true)] at ran
      exact unasked (Prod.mk.inj ran).2.symm
    · have ends : DeletionEnds node path definition adjacent middle
          (deleteWhileAdjacentResources kube node path mapping definition adjacent middle) :=
        deleteWhileAdjacentResources_ends results (.inr made) (kept.definitions ▸ plain)
      rcases bind_error_inv ran with failed | ⟨result, last, deletion, rest⟩
      · rw [failed] at ends
        cases ends with
        | failed _ _ kept' events' grown' cause =>
          obtain rfl : events = events' := List.append_cancel_left (grown.symm.trans grown')
          exact ⟨.failed (kept'.files.trans kept.files) (cause made), (IsTrans.trans _ _ _ kept kept').restocks⟩
      · rw [deletion] at ends
        cases ends with
        | external _ kept' _ _ external =>
          change (if adjacent.isEmpty = true then pure () else _ : Task Unit) last = _ at rest
          split at rest
          · cases rest
          obtain ⟨final, put, files, restocks, _⟩ := storeAdjacent_put results
            (kept'.definitions.trans kept.definitions ▸ plain)
          have raised := (bind_run_ok put _).symm.trans rest
          obtain ⟨_, rfl⟩ := Prod.mk.inj raised
          exact ⟨.external external (by rw [files, kept'.files, kept.files]),
            IsTrans.trans _ _ _ (IsTrans.trans _ _ _ kept kept').restocks restocks⟩
        | retried text _ events' grown' deleted released files' restocks =>
          have raised : (.error ⟨.operationRetry, text⟩, last) = ((.error e, s') : Except Exception Unit × State) := rest
          obtain ⟨_, rfl⟩ := Prod.mk.inj raised
          obtain rfl : events = events' := List.append_cancel_left (grown.symm.trans grown')
          exact ⟨.answered ⟨response, rfl⟩ deleted released (by rw [files', kept.files]),
            IsTrans.trans _ _ _ kept.restocks (restocks made.choose_spec.cleanup.1)⟩

/-- Behind a read that is answered 404 the adjacent records go back once every call for them has
    found its resource missing. -/
theorem deleteWithAdjacentResources_continued {depth : Nat} {found : LastCreatePath} {files : Dict} {s middle s' : State}
    {e e' : Exception} {events : List Event}
    (results : ∀ e ∈ found.adjacent, e.1 ≠ "" ∧ ∃ kind version fields, IsResult e.2 kind version fields)
    (stored : WellStored middle) (took : Took path files found (recordedFiles middle.runtime))
    (chosen : mappingByKind [] definition = .ok mapping) (gone : e'.NotFound)
    (read : readWhileAdjacentResources kube mapping definition s = (readOutcome (.error e'), middle))
    (ran : deleteWithAdjacentResources kube node (fileResourceDeleteTask kube node (depth + 1) path) path found.adjacent
      definition mapping s = (.error e, s'))
    (grown : s'.log = middle.log ++ events) (inner : InnerMisses events) :
    (∀ i, Records files i → Records (recordedFiles s'.runtime) i ∨ Missed i events ∨
      Identity.ofDict found.resource = .ok i) ∧ Restocks middle s' ∧
      ∀ key v, (recordedFiles s'.runtime).get? key = some v → files.get? key = some v := by
  rw [gone.readOutcome] at read
  have ran := (bind_run_ok read _).symm.trans ran
  have missing : (Exception.mk .missingResource e'.text).isA .missingResource = true := rfl
  dsimp only at ran
  rw [if_pos missing] at ran
  split at ran
  · cases ran
  have loop {result : Except Exception (List Unit)} {last : State} {back more : List Event}
      (ran : forEach found.adjacent (adjacentRound (fileResourceDeleteTask kube node (depth + 1) path) definition)
        middle = (result, last)) (grown : last.log = middle.log ++ back) (ends : ∀ e, result = .error e → more = [])
      (misses : InnerMisses (back ++ more)) :
      (∃ done, result = .ok done) ∧ Lessens middle last ∧ ∀ i, Records (recordedFiles middle.runtime) i →
        Records (recordedFiles last.runtime) i ∨ Missed i back :=
    innerCalls_miss results chosen stored ran grown ends misses
  rcases bind_error_inv ran with failed | ⟨_, last, looped, rest⟩
  · rcases bind_error_inv failed with failed | ⟨_, _, _, ended⟩
    · obtain ⟨⟨_, returned⟩, _⟩ := loop failed grown (fun _ _ => rfl) (by rwa [List.append_nil])
      cases returned
    · cases ended
  · obtain ⟨done, last', looped, ended⟩ := bind_ok_inv looped
    cases ended
    have looped : forEach found.adjacent (adjacentRound (fileResourceDeleteTask kube node (depth + 1) path) definition)
        middle = (.ok done, last) := looped
    obtain ⟨back, grown'⟩ : ∃ back, last.log = middle.log ++ back := by
      have steps := steps_extend (adjacentRounds_steps kube node path definition depth found.adjacent middle)
      rwa [looped] at steps
    obtain ⟨more, grown''⟩ : ∃ more, s'.log = last.log ++ more := by
      have steps : Within (Steps kube fun _ => True) (storeAdjacent found.adjacent >>= fun _ =>
          raise ⟨.operationRetry, "Continue to deletion of adjacent resources: " ++ e'.text⟩ : Task Unit) :=
        (storeAdjacent_within steps_offline _).bind fun _ => .raise _
      have rest : (storeAdjacent found.adjacent >>= fun _ =>
          raise ⟨.operationRetry, "Continue to deletion of adjacent resources: " ++ e'.text⟩ : Task Unit) last =
            (.error e, s') := rest
      have grows := steps_extend (steps last)
      rwa [rest] at grows
    obtain rfl : events = back ++ more := growth_split grown grown' grown''
    obtain ⟨_, less, spares⟩ := loop looped grown' (fun _ failed => by cases failed) inner
    obtain ⟨final, put, files', restocks, _⟩ := storeAdjacent_put results (less.wellStored stored).plain
    have ended : (.error ⟨.operationRetry, "Continue to deletion of adjacent resources: " ++ e'.text⟩, final) =
        ((.error e, s') : Except Exception Unit × State) := (bind_run_ok put _).symm.trans rest
    obtain ⟨_, rfl⟩ := Prod.mk.inj ended
    have back {i : Identity} (there : Records (recordedFiles last.runtime) i ∨
        ∃ e ∈ found.adjacent, Identity.ofDict e.2 = .ok i) : Records (recordedFiles final.runtime) i := by
      rw [files']
      exact took.putBack less.files i there
    refine ⟨?_, fun v member => (restocks v member).imp_left fun there => less.definitions.subset there, ?_⟩
    swap
    · intro key v there
      rw [files'] at there
      exact took.of_putBack less.files there
    rintro i ⟨key, v, here, named⟩
    rcases took.cases here with ⟨_, rfl⟩ | inside | left
    · exact .inr (.inr named)
    · exact .inl (back (.inr ⟨_, inside, named⟩))
    · rcases spares i ⟨key, v, left, named⟩ with there | ⟨x, member, missed⟩
      · exact .inl (back (.inl there))
      · exact .inr (.inl ⟨x, List.mem_append_left _ member, missed⟩)

theorem Unanswered.undeleted {events : List Event} (unanswered : Unanswered events) :
    ∀ e ∈ events, e.deleted = false := by
  intro e member
  have quiet := unanswered e member
  cases e with
  | returned call result => cases quiet
  | _ => rfl

theorem Unanswered.released {events : List Event} (unanswered : Unanswered events) :
    ∀ e ∈ events, e.unreleased = false := by
  intro e member
  have quiet := unanswered e member
  cases e with
  | returned call result => cases quiet
  | _ => rfl

variable (kube node path mapping definition) in
theorem deleteWithAdjacentResources_steps (depth : Nat) (adjacent : List (String × Value)) :
    Within (Steps kube fun _ => True) (deleteWithAdjacentResources kube node
      (fileResourceDeleteTask kube node depth path) path adjacent definition mapping) :=
  deleteWithAdjacentResources_within steps_offline _ _
    (fun _ _ => fileResourceDeleteTask_steps _ _ _ _ _ _ (fun _ => trivial) trivial fun _ => trivial) _
    (doResourceRead_steps trivial)
    (deleteWhileAdjacentResources_within steps_offline _ _ _ (fun _ => doResourceDelete_steps _ _ trivial trivial)
      (preparePvcDelete_within fun _ => doResourceUpdate_steps trivial))

variable (kube node path mapping definition) in
theorem fileResourceDeleteTask_enters (depth : Nat) (s : State) : ∃ events,
    (fileResourceDeleteTask kube node (depth + 1) path mapping definition s).2.log =
      s.log ++ .entered path mapping definition s.runtime :: events := by
  rw [fileResourceDeleteTask_succ, bind_run]
  obtain ⟨choices, grown, _⟩ := @getPathWithAdjacentResources_unanswered node path mapping definition
    { s with log := s.log ++ [.entered path mapping definition s.runtime] }
  generalize getPathWithAdjacentResources node path mapping definition _ = looked at grown ⊢
  obtain ⟨e | ⟨adjacent, definition', mapping'⟩, s₂⟩ := looked
  · exact ⟨choices, by simpa using grown⟩
  · obtain ⟨rest, extended⟩ := steps_extend (deleteWithAdjacentResources_steps kube node path mapping' definition'
      depth adjacent s₂)
    refine ⟨choices ++ rest, extended.trans ?_⟩
    rw [show s₂.log = _ from grown]
    simp

theorem recursionDepth_taken {runtime : RuntimeProperties} {found : LastCreatePath}
    (taken : takenAt path runtime = some found) : ∃ depth, recursionDepth runtime = depth + 1 + 1 := by
  have entry := (takenAt_took taken).entry
  rw [← OrderedDict.mem_items_iff] at entry
  obtain ⟨depth, length⟩ := Nat.exists_eq_succ_of_ne_zero (List.length_pos_of_mem entry).ne'
  exact ⟨depth, congrArg (· + 1) length⟩

structure Refills (path : String) (s s' : State) : Prop where
  definitions : Restocks s s'
  files : ∀ key v, (recordedFiles s'.runtime).get? key = some v → (recordedFiles s.runtime).get? key = some v ∨
    key = path ∧ ∃ kind version fields, IsResult v kind version fields

theorem Lessens.refills {s s' : State} (less : Lessens s s') (path : String) : Refills path s s' :=
  ⟨fun _ member => .inl (less.definitions.subset member), fun key v there => .inl (less.files key v there)⟩

/-- How a deletion of a file ends that fails: nothing was taken, or what was taken is dropped, put
    back but for its own record, put back as a whole, or its read speaks of a 404. -/
inductive RaisedDeletion (node : Node) (definition : KubernetesResourceDefinition) (path : String) (s : State)
    (events : List Event) (s' : State) : Prop
  | untaken (untaken : takenAt path s.runtime = none)
      (keeps : (path = "" → ∀ e ∈ events, e.deleted = false) → ∀ i, Records (recordedFiles s.runtime) i →
        Records (recordedFiles s'.runtime) i)
      (refills : path ≠ "" → definition.Storable → (∀ v ∈ storedDefinitions s.runtime, v.IsStored) →
        Refills path s s')
  | dropped (found : LastCreatePath) (taken : takenAt path s.runtime = some found) (present : ¬ SaysMissing events)
      (same : recordedFiles s'.runtime = leftBy path s.runtime)
      (cause : (∀ x ∈ events, x.deleted = false) ∨ ∃ x ∈ events, x.unreleased = true) (refills : Refills path s s')
  | external (found : LastCreatePath) (taken : takenAt path s.runtime = some found) (present : ¬ SaysMissing events)
      (external : node.useExternalResource = true)
      (put : recordedFiles s'.runtime = putBack found.adjacent (leftBy path s.runtime))
  | answered (found : LastCreatePath) (taken : takenAt path s.runtime = some found)
      (read : ∃ response, firstAnswer events = some (.ok response)) (deleted : ∃ x ∈ events, x.deleted = true)
      (released : ∀ x ∈ events, x.unreleased = false) (v : Value)
      (same : Identity.ofDict v = Identity.ofDict found.resource)
      (put : recordedFiles s'.runtime = putBack found.adjacent (recordFile path v (leftBy path s.runtime)))
      (refills : path ≠ "" → Refills path s s')
  | missing (found : LastCreatePath) (taken : takenAt path s.runtime = some found) (missing : SaysMissing events)
      (alone : found.adjacent = [] → recordedFiles s'.runtime = leftBy path s.runtime ∧ Refills path s s')
      (continued : ReadMisses events → InnerMisses events → (∀ i, Records (recordedFiles s.runtime) i →
        Records (recordedFiles s'.runtime) i ∨ Missed i events) ∧ Refills path s s')

theorem not_saysMissing {events : List Event} (unanswered : Unanswered events) : ¬ SaysMissing events := by
  rintro ⟨e, answer, _⟩
  have none : firstAnswer events = none := List.findSome?_eq_none_iff.mpr unanswered
  cases none.symm.trans answer

theorem Lessens.restocks {s middle s' : State} (less : Lessens s middle) (restocks : Restocks middle s') :
    Restocks s s' :=
  fun v member => (restocks v member).imp_left fun there => less.definitions.subset there

structure TakesRecord (path : String) (s taking : State) (found : LastCreatePath) (mapping : KubernetesApiMapping)
    (definition : KubernetesResourceDefinition) : Prop where
  stored : WellStored s
  lessens : Lessens s taking
  taken : takenAt path s.runtime = some found
  left : recordedFiles taking.runtime = leftBy path s.runtime
  made : MadeOf found.resource definition
  suits : mapping.suits definition = true
  chosen : mappingByKind [] definition = .ok mapping

namespace TakesRecord

variable {s taking middle s' : State} {found : LastCreatePath} {given : KubernetesResourceDefinition}
  {front back : List Event} {e : Exception} (record : TakesRecord path s taking found mapping definition)

include record

theorem took : Took path (recordedFiles s.runtime) found (recordedFiles taking.runtime) := by
  have took := takenAt_took record.taken
  rwa [← record.left] at took

theorem results : ∀ e ∈ found.adjacent, e.1 ≠ "" ∧ ∃ kind version fields, IsResult e.2 kind version fields :=
  fun e member => record.stored.records e.1 e.2 (record.took.adjacent e member).1

/-- A read that speaks of a 404. -/
theorem raised_missing {e' : Exception} {depth : Nat} (deep : recursionDepth s.runtime = depth + 1)
    (kept : Untouched taking middle)
    (read : readWhileAdjacentResources kube mapping definition taking = (readOutcome (.error e'), middle))
    (ran : deleteWithAdjacentResources kube node (fileResourceDeleteTask kube node depth path) path found.adjacent
      definition mapping taking = (.error e, s'))
    (grown : s'.log = middle.log ++ back) (first : firstAnswer (front ++ back) = some (.error e'))
    (returned : .returned ⟨.read .task, mapping, definition⟩ (.error e') ∈ front)
    (spoken : Text.contains e'.text "(404)" = true) : RaisedDeletion node given path s (front ++ back) s' := by
  have less : Lessens s middle := IsTrans.trans _ _ _ record.lessens kept.lessens
  refine .missing found record.taken ⟨e', first, spoken⟩ (fun alone => ?_) fun missed inner => ?_
  · rw [alone] at ran
    rcases readOutcome_missing spoken with other | missing
    · rw [other] at read
      have ended : (.error e, s') = ((.error e', middle) : Except Exception Unit × State) :=
        ran.symm.trans (bind_run_error read _)
      obtain ⟨_, rfl⟩ := Prod.mk.inj ended
      exact ⟨kept.files.trans record.left, less.refills path⟩
    · rw [missing] at read
      cases ran.symm.trans (bind_run_ok read _)
  · obtain ⟨e'', same, gone⟩ := missed.answer first
    cases same
    -- There is a record, so that the recursion has a level left for the adjacent ones.
    obtain ⟨level, deeper⟩ := recursionDepth_taken record.taken
    obtain rfl : depth = level + 1 := Nat.succ.inj (deep.symm.trans deeper)
    have inner : InnerMisses back := by
      have whole : InnerMisses (front ++ back ++ []) := by
        rwa [List.append_nil]
      have dropped := whole.drop
      rwa [List.append_nil] at dropped
    have took := record.took
    rw [← kept.files] at took
    obtain ⟨keeps, restocks, files⟩ := deleteWithAdjacentResources_continued record.results
      (less.wellStored record.stored) took record.chosen gone read ran grown inner
    refine ⟨fun i recorded => ?_, less.restocks restocks, fun key v there => .inl (files key v there)⟩
    rcases keeps i recorded with kept | ⟨x, member, misses⟩ | own
    · exact .inl kept
    · exact .inr ⟨x, List.mem_append_right _ member, misses⟩
    · exact .inr ⟨.returned ⟨.read .task, mapping, definition⟩ (.error e'), List.mem_append_left _ returned, gone,
        record.suits, record.made.identity.trans own⟩

theorem raised_found {delete : KubernetesApiMapping → KubernetesResourceDefinition → Task Unit}
    {answer : Except Exception Value} (kept : Untouched taking middle)
    (read : readWhileAdjacentResources kube mapping definition taking = (readOutcome (answer >>= jsonCleanuper), middle))
    (ran : deleteWithAdjacentResources kube node delete path found.adjacent definition mapping taking = (.error e, s'))
    (grown : s'.log = middle.log ++ back) (first : firstAnswer (front ++ back) = some answer)
    (quiet : ∀ x ∈ front, x.deleted = false ∧ x.unreleased = false)
    (unspoken : ∀ e, answer = .error e → Text.contains e.text "(404)" = false) :
    RaisedDeletion node given path s (front ++ back) s' := by
  have present : ¬ SaysMissing (front ++ back) := by
    rintro ⟨e', answered, said⟩
    rw [unspoken e' (Option.some.inj (first.symm.trans answered))] at said
    cases said
  obtain ⟨ends, restocks⟩ := deleteWithAdjacentResources_found record.results
    (record.lessens.wellStored record.stored).plain ⟨_, record.made⟩ kept read unspoken ran grown
  have restocks : Restocks s s' := record.lessens.restocks restocks
  cases ends with
  | failed same cause =>
    refine .dropped found record.taken present (same.trans record.left) ?_ ⟨restocks, fun key v there => ?_⟩
    · rcases cause with undeleted | ⟨x, member, unreleased⟩
      · refine .inl fun x member => ?_
        rcases List.mem_append.mp member with member | member
        · exact (quiet x member).1
        · exact undeleted x member
      · exact .inr ⟨x, List.mem_append_right _ member, unreleased⟩
    · rw [same] at there
      exact .inl (record.lessens.files key v there)
  | external external put => exact .external found record.taken present external (record.left ▸ put)
  | answered read deleted released put =>
    obtain ⟨response, rfl⟩ := read
    obtain ⟨x, member, told⟩ := deleted
    refine .answered found record.taken ⟨response, first⟩ ⟨x, List.mem_append_right _ member, told⟩ (fun x member => ?_)
      _ record.made.cleanup.2 (record.left ▸ put) fun named => ⟨restocks, fun key v there => ?_⟩
    · rcases List.mem_append.mp member with member | member
      · exact (quiet x member).2
      · exact released x member
    · rw [put, recordFile_named named] at there
      exact record.took.of_restored record.made.cleanup.1 there

end TakesRecord

theorem raised_untaken {delete : KubernetesApiMapping → KubernetesResourceDefinition → Task Unit}
    {definition' : KubernetesResourceDefinition} {s looking s' : State} {e : Exception} {choices events : List Event}
    (stored : ∀ v ∈ storedDefinitions looking.runtime, v.IsPlain) (lessens : Lessens s looking)
    (untaken : takenAt path s.runtime = none) (free : (recordedFiles s.runtime).get? path = none)
    (files : recordedFiles looking.runtime = recordedFiles s.runtime)
    (chosen : ∃ runtime, (storedDefinitions runtime).Sublist (storedDefinitions s.runtime) ∧
      decided node definition runtime = .ok definition')
    (ran : deleteWithAdjacentResources kube node delete path [] definition' mapping looking = (.error e, s'))
    (grown : s'.log = looking.log ++ events) :
    RaisedDeletion node definition path s (choices ++ events) s' := by
  refine .untaken untaken (fun unnamed i recorded => ?_) fun named storable results => ?_
  · have undeleted (empty : path = "") : ∀ x ∈ events, x.deleted = false :=
      fun x member => unnamed empty x (List.mem_append_right _ member)
    exact deleteWithAdjacentResources_keeps stored ran grown (files ▸ free) undeleted (files ▸ recorded)
  · obtain ⟨runtime, sublist, chosen⟩ := chosen
    have storable := decided_storable (fun v member => results v (sublist.subset member)) storable chosen
    obtain ⟨put, restocks⟩ := deleteWithAdjacentResources_untaken stored ran grown
    refine ⟨lessens.restocks (restocks storable), fun key v there => ?_⟩
    rcases put with same | ⟨_, put⟩
    · exact .inl (lessens.files key v (same ▸ there))
    · rw [put, recordFile_named named, OrderedDict.get?_set] at there
      split at there
      · rename_i here
        cases there
        exact .inr ⟨here, storable⟩
      · exact .inl (lessens.files key v there)

theorem fileResourceDeleteTask_raised {s s' : State} {e : Exception} {events : List Event} (stored : WellStored s)
    (ran : fileResourceDeleteTask kube node (recursionDepth s.runtime) path mapping definition s = (.error e, s'))
    (grown : s'.log = s.log ++ .entered path mapping definition s.runtime :: events) :
    RaisedDeletion node definition path s events s' := by
  have entered : Lessens s { s with log := s.log ++ [.entered path mapping definition s.runtime] } :=
    ⟨.refl _, fun _ _ found => found⟩
  have lookup := @getPathWithAdjacentResources_ends node path mapping definition _ (entered.wellStored stored)
  have less : Lessens _ _ := @getPathWithAdjacentResources_lessens node path mapping definition
    { s with log := s.log ++ [.entered path mapping definition s.runtime] }
  obtain ⟨choices, grown', unanswered⟩ := @getPathWithAdjacentResources_unanswered node path mapping definition
    { s with log := s.log ++ [.entered path mapping definition s.runtime] }
  obtain ⟨depth, deep⟩ : ∃ depth, recursionDepth s.runtime = depth + 1 := ⟨_, rfl⟩
  rw [deep, fileResourceDeleteTask_succ, bind_run] at ran
  generalize looked : getPathWithAdjacentResources node path mapping definition _ = result at lookup less grown' ran
  obtain ⟨e' | ⟨adjacent, definition', mapping'⟩, looking⟩ := result
  · cases ran
    have less : Lessens s s' := IsTrans.trans _ _ _ entered less
    obtain rfl : events = choices := by
      have whole := grown.symm.trans grown'
      simpa using whole
    cases lookup with
    | failed _ _ left =>
      cases taken : takenAt path s.runtime with
      | none =>
        have same : recordedFiles s'.runtime = recordedFiles s.runtime :=
          left.trans (leftBy_untaken (entered.wellStored stored) taken)
        exact .untaken taken (fun _ i recorded => same ▸ recorded) fun _ _ _ => less.refills path
      | some found =>
        exact .dropped found taken (not_saysMissing unanswered) left (.inl unanswered.undeleted) (less.refills path)
  have lessens : Lessens s looking := IsTrans.trans _ _ _ entered less
  have ran : deleteWithAdjacentResources kube node (fileResourceDeleteTask kube node depth path) path adjacent
      definition' mapping' looking = (.error e, s') := ran
  have split {rest : List Event} (extended : s'.log = looking.log ++ rest) : events = choices ++ rest := by
    have whole := grown.symm.trans (extended.trans (congrArg (· ++ rest) grown'))
    simpa using whole
  cases lookup with
  | unresolved _ _ untaken free files =>
    obtain ⟨rest, extended⟩ : ∃ rest, s'.log = looking.log ++ rest := by
      have steps := steps_extend (deleteWithAdjacentResources_steps kube node path mapping' definition' depth []
        looking)
      rwa [ran] at steps
    have chosen := getPathWithAdjacentResources_decided untaken looked
    rw [split extended]
    exact raised_untaken (lessens.wellStored stored).plain lessens untaken free files chosen ran extended
  | taken found _ _ _ taken left made suits chosen =>
    have record : TakesRecord path s looking found mapping' definition' :=
      ⟨stored, lessens, taken, left, made, suits, chosen⟩
    rcases readWhileAdjacentResources_cases kube mapping' definition' looking with
      ⟨e', read⟩ | ⟨answer, options, front, call, read⟩
    · have ended : (.error e, s') = ((.error e', looking) : Except Exception Unit × State) :=
        ran.symm.trans (bind_run_error read _)
      obtain ⟨_, rfl⟩ := Prod.mk.inj ended
      rw [split (List.append_nil _).symm, List.append_nil]
      exact .dropped found taken (not_saysMissing unanswered) left (.inl unanswered.undeleted) (lessens.refills path)
    obtain ⟨back, extended⟩ := deleteWithAdjacentResources_extends node depth path found.adjacent read
    rw [ran] at extended
    obtain rfl : events = choices ++ .edited definition' :: front ++ back := by
      rw [List.append_assoc]
      refine split (extended.trans ?_)
      simp
    have first : firstAnswer (choices ++ .edited definition' :: front ++ back) = some answer := by
      rw [List.append_assoc, firstAnswer_append unanswered]
      exact call.firstAnswer back
    -- Neither the lookup nor the read deletes or releases anything.
    have quiet : ∀ x ∈ choices ++ .edited definition' :: front, x.deleted = false ∧ x.unreleased = false := by
      intro x member
      rcases List.mem_append.mp member with member | member
      · exact ⟨unanswered.undeleted x member, unanswered.released x member⟩
      · rcases List.mem_cons.mp member with rfl | member
        · exact ⟨rfl, rfl⟩
        · exact ⟨call.undeleted rfl x member, call.released rfl x member⟩
    have kept : Untouched looking { looking with options, log := looking.log ++ .edited definition' :: front } :=
      ⟨rfl, rfl⟩
    by_cases spoken : ∃ e', answer = .error e' ∧ Text.contains e'.text "(404)" = true
    · obtain ⟨e', rfl, spoken⟩ := spoken
      refine record.raised_missing deep kept read ran extended first ?_ spoken
      simp [call.returned_mem]
    · refine record.raised_found kept read ran extended first quiet fun e' same => ?_
      by_contra said
      exact spoken ⟨e', same, by simpa using said⟩

end

def RecordsKept (s : State) (events : List Event) (s' : State) : Prop :=
  ∀ i, Records (recordedFiles s.runtime) i → Records (recordedFiles s'.runtime) i ∨ Missed i events

section

variable {node : Node} {definition : KubernetesResourceDefinition} {path : String} {s s' : State} {events : List Event}

theorem ReadMisses.spoken (missed : ReadMisses events) : SaysMissing events := by
  obtain ⟨e, answer, gone⟩ := missed
  exact ⟨e, answer, gone.told⟩

/-- Records whose lookup has dropped them are kept if each is recorded elsewhere or accounted for. -/
theorem Took.spared {files files' files'' : Dict} {found : LastCreatePath} {accounted : Identity → Prop}
    (took : Took path files found files') (each : ∀ i, found.Names i → accounted i ∨ Records files' i)
    (stays : ∀ i, Records files' i → Records files'' i) {i : Identity} (recorded : Records files i) :
    Records files'' i ∨ accounted i := by
  obtain ⟨key, v, here, named⟩ := recorded
  have elsewhere (names : found.Names i) : Records files'' i ∨ accounted i := by
    rcases each i names with settled | left
    · exact .inr settled
    · exact .inl (stays i left)
  rcases took.cases here with ⟨_, rfl⟩ | inside | left
  · exact elsewhere (.inl named)
  · exact elsewhere (.inr ⟨_, inside, named⟩)
  · exact .inl (stays i ⟨key, v, left, named⟩)

theorem RaisedDeletion.keeps (raised : RaisedDeletion node definition path s events s')
    (restores : Restores node path s.runtime events) : RecordsKept s events s' := by
  intro i recorded
  have named : (∃ x ∈ events, x.deleted = true) → path ≠ "" := by
    rintro ⟨x, member, told⟩ unnamed
    cases told.symm.trans (restores.named unnamed x member)
  cases raised with
  | untaken _ keeps _ => exact .inl (keeps restores.named i recorded)
  | dropped found taken present same cause _ =>
    cases restores.taken found taken with
    | answered _ _ deleted released =>
      obtain ⟨x, member, told⟩ := deleted
      rcases cause with undeleted | ⟨y, member', unreleased⟩
      · cases told.symm.trans (undeleted x member)
      · cases unreleased.symm.trans (released y member')
    | spared _ each => exact (takenAt_took taken).spared each (fun _ left => same ▸ left) recorded
    | continued missed _ => exact absurd missed.spoken present
  | external found taken present external put =>
    cases restores.taken found taken with
    | answered owned _ _ _ => cases external.symm.trans owned
    | spared _ each =>
      refine (takenAt_took taken).spared each (fun j left => ?_) recorded
      rw [put]
      exact (takenAt_took taken).putBack (fun _ _ found => found) j (.inl left)
    | continued missed _ => exact absurd missed.spoken present
  | answered found taken read deleted released v same put _ =>
    rw [recordFile_named (named deleted)] at put
    rw [put]
    exact .inl ((takenAt_took taken).restored same recorded)
  | missing found taken spoken _ continued =>
    cases restores.taken found taken with
    | answered _ read _ _ =>
      obtain ⟨response, answer⟩ := read
      obtain ⟨e, other, _⟩ := spoken
      cases answer.symm.trans other
    | spared present _ => exact absurd spoken present
    | continued missed inner => exact (continued missed inner).1 i recorded

/-- What is kept of an own resource whose read does not speak of a 404 had to be. -/
theorem RaisedDeletion.restores (raised : RaisedDeletion node definition path s events s')
    (owned : node.useExternalResource = false) (named : path ≠ "") (present : ¬ SaysMissing events)
    (kept : RecordsKept s events s') : Restores node path s.runtime events := by
  refine ⟨fun unnamed => absurd unnamed named, fun found taken => ?_⟩
  cases raised with
  | untaken untaken _ _ => cases untaken.symm.trans taken
  | dropped found' taken' _ same _ _ =>
    obtain rfl : found' = found := Option.some.inj (taken'.symm.trans taken)
    have took := takenAt_took taken
    refine .spared present fun i names => ?_
    have recorded : Records (recordedFiles s.runtime) i := by
      rcases names with own | ⟨e, inside, adjacent⟩
      · exact ⟨_, _, took.entry, own⟩
      · exact ⟨_, _, (took.adjacent e inside).1, adjacent⟩
    rcases kept i recorded with left | missed
    · exact .inr (same ▸ left)
    · exact .inl missed
  | external _ _ _ external _ => cases external.symm.trans owned
  | answered _ _ read deleted released _ _ _ _ => exact .answered owned read deleted released
  | missing _ _ spoken _ _ => exact absurd spoken present

end

open Package

def failing : Kubernetes := package fun _ _ =>
  .error (.apiException { status := some 500, reason := "Internal Server Error" })

def Event.isNoMiss (e : Event) : Bool :=
  match e.returned? with
  | some (.error e) => !Text.contains e.text "(404)"
  | _ => true

end CloudifyKubernetes
