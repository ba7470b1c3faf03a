import CloudifyKubernetes.Effects.Descent
import CloudifyKubernetes.KeptRecords

namespace CloudifyKubernetes

open Collections Effects Program

def Event.start? : Event → Option (String × RuntimeProperties)
  | entered path _ _ runtime => some (path, runtime)
  | _ => none

structure Below (outer inner : String × RuntimeProperties) : Prop where
  path : inner.1 = outer.1
  files : ∀ key v, (recordedFiles inner.2).get? key = some v → (recordedFiles outer.2).get? key = some v

instance : Std.Refl Below := ⟨fun _ => ⟨rfl, fun _ _ found => found⟩⟩

instance : IsTrans (String × RuntimeProperties) Below := ⟨fun _ _ _ first second =>
  ⟨second.path.trans first.path, fun key v found => first.files key v (second.files key v found)⟩⟩

def RuntimeProperties.entries (runtime : RuntimeProperties) : Nat := (recordedFiles runtime).items.length

theorem Below.entries {outer inner : String × RuntimeProperties} (below : Below outer inner) :
    inner.2.entries ≤ outer.2.entries :=
  OrderedDict.length_le below.files

abbrev GoesDown {α : Type} (path : String) (s : State) (ran : Except Exception α × State) : Prop :=
  Descends State.log Event.start? (fun s => (path, s.runtime)) Below s ran

section

variable {kube : Kubernetes} {node : Node} {path : String} {mapping : KubernetesApiMapping}
  {definition : KubernetesResourceDefinition} {s s' : State}

abbrev Unstarting : State → State → Prop := Grows State.log (fun _ => False) fun e => e.start?.isSome = true

theorem Unstarting.events (quiet : Unstarting s s') :
    ∃ events, s'.log = s.log ++ events ∧ ∀ e ∈ events, e.start? = none := by
  obtain ⟨events, grown, balanced⟩ := quiet
  refine ⟨events, grown, ?_⟩
  intro e member
  by_contra started
  obtain ⟨_, _, contradiction⟩ := balanced.mp ⟨e, member, Option.ne_none_iff_isSome.mp started⟩
  exact contradiction

theorem unstarting_of {events : List Event} (grown : s'.log = s.log ++ events)
    (unstarted : ∀ e ∈ events, e.start? = none) : Unstarting s s' := by
  apply Grows.of_neutral grown
  intro e member
  rw [unstarted e member]
  simp

theorem unstarting_offline : Offline Unstarting where
  runtime s runtime := Grows.of_eq rfl
  mapped definition s := by
    rw [chooseMapping_run]
    exact unstarting_of rfl (by simp [Event.start?])

theorem CallEvents.unstarted {c : ClientCall} {result : Except Exception Value} {events : List Event}
    (call : CallEvents c result events) : ∀ e ∈ events, e.start? = none := by
  intro e member
  have called := call.call?_eq e member
  cases e with
  | entered path mapping definition runtime => cases called
  | _ => rfl

abbrev Passed : State → State → Prop := Passing fun e => e.start? = none

theorem Passing.unstarting (passed : Passed s s') : Unstarting s s' := by
  obtain ⟨_, events, grown, unstarted⟩ := passed
  exact unstarting_of grown unstarted

theorem Passing.below (passed : Passed s s') : Below (path, s.runtime) (path, s'.runtime) := by
  refine ⟨rfl, ?_⟩
  intro key v found
  rwa [passed.1.files] at found

theorem doResourceRead_passes : Within Passed (doResourceRead kube .task mapping definition) := by
  intro s
  have run := doResourceRead_run kube .task mapping definition s
  generalize doResourceRead kube .task mapping definition s = ran at run ⊢
  cases run with
  | malformed e failed => exact Std.Refl.refl s
  | called answer options events readable call =>
    exact ⟨⟨rfl, rfl⟩, _, rfl, List.forall_mem_cons.mpr ⟨rfl, call.unstarted⟩⟩

theorem doResourceUpdate_passes : Within Passed (doResourceUpdate kube mapping definition) := by
  intro s
  have run := doResourceUpdate_run kube mapping definition s
  generalize doResourceUpdate kube mapping definition s = ran at run ⊢
  cases run with
  | malformed e failed => exact Std.Refl.refl s
  | called answer options events readable call =>
    exact ⟨⟨rfl, rfl⟩, _, rfl, List.forall_mem_cons.mpr ⟨rfl, call.unstarted⟩⟩

theorem doResourceDelete_passes (resourceId : Value) :
    Within Passed (doResourceDelete kube node mapping definition resourceId) := by
  intro s
  have kept : Untouched s (doResourceDelete kube node mapping definition resourceId s).2 := by
    have run := doResourceDelete_run kube node mapping definition resourceId s
    generalize doResourceDelete kube node mapping definition resourceId s = ran at run ⊢
    cases run <;> exact ⟨rfl, rfl⟩
  obtain ⟨events, grown, concerns⟩ := doResourceDelete_concerns kube node mapping definition resourceId s
  refine ⟨kept, events, grown, ?_⟩
  intro e member
  rcases concerns e member with ⟨d, rfl⟩ | ⟨c, called, _⟩
  · rfl
  · cases e with
    | entered path mapping definition runtime => cases called
    | _ => rfl

theorem readWhileAdjacentResources_passes :
    Within Passed (readWhileAdjacentResources kube mapping definition) :=
  readWhileAdjacentResources_within doResourceRead_passes

theorem getPathWithAdjacentResources_unstarting :
    Within Unstarting (getPathWithAdjacentResources node path mapping definition) :=
  getPathWithAdjacentResources_within unstarting_offline node path

theorem preparePvcDelete_passes : Within Passed (preparePvcDelete kube mapping definition) :=
  preparePvcDelete_within fun _ => doResourceUpdate_passes

theorem deleteWhileAdjacentResources_unstarting (adjacent : List (String × Value)) :
    Within Unstarting (deleteWhileAdjacentResources kube node path mapping definition adjacent) :=
  deleteWhileAdjacentResources_within unstarting_offline _ _ _
    (fun resourceId => (doResourceDelete_passes resourceId).mono fun _ _ passed => passed.unstarting)
    (preparePvcDelete_passes.mono fun _ _ passed => passed.unstarting)

/-- A deletion that is not to be tried again leaves the stores alone. -/
theorem deleteWhileAdjacentResources_answers {adjacent : List (String × Value)} {result : Option Exception}
    (ran : deleteWhileAdjacentResources kube node path mapping definition adjacent s = (.ok result, s')) :
    (∃ text, result = some ⟨.operationRetry, text⟩) ∨ result = none ∧ Passed s s' := by
  obtain ⟨name, _, ran⟩ := bind_ofExcept_ok_inv ran
  obtain ⟨answer, middle, deleted, ran⟩ := bind_ok_inv ran
  have passed : Passed s middle := Within.along (doResourceDelete_passes name).attempt deleted
  cases answer with
  | error e =>
    dsimp only at ran
    split at ran <;> cases ran
  | ok response =>
    obtain ⟨_, marked, handled, ran⟩ := bind_ok_inv ran
    obtain ⟨perform, _, asked, ran⟩ := bind_ok_inv ran
    obtain ⟨_, rfl⟩ := Prod.mk.inj asked
    have passed : Passed s marked := by
      rw [handleDeleteResource_run] at handled
      obtain ⟨_, rfl⟩ := Prod.mk.inj handled
      exact IsTrans.trans _ _ _ passed ⟨⟨rfl, rfl⟩, [], (List.append_nil _).symm, by simp⟩
    have ending {last : State} (passed : Passed s last) (ran : (do
        if perform then
          storeResultForRetrieveId definition.cleanup path
          storeAdjacent adjacent
          return some ⟨.operationRetry, "Delete response: " ++ response.toText⟩
        else return none : Task (Option Exception)) last = (.ok result, s')) :
        (∃ text, result = some ⟨.operationRetry, text⟩) ∨ result = none ∧ Passed s s' := by
      cases perform with
      | true =>
        obtain ⟨_, _, _, ran⟩ := bind_ok_inv ran
        obtain ⟨_, _, _, ran⟩ := bind_ok_inv ran
        cases ran
        exact .inl ⟨_, rfl⟩
      | false =>
        cases ran
        exact .inr ⟨rfl, passed⟩
    dsimp only at ran
    split at ran
    · obtain ⟨_, last, released, ran⟩ := bind_ok_inv ran
      exact ending (IsTrans.trans _ _ _ passed (Within.along preparePvcDelete_passes released)) ran
    · exact ending passed ran

theorem GoesDown.of_unstarting {α : Type} {ran : Except Exception α × State} (quiet : Unstarting s ran.2)
    (returns : ∀ value s', ran = (.ok value, s') → Below (path, s.runtime) (path, s'.runtime)) :
    GoesDown path s ran := by
  obtain ⟨events, grown, unstarted⟩ := quiet.events
  apply Descends.of_unstarted grown unstarted
  intro returned
  obtain ⟨value, returned⟩ := returned
  exact returns value ran.2 (Prod.ext returned rfl)

theorem GoesDown.of_passes {α : Type} {p : Task α} (passes : Within Passed p) : GoesDown path s (p s) := by
  apply GoesDown.of_unstarting (passes s).unstarting
  intro value s' ran
  exact (Within.along passes ran).below

theorem getPathWithAdjacentResources_goesDown :
    GoesDown path s (getPathWithAdjacentResources node path mapping definition s) := by
  apply GoesDown.of_unstarting (getPathWithAdjacentResources_unstarting s)
  intro chosen s' ran
  exact ⟨rfl, (Within.along getPathWithAdjacentResources_lessens ran).files⟩

theorem storeAdjacent_goesDown (adjacent : List (String × Value)) (e : Exception) :
    GoesDown path s ((storeAdjacent adjacent >>= fun _ => (Program.raise e : Task Unit)) s) := by
  apply GoesDown.of_unstarting
  · exact ((storeAdjacent_within unstarting_offline adjacent).bind fun _ => .raise _) s
  · intro value s' ran
    obtain ⟨_, _, _, raised⟩ := bind_ok_inv ran
    cases raised

section

variable {delete delete' : KubernetesApiMapping → KubernetesResourceDefinition → Task Unit}

theorem adjacentRound_goesDown (inner : ∀ mapping definition s, GoesDown path s (delete mapping definition s))
    (entry : String × Value) : GoesDown path s (adjacentRound delete definition entry s) := by
  apply Descends.bind (GoesDown.of_passes (Within.ofExcept _))
  intro found s' _
  cases found with
  | none => exact Descends.pure _
  | some inner' =>
    apply Descends.bind (GoesDown.of_passes (Within.ofExcept _))
    intro mapping s'' _
    exact inner mapping inner' s''

theorem deleteAdjacentResources_goesDown
    (inner : ∀ mapping definition s, GoesDown path s (delete mapping definition s))
    (adjacent : List (String × Value)) : GoesDown path s (deleteAdjacentResources delete definition adjacent s) := by
  apply Descends.bind
  · apply Descends.forEach
    intro entry _ s
    exact adjacentRound_goesDown inner entry
  · intro _ s' _
    exact Descends.pure _

theorem adjacentRound_congr (agree : ∀ mapping definition, delete mapping definition s = delete' mapping definition s)
    (entry : String × Value) : adjacentRound delete definition entry s = adjacentRound delete' definition entry s := by
  rw [adjacentRound, adjacentRound, bind_run, bind_run, ofExcept_run]
  cases adjacentDefinition entry.2 with
  | error e => rfl
  | ok found =>
    cases found with
    | none => rfl
    | some inner =>
      dsimp only
      rw [bind_run, bind_run, ofExcept_run]
      cases mappingByKind [] definition with
      | error e => rfl
      | ok mapping => exact agree mapping inner

theorem deleteAdjacentResources_congr {adjacent : List (String × Value)} {start : State}
    (agree : ∀ entry ∈ adjacent, ∀ mapping definition s, Below (path, start.runtime) (path, s.runtime) →
      delete mapping definition s = delete' mapping definition s)
    (down : ∀ mapping definition s, GoesDown path s (delete' mapping definition s))
    (below : Below (path, start.runtime) (path, s.runtime)) :
    deleteAdjacentResources delete definition adjacent s = deleteAdjacentResources delete' definition adjacent s := by
  have rounds : forEach adjacent (adjacentRound delete definition) s =
      forEach adjacent (adjacentRound delete' definition) s := by
    apply forEach_congr (P := fun s => Below (path, start.runtime) (path, s.runtime))
    · intro entry member s below
      exact adjacentRound_congr (fun mapping definition => agree entry member mapping definition s below) entry
    · intro entry _ s _ s' below returned
      have round : GoesDown path s (adjacentRound delete' definition entry s) := adjacentRound_goesDown down entry
      rw [returned] at round
      exact IsTrans.trans _ _ _ below round.below
    · exact below
  have whole (delete : KubernetesApiMapping → KubernetesResourceDefinition → Task Unit) :
      deleteAdjacentResources delete definition adjacent =
        forEach adjacent (adjacentRound delete definition) >>= fun _ => pure () := rfl
  rw [whole, whole, bind_run, bind_run, rounds]

end

theorem deleteWithAdjacentResources_goesDown
    {delete : KubernetesApiMapping → KubernetesResourceDefinition → Task Unit}
    (inner : ∀ mapping definition s, GoesDown path s (delete mapping definition s)) (adjacent : List (String × Value)) :
    GoesDown path s (deleteWithAdjacentResources kube node delete path adjacent definition mapping s) := by
  apply Descends.bind (GoesDown.of_passes readWhileAdjacentResources_passes)
  intro outcome s _
  cases outcome with
  | some e =>
    dsimp only
    split
    · split
      · exact Descends.pure _
      · apply Descends.bind (deleteAdjacentResources_goesDown inner adjacent)
        intro _ s _
        exact storeAdjacent_goesDown adjacent _
    · exact Descends.raise _
  | none =>
    have ending : Within Unstarting (do
        if adjacent.isEmpty then return ()
        else
          storeAdjacent adjacent
          Program.raise ⟨.operationRetry, "Retrying for adjacent resources."⟩ : Task Unit) := by
      split
      · exact .pure _
      · exact (storeAdjacent_within unstarting_offline adjacent).bind fun _ => .raise _
    apply GoesDown.of_unstarting
    · apply Within.bind (deleteWhileAdjacentResources_unstarting adjacent)
      intro result
      cases result with
      | none => exact ending
      | some e =>
        dsimp only
        split
        · exact (Within.raise e).bind fun _ => ending
        · exact ending
    · intro value s' ran
      obtain ⟨result, last, deleted, rest⟩ := bind_ok_inv ran
      rcases deleteWhileAdjacentResources_answers deleted with ⟨text, rfl⟩ | ⟨rfl, passed⟩
      · cases rest
      · dsimp only at rest
        split at rest
        · obtain ⟨_, rfl⟩ := Prod.mk.inj rest
          exact passed.below
        · obtain ⟨_, _, _, raised⟩ := bind_ok_inv rest
          cases raised

theorem record_goesDown : GoesDown path s (record (.entered path mapping definition s.runtime) s) := by
  refine ⟨[.entered path mapping definition s.runtime], rfl, ?_, ?_⟩
  · apply List.pairwise_pair.mpr
    exact Std.Refl.refl (path, s.runtime)
  · intro _ t member
    simp only [List.filterMap_cons, Event.start?, List.filterMap_nil, List.mem_cons, List.not_mem_nil, or_false,
      or_self] at member
    rw [member]
    exact Std.Refl.refl (path, s.runtime)

theorem fileResourceDeleteTask_goesDown (depth : Nat) :
    GoesDown path s (fileResourceDeleteTask kube node depth path mapping definition s) := by
  induction depth generalizing mapping definition s with
  | zero => exact Descends.raise _
  | succ depth ih =>
    apply Descends.bind (p := getRuntime) (Descends.pure _)
    intro runtime s' got
    cases got
    apply Descends.bind record_goesDown
    intro _ s' _
    apply Descends.bind getPathWithAdjacentResources_goesDown
    intro chosen s'' _
    exact deleteWithAdjacentResources_goesDown (fun _ _ _ => ih) chosen.1

theorem getPathWithAdjacentResources_smaller {adjacent : List (String × Value)}
    {chosen : KubernetesResourceDefinition × KubernetesApiMapping}
    (ran : getPathWithAdjacentResources node path mapping definition s = (.ok (adjacent, chosen), s'))
    {entry : String × Value} (member : entry ∈ adjacent) : s'.runtime.entries < s.runtime.entries := by
  have less : Lessens s s' := Within.along getPathWithAdjacentResources_lessens ran
  obtain ⟨looked, middle, tried, ran⟩ := bind_ok_inv ran
  rw [attempt_run] at tried
  cases looked with
  | error e =>
    dsimp only at ran
    split at ran
    · obtain ⟨_, _, _, ran⟩ := bind_ok_inv ran
      cases ran
      cases member
    · cases ran
  | ok found =>
    obtain ⟨taken, kind, metadata⟩ := found
    obtain ⟨returned, rfl⟩ := Prod.mk.inj tried
    have recorded : recordedResource path s = (.ok (taken, kind, metadata), (recordedResource path s).2) :=
      Prod.ext (Except.ok.inj returned) rfl
    obtain ⟨taken', last, looked, rest⟩ := bind_ok_inv recorded
    obtain ⟨kind', kinded, rest⟩ := bind_ofExcept_ok_inv rest
    obtain ⟨metadata', _, rest⟩ := bind_ofExcept_ok_inv rest
    obtain ⟨same, ended⟩ := Prod.mk.inj rest
    cases same
    obtain ⟨version, _, ran⟩ := bind_ofExcept_ok_inv ran
    split at ran
    · obtain ⟨_, _, ran⟩ := bind_ofExcept_ok_inv ran
      obtain ⟨_, _, ran⟩ := bind_ofExcept_ok_inv ran
      obtain ⟨same, rfl⟩ := Prod.mk.inj ran
      cases same
      have took := retrieveLastCreatePath_took looked (truthy_of_index kinded)
      have gone : (recordedFiles last.runtime).get? entry.1 = none := by
        rw [took.left, if_pos (.inr (List.mem_map_of_mem member))]
      rw [← ended] at less ⊢
      exact OrderedDict.length_lt less.files (took.adjacent entry member).1 gone
    · cases ran

theorem deleteWithAdjacentResources_congr
    {delete delete' : KubernetesApiMapping → KubernetesResourceDefinition → Task Unit} {adjacent : List (String × Value)}
    (agree : ∀ entry ∈ adjacent, ∀ mapping definition s', Below (path, s.runtime) (path, s'.runtime) →
      delete mapping definition s' = delete' mapping definition s')
    (down : ∀ mapping definition s', GoesDown path s' (delete' mapping definition s')) :
    deleteWithAdjacentResources kube node delete path adjacent definition mapping s =
      deleteWithAdjacentResources kube node delete' path adjacent definition mapping s := by
  rw [deleteWithAdjacentResources, deleteWithAdjacentResources, bind_run, bind_run]
  have passes : Passed s (readWhileAdjacentResources kube mapping definition s).2 :=
    readWhileAdjacentResources_passes s
  generalize readWhileAdjacentResources kube mapping definition s = read at passes
  obtain ⟨e | outcome, middle⟩ := read
  · rfl
  · have loop : deleteAdjacentResources delete definition adjacent middle =
        deleteAdjacentResources delete' definition adjacent middle :=
      deleteAdjacentResources_congr agree down passes.below
    cases outcome with
    | none => rfl
    | some e =>
      dsimp only
      split
      · split
        · rfl
        · rw [bind_run, bind_run, loop]
      · rfl

/-- The body of a call with two recursive calls that agree on every smaller path map. -/
theorem deletion_congr {delete delete' : KubernetesApiMapping → KubernetesResourceDefinition → Task Unit}
    (agree : ∀ mapping definition s', s'.runtime.entries < s.runtime.entries →
      delete mapping definition s' = delete' mapping definition s')
    (down : ∀ mapping definition s', GoesDown path s' (delete' mapping definition s')) :
    (getPathWithAdjacentResources node path mapping definition >>= fun chosen =>
      deleteWithAdjacentResources kube node delete path chosen.1 chosen.2.1 chosen.2.2) s =
    (getPathWithAdjacentResources node path mapping definition >>= fun chosen =>
      deleteWithAdjacentResources kube node delete' path chosen.1 chosen.2.1 chosen.2.2) s := by
  rw [bind_run, bind_run]
  generalize looked : getPathWithAdjacentResources node path mapping definition s = lookup
  obtain ⟨e | ⟨adjacent, chosen⟩, middle⟩ := lookup
  · rfl
  · apply deleteWithAdjacentResources_congr ?_ down
    intro entry member mapping definition s' below
    have smaller := getPathWithAdjacentResources_smaller looked member
    have left : s'.runtime.entries ≤ middle.runtime.entries := below.entries
    exact agree mapping definition s' (by omega)

theorem deleteWithAdjacentResources_alone {delete : KubernetesApiMapping → KubernetesResourceDefinition → Task Unit} :
    Unstarting s (deleteWithAdjacentResources kube node delete path [] definition mapping s).2 := by
  have other : deleteWithAdjacentResources kube node delete path [] definition mapping s =
      deleteWithAdjacentResources kube node (fun _ _ => Program.raise noResource) path [] definition mapping s := by
    apply deleteWithAdjacentResources_congr
    · intro entry member
      cases member
    · intro mapping definition s'
      exact Descends.raise _
  rw [other]
  exact deleteWithAdjacentResources_within unstarting_offline node path (fun _ _ => .raise _) []
    (doResourceRead_passes.mono fun _ _ passed => passed.unstarting) (deleteWhileAdjacentResources_unstarting []) s

/-- What the body of a call starts has fewer entries in its path map. -/
theorem deletion_starts {delete : KubernetesApiMapping → KubernetesResourceDefinition → Task Unit}
    (down : ∀ mapping definition s', GoesDown path s' (delete mapping definition s')) : ∃ events,
    ((getPathWithAdjacentResources node path mapping definition >>= fun chosen =>
      deleteWithAdjacentResources kube node delete path chosen.1 chosen.2.1 chosen.2.2) s).2.log = s.log ++ events ∧
    ((path, s.runtime) :: events.filterMap Event.start?).Pairwise Below ∧
    ∀ start ∈ events.filterMap Event.start?, start.2.entries < s.runtime.entries := by
  have lookup : Unstarting s (getPathWithAdjacentResources node path mapping definition s).2 :=
    getPathWithAdjacentResources_unstarting s
  have less : Lessens s (getPathWithAdjacentResources node path mapping definition s).2 :=
    getPathWithAdjacentResources_lessens s
  obtain ⟨choices, grown, unstarted⟩ := lookup.events
  have none : choices.filterMap Event.start? = [] := List.filterMap_eq_nil_iff.mpr unstarted
  rw [bind_run]
  generalize looked : getPathWithAdjacentResources node path mapping definition s = outcome at grown less
  obtain ⟨e | ⟨adjacent, definition', mapping'⟩, middle⟩ := outcome
  · refine ⟨choices, grown, ?_, ?_⟩
    · rw [none]
      exact List.pairwise_singleton _ _
    · rw [none]
      simp
  · have below : Below (path, s.runtime) (path, middle.runtime) := ⟨rfl, less.files⟩
    have grown : middle.log = s.log ++ choices := grown
    cases adjacent with
    | nil =>
      obtain ⟨later, grown', unstarted'⟩ := (deleteWithAdjacentResources_alone (s := middle)).events
      have none' : later.filterMap Event.start? = [] := List.filterMap_eq_nil_iff.mpr unstarted'
      refine ⟨choices ++ later, ?_, ?_, ?_⟩
      · rw [← List.append_assoc, ← grown]
        exact grown'
      · rw [List.filterMap_append, none, none']
        exact List.pairwise_singleton _ _
      · rw [List.filterMap_append, none, none']
        simp
    | cons entry rest =>
      have smaller := getPathWithAdjacentResources_smaller looked List.mem_cons_self
      obtain ⟨later, grown', chain, _⟩ := deleteWithAdjacentResources_goesDown (s := middle) down (entry :: rest)
      obtain ⟨first, chain⟩ := List.pairwise_cons.mp chain
      refine ⟨choices ++ later, ?_, ?_, ?_⟩
      · rw [← List.append_assoc, ← grown]
        exact grown'
      · rw [List.filterMap_append, none, List.nil_append]
        apply List.pairwise_cons.mpr
        refine ⟨?_, chain⟩
        intro start member
        exact IsTrans.trans _ _ _ below (first start member)
      · rw [List.filterMap_append, none, List.nil_append]
        intro start member
        have left := (first start member).entries
        dsimp only at left
        omega

variable (kube node path mapping definition s)

/-- Any two depths that are more than the path map has entries do the same. -/
theorem fileResourceDeleteTask_depths {depth depth' : Nat} (enough : s.runtime.entries < depth)
    (enough' : s.runtime.entries < depth') :
    fileResourceDeleteTask kube node depth path mapping definition s =
      fileResourceDeleteTask kube node depth' path mapping definition s := by
  induction depth generalizing depth' mapping definition s with
  | zero => omega
  | succ depth ih =>
    cases depth' with
    | zero => omega
    | succ depth' =>
      rw [fileResourceDeleteTask_succ, fileResourceDeleteTask_succ]
      apply deletion_congr
      · intro mapping definition s' smaller
        have smaller : s'.runtime.entries < s.runtime.entries := smaller
        apply ih <;> omega
      · intro mapping definition s'
        exact fileResourceDeleteTask_goesDown depth'

def deletionBody (delete : KubernetesApiMapping → KubernetesResourceDefinition → Task Unit)
    (mapping : KubernetesApiMapping) (definition : KubernetesResourceDefinition) : Task Unit := do
  let runtime ← getRuntime
  record (.entered path mapping definition runtime)
  let (adjacent, definition, mapping) ← getPathWithAdjacentResources node path mapping definition
  deleteWithAdjacentResources kube node delete path adjacent definition mapping

def fileResourceDeletion (mapping : KubernetesApiMapping) (definition : KubernetesResourceDefinition) : Task Unit :=
  fun s => fileResourceDeleteTask kube node (recursionDepth s.runtime) path mapping definition s

theorem fileDeletion_task :
    (fileDeletion kube node).task path mapping definition = fileResourceDeletion kube node path mapping definition :=
  rfl

theorem deletionBody_run (delete : KubernetesApiMapping → KubernetesResourceDefinition → Task Unit) :
    deletionBody kube node path delete mapping definition s =
      (getPathWithAdjacentResources node path mapping definition >>= fun chosen =>
        deleteWithAdjacentResources kube node delete path chosen.1 chosen.2.1 chosen.2.2)
        { s with log := s.log ++ [.entered path mapping definition s.runtime] } :=
  rfl

theorem deletionBody_congr {delete delete' : KubernetesApiMapping → KubernetesResourceDefinition → Task Unit}
    (agree : ∀ mapping definition s', s'.runtime.entries < s.runtime.entries →
      delete mapping definition s' = delete' mapping definition s')
    (down : ∀ mapping definition s', GoesDown path s' (delete' mapping definition s')) :
    deletionBody kube node path delete mapping definition s = deletionBody kube node path delete' mapping definition s := by
  rw [deletionBody_run, deletionBody_run]
  exact deletion_congr agree down

theorem fileResourceDeletion_goesDown :
    GoesDown path s (fileResourceDeletion kube node path mapping definition s) :=
  fileResourceDeleteTask_goesDown (recursionDepth s.runtime)

theorem fileResourceDeletion_eq : fileResourceDeletion kube node path mapping definition s =
    deletionBody kube node path (fileResourceDeletion kube node path) mapping definition s := by
  have unfolded : fileResourceDeletion kube node path mapping definition s =
      deletionBody kube node path (fileResourceDeleteTask kube node s.runtime.entries path) mapping definition s := rfl
  rw [unfolded]
  apply deletionBody_congr
  · intro mapping definition s' smaller
    apply fileResourceDeleteTask_depths
    · exact smaller
    · exact Nat.lt_succ_self _
  · intro mapping definition s'
    exact fileResourceDeletion_goesDown kube node path mapping definition s'

theorem fileResourceDeletion_unique {delete : KubernetesApiMapping → KubernetesResourceDefinition → Task Unit}
    (recursive : ∀ mapping definition s,
      delete mapping definition s = deletionBody kube node path delete mapping definition s) :
    delete mapping definition s = fileResourceDeletion kube node path mapping definition s := by
  induction measured : s.runtime.entries using Nat.strong_induction_on generalizing mapping definition s with
  | _ n ih =>
    rw [recursive, fileResourceDeletion_eq]
    apply deletionBody_congr
    · intro mapping definition s' smaller
      apply ih s'.runtime.entries
      · omega
      · rfl
    · intro mapping definition s'
      exact fileResourceDeletion_goesDown kube node path mapping definition s'

theorem fileResourceDeletion_starts : ∃ events,
    (fileResourceDeletion kube node path mapping definition s).2.log =
      s.log ++ .entered path mapping definition s.runtime :: events ∧
    ((path, s.runtime) :: events.filterMap Event.start?).Pairwise Below ∧
    ∀ start ∈ events.filterMap Event.start?, start.2.entries < s.runtime.entries := by
  rw [fileResourceDeletion_eq, deletionBody_run]
  obtain ⟨events, grown, chain, smaller⟩ := @deletion_starts kube node path mapping definition
    { s with log := s.log ++ [.entered path mapping definition s.runtime] } _
    (fileResourceDeletion_goesDown kube node path)
  exact ⟨events, grown.trans (List.append_assoc _ _ _), chain, smaller⟩

/-- Where the loop over the adjacent records is over, no record has been added. -/
theorem fileResourceDeletion_loop {adjacent : List (String × Value)} {definition' : KubernetesResourceDefinition}
    {mapping' : KubernetesApiMapping} {middle last s' : State} {outcome : Option Exception}
    (looked : getPathWithAdjacentResources node path mapping definition s =
      (.ok (adjacent, definition', mapping'), middle))
    (read : readWhileAdjacentResources kube mapping' definition' middle = (.ok outcome, last))
    (looped : deleteAdjacentResources (fileResourceDeletion kube node path) definition' adjacent last = (.ok (), s')) :
    Below (path, s.runtime) (path, s'.runtime) := by
  have lookup : GoesDown path s (getPathWithAdjacentResources node path mapping definition s) :=
    getPathWithAdjacentResources_goesDown
  have answer : GoesDown path middle (readWhileAdjacentResources kube mapping' definition' middle) :=
    GoesDown.of_passes readWhileAdjacentResources_passes
  have loop : GoesDown path last (deleteAdjacentResources (fileResourceDeletion kube node path) definition' adjacent
      last) :=
    deleteAdjacentResources_goesDown (fileResourceDeletion_goesDown kube node path) adjacent
  rw [looked] at lookup
  rw [read] at answer
  rw [looped] at loop
  exact IsTrans.trans _ _ _ lookup.below (IsTrans.trans _ _ _ answer.below loop.below)

/-- The recursion ends: its equation has one solution, which is what any depth beyond the entries of
    the path map does. Its calls start one after another with entries of the map that are left. -/
theorem fileResourceDeletion_terminates :
    (∀ depth, s.runtime.entries < depth → fileResourceDeleteTask kube node depth path mapping definition s =
      fileResourceDeletion kube node path mapping definition s) ∧
    fileResourceDeletion kube node path mapping definition s =
      deletionBody kube node path (fileResourceDeletion kube node path) mapping definition s ∧
    (∀ delete, (∀ mapping definition s,
        delete mapping definition s = deletionBody kube node path delete mapping definition s) →
      delete mapping definition s = fileResourceDeletion kube node path mapping definition s) ∧
    (∃ events, (fileResourceDeletion kube node path mapping definition s).2.log =
        s.log ++ .entered path mapping definition s.runtime :: events ∧
      ((path, s.runtime) :: events.filterMap Event.start?).Pairwise Below ∧
      ∀ start ∈ events.filterMap Event.start?, start.2.entries < s.runtime.entries) ∧
    ∀ adjacent definition' mapping' middle outcome last s',
      getPathWithAdjacentResources node path mapping definition s = (.ok (adjacent, definition', mapping'), middle) →
      readWhileAdjacentResources kube mapping' definition' middle = (.ok outcome, last) →
      deleteAdjacentResources (fileResourceDeletion kube node path) definition' adjacent last = (.ok (), s') →
      Below (path, s.runtime) (path, s'.runtime) := by
  refine ⟨?_, fileResourceDeletion_eq kube node path mapping definition s, ?_,
    fileResourceDeletion_starts kube node path mapping definition s, ?_⟩
  · intro depth enough
    exact fileResourceDeleteTask_depths kube node path mapping definition s enough (Nat.lt_succ_self _)
  · intro delete recursive
    exact fileResourceDeletion_unique kube node path mapping definition s recursive
  · intro adjacent definition' mapping' middle outcome last s' looked read looped
    exact fileResourceDeletion_loop kube node path mapping definition s looked read looped

end

end CloudifyKubernetes
