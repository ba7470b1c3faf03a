import CloudifyKubernetes.K8s.Package
import CloudifyKubernetes.Lookup

namespace CloudifyKubernetes

open Collections Effects Program

def agrees (left right : Value) : Bool :=
  match matchResource left right with
  | .ok same => same
  | .error _ => false

theorem agrees_iff (left right : Value) : agrees left right = true ↔ matchResource left right = .ok true := by
  unfold agrees
  split <;> rename_i result <;> simp [result]

def recordedFiles (runtime : RuntimeProperties) : Dict := runtime.kubernetes.getD .empty

def storedDefinitions (runtime : RuntimeProperties) : List Value := runtime.resourceDefinitions.getD []

def noResource : Exception := ⟨.nonRecoverableError, "No resource could be resolved."⟩

/-- The file that a lookup settles on, with its record: the one that it is asked for, or
    without a record of that the one that the definitions lead to. -/
def settledFile (path : String) (runtime : RuntimeProperties) : Except Exception (String × Value) :=
  match (recordedFiles runtime).get? path with
  | some resource => .ok (path, resource)
  | none =>
    match (storedDefinitions runtime).getLast? with
    | none => .error noResource
    | some definition => recordedFile definition path .none (recordedFiles runtime).items

/-- The runtime properties once a lookup has settled: without a record of the path the last
    definition is popped. -/
def poppedFor (path : String) (runtime : RuntimeProperties) : RuntimeProperties :=
  match (recordedFiles runtime).get? path with
  | some _ => runtime
  | none => popStored runtime

theorem popStored_of_empty {runtime : RuntimeProperties}
    (none : (storedDefinitions runtime).getLast? = none) : popStored runtime = runtime := by
  obtain ⟨kubernetes, definitions, performTask⟩ := runtime
  cases definitions with
  | none => rfl
  | some definitions =>
    have empty : definitions = [] := List.getLast?_eq_none_iff.mp none
    rw [empty]
    rfl

theorem popStored_of_last {runtime : RuntimeProperties} {definition : Value}
    (last : (storedDefinitions runtime).getLast? = some definition) :
    popStored runtime = { runtime with resourceDefinitions := some (storedDefinitions runtime).dropLast } := by
  obtain ⟨kubernetes, definitions, performTask⟩ := runtime
  cases definitions with
  | none => cases last
  | some definitions => rfl

def takenWith (name : String) (resource : Value) (files : Dict) :
    Except Exception (List (String × Value)) := do
  let stem ← fileStem name
  adjacentResources stem resource files.items

theorem takeAdjacent_run (name : String) (resource : Value) (files : Dict) (s : State) :
    takeAdjacent true name resource files s =
      if resource.truthy then
        match takenWith name resource files with
        | .error e => (.error e, s)
        | .ok adjacent => (.ok ⟨name, resource, adjacent⟩, { s with runtime := { s.runtime with
            kubernetes := some (files.filter fun key _ => key ∉ adjacent.map Prod.fst)
            resourceDefinitions := some (storedDefinitions s.runtime) } })
      else (.ok ⟨name, resource, []⟩, s) := by
  unfold takeAdjacent
  cases resource.truthy with
  | false => rfl
  | true =>
    simp only [if_true, takenWith]
    rw [bind_run, ofExcept_run]
    cases fileStem name with
    | error e => rfl
    | ok stem =>
      simp only [bind, Except.bind]
      change (ofExcept (adjacentResources stem resource files.items) >>= fun _ => _) s = _
      rw [bind_run, ofExcept_run]
      cases adjacentResources stem resource files.items <;> rfl

theorem retrieveLastCreatePath_run (path : String) (s : State) :
    retrieveLastCreatePath path true s =
      match settledFile path s.runtime with
      | .error e => (.error e, { s with runtime := poppedFor path s.runtime })
      | .ok (name, resource) =>
        takeAdjacent true name resource ((recordedFiles s.runtime).erase name)
          { s with runtime := poppedFor path s.runtime } := by
  rw [retrieveLastCreatePath, bind_run_ok (getRuntime_run s)]
  simp only [settledFile, poppedFor]
  change (match (recordedFiles s.runtime).get? path with | some resource => _ | none => _ : Task _) s = _
  cases (recordedFiles s.runtime).get? path with
  | some resource => rfl
  | none =>
    change (match (storedDefinitions s.runtime).getLast? with | none => _ | some definition => _ : Task _) s = _
    cases last : (storedDefinitions s.runtime).getLast? with
    | none =>
      rw [popStored_of_empty last]
      rfl
    | some definition =>
      rw [popStored_of_last last]
      change (modifyRuntime _ >>= fun _ => ofExcept (recordedFile definition path .none
        (recordedFiles s.runtime).items) >>= fun settled => takeAdjacent true settled.1 settled.2
          ((recordedFiles s.runtime).erase settled.1) : Task _) s = _
      rw [bind_run_ok (modifyRuntime_run _ s), bind_run, ofExcept_run]
      dsimp only
      cases recordedFile definition path .none (recordedFiles s.runtime).items <;> rfl

def besides (stem : String) (resource : Value) (items : List (String × Value)) : List (String × Value) :=
  items.filter fun e => Text.contains e.1 stem && !agrees e.2 resource

def Comparable (stem : String) (resource : Value) (items : List (String × Value)) : Prop :=
  ∀ e ∈ items, Text.contains e.1 stem = true → (matchResource e.2 resource).isOk = true

theorem adjacentResources_of_comparable {stem : String} {resource : Value} {items : List (String × Value)}
    (comparable : Comparable stem resource items) :
    adjacentResources stem resource items = .ok (besides stem resource items) := by
  induction items with
  | nil => rfl
  | cons entry rest ih =>
    obtain ⟨key, value⟩ := entry
    obtain ⟨first, others⟩ := List.forall_mem_cons.mp comparable
    simp only [adjacentResources, besides, List.filter_cons]
    cases inside : Text.contains key stem with
    | false => simpa [inside, besides] using ih others
    | true =>
      have compared := first inside
      cases outcome : matchResource value resource with
      | error e =>
        rw [outcome] at compared
        cases compared
      | ok same =>
        have agreed : agrees value resource = same := by rw [agrees, outcome]
        simp only [if_true, bind, Except.bind, ih others, agreed]
        cases same <;> rfl

theorem adjacentResources_ok {stem : String} {resource : Value} {items adjacent : List (String × Value)}
    (ran : adjacentResources stem resource items = .ok adjacent) : Comparable stem resource items := by
  induction items generalizing adjacent with
  | nil => simp [Comparable]
  | cons entry rest ih =>
    obtain ⟨key, value⟩ := entry
    simp only [adjacentResources] at ran
    refine List.forall_mem_cons.mpr ?_
    cases inside : Text.contains key stem with
    | false =>
      simp only [inside, Bool.false_eq_true, if_false] at ran
      exact ⟨by simp, ih ran⟩
    | true =>
      simp only [inside, if_true] at ran
      obtain ⟨same, compared, ran⟩ := ok_of_bind ran
      obtain ⟨others, later, _⟩ := ok_of_bind ran
      exact ⟨fun _ => by rw [compared]; rfl, ih later⟩

theorem adjacentResources_iff (stem : String) (resource : Value) (items adjacent : List (String × Value)) :
    adjacentResources stem resource items = .ok adjacent ↔
      Comparable stem resource items ∧ adjacent = besides stem resource items := by
  constructor
  · intro ran
    have comparable := adjacentResources_ok ran
    rw [adjacentResources_of_comparable comparable] at ran
    exact ⟨comparable, (Except.ok.inj ran).symm⟩
  · rintro ⟨comparable, rfl⟩
    exact adjacentResources_of_comparable comparable

/-- The search ends with a match, behind files that do not match; or nothing matches, and its
    variables are left with the last file, or with what they began with. -/
theorem recordedFile_cases {definition : Value} {path : String} {resource : Value}
    {items : List (String × Value)} {name : String} {found : Value}
    (ran : recordedFile definition path resource items = .ok (name, found)) :
    ((name, found) ∈ items ∧ matchResource definition found = .ok true) ∨
      (∀ e ∈ items, matchResource definition e.2 = .ok false) ∧
        (items.getLast?).getD (path, resource) = (name, found) := by
  induction items generalizing path resource with
  | nil =>
    cases ran
    exact .inr ⟨by simp, rfl⟩
  | cons entry rest ih =>
    obtain ⟨key, value⟩ := entry
    simp only [recordedFile] at ran
    cases compared : matchResource definition value with
    | error e =>
      rw [compared] at ran
      cases ran
    | ok same =>
      rw [compared] at ran
      cases same with
      | true =>
        cases ran
        exact .inl ⟨List.mem_cons_self, compared⟩
      | false =>
        rcases ih ran with ⟨member, matched⟩ | ⟨missed, last⟩
        · exact .inl ⟨List.mem_cons_of_mem _ member, matched⟩
        · refine .inr ⟨List.forall_mem_cons.mpr ⟨compared, missed⟩, ?_⟩
          rw [List.getLast?_cons]
          simpa using last

theorem recordedFile_of_unmatched {definition : Value} {items : List (String × Value)}
    (unmatched : ∀ e ∈ items, matchResource definition e.2 = .ok false) (path : String) (resource : Value) :
    recordedFile definition path resource items = .ok (items.getLast?.getD (path, resource)) := by
  induction items generalizing path resource with
  | nil => rfl
  | cons entry rest ih =>
    obtain ⟨key, value⟩ := entry
    obtain ⟨first, others⟩ := List.forall_mem_cons.mp unmatched
    have first : matchResource definition value = .ok false := first
    simp only [recordedFile, first, bind, Except.bind, Bool.false_eq_true, if_false, ih others,
      List.getLast?_cons, Option.getD_some]

theorem settledFile_entry {path : String} {runtime : RuntimeProperties} {name : String} {resource : Value}
    (settled : settledFile path runtime = .ok (name, resource)) (truthy : resource.truthy = true) :
    (recordedFiles runtime).get? name = some resource := by
  simp only [settledFile] at settled
  cases recorded : (recordedFiles runtime).get? path with
  | some found =>
    rw [recorded] at settled
    cases settled
    exact recorded
  | none =>
    rw [recorded] at settled
    cases last : (storedDefinitions runtime).getLast? with
    | none =>
      simp only [last] at settled
      cases settled
    | some definition =>
      simp only [last] at settled
      rw [← OrderedDict.mem_items_iff]
      rcases recordedFile_cases settled with ⟨member, _⟩ | ⟨_, taken⟩
      · exact member
      · cases final : (recordedFiles runtime).items.getLast? with
        | none =>
          rw [final] at taken
          cases taken
          cases truthy
        | some entry =>
          rw [final] at taken
          cases taken
          exact List.mem_of_getLast? final

/-- A resource that is found is taken with the others whose file name has its stem. -/
theorem retrieveLastCreatePath_taken {path : String} {s s' : State} {found : LastCreatePath}
    (ran : retrieveLastCreatePath path true s = (.ok found, s')) (truthy : found.resource.truthy = true) :
    settledFile path s.runtime = .ok (found.path, found.resource) ∧ ∃ stem, fileStem found.path = .ok stem ∧
      found.adjacent = besides stem found.resource ((recordedFiles s.runtime).erase found.path).items ∧
      recordedFiles s'.runtime = ((recordedFiles s.runtime).erase found.path).filter fun key _ =>
        key ∉ found.adjacent.map Prod.fst := by
  rw [retrieveLastCreatePath_run] at ran
  cases settled : settledFile path s.runtime with
  | error e =>
    rw [settled] at ran
    cases ran
  | ok settledOn =>
    obtain ⟨name, resource⟩ := settledOn
    simp only [settled, takeAdjacent_run] at ran
    split at ran
    · cases taken : takenWith name resource ((recordedFiles s.runtime).erase name) with
      | error e =>
        rw [taken] at ran
        cases ran
      | ok adjacent =>
        rw [taken] at ran
        cases ran
        obtain ⟨stem, named, others⟩ := ok_of_bind taken
        exact ⟨rfl, stem, named, ((adjacentResources_iff _ _ _ _).mp others).2, rfl⟩
    · rename_i untaken
      cases ran
      exact absurd truthy untaken

def leftOver (definition : Value) (files : Dict) : Bool :=
  (files.items.all fun e => match matchResource definition e.2 with
    | .ok same => !same
    | .error _ => false) &&
  match files.items.getLast? with
  | none => false
  | some (name, resource) => resource.truthy && (takenWith name resource (files.erase name)).isOk

theorem leftOver_iff (definition : Value) (files : Dict) :
    leftOver definition files = true ↔ (∀ e ∈ files.items, matchResource definition e.2 = .ok false) ∧
      ∃ name resource, files.items.getLast? = some (name, resource) ∧ resource.truthy = true ∧
        (takenWith name resource (files.erase name)).isOk = true := by
  unfold leftOver
  rw [Bool.and_eq_true, List.all_eq_true]
  refine and_congr (forall₂_congr fun e _ => ?_) ?_
  · cases matchResource definition e.2 <;> simp
  · cases files.items.getLast? with
    | none => simp
    | some entry =>
      obtain ⟨name, resource⟩ := entry
      simp

structure Selects (definition : Value) (files : Dict) (ran : Except Exception LastCreatePath × State) : Prop where
  matched : ∀ found, ran.1 = .ok found → found.resource.truthy = true →
    agrees definition found.resource = true
  unmatched : (∀ e ∈ files.items, agrees definition e.2 = false) →
    (∀ found, ran.1 = .ok found → found.resource.truthy = false) ∧
      ∀ e ∈ files.items, e ∈ (recordedFiles ran.2.runtime).items

theorem Selects.of_error {definition : Value} {e : Exception} {s : State} :
    Selects definition (recordedFiles s.runtime) (.error e, s) where
  matched _ ok := by cases ok
  unmatched _ := And.intro (fun _ ok => by cases ok) fun _ member => member

/-- For a file without a record the lookup takes a match of the definition that it pops, or
    nothing, exactly when it does not fall back on the last file. -/
theorem selects_iff (path : String) (s : State) (definition : Value)
    (unrecorded : (recordedFiles s.runtime).get? path = none)
    (last : (storedDefinitions s.runtime).getLast? = some definition) :
    Selects definition (recordedFiles s.runtime) (retrieveLastCreatePath path true s) ↔
      leftOver definition (recordedFiles s.runtime) = false := by
  have settled : settledFile path s.runtime =
      recordedFile definition path .none (recordedFiles s.runtime).items := by
    simp only [settledFile, unrecorded, last]
  have popped : poppedFor path s.runtime = popStored s.runtime := by simp only [poppedFor, unrecorded]
  rw [retrieveLastCreatePath_run, settled, popped, Bool.eq_false_iff, ne_eq, leftOver_iff]
  cases found : recordedFile definition path .none (recordedFiles s.runtime).items with
  | error e =>
    refine iff_of_true (.of_error (s := { s with runtime := popStored s.runtime })) ?_
    rintro ⟨unmatched, _⟩
    rw [recordedFile_of_unmatched unmatched] at found
    cases found
  | ok settledOn =>
    obtain ⟨name, resource⟩ := settledOn
    simp only [takeAdjacent_run]
    rcases recordedFile_cases found with ⟨member, matched⟩ | ⟨unmatched, taken⟩
    · -- A match ends the search, whatever is taken with it.
      have agreed : agrees definition resource = true := (agrees_iff _ _).mpr matched
      refine iff_of_true (Selects.mk (fun other ok _ => ?_) fun none => ?_) ?_
      · have same : other.resource = resource := by
          split at ok
          · split at ok <;> cases ok
            rfl
          · cases ok
            rfl
        rw [same]
        exact agreed
      · exact absurd agreed (by simp [none _ member])
      · rintro ⟨unmatched, _⟩
        have other : matchResource definition resource = .ok false := unmatched _ member
        cases matched.symm.trans other
    · have disagreed : ∀ e ∈ (recordedFiles s.runtime).items, agrees definition e.2 = false := by
        intro e member
        rw [agrees, unmatched e member]
      cases truthy : resource.truthy with
      | false =>
        refine iff_of_true ⟨?_, fun _ => ⟨?_, fun _ member => member⟩⟩ ?_
        · rintro _ ⟨rfl⟩ other
          cases truthy.symm.trans other
        · rintro _ ⟨rfl⟩
          exact truthy
        · rintro ⟨_, name', resource', last', truthy', _⟩
          rw [last'] at taken
          cases taken
          cases truthy.symm.trans truthy'
      | true =>
        simp only [if_true]
        cases with_ : takenWith name resource ((recordedFiles s.runtime).erase name) with
        | error e =>
          refine iff_of_true (.of_error (s := { s with runtime := popStored s.runtime })) ?_
          rintro ⟨_, name', resource', last', _, isOk⟩
          rw [last'] at taken
          cases taken
          rw [with_] at isOk
          cases isOk
        | ok adjacent =>
          have present : (recordedFiles s.runtime).items.getLast? = some (name, resource) := by
            cases last' : (recordedFiles s.runtime).items.getLast? with
            | none =>
              rw [last'] at taken
              cases taken
              cases truthy
            | some entry =>
              rw [last'] at taken
              cases taken
              rfl
          refine iff_of_false (fun selects => ?_) ?_
          · have untaken : resource.truthy = false := (selects.unmatched disagreed).1 _ rfl
            cases truthy.symm.trans untaken
          · exact fun none => none ⟨unmatched, name, resource, present, truthy, by rw [with_]; rfl⟩

open Package

def twoStores (path : String) (recorded stored : Value) : State :=
  { mainNamespace with runtime := {
      kubernetes := some (OrderedDict.empty.set path recorded)
      resourceDefinitions := some [stored] } }

/-- A stored definition whose record is lost takes the record of another resource. -/
theorem unmatched_selected : ¬ Selects (response "ConfigMap" "settings")
    (recordedFiles (twoStores "other.yaml" (response "Pod" "worker") (response "ConfigMap" "settings")).runtime)
    (retrieveLastCreatePath "new.yaml" true
      (twoStores "other.yaml" (response "Pod" "worker") (response "ConfigMap" "settings"))) := by
  intro selects
  have taken : returning (fun found _ => found.resource.truthy &&
        !agrees (response "ConfigMap" "settings") found.resource) (retrieveLastCreatePath "new.yaml" true
      (twoStores "other.yaml" (response "Pod" "worker") (response "ConfigMap" "settings"))) = true := by
    decide +kernel
  obtain ⟨found, s', ran, taken⟩ := returning_iff.mp taken
  rw [Bool.and_eq_true, Bool.not_eq_true'] at taken
  have matched := selects.matched found (by rw [ran]) taken.1
  cases taken.2.symm.trans matched

theorem selects_iff_unmatched :
    Selects (response "ConfigMap" "settings")
      (recordedFiles (twoStores "other.yaml" (response "Pod" "worker") (response "ConfigMap" "settings")).runtime)
      (retrieveLastCreatePath "new.yaml" true
        (twoStores "other.yaml" (response "Pod" "worker") (response "ConfigMap" "settings"))) ↔
      leftOver (response "ConfigMap" "settings") (recordedFiles
        (twoStores "other.yaml" (response "Pod" "worker") (response "ConfigMap" "settings")).runtime) = false :=
  selects_iff "new.yaml" _ _ rfl rfl

def Attributed {α : Type} (result : Except Exception α) : Prop :=
  ∀ e, result = .error e → e.cls = .attributeError

namespace Attributed

variable {α β : Type}

theorem ok (value : α) : Attributed (.ok value : Except Exception α) := fun _ failed => by cases failed

theorem bind {result : Except Exception α} {next : α → Except Exception β} (first : Attributed result)
    (rest : ∀ value, Attributed (next value)) : Attributed (result >>= next) := by
  cases result with
  | ok value => exact rest value
  | error e =>
    intro e' failed
    cases failed
    exact first e rfl

theorem get (value : Value) (key : String) (default : Value) : Attributed (value.get key default) := by
  intro e failed
  unfold Value.get at failed
  split at failed <;> cases failed
  rfl

theorem ofDict (resource : Value) : Attributed (Identity.ofDict resource) :=
  (get _ _ _).bind fun _ => (get _ _ _).bind fun _ => (get _ _ _).bind fun _ => (get _ _ _).bind fun _ => ok _

theorem matchResource (left right : Value) : Attributed (matchResource left right) :=
  (ofDict _).bind fun _ => (ofDict _).bind fun _ => ok _

theorem recordedFile (definition : Value) (path : String) (resource : Value) (items : List (String × Value)) :
    Attributed (recordedFile definition path resource items) := by
  induction items generalizing path resource with
  | nil => exact ok _
  | cons entry rest ih =>
    refine (matchResource _ _).bind fun same => ?_
    cases same with
    | true => exact ok _
    | false => exact ih _ _

theorem adjacentResources (stem : String) (resource : Value) (items : List (String × Value)) :
    Attributed (adjacentResources stem resource items) := by
  induction items with
  | nil => exact ok _
  | cons entry rest ih =>
    unfold CloudifyKubernetes.adjacentResources
    split
    · exact (matchResource _ _).bind fun _ => ih.bind fun _ => ok _
    · exact ih

end Attributed

theorem fileStem_ok_iff (path : String) :
    (∃ stem, fileStem path = .ok stem) ↔ (Text.split path ".yaml").length = 2 := by
  unfold fileStem
  split
  · rename_i stem rest pieces
    simp [pieces]
  · rename_i piece pieces
    simp [pieces]
  · rename_i pair _
    simp only [reduceCtorEq, exists_false, false_iff]
    intro length
    obtain ⟨stem, rest, pieces⟩ := List.length_eq_two.mp length
    exact pair stem rest pieces

theorem fileStem_error {path : String} {e : Exception} (failed : fileStem path = .error e) :
    e.cls = .valueError := by
  unfold fileStem at failed
  split at failed <;> cases failed <;> rfl

theorem takenWith_error_cls {name : String} {resource : Value} {files : Dict} {e : Exception}
    (failed : takenWith name resource files = .error e) : e.cls = .valueError ∨ e.cls = .attributeError := by
  unfold takenWith at failed
  cases stem : fileStem name with
  | error e =>
    rw [stem] at failed
    cases failed
    exact .inl (fileStem_error stem)
  | ok found =>
    rw [stem] at failed
    exact .inr (Attributed.adjacentResources _ _ _ _ failed)

theorem takenWith_error {name : String} {resource : Value} {files : Dict} {e : Exception}
    (failed : takenWith name resource files = .error e) : e ≠ noResource := by
  rintro rfl
  rcases takenWith_error_cls failed with cls | cls <;> cases cls

def Clean (s : State) (ran : Except Exception LastCreatePath × State) : Prop :=
  ∀ e, ran.1 = .error e → e = noResource ∧ ran.2.runtime.kubernetes = s.runtime.kubernetes ∧
    ran.2.runtime.resourceDefinitions = s.runtime.resourceDefinitions

/-- The records that are taken from a file can be told: its name has the extension exactly
    once, and the records that share its stem can be compared. -/
def Takeable (name : String) (resource : Value) (files : Dict) : Prop :=
  (Text.split name ".yaml").length = 2 ∧
    ∀ stem, fileStem name = .ok stem → Comparable stem resource (files.erase name).items

theorem takenWith_isOk_iff (name : String) (resource : Value) (files : Dict) :
    (takenWith name resource (files.erase name)).isOk = true ↔ Takeable name resource files := by
  rw [Takeable, ← fileStem_ok_iff]
  cases stem : fileStem name with
  | error e => simp [takenWith, stem, bind, Except.bind, Except.isOk, Except.toBool]
  | ok found =>
    have isOk : (adjacentResources found resource (files.erase name).items).isOk = true ↔
        Comparable found resource (files.erase name).items := by
      constructor
      · intro ok
        cases ran : adjacentResources found resource (files.erase name).items with
        | error e =>
          rw [ran] at ok
          cases ok
        | ok adjacent => exact adjacentResources_ok ran
      · intro comparable
        rw [adjacentResources_of_comparable comparable]
        rfl
    simpa [takenWith, stem, bind, Except.bind] using isOk

/-- The lookup fails cleanly exactly when there is neither a record of the path nor a stored
    definition, or it settles on a file with nothing recorded or whose records can be told. -/
theorem clean_iff (path : String) (s : State) :
    Clean s (retrieveLastCreatePath path true s) ↔
      ((recordedFiles s.runtime).get? path = none ∧ storedDefinitions s.runtime = []) ∨
      ∃ name resource, settledFile path s.runtime = .ok (name, resource) ∧
        (resource.truthy = true → Takeable name resource (recordedFiles s.runtime)) := by
  rw [retrieveLastCreatePath_run]
  cases settled : settledFile path s.runtime with
  | error e =>
    simp only [settledFile] at settled
    cases recorded : (recordedFiles s.runtime).get? path with
    | some resource =>
      rw [recorded] at settled
      cases settled
    | none =>
      rw [recorded] at settled
      cases last : (storedDefinitions s.runtime).getLast? with
      | none =>
        simp only [last] at settled
        cases settled
        refine iff_of_true ?_ (.inl ⟨rfl, List.getLast?_eq_none_iff.mp last⟩)
        rintro _ ⟨rfl⟩
        simp [poppedFor, recorded, popStored_of_empty last]
      | some definition =>
        simp only [last] at settled
        refine iff_of_false (fun clean => ?_) ?_
        · obtain ⟨rfl, _⟩ := clean e rfl
          cases Attributed.recordedFile _ _ _ _ _ settled
        · rintro (⟨_, empty⟩ | ⟨_, _, other, _⟩)
          · rw [empty] at last
            cases last
          · cases other
  | ok settledOn =>
    obtain ⟨name, resource⟩ := settledOn
    have resolved : ¬ ((recordedFiles s.runtime).get? path = none ∧ storedDefinitions s.runtime = []) := by
      rintro ⟨recorded, empty⟩
      simp [settledFile, recorded, empty] at settled
    simp only [takeAdjacent_run, resolved, false_or, Except.ok.injEq, Prod.mk.injEq, and_assoc,
      exists_eq_left', exists_and_left, ← takenWith_isOk_iff]
    cases truthy : resource.truthy with
    | false => simp [Clean]
    | true =>
      cases taken : takenWith name resource ((recordedFiles s.runtime).erase name) with
      | error e => simp [Clean, takenWith_error taken, Except.isOk, Except.toBool]
      | ok adjacent => simp [Clean, Except.isOk, Except.toBool]

/-- A file with another extension can be created, and its lookup raises a value error. -/
theorem other_extension_unclean : ¬ Clean
    (twoStores "app.yml" (response "ConfigMap" "settings") (response "ConfigMap" "settings"))
    (retrieveLastCreatePath "app.yml" true
      (twoStores "app.yml" (response "ConfigMap" "settings") (response "ConfigMap" "settings"))) := by
  intro clean
  have raised : (match (retrieveLastCreatePath "app.yml" true
      (twoStores "app.yml" (response "ConfigMap" "settings") (response "ConfigMap" "settings"))).1 with
    | .ok _ => false
    | .error e => e.cls == .valueError) = true := by decide +kernel
  split at raised
  · cases raised
  · rename_i e ran
    obtain ⟨rfl, _⟩ := clean e ran
    cases raised

end CloudifyKubernetes
