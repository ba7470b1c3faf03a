import CloudifyKubernetes.Creation
import CloudifyKubernetes.DeletionRuns
import CloudifyKubernetes.Namespaces

namespace CloudifyKubernetes

open Collections Effects Program Relation

structure Target where
  mapping : KubernetesApiMapping
  kind : String
  name : Value
  namesp : Value

def ClientCall.target (c : ClientCall) : Target where
  mapping := c.mapping
  kind := KubernetesResourceDefinition.shortKind c.definition.kind
  name := (c.definition.metadata.get "name" .none).toOption.getD .none
  namesp := c.definition.ownNamespace

def Verb.mutates : Verb → Bool
  | .delete _ | .update => true
  | _ => false

def Event.harms (present : Target → Bool) : Event → Bool
  | .called c => c.verb.mutates && present c.target
  | _ => false

/-- The check that precedes a deletion passes over the resource: the read fails, or what it
    finds is empty. A file deletion also acts on a claim with the protecting finalizer. -/
def overlooks (file : Bool) (definition : KubernetesResourceDefinition) :
    Except Exception Value → Bool
  | .error e => e.isA .apiOperationError
  | .ok (.dict entries) =>
    entries.isEmpty || (file && !definition.apiVersion.isNone &&
      Text.contains (Value.dict entries).clean.clean.toText pvcProtection)
  | .ok _ => false

def Event.exposes (present : Target → Bool) (file : Bool) : Event → Bool
  | .returned ⟨.read .beforeDelete, mapping, definition⟩ result =>
    overlooks file definition result && present (ClientCall.target ⟨.read .beforeDelete, mapping, definition⟩)
  | _ => false

abbrev Guarded (present : Target → Bool) (file : Bool) : State → State → Prop :=
  Grows State.log (fun e => e.exposes present file = true) fun e => e.harms present = true

section

variable {kube : Kubernetes} {node : Node} {present : Target → Bool} {file : Bool}
  {mapping : KubernetesApiMapping} {definition : KubernetesResourceDefinition}

theorem guarded_offline : Offline (Guarded present file) :=
  grows_offline fun e free => by cases e <;> simp_all [Event.call?, Event.harms, Event.exposes]

theorem doResourceRead_guarded {site : Site} (other : site ≠ .beforeDelete) :
    Within (Guarded present file) (doResourceRead kube site mapping definition) := by
  have steps : Within (Steps kube fun verb => verb = .read site)
      (doResourceRead kube site mapping definition) := doResourceRead_steps rfl
  refine steps.mono fun s s' steps => steps_grow steps fun e permitted => ?_
  cases e with
  | called c => simp [Event.harms, Event.exposes, permitted c rfl, Verb.mutates]
  | returned c result =>
    obtain ⟨verb, mapping, definition⟩ := c
    cases permitted _ rfl
    cases site <;> simp_all [Event.harms, Event.exposes]
  | _ => simp [Event.harms, Event.exposes]

theorem checkIfResourceExists_guarded {site : Site} (other : site ≠ .beforeDelete) :
    Within (Guarded present file) (checkIfResourceExists kube site mapping definition) :=
  checkIfResourceExists_within (doResourceRead_guarded other)

theorem index_ok {value name : Value} {key : String} (named : value.index key = .ok name) :
    ∃ entries, value = .dict entries := by
  unfold Value.index at named
  split at named
  · exact ⟨_, rfl⟩
  · cases named

/-- The check finds nothing exactly when the read fails or finds an empty dictionary. -/
theorem existing_truthy {checked : Except Exception Value} {found : Value}
    (answered : existing definition (checked >>= jsonCleanuper) = .ok found) :
    found.truthy = !overlooks false definition checked := by
  cases checked with
  | error e =>
    simp only [existing, bind, Except.bind] at answered
    split at answered
    · rename_i asked
      cases named : definition.metadata.index "name" with
      | error e' =>
        rw [named] at answered
        cases answered
      | ok name =>
        rw [named] at answered
        cases answered
        simp [overlooks, asked, Value.truthy]
    · cases answered
  | ok response =>
    cases response with
    | dict entries =>
      cases answered
      cases entries <;> simp [Value.clean, Value.cleanEntries, Value.truthy, overlooks]
    | _ => cases answered

theorem overlooks_of_unchecked {name : Value} (named : definition.metadata.index "name" = .ok name)
    {checked : Except Exception Value} {e : Exception}
    (failed : existing definition (checked >>= jsonCleanuper) = .error e) :
    overlooks file definition checked = false := by
  cases checked with
  | error e' =>
    cases asked : e'.isA .apiOperationError with
    | true => simp [existing, bind, Except.bind, asked, named, Except.map] at failed
    | false => exact asked
  | ok response =>
    cases response with
    | dict entries => cases failed
    | _ => rfl

theorem call_neutral {c : ClientCall} {result : Except Exception Value} {events : List Event}
    (call : CallEvents c result events)
    (uncalled : (Event.called c).harms present = false)
    (returned : (Event.returned c result).exposes present file = false) :
    ∀ e ∈ events, ¬ e.harms present = true ∧ ¬ e.exposes present file = true := by
  obtain ⟨sent, rfl, requests⟩ := call
  intro e member
  simp only [List.mem_cons, List.mem_append, List.not_mem_nil, or_false] at member
  rcases member with rfl | member | rfl
  · simp [uncalled, Event.exposes]
  · obtain ⟨request, answer, rfl⟩ := requests e member
    simp [Event.harms, Event.exposes]
  · simp [returned, Event.harms]

theorem absent_neutral {e : Event} (absent : ∀ c, e.call? = some c → present c.target = false) :
    ¬ e.harms present = true ∧ ¬ e.exposes present file = true := by
  cases e with
  | called c => simp [Event.harms, Event.exposes, absent c rfl]
  | returned c result =>
    have none := absent c rfl
    obtain ⟨verb, mapping, definition⟩ := c
    constructor
    · simp [Event.harms]
    · unfold Event.exposes
      split
      · rename_i same
        cases same
        simp [none]
      · simp
  | _ => simp [Event.harms, Event.exposes]

theorem edited_neutral (definition : KubernetesResourceDefinition) :
    ¬ (Event.edited definition).harms present = true ∧ ¬ (Event.edited definition).exposes present file = true := by
  simp [Event.harms, Event.exposes]

theorem check_neutral {checked : Except Exception Value} {events : List Event}
    (check : CallEvents ⟨.read .beforeDelete, mapping, definition⟩ checked events)
    (seen : overlooks file definition checked = false) :
    ∀ e ∈ (.edited definition :: .edited definition :: events : List Event),
      ¬ e.harms present = true ∧ ¬ e.exposes present file = true := by
  have neutral : ∀ e ∈ events, ¬ e.harms present = true ∧ ¬ e.exposes present file = true :=
    call_neutral check rfl (by simp [Event.exposes, seen])
  intro e member
  rcases List.mem_cons.mp member with rfl | member
  · exact edited_neutral definition
  rcases List.mem_cons.mp member with rfl | member
  · exact edited_neutral definition
  · exact neutral e member

theorem overlooks_of_withheld {checked : Except Exception Value} {found : Value}
    (answered : existing definition (checked >>= jsonCleanuper) = .ok found)
    (expected : (found.truthy && node.useExternalResource) = true) :
    overlooks false definition checked = false := by
  have truthy := existing_truthy answered
  rw [Bool.and_eq_true] at expected
  rw [expected.1] at truthy
  simpa using truthy.symm

theorem checked_of_withheld {checked : Except Exception Value} {found : Value}
    (answered : existing definition (checked >>= jsonCleanuper) = .ok found)
    (expected : (found.truthy && node.useExternalResource) = true) :
    ∃ entries, checked = .ok (.dict entries) ∧ found = (Value.dict entries).clean := by
  have seen := overlooks_of_withheld answered expected
  cases checked with
  | error e =>
    have unasked : e.isA .apiOperationError = false := seen
    simp [existing, bind, Except.bind, unasked] at answered
  | ok response =>
    cases response with
    | dict entries =>
      cases answered
      exact ⟨entries, rfl, rfl⟩
    | _ => cases answered

theorem overlooks_of_deleted (external : node.useExternalResource = true)
    {checked : Except Exception Value} {found : Value}
    (answered : existing definition (checked >>= jsonCleanuper) = .ok found)
    (unexpected : (found.truthy && node.useExternalResource) = false) :
    overlooks false definition checked = true := by
  have truthy := existing_truthy answered
  rw [external, Bool.and_true] at unexpected
  rw [unexpected] at truthy
  simpa using truthy.symm

theorem overlooks_mono {checked : Except Exception Value}
    (missed : overlooks false definition checked = true) : overlooks file definition checked = true := by
  cases checked with
  | error e => exact missed
  | ok response =>
    cases response with
    | dict entries =>
      simp only [overlooks, Bool.false_and, Bool.or_false] at missed
      simp [overlooks, missed]
    | _ => cases missed

theorem deleted_guarded {s s' : State} {checked result : Except Exception Value} {resourceId : Value}
    {events events' : List Event} (more : List Event)
    (there : present (ClientCall.target ⟨.read .beforeDelete, mapping, definition⟩) = true)
    (missed : overlooks file definition checked = true)
    (check : CallEvents ⟨.read .beforeDelete, mapping, definition⟩ checked events)
    (delete : CallEvents ⟨.delete resourceId, mapping, definition⟩ result events')
    (grown : s'.log = s.log ++ (.edited definition :: .edited definition :: (events ++ events') ++ more)) :
    Guarded present file s s' := by
  have called : .called ⟨.delete resourceId, mapping, definition⟩ ∈ events' :=
    (delete.mem_iff (by simp)).mpr (.inl rfl)
  have returned : .returned ⟨.read .beforeDelete, mapping, definition⟩ checked ∈ events :=
    (check.mem_iff (by simp)).mpr (.inr rfl)
  refine .of_both grown ⟨.called ⟨.delete resourceId, mapping, definition⟩, by simp [called], ?_⟩
    ⟨.returned ⟨.read .beforeDelete, mapping, definition⟩ checked, by simp [returned], ?_⟩
  · exact there
  · simp [Event.exposes, missed, there]

theorem doResourceDelete_absent (resourceId : Value)
    (absent : present (ClientCall.target ⟨.read .beforeDelete, mapping, definition⟩) = false) :
    Within (Guarded present file) (doResourceDelete kube node mapping definition resourceId) := by
  intro s
  obtain ⟨events, grown, calls⟩ := doResourceDelete_calls kube node mapping definition resourceId s
  refine .of_neutral grown fun e member => absent_neutral fun c same => ?_
  obtain ⟨rfl, rfl⟩ := calls e member c same
  exact absent

/-- The deletion of an external resource deletes it exactly when the check passes over it. -/
theorem doResourceDelete_guarded (external : node.useExternalResource = true) {name : Value}
    (named : definition.metadata.index "name" = .ok name) (resourceId : Value) :
    Within (Guarded present false) (doResourceDelete kube node mapping definition resourceId) := by
  intro s
  cases there : present (ClientCall.target ⟨.read .beforeDelete, mapping, definition⟩) with
  | false => exact doResourceDelete_absent resourceId there s
  | true =>
    have run := doResourceDelete_run kube node mapping definition resourceId s
    generalize doResourceDelete kube node mapping definition resourceId s = result at run ⊢
    cases run with
    | malformed e failed => exact .of_eq rfl
    | unchecked readable checked e options events check failed =>
      exact .of_neutral rfl (check_neutral check (overlooks_of_unchecked named failed))
    | withheld readable checked found options events check answered expected =>
      exact .of_neutral rfl (check_neutral check (overlooks_of_withheld answered expected))
    | deleted readable checked found options events check answered unexpected result events' delete =>
      exact deleted_guarded [] there (overlooks_of_deleted external answered unexpected) check delete
        (by rw [List.append_nil])

theorem target_released {entries : List (String × Value)} (metadata : definition.metadata = .dict entries)
    (verb verb' : Verb) : ClientCall.target ⟨verb, mapping, definition.released entries⟩ =
      ClientCall.target ⟨verb', mapping, definition⟩ := by
  simp only [ClientCall.target, KubernetesResourceDefinition.released,
    KubernetesResourceDefinition.shortKind_idem, KubernetesResourceDefinition.ownNamespace, metadata,
    Value.get, lookup_assign, String.reduceEq, if_false]

/-- The release of a claim calls the client for the claim only, and does so for one with an
    API version. -/
theorem preparePvcDelete_events (kube : Kubernetes) (mapping : KubernetesApiMapping) {name : Value}
    (named : definition.metadata.index "name" = .ok name)
    (s : State) :
    ∃ events, (preparePvcDelete kube mapping definition s).2.log = s.log ++ events ∧
      (∀ e ∈ events, ∀ c, e.call? = some c →
        c.target = ClientCall.target ⟨.read .beforeDelete, mapping, definition⟩) ∧
      (definition.apiVersion.isNone = true → events = []) ∧
      ((∃ annotations, customAnnotations definition = .ok annotations) →
        definition.apiVersion.isNone = false → ∃ c, .called c ∈ events ∧ c.verb = .update) := by
  obtain ⟨entries, metadata⟩ := index_ok named
  cases versioned : definition.apiVersion.isNone with
  | true =>
    obtain ⟨e, run⟩ : ∃ e, preparePvcDelete kube mapping definition s = (.error e, s) :=
      preparePvcDelete_unversioned metadata versioned s
    rw [run]
    exact ⟨[], by simp, by simp, fun _ => rfl, fun _ other => by cases other⟩
  | false =>
    have run := doResourceUpdate_run kube mapping (definition.released entries) s
    rw [preparePvcDelete_versioned metadata versioned]
    generalize doResourceUpdate kube mapping (definition.released entries) s = result at run ⊢
    cases run with
    | malformed e failed =>
      refine ⟨[], by simp, by simp, fun _ => rfl, fun readable _ => ?_⟩
      obtain ⟨annotations, found⟩ := readable
      rw [customAnnotations_released metadata, found] at failed
      cases failed
    | called result options events _ call =>
      refine ⟨.edited (definition.released entries) :: events, rfl, fun e member c same => ?_,
        fun other => (by cases other), fun _ _ => ⟨⟨.update, mapping, definition.released entries⟩, ?_, rfl⟩⟩
      · rcases List.mem_cons.mp member with rfl | member
        · cases same
        · cases (call.call?_eq e member).symm.trans same
          exact target_released metadata _ _
      · exact List.mem_cons_of_mem _ ((call.mem_iff (by simp)).mpr (.inl rfl))

/-- A file deletion also harms a claim that the check has found with its finalizer. -/
theorem deleteWhileAdjacentResources_guarded (external : node.useExternalResource = true) (path : String)
    (adjacent : List (String × Value)) : Within (Guarded present true)
      (deleteWhileAdjacentResources kube node path mapping definition adjacent) := by
  cases named : definition.metadata.index "name" with
  | error e =>
    rw [deleteWhileAdjacentResources, named]
    exact Within.raise e
  | ok name =>
    cases there : present (ClientCall.target ⟨.read .beforeDelete, mapping, definition⟩) with
    | false =>
      refine deleteWhileAdjacentResources_within guarded_offline _ _ _
        (fun name => doResourceDelete_absent name there) fun s => ?_
      obtain ⟨events, grown, targets, _, _⟩ := preparePvcDelete_events kube mapping named s
      exact .of_neutral grown fun e member => absent_neutral fun c same =>
        targets e member c same ▸ there
    | true =>
      intro s
      rw [deleteWhileAdjacentResources, named, bind_run_ok (ofExcept_run _ _),
        bind_run_ok (attempt_run _ _)]
      have run := doResourceDelete_run kube node mapping definition name s
      generalize doResourceDelete kube node mapping definition name s = result at run ⊢
      have raised (e : Exception) (s : State) :
          ((if e.isA .apiOperationError then
            Program.raise ⟨.typeError, "argument of type KuberentesApiOperationError is not iterable"⟩
          else Program.raise e : Task (Option Exception)) s).2 = s := by
        split <;> rfl
      cases run with
      | malformed e failed => exact .of_eq (by simp only [raised])
      | unchecked readable checked e options events check failed =>
        refine .of_neutral (by simp only [raised])
          (check_neutral check (overlooks_of_unchecked named failed))
      | withheld readable checked found options events check answered expected =>
        obtain ⟨entries, rfl, rfl⟩ := checked_of_withheld answered expected
        have seen := overlooks_of_withheld answered expected
        have cleaned : jsonCleanuper (Value.dict entries).clean = .ok (Value.dict entries).clean.clean := by
          rw [Value.clean]
          rfl
        simp only [cleaned, afterDeletion]
        rw [bind_run_ok (handleDeleteResource_run _ _ _), bind_run_ok (getPerformTask_run _)]
        simp only [external, Bool.and_self, Bool.not_true, Option.getD_some, Bool.false_eq_true, if_false]
        cases protecting : Text.contains (Value.dict entries).clean.clean.toText pvcProtection with
        | false =>
          refine .of_neutral rfl (check_neutral check ?_)
          simpa [overlooks, protecting] using seen
        | true =>
          have quiet (p : Task Unit) (s : State) :
              ((p >>= fun _ => pure none : Task (Option Exception)) s).2 = (p s).2 := by
            rw [bind_run]
            rcases p s with ⟨e | value, s'⟩ <;> rfl
          simp only [if_true, quiet]
          obtain ⟨more, grown, targets, unversioned, updated⟩ := preparePvcDelete_events kube mapping named _
          cases versioned : definition.apiVersion.isNone with
          | true =>
            cases unversioned versioned
            refine .of_neutral (by rw [grown, List.append_nil]) (check_neutral check ?_)
            simpa [overlooks, versioned] using seen
          | false =>
            obtain ⟨c, called, update⟩ := updated readable versioned
            have returned : .returned ⟨.read .beforeDelete, mapping, definition⟩ (.ok (.dict entries)) ∈
                events := (check.mem_iff (by simp)).mpr (.inr rfl)
            rw [List.append_assoc] at grown
            refine .of_both grown ⟨.called c, by simp [called], ?_⟩
              ⟨.returned ⟨.read .beforeDelete, mapping, definition⟩ (.ok (.dict entries)),
                by simp [returned], ?_⟩
            · simp [Event.harms, update, Verb.mutates, targets _ called c rfl, there]
            · simp [Event.exposes, overlooks, versioned, protecting, there]
      | deleted readable checked found options events check answered unexpected result events' delete =>
        have missed : overlooks true definition checked = true :=
          overlooks_mono (overlooks_of_deleted external answered unexpected)
        have ended {s' : State} (more : List Event) (grown : s'.log =
            s.log ++ .edited definition :: .edited definition :: (events ++ events') ++ more) :
            Guarded present true s s' := by
          rw [List.append_assoc] at grown
          exact deleted_guarded more there missed check delete grown
        cases cleaned : result >>= jsonCleanuper with
        | error e => exact ended [] (by simp only [raised, List.append_nil])
        | ok response =>
          have steps : Within (Steps kube fun _ => True)
              (afterDeletion kube node path mapping definition adjacent response) :=
            afterDeletion_within steps_offline node path adjacent response
              (preparePvcDelete_within fun _ => doResourceUpdate_steps trivial)
          obtain ⟨more, grown⟩ := steps_extend (steps _)
          exact ended more grown

def Operation.deletes : Operation → Bool
  | .resourceDelete _ | .customResourceDelete _ | .fileResourceDelete _ _
  | .multipleFileResourceDelete _ => true
  | _ => false

def Operation.ofFile : Operation → Bool
  | .fileResourceDelete _ _ | .multipleFileResourceDelete _ => true
  | _ => false

theorem deleteUnlessMissing_guarded (external : node.useExternalResource = true) (marker : String)
    {resourceExists : Value → KubernetesApiMapping → KubernetesResourceDefinition → Task Value}
    (check : ∀ found mapping definition,
      Within (Guarded present false) (resourceExists found mapping definition)) :
    Within (Guarded present false)
      (deleteUnlessMissing kube node marker resourceExists mapping definition) :=
  deleteUnlessMissing_within guarded_offline node marker check (doResourceRead_guarded (by decide))
    fun _ _ name named => doResourceDelete_guarded external named name

theorem fileResourceDelete_guarded (external : node.useExternalResource = true) (file : Option String)
    (definitions : List KubernetesResourceDefinition) :
    Within (Guarded present true) (fileResourceDelete kube node file definitions) :=
  resourceTask_of_task guarded_offline _ _ _ _ guarded_offline.mapped
    (by simpa using fun _ _ => checkIfResourceExists_guarded (by decide)) fun _ _ _ =>
      getRuntime_within.bind fun _ => fileResourceDeleteTask_within guarded_offline _ _ _
        (fun _ _ _ => grows_record (by simp [Event.harms, Event.exposes]))
        (fun _ _ => doResourceRead_guarded (by decide))
        fun _ _ _ => deleteWhileAdjacentResources_guarded external _ _

theorem Operation.run_guarded {ctx : OperationContext} {operation : Operation}
    (external : node.useExternalResource = true) (deletes : operation.deletes = true) :
    Within (Guarded present operation.ofFile) (operation.run kube node ctx) := by
  have state : ∀ stateFunction ∈ some (checkIfResourceExists kube .stateFunction), ∀ mapping definition,
      Within (Guarded present false) (stateFunction mapping definition) := by
    simpa using fun _ _ => checkIfResourceExists_guarded (by decide)
  cases operation with
  | resourceDelete definition =>
    exact resourceTask_of_task guarded_offline _ _ _ _ guarded_offline.mapped state fun _ _ _ =>
      deleteUnlessMissing_guarded external _ fun _ _ _ => .pure _
  | customResourceDelete definition =>
    exact resourceTask_of_task guarded_offline _ _ _ _ (fun _ => .ofExcept _) state fun _ _ _ =>
      deleteUnlessMissing_guarded external _ fun _ _ _ => checkIfResourceExists_guarded (by decide)
  | fileResourceDelete file definitions => exact fileResourceDelete_guarded external file definitions
  | multipleFileResourceDelete files =>
    exact multipleFileResource_within (fileResourceDelete_guarded external) files
  | _ => cases deletes

end

/-- An uninstall leaves the existing resources of an external node alone exactly when no check
    before a deletion passes over one of them. -/
theorem Operation.unharmed_iff (kube : Kubernetes) (node : Node) (ctx : OperationContext)
    (operation : Operation) (s : State) (present : Target → Bool)
    (external : node.useExternalResource = true) (deletes : operation.deletes = true)
    (fresh : s.log = []) :
    let log := (operation.run kube node ctx s).2.log
    (∀ e ∈ log, e.harms present = false) ↔ ∀ e ∈ log, e.exposes present operation.ofFile = false := by
  intro log
  have run : Guarded present operation.ofFile s (operation.run kube node ctx s).2 :=
    Operation.run_guarded external deletes s
  have grows := run.iff_of_empty fresh
  have none (p : Event → Bool) : (∀ e ∈ log, p e = false) ↔ ¬ ∃ e ∈ log, p e = true := by simp
  rw [none, none, grows]

open Package

def flaky (failing : Nat) : Kubernetes :=
  package fun earlier request =>
    if earlier.length = failing then
      .error (.apiException { status := some 500, reason := "Internal Server Error" })
    else everything.respond earlier request

def claim : KubernetesResourceDefinition where
  kind := "PersistentVolumeClaim"
  apiVersion := .str "v1"
  metadata := .dict [("name", .str "data"),
    ("finalizers", .list [.str "kubernetes.io/pvc-protection"])]
  attributes := .empty

def claimed : Kubernetes := package fun _ _ => .ok (.dict
  [("api_version", .str "v1"), ("kind", .str "PersistentVolumeClaim"), ("metadata", claim.metadata)])

/-- The third read of an external config map fails, and it is deleted; and an external claim
    that every read finds is updated. -/
theorem external_harmed :
    (¬ ∀ e ∈ ((Operation.resourceDelete (configMap "settings" none)).run (flaky 2) externalNode install
      mainNamespace).2.log, e.harms (fun _ => true) = false) ∧
    ¬ ∀ e ∈ ((Operation.fileResourceDelete none [claim]).run claimed externalNode install
      mainNamespace).2.log, e.harms (fun _ => true) = false := by
  constructor <;> decide +kernel

theorem unharmed_iff_configMap :
    let log := ((Operation.resourceDelete (configMap "settings" none)).run everything externalNode
      install mainNamespace).2.log
    (∀ e ∈ log, e.harms (fun _ => true) = false) ↔
      ∀ e ∈ log, e.exposes (fun _ => true)
        (Operation.resourceDelete (configMap "settings" none)).ofFile = false :=
  Operation.unharmed_iff everything externalNode install _ mainNamespace _ rfl rfl rfl

end CloudifyKubernetes
