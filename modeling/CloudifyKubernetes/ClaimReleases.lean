import CloudifyKubernetes.Effects.Spending
import CloudifyKubernetes.K8s.Package
import CloudifyKubernetes.LifecycleSteps

namespace CloudifyKubernetes

open Collections Effects Program

def Verb.isUpdate : Verb → Bool
  | .update => true
  | _ => false

def Event.updates : Event → Bool
  | .called c => c.verb.isUpdate
  | _ => false

/-- The answer that the deletion of a definition ends with: its own, or on a node with an external
    resource that of the read before it. It shows the finalizer of a claim. -/
inductive ShowsClaim (node : Node) (mapping : KubernetesApiMapping) (definition : KubernetesResourceDefinition) :
    Event → Prop
  | deleted (name raw answer : Value) (named : definition.metadata.index "name" = .ok name)
      (cleaned : jsonCleanuper raw = .ok answer) (shown : Text.contains answer.toText pvcProtection = true) :
      ShowsClaim node mapping definition (.returned ⟨.delete name, mapping, definition⟩ (.ok raw))
  | withheld (external : node.useExternalResource = true) (raw found answer : Value)
      (cleaned : jsonCleanuper raw = .ok found) (again : jsonCleanuper found = .ok answer)
      (shown : Text.contains answer.toText pvcProtection = true) :
      ShowsClaim node mapping definition (.returned ⟨.read .beforeDelete, mapping, definition⟩ (.ok raw))

def releasedDefinition (definition : KubernetesResourceDefinition) : Except Exception KubernetesResourceDefinition := do
  let metadata ← withoutFinalizers definition.metadata
  KubernetesResourceDefinition.ofParts (.str definition.kind) definition.apiVersion metadata

def ShownBefore (node : Node) (e : Event) (front : List Event) : Prop :=
  ∃ mapping definition released earlier answer, e = .called ⟨.update, mapping, released⟩ ∧
    releasedDefinition definition = .ok released ∧ ShowsClaim node mapping definition answer ∧
    front = earlier ++ [answer, .edited released]

theorem shownBefore_lasting (node : Node) : Lasting (ShownBefore node) := by
  intro e before front ⟨mapping, definition, released, earlier, answer, same, made, shown, split⟩
  exact ⟨mapping, definition, released, before ++ earlier, answer, same, made, shown, by rw [split, List.append_assoc]⟩

def Releases (node : Node) (s s' : State) : Prop :=
  ∃ events, s'.log = s.log ++ events ∧ Reasoned Event.updates (ShownBefore node) events

instance (node : Node) : Std.Refl (Releases node) :=
  ⟨fun _ => ⟨[], (List.append_nil _).symm, .of_uncounted (by simp)⟩⟩

instance (node : Node) : IsTrans State (Releases node) where
  trans s s' s'' first second := by
    obtain ⟨events, grown, reasoned⟩ := first
    obtain ⟨later, grown', reasoned'⟩ := second
    exact ⟨events ++ later, by rw [grown', grown, List.append_assoc],
      reasoned.append (shownBefore_lasting node) reasoned'⟩

theorem CallEvents.unchanging {c : ClientCall} {result : Except Exception Value} {events : List Event}
    (call : CallEvents c result events) (other : c.verb.isUpdate = false) : ∀ e ∈ events, e.updates = false := by
  intro e member
  have about := call.call?_eq e member
  cases e with
  | called c' =>
    cases about
    exact other
  | _ => rfl

theorem CallEvents.concat {c : ClientCall} {result : Except Exception Value} {events : List Event}
    (call : CallEvents c result events) : ∃ front, events = front ++ [.returned c result] := by
  obtain ⟨sent, rfl, _⟩ := call
  exact ⟨.called c :: sent, rfl⟩

section

variable {kube : Kubernetes} {node : Node} {mapping : KubernetesApiMapping} {definition : KubernetesResourceDefinition}

theorem Releases.of_same {s s' : State} (same : s'.log = s.log) : Releases node s s' :=
  ⟨[], by rw [same, List.append_nil], .of_uncounted (by simp)⟩

theorem Releases.of_changeless {s s' : State} {events : List Event} (grown : s'.log = s.log ++ events)
    (changeless : ∀ e ∈ events, e.updates = false) : Releases node s s' := ⟨events, grown, .of_uncounted changeless⟩

theorem Releases.of_steps {s s' : State} (steps : Steps kube (fun verb => verb.isUpdate = false) s s') :
    Releases node s s' := by
  obtain ⟨events, grown, allowed⟩ := steps_events steps
  apply Releases.of_changeless grown
  intro e member
  cases e with
  | called c => exact allowed _ member c rfl
  | _ => rfl

theorem releases_offline : Offline (Releases node) where
  runtime _ _ := .of_same rfl
  mapped d s := by
    rw [chooseMapping_run]
    apply Releases.of_changeless rfl
    intro e member
    rw [List.mem_singleton.mp member]
    rfl

theorem doResourceRead_changeless (site : Site) :
    Within (Steps kube fun verb => verb.isUpdate = false) (doResourceRead kube site mapping definition) :=
  doResourceRead_steps rfl

theorem doResourceDelete_changeless (name : Value) :
    Within (Steps kube fun verb => verb.isUpdate = false) (doResourceDelete kube node mapping definition name) :=
  doResourceDelete_steps node name rfl rfl

/-- A deletion that is answered ends with the answer that it goes by. -/
theorem doResourceDelete_answered {name answer : Value} {s s' : State} (named : definition.metadata.index "name" = .ok name)
    (ran : doResourceDelete kube node mapping definition name s = (.ok answer, s'))
    (shown : Text.contains answer.toText pvcProtection = true) :
    ∃ events last, s'.log = s.log ++ (events ++ [last]) ∧ ShowsClaim node mapping definition last ∧
      ∀ e ∈ events ++ [last], e.updates = false := by
  have run := doResourceDelete_run kube node mapping definition name s
  rw [ran] at run
  generalize ended : ((.ok answer, s') : Except Exception Value × State) = outcome at run
  cases run with
  | malformed e failed => cases ended
  | unchecked readable checked e options events check failed => cases ended
  | withheld readable checked found options events check answered expected =>
    obtain ⟨cleaned, rfl⟩ := Prod.mk.inj ended
    rw [Bool.and_eq_true] at expected
    -- What exists is what the read was answered with.
    have read : checked >>= jsonCleanuper = .ok found := by
      cases result : checked >>= jsonCleanuper with
      | ok found' =>
        rw [result] at answered
        exact answered
      | error e =>
        rw [result] at answered
        rw [(existing_missing answered).2] at expected
        cases expected.1
    obtain ⟨raw, rfl, read⟩ := ok_of_bind read
    have changeless := check.unchanging rfl
    obtain ⟨front, rfl⟩ := check.concat
    refine ⟨.edited definition :: .edited definition :: front, _, rfl, ?_, ?_⟩
    · exact .withheld expected.2 raw found answer read cleaned.symm shown
    · exact List.forall_mem_cons.mpr ⟨rfl, List.forall_mem_cons.mpr ⟨rfl, changeless⟩⟩
  | deleted readable checked found options events check answered unexpected result events' delete =>
    obtain ⟨called, rfl⟩ := Prod.mk.inj ended
    obtain ⟨raw, rfl, cleaned⟩ := ok_of_bind called.symm
    have before := check.unchanging rfl
    have changeless := delete.unchanging rfl
    obtain ⟨front, rfl⟩ := delete.concat
    refine ⟨.edited definition :: .edited definition :: (events ++ front),
      .returned ⟨.delete name, mapping, definition⟩ (.ok raw), by simp, ?_, ?_⟩
    · exact .deleted name raw answer named cleaned shown
    · rw [List.cons_append, List.cons_append, List.append_assoc]
      refine List.forall_mem_cons.mpr ⟨rfl, List.forall_mem_cons.mpr ⟨rfl, ?_⟩⟩
      exact List.forall_mem_append.mpr ⟨before, changeless⟩

/-- The one update that a release sends stands directly behind its reason. -/
theorem preparePvcDelete_releases {s s' : State} {events : List Event} {last : Event}
    (grown : s'.log = s.log ++ (events ++ [last])) (shown : ShowsClaim node mapping definition last)
    (changeless : ∀ e ∈ events ++ [last], e.updates = false) :
    Releases node s (preparePvcDelete kube mapping definition s').2 := by
  have unsent : Releases node s s' := .of_changeless grown changeless
  cases metadata : withoutFinalizers definition.metadata with
  | error e =>
    rw [preparePvcDelete, metadata]
    exact unsent
  | ok fields =>
    cases made : KubernetesResourceDefinition.ofParts (.str definition.kind) definition.apiVersion fields with
    | error e =>
      rw [preparePvcDelete, metadata, bind_run, ofExcept_run]
      dsimp only
      rw [made]
      exact unsent
    | ok released =>
      have run := doResourceUpdate_run kube mapping released s'
      have state : (preparePvcDelete kube mapping definition s').2 = (doResourceUpdate kube mapping released s').2 := by
        rw [preparePvcDelete, metadata, bind_run, ofExcept_run]
        dsimp only
        rw [made, bind_run, ofExcept_run]
        dsimp only
        rw [bind_run, attempt_run]
        cases (doResourceUpdate kube mapping released s').1 with
        | ok value => rfl
        | error e =>
          dsimp only
          split <;> rfl
      rw [state]
      generalize doResourceUpdate kube mapping released s' = ran at run
      cases run with
      | malformed e failed => exact unsent
      | called result options events' readable call =>
        obtain ⟨sent, rfl, requests⟩ := call
        refine ⟨(events ++ [last] ++ [.edited released]) ++ .called ⟨.update, mapping, released⟩ ::
          (sent ++ [.returned ⟨.update, mapping, released⟩ result]), ?_, Reasoned.single ?_ ?_ ?_⟩
        · simp [grown]
        · refine ⟨mapping, definition, released, events, last, rfl, ?_, shown, by simp⟩
          simp only [releasedDefinition, metadata, bind, Except.bind]
          exact made
        · exact List.forall_mem_append.mpr ⟨changeless, by simp [Event.updates]⟩
        · intro e member
          rcases List.mem_append.mp member with member | member
          · obtain ⟨request, answer, rfl⟩ := requests e member
            rfl
          · rw [List.mem_singleton.mp member]
            rfl

theorem afterDeletion_releases (path : String) (adjacent : List (String × Value)) {name response : Value} {s s' : State}
    (named : definition.metadata.index "name" = .ok name)
    (ran : doResourceDelete kube node mapping definition name s = (.ok response, s')) :
    Releases node s (afterDeletion kube node path mapping definition adjacent response s').2 := by
  have stored (perform : Bool) : Within (Releases node) (do
      if perform then
        storeResultForRetrieveId definition.cleanup path
        storeAdjacent adjacent
        return some ⟨.operationRetry, "Delete response: " ++ response.toText⟩
      else return none : Task (Option Exception)) := by
    split
    · exact (storeResultForRetrieveId_within releases_offline _ _).bind fun _ =>
        (storeAdjacent_within releases_offline _).bind fun _ => .pure _
    · exact .pure _
  rw [afterDeletion, bind_run_ok (handleDeleteResource_run _ _ _), bind_run_ok (getPerformTask_run _)]
  cases shown : Text.contains response.toText pvcProtection with
  | false =>
    have deleted : Releases node s s' := by
      have steps : Steps kube _ s (doResourceDelete kube node mapping definition name s).2 :=
        doResourceDelete_changeless name s
      rw [ran] at steps
      exact .of_steps steps
    exact IsTrans.trans _ _ _ (IsTrans.trans _ _ _ deleted (.of_same rfl)) (stored _ _)
  | true =>
    obtain ⟨events, last, grown, claims, changeless⟩ := doResourceDelete_answered named ran shown
    exact Within.bind_at (preparePvcDelete_releases grown claims changeless) fun _ => stored _

theorem deleteWhileAdjacentResources_releases (path : String) (adjacent : List (String × Value)) :
    Within (Releases node) (deleteWhileAdjacentResources kube node path mapping definition adjacent) := by
  intro s
  rw [deleteWhileAdjacentResources, bind_run, ofExcept_run]
  cases named : definition.metadata.index "name" with
  | error e => exact Std.Refl.refl s
  | ok name =>
    have steps : Steps kube _ s (doResourceDelete kube node mapping definition name s).2 :=
      doResourceDelete_changeless name s
    dsimp only
    rw [bind_run, attempt_run]
    cases deleted : doResourceDelete kube node mapping definition name s with
    | mk result s' =>
      rw [deleted] at steps
      cases result with
      | error e =>
        dsimp only
        split <;> exact .of_steps steps
      | ok response => exact afterDeletion_releases path adjacent named deleted

theorem fileResourceDelete_releases (file : Option String) (definitions : List KubernetesResourceDefinition) :
    Within (Releases node) (fileResourceDelete kube node file definitions) := by
  have read (site : Site) (mapping : KubernetesApiMapping) (definition : KubernetesResourceDefinition) :
      Within (Releases node) (doResourceRead kube site mapping definition) := fun s =>
    .of_steps (doResourceRead_changeless site s)
  have entered (path : String) (mapping : KubernetesApiMapping) (definition : KubernetesResourceDefinition)
      (runtime : RuntimeProperties) : Within (Releases node) (record (.entered path mapping definition runtime)) := by
    intro s
    apply Releases.of_changeless rfl
    intro e member
    rw [List.mem_singleton.mp member]
    rfl
  apply resourceTask_of_task releases_offline node _ file definitions releases_offline.mapped
  · intro check set mapping definition
    cases set
    exact checkIfResourceExists_within (read _ _ _)
  · intro path mapping definition
    refine getRuntime_within.bind fun runtime => ?_
    exact fileResourceDeleteTask_within releases_offline node _ path (entered path) (read .task) fun _ _ adjacent =>
      deleteWhileAdjacentResources_releases path adjacent

end

def LifecycleOperation.changes : LifecycleOperation → Bool
  | .plain (.resourceUpdate _) | .plain (.customResourceUpdate _) | .plain (.fileResourceUpdate _ _)
  | .plain (.multipleFileResourceUpdate _) | .fileResourceUpdateWith _ _ _ | .multipleFileResourceUpdateWith _ _ => true
  | _ => false

section

variable (env : Environment)

theorem LifecycleOperation.run_releases (ctx : OperationContext) {operation : LifecycleOperation}
    (changeless : operation.changes = false) (s : State × Dict) :
    Releases env.node s.1 (operation.run env ctx s).2.1 := by
  -- Only the deletions of files use the update at all.
  have free (unused : ¬operation.uses .update) : Releases env.node s.1 (operation.run env ctx s).2.1 := by
    have steps : PairSteps env.kube (fun verb => verb.isUpdate = false) s (operation.run env ctx s).2 := by
      apply operation.run_steps env ctx
      intro verb used
      cases verb with
      | update => exact absurd used unused
      | _ => rfl
    exact .of_steps steps
  cases operation with
  | plain operation =>
    cases operation with
    | fileResourceDelete file definitions => exact fileResourceDelete_releases file definitions s.1
    | multipleFileResourceDelete files =>
      exact multipleFileResource_within (fun file definitions => fileResourceDelete_releases file definitions) files s.1
    | _ => first | cases changeless; done | exact free (by simp [LifecycleOperation.uses, Operation.uses])
  | _ => first | cases changeless; done | exact free (by simp [LifecycleOperation.uses])

/-- Over any run without an update operation every update is directly behind the answer of a
    deletion that shows the finalizer of a claim, and sends the same object without it. -/
theorem lifecycle_releases (options : Dict) {operations : List (OperationContext × LifecycleOperation)}
    (changeless : ∀ next ∈ operations, next.2.changes = false) (s : State × Dict) :
    ∃ events, (lifecycle env options operations s).2.1.log = s.1.log ++ events ∧
      Reasoned Event.updates (ShownBefore env.node) events := by
  induction operations generalizing s with
  | nil => exact ⟨[], (List.append_nil _).symm, .of_uncounted (by simp)⟩
  | cons next rest ih =>
    obtain ⟨first, others⟩ := List.forall_mem_cons.mp changeless
    obtain ⟨events, grown, reasoned⟩ := next.2.run_releases env next.1 first ({ s.1 with options }, s.2)
    obtain ⟨later, grown', reasoned'⟩ := ih others (next.2.run env next.1 ({ s.1 with options }, s.2)).2
    obtain ⟨results, returned⟩ := lifecycle_returns env options rest (next.2.run env next.1 ({ s.1 with options }, s.2)).2
    refine ⟨events ++ later, ?_, reasoned.append (shownBefore_lasting env.node) reasoned'⟩
    rw [lifecycle_cons_run env options next rest s returned, grown', grown, List.append_assoc]

end

open Package

def dataClaim : KubernetesResourceDefinition where
  kind := "PersistentVolumeClaim"
  apiVersion := .str "v1"
  metadata := .dict [("name", .str "data")]
  attributes := .empty

def claimedCluster : Kubernetes := package fun _ _ => .ok (.dict
  [("api_version", .str "v1"), ("kind", .str "PersistentVolumeClaim"),
    ("metadata", .dict [("name", .str "data"), ("finalizers", .list [.str "kubernetes.io/pvc-protection"])])])

def claimedNode : Environment where
  kube := claimedCluster
  node := ownNode
  load _ := .error ⟨.valueError, "while scanning a text"⟩
  checkDrift _ _ := .ok .none
  instanceId := "claim_1"

def claimDeletion : List (OperationContext × LifecycleOperation) :=
  [(install, .plain (.fileResourceCreate (some "claims.yaml") [dataClaim])),
    (install, .plain (.fileResourceDelete (some "claims.yaml") [dataClaim]))]

theorem lifecycle_releases_claim :
    ∃ events, (lifecycle claimedNode mainNamespace.options claimDeletion (mainNamespace, .empty)).2.1.log =
        mainNamespace.log ++ events ∧ Reasoned Event.updates (ShownBefore ownNode) events := by
  apply lifecycle_releases claimedNode mainNamespace.options
  intro next member
  simp only [claimDeletion, List.mem_cons, List.not_mem_nil, or_false] at member
  rcases member with rfl | rfl
  · rfl
  · rfl

end CloudifyKubernetes
