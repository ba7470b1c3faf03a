import CloudifyKubernetes.FileAttempts
import CloudifyKubernetes.SingleAttempts

namespace CloudifyKubernetes

open Collections Effects Program

/-- Once a run of attempts ends with one that returns neither store has an entry, if the answers to
    the run have settled the deletion of a single resource, or the stores of a file name no more
    resources than it has and an earlier attempt has stripped them of their records. -/
theorem completed_forgets {kube : Kubernetes} {node : Node} (owned : node.useExternalResource = false)
    (options : Dict) (contexts : List OperationContext) (ctx : OperationContext) (s : State) :
    (∀ (deletion : SingleDeletion) (results : List (Except Exception Unit)) (after : State), node.file = none →
      attempts kube node options ((contexts ++ [ctx]).map fun ctx => (ctx, deletion.operation)) s =
        (.ok (results ++ [.ok ()]), after) →
      deletion.Settles kube node options contexts s after → ∀ n, Forgotten n after.runtime) ∧
    ∀ (deletion : FileDeletion) (results : List (Except Exception Unit)) (after : State),
      attempts kube node options ((contexts ++ [ctx]).map fun ctx => (ctx, deletion.operation)) s =
        (.ok (results ++ [.ok ()]), after) →
      Bounded (deletion.targets node) s →
      (∃ earlier next, earlier ++ [next] <+: contexts ∧ deletion.Strips kube node options earlier s after) →
      ∀ n, Forgotten n after.runtime := by
  constructor
  · intro deletion results after unfiled ran settles
    exact deletion.attempts_forget owned unfiled ran settles
  · intro deletion results after ran bounded strips
    exact deletion.attempts_forget owned ran bounded strips

open Package

/-- An API server that refuses to delete: what has been created is there for four more reads. -/
def refusing : Kubernetes := package fun earlier request =>
  let asked (verb : String) : Nat := earlier.countP fun request => Text.contains request.method verb
  if Text.contains request.method "read" then
    if asked "create" = 0 ∨ 5 ≤ asked "read" then
      .error (.apiException { status := some 404, reason := "Not Found", body := some codeMarker })
    else .ok (response "ConfigMap" "settings")
  else if Text.contains request.method "delete" then
    .error (.apiException { status := some 500, reason := "Internal Server Error" })
  else .ok (response "ConfigMap" "settings")

def settingsDeletion : SingleDeletion := .resource (configMap "settings" none)

def settingsCreated : State :=
  ((Operation.resourceCreate (configMap "settings" none)).run refusing ownNode install mainNamespace).2

def deletedName : ObjectName := ⟨"ConfigMap", "settings", "default"⟩

def namesDeleted (s : State) : Bool := (storedDefinitions s.runtime).any fun v => decide (v.Names deletedName)

theorem stored_of_names {s : State} (named : namesDeleted s = true) : s.Stored deletedName := by
  simpa [namesDeleted, State.Stored, storedDefinitions] using named

theorem createdBy_bounded {kube : Kubernetes} {files : List (String × List KubernetesResourceDefinition)}
    (startable : ((targets ownNode files).all fun target => target.1 != "" && target.2.cleanup.isResult) = true)
    (ran : multipleFileResourceCreate kube ownNode files mainNamespace = (.ok (), createdBy kube files))
    (answers : (createdBy kube files).log.all Event.answersResult = true) :
    Bounded (targets ownNode files) (createdBy kube files) := by
  have start : Listed (targets ownNode files) [] mainNamespace := by
    refine ⟨filed_start startable, ⟨?_, .nil⟩, fun v stored => ?_, fun path v there => ?_⟩
    · exact List.forall_mem_nil _
    · cases stored
    · cases there
  obtain ⟨names, length, listed⟩ := creationRounds_listed (fun _ member => member) (multipleFileResource_rounds ran)
    (answersResults_of_check answers) start
  rw [List.length_nil, Nat.zero_add] at length
  exact ⟨names, length.le, listed⟩

/-- The first attempt takes the definition and is refused, and by the second one the resource goes
    between its two reads. -/
theorem completed_forgets_settings :
    (∃ results after,
      (Operation.resourceCreate (configMap "settings" none)).run refusing ownNode install mainNamespace =
        (.ok (), settingsCreated) ∧
      settingsCreated.Stored deletedName ∧
      attempts refusing ownNode mainNamespace.options
        (([install] ++ [install]).map fun ctx => (ctx, settingsDeletion.operation)) settingsCreated =
          (.ok (results ++ [.ok ()]), after) ∧
      ∀ n, Forgotten n after.runtime) ∧
    ∃ results after,
      multipleFileResourceCreate refusing ownNode settingsOnly mainNamespace =
        (.ok (), createdBy refusing settingsOnly) ∧
      (createdBy refusing settingsOnly).Stored deletedName ∧
      attempts refusing ownNode mainNamespace.options
        (([install] ++ [install]).map fun ctx => (ctx, (FileDeletion.files settingsOnly).operation))
        (createdBy refusing settingsOnly) = (.ok (results ++ [.ok ()]), after) ∧
      ∀ n, Forgotten n after.runtime := by
  constructor
  · have created : returning (fun _ s => namesDeleted s) ((Operation.resourceCreate (configMap "settings" none)).run
        refusing ownNode install mainNamespace) = true := by decide +kernel
    obtain ⟨_, s, first, named⟩ := returning_iff.mp created
    obtain rfl : settingsCreated = s := congrArg Prod.snd first
    let before := (attempts refusing ownNode mainNamespace.options [(install, settingsDeletion.operation)]
      settingsCreated).2
    have settled : returning (fun _ s => stillStored (storedDefinitions settingsCreated.runtime).length
        (s.log.drop settingsCreated.log.length) == 0 && (s.log.drop before.log.length).any Event.finds)
        (settingsDeletion.operation.run refusing ownNode install { before with options := mainNamespace.options }) =
          true := by decide +kernel
    obtain ⟨_, after, last, answers⟩ := returning_iff.mp settled
    obtain ⟨taken, found⟩ := Bool.and_eq_true_iff.mp answers
    obtain ⟨results, ran⟩ := attempts_returned_iff.mpr last
    refine ⟨results, after, first, stored_of_names named, ran, ?_⟩
    exact (completed_forgets rfl mainNamespace.options [install] install settingsCreated).1 settingsDeletion results after
      rfl ran ⟨eq_of_beq taken, List.any_eq_true.mp found⟩
  · have created : returning (fun _ s => s.log.all Event.answersResult && namesDeleted s)
        (multipleFileResourceCreate refusing ownNode settingsOnly mainNamespace) = true := by decide +kernel
    obtain ⟨first, _, named⟩ := createdBy_filed (by decide +kernel) created
    obtain ⟨_, s, first', checked⟩ := returning_iff.mp created
    obtain rfl : createdBy refusing settingsOnly = s := congrArg Prod.snd first'
    have bounded := createdBy_bounded (by decide +kernel) first (Bool.and_eq_true_iff.mp checked).1
    let before := (FileDeletion.files settingsOnly).before refusing ownNode mainNamespace.options [] (createdBy refusing settingsOnly)
    let round := deletionRound refusing ownNode ("settings.yaml", configMap "settings" none) before
    have read : (round.2.log.drop before.log.length).any Event.answersTask = true := by decide +kernel
    have returned : returning (fun _ s => (s.log.drop before.log.length).all fun e => !e.deleted)
        ((FileDeletion.files settingsOnly).operation.run refusing ownNode install
          ((FileDeletion.files settingsOnly).before refusing ownNode mainNamespace.options [install]
            (createdBy refusing settingsOnly))) = true := by decide +kernel
    obtain ⟨_, after, last, undeleted⟩ := returning_iff.mp returned
    obtain ⟨results, ran⟩ := ((FileDeletion.files settingsOnly).attempts_returned_iff mainNamespace.options [install]
      install).mpr last
    refine ⟨results, after, first, stored_of_names named, ran, ?_⟩
    refine (completed_forgets rfl mainNamespace.options [install] install (createdBy refusing settingsOnly)).2
      (.files settingsOnly) results after ran bounded ⟨[], install, List.prefix_refl _, [], _, before, rfl, .nil _, ?_, ?_⟩
    · exact List.any_eq_true.mp read
    · intro e member
      simpa using List.all_eq_true.mp undeleted e member

def createdAndDeleted : List (OperationContext × Operation) :=
  [(install, .resourceCreate (configMap "settings" none)), (install, .resourceDelete (configMap "settings" none))]

/-- The second attempt of the deletion returns with the definition that the first one has put back. -/
theorem deleted_still_recorded :
    (attempts keeping ownNode mainNamespace.options createdAndDeleted.dropLast mainNamespace).2.Stored deletedName ∧
    ∃ results after, attempts keeping ownNode mainNamespace.options
      (createdAndDeleted ++ [(install, .resourceDelete (configMap "settings" none))]) mainNamespace =
        (.ok (results ++ [.ok ()]), after) ∧ ¬ Forgotten deletedName after.runtime := by
  have created : namesDeleted (attempts keeping ownNode mainNamespace.options createdAndDeleted.dropLast
      mainNamespace).2 = true := by decide +kernel
  have returned : returning (fun _ s => namesDeleted s)
      ((Operation.resourceDelete (configMap "settings" none)).run keeping ownNode install
        { (attempts keeping ownNode mainNamespace.options createdAndDeleted mainNamespace).2 with
          options := mainNamespace.options }) = true := by decide +kernel
  obtain ⟨_, after, last, named⟩ := returning_iff.mp returned
  obtain ⟨results, ran⟩ := attempts_returned_iff.mpr last
  refine ⟨stored_of_names created, results, after, ran, fun forgotten => ?_⟩
  obtain ⟨v, stored, names⟩ := stored_of_names named
  exact forgotten.unstored v stored names

end CloudifyKubernetes
