import CloudifyKubernetes.Alternates
import CloudifyKubernetes.DeletionRuns
import CloudifyKubernetes.K8s.Package
import CloudifyKubernetes.NestedResources

namespace CloudifyKubernetes

open Collections Effects Program

def ApiException.details (e : ApiException) : String :=
  e.reason ++ "\n" ++
    ((e.headers.elim "" fun headers => "HTTP response headers: " ++ headers ++ "\n") ++
      e.body.elim "" fun body => "HTTP response body: " ++ body ++ "\n")

def clientError (e : ApiException) : Exception := executionError (Failure.apiException e).raised

section Texts

variable (e : ApiException)

theorem toText_eq : e.toText =
    "(" ++ (optionalText (e.status.map toString) ++ ")\nReason: ") ++ e.details := by
  rw [ApiException.toText, ApiException.details]
  apply String.toList_injective
  simp only [String.toList_append, List.append_assoc]

theorem not_mem_statusText {c : Char} (absent : c ∉ "-None".toList) (other : c.isDigit = false) :
    c ∉ (optionalText (e.status.map toString)).toList := by
  intro member
  cases status : e.status with
  | none =>
    rw [status] at member
    exact absent (List.mem_cons_of_mem _ member)
  | some i =>
    rw [status] at member
    rcases Text.mem_toString_int member with rfl | digit
    · exact absent List.mem_cons_self
    · rw [other] at digit
      cases digit

theorem statusText_iff : optionalText (e.status.map toString) = "404" ↔ e.status = some 404 := by
  cases e.status with
  | none => decide +kernel
  | some i =>
    have number : toString i = "404" ↔ i = ((404 : ℕ) : ℤ) := Text.toString_eq_natCast_iff (n := 404)
    simpa [optionalText] using number

theorem contains_missing : Text.contains e.toText "(404)" = true ↔
    e.status = some 404 ∨ Text.contains e.details "(404)" = true := by
  have opens : '(' ∉ (optionalText (e.status.map toString) ++ ")\nReason: ").toList := by
    rw [String.toList_append, List.mem_append, not_or]
    exact ⟨not_mem_statusText e (by decide) (by decide), by decide⟩
  have closes : ')' ∉ (optionalText (e.status.map toString)).toList :=
    not_mem_statusText e (by decide) (by decide)
  rw [toText_eq, ← statusText_iff, Text.contains_iff, Text.contains_iff]
  -- The marker starts with the parenthesis of the status, or lies behind it.
  have here : ("(404)".toList <+: '(' :: (optionalText (e.status.map toString) ++ ")\nReason: " ++ e.details).toList) ↔
      optionalText (e.status.map toString) = "404" := by
    simp only [String.toList_append, List.append_assoc]
    constructor
    · intro inside
      have marker := (List.cons_prefix_cons.mp inside).2
      have same : "404".toList = (optionalText (e.status.map toString)).toList :=
        eq_of_delimited (c := ')') (by decide) closes marker
      exact (String.toList_injective same).symm
    · intro same
      rw [same]
      exact ⟨"\nReason: ".toList ++ e.details.toList, rfl⟩
  have split : ("(" ++ (optionalText (e.status.map toString) ++ ")\nReason: ") ++ e.details).toList =
      '(' :: (optionalText (e.status.map toString) ++ ")\nReason: " ++ e.details).toList := by
    simp
  rw [split, List.infix_cons_iff, here]
  apply or_congr_right
  rw [String.toList_append]
  constructor
  · exact fun inside => infix_of_head_absent inside opens
  · exact fun inside => inside.trans (List.suffix_append _ _).isInfix

theorem contains_behind_status {part : String} {c : Char} {rest : List Char} (starts : part.toList = c :: rest)
    (absent : c ∉ "-None()\nReason: ".toList) (other : c.isDigit = false) :
    Text.contains e.toText part = Text.contains e.details part := by
  rw [toText_eq]
  apply Text.contains_append_of_absent starts
  have parts : "-None()\nReason: ".toList = "-None".toList ++ ("(".toList ++ ")\nReason: ".toList) := rfl
  rw [parts, List.mem_append, List.mem_append, not_or, not_or] at absent
  obtain ⟨status, opens, closes⟩ := absent
  rw [String.toList_append, String.toList_append, List.mem_append, List.mem_append, not_or, not_or]
  exact ⟨opens, not_mem_statusText e status other, closes⟩

end Texts

theorem contains_clientError {part : String}
    (call : Text.apart "Exception during Kubernetes API call: " part = true)
    (operation : Text.apart "Operation execution failed. Exception during Kubernetes API call: " part = true)
    (e : ApiException) : Text.contains (clientError e).text part = Text.contains e.toText part := by
  have raised : Text.contains (Failure.apiException e).raised.text part = Text.contains e.toText part :=
    (contains_of_prefixes call operation).2
  unfold clientError executionError
  split
  · exact raised
  · exact (contains_of_prefixes call operation).1.trans raised

theorem clientError_isA (e : ApiException) :
    (clientError e).isA .apiOperationError = !Text.contains e.details namespaceMismatch ∧
      ((clientError e).isA .nonRecoverableError || (clientError e).isA .apiOperationError) = true := by
  have told : Text.contains (Failure.apiException e).raised.text namespaceMismatch =
      Text.contains e.details namespaceMismatch :=
    (contains_namespaceMismatch e.toText).2.trans
      (contains_behind_status e (c := 't') rfl (by decide) (by decide))
  unfold clientError executionError
  rw [told]
  cases Text.contains e.details namespaceMismatch <;> exact ⟨rfl, rfl⟩

inductive Place
  | resourceRead
  | customRead
  | fileRead
  | fileDelete
  | payloadDelete

structure Deletion where
  node : Node
  mapping : KubernetesApiMapping
  definition : KubernetesResourceDefinition
  resourceId : Value
  path : String
  adjacent : List (String × Value)

namespace Deletion

variable (kube : Kubernetes) (d : Deletion)

def Answered (e : ApiException) (s : State) : Place → Prop
  | .resourceRead | .customRead | .fileRead =>
    (doResourceRead kube .task d.mapping d.definition s).1 = .error (clientError e)
  | .fileDelete => d.definition.metadata.index "name" = .ok d.resourceId ∧
    (doResourceDelete kube d.node d.mapping d.definition d.resourceId s).1 = .error (clientError e)
  | .payloadDelete =>
    (doResourceDelete kube d.node d.mapping d.definition d.resourceId s).1 = .error (clientError e)

def TreatsAsGone (s : State) : Place → Prop
  | .resourceRead =>
    (deleteUnlessMissing kube d.node codeMarker (fun found _ _ => pure found) d.mapping d.definition s).1 = .ok ()
  | .customRead =>
    (deleteUnlessMissing kube d.node "(404)" (fun _ => checkIfResourceExists kube .afterDelete) d.mapping
      d.definition s).1 = .ok ()
  | .fileRead => ∃ e, (readWhileAdjacentResources kube d.mapping d.definition s).1 = .ok (some e) ∧
    e.isA .missingResource = true
  | .fileDelete => ∃ e, (deleteWhileAdjacentResources kube d.node d.path d.mapping d.definition d.adjacent s).1 =
    .ok (some e) ∧ e.isA .missingResource = true
  | .payloadDelete => (deletedOrMissing kube d.node d.resourceId d.mapping d.definition s).1.isOk = true

end Deletion

def ApiException.Told (e : ApiException) : Place → Prop
  | .resourceRead =>
    Text.contains e.details codeMarker = true ∧ Text.contains e.details namespaceMismatch = false ↔ e.status = some 404
  | .customRead =>
    if e.status = some 404 then Text.contains e.details namespaceMismatch = false
    else Text.contains e.details "(404)" = true → Text.contains e.details namespaceMismatch = true
  | .fileRead | .payloadDelete => Text.contains e.details "(404)" = true → e.status = some 404
  | .fileDelete => e.status ≠ some 404

section

variable {kube : Kubernetes} {d : Deletion} {e : ApiException} {s : State}

theorem deleteUnlessMissing_gone_iff {marker : String}
    {resourceExists : Value → KubernetesApiMapping → KubernetesResourceDefinition → Task Value}
    (failed : (doResourceRead kube .task d.mapping d.definition s).1 = .error (clientError e)) :
    (deleteUnlessMissing kube d.node marker resourceExists d.mapping d.definition s).1 = .ok () ↔
      Text.contains e.details namespaceMismatch = false ∧ Text.contains (clientError e).text marker = true := by
  rw [deleteUnlessMissing, bind_run, attempt_run, failed]
  simp only [(clientError_isA e).1]
  cases Text.contains e.details namespaceMismatch with
  | true => simp
  | false =>
    by_cases told : Text.contains (clientError e).text marker = true <;> simp [told]

theorem readWhileAdjacentResources_gone_iff
    (failed : (doResourceRead kube .task d.mapping d.definition s).1 = .error (clientError e)) :
    (∃ raised, (readWhileAdjacentResources kube d.mapping d.definition s).1 = .ok (some raised) ∧
        raised.isA .missingResource = true) ↔
      Text.contains (clientError e).text "(404)" = true := by
  rw [readWhileAdjacentResources_run, failed, readOutcome, if_pos (clientError_isA e).2]
  by_cases told : Text.contains (clientError e).text "(404)" = true
  · rw [if_pos told]
    exact iff_of_true ⟨_, rfl, rfl⟩ told
  · rw [if_neg told]
    refine iff_of_false ?_ told
    rintro ⟨raised, same, missing⟩
    cases same
    cases missing

theorem deleteWhileAdjacentResources_fails (named : d.definition.metadata.index "name" = .ok d.resourceId)
    (failed : (doResourceDelete kube d.node d.mapping d.definition d.resourceId s).1 = .error (clientError e)) :
    (deleteWhileAdjacentResources kube d.node d.path d.mapping d.definition d.adjacent s).1.isOk = false := by
  rw [deleteWhileAdjacentResources, bind_run, ofExcept_run, named]
  simp only [bind_run, attempt_run, failed]
  split <;> rfl

theorem deletedOrMissing_gone_iff
    (failed : (doResourceDelete kube d.node d.mapping d.definition d.resourceId s).1 = .error (clientError e)) :
    (deletedOrMissing kube d.node d.resourceId d.mapping d.definition s).1.isOk = true ↔
      Text.contains (clientError e).text "(404)" = true := by
  rw [deletedOrMissing, bind_run, attempt_run, failed]
  simp only [(clientError_isA e).2, if_true]
  by_cases told : Text.contains (clientError e).text "(404)" = true
  · rw [if_pos told]
    exact iff_of_true rfl told
  · rw [if_neg told]
    exact iff_of_false (by simp [Except.isOk, Except.toBool]) told

theorem told_of_missing : Text.contains (clientError e).text "(404)" = true ↔
    e.status = some 404 ∨ Text.contains e.details "(404)" = true := by
  rw [contains_clientError (by decide +kernel) (by decide +kernel), contains_missing]

theorem told_of_code : Text.contains (clientError e).text codeMarker = Text.contains e.details codeMarker := by
  rw [contains_clientError (by decide +kernel) (by decide +kernel)]
  exact contains_behind_status e (c := '"') rfl (by decide) (by decide)

end

/-- A place takes an answer for a missing resource exactly for the status 404, if its marker
    tells that status from the others. -/
theorem treatsAsGone_iff {kube : Kubernetes} {d : Deletion} {e : ApiException} {s : State} (place : Place)
    (answered : d.Answered kube e s place) :
    (d.TreatsAsGone kube s place ↔ e.status = some 404) ↔ e.Told place := by
  cases place with
  | resourceRead =>
    have gone : d.TreatsAsGone kube s .resourceRead ↔ _ := deleteUnlessMissing_gone_iff answered
    rw [gone, told_of_code, and_comm]
    rfl
  | customRead =>
    have gone : d.TreatsAsGone kube s .customRead ↔ _ := deleteUnlessMissing_gone_iff answered
    rw [gone, told_of_missing, ApiException.Told]
    by_cases missing : e.status = some 404
    · simp [missing]
    · rw [if_neg missing, iff_false_right missing]
      cases Text.contains e.details namespaceMismatch <;> simp [missing]
  | fileRead =>
    have gone : d.TreatsAsGone kube s .fileRead ↔ _ := readWhileAdjacentResources_gone_iff answered
    rw [gone, told_of_missing]
    exact or_iff_left_iff_imp
  | fileDelete =>
    have fails := deleteWhileAdjacentResources_fails answered.1 answered.2
    have kept : ¬ d.TreatsAsGone kube s .fileDelete := by
      rintro ⟨raised, same, _⟩
      rw [same] at fails
      cases fails
    exact ⟨fun agree missing => kept (agree.mpr missing), fun other => iff_of_false kept other⟩
  | payloadDelete =>
    have gone : d.TreatsAsGone kube s .payloadDelete ↔ _ := deletedOrMissing_gone_iff answered
    rw [gone, told_of_missing]
    exact or_iff_left_iff_imp

namespace Package

def notFound : ApiException where
  status := some 404
  reason := "Not Found"

def lateDeletion : Deletion where
  node := ownNode
  mapping := configMapMapping
  definition := configMap "first" none
  resourceId := .str "first"
  path := ""
  adjacent := []

end Package

open Package

theorem lateDeletion_answered : lateDeletion.Answered nothing notFound mainNamespace .fileDelete := by
  refine ⟨rfl, ?_⟩
  have failed : raising (fun e _ => decide (e = clientError notFound))
      (doResourceDelete nothing ownNode configMapMapping (configMap "first" none) (.str "first") mainNamespace) =
        true := by decide +kernel
  obtain ⟨e, s', ran, same⟩ := raising_iff.mp failed
  rw [of_decide_eq_true same] at ran
  exact congrArg Prod.fst ran

/-- The deletion of a file asks the exception object for the marker, which raises. -/
theorem late_deletion_fails : lateDeletion.Answered nothing notFound mainNamespace .fileDelete ∧
    ¬ (lateDeletion.TreatsAsGone nothing mainNamespace .fileDelete ↔ notFound.status = some 404) := by
  refine ⟨lateDeletion_answered, fun agree => ?_⟩
  obtain ⟨raised, same, _⟩ := agree.mpr rfl
  have fails := deleteWhileAdjacentResources_fails (d := lateDeletion) rfl lateDeletion_answered.2
  rw [same] at fails
  cases fails

theorem treatsAsGone_iff_late :
    (lateDeletion.TreatsAsGone nothing mainNamespace .fileDelete ↔ notFound.status = some 404) ↔
      notFound.Told .fileDelete :=
  treatsAsGone_iff .fileDelete lateDeletion_answered

end CloudifyKubernetes
