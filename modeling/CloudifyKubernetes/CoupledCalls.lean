import CloudifyKubernetes.ApiCalls
import CloudifyKubernetes.Effects.Coupling
import CloudifyKubernetes.K8s.Calls

namespace CloudifyKubernetes

open Collections Effects Program

structure SameOptions (R : State → State → Prop) : Prop where
  options : ∀ {s t}, R s t → s.options = t.options
  edited : ∀ {s t}, R s t → ∀ options, R { s with options } { t with options }
  recorded : ∀ {s t}, R s t → ∀ e, R { s with log := s.log ++ [e] } { t with log := t.log ++ [e] }

structure Indistinct (kube : Kubernetes) (R : State → State → Prop) : Prop extends SameOptions R where
  answers : ∀ {s t}, R s t → ∀ request, kube.respond s.requests request = kube.respond t.requests request

section

variable {R : State → State → Prop} (same : SameOptions R)

include same

theorem record_coupled (e : Event) : Coupled R (record e) R R :=
  .modify fun _ _ related => same.recorded related e

theorem getOptions_coupled : Coupled R getOptions R R := by
  intro s t related
  rw [getOptions_run, getOptions_run, same.options related]
  exact .value _ related

theorem modifyOptions_coupled (f : Dict → Dict) : Coupled R (modifyOptions f) R R := by
  intro s t related
  rw [modifyOptions_run, modifyOptions_run, same.options related]
  exact .value () (same.edited related _)

theorem withOptions_coupled {α : Type} {body : Task α} (own : Dict) (inner : Coupled R body R R) :
    Coupled R (withOptions own body) R R := by
  intro s t related
  have step := inner _ _ (same.edited related own)
  have back := same.options related
  rw [show withOptions own body s = ((body { s with options := own }).1,
      { (body { s with options := own }).2 with options := s.options }) from rfl,
    show withOptions own body t = ((body { t with options := own }).1,
      { (body { t with options := own }).2 with options := t.options }) from rfl, back]
  exact .of_parts step.result_eq (same.edited step.related _)

theorem chooseMapping_coupled (definition : KubernetesResourceDefinition) :
    Coupled R (chooseMapping definition) R R := by
  apply Coupled.bind (getOptions_coupled same)
  intro options
  apply Coupled.bind (record_coupled same _)
  intro _
  exact .ofExcept _

theorem setCustomResource_coupled (definition : KubernetesResourceDefinition) :
    Coupled R (setCustomResource definition) R R := by
  apply Coupled.bind (getOptions_coupled same)
  intro options
  apply Coupled.bind (.ofExcept _)
  intro edited
  apply Coupled.bind (modifyOptions_coupled same _)
  intro _
  exact record_coupled same _

end

section

variable {kube : Kubernetes} {R : State → State → Prop} (same : Indistinct kube R)

include same

theorem send_coupled (call : ClientCall) (request : Request) : Coupled R (send kube call request) R R := by
  intro s t related
  rw [send_run, send_run, same.answers related]
  exact .of_parts rfl (same.recorded related _)

theorem execute_coupled (call : ClientCall) (m : KubernetesSingleOperationApiMapping) :
    Coupled R (execute kube call m) R R := by
  have operation (names : List String) : Coupled R (executeOperation kube call m names) R R := by
    apply Coupled.bind (getOptions_coupled same.toSameOptions)
    intro options
    apply Coupled.bind (.ofExcept _)
    intro arguments
    exact send_coupled same _ _
  apply Coupled.bind (.ofExcept _)
  intro names
  apply Coupled.bind (modifyOptions_coupled same.toSameOptions _)
  intro _
  apply Coupled.bind (operation names).attempt
  intro result
  cases result with
  | ok value => exact .pure _
  | error e => exact .raise _

theorem executeAlternates_coupled (call : ClientCall) (primary : Exception)
    (alternates : List KubernetesSingleOperationApiMapping) :
    Coupled R (executeAlternates kube call primary alternates) R R := by
  induction alternates with
  | nil => exact .raise _
  | cons alternate rest ih =>
    apply Coupled.bind (execute_coupled same call alternate).attempt
    intro result
    cases result with
    | ok value => exact .pure _
    | error e =>
      dsimp only
      split
      · exact ih
      · exact .raise _

theorem executeWithAlternates_coupled (call : ClientCall) (m : KubernetesSingleOperationApiMapping) :
    Coupled R (executeWithAlternates kube call m) R R := by
  apply Coupled.bind (execute_coupled same call m).attempt
  intro result
  cases result with
  | ok value => exact .pure _
  | error e =>
    dsimp only
    split
    · exact executeAlternates_coupled same _ _ _
    · exact .raise _

theorem matched_coupled (call : ClientCall) (definition : KubernetesResourceDefinition)
    (m : KubernetesSingleOperationApiMapping) : Coupled R (do
      matchNamespace definition
      executeWithAlternates kube call m) R R := by
  have matching : Coupled R (matchNamespace definition) R R := by
    apply Coupled.bind (.ofExcept _)
    intro fromDefinition
    exact modifyOptions_coupled same.toSameOptions _
  apply matching.bind
  intro _
  exact executeWithAlternates_coupled same _ _

theorem traced_coupled (call : ClientCall) {body : Task Value} (inner : Coupled R body R R) :
    Coupled R (traced call body) R R := by
  apply Coupled.bind (record_coupled same.toSameOptions _)
  intro _
  apply Coupled.bind inner.attempt
  intro result
  apply Coupled.bind (record_coupled same.toSameOptions _)
  intro _
  exact .ofExcept _

theorem clientCall_coupled (c : ClientCall) : Coupled R (clientCall kube c) R R := by
  obtain ⟨verb, mapping, definition⟩ := c
  cases verb with
  | create =>
    apply traced_coupled same
    apply Coupled.bind (.ofExcept _)
    intro body
    apply Coupled.bind (modifyOptions_coupled same.toSameOptions _)
    intro _
    exact matched_coupled same _ _ _
  | read site =>
    apply traced_coupled same
    apply Coupled.bind (.ofExcept _)
    intro name
    apply Coupled.bind (modifyOptions_coupled same.toSameOptions _)
    intro _
    exact matched_coupled same _ _ _
  | update =>
    apply traced_coupled same
    apply Coupled.bind (.ofExcept _)
    intro body
    apply Coupled.bind (modifyOptions_coupled same.toSameOptions _)
    intro _
    apply Coupled.bind (.ofExcept _)
    intro name
    apply Coupled.bind (modifyOptions_coupled same.toSameOptions _)
    intro _
    exact matched_coupled same _ _ _
  | delete resourceId =>
    apply traced_coupled same
    split
    · apply Coupled.bind (modifyOptions_coupled same.toSameOptions _)
      intro _
      apply Coupled.bind (getOptions_coupled same.toSameOptions)
      intro options
      apply Coupled.bind (.ofExcept _)
      intro payload
      apply Coupled.bind (modifyOptions_coupled same.toSameOptions _)
      intro _
      apply Coupled.bind (.ofExcept _)
      intro taken
      apply Coupled.bind (getOptions_coupled same.toSameOptions)
      intro rest
      exact withOptions_coupled same.toSameOptions _ (matched_coupled same _ _ _)
    · exact matched_coupled same _ _ _

theorem doResourceRead_coupled (site : Site) (mapping : KubernetesApiMapping)
    (definition : KubernetesResourceDefinition) : Coupled R (doResourceRead kube site mapping definition) R R := by
  apply Coupled.bind (setCustomResource_coupled same.toSameOptions definition)
  intro _
  apply Coupled.bind (clientCall_coupled same ⟨.read site, mapping, definition⟩)
  intro response
  exact .ofExcept _

theorem checkIfResourceExists_coupled (site : Site) (mapping : KubernetesApiMapping)
    (definition : KubernetesResourceDefinition) :
    Coupled R (checkIfResourceExists kube site mapping definition) R R := by
  apply Coupled.bind (doResourceRead_coupled same site mapping definition).attempt
  intro result
  cases result with
  | ok found => exact .pure _
  | error e =>
    dsimp only
    split
    · apply Coupled.bind (.ofExcept _)
      intro _
      exact .pure _
    · exact .raise _

end

end CloudifyKubernetes
