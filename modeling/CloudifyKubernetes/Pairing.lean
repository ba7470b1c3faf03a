import CloudifyKubernetes.DeletionRuns
import CloudifyKubernetes.K8s.Package
import CloudifyKubernetes.Lookup
import CloudifyKubernetes.Steps

namespace CloudifyKubernetes

open Collections Effects Program

/-- The mapping is the one of the definition's kind, if it has one and is no custom object. -/
def KubernetesApiMapping.suits (mapping : KubernetesApiMapping) (definition : KubernetesResourceDefinition) :
    Bool :=
  definition.isAnnotated ||
    match getMapping definition.kind with
    | .ok own => mapping = own
    | .error _ => true

/-- Whether a call goes on with the definition and the mapping that it was given: it finds no
    record, and no stored definition takes their place. -/
def keepsGiven (node : Node) (path : String) (definition : KubernetesResourceDefinition)
    (runtime : RuntimeProperties) : Bool :=
  match lookupRecord path runtime with
  | (.ok _, _) => false
  | (.error e, runtime) =>
    e.unresolved && !replaces node definition runtime && settles definition (popStored runtime)

def Event.strays : Event → Bool
  | .called ⟨.read _, mapping, definition⟩ | .called ⟨.delete _, mapping, definition⟩ =>
    !mapping.suits definition
  | _ => false

def Event.misleads (node : Node) : Event → Bool
  | .entered path mapping definition runtime =>
    keepsGiven node path definition runtime && (customAnnotations definition).isOk &&
      !mapping.suits definition
  | _ => false

theorem mappingByKind_suits {keys : List String} {definition : KubernetesResourceDefinition}
    {mapping : KubernetesApiMapping} (chosen : mappingByKind keys definition = .ok mapping) :
    mapping.suits definition = true := by
  unfold mappingByKind at chosen
  cases annotated : definition.isAnnotated with
  | true => simp [KubernetesApiMapping.suits, annotated]
  | false =>
    simp only [annotated, Bool.false_eq_true, if_false] at chosen
    cases known : getMapping definition.kind with
    | error e => simp [KubernetesApiMapping.suits, known]
    | ok own =>
      rw [known] at chosen
      cases chosen
      simp [KubernetesApiMapping.suits, known]

section

variable {kube : Kubernetes} {node : Node} {path : String} {mapping : KubernetesApiMapping}
  {definition : KubernetesResourceDefinition}

def Choosing {α : Type} (post : Except Exception α → Prop) (s : State) (ran : Except Exception α × State) :
    Prop :=
  (∃ events, ran.2.log = s.log ++ events ∧ ∀ e ∈ events, ∃ d result, e = .mapped d result) ∧ post ran.1

def Paired (mapping : KubernetesApiMapping) (definition : KubernetesResourceDefinition) (kept : Bool)
    (definition' : KubernetesResourceDefinition) (mapping' : KubernetesApiMapping) : Prop :=
  if kept then definition' = definition ∧ mapping' = mapping else mapping'.suits definition' = true

theorem retrieveStoredResource_paired (s : State) :
    Choosing (fun result =>
        let kept := !replaces node definition s.runtime && settles definition (popStored s.runtime)
        match result with
        | .error _ => kept = false
        | .ok (definition', mapping') => Paired mapping definition kept definition' mapping') s
      (retrieveStoredResource node definition mapping true s) := by
  rw [retrieveStoredResource_run]
  cases replaced : replaces node definition s.runtime with
  | false =>
    obtain ⟨result, runtime, run, _, settled⟩ := takeStored_run (definition, mapping)
      { s with runtime := popStored s.runtime }
    simp only [Bool.false_eq_true, if_false, Bool.not_false, Bool.true_and, run]
    refine ⟨⟨[], by simp, by simp⟩, ?_⟩
    rcases settled with ⟨kept, rfl⟩ | ⟨kept, e, rfl⟩
    · simp [kept, Paired]
    · exact kept
  | true =>
    simp only [if_true, Bool.not_true, Bool.false_and]
    rw [bind_run, ofExcept_run]
    cases KubernetesResourceDefinition.ofStored (lastStored definition s.runtime) with
    | error e => exact ⟨⟨[], by simp, by simp⟩, trivial⟩
    | ok previous =>
      simp only
      rw [bind_run, chooseMapping_run]
      cases chosen : mappingByKind s.options.keys previous with
      | error e => exact ⟨⟨[_], rfl, by simp⟩, trivial⟩
      | ok mapping' =>
        obtain ⟨result, runtime, run, _, settled⟩ := takeStored_run (previous, mapping')
          { s with
            runtime := popStored s.runtime
            log := s.log ++ [.mapped previous (.ok mapping')] }
        simp only [run]
        refine ⟨⟨[_], rfl, by simp⟩, ?_⟩
        rcases settled with ⟨_, rfl⟩ | ⟨_, e, rfl⟩
        · simpa [Paired] using mappingByKind_suits chosen
        · trivial

theorem getPathWithAdjacentResources_paired (s : State) :
    Choosing (fun result => match result with
        | .error _ => keepsGiven node path definition s.runtime = false
        | .ok (_, definition', mapping') =>
          Paired mapping definition (keepsGiven node path definition s.runtime) definition' mapping') s
      (getPathWithAdjacentResources node path mapping definition s) := by
  rw [getPathWithAdjacentResources_run]
  simp only [keepsGiven]
  generalize lookupRecord path s.runtime = found
  obtain ⟨e | result, runtime⟩ := found
  · dsimp only
    cases e.unresolved with
    | false => exact ⟨⟨[], by simp, by simp⟩, rfl⟩
    | true =>
      simp only [if_true, Bool.true_and]
      have fallback := @retrieveStoredResource_paired node mapping definition { s with runtime }
      rw [bind_run]
      generalize retrieveStoredResource node definition mapping true { s with runtime } = ran at fallback ⊢
      obtain ⟨e | chosen, s'⟩ := ran <;> exact fallback
  · obtain ⟨found, kind, metadata⟩ := result
    refine ⟨⟨[], by simp, by simp⟩, ?_⟩
    dsimp only
    cases made : rebuilt found kind metadata with
    | error e => rfl
    | ok result =>
      obtain ⟨adjacent, definition', mapping'⟩ := result
      obtain ⟨_, chosen, _⟩ := rebuilt_ok made
      exact mappingByKind_suits chosen

/-- Another kind's API is asked exactly when a call goes on with a mapping of another kind. -/
abbrev Straying (node : Node) : State → State → Prop :=
  Grows State.log (fun e => e.misleads node = true) fun e => e.strays = true

theorem straying_of_concerns {s s' : State} {events : List Event} (grown : s'.log = s.log ++ events)
    (suits : mapping.suits definition = true) (concerns : ∀ e ∈ events, e.Concerns mapping definition) :
    Straying node s s' := by
  refine .of_neutral grown fun e member => ?_
  rcases concerns e member with ⟨d, rfl⟩ | ⟨⟨verb, mapping', definition'⟩, called, rfl, rfl⟩
  · simp [Event.strays, Event.misleads]
  · cases e <;> cases called <;> cases verb <;> simp [Event.strays, Event.misleads, suits]

theorem EditedRun.straying {c : ClientCall} {s : State} {ran : Except Exception Value × State}
    (run : EditedRun c s ran) (aimed : (Event.called c).strays = false) : Straying node s ran.2 := by
  cases run with
  | malformed e failed => exact Std.Refl.refl s
  | called result options events readable call =>
    refine .of_neutral rfl fun e member => ?_
    rcases List.mem_cons.mp member with rfl | member
    · simp [Event.strays, Event.misleads]
    · have own := call.call?_eq e member
      cases e <;> cases own
      · exact ⟨by simp [aimed], by simp [Event.misleads]⟩
      all_goals simp [Event.strays, Event.misleads]

theorem doResourceRead_straying (suits : mapping.suits definition = true) (site : Site) :
    Within (Straying node) (doResourceRead kube site mapping definition) := fun s =>
  (doResourceRead_run kube site mapping definition s).straying (by simp [Event.strays, suits])

theorem doResourceUpdate_straying : Within (Straying node) (doResourceUpdate kube mapping definition) := fun s =>
  (doResourceUpdate_run kube mapping definition s).straying rfl

theorem doResourceDelete_straying (suits : mapping.suits definition = true) (resourceId : Value) :
    Within (Straying node) (doResourceDelete kube node mapping definition resourceId) := by
  intro s
  obtain ⟨events, grown, concerns⟩ := doResourceDelete_concerns kube node mapping definition resourceId s
  exact straying_of_concerns grown suits concerns

theorem straying_offline : Offline (Straying node) where
  runtime _ _ := .of_eq rfl
  mapped definition s := by
    rw [chooseMapping_run]
    exact .of_neutral rfl fun e member => by simp [List.mem_singleton.mp member, Event.strays, Event.misleads]

theorem Choosing.straying {α : Type} {post : Except Exception α → Prop} {s : State}
    {ran : Except Exception α × State} (choosing : Choosing post s ran) : Straying node s ran.2 := by
  obtain ⟨⟨events, grown, mapped⟩, _⟩ := choosing
  refine .of_neutral grown fun e member => ?_
  obtain ⟨d, result, rfl⟩ := mapped e member
  simp [Event.strays, Event.misleads]

/-- Annotations that cannot be read end the deletion before its first call. -/
theorem deleteWithAdjacentResources_malformed
    {delete : KubernetesApiMapping → KubernetesResourceDefinition → Task Unit} {e : Exception}
    (failed : customAnnotations definition = .error e) (adjacent : List (String × Value)) (s : State) :
    deleteWithAdjacentResources kube node delete path adjacent definition mapping s = (.error e, s) := by
  have unasked : (e.isA .nonRecoverableError || e.isA .apiOperationError) = false := by
    simp [Exception.isA, customAnnotations_error failed, ExceptionClass.isSubclass]
  have missed : readWhileAdjacentResources kube mapping definition s = (.error e, s) := by
    rw [readWhileAdjacentResources_run]
    have read := doResourceRead_run kube .task mapping definition s
    generalize doResourceRead kube .task mapping definition s = ran at read ⊢
    cases read with
    | malformed e' failed' =>
      cases failed.symm.trans failed'
      simp [readOutcome, unasked]
    | called result options events readable call =>
      obtain ⟨annotations, found⟩ := readable
      cases failed.symm.trans found
  rw [deleteWithAdjacentResources, bind_run_error missed]

theorem deleteWithAdjacentResources_straying {delete : KubernetesApiMapping → KubernetesResourceDefinition → Task Unit}
    (inner : ∀ mapping definition, Within (Straying node) (delete mapping definition))
    (suits : mapping.suits definition = true) (adjacent : List (String × Value)) :
    Within (Straying node) (deleteWithAdjacentResources kube node delete path adjacent definition mapping) :=
  deleteWithAdjacentResources_within straying_offline node path inner adjacent
    (doResourceRead_straying suits _)
    (deleteWhileAdjacentResources_within straying_offline _ _ _ (fun _ => doResourceDelete_straying suits _)
      (preparePvcDelete_within fun _ => doResourceUpdate_straying))

/-- With readable annotations the deletion begins with a read of the pair that it is given. -/
theorem deleteWithAdjacentResources_reads {delete : KubernetesApiMapping → KubernetesResourceDefinition → Task Unit}
    (inner : ∀ mapping definition, Within (Steps kube fun _ => True) (delete mapping definition))
    (readable : (customAnnotations definition).isOk = true) (adjacent : List (String × Value)) (s : State) :
    ∃ events, (deleteWithAdjacentResources kube node delete path adjacent definition mapping s).2.log =
        s.log ++ events ∧ .called ⟨.read .task, mapping, definition⟩ ∈ events := by
  have deletion : Within (Steps kube fun _ => True)
      (deleteWhileAdjacentResources kube node path mapping definition adjacent) :=
    deleteWhileAdjacentResources_within steps_offline _ _ _
      (fun _ => doResourceDelete_steps _ _ trivial trivial)
      (preparePvcDelete_within fun _ => doResourceUpdate_steps trivial)
  obtain ⟨rest, whole, follows⟩ :=
    deleteWithAdjacentResources_rest steps_offline node path inner adjacent deletion
  rw [whole, bind_run, readWhileAdjacentResources_run]
  have read := doResourceRead_run kube .task mapping definition s
  generalize doResourceRead kube .task mapping definition s = ran at read ⊢
  cases read with
  | malformed e failed =>
    rw [show customAnnotations definition = .error e from failed] at readable
    cases readable
  | called result options events _ call =>
    have called : .called ⟨.read .task, mapping, definition⟩ ∈ events := (call.mem_iff (by simp)).mpr (.inl rfl)
    dsimp only
    generalize readOutcome (result >>= jsonCleanuper) = outcome
    cases outcome with
    | error e => exact ⟨.edited definition :: events, rfl, by simp [called]⟩
    | ok value =>
      obtain ⟨more, grown⟩ := steps_extend (follows value _)
      exact ⟨.edited definition :: events ++ more, by rw [grown]; simp, by simp [called]⟩

theorem fileResourceDeleteTask_straying (depth : Nat) (mapping : KubernetesApiMapping)
    (definition : KubernetesResourceDefinition) :
    Within (Straying node) (fileResourceDeleteTask kube node depth path mapping definition) := by
  induction depth generalizing mapping definition with
  | zero => exact .raise _
  | succ depth ih =>
    intro s
    rw [fileResourceDeleteTask, bind_run_ok (getRuntime_run s), bind_run_ok (record_run _ s), bind_run]
    have found := @getPathWithAdjacentResources_paired node path mapping definition
      { s with log := s.log ++ [.entered path mapping definition s.runtime] }
    have choice : Straying node _ _ := found.straying
    obtain ⟨⟨events, grown, _⟩, paired⟩ := found
    have steps (mapping : KubernetesApiMapping) (definition : KubernetesResourceDefinition) :
        Within (Steps kube fun _ => True) (fileResourceDeleteTask kube node depth path mapping definition) :=
      fileResourceDeleteTask_steps _ _ _ _ _ _ (fun _ => trivial) trivial fun _ => trivial
    cases misled : (Event.entered path mapping definition s.runtime).misleads node with
    | false =>
      have entered : Straying node s { s with log := s.log ++ [.entered path mapping definition s.runtime] } :=
        .of_neutral rfl fun e member => by simp [List.mem_singleton.mp member, misled, Event.strays]
      refine IsTrans.trans _ _ _ entered ?_
      generalize getPathWithAdjacentResources node path mapping definition
        { s with log := s.log ++ [.entered path mapping definition s.runtime] } = ran at choice paired ⊢
      obtain ⟨e | ⟨adjacent, definition', mapping'⟩, s'⟩ := ran
      · exact choice
      refine IsTrans.trans _ _ _ choice ?_
      cases suits : mapping'.suits definition' with
      | true => exact deleteWithAdjacentResources_straying ih suits adjacent s'
      | false =>
        -- The pair is the given one, which only escapes the blame if nothing can be read of it.
        simp only [Paired] at paired
        cases kept : keepsGiven node path definition s.runtime with
        | false => simp [kept, suits] at paired
        | true =>
          simp only [kept, if_true] at paired
          obtain ⟨rfl, rfl⟩ := paired
          simp only [Event.misleads, kept, suits, Bool.true_and, Bool.not_false, Bool.and_true] at misled
          cases unreadable : customAnnotations definition' with
          | ok annotations =>
            rw [unreadable] at misled
            cases misled
          | error e =>
            have ended : deleteWithAdjacentResources kube node (fileResourceDeleteTask kube node depth path) path
                adjacent definition' mapping' s' = (.error e, s') :=
              deleteWithAdjacentResources_malformed unreadable adjacent s'
            exact .of_eq (congrArg (fun ran => ran.2.log) ended)
    | true =>
      simp only [Event.misleads, Bool.and_eq_true, Bool.not_eq_true'] at misled
      obtain ⟨⟨kept, readable⟩, strays⟩ := misled
      generalize getPathWithAdjacentResources node path mapping definition
        { s with log := s.log ++ [.entered path mapping definition s.runtime] } = ran at grown paired ⊢
      obtain ⟨e | ⟨adjacent, definition', mapping'⟩, s'⟩ := ran
      · simp [kept] at paired
      simp only [Paired, kept, if_true] at paired
      obtain ⟨rfl, rfl⟩ := paired
      obtain ⟨more, grown', read⟩ := deleteWithAdjacentResources_reads steps readable adjacent s'
      have whole := grown'.trans (congrArg (· ++ more) grown)
      simp only [List.append_assoc] at whole
      refine .of_both whole ⟨.called ⟨.read .task, mapping', definition'⟩, ?_, ?_⟩
        ⟨.entered path mapping' definition' s.runtime, by simp, ?_⟩
      · exact List.mem_append_right _ (List.mem_append_right _ read)
      · simp [Event.strays, strays]
      · simp [Event.misleads, kept, readable, strays]

end

/-- A file deletion reads and deletes through the API of another kind exactly when a call of
    it was given the mapping of another kind and finds no other definition to go on with. -/
theorem strays_iff (kube : Kubernetes) (node : Node) (path : String) (mapping : KubernetesApiMapping)
    (definition : KubernetesResourceDefinition) (s : State) (fresh : s.log = []) :
    let log := (fileResourceDeleteTask kube node (recursionDepth s.runtime) path mapping definition s).2.log
    (∀ e ∈ log, e.strays = false) ↔ ∀ e ∈ log, e.misleads node = false := by
  intro log
  have grows : Straying node s
      (fileResourceDeleteTask kube node (recursionDepth s.runtime) path mapping definition s).2 :=
    fileResourceDeleteTask_straying _ _ _ s
  have whole := grows.iff_of_empty fresh
  have none (p : Event → Bool) : (∀ e ∈ log, p e = false) ↔ ¬ ∃ e ∈ log, p e = true := by simp
  rw [none, none, whole]

open Package

def mixedFile : State :=
  { mainNamespace with runtime := {
      kubernetes := some (OrderedDict.ofEntries
        [("maps.yaml#0", response "ConfigMap" "settings"), ("maps.yaml#1", response "Pod" "worker")])
      resourceDefinitions := some [response "ConfigMap" "settings", response "Pod" "worker"] } }

/-- The pod behind a missing config map is looked up among the config maps. -/
theorem sibling_strays :
    configMapMapping.suits (configMap "settings" none) = true ∧
      ¬ ∀ e ∈ (fileResourceDeleteTask nothing ownNode (recursionDepth mixedFile.runtime) "maps.yaml#0"
        configMapMapping (configMap "settings" none) mixedFile).2.log, e.strays = false := by decide +kernel

theorem strays_iff_mixedFile :
    let log := (fileResourceDeleteTask nothing ownNode (recursionDepth mixedFile.runtime) "maps.yaml#0"
      configMapMapping (configMap "settings" none) mixedFile).2.log
    (∀ e ∈ log, e.strays = false) ↔ ∀ e ∈ log, e.misleads ownNode = false :=
  strays_iff nothing ownNode "maps.yaml#0" configMapMapping (configMap "settings" none) mixedFile rfl

end CloudifyKubernetes
