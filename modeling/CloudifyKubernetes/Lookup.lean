import CloudifyKubernetes.Operations
import CloudifyKubernetes.Records

namespace CloudifyKubernetes

open Collections Effects Program

section

variable {options : Dict} {log : List Event}

def elsewhere (options : Dict) (log : List Event) (s : State) : State := ⟨s.runtime, options, log⟩

theorem getRuntime_commutes : Commutes (elsewhere options log) getRuntime := fun _ => rfl

theorem modifyRuntime_commutes (f : RuntimeProperties → RuntimeProperties) :
    Commutes (elsewhere options log) (modifyRuntime f) := fun _ => rfl

theorem takeAdjacent_commutes (delete : Bool) (path : String) (resource : Value) (files : Dict) :
    Commutes (elsewhere options log) (takeAdjacent delete path resource files) := by
  unfold takeAdjacent
  split
  · exact (Commutes.ofExcept _).bind fun _ => (Commutes.ofExcept _).bind fun _ =>
      (modifyRuntime_commutes _).bind fun _ => .pure _
  · exact .pure _

theorem retrieveLastCreatePath_commutes (path : String) (delete : Bool) :
    Commutes (elsewhere options log) (retrieveLastCreatePath path delete) := by
  refine getRuntime_commutes.bind fun runtime => ?_
  dsimp only
  split
  · split
    · exact takeAdjacent_commutes _ _ _ _
    · exact .pure _
  · split
    · exact .raise _
    · split
      · exact (modifyRuntime_commutes _).bind fun _ =>
          (Commutes.ofExcept _).bind fun _ => takeAdjacent_commutes _ _ _ _
      · exact (Commutes.ofExcept _).bind fun _ => takeAdjacent_commutes _ _ _ _

theorem recordedResource_commutes (path : String) :
    Commutes (elsewhere options log) (recordedResource path) :=
  (retrieveLastCreatePath_commutes path true).bind fun _ => (Commutes.ofExcept _).bind fun _ =>
    (Commutes.ofExcept _).bind fun _ => .pure _

end

def lookupRecord (path : String) (runtime : RuntimeProperties) :
    Except Exception (LastCreatePath × Value × Value) × RuntimeProperties :=
  let (result, s) := recordedResource path ⟨runtime, .empty, []⟩
  (result, s.runtime)

theorem recordedResource_run (path : String) (s : State) :
    recordedResource path s = ((lookupRecord path s.runtime).1,
      { s with runtime := (lookupRecord path s.runtime).2 }) :=
  recordedResource_commutes path ⟨s.runtime, .empty, []⟩

def Exception.unresolved (e : Exception) : Bool :=
  e.isA .nonRecoverableError || e.isA .typeError || e.isA .keyError

def rebuilt (found : LastCreatePath) (kind metadata : Value) :
    Except Exception (List (String × Value) × KubernetesResourceDefinition × KubernetesApiMapping) := do
  let version ← recordedVersion found.resource
  if version.truthy then
    let definition ← KubernetesResourceDefinition.ofParts kind version metadata
    let mapping ← mappingByKind [] definition
    return (found.adjacent, definition, mapping)
  else .error ⟨.nonRecoverableError,
    "Received invalid resource with no API version: " ++ found.resource.toText⟩

theorem rebuilt_ok {found : LastCreatePath} {kind metadata : Value} {adjacent : List (String × Value)}
    {definition : KubernetesResourceDefinition} {mapping : KubernetesApiMapping}
    (made : rebuilt found kind metadata = .ok (adjacent, definition, mapping)) :
    adjacent = found.adjacent ∧ mappingByKind [] definition = .ok mapping ∧
      ∃ version, version.truthy = true ∧
        KubernetesResourceDefinition.ofParts kind version metadata = .ok definition := by
  obtain ⟨version, _, made⟩ := ok_of_bind made
  cases truthy : version.truthy with
  | false =>
    rw [truthy] at made
    cases made
  | true =>
    rw [truthy] at made
    obtain ⟨definition', parts, made⟩ := ok_of_bind made
    obtain ⟨mapping', chosen, made⟩ := ok_of_bind made
    cases made
    exact ⟨rfl, chosen, version, truthy, parts⟩

section

variable (node : Node) (path : String) (mapping : KubernetesApiMapping)
  (definition : KubernetesResourceDefinition)

theorem getPathWithAdjacentResources_run (s : State) :
    getPathWithAdjacentResources node path mapping definition s =
      let s' := { s with runtime := (lookupRecord path s.runtime).2 }
      match (lookupRecord path s.runtime).1 with
      | .ok (found, kind, metadata) => (rebuilt found kind metadata, s')
      | .error e =>
        if e.unresolved then
          (retrieveStoredResource node definition mapping true >>= fun chosen => pure ([], chosen)) s'
        else (.error e, s') := by
  rw [getPathWithAdjacentResources, bind_run_ok (attempt_run _ _), recordedResource_run]
  dsimp only
  cases (lookupRecord path s.runtime).1 with
  | error e =>
    change (if e.unresolved = true then _ else _ : Task _) _ = if e.unresolved = true then _ else _
    cases e.unresolved <;> rfl
  | ok result =>
    obtain ⟨found, kind, metadata⟩ := result
    have whole : (ofExcept (rebuilt found kind metadata) : Task _) = (do
        let version ← ofExcept (recordedVersion found.resource)
        if version.truthy then
          let definition ← ofExcept (KubernetesResourceDefinition.ofParts kind version metadata)
          let mapping ← ofExcept (mappingByKind [] definition)
          return (found.adjacent, definition, mapping)
        else raise ⟨.nonRecoverableError,
          "Received invalid resource with no API version: " ++ found.resource.toText⟩) := by
      rw [rebuilt, ofExcept_bind]
      congr
      funext version
      split
      · rw [ofExcept_bind]
        congr
        funext definition
        rw [ofExcept_bind]
        rfl
      · rfl
    exact (congrFun whole _).symm.trans (ofExcept_run _ _)

theorem removeResourceDefinition_run (kind : String) (name : Value) (s : State) :
    removeResourceDefinition kind name s =
      ((removeNamed kind name (s.runtime.resourceDefinitions.getD [])).1,
        { s with runtime := { s.runtime with
            resourceDefinitions :=
              some (removeNamed kind name (s.runtime.resourceDefinitions.getD [])).2 } }) := by
  simp only [removeResourceDefinition, bind_run, getRuntime_run]
  generalize removeNamed kind name (s.runtime.resourceDefinitions.getD []) = removed
  obtain ⟨result, kept⟩ := removed
  simp only [modifyRuntime_run, ofExcept_run]

def lastStored (definition : KubernetesResourceDefinition) (runtime : RuntimeProperties) : Value :=
  (runtime.resourceDefinitions.bind List.getLast?).getD definition.cleanup

def replaces (node : Node) (definition : KubernetesResourceDefinition) (runtime : RuntimeProperties) : Bool :=
  !definition.cleanup.eq (lastStored definition runtime) && node.allowNodeRedefinition

def popStored (runtime : RuntimeProperties) : RuntimeProperties :=
  { runtime with resourceDefinitions := runtime.resourceDefinitions.map List.dropLast }

def takeStored (chosen : KubernetesResourceDefinition × KubernetesApiMapping) :
    Task (KubernetesResourceDefinition × KubernetesApiMapping) := do
  let name ← Program.ofExcept (chosen.1.metadata.index "name")
  removeResourceDefinition chosen.1.kind name
  return chosen

theorem retrieveStoredResource_run (s : State) :
    retrieveStoredResource node definition mapping true s =
      if replaces node definition s.runtime then
        (do
          let previous ← Program.ofExcept
            (KubernetesResourceDefinition.ofStored (lastStored definition s.runtime))
          let mapping ← chooseMapping previous
          takeStored (previous, mapping) : Task _) { s with runtime := popStored s.runtime }
      else takeStored (definition, mapping) { s with runtime := popStored s.runtime } := by
  simp only [retrieveStoredResource, if_true]
  rw [bind_run_ok (getRuntime_run _), bind_run_ok (modifyRuntime_run _ _)]
  change ((if replaces node definition s.runtime = true then _ else _ : Task _) >>= takeStored) _ = _
  cases replaces node definition s.runtime with
  | false => rfl
  | true =>
    simp only [if_true, bind_assoc]
    rfl

theorem removeNamed_sublist (kind : String) (name : Value) (definitions : List Value) :
    (removeNamed kind name definitions).2.Sublist definitions := by
  induction definitions using removeNamed.induct kind name with
  | case1 => exact .slnil
  | case2 item e failed => simp [removeNamed, failed]
  | case3 item named => simp [removeNamed, named]
  | case4 item other => simp [removeNamed, other]
  | case5 item next rest e failed => simp [removeNamed, failed]
  | case6 item next rest named result kept removed ih =>
    simp only [removeNamed, named]
    exact (ih.cons_cons next).cons item
  | case7 item next rest other result kept removed ih =>
    simp only [removeNamed, other]
    exact ih.cons_cons item

def settles (definition : KubernetesResourceDefinition) (runtime : RuntimeProperties) : Bool :=
  match definition.metadata.index "name" with
  | .ok name => (removeNamed definition.kind name (runtime.resourceDefinitions.getD [])).1.isOk
  | .error _ => false

structure Fewer (runtime runtime' : RuntimeProperties) : Prop where
  kubernetes : runtime'.kubernetes = runtime.kubernetes
  stored : ∀ v ∈ runtime'.resourceDefinitions.getD [], v ∈ runtime.resourceDefinitions.getD []

theorem takeStored_run (chosen : KubernetesResourceDefinition × KubernetesApiMapping) (s : State) :
    ∃ result runtime, takeStored chosen s = (result, { s with runtime }) ∧ Fewer s.runtime runtime ∧
      (settles chosen.1 s.runtime = true ∧ result = .ok chosen ∨
        settles chosen.1 s.runtime = false ∧ ∃ e, result = .error e) := by
  cases named : chosen.1.metadata.index "name" with
  | error e =>
    refine ⟨.error e, s.runtime, ?_, ⟨rfl, fun _ member => member⟩, .inr ⟨?_, e, rfl⟩⟩
    · rw [takeStored, named]
      rfl
    · rw [settles, named]
  | ok name =>
    have run : takeStored chosen s =
        (removeResourceDefinition chosen.1.kind name >>= fun _ => pure chosen) s := by
      rw [takeStored, named]
      rfl
    have settled : settles chosen.1 s.runtime =
        (removeNamed chosen.1.kind name (s.runtime.resourceDefinitions.getD [])).1.isOk := by
      rw [settles, named]
    rw [run, settled, bind_run, removeResourceDefinition_run]
    have sublist := removeNamed_sublist chosen.1.kind name (s.runtime.resourceDefinitions.getD [])
    generalize removeNamed chosen.1.kind name (s.runtime.resourceDefinitions.getD []) = removed at sublist ⊢
    have fewer : Fewer s.runtime { s.runtime with resourceDefinitions := some removed.2 } :=
      ⟨rfl, fun v member => sublist.subset (by simpa using member)⟩
    obtain ⟨e | value, kept⟩ := removed
    · exact ⟨_, _, rfl, fewer, .inr ⟨rfl, e, rfl⟩⟩
    · exact ⟨_, _, rfl, fewer, .inl ⟨rfl, rfl⟩⟩

end

end CloudifyKubernetes
