import CloudifyKubernetes.Collections.Sweep
import CloudifyKubernetes.LastCreatePath

namespace CloudifyKubernetes

open Collections Effects Program

def Value.HasName (v : Value) : Prop :=
  ∃ kind metadata name, v.index "kind" = .ok kind ∧ v.index "metadata" = .ok metadata ∧
    metadata.index "name" = .ok name

def isFor (kind : String) (name v : Value) : Bool :=
  match v.index "kind", v.index "metadata" >>= fun metadata => metadata.index "name" with
  | .ok own, .ok called => own.eq (.str kind) && called.eq name
  | _, _ => false

variable {kind : String} {name : Value} {definitions : List Value}

theorem isNamed_of_hasName {v : Value} (described : v.HasName) : isNamed kind name v = .ok (isFor kind name v) := by
  obtain ⟨own, metadata, called, kinded, inside, named⟩ := described
  simp only [isNamed, isFor, kinded, inside, named, bind, Except.bind, pure, Except.pure]
  cases own.eq (.str kind) with
  | true => rw [Bool.true_and]; rfl
  | false => rfl

theorem removeNamed_sweep {p : Value → Bool} (decided : ∀ v ∈ definitions, isNamed kind name v = .ok (p v)) :
    removeNamed kind name definitions = (.ok (), sweep p definitions) := by
  induction definitions using sweep.induct p with
  | case1 => rfl
  | case2 x found =>
    have here := decided x (by simp)
    rw [found] at here
    simp only [removeNamed, here, sweep, found, ↓reduceIte]
  | case3 x other =>
    have here := decided x (by simp)
    rw [Bool.eq_false_iff.mpr other] at here
    simp only [removeNamed, here, sweep, if_neg other]
  | case4 x y rest found ih =>
    have here := decided x (by simp)
    have later := ih fun v member => decided v (by simp [member])
    rw [found] at here
    simp only [removeNamed, here, later, sweep, found, ↓reduceIte]
  | case5 x y rest other ih =>
    have here := decided x (by simp)
    have later := ih fun v member => decided v (List.mem_cons_of_mem _ member)
    rw [Bool.eq_false_iff.mpr other] at here
    simp only [removeNamed, here, later, sweep, if_neg other]

theorem removeNamed_sweepAt (described : ∀ v ∈ definitions, v.HasName) :
    removeNamed kind name definitions = (.ok (), sweepAt (isFor kind name) 0 definitions) := by
  rw [sweepAt_zero]
  apply removeNamed_sweep
  intro v member
  exact isNamed_of_hasName (described v member)

section Filter

variable {s : State}

def State.without (s : State) (kind : String) (name : Value) : State :=
  { s with runtime := { s.runtime with
      resourceDefinitions := some ((storedDefinitions s.runtime).filter fun v => !isFor kind name v) } }

theorem removeResourceDefinition_sweeps (described : ∀ v ∈ storedDefinitions s.runtime, v.HasName) :
    removeResourceDefinition kind name s = (.ok (), { s with runtime := { s.runtime with
      resourceDefinitions := some (sweep (isFor kind name) (storedDefinitions s.runtime)) } }) := by
  have removed : removeNamed kind name (storedDefinitions s.runtime) =
      (.ok (), sweepAt (isFor kind name) 0 (storedDefinitions s.runtime)) := removeNamed_sweepAt described
  rw [sweepAt_zero, storedDefinitions] at removed
  rw [removeResourceDefinition_run, removed]
  rfl

theorem removeResourceDefinition_spares (described : ∀ v ∈ storedDefinitions s.runtime, v.HasName) :
    (storedDefinitions (removeResourceDefinition kind name s).2.runtime).filter (fun v => !isFor kind name v) =
      (storedDefinitions s.runtime).filter fun v => !isFor kind name v := by
  rw [removeResourceDefinition_sweeps described]
  apply filter_sweep

/-- The definitions of the kind and name are removed exactly if no two of them are stored next to
    each other. -/
theorem removeResourceDefinition_filters_iff (described : ∀ v ∈ storedDefinitions s.runtime, v.HasName) :
    removeResourceDefinition kind name s = (.ok (), s.without kind name) ↔
      Apart (isFor kind name) (storedDefinitions s.runtime) := by
  rw [removeResourceDefinition_sweeps described, ← sweep_eq_filter_iff]
  constructor
  · intro filtered
    have left := congrArg (fun run => run.2.runtime.resourceDefinitions) filtered
    exact Option.some.inj left
  · intro filtered
    rw [filtered, State.without]

end Filter

def credentials (namesp : String) : Value :=
  .dict [("kind", .str "Secret"), ("metadata", .dict [("name", .str "credentials"), ("namespace", .str namesp)])]

def limits : Value := .dict [("kind", .str "ConfigMap"), ("metadata", .dict [("name", .str "limits")])]

def storing (definitions : List Value) : State := ⟨{ resourceDefinitions := some definitions }, .empty, []⟩

theorem credentials_hasName (namesp : String) : (credentials namesp).HasName :=
  ⟨_, _, _, rfl, rfl, rfl⟩

theorem limits_hasName : limits.HasName :=
  ⟨_, _, _, rfl, rfl, rfl⟩

@[simp]
theorem storedDefinitions_storing (definitions : List Value) :
    storedDefinitions (storing definitions).runtime = definitions :=
  rfl

theorem removeResourceDefinition_filters_credentials :
    removeResourceDefinition "Secret" (.str "credentials") (storing [credentials "main", limits, credentials "test"]) =
      (.ok (), storing [limits]) := by
  have described : ∀ v ∈ storedDefinitions (storing [credentials "main", limits, credentials "test"]).runtime,
      v.HasName := by
    simp [credentials_hasName, limits_hasName]
  have apart : Apart (isFor "Secret" (.str "credentials"))
      (storedDefinitions (storing [credentials "main", limits, credentials "test"]).runtime) := by
    decide +kernel
  exact (removeResourceDefinition_filters_iff described).mpr apart

/-- The loop passes over the second of two secrets that are stored one after the other. -/
theorem removeResourceDefinition_passes_over : ¬ ∀ (kind : String) (name : Value) (s : State),
    (∀ v ∈ storedDefinitions s.runtime, v.HasName) →
    removeResourceDefinition kind name s = (.ok (), s.without kind name) := by
  intro filters
  have described : ∀ v ∈ storedDefinitions (storing [credentials "main", credentials "test"]).runtime,
      v.HasName := by
    simp [credentials_hasName]
  have filtered := filters "Secret" (.str "credentials") _ described
  rw [removeResourceDefinition_sweeps described] at filtered
  have left := congrArg (fun run => (storedDefinitions run.2.runtime).length) filtered
  revert left
  decide +kernel

end CloudifyKubernetes
