import CloudifyKubernetes.Completion
import CloudifyKubernetes.Pairing

namespace CloudifyKubernetes

open Collections Effects Program

def Exception.NotFound (e : Exception) : Prop :=
  ∃ answer : ApiException, answer.status = some 404 ∧ e = executionError (Failure.apiException answer).raised

theorem contains_executionError {e : Exception} {part : String} (inside : Text.contains e.text part = true) :
    Text.contains (executionError e).text part = true := by
  rw [Text.contains_iff] at inside ⊢
  unfold executionError
  split
  · exact inside
  · rw [String.toList_append]
    exact inside.trans (List.suffix_append _ _).isInfix

theorem executionError_isA (e : Exception) :
    ((executionError e).isA .nonRecoverableError || (executionError e).isA .apiOperationError) = true := by
  unfold executionError
  split <;> rfl

theorem Exception.NotFound.told {e : Exception} (gone : e.NotFound) : Text.contains e.text "(404)" = true := by
  obtain ⟨answer, status, rfl⟩ := gone
  refine contains_executionError ?_
  have status : optionalText (answer.status.map toString) = "404" := by
    rw [status]
    decide +kernel
  rw [Text.contains_iff]
  simp only [Failure.raised, ApiException.toText, status, String.toList_append]
  exact ⟨"Operation execution failed. Exception during Kubernetes API call: ".toList, _, by
    simp only [List.append_assoc]
    rfl⟩

theorem Exception.NotFound.readOutcome {e : Exception} (gone : e.NotFound) :
    readOutcome (.error e) = .ok (some ⟨.missingResource, e.text⟩) := by
  have told := gone.told
  obtain ⟨answer, _, rfl⟩ := gone
  rw [CloudifyKubernetes.readOutcome, if_pos (executionError_isA _), if_pos told]

def Records (files : Dict) (i : Identity) : Prop := ∃ path v, files.get? path = some v ∧ Identity.ofDict v = .ok i

structure WellStored (s : State) : Prop where
  records : ∀ path v, (recordedFiles s.runtime).get? path = some v →
    path ≠ "" ∧ ∃ kind version fields, IsResult v kind version fields
  plain : ∀ v ∈ storedDefinitions s.runtime, v.IsPlain

theorem Lessens.wellStored {s s' : State} (less : Lessens s s') (stored : WellStored s) : WellStored s' where
  records path v found := stored.records path v (less.files path v found)
  plain v member := stored.plain v (less.definitions.subset member)

structure Took (path : String) (files : Dict) (found : LastCreatePath) (files' : Dict) : Prop where
  entry : files.get? found.path = some found.resource
  own : path = found.path ∨ files.get? path = none
  adjacent : ∀ e ∈ found.adjacent, files.get? e.1 = some e.2 ∧ e.1 ≠ found.path
  left : ∀ key, files'.get? key =
    if key = found.path ∨ key ∈ found.adjacent.map Prod.fst then none else files.get? key

theorem settledFile_own {path : String} {runtime : RuntimeProperties} {name : String} {resource : Value}
    (settled : settledFile path runtime = .ok (name, resource)) :
    path = name ∨ (recordedFiles runtime).get? path = none := by
  simp only [settledFile] at settled
  cases recorded : (recordedFiles runtime).get? path with
  | none => exact .inr rfl
  | some found =>
    rw [recorded] at settled
    cases settled
    exact .inl rfl

theorem retrieveLastCreatePath_took {path : String} {s s' : State} {found : LastCreatePath}
    (ran : retrieveLastCreatePath path true s = (.ok found, s')) (truthy : found.resource.truthy = true) :
    Took path (recordedFiles s.runtime) found (recordedFiles s'.runtime) := by
  obtain ⟨settled, stem, _, adjacent, left⟩ := retrieveLastCreatePath_taken ran truthy
  refine ⟨settledFile_entry settled truthy, settledFile_own settled, fun e member => ?_, fun key => ?_⟩
  · rw [adjacent, besides, List.mem_filter, OrderedDict.mem_erase_iff] at member
    exact ⟨(OrderedDict.mem_items_iff _ _ _).mp member.1.1, member.1.2⟩
  · rw [left, OrderedDict.get?_filter, OrderedDict.get?_erase]
    by_cases own : key = found.path
    · simp [own]
    · by_cases taken : key ∈ found.adjacent.map Prod.fst
      · simp [own, taken]
      · rw [if_neg own, if_neg (by tauto)]
        cases (recordedFiles s.runtime).get? key with
        | none => rfl
        | some v => simp [taken]

theorem retrieveLastCreatePath_untaken {path : String} {s s' : State} {result : Except Exception LastCreatePath}
    (ran : retrieveLastCreatePath path true s = (result, s'))
    (untaken : ∀ found, result = .ok found → found.resource.truthy = false) :
    recordedFiles s'.runtime = recordedFiles s.runtime := by
  rw [retrieveLastCreatePath_run] at ran
  cases settled : settledFile path s.runtime with
  | error e =>
    rw [settled] at ran
    cases ran
    exact poppedFor_files path s.runtime
  | ok settledOn =>
    obtain ⟨name, resource⟩ := settledOn
    simp only [settled, takeAdjacent_run] at ran
    split at ran
    · rename_i truthy
      cases taken : takenWith name resource ((recordedFiles s.runtime).erase name) with
      | error e =>
        rw [taken] at ran
        cases ran
        exact poppedFor_files path s.runtime
      | ok adjacent =>
        rw [taken] at ran
        cases ran
        have untruthy : resource.truthy = false := untaken _ rfl
        cases untruthy.symm.trans truthy
    · cases ran
      exact poppedFor_files path s.runtime

theorem retrieveLastCreatePath_settled {path : String} {s s' : State} {found : LastCreatePath}
    (ran : retrieveLastCreatePath path true s = (.ok found, s')) :
    settledFile path s.runtime = .ok (found.path, found.resource) := by
  rw [retrieveLastCreatePath_run] at ran
  cases settled : settledFile path s.runtime with
  | error e =>
    rw [settled] at ran
    cases ran
  | ok settledOn =>
    obtain ⟨name, resource⟩ := settledOn
    simp only [settled, takeAdjacent_run] at ran
    split at ran
    · cases taken : takenWith name resource ((recordedFiles s.runtime).erase name) with
      | error e =>
        rw [taken] at ran
        cases ran
      | ok adjacent =>
        rw [taken] at ran
        cases ran
        rfl
    · cases ran
      rfl

theorem truthy_of_index {v w : Value} {key : String} (indexed : v.index key = .ok w) : v.truthy = true := by
  cases v with
  | dict entries =>
    cases entries with
    | nil => cases indexed
    | cons entry rest => rfl
  | _ => cases indexed

theorem lookupRecord_inv {path : String} {runtime runtime' : RuntimeProperties}
    {result : Except Exception (LastCreatePath × Value × Value)}
    (ran : lookupRecord path runtime = (result, runtime')) :
    ∃ s', recordedResource path ⟨runtime, .empty, []⟩ = (result, s') ∧ s'.runtime = runtime' := by
  unfold lookupRecord at ran
  generalize recordedResource path ⟨runtime, .empty, []⟩ = whole at ran
  obtain ⟨result', s'⟩ := whole
  cases ran
  exact ⟨s', rfl, rfl⟩

theorem lookupRecord_took {path : String} {runtime runtime' : RuntimeProperties} {found : LastCreatePath}
    {kind metadata : Value} (ran : lookupRecord path runtime = (.ok (found, kind, metadata), runtime')) :
    Took path (recordedFiles runtime) found (recordedFiles runtime') ∧ found.resource.index "kind" = .ok kind ∧
      found.resource.index "metadata" = .ok metadata := by
  obtain ⟨s', whole, rfl⟩ := lookupRecord_inv ran
  obtain ⟨found', middle, looked, rest⟩ := bind_ok_inv whole
  obtain ⟨kind', kinded, rest⟩ := bind_ofExcept_ok_inv rest
  obtain ⟨metadata', described, rest⟩ := bind_ofExcept_ok_inv rest
  cases rest
  exact ⟨retrieveLastCreatePath_took looked (truthy_of_index kinded), kinded, described⟩

theorem lookupRecord_untaken {path : String} {runtime runtime' : RuntimeProperties} {e : Exception}
    (records : ∀ path v, (recordedFiles runtime).get? path = some v →
      ∃ kind version fields, IsResult v kind version fields)
    (ran : lookupRecord path runtime = (.error e, runtime')) :
    recordedFiles runtime' = recordedFiles runtime ∧
      (e.unresolved = true → (recordedFiles runtime).get? path = none) := by
  obtain ⟨s', whole, rfl⟩ := lookupRecord_inv ran
  rcases bind_error_inv whole with failed | ⟨found, middle, looked, rest⟩
  · refine ⟨retrieveLastCreatePath_untaken failed (fun _ ok => by cases ok), fun unresolved => ?_⟩
    rw [retrieveLastCreatePath_run] at failed
    cases recorded : (recordedFiles runtime).get? path with
    | none => rfl
    | some v =>
      have settled : settledFile path runtime = .ok (path, v) := by simp only [settledFile, recorded]
      simp only [settled, takeAdjacent_run] at failed
      split at failed
      · cases taken : takenWith path v ((recordedFiles runtime).erase path) with
        | ok adjacent =>
          rw [taken] at failed
          cases failed
        | error e' =>
          rw [taken] at failed
          cases failed
          rcases takenWith_error_cls taken with cls | cls <;>
            simp [Exception.unresolved, Exception.isA, cls, ExceptionClass.isSubclass] at unresolved
      · cases failed
  · -- A record that is taken has its kind and its metadata.
    have settled := retrieveLastCreatePath_settled looked
    have untruthy : found.resource.truthy = false := by
      by_contra truthy
      obtain ⟨_, _, _, is⟩ := records _ _ (settledFile_entry settled (by simpa using truthy))
      rw [is.kinded, is.described] at rest
      cases rest
    have untaken := retrieveLastCreatePath_untaken looked fun _ ok => by cases ok; exact untruthy
    have same : s' = middle := by
      rcases bind_ofExcept_error_inv rest with ⟨_, same⟩ | ⟨_, kinded, _⟩
      · exact same
      · rw [truthy_of_index kinded] at untruthy
        cases untruthy
    rw [same]
    refine ⟨untaken, fun _ => ?_⟩
    rcases settledFile_own settled with rfl | none
    · cases recorded : (recordedFiles runtime).get? found.path with
      | none => rfl
      | some v =>
        have same : v = found.resource := by
          simp only [settledFile, recorded] at settled
          cases settled
          rfl
        obtain ⟨_, _, _, is⟩ := records _ _ recorded
        rw [← same, truthy_of_index is.kinded] at untruthy
        cases untruthy
    · exact none

theorem IsResult.storedForm {v version version' : Value} {kind : String} {fields : List (String × Value)}
    (is : IsResult v kind version fields) (given : version'.isNone = false) :
    IsResult (storedForm kind version' fields) kind version'.clean (Value.cleanEntries fields) := by
  have form : CloudifyKubernetes.storedForm kind version' fields = .dict [("kind", .str kind),
      ("apiVersion", version'.clean), ("metadata", .dict (Value.cleanEntries fields))] := by
    simp only [CloudifyKubernetes.storedForm, Value.clean, Value.cleanEntries]
  rw [form]
  refine ⟨rfl, is.plain, rfl, by rw [Value.isNone_clean, given], rfl, ?_, ?_⟩
  · obtain ⟨name, named⟩ := is.named
    exact ⟨name, by rw [Value.lookup_cleanEntries, named]; rfl⟩
  · rw [Value.lookup_cleanEntries]
    rcases is.spaced with none | null | ⟨text, given⟩
    · exact .inl (by rw [none]; rfl)
    · exact .inr (.inl (by rw [null]; rfl))
    · exact .inr (.inr ⟨text, by rw [given]; rfl⟩)

structure MadeOf (v : Value) (d : KubernetesResourceDefinition) : Prop where
  parts : ∃ kind version fields, d = .plain kind version (.dict fields) ∧ version.isNone = false ∧
    ∃ version', IsResult v kind version' fields

theorem MadeOf.identity {v : Value} {d : KubernetesResourceDefinition} (made : MadeOf v d) :
    Identity.ofDefinition d = Identity.ofDict v := by
  obtain ⟨kind, version, fields, rfl, _, version', is⟩ := made.parts
  rw [is.ofDict]
  rfl

def KubernetesResourceDefinition.Storable (d : KubernetesResourceDefinition) : Prop :=
  ∃ kind version fields, IsResult d.cleanup kind version fields

theorem MadeOf.cleanup {v : Value} {d : KubernetesResourceDefinition} (made : MadeOf v d) :
    d.Storable ∧ Identity.ofDict d.cleanup = Identity.ofDict v := by
  obtain ⟨kind, version, fields, rfl, given, version', is⟩ := made.parts
  have stored := is.storedForm given
  rw [KubernetesResourceDefinition.Storable, IsResult.cleanup, is.ofDict]
  refine ⟨⟨_, _, _, stored⟩, ?_⟩
  have own : IsResult (.dict [("kind", .str kind), ("apiVersion", version), ("metadata", .dict fields)])
      kind version fields := ⟨rfl, is.plain, rfl, given, rfl, is.named, is.spaced⟩
  exact own.ofDict_storedForm

theorem rebuilt_madeOf {found : LastCreatePath} {kind metadata version : Value} {name : String}
    {fields : List (String × Value)} (is : IsResult found.resource name version fields)
    (kinded : found.resource.index "kind" = .ok kind) (described : found.resource.index "metadata" = .ok metadata)
    {adjacent : List (String × Value)} {definition : KubernetesResourceDefinition} {mapping : KubernetesApiMapping}
    (made : rebuilt found kind metadata = .ok (adjacent, definition, mapping)) :
    adjacent = found.adjacent ∧ MadeOf found.resource definition ∧ mapping.suits definition = true := by
  obtain ⟨same, chosen, version', truthy, parts⟩ := rebuilt_ok made
  refine ⟨same, ?_, mappingByKind_suits chosen⟩
  cases is.kinded.symm.trans kinded
  cases is.described.symm.trans described
  have given : version'.isNone = false := by
    cases version' <;> first | rfl | cases truthy
  have own : IsResult (.dict [("kind", .str name), ("apiVersion", version'), ("metadata", .dict fields)])
      name version' fields := ⟨rfl, is.plain, rfl, given, rfl, is.named, is.spaced⟩
  have made := own.definition
  change KubernetesResourceDefinition.ofParts (.str name) version' (.dict fields) = _ at made
  cases made.symm.trans parts
  exact ⟨name, version', fields, rfl, given, version, is⟩

def Value.IsStored (v : Value) : Prop :=
  ∃ kind version fields, v = storedForm kind version fields ∧ version.isNone = false ∧
    ∃ result, IsResult result kind version fields

theorem Value.IsStored.plain {v : Value} (stored : v.IsStored) : v.IsPlain := by
  obtain ⟨kind, version, fields, rfl, _, result, is⟩ := stored
  exact ⟨_, is.ofDict_storedForm, is.identity_plain⟩

def Restocks (s s' : State) : Prop :=
  ∀ v ∈ storedDefinitions s'.runtime, v ∈ storedDefinitions s.runtime ∨ v.IsStored

instance : Std.Refl Restocks := ⟨fun _ _ member => .inl member⟩

instance : IsTrans State Restocks := ⟨fun _ _ _ first second v member =>
  (second v member).elim (first v) .inr⟩

theorem Restocks.plain {s s' : State} (restocks : Restocks s s') (plain : ∀ v ∈ storedDefinitions s.runtime, v.IsPlain) :
    ∀ v ∈ storedDefinitions s'.runtime, v.IsPlain := fun v member =>
  (restocks v member).elim (plain v) Value.IsStored.plain

theorem IsResult.restocks {v version : Value} {kind : String} {fields : List (String × Value)}
    (is : IsResult v kind version fields) {definitions updated : List Value}
    (plain : ∀ w ∈ definitions, w.IsPlain)
    (ran : updateStored (.plain kind version (.dict fields)) definitions = .ok updated) :
    ∀ w ∈ updated, w ∈ definitions ∨ w.IsStored := by
  intro w member
  have own : Identity.ofDefinition (.plain kind version (.dict fields)) = .ok (resultIdentity kind fields) := rfl
  rw [← Except.ok.inj ((updateStored_eq own plain).symm.trans ran), IsResult.cleanup] at member
  rcases mem_upsert member with rfl | before
  · exact .inr ⟨kind, version, fields, rfl, is.given, v, is⟩
  · exact .inl before

theorem storeResultForRetrieveId_put {v version : Value} {kind : String} {fields : List (String × Value)}
    (is : IsResult v kind version fields) (path : String) {s : State}
    (plain : ∀ v ∈ storedDefinitions s.runtime, v.IsPlain) :
    ∃ s', storeResultForRetrieveId v path s = (.ok (), s') ∧
      recordedFiles s'.runtime = recordFile path v (recordedFiles s.runtime) ∧ Restocks s s' ∧
      s'.log = s.log := by
  have own : Identity.ofDefinition (.plain kind version (.dict fields)) = .ok (resultIdentity kind fields) := rfl
  have updated := updateStored_eq own plain
  generalize upsert (meets · (.plain kind version (.dict fields)))
    (KubernetesResourceDefinition.plain kind version (.dict fields)).cleanup (storedDefinitions s.runtime) =
      definitions at updated
  refine ⟨{ s with runtime := recordResult v path { s.runtime with resourceDefinitions := some definitions } },
    ?_, ?_, ?_, rfl⟩
  · have updated : updateStored (.plain kind version (.dict fields)) (s.runtime.resourceDefinitions.getD []) =
        .ok definitions := updated
    simp only [storeResultForRetrieveId, storeResourceDefinition, bind_run, is.definition, ofExcept_run,
      getRuntime_run, updated, modifyRuntime_run]
  · exact recordedFiles_recordResult _ _ _
  · intro w member
    change w ∈ (recordResult v path { s.runtime with
      resourceDefinitions := some definitions }).resourceDefinitions.getD [] at member
    rw [recordResult_resourceDefinitions, Option.getD_some] at member
    exact is.restocks plain updated w member

def putBack (adjacent : List (String × Value)) (files : Dict) : Dict :=
  adjacent.foldl (fun files e => files.set e.1 e.2) files

theorem storeAdjacent_put {adjacent : List (String × Value)}
    (results : ∀ e ∈ adjacent, e.1 ≠ "" ∧ ∃ kind version fields, IsResult e.2 kind version fields) {s : State}
    (plain : ∀ v ∈ storedDefinitions s.runtime, v.IsPlain) :
    ∃ s', storeAdjacent adjacent s = (.ok (), s') ∧
      recordedFiles s'.runtime = putBack adjacent (recordedFiles s.runtime) ∧ Restocks s s' ∧
      s'.log = s.log := by
  suffices looped : ∃ done s', forEach adjacent (fun entry => storeResultForRetrieveId entry.2 entry.1) s =
      (.ok done, s') ∧ recordedFiles s'.runtime = putBack adjacent (recordedFiles s.runtime) ∧
      Restocks s s' ∧ s'.log = s.log by
    obtain ⟨done, s', ran, rest⟩ := looped
    exact ⟨s', bind_run_ok ran _, rest⟩
  induction adjacent generalizing s with
  | nil => exact ⟨[], s, rfl, rfl, Std.Refl.refl s, rfl⟩
  | cons entry rest ih =>
    obtain ⟨⟨named, _, _, _, is⟩, others⟩ := List.forall_mem_cons.mp results
    obtain ⟨middle, first, files, restocks, log⟩ := storeResultForRetrieveId_put is entry.1 plain
    obtain ⟨done, s', ran, files', restocks', log'⟩ := ih others (restocks.plain plain)
    refine ⟨() :: done, s', ?_, ?_, IsTrans.trans _ _ _ restocks restocks', log'.trans log⟩
    · rw [forEach, bind_run_ok first, bind_run_ok ran]
      rfl
    · rw [files', files, recordFile_named named]
      rfl

theorem get?_putBack_absent {adjacent : List (String × Value)} {key : String}
    (absent : key ∉ adjacent.map Prod.fst) (files : Dict) : (putBack adjacent files).get? key = files.get? key := by
  induction adjacent generalizing files with
  | nil => rfl
  | cons entry rest ih =>
    rw [List.map_cons, List.mem_cons, not_or] at absent
    change (putBack rest (files.set entry.1 entry.2)).get? key = _
    rw [ih absent.2, OrderedDict.get?_set_ne _ _ absent.1]

theorem get?_putBack {adjacent : List (String × Value)} {e : String × Value} (member : e ∈ adjacent)
    (once : ∀ e' ∈ adjacent, e'.1 = e.1 → e'.2 = e.2) (files : Dict) :
    (putBack adjacent files).get? e.1 = some e.2 := by
  induction adjacent generalizing files with
  | nil => cases member
  | cons entry rest ih =>
    obtain ⟨first, others⟩ := List.forall_mem_cons.mp once
    change (putBack rest (files.set entry.1 entry.2)).get? e.1 = _
    by_cases later : e.1 ∈ rest.map Prod.fst
    · obtain ⟨e', inside, same⟩ := List.mem_map.mp later
      have whole : e' = e := Prod.ext same (others e' inside same)
      exact ih (whole ▸ inside) others _
    · rw [get?_putBack_absent later]
      rcases List.mem_cons.mp member with rfl | inside
      · exact OrderedDict.get?_set_self _ _ _
      · exact absurd (List.mem_map_of_mem inside) later

namespace Took

variable {path : String} {files files' : Dict} {found : LastCreatePath}

theorem once (took : Took path files found files') {e e' : String × Value} (here : e ∈ found.adjacent)
    (there : e' ∈ found.adjacent) (same : e'.1 = e.1) : e'.2 = e.2 := by
  have first := (took.adjacent e here).1
  rw [← same, (took.adjacent e' there).1] at first
  exact Option.some.inj first

theorem free (took : Took path files found files') :
    files'.get? path = none ∧ path ∉ found.adjacent.map Prod.fst := by
  constructor
  · rw [took.left]
    rcases took.own with same | none
    · rw [if_pos (.inl same)]
    · rw [none, ite_self]
  · intro member
    obtain ⟨e, inside, rfl⟩ := List.mem_map.mp member
    obtain ⟨recorded, other⟩ := took.adjacent e inside
    rcases took.own with same | none
    · exact other same
    · cases none.symm.trans recorded

theorem cases (took : Took path files found files') {key : String} {v : Value} (recorded : files.get? key = some v) :
    (key = found.path ∧ v = found.resource) ∨ (key, v) ∈ found.adjacent ∨ files'.get? key = some v := by
  by_cases own : key = found.path
  · subst own
    exact .inl ⟨rfl, Option.some.inj (recorded.symm.trans took.entry)⟩
  · by_cases taken : key ∈ found.adjacent.map Prod.fst
    · obtain ⟨e, inside, rfl⟩ := List.mem_map.mp taken
      obtain rfl : v = e.2 := Option.some.inj (recorded.symm.trans (took.adjacent e inside).1)
      exact .inr (.inl inside)
    · refine .inr (.inr ?_)
      rw [took.left, if_neg (by tauto), recorded]

/-- Records that are left stay when the adjacent ones are put back, and these are there again. -/
theorem putBack (took : Took path files found files') {files'' : Dict}
    (less : ∀ key v, files''.get? key = some v → files'.get? key = some v) (i : Identity) :
    Records files'' i ∨ (∃ e ∈ found.adjacent, Identity.ofDict e.2 = .ok i) →
      Records (putBack found.adjacent files'') i := by
  rintro (⟨key, v, recorded, named⟩ | ⟨e, inside, named⟩)
  · refine ⟨key, v, ?_, named⟩
    have left := less key v recorded
    rw [get?_putBack_absent, recorded]
    intro member
    rw [took.left, if_pos (.inr member)] at left
    cases left
  · exact ⟨e.1, e.2, get?_putBack inside (fun e' there same => took.once inside there same) _, named⟩

/-- What is there once the adjacent records are put back was there before they were taken. -/
theorem of_putBack (took : Took path files found files') {files'' : Dict}
    (less : ∀ key v, files''.get? key = some v → files'.get? key = some v) {key : String} {v : Value}
    (there : (CloudifyKubernetes.putBack found.adjacent files'').get? key = some v) : files.get? key = some v := by
  by_cases taken : key ∈ found.adjacent.map Prod.fst
  · obtain ⟨e, inside, rfl⟩ := List.mem_map.mp taken
    rw [get?_putBack inside (fun e' there same => took.once inside there same)] at there
    rw [← Option.some.inj there]
    exact (took.adjacent e inside).1
  · rw [get?_putBack_absent taken] at there
    have left := less key v there
    rw [took.left] at left
    split at left
    · cases left
    · exact left

/-- What is there once the records are put back was there before they were taken, or it is the
    result under the path. -/
theorem of_restored (took : Took path files found files') {v : Value}
    (result : ∃ kind version fields, IsResult v kind version fields) {key : String} {w : Value}
    (there : (CloudifyKubernetes.putBack found.adjacent (files'.set path v)).get? key = some w) :
    files.get? key = some w ∨ key = path ∧ ∃ kind version fields, IsResult w kind version fields := by
  by_cases taken : key ∈ found.adjacent.map Prod.fst
  · obtain ⟨e, inside, rfl⟩ := List.mem_map.mp taken
    rw [get?_putBack inside (fun e' there same => took.once inside there same)] at there
    rw [← Option.some.inj there]
    exact .inl (took.adjacent e inside).1
  · rw [get?_putBack_absent taken, OrderedDict.get?_set] at there
    split at there
    · rename_i here
      cases there
      exact .inr ⟨here, result⟩
    · rw [took.left] at there
      split at there
      · cases there
      · exact .inl there

/-- Nothing is lost if the definition of what was found goes back under the path, and the
    adjacent records under theirs. -/
theorem restored (took : Took path files found files') {v : Value}
    (same : Identity.ofDict v = Identity.ofDict found.resource) {i : Identity} (recorded : Records files i) :
    Records (CloudifyKubernetes.putBack found.adjacent (files'.set path v)) i := by
  obtain ⟨free, apart⟩ := took.free
  obtain ⟨key, w, here, named⟩ := recorded
  rcases took.cases here with ⟨rfl, rfl⟩ | inside | left
  · exact ⟨path, v, by rw [get?_putBack_absent apart, OrderedDict.get?_set_self], same.trans named⟩
  · exact ⟨key, w, get?_putBack inside (fun e' there same => took.once inside there same) _, named⟩
  · have other : key ≠ path := by
      rintro rfl
      cases free.symm.trans left
    refine ⟨key, w, ?_, named⟩
    rw [get?_putBack_absent, OrderedDict.get?_set_ne _ _ other, left]
    intro member
    rw [took.left, if_pos (.inr member)] at left
    cases left

end Took

def Event.deleted : Event → Bool
  | .returned ⟨.delete _, _, _⟩ (.ok response) => (jsonCleanuper response).isOk
  | _ => false

def Event.unreleased : Event → Bool
  | .returned ⟨.update, _, _⟩ result => !(forgiven (result >>= jsonCleanuper)).isOk
  | _ => false

def Passing (passes : Event → Prop) (s s' : State) : Prop :=
  Untouched s s' ∧ ∃ events, s'.log = s.log ++ events ∧ ∀ e ∈ events, passes e

instance (passes : Event → Prop) : Std.Refl (Passing passes) :=
  ⟨fun s => ⟨Std.Refl.refl s, [], (List.append_nil _).symm, by simp⟩⟩

instance (passes : Event → Prop) : IsTrans State (Passing passes) := ⟨by
  rintro s middle s' ⟨kept, events, grown, passed⟩ ⟨kept', events', grown', passed'⟩
  refine ⟨IsTrans.trans _ _ _ kept kept', events ++ events', by rw [grown', grown, List.append_assoc], ?_⟩
  intro e member
  rcases List.mem_append.mp member with member | member
  · exact passed e member
  · exact passed' e member⟩

section

variable {kube : Kubernetes} {node : Node} {path : String} {mapping : KubernetesApiMapping}
  {definition : KubernetesResourceDefinition}

theorem CallEvents.pass {c : ClientCall} {result : Except Exception Value} {events : List Event}
    (call : CallEvents c result events) {check : Event → Bool} (called : check (.called c) = false)
    (requested : ∀ request answer, check (.requested c request answer) = false)
    (returned : check (.returned c result) = false) : ∀ e ∈ events, check e = false := by
  intro e member
  by_cases sent : ∃ request answer, e = .requested c request answer
  · obtain ⟨request, answer, rfl⟩ := sent
    exact requested request answer
  · push Not at sent
    rcases (call.mem_iff sent).mp member with rfl | rfl
    · exact called
    · exact returned

theorem CallEvents.undeleted {c : ClientCall} {result : Except Exception Value} {events : List Event}
    (call : CallEvents c result events) (quiet : (Event.returned c result).deleted = false) :
    ∀ e ∈ events, e.deleted = false := call.pass rfl (fun _ _ => rfl) quiet

theorem CallEvents.released {c : ClientCall} {result : Except Exception Value} {events : List Event}
    (call : CallEvents c result events) (quiet : (Event.returned c result).unreleased = false) :
    ∀ e ∈ events, e.unreleased = false := call.pass rfl (fun _ _ => rfl) quiet

theorem CallEvents.returned_mem {c : ClientCall} {result : Except Exception Value} {events : List Event}
    (call : CallEvents c result events) : .returned c result ∈ events := (call.mem_iff (by simp)).mpr (.inr rfl)

theorem EditedRun.passing {c : ClientCall} {s : State} {ran : Except Exception Value × State}
    (run : EditedRun c s ran) (asked : ∀ result, (Event.returned c result).deleted = false) :
    Passing (·.deleted = false) s ran.2 := by
  cases run with
  | malformed e failed => exact Std.Refl.refl s
  | called result options events readable call =>
    exact ⟨⟨rfl, rfl⟩, _, rfl, List.forall_mem_cons.mpr ⟨rfl, call.undeleted (asked result)⟩⟩

theorem doResourceUpdate_passing : Within (Passing (·.deleted = false)) (doResourceUpdate kube mapping definition) :=
  fun s => (doResourceUpdate_run kube mapping definition s).passing fun _ => rfl

theorem doResourceDelete_failed {resourceId : Value} {s s' : State} {e : Exception}
    (ran : doResourceDelete kube node mapping definition resourceId s = (.error e, s')) :
    Passing (·.deleted = false) s s' := by
  have run := doResourceDelete_run kube node mapping definition resourceId s
  rw [ran] at run
  generalize raised : (Except.error e, s') = whole at run
  cases run with
  | malformed e' failed =>
    cases raised
    exact Std.Refl.refl _
  | unchecked readable checked e' options events check failed =>
    cases raised
    exact ⟨⟨rfl, rfl⟩, _, rfl, by simpa [Event.deleted] using check.undeleted rfl⟩
  | withheld readable checked found options events check answered expected =>
    obtain ⟨_, rfl⟩ := Prod.mk.inj raised
    exact ⟨⟨rfl, rfl⟩, _, rfl, by simpa [Event.deleted] using check.undeleted rfl⟩
  | deleted readable checked found options events check answered unexpected result events' delete =>
    obtain ⟨same, rfl⟩ := Prod.mk.inj raised
    have quiet : (Event.returned ⟨.delete resourceId, mapping, definition⟩ result).deleted = false := by
      cases result with
      | error e' => rfl
      | ok response =>
        have same : .error e = jsonCleanuper response := same
        simp [Event.deleted, ← same, Except.isOk, Except.toBool]
    refine ⟨⟨rfl, rfl⟩, _, rfl, ?_⟩
    intro x member
    rcases List.mem_cons.mp member with rfl | member
    · rfl
    rcases List.mem_cons.mp member with rfl | member
    · rfl
    rcases List.mem_append.mp member with member | member
    · exact check.undeleted rfl x member
    · exact delete.undeleted quiet x member

theorem doResourceDelete_returned {resourceId response : Value} {s s' : State}
    (ran : doResourceDelete kube node mapping definition resourceId s = (.ok response, s')) :
    Untouched s s' ∧ (∃ annotations, customAnnotations definition = .ok annotations) ∧
      ∃ events, s'.log = s.log ++ events ∧ (∀ e ∈ events, e.unreleased = false) ∧
        (node.useExternalResource = false → ∃ e ∈ events, e.deleted = true) := by
  have run := doResourceDelete_run kube node mapping definition resourceId s
  rw [ran] at run
  generalize returned : (Except.ok response, s') = whole at run
  cases run with
  | malformed e failed => cases returned
  | unchecked readable checked e options events check failed => cases returned
  | withheld readable checked found options events check answered expected =>
    obtain ⟨_, rfl⟩ := Prod.mk.inj returned
    refine ⟨⟨rfl, rfl⟩, readable, _, rfl, by simpa [Event.unreleased] using check.released rfl, fun owned => ?_⟩
    rw [owned, Bool.and_false] at expected
    cases expected
  | deleted readable checked found options events check answered unexpected result events' delete =>
    obtain ⟨same, rfl⟩ := Prod.mk.inj returned
    refine ⟨⟨rfl, rfl⟩, readable, _, rfl, ?_,
      fun _ => ⟨.returned ⟨.delete resourceId, mapping, definition⟩ result, ?_, ?_⟩⟩
    · intro x member
      rcases List.mem_cons.mp member with rfl | member
      · rfl
      rcases List.mem_cons.mp member with rfl | member
      · rfl
      rcases List.mem_append.mp member with member | member
      · exact check.released rfl x member
      · exact delete.released rfl x member
    · exact List.mem_cons_of_mem _ (List.mem_cons_of_mem _ (List.mem_append_right _ delete.returned_mem))
    · cases result with
      | error e => cases same
      | ok raw =>
        have same : .ok response = jsonCleanuper raw := same
        simp [Event.deleted, ← same, Except.isOk, Except.toBool]

theorem preparePvcDelete_failed {v : Value} (made : MadeOf v definition)
    (readable : ∃ annotations, customAnnotations definition = .ok annotations) {s s' : State} {e : Exception}
    (ran : preparePvcDelete kube mapping definition s = (.error e, s')) :
    ∃ events, s'.log = s.log ++ events ∧ ∃ x ∈ events, x.unreleased = true := by
  obtain ⟨kind, version, fields, same, given, _⟩ := made.parts
  have metadata : definition.metadata = .dict fields := by rw [same]; rfl
  have versioned : definition.apiVersion.isNone = false := by rw [same]; exact given
  rw [preparePvcDelete_versioned metadata versioned] at ran
  obtain ⟨failed, rfl⟩ := Prod.mk.inj ran
  have run := doResourceUpdate_run kube mapping (definition.released fields) s
  generalize doResourceUpdate kube mapping (definition.released fields) s = whole at run failed ⊢
  cases run with
  | malformed e' unread =>
    rw [show customAnnotations (definition.released fields) = _ from customAnnotations_released metadata] at unread
    obtain ⟨annotations, read⟩ := readable
    cases read.symm.trans unread
  | called result options events _ call =>
    refine ⟨_, rfl, .returned ⟨.update, mapping, definition.released fields⟩ result, ?_, ?_⟩
    · exact List.mem_cons_of_mem _ call.returned_mem
    · have failed : forgiven (result >>= jsonCleanuper) = .error e := failed
      simp [Event.unreleased, failed, Except.isOk, Except.toBool]

/-- An update that fails does not let the release return, unless it is an exception of the API. -/
theorem preparePvcDelete_returned {s s' : State} (ran : preparePvcDelete kube mapping definition s = (.ok (), s')) :
    ∃ events, s'.log = s.log ++ events ∧ ∀ x ∈ events, x.unreleased = false := by
  obtain ⟨metadata, _, ran⟩ := bind_ofExcept_ok_inv ran
  obtain ⟨released, _, ran⟩ := bind_ofExcept_ok_inv ran
  obtain ⟨result, middle, tried, ran⟩ := bind_ok_inv ran
  rw [attempt_run] at tried
  obtain ⟨same, rfl⟩ := Prod.mk.inj tried
  obtain rfl := Except.ok.inj same
  have run := doResourceUpdate_run kube mapping released s
  generalize doResourceUpdate kube mapping released s = whole at run ran
  have forgives : (forgiven whole.1).isOk = true ∧ s' = whole.2 := by
    obtain ⟨e | value, last⟩ := whole
    · dsimp only at ran
      split at ran
      · rename_i operation
        cases ran
        simp [forgiven, operation, Except.isOk, Except.toBool]
      · cases ran
    · cases ran
      exact ⟨rfl, rfl⟩
  obtain ⟨forgives, rfl⟩ := forgives
  cases run with
  | malformed e failed => exact ⟨[], (List.append_nil _).symm, by simp⟩
  | called result options events readable call =>
    refine ⟨_, rfl, List.forall_mem_cons.mpr ⟨rfl, call.released ?_⟩⟩
    simpa [Event.unreleased] using forgives

/-- How the deletion of one resource ends: it fails with the stores as they were, it is not asked
    for as the resource is external, or it is answered and the records are put back. -/
inductive DeletionEnds (node : Node) (path : String) (definition : KubernetesResourceDefinition)
    (adjacent : List (String × Value)) (s : State) : Except Exception (Option Exception) × State → Prop
  | failed (e : Exception) (s' : State) (kept : Untouched s s') (events : List Event)
      (grown : s'.log = s.log ++ events)
      (cause : (∃ v, MadeOf v definition) →
        (∀ x ∈ events, x.deleted = false) ∨ ∃ x ∈ events, x.unreleased = true) :
      DeletionEnds node path definition adjacent s (.error e, s')
  | external (s' : State) (kept : Untouched s s') (events : List Event) (grown : s'.log = s.log ++ events)
      (external : node.useExternalResource = true) : DeletionEnds node path definition adjacent s (.ok none, s')
  | retried (text : String) (s' : State) (events : List Event) (grown : s'.log = s.log ++ events)
      (deleted : ∃ x ∈ events, x.deleted = true) (released : ∀ x ∈ events, x.unreleased = false)
      (files : recordedFiles s'.runtime =
        putBack adjacent (recordFile path definition.cleanup (recordedFiles s.runtime)))
      (restocks : definition.Storable → Restocks s s') :
      DeletionEnds node path definition adjacent s (.ok (some ⟨.operationRetry, text⟩), s')

theorem restore_ends {adjacent : List (String × Value)}
    (results : ∀ e ∈ adjacent, e.1 ≠ "" ∧ ∃ kind version fields, IsResult e.2 kind version fields)
    (known : adjacent = [] ∨ ∃ v, MadeOf v definition) {s middle : State} {front : List Event}
    (plain : ∀ v ∈ storedDefinitions s.runtime, v.IsPlain) (kept : Untouched s middle)
    (grown : middle.log = s.log ++ front) (deleted : ∃ x ∈ front, x.deleted = true)
    (released : ∀ x ∈ front, x.unreleased = false) (text : String) :
    DeletionEnds node path definition adjacent s ((do
      storeResultForRetrieveId definition.cleanup path
      storeAdjacent adjacent
      return some ⟨.operationRetry, text⟩ : Task (Option Exception)) middle) := by
  have here : ∀ v ∈ storedDefinitions middle.runtime, v.IsPlain := kept.definitions ▸ plain
  have unstocked : Restocks s middle := fun v member => .inl (kept.definitions ▸ member)
  by_cases storable : definition.Storable
  · obtain ⟨_, _, _, is⟩ := storable
    obtain ⟨next, first, files, restocks, log⟩ := storeResultForRetrieveId_put is path here
    obtain ⟨last, others, files', restocks', log'⟩ := storeAdjacent_put results (restocks.plain here)
    rw [bind_run_ok first, bind_run_ok others]
    refine .retried text last front ?_ deleted released ?_ fun _ =>
      IsTrans.trans _ _ _ unstocked (IsTrans.trans _ _ _ restocks restocks')
    · rw [log', log, grown]
    · rw [files', files, kept.files]
  · obtain rfl : adjacent = [] := known.resolve_right fun made => storable made.choose_spec.cleanup.1
    rcases storeResultForRetrieveId_cases definition.cleanup path middle with ⟨e, failed⟩ | ⟨_, updated, _, _, stored⟩
    · rw [bind_run_error failed]
      exact .failed e middle kept front grown fun made => absurd made.choose_spec.cleanup.1 storable
    · rw [bind_run_ok stored]
      refine .retried text _ front grown deleted released ?_ fun storable' => absurd storable' storable
      change recordedFiles (recordResult _ _ _) = _
      rw [recordedFiles_recordResult]
      change recordFile path definition.cleanup (recordedFiles middle.runtime) = _
      rw [kept.files]
      rfl

theorem afterDeletion_ends {adjacent : List (String × Value)}
    (results : ∀ e ∈ adjacent, e.1 ≠ "" ∧ ∃ kind version fields, IsResult e.2 kind version fields)
    (known : adjacent = [] ∨ ∃ v, MadeOf v definition) {s middle : State} {front : List Event}
    (plain : ∀ v ∈ storedDefinitions s.runtime, v.IsPlain) (kept : Untouched s middle)
    (readable : ∃ annotations, customAnnotations definition = .ok annotations)
    (grown : middle.log = s.log ++ front)
    (deleted : node.useExternalResource = false → ∃ x ∈ front, x.deleted = true)
    (released : ∀ x ∈ front, x.unreleased = false) (response : Value) :
    DeletionEnds node path definition adjacent s
      (afterDeletion kube node path mapping definition adjacent response middle) := by
  have next {middle : State} {front : List Event} (kept : Untouched s middle) (grown : middle.log = s.log ++ front)
      (deleted : node.useExternalResource = false → ∃ x ∈ front, x.deleted = true)
      (released : ∀ x ∈ front, x.unreleased = false) :
      DeletionEnds node path definition adjacent s ((if !node.useExternalResource then do
          storeResultForRetrieveId definition.cleanup path
          storeAdjacent adjacent
          return some ⟨.operationRetry, "Delete response: " ++ response.toText⟩
        else return none : Task (Option Exception)) middle) := by
    cases external : node.useExternalResource with
    | true => exact .external middle kept front grown external
    | false => exact restore_ends results known plain kept grown (deleted external) released _
  have marked : Untouched s { middle with
      runtime := { middle.runtime with performTask := some !(true && node.useExternalResource) } } :=
    ⟨kept.kubernetes, kept.resourceDefinitions⟩
  rw [afterDeletion, bind_run_ok (handleDeleteResource_run _ _ _), bind_run_ok (getPerformTask_run _)]
  simp only [Option.getD_some, Bool.true_and]
  split
  · rw [bind_run]
    generalize release : preparePvcDelete kube mapping definition _ = ran
    obtain ⟨kept', events, grown', _⟩ : Passing (·.deleted = false) _ ran.2 :=
      release ▸ preparePvcDelete_within (fun _ => doResourceUpdate_passing) _
    have whole : ran.2.log = s.log ++ (front ++ events) := by
      rw [grown', ← List.append_assoc, ← grown]
    obtain ⟨e | _, last⟩ := ran
    · refine .failed e last (IsTrans.trans _ _ _ marked kept') _ whole fun made => .inr ?_
      obtain ⟨v, made⟩ := made
      obtain ⟨events', same, x, member, unreleased⟩ := preparePvcDelete_failed made readable release
      have same : events = events' := List.append_cancel_left (grown'.symm.trans same)
      exact ⟨x, List.mem_append_right _ (same ▸ member), unreleased⟩
    · obtain ⟨events', same, quiet⟩ := preparePvcDelete_returned release
      obtain rfl : events = events' := List.append_cancel_left (grown'.symm.trans same)
      refine next (IsTrans.trans _ _ _ marked kept') whole (fun owned => ?_) fun x member => ?_
      · obtain ⟨x, member, told⟩ := deleted owned
        exact ⟨x, List.mem_append_left _ member, told⟩
      · rcases List.mem_append.mp member with member | member
        · exact released x member
        · exact quiet x member
  · exact next marked grown deleted released

theorem deleteWhileAdjacentResources_ends {adjacent : List (String × Value)}
    (results : ∀ e ∈ adjacent, e.1 ≠ "" ∧ ∃ kind version fields, IsResult e.2 kind version fields)
    (known : adjacent = [] ∨ ∃ v, MadeOf v definition) {s : State}
    (plain : ∀ v ∈ storedDefinitions s.runtime, v.IsPlain) :
    DeletionEnds node path definition adjacent s
      (deleteWhileAdjacentResources kube node path mapping definition adjacent s) := by
  rw [deleteWhileAdjacentResources, bind_run, ofExcept_run]
  cases definition.metadata.index "name" with
  | error e => exact .failed e s (Std.Refl.refl s) [] (List.append_nil _).symm fun _ => .inl (by simp)
  | ok name =>
    dsimp only
    rw [bind_run_ok (attempt_run _ _)]
    generalize deletion : doResourceDelete kube node mapping definition name s = ran
    obtain ⟨e | response, middle⟩ := ran
    · obtain ⟨kept, events, grown, quiet⟩ := doResourceDelete_failed deletion
      dsimp only
      split
      · exact .failed _ middle kept events grown fun _ => .inl quiet
      · exact .failed _ middle kept events grown fun _ => .inl quiet
    · obtain ⟨kept, readable, events, grown, released, answered⟩ := doResourceDelete_returned deletion
      exact afterDeletion_ends results known plain kept readable grown answered released response

end

end CloudifyKubernetes
