import CloudifyKubernetes.K8s.OptionsFrame
import CloudifyKubernetes.K8s.Package

namespace CloudifyKubernetes

open Collections Effects Program

section

variable (kube : Kubernetes)

def runCalls (calls : List ClientCall) : Task Unit := do
  let _ ← Program.forEach calls fun c => (clientCall kube c).attempt

def ClientCall.executes (c : ClientCall) : Bool :=
  c.settles kube && (prepareOperation kube c.operation).isOk

theorem runCalls_options (calls : List ClientCall) (s : State) :
    (runCalls kube calls s).2.options =
      calls.foldl (fun options c => sharedOptions kube c options) s.options := by
  have each (calls : List ClientCall) (s : State) :
      (Program.forEach calls (fun c => (clientCall kube c).attempt) s).2.options =
        calls.foldl (fun options c => sharedOptions kube c options) s.options ∧
      ∃ results, (Program.forEach calls (fun c => (clientCall kube c).attempt) s).1 = .ok results := by
    induction calls generalizing s with
    | nil => exact ⟨rfl, [], rfl⟩
    | cons c rest ih =>
      obtain ⟨options, results, returned⟩ := ih (clientCall kube c s).2
      have run := (clientCall_run kube c s).options
      simp only [Program.forEach, bind_run, attempt_run, List.foldl_cons]
      generalize Program.forEach rest _ (clientCall kube c s).2 = result at options returned
      obtain ⟨outcome, s'⟩ := result
      cases returned
      rw [← run]
      exact ⟨options, _, rfl⟩
  obtain ⟨options, results, returned⟩ := each calls s
  simp only [runCalls, bind_run]
  generalize Program.forEach calls _ s = result at options returned
  obtain ⟨outcome, s'⟩ := result
  cases returned
  exact options

/-- An option that no call sets survives if it is truthy, or if no call executes. -/
theorem get?_calls {calls : List ClientCall} {options : Dict} {key : String} {value : Value}
    (other : key ≠ "name" ∧ key ≠ "body" ∧ key ≠ "namespace")
    (supplied : options.get? key = some value) :
    (calls.foldl (fun options c => sharedOptions kube c options) options).get? key =
      if value.truthy = true ∨ ∀ c ∈ calls, c.executes kube = false then some value else none := by
  have gone (calls : List ClientCall) {options : Dict} (absent : options.get? key = none) :
      (calls.foldl (fun options c => sharedOptions kube c options) options).get? key = none := by
    induction calls generalizing options with
    | nil => exact absent
    | cons c rest ih =>
      apply ih
      rw [get?_sharedOptions kube c options other]
      split
      · unfold executedOptions
        split
        · rw [get?_dropFalsy, absent, Option.filter_none]
        · exact absent
      · exact absent
  induction calls generalizing options with
  | nil => simp [supplied]
  | cons c rest ih =>
    rw [List.foldl_cons]
    have step := get?_sharedOptions kube c options other
    cases executes : c.executes kube with
    | false =>
      have kept : (sharedOptions kube c options).get? key = some value := by
        rw [step]
        split
        · rename_i settles
          have failed : (prepareOperation kube c.operation).isOk = false := by
            simpa [ClientCall.executes, settles] using executes
          rw [executedOptions]
          split
          · rename_i operation
            rw [operation] at failed
            cases failed
          · exact supplied
        · exact supplied
      rw [ih kept]
      simp [executes]
    | true =>
      rw [ClientCall.executes, Bool.and_eq_true] at executes
      have dropped : (sharedOptions kube c options).get? key = (some value).filter Value.truthy := by
        rw [step, if_pos executes.1, executedOptions]
        split
        · rw [get?_dropFalsy, supplied]
        · rename_i operation
          rw [operation] at executes
          cases executes.2
      cases truthy : value.truthy with
      | true =>
        rw [Option.filter_some, if_pos truthy] at dropped
        rw [ih dropped, if_pos (.inl truthy), if_pos (.inl rfl)]
      | false =>
        rw [Option.filter_some, if_neg (by simp [truthy])] at dropped
        have executes' : c.executes kube = true := by simp [ClientCall.executes, executes]
        rw [gone rest dropped]
        simp [executes']

def Request.takes (request : Request) (name : String) : Prop :=
  ∃ names, prepareOperation kube ⟨request.api, request.method, none⟩ = .ok names ∧ name ∈ names

end

theorem takes_iff {kube : Kubernetes} {m : KubernetesSingleOperationApiMapping} {names : List String}
    (operation : prepareOperation kube m = .ok names) (arguments : Dict) (name : String) :
    Request.takes kube ⟨m.api, m.method, arguments⟩ name ↔ name ∈ names := by
  constructor
  · rintro ⟨names', operation', member⟩
    cases operation.symm.trans operation'
    exact member
  · exact fun member => ⟨names, operation, member⟩

/-- A delete request carries a field in its body. Only a replication controller is deleted
    without one: there the field is an argument of its own. -/
def Request.carries (request : Request) (c : ClientCall) (field : String) (value : Value) : Prop :=
  if c.definition.kind = "ReplicationController" then request.arguments.get? field = some value
  else ∃ attributes, request.arguments.get? "body" = some (.object "V1DeleteOptions" attributes) ∧
    attributes.lookup ("_" ++ field) = some value

section

variable {kube : Kubernetes} {c : ClientCall}

theorem prepareArguments_eq {mandatory accepted : List String} {own arguments : Dict}
    (prepared : prepareArguments mandatory accepted (dropFalsy own) = .ok arguments) (key : String) :
    arguments.get? key =
      if key ∈ mandatory ++ accepted then (own.get? key).filter Value.truthy else none := by
  unfold prepareArguments at prepared
  split at prepared
  · cases prepared
  · cases prepared
    rw [get?_collected, get?_dropFalsy]
    cases (own.get? key).filter Value.truthy <;> simp

theorem mandatory_present {mandatory accepted : List String} {own arguments : Dict}
    (complete : prepareArguments mandatory accepted (dropFalsy own) = .ok arguments) {name : String}
    (member : name ∈ mandatory) : ∃ value, own.get? name = some value ∧ value.truthy = true := by
  unfold prepareArguments at complete
  split at complete
  · cases complete
  · rename_i found
    have present := List.find?_eq_none.mp found name member
    rw [OrderedDict.contains, get?_dropFalsy] at present
    cases held : (own.get? name).filter Value.truthy with
    | none =>
      rw [held] at present
      exact absurd rfl present
    | some value => exact ⟨value, Option.filter_eq_some_iff.mp held⟩

theorem get?_mandatory {mandatory accepted : List String} {own arguments : Dict}
    (complete : prepareArguments mandatory accepted (dropFalsy own) = .ok arguments) {name : String}
    (member : name ∈ mandatory) : arguments.get? name = own.get? name := by
  obtain ⟨value, held, truthy⟩ := mandatory_present complete member
  rw [prepareArguments_eq complete name, if_pos (List.mem_append_left _ member), held, Option.filter_some,
    if_pos truthy]

/-- Whether a delete can issue the request: it is for the method of the mapping or of an
    alternate, and the prepared options have all its mandatory arguments. -/
def Issuable (kube : Kubernetes) (c : ClientCall) (options : Dict) (request : Request) : Prop :=
  ∃ own answer, (prepared kube c options).2 = .ok own ∧ Issued kube c own (.requested c request answer)

theorem requested_issuable {kube : Kubernetes} {c : ClientCall} {s : State} {request : Request} {answer : Answer}
    (requested : .requested c request answer ∈ (clientCall kube c s).2.log.drop s.log.length) :
    Issuable kube c s.options request := by
  obtain ⟨own, plan, issued⟩ := issued_of_requested requested
  exact ⟨own, answer, plan, issued⟩

def deletePayload (options : Dict) : List (String × Value) :=
  Package.deleteOptionsFields.map fun field =>
    ("_" ++ field, ((options.items.filter fun e => e.1 ∈ Package.deleteOptionsFields).lookup
      field).getD .none)

theorem lookup_fields (options : Dict) {field : String} (known : field ∈ Package.deleteOptionsFields) :
    (options.items.filter fun e => e.1 ∈ Package.deleteOptionsFields).lookup field = options.get? field := by
  have kept : (options.filter fun key _ => key ∈ Package.deleteOptionsFields).get? field =
      options.get? field := by
    rw [OrderedDict.get?_filter]
    cases options.get? field <;> simp [known]
  exact kept

theorem lookup_deletePayload (options : Dict) {field : String}
    (known : field ∈ Package.deleteOptionsFields) :
    (deletePayload options).lookup ("_" ++ field) = some ((options.get? field).getD .none) := by
  rw [← lookup_fields options known]
  simp only [Package.deleteOptionsFields, List.mem_cons, List.not_mem_nil, or_false] at known
  rcases known with rfl | rfl | rfl | rfl | rfl | rfl | rfl <;> rfl

theorem construct_payload (options : Dict) :
    (Package.modelClass "V1DeleteOptions" Package.deleteOptionsFields).construct
        (options.items.filter fun e => e.1 ∈ Package.deleteOptionsFields) =
      .ok (.object "V1DeleteOptions" (deletePayload options)) := by
  have expected : (options.items.filter fun e => e.1 ∈ Package.deleteOptionsFields).find?
      (fun e => e.1 ∉ Package.deleteOptionsFields) = none := by
    rw [List.find?_eq_none]
    intro e member
    simpa using (List.mem_filter.mp member).2
  simp only [Package.modelClass, expected]
  rfl

theorem isEmpty_set (options : Dict) (key : String) (value : Value) :
    (options.set key value).isEmpty = false := by
  rw [Bool.eq_false_iff]
  intro empty
  have present := options.get?_set_self key value
  rw [(OrderedDict.isEmpty_iff _).mp empty] at present
  cases present

theorem deletePayloadKeys_payload (options : Dict) :
    deletePayloadKeys (.object "V1DeleteOptions" (deletePayload options)) =
      .ok Package.deleteOptionsFields := by
  have trimmed (field : String) : String.ofList (("_" ++ field).toList.drop 1) = field := by
    rw [String.toList_append]
    exact String.ofList_toList
  rw [deletePayloadKeys, if_pos rfl, deletePayload, List.map_map]
  exact congrArg Except.ok (List.map_id'' trimmed _)

/-- What a delete with a built body executes with: the fields have moved into the body. -/
theorem own_of_built {options own : Dict} {resourceId : Value} {mapping : KubernetesApiMapping}
    {definition : KubernetesResourceDefinition} (single : definition.kind ≠ "ReplicationController")
    (built : prepareDeleteOptionsResource kube mapping.delete.payload (options.set "name" resourceId) =
      .ok (.object "V1DeleteOptions" (deletePayload (options.set "name" resourceId))))
    (plan : (prepared kube ⟨.delete resourceId, mapping, definition⟩ options).2 = .ok own) :
    ∃ fromDefinition, own = matchedNamespace fromDefinition
      (remainingOptions Package.deleteOptionsFields ((options.set "name" resourceId).set "body"
        (.object "V1DeleteOptions" (deletePayload (options.set "name" resourceId))))) := by
  simp only [prepared, ne_eq, single, not_false_eq_true, if_true, built, deletePayloadKeys_payload] at plan
  obtain ⟨fromDefinition, _, same⟩ := matched_ok plan
  exact ⟨fromDefinition, same⟩

theorem prepared_body {options own : Dict} {resourceId : Value}
    (documented : kube.payloadClass "V1DeleteOptions" =
      some (Package.modelClass "V1DeleteOptions" Package.deleteOptionsFields))
    (deletes : c.verb = .delete resourceId) (single : c.definition.kind ≠ "ReplicationController")
    (payload : c.mapping.delete.payload = some "V1DeleteOptions")
    (plan : (prepared kube c options).2 = .ok own) :
    own.get? "body" =
      some (.object "V1DeleteOptions" (deletePayload (options.set "name" resourceId))) := by
  obtain ⟨verb, mapping, definition⟩ := c
  cases deletes
  dsimp only at single payload
  have built : prepareDeleteOptionsResource kube mapping.delete.payload (options.set "name" resourceId) =
      .ok (.object "V1DeleteOptions" (deletePayload (options.set "name" resourceId))) := by
    simp only [prepareDeleteOptionsResource, payload, documented, isEmpty_set, Bool.false_eq_true, if_false]
    exact construct_payload _
  obtain ⟨fromDefinition, rfl⟩ := own_of_built single built plan
  rw [get?_matchedNamespace_ne _ _ (by decide), remainingOptions, OrderedDict.get?_filter,
    OrderedDict.get?_set_self]
  rfl

theorem deleteOptionsFields_ne {field : String} (known : field ∈ Package.deleteOptionsFields) :
    field ≠ "name" ∧ field ≠ "body" ∧ field ≠ "namespace" := by
  simp only [Package.deleteOptionsFields, List.mem_cons, List.not_mem_nil, or_false] at known
  rcases known with rfl | rfl | rfl | rfl | rfl | rfl | rfl <;> decide

theorem isNone_iff {value : Value} : value.isNone = true ↔ value = .none := by
  cases value <;> simp [Value.isNone]

def Request.passes (kube : Kubernetes) (request : Request) (c : ClientCall) (field : String)
    (value : Value) : Prop :=
  if c.definition.kind = "ReplicationController" then
    value.truthy = true ∧ (request.takes kube field ∨ field ∈ c.verb.acceptedArguments)
  else request.takes kube "body"

/-- A field among the options reaches a delete request whose method passes it on. -/
theorem Issued.carries_iff {options own : Dict} {resourceId : Value} {request : Request}
    {answer : Answer} {field : String} {value : Value}
    (documented : kube.payloadClass "V1DeleteOptions" =
      some (Package.modelClass "V1DeleteOptions" Package.deleteOptionsFields))
    (deletes : c.verb = .delete resourceId)
    (payload : c.definition.kind ≠ "ReplicationController" →
      c.mapping.delete.payload = some "V1DeleteOptions")
    (plan : (prepared kube c options).2 = .ok own)
    (issued : Issued kube c own (.requested c request answer))
    (known : field ∈ Package.deleteOptionsFields) (given : value.isNone = false) :
    request.carries c field value ↔
      options.get? field = some value ∧ request.passes kube c field value := by
  obtain ⟨m, _, names, arguments, answer', operation, prepared, same⟩ := issued
  cases same
  obtain ⟨name, body, namesp⟩ := deleteOptionsFields_ne known
  have takes := takes_iff operation arguments
  rw [Request.carries, Request.passes]
  split
  · rename_i collection
    have attached : c.detached = false := by simp [ClientCall.detached, deletes, collection]
    have entry : own.get? field = options.get? field := by
      rcases prepared_attached kube c options attached with ⟨entered, e, same, _⟩ | ⟨entered, same, frame⟩
      · rw [same] at plan
        cases plan
      · rw [same] at plan
        obtain ⟨fromDefinition, _, rfl⟩ := matched_ok plan
        rw [get?_matchedNamespace_ne _ _ namesp, frame field name body]
    rw [prepareArguments_eq prepared, entry, takes]
    split
    · rename_i taken
      rw [Option.filter_eq_some_iff, ← List.mem_append]
      simp [taken]
    · rename_i untaken
      rw [List.mem_append] at untaken
      simp [untaken]
  · rename_i single
    have entry := prepared_body documented deletes single (payload single) plan
    have lookup := lookup_deletePayload (options.set "name" resourceId) known
    rw [OrderedDict.get?_set_ne _ _ name] at lookup
    have present : (options.get? field).getD .none = value ↔ options.get? field = some value := by
      cases options.get? field with
      | none =>
        refine ⟨fun same => ?_, fun same => by cases same⟩
        rw [isNone_iff.mpr same.symm] at given
        cases given
      | some value' => simp
    rw [prepareArguments_eq prepared, entry, takes, deletes]
    by_cases taken : "body" ∈ names
    · simp [taken, Value.truthy, lookup, present]
    · simp [taken, Verb.acceptedArguments]

/-- A delete option that the user gives is there when the delete is prepared and carried by
    each request that the delete can issue exactly when it is truthy or no call before has executed,
    and the method of the request passes it on. -/
theorem deleteOption_carried_iff {calls : List ClientCall} {resourceId : Value} {field : String}
    {value : Value} (s : State)
    (documented : kube.payloadClass "V1DeleteOptions" =
      some (Package.modelClass "V1DeleteOptions" Package.deleteOptionsFields))
    (deletes : c.verb = .delete resourceId)
    (payload : c.definition.kind ≠ "ReplicationController" →
      c.mapping.delete.payload = some "V1DeleteOptions")
    (known : field ∈ Package.deleteOptionsFields) (supplied : s.options.get? field = some value)
    (given : value.isNone = false) :
    let before := (runCalls kube calls s).2
    (before.options.get? field = some value ∧
        ∀ request, Issuable kube c before.options request → request.carries c field value) ↔
      (value.truthy = true ∨ ∀ c ∈ calls, c.executes kube = false) ∧
        ∀ request, Issuable kube c before.options request → request.passes kube c field value := by
  intro before
  have kept : before.options.get? field = some value ↔
      value.truthy = true ∨ ∀ c ∈ calls, c.executes kube = false := by
    rw [runCalls_options, get?_calls kube (deleteOptionsFields_ne known) supplied]
    split
    · rename_i survives
      exact ⟨fun _ => survives, fun _ => rfl⟩
    · rename_i lost
      exact ⟨nofun, fun survives => absurd survives lost⟩
  have carried : ∀ request, Issuable kube c before.options request →
      (request.carries c field value ↔
        before.options.get? field = some value ∧ request.passes kube c field value) := by
    rintro request ⟨own, answer, plan, issued⟩
    exact issued.carries_iff documented deletes payload plan known given
  rw [← kept]
  constructor
  · rintro ⟨present, all⟩
    exact ⟨present, fun request issuable => ((carried request issuable).mp (all request issuable)).2⟩
  · rintro ⟨present, passed⟩
    exact ⟨present, fun request issuable =>
      (carried request issuable).mpr ⟨present, passed request issuable⟩⟩

end

namespace Package

def readMap : ClientCall where
  verb := .read .beforeDelete
  mapping := .namespaced "CoreV1Api" "config_map" "V1ConfigMap"
  definition := configMap "first" none

def deleteMap : ClientCall := { readMap with verb := .delete (.str "first") }

def graceful (seconds : Int) : State :=
  { mainNamespace with
    options := mainNamespace.options.set "grace_period_seconds" (.int seconds) }

end Package

open Package

/-- A grace period of no seconds does not get past the read. -/
theorem no_grace_period_lost :
    ¬ ((runCalls everything [readMap] (graceful 0)).2.options.get? "grace_period_seconds" =
        some (.int 0) ∧
      ∀ request, Issuable everything deleteMap (runCalls everything [readMap] (graceful 0)).2.options request →
        request.carries deleteMap "grace_period_seconds" (.int 0)) := by
  rintro ⟨present, _⟩
  have lost : ((runCalls everything [readMap] (graceful 0)).2.options.get?
      "grace_period_seconds").isSome = false := by decide +kernel
  rw [present] at lost
  cases lost

theorem deleteOption_carried_iff_graceful :
    ((runCalls everything [readMap] (graceful 30)).2.options.get? "grace_period_seconds" =
        some (.int 30) ∧
      ∀ request, Issuable everything deleteMap (runCalls everything [readMap] (graceful 30)).2.options request →
        request.carries deleteMap "grace_period_seconds" (.int 30)) ↔
    ((Value.int 30).truthy = true ∨ ∀ c ∈ [readMap], c.executes everything = false) ∧
      ∀ request, Issuable everything deleteMap (runCalls everything [readMap] (graceful 30)).2.options request →
        request.passes everything deleteMap "grace_period_seconds" (.int 30) :=
  deleteOption_carried_iff (graceful 30) rfl rfl (fun _ => rfl) (by decide) rfl rfl

end CloudifyKubernetes
