import CloudifyKubernetes.K8s.Client

namespace CloudifyKubernetes

open Collections Effects

@[simp] theorem record_run (e : Event) (s : State) :
    record e s = (.ok (), { s with log := s.log ++ [e] }) := rfl

@[simp] theorem getOptions_run (s : State) : getOptions s = (.ok s.options, s) := rfl

@[simp] theorem modifyOptions_run (f : Dict → Dict) (s : State) :
    modifyOptions f s = (.ok (), { s with options := f s.options }) := rfl

@[simp] theorem getRuntime_run (s : State) : getRuntime s = (.ok s.runtime, s) := rfl

@[simp] theorem modifyRuntime_run (f : RuntimeProperties → RuntimeProperties) (s : State) :
    modifyRuntime f s = (.ok (), { s with runtime := f s.runtime }) := rfl

def clientCall (kube : Kubernetes) (c : ClientCall) : Task Value :=
  match c.verb with
  | .create => createResource kube c.mapping c.definition
  | .read site => readResource kube site c.mapping c.definition
  | .update => updateResource kube c.mapping c.definition
  | .delete resourceId => deleteResource kube c.mapping c.definition resourceId

def ClientCall.operation (c : ClientCall) : KubernetesSingleOperationApiMapping :=
  match c.verb with
  | .create => c.mapping.create
  | .read _ => c.mapping.read
  | .update => c.mapping.update
  | .delete _ => c.mapping.delete

theorem dropFalsy_idem (options : Dict) : dropFalsy (dropFalsy options) = dropFalsy options := by
  apply OrderedDict.ext
  simp [dropFalsy, OrderedDict.filter]

theorem get?_dropFalsy (options : Dict) (key : String) :
    (dropFalsy options).get? key = (options.get? key).filter Value.truthy :=
  options.get?_filter _ key

/-- The event is a request for the call: its method is the one of the mapping, of the API
    class of the mapping or of an alternate, and its arguments come from the given options. -/
def Issued (kube : Kubernetes) (c : ClientCall) (own : Dict) (e : Event) : Prop :=
  ∃ m ∈ c.operation :: c.operation.alternates kube, ∃ names arguments answer,
    prepareOperation kube m = .ok names ∧
    prepareArguments names c.verb.acceptedArguments (dropFalsy own) = .ok arguments ∧
    e = .requested c ⟨m.api, m.method, arguments⟩ answer

theorem Issued.of_dropFalsy_eq {kube : Kubernetes} {c : ClientCall} {own other : Dict} {e : Event}
    (issued : Issued kube c own e) (same : dropFalsy own = dropFalsy other) :
    Issued kube c other e := by
  obtain ⟨m, member, names, arguments, answer, operation, prepared, rfl⟩ := issued
  exact ⟨m, member, names, arguments, answer, operation, same ▸ prepared, rfl⟩

/-- Where the result of a call comes from: an operation or arguments that cannot be prepared,
    or the answer to one of the requests. -/
def Explained (kube : Kubernetes) (c : ClientCall) (own : Dict) (sent : List Event)
    (result : Except Exception Value) : Prop :=
  (∃ m e, prepareOperation kube m = .error e ∧ result = .error e) ∨
  (∃ names e, prepareArguments names c.verb.acceptedArguments (dropFalsy own) = .error e ∧
    result = .error (executionError e)) ∨
  ∃ request answer, .requested c request answer ∈ sent ∧
    result = answer.mapError fun failure => executionError failure.raised

theorem Explained.mono {kube : Kubernetes} {c : ClientCall} {own other : Dict} {sent more : List Event}
    {result : Except Exception Value} (explained : Explained kube c own sent result)
    (same : dropFalsy own = dropFalsy other) (kept : ∀ e ∈ sent, e ∈ more) :
    Explained kube c other more result := by
  rcases explained with operation | ⟨names, e, prepared, failed⟩ | ⟨request, answer, member, answered⟩
  · exact .inl operation
  · exact .inr (.inl ⟨names, e, same ▸ prepared, failed⟩)
  · exact .inr (.inr ⟨request, answer, kept _ member, answered⟩)

/-- Requests for the call are sent, one of them or the preparation explains the result, and
    falsy options may be dropped. -/
def Executed (kube : Kubernetes) (c : ClientCall) (s : State)
    (run : Except Exception Value × State) : Prop :=
  run.2.runtime = s.runtime ∧
    (run.2.options = s.options ∨ run.2.options = dropFalsy s.options) ∧
    ∃ sent, run.2.log = s.log ++ sent ∧ (∀ e ∈ sent, Issued kube c s.options e) ∧
      Explained kube c s.options sent run.1

namespace Executed

variable {kube : Kubernetes} {c : ClientCall} {s s' s'' : State} {first second : Except Exception Value}

theorem dropFalsy_options (executed : Executed kube c s (first, s')) :
    dropFalsy s'.options = dropFalsy s.options := by
  rcases executed.2.1 with same | dropped
  · exact congrArg dropFalsy same
  · exact (congrArg dropFalsy dropped).trans (dropFalsy_idem _)

theorem both (executed : Executed kube c s (first, s')) (again : Executed kube c s' (second, s'')) :
    Executed kube c s (first, s'') ∧ Executed kube c s (second, s'') := by
  have same := executed.dropFalsy_options
  obtain ⟨runtime, options, sent, log, issued, explained⟩ := executed
  obtain ⟨runtime', options', sent', log', issued', explained'⟩ := again
  have runtime'' : s''.runtime = s.runtime := Eq.trans runtime' runtime
  have options'' : s''.options = s.options ∨ s''.options = dropFalsy s.options := by
    rcases options' with unchanged | dropped
    · exact unchanged ▸ options
    · exact .inr (Eq.trans dropped same)
  have log'' : s''.log = s.log ++ (sent ++ sent') := by
    rw [← List.append_assoc, ← show s'.log = s.log ++ sent from log]
    exact log'
  have issued'' : ∀ e ∈ sent ++ sent', Issued kube c s.options e := by
    intro e member
    rcases List.mem_append.mp member with member | member
    · exact issued e member
    · exact (issued' e member).of_dropFalsy_eq same
  exact ⟨⟨runtime'', options'', _, log'', issued'', explained.mono rfl fun _ => List.mem_append_left _⟩,
    ⟨runtime'', options'', _, log'', issued'', explained'.mono same fun _ => List.mem_append_right _⟩⟩

end Executed

section Client

variable (kube : Kubernetes) (c : ClientCall)

theorem send_run (request : Request) (s : State) :
    send kube c request s =
      ((kube.respond s.requests request).mapError Failure.raised,
        { s with log := s.log ++ [.requested c request (kube.respond s.requests request)] }) := by
  simp only [send, Program.bind_run, Program.get_run, record_run]
  cases kube.respond s.requests request <;> rfl

theorem execute_cases (m : KubernetesSingleOperationApiMapping) (s : State) :
    (∃ e, prepareOperation kube m = .error e ∧ execute kube c m s = (.error e, s)) ∨
    (∃ names e, prepareOperation kube m = .ok names ∧
      prepareArguments names c.verb.acceptedArguments (dropFalsy s.options) = .error e ∧
      execute kube c m s =
        (.error (executionError e), { s with options := dropFalsy s.options })) ∨
    ∃ names arguments answer, prepareOperation kube m = .ok names ∧
      prepareArguments names c.verb.acceptedArguments (dropFalsy s.options) = .ok arguments ∧
      answer = kube.respond s.requests ⟨m.api, m.method, arguments⟩ ∧
      execute kube c m s =
        (answer.mapError fun failure => executionError failure.raised,
          { s with
            options := dropFalsy s.options
            log := s.log ++ [.requested c ⟨m.api, m.method, arguments⟩ answer] }) := by
  simp only [execute, Program.bind_run, Program.ofExcept_run, modifyOptions_run,
    Program.attempt_run, executeOperation, getOptions_run]
  cases operation : prepareOperation kube m with
  | error e => exact .inl ⟨e, rfl, rfl⟩
  | ok names =>
    cases prepared : prepareArguments names c.verb.acceptedArguments (dropFalsy s.options) with
    | error e => exact .inr (.inl ⟨names, e, rfl, prepared, by simp [prepared]⟩)
    | ok arguments =>
      refine .inr (.inr ⟨names, arguments, _, rfl, prepared, rfl, ?_⟩)
      simp only [prepared, send_run]
      generalize answered : kube.respond s.requests ⟨m.api, m.method, arguments⟩ = answer
      have same : State.requests { s with options := dropFalsy s.options } = s.requests := rfl
      rw [same, answered]
      cases answer <;> rfl

theorem execute_executed (m : KubernetesSingleOperationApiMapping)
    (member : m ∈ c.operation :: c.operation.alternates kube) (s : State) :
    Executed kube c s (execute kube c m s) := by
  rcases execute_cases kube c m s with ⟨e, operation, run⟩ | ⟨names, e, operation, prepared, run⟩ |
    ⟨names, arguments, answer, operation, prepared, _, run⟩ <;> rw [run]
  · exact ⟨rfl, .inl rfl, [], by simp, by simp, .inl ⟨m, e, operation, rfl⟩⟩
  · exact ⟨rfl, .inr rfl, [], by simp, by simp, .inr (.inl ⟨names, e, prepared, rfl⟩)⟩
  · refine ⟨rfl, .inr rfl, [_], rfl, ?_, .inr (.inr ⟨_, answer, List.mem_singleton_self _, rfl⟩)⟩
    intro e last
    exact ⟨m, member, names, arguments, answer, operation, prepared, List.mem_singleton.mp last⟩

theorem executeAlternates_executed {s s' : State} {primary : Exception}
    (failed : Executed kube c s (.error primary, s')) (alternates : List KubernetesSingleOperationApiMapping)
    (members : ∀ m ∈ alternates, m ∈ c.operation.alternates kube) :
    Executed kube c s (executeAlternates kube c primary alternates s') := by
  induction alternates generalizing s' with
  | nil => exact failed
  | cons alternate rest ih =>
    have executed := execute_executed kube c alternate
      (List.mem_cons_of_mem _ (members _ List.mem_cons_self)) s'
    simp only [executeAlternates, Program.bind_run, Program.attempt_run]
    generalize execute kube c alternate s' = run at executed ⊢
    obtain ⟨value | e, s''⟩ := run
    · have rest' := fun m member => members m (List.mem_cons_of_mem _ member)
      have both := failed.both executed
      simp only
      split
      · exact ih both.1 rest'
      · exact both.2
    · exact (failed.both executed).2

theorem executeWithAlternates_executed (s : State) :
    Executed kube c s (executeWithAlternates kube c c.operation s) := by
  have executed := execute_executed kube c c.operation List.mem_cons_self s
  simp only [executeWithAlternates, Program.bind_run, Program.attempt_run]
  generalize execute kube c c.operation s = run at executed ⊢
  obtain ⟨e | value, s'⟩ := run
  · simp only
    split
    · exact executeAlternates_executed kube c executed _ fun _ member => member
    · exact executed
  · exact executed

/-- The shared options after an execution: they lose their falsy entries once the operation
    is prepared. -/
def executedOptions (m : KubernetesSingleOperationApiMapping) (options : Dict) : Dict :=
  match prepareOperation kube m with
  | .ok _ => dropFalsy options
  | .error _ => options

theorem execute_options (m : KubernetesSingleOperationApiMapping) (s : State) :
    (execute kube c m s).2.options = executedOptions kube m s.options := by
  rcases execute_cases kube c m s with ⟨e, operation, run⟩ | ⟨names, e, operation, _, run⟩ |
    ⟨names, arguments, answer, operation, _, _, run⟩ <;> rw [run, executedOptions, operation]

theorem executedOptions_of_dropped (m : KubernetesSingleOperationApiMapping) {options : Dict}
    (dropped : dropFalsy options = options) : executedOptions kube m options = options := by
  unfold executedOptions
  split
  · exact dropped
  · rfl

theorem executeAlternates_options (primary : Exception)
    (alternates : List KubernetesSingleOperationApiMapping) {s : State}
    (dropped : dropFalsy s.options = s.options) :
    (executeAlternates kube c primary alternates s).2.options = s.options := by
  induction alternates generalizing s with
  | nil => rfl
  | cons alternate rest ih =>
    have same := execute_options kube c alternate s
    rw [executedOptions_of_dropped kube alternate dropped] at same
    simp only [executeAlternates, Program.bind_run, Program.attempt_run]
    generalize execute kube c alternate s = run at same ⊢
    obtain ⟨e | value, s'⟩ := run
    · simp only at same ⊢
      split
      · exact (ih (same.symm ▸ dropped)).trans same
      · exact same
    · exact same

theorem prepareOperation_error {m : KubernetesSingleOperationApiMapping} {e : Exception}
    (failed : prepareOperation kube m = .error e) : e.isA .apiOperationError = false := by
  unfold prepareOperation at failed
  split at failed
  · cases failed; rfl
  · split at failed <;> cases failed
    rfl

theorem executeWithAlternates_options (m : KubernetesSingleOperationApiMapping) (s : State) :
    (executeWithAlternates kube c m s).2.options = executedOptions kube m s.options := by
  simp only [executeWithAlternates, Program.bind_run, Program.attempt_run]
  have first := execute_options kube c m s
  rcases execute_cases kube c m s with ⟨e, operation, run⟩ | ⟨names, e, operation, _, run⟩ |
    ⟨names, arguments, answer, operation, _, _, run⟩
  · have other := prepareOperation_error kube operation
    rw [run] at first ⊢
    simpa [Exception.isVersionMismatch, other] using first
  all_goals
    have dropped : dropFalsy (execute kube c m s).2.options = (execute kube c m s).2.options := by
      rw [first, executedOptions, operation, dropFalsy_idem]
    generalize execute kube c m s = result at first dropped ⊢
    obtain ⟨e | value, s'⟩ := result
    · simp only at first dropped ⊢
      split
      · exact (executeAlternates_options kube c _ _ dropped).trans first
      · exact first
    · exact first

def matched (definition : KubernetesResourceDefinition) (options : Dict) :
    Dict × Except Exception Dict :=
  match definition.metadata.get "namespace" .none with
  | .error e => (options, .error e)
  | .ok fromDefinition =>
    (matchedNamespace fromDefinition options, .ok (matchedNamespace fromDefinition options))

def ClientCall.detached (c : ClientCall) : Bool :=
  match c.verb with
  | .delete _ => c.definition.kind ≠ "ReplicationController"
  | _ => false

/-- The shared options and the options to execute with, once a call has prepared both. -/
def prepared (options : Dict) : Dict × Except Exception Dict :=
  match c.verb with
  | .create =>
    match preparePayload kube c.mapping.create.payload c.definition with
    | .error e => (options, .error e)
    | .ok body => matched c.definition (options.set "body" body)
  | .read _ =>
    match c.definition.metadata.index "name" with
    | .error e => (options, .error e)
    | .ok name => matched c.definition (options.set "name" name)
  | .update =>
    match preparePayload kube c.mapping.create.payload c.definition with
    | .error e => (options, .error e)
    | .ok body =>
      match c.definition.metadata.index "name" with
      | .error e => (options.set "body" body, .error e)
      | .ok name => matched c.definition ((options.set "body" body).set "name" name)
  | .delete resourceId =>
    if c.definition.kind ≠ "ReplicationController" then
      let named := options.set "name" resourceId
      match prepareDeleteOptionsResource kube c.mapping.delete.payload named with
      | .error e => (named, .error e)
      | .ok payload =>
        let shared := named.set "body" payload
        match deletePayloadKeys payload with
        | .error e => (shared, .error e)
        | .ok taken => (shared, (matched c.definition (remainingOptions taken shared)).2)
    else matched c.definition options

def sharedOptions (options : Dict) : Dict :=
  match (prepared kube c options).2 with
  | .error _ => (prepared kube c options).1
  | .ok _ =>
    if c.detached then (prepared kube c options).1
    else executedOptions kube c.operation (prepared kube c options).1

structure CallRun (s : State) (run : Except Exception Value × State) : Prop where
  runtime : run.2.runtime = s.runtime
  options : run.2.options = sharedOptions kube c s.options
  log : ∃ sent, run.2.log = s.log ++ (.called c :: (sent ++ [.returned c run.1])) ∧
    match (prepared kube c s.options).2 with
    | .error e => sent = [] ∧ run.1 = .error e
    | .ok own => (∀ e ∈ sent, Issued kube c own e) ∧ Explained kube c own sent run.1

theorem sent_events {kube : Kubernetes} {c : ClientCall} {plan : Except Exception Dict}
    {sent : List Event} {result : Except Exception Value}
    (sends : match plan with
      | .error e => sent = [] ∧ result = .error e
      | .ok own => (∀ e ∈ sent, Issued kube c own e) ∧ Explained kube c own sent result) :
    ∀ e ∈ sent ++ [.returned c result],
      (∃ request answer, e = .requested c request answer) ∨ e = .returned c result := by
  intro e member
  rcases List.mem_append.mp member with member | last
  · split at sends
    · rw [sends.1] at member
      cases member
    · obtain ⟨m, _, names, arguments, answer, _, _, same⟩ := sends.1 e member
      exact .inl ⟨_, answer, same⟩
  · exact .inr (List.mem_singleton.mp last)

theorem traced_run (body : Task Value) (s : State) :
    traced c body s =
      ((body { s with log := s.log ++ [.called c] }).1,
        { (body { s with log := s.log ++ [.called c] }).2 with
          log := (body { s with log := s.log ++ [.called c] }).2.log ++
            [.returned c (body { s with log := s.log ++ [.called c] }).1] }) := by
  simp only [traced, Program.bind_run, record_run, Program.attempt_run, Program.ofExcept_run]

section Traced

variable {kube c} {body : Task Value} {s : State}

theorem traced_of_error (shared : Dict) (e : Exception)
    (plan : prepared kube c s.options = (shared, .error e))
    (run : body { s with log := s.log ++ [.called c] } =
      (.error e, { s with options := shared, log := s.log ++ [.called c] })) :
    CallRun kube c s (traced c body s) := by
  rw [traced_run, run]
  refine ⟨rfl, ?_, [], by simp, ?_⟩
  · rw [sharedOptions, plan]
  · rw [plan]
    exact ⟨rfl, rfl⟩

theorem traced_of_shared (own : Dict) (plan : prepared kube c s.options = (own, .ok own))
    (attached : c.detached = false)
    (run : body { s with log := s.log ++ [.called c] } =
      executeWithAlternates kube c c.operation { s with options := own, log := s.log ++ [.called c] }) :
    CallRun kube c s (traced c body s) := by
  have options := executeWithAlternates_options kube c c.operation
    { s with options := own, log := s.log ++ [.called c] }
  obtain ⟨runtime, _, sent, log, issued, explained⟩ := executeWithAlternates_executed kube c
    { s with options := own, log := s.log ++ [.called c] }
  rw [traced_run, run]
  refine ⟨runtime, ?_, sent, ?_, ?_⟩
  · rw [sharedOptions, plan]
    simpa [attached] using options
  · simp [log]
  · rw [plan]
    exact ⟨issued, explained⟩

theorem traced_of_detached (shared own : Dict) (plan : prepared kube c s.options = (shared, .ok own))
    (detached : c.detached = true)
    (run : body { s with log := s.log ++ [.called c] } =
      withOptions own (executeWithAlternates kube c c.operation)
        { s with options := shared, log := s.log ++ [.called c] }) :
    CallRun kube c s (traced c body s) := by
  obtain ⟨runtime, _, sent, log, issued, explained⟩ := executeWithAlternates_executed kube c
    { s with options := own, log := s.log ++ [.called c] }
  rw [traced_run, run]
  refine ⟨runtime, ?_, sent, ?_, ?_⟩
  · rw [sharedOptions, plan]
    simp [detached, withOptions]
  · simp only [withOptions]
    rw [log]
    simp
  · rw [plan]
    exact ⟨issued, explained⟩

end Traced

theorem matchNamespace_run (definition : KubernetesResourceDefinition) (s : State) :
    matchNamespace definition s =
      ((matched definition s.options).2.map fun _ => (),
        { s with options := (matched definition s.options).1 }) := by
  simp only [matchNamespace, Program.bind_run, Program.ofExcept_run, matched]
  cases definition.metadata.get "namespace" .none <;> rfl

theorem matched_fst {definition : KubernetesResourceDefinition} {options own : Dict}
    (accepted : (matched definition options).2 = .ok own) : (matched definition options).1 = own := by
  unfold matched at accepted ⊢
  split at accepted <;> cases accepted
  rfl

theorem traced_of_matched {body : Task Value} {s : State} (entered : Dict)
    (plan : prepared kube c s.options = matched c.definition entered) (attached : c.detached = false)
    (run : body { s with log := s.log ++ [.called c] } =
      (matchNamespace c.definition >>= fun _ => executeWithAlternates kube c c.operation)
        { s with options := entered, log := s.log ++ [.called c] }) :
    CallRun kube c s (traced c body s) := by
  rw [Program.bind_run, matchNamespace_run] at run
  cases result : (matched c.definition entered).2 with
  | error e =>
    apply traced_of_error (matched c.definition entered).1 e
    · rw [plan, ← result]
    · rw [run, result]
      rfl
  | ok own =>
    have same := matched_fst result
    apply traced_of_shared own _ attached
    · rw [run, result, same]
      rfl
    · rw [plan, ← result]
      exact Prod.ext same rfl

theorem clientCall_run (s : State) : CallRun kube c s (clientCall kube c s) := by
  obtain ⟨verb, mapping, definition⟩ := c
  cases verb with
  | create =>
    simp only [clientCall, createResource]
    cases payload : preparePayload kube mapping.create.payload definition with
    | error e =>
      refine traced_of_error s.options e ?_ rfl
      simp only [prepared, payload]
    | ok body =>
      refine traced_of_matched kube _ (s.options.set "body" body) ?_ rfl rfl
      simp only [prepared, payload]
  | read site =>
    simp only [clientCall, readResource]
    cases index : definition.metadata.index "name" with
    | error e =>
      refine traced_of_error s.options e ?_ rfl
      simp only [prepared, index]
    | ok name =>
      refine traced_of_matched kube _ (s.options.set "name" name) ?_ rfl rfl
      simp only [prepared, index]
  | update =>
    simp only [clientCall, updateResource]
    cases payload : preparePayload kube mapping.create.payload definition with
    | error e =>
      refine traced_of_error s.options e ?_ rfl
      simp only [prepared, payload]
    | ok body =>
      cases index : definition.metadata.index "name" with
      | error e =>
        refine traced_of_error (s.options.set "body" body) e ?_ rfl
        simp only [prepared, payload, index]
      | ok name =>
        refine traced_of_matched kube _ ((s.options.set "body" body).set "name" name) ?_ rfl rfl
        simp only [prepared, payload, index]
  | delete resourceId =>
    simp only [clientCall, deleteResource]
    by_cases collection : definition.kind = "ReplicationController"
    · refine traced_of_matched kube _ s.options ?_ ?_ ?_
      · simp [prepared, collection]
      · simp [ClientCall.detached, collection]
      · simp only [collection, ne_eq, not_true_eq_false, if_false]
        rfl
    · simp only [ne_eq, collection, not_false_eq_true, if_true]
      have detached : ClientCall.detached ⟨.delete resourceId, mapping, definition⟩ = true := by
        simp [ClientCall.detached, collection]
      cases options : prepareDeleteOptionsResource kube mapping.delete.payload
          (s.options.set "name" resourceId) with
      | error e =>
        refine traced_of_error (s.options.set "name" resourceId) e ?_ ?_
        · simp [prepared, collection, options]
        · simp [Program.bind_run, options]
      | ok payload =>
        cases keys : deletePayloadKeys payload with
        | error e =>
          refine traced_of_error
            ((s.options.set "name" resourceId).set "body" payload) e ?_ ?_
          · simp [prepared, collection, options, keys]
          · simp [Program.bind_run, options, keys]
        | ok taken =>
          have run := matchNamespace_run definition
            { s with
              options := remainingOptions taken ((s.options.set "name" resourceId).set "body" payload)
              log := s.log ++ [.called ⟨.delete resourceId, mapping, definition⟩] }
          cases result : (matched definition
              (remainingOptions taken ((s.options.set "name" resourceId).set "body" payload))).2 with
          | error e =>
            refine traced_of_error
              ((s.options.set "name" resourceId).set "body" payload) e ?_ ?_
            · simp [prepared, collection, options, keys, result]
            · rw [result] at run
              simp [Program.bind_run, options, keys, withOptions, run, Except.map]
          | ok own =>
            rw [result, matched_fst result] at run
            refine traced_of_detached
              ((s.options.set "name" resourceId).set "body" payload) own
              ?_ detached ?_
            · simp [prepared, collection, options, keys, result]
            · simp [Program.bind_run, options, keys, withOptions, run, Except.map,
                ClientCall.operation]

/-- A request in the log of a call was issued with the options that the call prepared. -/
theorem issued_of_requested {kube : Kubernetes} {c : ClientCall} {s : State} {request : Request} {answer : Answer}
    (requested : .requested c request answer ∈ (clientCall kube c s).2.log.drop s.log.length) :
    ∃ own, (prepared kube c s.options).2 = .ok own ∧ Issued kube c own (.requested c request answer) := by
  obtain ⟨sent, log, sends⟩ := (clientCall_run kube c s).log
  rw [log, List.drop_left] at requested
  have inside : .requested c request answer ∈ sent := by simpa using requested
  cases plan : (prepared kube c s.options).2 with
  | error e =>
    rw [plan] at sends
    rw [sends.1] at inside
    cases inside
  | ok own =>
    rw [plan] at sends
    exact ⟨own, rfl, sends.1 _ inside⟩

end Client

end CloudifyKubernetes
