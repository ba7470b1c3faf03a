import CloudifyKubernetes.Effects.Fallback
import CloudifyKubernetes.K8s.Calls

namespace CloudifyKubernetes

open Collections Effects

def Failure.text : Failure → String
  | .apiException e => e.toText
  | .other text => text

def saysVersionMismatch (text : String) : Bool :=
  Text.contains text versionMismatch && !Text.contains text namespaceMismatch

inductive CallOutcome
  | incomplete (e : Exception)
  | answered (request : Request) (answer : Answer)

namespace CallOutcome

def failureText : CallOutcome → Option String
  | incomplete e => some e.text
  | answered _ (.ok _) => none
  | answered _ (.error failure) => some failure.text

def isMismatch (o : CallOutcome) : Bool := o.failureText.any saysVersionMismatch

def succeeded (o : CallOutcome) : Bool := o.failureText.isNone

def requests : CallOutcome → List Request
  | incomplete _ => []
  | answered request _ => [request]

def events (call : ClientCall) : CallOutcome → List Event
  | incomplete _ => []
  | answered request answer => [.requested call request answer]

def result : CallOutcome → Except Exception Value
  | incomplete e => .error (executionError e)
  | answered _ answer => answer.mapError fun failure => executionError failure.raised

theorem requests_of_events (call : ClientCall) (o : CallOutcome) :
    (o.events call).filterMap Event.request? = o.requests := by
  cases o <;> rfl

end CallOutcome

section TextsOfErrors

theorem contains_of_prefixes {text part : String}
    (call : Text.apart "Exception during Kubernetes API call: " part = true)
    (operation : Text.apart "Operation execution failed. Exception during Kubernetes API call: " part = true) :
    Text.contains ("Exception during Kubernetes API call: " ++ text) part = Text.contains text part ∧
      Text.contains ("Operation execution failed. Exception during Kubernetes API call: " ++ text) part =
        Text.contains text part :=
  ⟨Text.contains_append call text, Text.contains_append operation text⟩

theorem contains_versionMismatch (text : String) :
    Text.contains ("Exception during Kubernetes API call: " ++ text) versionMismatch =
        Text.contains text versionMismatch ∧
      Text.contains ("Operation execution failed. Exception during Kubernetes API call: " ++ text) versionMismatch =
        Text.contains text versionMismatch := by
  apply contains_of_prefixes <;> decide +kernel

theorem contains_namespaceMismatch (text : String) :
    Text.contains ("Exception during Kubernetes API call: " ++ text) namespaceMismatch =
        Text.contains text namespaceMismatch ∧
      Text.contains ("Operation execution failed. Exception during Kubernetes API call: " ++ text) namespaceMismatch =
        Text.contains text namespaceMismatch := by
  apply contains_of_prefixes <;> decide +kernel

/-- The wrapping of an error neither hides nor adds what the loop over the alternates looks for. -/
theorem executionError_isVersionMismatch (e : Exception) :
    (executionError e).isVersionMismatch = saysVersionMismatch e.text := by
  by_cases other : Text.contains e.text namespaceMismatch = true
  · have raised : executionError e = ⟨.nonRecoverableError, e.text⟩ := if_pos other
    rw [raised, saysVersionMismatch, other]
    simp [Exception.isVersionMismatch, Exception.isA, ExceptionClass.isSubclass]
  · have raised : executionError e =
        ⟨.apiOperationError, "Exception during Kubernetes API call: " ++ e.text⟩ := if_neg other
    rw [Bool.not_eq_true] at other
    rw [raised, saysVersionMismatch, other, Exception.isVersionMismatch, (contains_versionMismatch e.text).1]
    simp [Exception.isA, ExceptionClass.isSubclass]

theorem saysVersionMismatch_raised (failure : Failure) :
    saysVersionMismatch failure.raised.text = saysVersionMismatch failure.text := by
  cases failure with
  | other text => rfl
  | apiException e =>
    show saysVersionMismatch ("Operation execution failed. Exception during Kubernetes API call: " ++ e.toText) =
      saysVersionMismatch e.toText
    rw [saysVersionMismatch, saysVersionMismatch, (contains_versionMismatch _).2, (contains_namespaceMismatch _).2]

theorem CallOutcome.passedOver_result (o : CallOutcome) :
    Program.passedOver Exception.isVersionMismatch o.result = o.isMismatch := by
  cases o with
  | incomplete e => exact executionError_isVersionMismatch e
  | answered request answer =>
    cases answer with
    | ok value => rfl
    | error failure =>
      exact (executionError_isVersionMismatch _).trans (saysVersionMismatch_raised failure)

end TextsOfErrors

structure Attempt where
  operation : KubernetesSingleOperationApiMapping
  outcome : CallOutcome

section Attempts

variable (kube : Kubernetes) (call : ClientCall)

def outcomeOf (options : Dict) (requests : List Request) (m : KubernetesSingleOperationApiMapping)
    (names : List String) : CallOutcome :=
  match prepareArguments names call.verb.acceptedArguments (dropFalsy options) with
  | .error e => .incomplete e
  | .ok arguments =>
    .answered ⟨m.api, m.method, arguments⟩ (kube.respond requests ⟨m.api, m.method, arguments⟩)

def Made (options : Dict) : List Request → List Attempt → Prop
  | _, [] => True
  | requests, attempt :: later =>
    (∃ names, prepareOperation kube attempt.operation = .ok names ∧
      attempt.outcome = outcomeOf kube call options requests attempt.operation names) ∧
    Made options (requests ++ attempt.outcome.requests) later

theorem outcomeOf_dropFalsy (options : Dict) (requests : List Request)
    (m : KubernetesSingleOperationApiMapping) (names : List String) :
    outcomeOf kube call (dropFalsy options) requests m names = outcomeOf kube call options requests m names := by
  rw [outcomeOf, dropFalsy_idem]
  rfl

theorem made_dropFalsy (options : Dict) (attempts : List Attempt) (requests : List Request) :
    Made kube call (dropFalsy options) requests attempts ↔ Made kube call options requests attempts := by
  induction attempts generalizing requests with
  | nil => rfl
  | cons attempt later ih => simp only [Made, outcomeOf_dropFalsy, ih]

def after (s : State) (events : List Event) : State :=
  { s with options := dropFalsy s.options, log := s.log ++ events }

theorem requests_after (s : State) (o : CallOutcome) :
    (after s (o.events call)).requests = s.requests ++ o.requests := by
  rw [← o.requests_of_events call]
  simp [State.requests, after]

theorem execute_outcome {m : KubernetesSingleOperationApiMapping} {names : List String}
    (provided : prepareOperation kube m = .ok names) (s : State) :
    execute kube call m s =
      ((outcomeOf kube call s.options s.requests m names).result,
        after s ((outcomeOf kube call s.options s.requests m names).events call)) := by
  rcases execute_cases kube call m s with ⟨e, operation, _⟩ | ⟨names', e, operation, incomplete, run⟩ |
    ⟨names', arguments, answer, operation, complete, answered, run⟩
  · rw [provided] at operation
    cases operation
  · obtain rfl : names = names' := Except.ok.inj (provided.symm.trans operation)
    rw [run]
    simp [outcomeOf, incomplete, CallOutcome.result, CallOutcome.events, after]
  · obtain rfl : names = names' := Except.ok.inj (provided.symm.trans operation)
    rw [run, answered]
    simp [outcomeOf, complete, CallOutcome.result, CallOutcome.events, after]

theorem alternate_provided {m alternate : KubernetesSingleOperationApiMapping}
    (member : alternate ∈ m.alternates kube) : ∃ names, prepareOperation kube alternate = .ok names := by
  rw [KubernetesSingleOperationApiMapping.alternates, List.mem_filterMap] at member
  obtain ⟨name, _, listed⟩ := member
  by_cases own : name = m.api
  · simp [own] at listed
  rw [if_neg own] at listed
  by_cases has : ((kube.apiClass name).bind (· m.method)).isSome = true
  · rw [if_pos has] at listed
    obtain rfl := Option.some.inj listed
    cases found : kube.apiClass name with
    | none => simp [found] at has
    | some cls =>
      cases method : cls m.method with
      | none => simp [found, method] at has
      | some names => exact ⟨names, by simp [prepareOperation, found, method]⟩
  · rw [if_neg has] at listed
    cases listed

theorem executeAlternates_fallback (primary : Exception) (alternates : List KubernetesSingleOperationApiMapping) :
    executeAlternates kube call primary alternates =
      Program.fallback (execute kube call) Exception.isVersionMismatch (Program.raise primary) alternates := by
  induction alternates with
  | nil => rfl
  | cons alternate rest ih =>
    rw [executeAlternates, Program.fallback, ih]
    apply congrArg (Program.attempt (execute kube call alternate) >>= ·)
    funext result
    cases result <;> rfl

theorem made_of_tried {candidates : List KubernetesSingleOperationApiMapping} {s s' : State}
    {tried : List (KubernetesSingleOperationApiMapping × Except Exception Value)}
    (provided : ∀ m ∈ candidates, ∃ names, prepareOperation kube m = .ok names)
    (tries : Program.Tried (execute kube call) Exception.isVersionMismatch candidates s tried s') :
    ∃ attempts : List Attempt,
      tried = attempts.map (fun attempt => (attempt.operation, attempt.outcome.result)) ∧
        Made kube call s.options s.requests attempts ∧
        s'.log = s.log ++ attempts.flatMap fun attempt => attempt.outcome.events call := by
  induction tries with
  | exhausted s => exact ⟨[], rfl, trivial, by simp⟩
  | @settled m rest s s' result ran ends =>
    obtain ⟨names, prepared⟩ := provided m List.mem_cons_self
    rw [execute_outcome kube call prepared] at ran
    obtain ⟨rfl, rfl⟩ := Prod.mk.inj ran
    exact ⟨[⟨m, outcomeOf kube call s.options s.requests m names⟩], rfl, ⟨⟨names, prepared, rfl⟩, trivial⟩,
      by simp [after]⟩
  | @passed m rest s middle s' result later ran passes' next ih =>
    obtain ⟨names, prepared⟩ := provided m List.mem_cons_self
    rw [execute_outcome kube call prepared] at ran
    obtain ⟨rfl, rfl⟩ := Prod.mk.inj ran
    obtain ⟨attempts, rfl, made, log⟩ := ih fun other member => provided other (List.mem_cons_of_mem _ member)
    rw [requests_after] at made
    refine ⟨⟨m, outcomeOf kube call s.options s.requests m names⟩ :: attempts, rfl,
      ⟨⟨names, prepared, rfl⟩, (made_dropFalsy kube call s.options attempts _).mp made⟩, ?_⟩
    rw [log]
    simp [after]

/-- A run that makes the given attempts: one more exactly when candidates remain and every
    attempt so far failed with a version mismatch. -/
structure TriedInOrder (m : KubernetesSingleOperationApiMapping) (s : State) (attempts : List Attempt)
    (run : Except Exception Value × State) : Prop where
  inOrder : attempts.map Attempt.operation <+: m :: m.alternates kube
  made : Made kube call s.options s.requests attempts
  log : run.2.log = s.log ++ attempts.flatMap fun attempt => attempt.outcome.events call
  further : ∀ n, n < attempts.length ↔
    n < (m :: m.alternates kube).length ∧ ∀ attempt ∈ attempts.take n, attempt.outcome.isMismatch = true
  settled : ∀ attempt ∈ attempts, attempt.outcome.isMismatch = false → run.1 = attempt.outcome.result
  exhausted : (∀ attempt ∈ attempts, attempt.outcome.isMismatch = true) →
    ∃ primary, attempts.head? = some primary ∧ run.1 = primary.outcome.result
  effective : (attempts.filter fun attempt => attempt.outcome.succeeded).length ≤ 1

end Attempts

section Runs

variable {kube : Kubernetes} {call : ClientCall}

theorem CallOutcome.not_mismatch_of_succeeded {o : CallOutcome} (ok : o.succeeded = true) : o.isMismatch = false := by
  rw [CallOutcome.succeeded, Option.isNone_iff_eq_none] at ok
  rw [CallOutcome.isMismatch, ok]
  rfl

/-- Attempts that all mismatch except perhaps the last: only the last can succeed. -/
theorem succeeded_at_most_once {attempts : List Attempt}
    (before : ∀ attempt ∈ attempts.dropLast, attempt.outcome.isMismatch = true) :
    (attempts.filter fun attempt => attempt.outcome.succeeded).length ≤ 1 := by
  rcases attempts.eq_nil_or_concat with rfl | ⟨front, last, rfl⟩
  · simp
  · rw [List.concat_eq_append, List.dropLast_concat] at before
    have none : front.filter (fun attempt => attempt.outcome.succeeded) = [] := by
      rw [List.filter_eq_nil_iff]
      intro attempt member ok
      have other := CallOutcome.not_mismatch_of_succeeded ok
      rw [before attempt member] at other
      cases other
    rw [List.concat_eq_append, List.filter_append, none, List.nil_append]
    exact List.length_filter_le _ [last]

theorem further_iff {α β : Type} {attempts : List α} {candidates : List β} {mismatch : α → Bool}
    (short : attempts.length ≤ candidates.length) (before : ∀ attempt ∈ attempts.dropLast, mismatch attempt = true)
    (ends : attempts.length = candidates.length ∨ ∃ last, attempts.getLast? = some last ∧ mismatch last = false)
    (n : ℕ) : n < attempts.length ↔ n < candidates.length ∧ ∀ attempt ∈ attempts.take n, mismatch attempt = true := by
  constructor
  · intro inside
    refine ⟨by omega, fun attempt member => before attempt ?_⟩
    rw [List.dropLast_eq_take]
    exact (List.take_subset_take_left attempts (by omega)) member
  · rintro ⟨remains, all⟩
    by_contra outside
    rw [List.take_of_length_le (by omega)] at all
    rcases ends with complete | ⟨last, ends, other⟩
    · omega
    · rw [all last (List.mem_of_getLast? ends)] at other
      cases other

end Runs

/-- The execution with alternates is a fallback over the method of the mapping and the alternates. -/
theorem executeWithAlternates_tried (kube : Kubernetes) (call : ClientCall)
    (m : KubernetesSingleOperationApiMapping) (s : State) :
    ∃ tried, Program.Tried (execute kube call) Exception.isVersionMismatch (m :: m.alternates kube) s tried
        (executeWithAlternates kube call m s).2 ∧
      (∀ attempt ∈ tried, Program.passedOver Exception.isVersionMismatch attempt.2 = false →
        (executeWithAlternates kube call m s).1 = attempt.2) ∧
      ((∀ attempt ∈ tried, Program.passedOver Exception.isVersionMismatch attempt.2 = true) →
        ∃ primary, tried.head? = some primary ∧ (executeWithAlternates kube call m s).1 = primary.2) := by
  obtain ⟨result, middle, ran⟩ : ∃ result middle, execute kube call m s = (result, middle) := ⟨_, _, rfl⟩
  have start : executeWithAlternates kube call m s =
      if Program.passedOver Exception.isVersionMismatch result then
        Program.fallback (execute kube call) Exception.isVersionMismatch (fun s' => (result, s')) (m.alternates kube) middle
      else (result, middle) := by
    rw [executeWithAlternates, Program.bind_run, Program.attempt_run, ran]
    cases result with
    | ok value => rfl
    | error e =>
      by_cases mismatch : e.isVersionMismatch = true
      · simp only [Program.passedOver, mismatch, if_true, executeAlternates_fallback]
        rfl
      · simp only [Program.passedOver, mismatch]
        rfl
  cases skips : Program.passedOver Exception.isVersionMismatch result with
  | false =>
    rw [skips, if_neg (by simp)] at start
    rw [start]
    refine ⟨[(m, result)], .settled ran skips, ?_, ?_⟩
    · intro attempt member _
      rw [List.mem_singleton.mp member]
    · intro all
      exact absurd (all _ (List.mem_singleton_self _)) (by simp [skips])
  | true =>
    rw [skips, if_pos rfl] at start
    obtain ⟨tried, s', tries, ends⟩ := Program.fallback_tried (execute kube call) Exception.isVersionMismatch
      (fun s' => (result, s')) (m.alternates kube) middle
    have reaches : (executeWithAlternates kube call m s).2 = s' := by
      rw [start]
      rcases ends with ⟨last, _, _, outcome⟩ | ⟨_, outcome⟩ <;> rw [outcome]
    rw [reaches]
    refine ⟨(m, result) :: tried, .passed ran skips tries, ?_, ?_⟩
    · intro attempt member settles
      rcases List.mem_cons.mp member with rfl | later
      · rw [skips] at settles
        cases settles
      rcases ends with ⟨last, ends, _, outcome⟩ | ⟨all, _⟩
      · have same := (tries.last_of_settled later settles).symm.trans ends
        rw [start, outcome, Option.some.inj same]
      · rw [all attempt later] at settles
        cases settles
    · intro all
      rcases ends with ⟨last, ends, settles, _⟩ | ⟨_, outcome⟩
      · have passes := all last (List.mem_cons_of_mem _ (List.mem_of_getLast? ends))
        rw [settles] at passes
        cases passes
      · exact ⟨_, rfl, by rw [start, outcome]⟩

/-- The method of the mapping, then the alternates in their order, each once and only after
    version mismatches: a run of `execute_with_alternates` raises what preparing the method of
    the mapping raises, or makes such attempts. -/
theorem executeWithAlternates_inOrder (kube : Kubernetes) (call : ClientCall)
    (m : KubernetesSingleOperationApiMapping) (s : State) :
    (∃ e, prepareOperation kube m = .error e ∧ executeWithAlternates kube call m s = (.error e, s)) ∨
      ∃ attempts, TriedInOrder kube call m s attempts (executeWithAlternates kube call m s) := by
  cases provided : prepareOperation kube m with
  | error e =>
    refine .inl ⟨e, rfl, ?_⟩
    rcases execute_cases kube call m s with ⟨e', operation, run⟩ | ⟨_, _, operation, _⟩ | ⟨_, _, _, operation, _⟩
    · obtain rfl : e = e' := Except.error.inj (provided.symm.trans operation)
      rw [executeWithAlternates, Program.bind_run, Program.attempt_run, run]
      simp [Exception.isVersionMismatch, prepareOperation_error kube operation]
    all_goals
      rw [provided] at operation
      cases operation
  | ok names =>
    have members : ∀ other ∈ m :: m.alternates kube, ∃ names, prepareOperation kube other = .ok names :=
      List.forall_mem_cons.mpr ⟨⟨names, provided⟩, fun _ => alternate_provided kube⟩
    obtain ⟨tried, tries, settled, exhausted⟩ := executeWithAlternates_tried kube call m s
    obtain ⟨attempts, rfl, made, log⟩ := made_of_tried kube call members tries
    have inOrder := tries.inOrder
    have before := tries.passed_before
    have ends := tries.complete_or_settled
    simp only [List.map_map, List.forall_mem_map, CallOutcome.passedOver_result, List.getLast?_map,
      List.head?_map, ← List.map_dropLast] at inOrder before ends settled exhausted
    have short := inOrder.length_le
    rw [List.length_map] at short
    refine .inr ⟨attempts, inOrder, made, log, further_iff short before ?_, settled, ?_, succeeded_at_most_once before⟩
    · rcases ends with complete | ⟨last, found, settles⟩
      · exact .inl (by simpa using congrArg List.length complete)
      · obtain ⟨attempt, final, rfl⟩ := Option.map_eq_some_iff.mp found
        exact .inr ⟨attempt, final, (CallOutcome.passedOver_result _).symm.trans settles⟩
    · intro all
      obtain ⟨primary, starts, raised⟩ := exhausted all
      obtain ⟨attempt, initial, rfl⟩ := Option.map_eq_some_iff.mp starts
      exact ⟨attempt, initial, raised⟩

end CloudifyKubernetes
