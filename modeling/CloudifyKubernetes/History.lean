import CloudifyKubernetes.Steps

namespace CloudifyKubernetes

open Collections Effects Program Relation

/-- The logs that runs leave, each with the options that it leads to. -/
inductive History (kube : Kubernetes) (original : Dict) : List Event → Dict → Prop
  | start : History kube original [] original
  | entered {log : List Event} {options : Dict} (before : History kube original log options)
      (path : String) (mapping : KubernetesApiMapping) (definition : KubernetesResourceDefinition)
      (runtime : RuntimeProperties) :
      History kube original (log ++ [.entered path mapping definition runtime]) options
  | mapped {log : List Event} {options : Dict} (before : History kube original log options)
      (definition : KubernetesResourceDefinition) :
      History kube original
        (log ++ [.mapped definition (mappingByKind options.keys definition)]) options
  | edited {log : List Event} {options : Dict} (before : History kube original log options)
      (definition : KubernetesResourceDefinition) (edit : Dict)
      (accepted : customResourceEdit definition options = .ok edit) :
      History kube original (log ++ [.edited definition]) edit
  | called {log : List Event} {options : Dict} (before : History kube original log options)
      (c : ClientCall) (aimed : lastEdited log = some c.definition) (sent : List Event)
      (result : Except Exception Value)
      (sends : match (prepared kube c options).2 with
        | .error e => sent = [] ∧ result = .error e
        | .ok own => (∀ e ∈ sent, Issued kube c own e) ∧ Explained kube c own sent result) :
      History kube original (log ++ .called c :: (sent ++ [.returned c result]))
        (sharedOptions kube c options)

section

variable {kube : Kubernetes} {allowed : Verb → Prop} {original : Dict} {s s' : State}

theorem Step.history (step : Step kube allowed s s')
    (before : History kube original s.log s.options) : History kube original s'.log s'.options := by
  cases step with
  | runtime => exact before
  | entered path mapping definition runtime => exact .entered before path mapping definition runtime
  | mapped definition => exact .mapped before definition
  | edited definition options edit => exact .edited before definition options edit
  | called c permitted aimed =>
    obtain ⟨_, options, sent, log, sends⟩ := clientCall_run kube c s
    rw [options, log]
    exact .called before c aimed sent _ sends

theorem steps_history (steps : Steps kube allowed s s')
    (before : History kube original s.log s.options) : History kube original s'.log s'.options := by
  induction steps with
  | refl => exact before
  | tail _ step ih => exact step.history ih

theorem Operation.run_history (kube : Kubernetes) (node : Node) (ctx : OperationContext)
    (operation : Operation) (s : State) (fresh : s.log = []) :
    History kube s.options (operation.run kube node ctx s).2.log (operation.run kube node ctx s).2.options :=
  steps_history
    (operation.run_steps kube node ctx (fun _ _ => trivial) s : Steps kube (fun _ => True) s _)
    (fresh ▸ .start)

end

theorem split_append {α : Type} {front back pre post : List α} {e : α}
    (split : front ++ back = pre ++ e :: post) :
    (∃ inner, pre = front ++ inner ∧ back = inner ++ e :: post) ∨
      ∃ tail, front = pre ++ e :: tail := by
  rcases List.append_eq_append_iff.mp split with ⟨inner, behind, rest⟩ | ⟨tail, ahead, rest⟩
  · exact .inl ⟨inner, behind, rest⟩
  · cases tail with
    | nil => exact .inl ⟨[], by simpa using ahead.symm, by simpa using rest.symm⟩
    | cons head tail =>
      cases rest
      exact .inr ⟨tail, ahead⟩

theorem split_concat {α : Type} {front pre post : List α} {last e : α}
    (split : front ++ [last] = pre ++ e :: post) (different : last ≠ e) :
    ∃ tail, front = pre ++ e :: tail := by
  rcases split_append split with ⟨inner, _, rest⟩ | inside
  · cases inner with
    | nil =>
      cases rest
      exact absurd rfl different
    | cons head tail =>
      cases tail <;> cases rest
  · exact inside

structure Cause (kube : Kubernetes) (original : Dict) (pre : List Event) (c : ClientCall)
    (request : Request) (answer : Answer) where
  before : List Event
  sent : List Event
  options : Dict
  own : Dict
  split : pre = before ++ .called c :: sent
  history : History kube original before options
  aimed : lastEdited before = some c.definition
  prepared : (prepared kube c options).2 = .ok own
  siblings : ∀ e ∈ sent, Issued kube c own e
  issued : Issued kube c own (.requested c request answer)

theorem History.cause {kube : Kubernetes} {original : Dict} {log : List Event} {options : Dict}
    (history : History kube original log options) {pre post : List Event} {c : ClientCall}
    {request : Request} {answer : Answer} (split : log = pre ++ .requested c request answer :: post) :
    Nonempty (Cause kube original pre c request answer) := by
  induction history generalizing post with
  | start => simp at split
  | entered before path mapping definition runtime ih =>
    obtain ⟨tail, inside⟩ := split_concat split nofun
    exact ih inside
  | mapped before definition ih =>
    obtain ⟨tail, inside⟩ := split_concat split nofun
    exact ih inside
  | edited before definition edit accepted ih =>
    obtain ⟨tail, inside⟩ := split_concat split nofun
    exact ih inside
  | @called log options before caller aimed sent result sends ih =>
    rcases split_append split with ⟨inner, behind, rest⟩ | ⟨tail, inside⟩
    · cases inner with
      | nil => cases rest
      | cons head inner =>
        rw [List.cons_append, List.cons.injEq] at rest
        obtain ⟨rfl, rest⟩ := rest
        obtain ⟨tail, inside⟩ := split_concat rest nofun
        cases plan : (CloudifyKubernetes.prepared kube caller options).2 with
        | error e =>
          rw [plan] at sends
          simp [sends.1] at inside
        | ok own =>
          rw [plan] at sends
          have issued := sends.1 (.requested c request answer) (by simp [inside])
          obtain ⟨m, _, names, arguments, _, _, _, same⟩ := issued
          cases same
          exact ⟨⟨log, inner, options, own, behind, before, aimed, plan,
            fun e member => sends.1 e (by simp [inside, member]), sends.1 _ (by simp [inside])⟩⟩
    · exact ih inside

end CloudifyKubernetes
