import CloudifyKubernetes.StoreOperations

namespace CloudifyKubernetes

open Collections Effects Program

def KubernetesResourceDefinition.resourceKey (d : KubernetesResourceDefinition) : Option (String × String) :=
  match d.metadata.get "name" .none with
  | .ok (.str name) => some (d.kind, name)
  | _ => none

def Event.takesEffect (effective : Bool) (key : String × String) : Event → Bool
  | .returned ⟨.create, _, definition⟩ result => definition.resourceKey == some key && (result.isOk || effective)
  | _ => false

/-- How often the resource has been created. `effective` tells by its place in the log whether a
    creation that fails has taken effect. -/
def creations (effective : Nat → Bool) (key : String × String) (log : List Event) : Nat :=
  log.zipIdx.countP fun e => e.1.takesEffect (effective e.2) key

section

variable {effective : Nat → Bool} {key : String × String}

theorem creations_le_append (log events : List Event) :
    creations effective key log ≤ creations effective key (log ++ events) := by
  rw [creations, creations, List.zipIdx_append, List.countP_append]
  omega

theorem creations_concat (log : List Event) (e : Event) : creations effective key (log ++ [e]) =
    creations effective key log + if e.takesEffect (effective log.length) key then 1 else 0 := by
  rw [creations, List.zipIdx_append, List.countP_append]
  simp [creations]

theorem creations_append_quiet {events : List Event}
    (quiet : ∀ e ∈ events, ∀ effective, e.takesEffect effective key = false) (log : List Event) :
    creations effective key (log ++ events) = creations effective key log := by
  rw [creations, List.zipIdx_append, List.countP_append]
  have none : (events.zipIdx log.length).countP (fun e => e.1.takesEffect (effective e.2) key) = 0 := by
    rw [List.countP_eq_zero]
    intro e member
    rw [quiet e.1 (List.fst_mem_of_mem_zipIdx member)]
    exact Bool.false_ne_true
  simp only [Nat.zero_add, none, Nat.add_zero]
  rfl

end

/-- What a response says about the resource of a definition: its kind, API version and name, and
    the namespace that it is in, if it is in one. -/
structure IsResponse (d : KubernetesResourceDefinition) (name : String) (namesp : Option String) (v : Value) :
    Prop where
  kinded : v.index "kind" = .ok (.str d.kind)
  versioned : (do v.get "api_version" (← v.get "apiVersion" .none)) = .ok d.apiVersion
  described : ∃ fields, v.index "metadata" = .ok (.dict fields) ∧ fields.lookup "name" = some (.str name) ∧
    (fields.lookup "namespace").getD (.str "default") = namesp.elim .none .str

/-- The API on a run: a creation of what exists is refused, and a response is for the resource
    that is asked for, which never changes its namespace. -/
structure Answers (effective : Nat → Bool) (space : String × String → Option String) (log : List Event) : Prop where
  refused : ∀ pre mapping definition result post key,
    log = pre ++ .returned ⟨.create, mapping, definition⟩ result :: post → definition.resourceKey = some key →
      0 < creations effective key pre → result.isOk = false ∧ effective pre.length = false
  response : ∀ c raw key, .returned c (.ok raw) ∈ log → c.definition.resourceKey = some key →
    ∃ v, jsonCleanuper raw = .ok v ∧ IsResponse c.definition key.2 (space key) v

/-- From a place in the log on, the API answers truthfully: a read finds what exists and is
    answered 404 for anything else, and a creation of what does not exist succeeds. -/
structure AnswersTruly (effective : Nat → Bool) (since : Nat) (log : List Event) : Prop where
  found : ∀ pre site mapping definition result post key,
    log = pre ++ .returned ⟨.read site, mapping, definition⟩ result :: post → since ≤ pre.length →
      definition.resourceKey = some key → 0 < creations effective key pre → result.isOk = true
  missing : ∀ pre site mapping definition result post key,
    log = pre ++ .returned ⟨.read site, mapping, definition⟩ result :: post → since ≤ pre.length →
      definition.resourceKey = some key → creations effective key pre = 0 →
        ∃ e, result = .error e ∧ e.isA .apiOperationError = true ∧ Text.contains e.text "(404)" = true
  created : ∀ pre mapping definition result post key,
    log = pre ++ .returned ⟨.create, mapping, definition⟩ result :: post → since ≤ pre.length →
      definition.resourceKey = some key → creations effective key pre = 0 → result.isOk = true

section

variable {effective : Nat → Bool} {space : String × String → Option String} {since : Nat} {log events : List Event}

theorem Answers.of_append (answers : Answers effective space (log ++ events)) : Answers effective space log where
  refused pre mapping definition result post key split :=
    answers.refused pre mapping definition result (post ++ events) key (by rw [split]; simp)
  response c raw key member := answers.response c raw key (List.mem_append_left _ member)

theorem AnswersTruly.of_append (truly : AnswersTruly effective since (log ++ events)) :
    AnswersTruly effective since log where
  found pre site mapping definition result post key split :=
    truly.found pre site mapping definition result (post ++ events) key (by rw [split]; simp)
  missing pre site mapping definition result post key split :=
    truly.missing pre site mapping definition result (post ++ events) key (by rw [split]; simp)
  created pre mapping definition result post key split :=
    truly.created pre mapping definition result (post ++ events) key (by rw [split]; simp)

theorem Answers.creations_le_one (answers : Answers effective space log) (key : String × String) :
    creations effective key log ≤ 1 := by
  induction log using List.reverseRecOn with
  | nil => exact Nat.zero_le 1
  | append_singleton log e ih =>
    have before := ih answers.of_append
    rw [creations_concat]
    by_cases took : e.takesEffect (effective log.length) key = true
    · have first : creations effective key log = 0 := by
        by_contra present
        unfold Event.takesEffect at took
        split at took
        · rename_i mapping definition result
          rw [Bool.and_eq_true, beq_iff_eq, Bool.or_eq_true] at took
          obtain ⟨failed, void⟩ := answers.refused log mapping definition result [] key rfl took.1
            (Nat.pos_of_ne_zero present)
          rw [failed, void] at took
          simp at took
        · cases took
      rw [first, if_pos took]
    · rw [if_neg took]
      exact before

end

end CloudifyKubernetes
