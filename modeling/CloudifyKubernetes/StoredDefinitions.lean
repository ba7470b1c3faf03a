import CloudifyKubernetes.LastCreatePath

namespace CloudifyKubernetes

open Collections Effects Program

structure Identity.Plain (i : Identity) : Prop where
  name : ∃ text, i.name = .str text
  kind : ∃ text, i.kind = .str text
  namesp : i.namesp = .none ∨ ∃ text, i.namesp = .str text

theorem Value.eq_none_iff {value : Value} : value.eq .none = true ↔ value = .none := by
  cases value <;> simp [eq, number?]

theorem Identity.same_iff {i j : Identity} (plain : j.Plain) : i.same j = true ↔ i = j := by
  obtain ⟨name, kind, namesp⟩ := i
  obtain ⟨name', kind', namesp'⟩ := j
  obtain ⟨⟨n, rfl⟩, ⟨k, rfl⟩, space⟩ := plain
  simp only [Identity.same, Bool.and_eq_true, Value.eq_str_iff, Identity.mk.injEq]
  rcases space with rfl | ⟨t, rfl⟩
  · rw [Value.eq_none_iff, and_assoc]
  · rw [Value.eq_str_iff, and_assoc]

def Value.IsPlain (v : Value) : Prop := ∃ i, Identity.ofDict v = .ok i ∧ i.Plain

def KubernetesResourceDefinition.IsPlain (d : KubernetesResourceDefinition) : Prop :=
  ∃ i, Identity.ofDefinition d = .ok i ∧ i.Plain

theorem agrees_iff_of_plain {left right : Value} {i : Identity} (own : Identity.ofDict right = .ok i)
    (plain : i.Plain) : agrees left right = true ↔ Identity.ofDict left = .ok i := by
  rw [agrees_iff, matchResource]
  cases found : Identity.ofDict left with
  | error e => simp [bind, Except.bind]
  | ok j =>
    rw [own]
    simp only [bind, Except.bind, pure, Except.pure, Except.ok.injEq]
    exact Identity.same_iff plain

def meets (v : Value) (d : KubernetesResourceDefinition) : Bool :=
  match matchDefinition v d with
  | .ok same => same
  | .error _ => false

theorem meets_iff_of_plain {v : Value} {d : KubernetesResourceDefinition} {i : Identity}
    (own : Identity.ofDefinition d = .ok i) (plain : i.Plain) : meets v d = true ↔ Identity.ofDict v = .ok i := by
  rw [meets, matchDefinition]
  cases found : Identity.ofDict v with
  | error e => simp [bind, Except.bind]
  | ok j =>
    rw [own]
    simp only [bind, Except.bind, pure, Except.pure, Except.ok.injEq]
    exact Identity.same_iff plain

structure Distinct (definitions : List Value) : Prop where
  plain : ∀ v ∈ definitions, v.IsPlain
  once : (definitions.map Identity.ofDict).Nodup

namespace Distinct

variable {definitions : List Value}

theorem nil : Distinct [] := ⟨by simp, .nil⟩

theorem sublist {fewer : List Value} (distinct : Distinct definitions) (inside : fewer.Sublist definitions) :
    Distinct fewer :=
  ⟨fun v member => distinct.plain v (inside.subset member), distinct.once.sublist (inside.map _)⟩

theorem eq_of_identity (distinct : Distinct definitions) {v w : Value} (here : v ∈ definitions)
    (there : w ∈ definitions) (same : Identity.ofDict v = Identity.ofDict w) : v = w :=
  List.inj_on_of_nodup_map distinct.once here there same

theorem nodup (distinct : Distinct definitions) : definitions.Nodup := distinct.once.of_map _

end Distinct

def Unmatched (definitions : List Value) : Prop :=
  definitions.Pairwise fun left right => agrees left right = false ∧ agrees right left = false

theorem distinct_iff {definitions : List Value} (plain : ∀ v ∈ definitions, v.IsPlain) :
    Distinct definitions ↔ Unmatched definitions := by
  have differ {left right : Value} (member : right ∈ definitions) :
      agrees left right = false ↔ Identity.ofDict left ≠ Identity.ofDict right := by
    obtain ⟨i, own, described⟩ := plain right member
    rw [← Bool.not_eq_true, agrees_iff_of_plain own described, own]
  have same : Unmatched definitions ↔ (definitions.map Identity.ofDict).Nodup := by
    rw [List.Nodup, List.pairwise_map]
    refine List.Pairwise.iff_of_mem fun {left right} here there => ?_
    rw [differ there, differ here]
    exact ⟨fun both => both.1, fun other => ⟨other, Ne.symm other⟩⟩
  exact ⟨fun distinct => same.mpr distinct.once, fun unmatched => ⟨plain, same.mp unmatched⟩⟩

theorem removeNamed_of_unnamed {kind : String} {name : Value} {definitions : List Value}
    (unnamed : ∀ v ∈ definitions, isNamed kind name v = .ok false) :
    removeNamed kind name definitions = (.ok (), definitions) := by
  induction definitions using removeNamed.induct kind name with
  | case1 => rfl
  | case2 item e failed => cases (unnamed item (by simp)).symm.trans failed
  | case3 item named => cases (unnamed item (by simp)).symm.trans named
  | case4 item other => simp [removeNamed, other]
  | case5 item next rest e failed => cases (unnamed item (by simp)).symm.trans failed
  | case6 item next rest named result kept removed ih => cases (unnamed item (by simp)).symm.trans named
  | case7 item next rest other result kept removed ih =>
    have passed := ih fun v member => unnamed v (List.mem_cons_of_mem _ member)
    simp only [removeNamed, other, passed]

theorem removeNamed_first {kind : String} {name : Value} {definitions : List Value}
    (ran : (removeNamed kind name definitions).1 = .ok ()) :
    (∀ v ∈ definitions, isNamed kind name v = .ok false) ∨
      ∃ front v rest, definitions = front ++ v :: rest ∧ isNamed kind name v = .ok true ∧
        (removeNamed kind name definitions).2.Sublist (front ++ rest) := by
  induction definitions using removeNamed.induct kind name with
  | case1 => simp
  | case2 item e failed =>
    simp only [removeNamed, failed] at ran
    cases ran
  | case3 item named => exact .inr ⟨[], item, [], rfl, named, by simp [removeNamed, named]⟩
  | case4 item other => exact .inl (by simpa using other)
  | case5 item next rest e failed =>
    simp only [removeNamed, failed] at ran
    cases ran
  | case6 item next rest named result kept removed ih =>
    refine .inr ⟨[], item, next :: rest, rfl, named, ?_⟩
    simp only [removeNamed, named]
    exact (removeNamed_sublist kind name rest).cons_cons next
  | case7 item next rest other result kept removed ih =>
    simp only [removeNamed, other] at ran ⊢
    rcases ih ran with unnamed | ⟨front, v, behind, split, named, inside⟩
    · exact .inl (List.forall_mem_cons.mpr ⟨other, unnamed⟩)
    · refine .inr ⟨item :: front, v, behind, by rw [split]; rfl, named, ?_⟩
      exact inside.cons_cons item

theorem setAttribute_metadata (d : KubernetesResourceDefinition) (key : String) (value : Value) :
    (d.setAttribute key value).metadata = d.metadata := by
  unfold KubernetesResourceDefinition.setAttribute
  split <;> rfl

theorem foldl_metadata {α : Type} {change : KubernetesResourceDefinition → α → KubernetesResourceDefinition}
    (frame : ∀ d a, (change d a).metadata = d.metadata) (changes : List α) (d : KubernetesResourceDefinition) :
    (changes.foldl change d).metadata = d.metadata := by
  induction changes generalizing d with
  | nil => rfl
  | cons a rest ih => rw [List.foldl_cons, ih, frame]

theorem init_metadata {entries : List (String × Value)} {d : KubernetesResourceDefinition}
    (made : KubernetesResourceDefinition.init entries = .ok d) :
    d.metadata = (entries.lookup "metadata").getD .none := by
  unfold KubernetesResourceDefinition.init at made
  simp only at made
  split at made
  · cases made
  split at made
  · cases made
  split at made
  · split at made
    · cases made
    cases made
    rw [foldl_metadata fun d e => setAttribute_metadata d _ _, foldl_metadata]
    intro d e
    split
    · exact setAttribute_metadata d _ _
    · rfl
  · cases made

theorem ofStored_plain {v : Value} {d : KubernetesResourceDefinition} (plain : v.IsPlain)
    (made : KubernetesResourceDefinition.ofStored v = .ok d) : d.IsPlain := by
  obtain ⟨i, own, ⟨n, named⟩, _, space⟩ := plain
  cases v with
  | dict entries =>
    have metadata := init_metadata made
    simp only [Identity.ofDict, Value.get, bind, Except.bind] at own
    cases found : entries.lookup "metadata" with
    | none =>
      simp only [found, Option.getD_none, List.lookup_nil, pure, Except.pure, Except.ok.injEq] at own
      rw [← own] at named
      cases named
    | some value =>
      rw [found, Option.getD_some] at metadata
      cases value with
      | dict fields =>
        simp only [found, Option.getD_some, pure, Except.pure, Except.ok.injEq] at own
        subst own
        refine ⟨⟨_, .str d.kind, _⟩, ?_, ⟨n, named⟩, ⟨d.kind, rfl⟩, space⟩
        rw [Identity.ofDefinition, metadata]
        rfl
      | _ => simp [found] at own
  | _ => cases made

/-- The definition that the fallback decides on: the last stored one if it replaces the given. -/
def decided (node : Node) (definition : KubernetesResourceDefinition) (runtime : RuntimeProperties) :
    Except Exception KubernetesResourceDefinition :=
  if replaces node definition runtime then
    KubernetesResourceDefinition.ofStored (lastStored definition runtime)
  else .ok definition

theorem storedDefinitions_popStored (runtime : RuntimeProperties) :
    storedDefinitions (popStored runtime) = (storedDefinitions runtime).dropLast := by
  obtain ⟨kubernetes, definitions, performTask⟩ := runtime
  cases definitions <;> rfl

theorem takeStored_ok {chosen chosen' : KubernetesResourceDefinition × KubernetesApiMapping} {s s' : State}
    (ran : takeStored chosen s = (.ok chosen', s')) :
    chosen' = chosen ∧ ∃ name, chosen.1.metadata.index "name" = .ok name ∧
      (removeNamed chosen.1.kind name (storedDefinitions s.runtime)).1 = .ok () ∧
      storedDefinitions s'.runtime = (removeNamed chosen.1.kind name (storedDefinitions s.runtime)).2 := by
  obtain ⟨name, named, ran⟩ := bind_ofExcept_ok_inv ran
  obtain ⟨_, middle, second, ran⟩ := bind_ok_inv ran
  rw [removeResourceDefinition_run] at second
  obtain ⟨removed, rfl⟩ := Prod.mk.inj second
  cases ran
  exact ⟨rfl, name, named, removed, rfl⟩

theorem retrieveStoredResource_ok {node : Node} {definition : KubernetesResourceDefinition}
    {mapping : KubernetesApiMapping} {s s' : State} {chosen : KubernetesResourceDefinition × KubernetesApiMapping}
    (ran : retrieveStoredResource node definition mapping true s = (.ok chosen, s')) :
    decided node definition s.runtime = .ok chosen.1 ∧ ∃ name, chosen.1.metadata.index "name" = .ok name ∧
      (removeNamed chosen.1.kind name (storedDefinitions s.runtime).dropLast).1 = .ok () ∧
      storedDefinitions s'.runtime =
        (removeNamed chosen.1.kind name (storedDefinitions s.runtime).dropLast).2 := by
  rw [retrieveStoredResource_run] at ran
  simp only [decided]
  split at ran
  · rename_i replaced
    obtain ⟨previous, stored, ran⟩ := bind_ofExcept_ok_inv ran
    obtain ⟨mapping', middle, second, ran⟩ := bind_ok_inv ran
    rw [chooseMapping_run] at second
    obtain ⟨_, rfl⟩ := Prod.mk.inj second
    obtain ⟨rfl, taken⟩ := takeStored_ok ran
    rw [storedDefinitions_popStored] at taken
    exact ⟨by rw [if_pos replaced, stored], taken⟩
  · rename_i kept
    obtain ⟨rfl, taken⟩ := takeStored_ok ran
    rw [storedDefinitions_popStored] at taken
    exact ⟨if_neg kept, taken⟩

theorem ofDefinition_parts {d : KubernetesResourceDefinition} {i : Identity}
    (own : Identity.ofDefinition d = .ok i) (plain : i.Plain) :
    i.kind = .str d.kind ∧ d.metadata.index "name" = .ok i.name := by
  obtain ⟨⟨n, named⟩, _, _⟩ := plain
  simp only [Identity.ofDefinition, Value.get, Value.index] at own ⊢
  cases metadata : d.metadata with
  | dict fields =>
    simp only [metadata, bind, Except.bind, pure, Except.pure, Except.ok.injEq] at own
    subst own
    cases found : fields.lookup "name" with
    | none =>
      rw [found] at named
      cases named
    | some name => exact ⟨rfl, by simp [found]⟩
  | _ =>
    rw [metadata] at own
    cases own

theorem ofDict_parts {v : Value} {i : Identity} (own : Identity.ofDict v = .ok i) (plain : i.Plain) :
    ∃ entries fields, v = .dict entries ∧ entries.lookup "kind" = some i.kind ∧
      entries.lookup "metadata" = some (.dict fields) ∧ fields.lookup "name" = some i.name := by
  obtain ⟨⟨n, named⟩, ⟨k, kinded⟩, _⟩ := plain
  cases v with
  | dict entries =>
    simp only [Identity.ofDict, Value.get, bind, Except.bind, pure, Except.pure] at own
    cases metadata : (entries.lookup "metadata").getD (.dict []) with
    | dict fields =>
      simp only [metadata, Except.ok.injEq] at own
      subst own
      cases found : fields.lookup "name" with
      | none => simp [found] at named
      | some name =>
        cases kind : entries.lookup "kind" with
        | none => simp [kind] at kinded
        | some text =>
          cases described : entries.lookup "metadata" with
          | none =>
            rw [described] at metadata
            cases metadata
            cases found
          | some value =>
            rw [described] at metadata
            exact ⟨entries, fields, rfl, kind, described.trans (congrArg some metadata), found⟩
    | _ => simp [metadata] at own
  | _ => cases own

theorem isNamed_plain {v : Value} {i : Identity} (own : Identity.ofDict v = .ok i) (plain : i.Plain)
    (kind : String) (name : Value) :
    isNamed kind name v = .ok (i.kind.eq (.str kind) && i.name.eq name) := by
  obtain ⟨entries, fields, rfl, kinded, described, named⟩ := ofDict_parts own plain
  simp only [isNamed, Value.index, kinded, described, named, bind, Except.bind]
  cases i.kind.eq (.str kind) <;> rfl

theorem lastStored_of_replaces {node : Node} {definition : KubernetesResourceDefinition}
    {runtime : RuntimeProperties} (replaced : replaces node definition runtime = true) :
    (storedDefinitions runtime).getLast? = some (lastStored definition runtime) := by
  obtain ⟨kubernetes, definitions, performTask⟩ := runtime
  have given : lastStored definition ⟨kubernetes, definitions, performTask⟩ ≠ definition.cleanup := by
    intro same
    rw [replaces, same, Value.eq_refl] at replaced
    cases replaced
  cases definitions with
  | none => exact absurd rfl given
  | some definitions =>
    cases last : definitions.getLast? with
    | none => exact absurd (by simp [lastStored, last]) given
    | some v => simp [storedDefinitions, lastStored, last]

def RemovesLast (d : KubernetesResourceDefinition) (definitions : List Value) : Prop :=
  (∃ last, definitions.getLast? = some last ∧ meets last d = true) ∧
    ∀ name, d.metadata.index "name" = .ok name →
      ∀ v ∈ definitions.dropLast, isNamed d.kind name v = .ok false

/-- The fallback removes exactly the entry of the definition that it returns, exactly when there
    are no entries, or the last one is that entry and no other has its kind and name. -/
theorem takesReturned_iff {node : Node} {definition : KubernetesResourceDefinition} {mapping : KubernetesApiMapping}
    {s s' : State} {chosen : KubernetesResourceDefinition × KubernetesApiMapping}
    (plain : definition.IsPlain) (entries : ∀ v ∈ storedDefinitions s.runtime, v.IsPlain)
    (unmatched : Unmatched (storedDefinitions s.runtime))
    (ran : retrieveStoredResource node definition mapping true s = (.ok chosen, s')) :
    storedDefinitions s'.runtime = (storedDefinitions s.runtime).filter (fun v => !meets v chosen.1) ↔
      storedDefinitions s.runtime = [] ∨
        ∀ d, decided node definition s.runtime = .ok d → RemovesLast d (storedDefinitions s.runtime) := by
  have distinct := (distinct_iff entries).mpr unmatched
  obtain ⟨choice, name, named, removed, after⟩ := retrieveStoredResource_ok ran
  have described : chosen.1.IsPlain := by
    unfold decided at choice
    split at choice
    · rename_i replaced
      exact ofStored_plain (entries _ (List.mem_of_getLast? (lastStored_of_replaces replaced))) choice
    · cases choice
      exact plain
  obtain ⟨i, own, shape⟩ := described
  obtain ⟨kind, indexed⟩ := ofDefinition_parts own shape
  obtain rfl : i.name = name := Except.ok.inj (indexed.symm.trans named)
  have met (v : Value) : meets v chosen.1 = true ↔ Identity.ofDict v = .ok i := meets_iff_of_plain own shape
  rw [after, choice]
  generalize storedDefinitions s.runtime = definitions at *
  rcases List.eq_nil_or_concat definitions with rfl | ⟨init, last, rfl⟩
  · simp [removeNamed]
  rw [List.concat_eq_append] at *
  simp only [List.dropLast_concat, List.filter_append] at removed ⊢
  have fresh : last ∉ init := by
    have once := distinct.nodup
    rw [List.nodup_append] at once
    exact fun member => once.2.2 last member last (List.mem_singleton_self _) rfl
  have inside := removeNamed_sublist chosen.1.kind i.name init
  constructor
  · intro same
    refine .inr ?_
    rintro d ⟨rfl⟩
    have lastMet : meets last chosen.1 = true := by
      by_contra other
      rw [Bool.not_eq_true] at other
      have kept : last ∈ (removeNamed chosen.1.kind i.name init).2 := by
        rw [same]
        simp [other]
      exact fresh (inside.subset kept)
    refine ⟨⟨last, by simp, lastMet⟩, fun name' named' v member => ?_⟩
    obtain rfl : i.name = name' := Except.ok.inj (named.symm.trans named')
    rw [List.dropLast_concat] at member
    rcases removeNamed_first removed with unnamed | ⟨front, w, rest, split, isNamed, fewer⟩
    · exact unnamed v member
    · -- The first entry of the name is gone, though it is for another resource.
      exfalso
      have here : w ∈ init := by simp [split]
      cases meet : meets w chosen.1 with
      | true =>
        have one : w = last := distinct.eq_of_identity (by simp [here]) (by simp)
          (((met w).mp meet).trans ((met last).mp lastMet).symm)
        exact fresh (one ▸ here)
      | false =>
        have kept : w ∈ (removeNamed chosen.1.kind i.name init).2 := by
          rw [same]
          simp [here, meet]
        have twice : w ∈ front ++ rest := fewer.subset kept
        have once : (front ++ w :: rest).Nodup := split ▸ (List.nodup_append.mp distinct.nodup).1
        exact (List.nodup_cons.mp (List.nodup_middle.mp once)).1 twice
  · rintro (empty | condition)
    · simp at empty
    obtain ⟨⟨last', final, lastMet⟩, unnamed⟩ := condition _ rfl
    obtain rfl : last = last' := by simpa using final
    simp only [List.dropLast_concat] at unnamed
    rw [removeNamed_of_unnamed (unnamed _ named)]
    have kept : init.filter (fun v => !meets v chosen.1) = init := by
      refine List.filter_eq_self.mpr fun v member => ?_
      rw [Bool.not_eq_true', Bool.eq_false_iff]
      intro meet
      have other := unnamed _ named v member
      rw [isNamed_plain ((met v).mp meet) shape, kind, Value.eq_refl, Value.eq_refl] at other
      cases other
    rw [kept]
    simp [lastMet]

open Package

def twoStored : State :=
  { mainNamespace with runtime :=
      { resourceDefinitions := some [response "ConfigMap" "settings", response "Pod" "worker"] } }

theorem response_plain (kind name : String) : (response kind name).IsPlain :=
  ⟨⟨.str name, .str kind, .str "default"⟩, rfl, ⟨name, rfl⟩, ⟨kind, rfl⟩, .inr ⟨_, rfl⟩⟩

theorem twoStored_unmatched : Unmatched (storedDefinitions twoStored.runtime) := by
  have differ : agrees (response "ConfigMap" "settings") (response "Pod" "worker") = false ∧
      agrees (response "Pod" "worker") (response "ConfigMap" "settings") = false := by decide +kernel
  exact .cons (by simpa using differ) (.cons (by simp) .nil)

theorem twoStored_run : ∃ chosen s', retrieveStoredResource ownNode (configMap "settings" none) configMapMapping
      true twoStored = (.ok chosen, s') ∧
    (storedDefinitions s'.runtime).length ≠
      ((storedDefinitions twoStored.runtime).filter fun v => !meets v chosen.1).length := by
  have shorter : returning (fun chosen s' => decide ((storedDefinitions s'.runtime).length ≠
        ((storedDefinitions twoStored.runtime).filter fun v => !meets v chosen.1).length))
      (retrieveStoredResource ownNode (configMap "settings" none) configMapMapping true twoStored) = true := by
    decide +kernel
  obtain ⟨chosen, s', ran, shorter⟩ := returning_iff.mp shorter
  exact ⟨chosen, s', ran, of_decide_eq_true shorter⟩

/-- The entry behind the one that is asked for is gone as well. -/
theorem other_entry_removed : ∃ chosen s',
    retrieveStoredResource ownNode (configMap "settings" none) configMapMapping true twoStored =
      (.ok chosen, s') ∧
    storedDefinitions s'.runtime ≠
      (storedDefinitions twoStored.runtime).filter fun v => !meets v chosen.1 := by
  obtain ⟨chosen, s', ran, different⟩ := twoStored_run
  exact ⟨chosen, s', ran, fun same => different (congrArg List.length same)⟩

theorem takesReturned_iff_twoStored : ∃ chosen s',
    retrieveStoredResource ownNode (configMap "settings" none) configMapMapping true twoStored =
      (.ok chosen, s') ∧
    (storedDefinitions s'.runtime =
        (storedDefinitions twoStored.runtime).filter (fun v => !meets v chosen.1) ↔
      storedDefinitions twoStored.runtime = [] ∨
        ∀ d, decided ownNode (configMap "settings" none) twoStored.runtime = .ok d →
          RemovesLast d (storedDefinitions twoStored.runtime)) := by
  obtain ⟨chosen, s', ran, _⟩ := twoStored_run
  have given : (configMap "settings" none).IsPlain :=
    ⟨⟨.str "settings", .str "ConfigMap", .str "default"⟩, rfl, ⟨_, rfl⟩, ⟨_, rfl⟩, .inr ⟨_, rfl⟩⟩
  have entries : ∀ v ∈ storedDefinitions twoStored.runtime, v.IsPlain :=
    List.forall_mem_cons.mpr ⟨response_plain _ _, List.forall_mem_singleton.mpr (response_plain _ _)⟩
  exact ⟨chosen, s', ran, takesReturned_iff given entries twoStored_unmatched ran⟩

end CloudifyKubernetes
