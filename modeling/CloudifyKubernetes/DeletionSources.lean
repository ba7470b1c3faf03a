import CloudifyKubernetes.ClaimReleases
import CloudifyKubernetes.HandledOperations
import CloudifyKubernetes.JsonCleanup

namespace CloudifyKubernetes

open Collections Effects Program Value

inductive Inside : Value → Value → Prop
  | itself (v : Value) : Inside v v
  | entry {entries : List (String × Value)} {e : String × Value} {w : Value} (member : e ∈ entries) (within : Inside e.2 w) :
      Inside (.dict entries) w

def Describes (v : Value) (d : KubernetesResourceDefinition) : Prop :=
  ∃ entries kind, v = .dict entries ∧ entries.lookup "kind" = some (.str kind) ∧
    d.kind = KubernetesResourceDefinition.shortKind kind ∧ entries.lookup "metadata" = some d.metadata

inductive Reread (g : KubernetesResourceDefinition) : KubernetesResourceDefinition → Prop
  | itself : Reread g g
  | again {d d' : KubernetesResourceDefinition} (before : Reread g d)
      (made : KubernetesResourceDefinition.ofStored d.cleanup = .ok d') : Reread g d'

/-- Where a record comes from: a definition that has been written, or an answer of the API. -/
inductive Origin (given : KubernetesResourceDefinition → Prop) (known : Set Event) : Value → Prop
  | written {g d : KubernetesResourceDefinition} (supplied : given g) (reread : Reread g d) : Origin given known d.cleanup
  | answered {c : ClientCall} {raw v : Value} (shown : .returned c (.ok raw) ∈ known) (cleaned : jsonCleanuper raw = .ok v) :
      Origin given known v

def Named (given : KubernetesResourceDefinition → Prop) (known : Set Event) (d : KubernetesResourceDefinition) : Prop :=
  ∃ root w, Origin given known root ∧ Inside root w ∧ Describes w d

/-- The deletion is that of a definition under its own name, and the definition has been given to an
    operation, or it describes something in what was given or answered before. -/
def Foreseen (given : KubernetesResourceDefinition → Prop) (e : Event) (front : List Event) : Prop :=
  ∀ id mapping d, e = .called ⟨.delete id, mapping, d⟩ → d.metadata.index "name" = .ok id ∧
    ((∃ g, given g ∧ Reread g d) ∨ Named given {e | e ∈ front} d)

section

variable {given : KubernetesResourceDefinition → Prop} {known known' : Set Event} {v w u : Value}
  {d d' : KubernetesResourceDefinition}

theorem Inside.trans (outer : Inside v w) (inner : Inside w u) : Inside v u := by
  induction outer with
  | itself => exact inner
  | entry member _ ih => exact .entry member (ih inner)

theorem Origin.mono (more : known ≤ known') (origin : Origin given known v) : Origin given known' v := by
  cases origin with
  | written supplied reread => exact .written supplied reread
  | answered shown cleaned => exact .answered (more shown) cleaned

theorem Named.mono (more : known ≤ known') (named : Named given known d) : Named given known' d := by
  obtain ⟨root, w, origin, inside, describes⟩ := named
  exact ⟨root, w, origin.mono more, inside, describes⟩

structure Traced (given : KubernetesResourceDefinition → Prop) (known : Set Event) (v : Value) : Prop where
  clean : v.clean = v
  named : ∀ w, Inside v w → ∀ d, Describes w d → Named given known d

theorem Traced.mono (more : known ≤ known') (traced : Traced given known v) : Traced given known' v :=
  ⟨traced.clean, fun w inside d describes => (traced.named w inside d describes).mono more⟩

theorem Traced.of_origin (origin : Origin given known v) (clean : v.clean = v) : Traced given known v :=
  ⟨clean, fun w inside _ describes => ⟨v, w, origin, inside, describes⟩⟩

theorem clean_of_mem {entries : List (String × Value)} (clean : cleanEntries entries = entries) {e : String × Value}
    (member : e ∈ entries) : e.2.clean = e.2 := by
  induction entries with
  | nil => cases member
  | cons first rest ih =>
    obtain ⟨key, value⟩ := first
    rw [cleanEntries] at clean
    obtain ⟨here, others⟩ := List.cons.inj clean
    rcases List.mem_cons.mp member with rfl | member
    · exact (Prod.mk.inj here).2
    · exact ih others member

theorem Traced.entry {entries : List (String × Value)} (traced : Traced given known (.dict entries)) {e : String × Value}
    (member : e ∈ entries) : Traced given known e.2 := by
  refine ⟨?_, fun w inside => traced.named w (.entry member inside)⟩
  have clean := traced.clean
  rw [Value.clean] at clean
  exact clean_of_mem (Value.dict.inj clean) member

/-- A dictionary is traced if its entries are, and if it describes only what has been named. -/
theorem Traced.dict {entries : List (String × Value)} (each : ∀ e ∈ entries, Traced given known e.2)
    (named : ∀ d, Describes (.dict entries) d → Named given known d) : Traced given known (.dict entries) := by
  refine ⟨?_, ?_⟩
  · have clean : cleanEntries entries = entries := by
      clear named
      induction entries with
      | nil => rfl
      | cons first rest ih =>
        obtain ⟨here, others⟩ := List.forall_mem_cons.mp each
        rw [cleanEntries, ih others, here.clean]
    rw [Value.clean, clean]
  · intro w inside d describes
    cases inside with
    | itself => exact named d describes
    | entry member within => exact (each _ member).named w within d describes

theorem Traced.str (text : String) : Traced given known (.str text) := by
  refine ⟨rfl, ?_⟩
  intro w inside d describes
  obtain ⟨entries, _, dict, _⟩ := describes
  cases inside
  cases dict

theorem Traced.missing : Traced given known .none := by
  refine ⟨rfl, ?_⟩
  intro w inside d describes
  obtain ⟨entries, _, dict, _⟩ := describes
  cases inside
  cases dict

theorem PartOf.plain (part : PartOf v d) : ∃ entries kind version, v = .dict entries ∧
    entries.lookup "kind" = some (.str kind) ∧ entries.lookup "metadata" = some d.metadata ∧
    (∃ key, entries.lookup key = some version) ∧
    d = .plain (KubernetesResourceDefinition.shortKind kind) version d.metadata := by
  obtain ⟨entries, kind, version, metadata, rfl, kinded, described, versioned, made⟩ := part
  obtain ⟨text, rfl, _, _, rfl⟩ := ofParts_ok made
  exact ⟨entries, text, version, rfl, kinded, described, versioned, rfl⟩

theorem PartOf.describes (part : PartOf v d) : Describes v d := by
  obtain ⟨entries, kind, version, rfl, kinded, described, _, same⟩ := part.plain
  exact ⟨entries, kind, rfl, kinded, by rw [same]; rfl, described⟩

theorem cleanup_plain {kind : String} {version metadata : Value} (clean : version.clean = version)
    (clean' : metadata.clean = metadata) : (KubernetesResourceDefinition.plain kind version metadata).cleanup =
      .dict [("kind", .str kind), ("apiVersion", version), ("metadata", metadata)] := by
  rw [KubernetesResourceDefinition.cleanup, toDict_plain]
  simp only [Value.clean, cleanEntries, clean, clean']

/-- What such a definition is written as describes nothing but what it has been made of. -/
theorem PartOf.traced_cleanup (part : PartOf v d) (traced : Traced given known v) : Traced given known d.cleanup := by
  obtain ⟨entries, kind, version, rfl, kinded, described, ⟨key, versioned⟩, same⟩ := part.plain
  have metadata := traced.entry (mem_of_lookup described)
  have version' := traced.entry (mem_of_lookup versioned)
  have written : d.cleanup = .dict [("kind", .str (KubernetesResourceDefinition.shortKind kind)),
      ("apiVersion", version), ("metadata", d.metadata)] := by
    rw [same]
    exact cleanup_plain version'.clean metadata.clean
  rw [written]
  apply Traced.dict
  · refine List.forall_mem_cons.mpr ⟨.str _, List.forall_mem_cons.mpr ⟨version', ?_⟩⟩
    exact List.forall_mem_cons.mpr ⟨metadata, List.forall_mem_nil _⟩
  · intro d' describes
    obtain ⟨_, text, whole, kinded', short, described'⟩ := describes
    cases whole
    cases kinded'
    have same : d.metadata = d'.metadata := Option.some.inj described'
    apply traced.named _ (.itself _)
    refine ⟨entries, kind, rfl, kinded, ?_, same ▸ described⟩
    rw [short, KubernetesResourceDefinition.shortKind_idem]

theorem PartOf.again (part : PartOf v d) (made : KubernetesResourceDefinition.ofStored d.cleanup = .ok d') :
    PartOf d.cleanup d' := by
  obtain ⟨entries, kind, version, _, _, _, _, same⟩ := part.plain
  have written : d.cleanup = .dict [("kind", .str (KubernetesResourceDefinition.shortKind kind)),
      ("apiVersion", version.clean), ("metadata", d.metadata.clean)] := by
    rw [same, KubernetesResourceDefinition.cleanup, toDict_plain]
    simp only [Value.clean, cleanEntries]
    rfl
  rw [written] at made ⊢
  exact ⟨_, _, _, _, rfl, rfl, rfl, ⟨"apiVersion", rfl⟩, made⟩

theorem clean_of_jsonCleanuper {raw : Value} (cleaned : jsonCleanuper raw = .ok v) : v.clean = v := by
  cases raw with
  | dict entries =>
    cases cleaned
    exact clean_clean _
  | _ => cases cleaned

def tracedContents (given : KubernetesResourceDefinition → Prop) : Contents where
  value known v := Traced given known v
  definition known v := Traced given known v ∧ ∃ u d, PartOf u d ∧ v = d.cleanup
  source known d := (∃ g, given g ∧ Reread g d) ∨ ∃ v, Traced given known v ∧ PartOf v d
  deletion known id d := d.metadata.index "name" = .ok id ∧ ((∃ g, given g ∧ Reread g d) ∨ Named given known d)
  property _ := True
  value_mono more traced := traced.mono more
  definition_mono more held := ⟨held.1.mono more, held.2⟩
  source_mono more source := source.imp_right (Exists.imp fun _ held => ⟨held.1.mono more, held.2⟩)
  deletion_mono more deletion := ⟨deletion.1, deletion.2.imp_right (Named.mono more)⟩
  answered shown cleaned := .of_origin (.answered shown cleaned) (clean_of_jsonCleanuper cleaned)
  missing _ := .missing
  entry traced _ member := traced.entry member
  stored traced part := ⟨part.traced_cleanup traced, _, _, part, rfl⟩
  recorded traced part := .inr ⟨_, traced, part⟩
  reread held made := by
    obtain ⟨traced, u, d, part, rfl⟩ := held
    exact .inr ⟨_, traced, part.again made⟩
  written source := by
    apply source.elim
    · intro ⟨g, supplied, reread⟩
      exact .of_origin (.written supplied reread) (clean_clean _)
    · intro ⟨v, traced, part⟩
      exact part.traced_cleanup traced
  again source made := by
    apply source.imp
    · intro ⟨g, supplied, reread⟩
      exact ⟨g, supplied, reread.again made⟩
    · intro ⟨v, traced, part⟩
      exact ⟨_, part.traced_cleanup traced, part.again made⟩
  deleted source named := by
    refine ⟨named, source.imp_right ?_⟩
    intro ⟨v, traced, part⟩
    exact traced.named v (.itself v) _ part.describes
  text _ := trivial
  held _ := trivial
  cleaned _ := trivial
  part _ _ := trivial

end

section

variable (env : Environment)

def Supplied (operations : List (OperationContext × LifecycleOperation)) (g : KubernetesResourceDefinition) : Prop :=
  ∃ next ∈ operations, g ∈ next.2.definitions

/-- Over any run from empty stores, every deletion is one of a definition that an operation has been
    given, or of something that a definition or an answer before it shows, with its kind and metadata. -/
theorem lifecycle_deletes_foreseen (options : Dict) {operations : List (OperationContext × LifecycleOperation)}
    (tokens : ∀ next ∈ operations, next.2.deletesToken = false) (properties : Dict) :
    Reasoned (Event.deletes fun _ => true) (Foreseen (Supplied operations))
      (lifecycle env options operations (⟨⟨none, none, none⟩, options, []⟩, properties)).2.1.log := by
  have all : (tracedContents (Supplied operations)).HandlesAll ∅ (lifecycle env options operations) fun _ _ => True := by
    refine lifecycle_handles env options (fun next member d inside => .inl ⟨d, ⟨next, member, inside⟩, .itself⟩) ?_
    intro next member deletes
    rw [tokens next member] at deletes
    cases deletes
  have start : (tracedContents (Supplied operations)).Holds ⟨⟨none, none, none⟩, options, []⟩ :=
    ⟨⟨List.forall_mem_nil _, List.forall_mem_nil _⟩, .of_uncounted (List.forall_mem_nil _)⟩
  exact (all.kept (s := (_, properties)) ⟨start, fun _ _ => trivial⟩ (Set.empty_subset _)).1.deletions

end

theorem lifecycle_deletes_foreseen_claim :
    Reasoned (Event.deletes fun _ => true) (Foreseen (Supplied claimDeletion))
        (lifecycle claimedNode Package.mainNamespace.options claimDeletion
          (⟨⟨none, none, none⟩, Package.mainNamespace.options, []⟩, .empty)).2.1.log ∧
      (lifecycle claimedNode Package.mainNamespace.options claimDeletion
        (⟨⟨none, none, none⟩, Package.mainNamespace.options, []⟩, .empty)).2.1.log.countP (Event.deletes fun _ => true) = 1 := by
  refine ⟨?_, by decide +kernel⟩
  apply lifecycle_deletes_foreseen claimedNode
  intro next member
  simp only [claimDeletion, List.mem_cons, List.not_mem_nil, or_false] at member
  rcases member with rfl | rfl
  · rfl
  · rfl

end CloudifyKubernetes
