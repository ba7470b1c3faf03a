import CloudifyKubernetes.Workflows

namespace CloudifyKubernetes

open Effects Formats

inductive ChangesForm
  | dictionary
  | jsonText
  | literalText
  deriving DecidableEq

section

variable (decoding : Decoding)

def ChangesForm.encode (entries : List (String × Json)) : ChangesForm → Json
  | .dictionary => .object entries
  | .jsonText => .str (String.ofList ((Json.jsonText decoding.floatRepr).render (.object entries)))
  | .literalText =>
    .str (String.ofList ((Json.literalText decoding.floatRepr decoding.isPrintable).render (.object entries)))

/-- The literal text of a dictionary is JSON as well: it has neither constants nor strings that
    `repr` writes in another way. -/
def literalIsJson (entries : List (String × Json)) : Bool :=
  (Json.literalText decoding.floatRepr decoding.isPrintable).isJson (.object entries)

structure EncodesNoDictionary (text : String) : Prop where
  json : ∀ entries, Json.loads decoding.floatRepr text ≠ .ok (.object entries)
  literal : ∀ entries, decoding.literalEval text ≠ .ok (.object entries)

variable (deployment : Deployment) (nodeInstanceId : String) (changes : Json)

def UpdatedWith (entries : List (String × Json)) : Prop :=
  ⟨nodeInstanceId, UPDATE, [(DEFINITION_ADDITIONS, .object entries)]⟩ ∈
    (updateResourceDefinition decoding deployment nodeInstanceId changes []).2

def RaisedFirst : Prop :=
  ∃ e, updateResourceDefinition decoding deployment nodeInstanceId changes [] = (.error e, [])

end

section

variable {decoding : Decoding} {deployment : Deployment} {nodeInstanceId : String}

theorem updatedWith_iff_of_loaded (ready : deployment.Ready nodeInstanceId) {changes value : Json}
    (loaded : loadChanges decoding changes = .ok value) (entries : List (String × Json)) :
    UpdatedWith decoding deployment nodeInstanceId changes entries ↔ value = .object entries := by
  rw [UpdatedWith, updateResourceDefinition_runs ready loaded]
  have other : UPDATE ≠ POSTSTART := by decide +kernel
  constructor
  · intro member
    rcases List.mem_pair.mp member with start | update
    · exact absurd (congrArg NodeOperation.operation start) other
    · have additions := congrArg NodeOperation.kwargs update
      exact (congrArg Prod.snd (List.cons.inj additions).1).symm
  · rintro rfl
    exact List.mem_cons_of_mem _ List.mem_cons_self

theorem not_updatedWith_of_raised {changes : Json} {e : Exception} (raised : loadChanges decoding changes = .error e)
    (entries : List (String × Json)) : ¬ UpdatedWith decoding deployment nodeInstanceId changes entries := by
  rw [UpdatedWith, updateResourceDefinition_raises raised]
  exact List.not_mem_nil

/-- In a dialect the changes arrive exactly if their text is JSON. -/
theorem updatedWith_rendered_iff (ready : deployment.Ready nodeInstanceId)
    (dialect : Json.Dialect decoding.floatRepr) {entries : List (String × Json)}
    (wellFormed : (Json.object entries).WellFormed decoding.floatRepr) :
    UpdatedWith decoding deployment nodeInstanceId (.str (String.ofList (dialect.render (.object entries)))) entries ↔
      dialect.isJson (.object entries) = true := by
  cases isJson : dialect.isJson (.object entries) with
  | true =>
    have loaded := loadChanges_decoded ((Json.loads_object_iff dialect wellFormed).mpr isJson)
    rw [updatedWith_iff_of_loaded ready loaded]
    exact ⟨fun _ => rfl, fun _ => rfl⟩
  | false =>
    obtain ⟨msg, left, known, fails⟩ := Json.loads_object_refused dialect wellFormed isJson
    have plain : (String.ofList (dialect.render (.object entries))).toList.head? ≠ some Json.byteOrderMark := by
      rw [String.toList_ofList, Json.Dialect.render, List.head?_cons]
      exact fun same => absurd (Option.some.inj same) (by decide)
    rw [updatedWith_iff_of_loaded ready (loadChanges_undecoded fails plain)]
    constructor
    · intro same
      cases same
    · intro same
      cases same

theorem raisedFirst_iff (ready : deployment.Ready nodeInstanceId) (text : String) :
    RaisedFirst decoding deployment nodeInstanceId (.str text) ↔ text.toList.head? = some Json.byteOrderMark := by
  have passed {value : Json} (loaded : loadChanges decoding (.str text) = .ok value) :
      ¬ RaisedFirst decoding deployment nodeInstanceId (.str text) := by
    rintro ⟨e, raised⟩
    rw [updateResourceDefinition_runs ready loaded] at raised
    cases (Prod.mk.inj raised).2
  constructor
  · intro raised
    by_contra plain
    cases decoded : Json.loads decoding.floatRepr text with
    | ok value => exact passed (loadChanges_decoded decoded) raised
    | error e => exact passed (loadChanges_undecoded decoded plain) raised
  · intro marked
    exact ⟨_, updateResourceDefinition_raises (loadChanges_marked marked)⟩

/-- Changes arrive as JSON text, or as literal text that is JSON as well, and in no other form.
    Of the texts without a dictionary only those with a byte order mark are refused. -/
theorem changes_decoded_iff (ready : deployment.Ready nodeInstanceId) :
    (∀ entries, (Json.object entries).WellFormed decoding.floatRepr → ∀ form : ChangesForm,
      (UpdatedWith decoding deployment nodeInstanceId (form.encode decoding entries) entries ↔
        form = .jsonText ∨ form = .literalText ∧ literalIsJson decoding entries = true)) ∧
      ∀ text, EncodesNoDictionary decoding text →
        (RaisedFirst decoding deployment nodeInstanceId (.str text) ↔
          text.toList.head? = some Json.byteOrderMark) := by
  refine ⟨fun entries wellFormed form => ?_, fun text _ => raisedFirst_iff ready text⟩
  cases form with
  | dictionary =>
    have raised : loadChanges decoding (ChangesForm.dictionary.encode decoding entries) =
        .error ⟨.typeError, "the JSON object must be str, bytes or bytearray, not " ++ className (.object entries)⟩ :=
      rfl
    have never : ¬ UpdatedWith decoding deployment nodeInstanceId
        (ChangesForm.dictionary.encode decoding entries) entries := not_updatedWith_of_raised raised entries
    simp [never]
  | jsonText =>
    have arrives := (updatedWith_rendered_iff ready (Json.jsonText decoding.floatRepr) wellFormed).mpr
      (Json.jsonText_isJson _ _)
    exact ⟨fun _ => .inl rfl, fun _ => arrives⟩
  | literalText =>
    have arrives := updatedWith_rendered_iff ready (Json.literalText decoding.floatRepr decoding.isPrintable)
      wellFormed
    rw [ChangesForm.encode, arrives]
    simp [literalIsJson]

end

def documentedChanges : List (String × Json) :=
  [("metadata", .object [("resourceVersion", .str "0")]),
    ("spec", .object [("clusterIP", .str "10.110.97.242"),
      ("ports", .array [.object [("port", .int 80), ("nodePort", .int 30081)]])])]

def documentedText : String :=
  "\x7b'metadata': \x7b'resourceVersion': '0'\x7d, 'spec': \x7b'clusterIP': '10.110.97.242', " ++
    "'ports': [\x7b'port': 80, 'nodePort': 30081\x7d]\x7d\x7d"

def documentedDecoding : Decoding where
  floatRepr := id
  isPrintable _ := true
  literalEval text :=
    if text = documentedText then .ok (.object documentedChanges)
    else .error ⟨.valueError, "malformed node or string"⟩
  yamlFromFiles _ := .ok (.array [])

def wordpress : Deployment where
  nodeInstances := ["wordpress_svc"]
  ends _ := .ok ()

theorem wordpress_ready : wordpress.Ready "wordpress_svc" :=
  ⟨by decide +kernel, List.mem_singleton.mpr rfl, rfl⟩

theorem documentedChanges_wellFormed :
    (Json.object documentedChanges).WellFormed documentedDecoding.floatRepr := by
  simp [documentedChanges, Json.WellFormed, Json.EntriesWellFormed, Json.ElementsWellFormed]

/-- The documented form reaches the update as text, and the dictionary itself is refused. -/
theorem documented_passed_on :
    ChangesForm.literalText.encode documentedDecoding documentedChanges = .str documentedText ∧
      (updateResourceDefinition documentedDecoding wordpress "wordpress_svc" (.str documentedText) []).2 =
        [⟨"wordpress_svc", POSTSTART, []⟩,
          ⟨"wordpress_svc", UPDATE, [(DEFINITION_ADDITIONS, .str documentedText)]⟩] ∧
      ¬ UpdatedWith documentedDecoding wordpress "wordpress_svc"
        (ChangesForm.literalText.encode documentedDecoding documentedChanges) documentedChanges ∧
      ¬ UpdatedWith documentedDecoding wordpress "wordpress_svc"
        (ChangesForm.dictionary.encode documentedDecoding documentedChanges) documentedChanges := by
  have text : ChangesForm.literalText.encode documentedDecoding documentedChanges = .str documentedText := by
    refine congrArg Json.str (String.toList_inj.mp ?_)
    rw [String.toList_ofList]
    decide +kernel
  have other : (Json.literalText documentedDecoding.floatRepr documentedDecoding.isPrintable).isJson
      (.object documentedChanges) = false := by decide +kernel
  obtain ⟨msg, left, known, fails⟩ := Json.loads_object_refused _ documentedChanges_wellFormed other
  rw [Json.str.inj text] at fails
  have loaded : loadChanges documentedDecoding (.str documentedText) = .ok (.str documentedText) :=
    loadChanges_undecoded fails (by decide +kernel)
  refine ⟨text, ?_, ?_, not_updatedWith_of_raised rfl _⟩
  · rw [updateResourceDefinition_runs wordpress_ready loaded]
  · rw [text, updatedWith_iff_of_loaded wordpress_ready loaded]
    exact fun same => by cases same

theorem changes_decoded_iff_documented :
    (UpdatedWith documentedDecoding wordpress "wordpress_svc"
      (ChangesForm.literalText.encode documentedDecoding documentedChanges) documentedChanges ↔
      literalIsJson documentedDecoding documentedChanges = true) ∧
      (RaisedFirst documentedDecoding wordpress "wordpress_svc" (.str "replicas") ↔
        "replicas".toList.head? = some Json.byteOrderMark) := by
  have undecoded : (Json.loads id "replicas").isOk = false := by decide +kernel
  have unlike : "replicas" ≠ documentedText := by decide +kernel
  have literal : documentedDecoding.literalEval "replicas" =
      .error ⟨.valueError, "malformed node or string"⟩ := by
    simp only [documentedDecoding]
    rw [if_neg unlike]
  have other : EncodesNoDictionary documentedDecoding "replicas" := by
    refine ⟨fun entries same => ?_, fun entries same => ?_⟩
    · rw [show documentedDecoding.floatRepr = id from rfl] at same
      rw [same] at undecoded
      cases undecoded
    · rw [literal] at same
      cases same
  have both := @changes_decoded_iff documentedDecoding wordpress "wordpress_svc" wordpress_ready
  refine ⟨?_, both.2 _ other⟩
  simpa using both.1 documentedChanges documentedChanges_wellFormed .literalText

end CloudifyKubernetes
