import CloudifyKubernetes.Formats.YamlFlow
import CloudifyKubernetes.NestedResources

namespace CloudifyKubernetes

open Formats Formats.Yaml

def padded (width n : Nat) : String :=
  String.ofList (List.replicate (width - (toString n).length) '0') ++ toString n

mutual

def Value.ofData : Data → Value
  | .null => .none
  | .bool value => .bool value
  | .int value => .int value
  | .date year month day =>
    .datetime (padded 4 year ++ "-" ++ padded 2 month ++ "-" ++ padded 2 day)
      ("datetime.date(" ++ toString year ++ ", " ++ toString month ++ ", " ++ toString day ++ ")")
  | .str text => .str (String.ofList text)
  | .list elements => .list (Value.ofElements elements)
  | .dict entries => .dict (Value.ofEntries entries)

def Value.ofElements : List Data → List Value
  | [] => []
  | element :: rest => Value.ofData element :: Value.ofElements rest

def Value.ofEntries : List (List Char × Data) → List (String × Value)
  | [] => []
  | (key, value) :: rest => (String.ofList key, Value.ofData value) :: Value.ofEntries rest

end

/-- The loader of another package reads flow mappings as YAML 1.1 does, and refuses those with a
    scalar that has a type but no value. -/
structure SafeLoader (load : String → Except Exception Value) : Prop where
  loads : ∀ gap fields data, (Flow.mapping gap fields).tree.construct = some data →
    load (String.ofList (Flow.mapping gap fields).text) = .ok (Value.ofData data)
  refuses : ∀ gap fields, (Flow.mapping gap fields).tree.construct = none →
    ∃ e, load (String.ofList (Flow.mapping gap fields).text) = .error e

def loadFlow (text : String) : Except Exception Value :=
  match (Yaml.parse text.toList).bind Tree.construct with
  | some data => .ok (Value.ofData data)
  | none => .error ⟨.valueError, "no flow collection"⟩

theorem safeLoader_loadFlow : SafeLoader loadFlow where
  loads gap fields data made := by
    rw [loadFlow, String.toList_ofList, parse_text, Option.bind_some, made]
  refuses gap fields none := by
    refine ⟨⟨.valueError, "no flow collection"⟩, ?_⟩
    rw [loadFlow, String.toList_ofList, parse_text, Option.bind_some, none]

def isNameChar (c : Char) : Bool := c.isLower || c.isDigit || c = '-'

/-- A name of Kubernetes: lower-case letters, digits and `-`, which it neither starts nor ends with. -/
structure ValidName (name : String) : Prop where
  chars : name.toList.all isNameChar = true
  first : name.toList.head?.any Char.isAlphanum = true
  last : name.toList.getLast?.any Char.isAlphanum = true

theorem isPlainChar_of_isNameChar {c : Char} (named : isNameChar c = true) : isPlainChar c = true := by
  rw [isNameChar, Bool.or_eq_true, Bool.or_eq_true, decide_eq_true_iff] at named
  rcases named with (lower | digit) | rfl
  · have letter : c.isAlpha = true := by
      show (c.isUpper || c.isLower) = true
      rw [lower, Bool.or_true]
    simp [isPlainChar, Char.isAlphanum, letter]
  · simp [isPlainChar, Char.isAlphanum, digit]
  · decide

def ValidName.scalar {name : String} (valid : ValidName name) : Plain where
  chars := name.toList
  opens := valid.first
  plain := by
    rw [List.all_eq_true]
    intro c member
    exact isPlainChar_of_isNameChar (List.all_eq_true.mp valid.chars c member)

def Untyped (name : String) : Prop := implicitTag name.toList = .str

instance (name : String) : Decidable (Untyped name) := inferInstanceAs (Decidable (_ = _))

def noGap : Gap := ⟨[], rfl⟩

def blank : Gap := ⟨[' '], rfl⟩

def line (indentation : Nat) : Gap where
  chars := '\n' :: List.replicate indentation ' '
  blank := by
    rw [List.all_cons, List.all_replicate]
    simp [isBlank]

def literal (text : String) (quotable : text.toList.all isQuotable = true) : Flow := .quoted ⟨text.toList, quotable⟩

def literalKey (text : String) (quotable : text.toList.all isQuotable = true) (short : text.toList.length ≤ 1000) :
    Key := ⟨⟨text.toList, quotable⟩, short⟩

def nameKey : Key := literalKey "name" (by decide) (by decide)

def namespaceKey : Key := literalKey "namespace" (by decide) (by decide)

def kindKey : Key := literalKey "kind" (by decide) (by decide)

def versionKey : Key := literalKey "apiVersion" (by decide) (by decide)

def metadataKey : Key := literalKey "metadata" (by decide) (by decide)

def serviceAccountFlow (name namesp : Plain) : Fields :=
  .more versionKey noGap (literal "v1" (by decide)) noGap (line 4)
    (.more kindKey noGap (literal "ServiceAccount" (by decide)) noGap (line 4)
    (.last metadataKey noGap
      (.mapping (line 8)
        (.more nameKey noGap (.plain name) noGap (line 8)
        (.last namespaceKey noGap (.plain namesp) (line 4))))
      (line 0)))

def clusterRoleBindingFlow (name namesp : Plain) : Fields :=
  .more versionKey noGap (literal "rbac.authorization.k8s.io/v1" (by decide)) noGap (line 4)
    (.more kindKey noGap (literal "ClusterRoleBinding" (by decide)) noGap (line 4)
    (.more metadataKey noGap
      (.mapping (line 8) (.last nameKey noGap (.plain name) (line 4)))
      noGap (line 4)
    (.more (literalKey "roleRef" (by decide) (by decide)) noGap
      (.mapping (line 8)
        (.more (literalKey "apiGroup" (by decide) (by decide)) noGap
          (literal "rbac.authorization.k8s.io" (by decide)) noGap (line 8)
        (.more kindKey noGap (literal "ClusterRole" (by decide)) noGap (line 8)
        (.last nameKey noGap (literal "cluster-admin" (by decide)) (line 4)))))
      noGap (line 4)
    (.last (literalKey "subjects" (by decide) (by decide)) noGap
      (.sequence (line 8)
        (.last
          (.mapping (line 12)
            (.more kindKey noGap (literal "ServiceAccount" (by decide)) noGap (line 12)
            (.more nameKey noGap (.plain name) noGap (line 12)
            (.last namespaceKey noGap (.plain namesp) (line 8)))))
          (line 4)))
      (line 0)))))

/-- The secret as it is written, with a comma behind the last entry of its metadata. -/
def secretFlow (token name : Plain) : Fields :=
  .more versionKey noGap (literal "v1" (by decide)) noGap (line 4)
    (.more kindKey noGap (literal "Secret" (by decide)) noGap (line 4)
    (.more metadataKey noGap
      (.mapping (line 8)
        (.more nameKey noGap (.plain token) noGap (line 8)
        (.more (literalKey "annotations" (by decide) (by decide)) blank
          (.mapping (line 10)
            (.last (literalKey "kubernetes.io/service-account.name" (by decide) (by decide)) noGap (.plain name)
              (line 8)))
          noGap (line 4) .nil)))
      noGap (line 4)
    (.last (literalKey "type" (by decide) (by decide)) noGap
      (literal "kubernetes.io/service-account-token" (by decide)) (line 0))))

theorem toList_textOfLines_cons (first second : String) (rest : List String) :
    (textOfLines (first :: second :: rest)).toList = first.toList ++ '\n' :: (textOfLines (second :: rest)).toList := by
  rw [textOfLines, textOfLines, String.toList_intercalate, String.toList_intercalate]
  rfl

theorem toList_textOfLines_singleton (last : String) : (textOfLines [last]).toList = last.toList := by
  rw [textOfLines, String.toList_intercalate]
  simp [List.intercalate]

theorem serviceAccount_text {name namesp : String} (valid : ValidName name) (valid' : ValidName namesp) :
    getServiceAccountPayload name namesp =
      String.ofList (Flow.mapping (line 4) (serviceAccountFlow valid.scalar valid'.scalar)).text := by
  apply String.toList_injective
  simp [getServiceAccountPayload, toList_textOfLines_cons, toList_textOfLines_singleton, serviceAccountFlow, Flow.text,
    Fields.text, Key.text, literal, literalKey, nameKey, namespaceKey, kindKey, versionKey, metadataKey, line, noGap,
    ValidName.scalar, quoteMark]

set_option maxRecDepth 4000 in
theorem clusterRoleBinding_text {name namesp : String} (valid : ValidName name) (valid' : ValidName namesp) :
    getClusterRoleBindingPayload name namesp =
      String.ofList (Flow.mapping (line 4) (clusterRoleBindingFlow valid.scalar valid'.scalar)).text := by
  apply String.toList_injective
  simp [getClusterRoleBindingPayload, toList_textOfLines_cons, toList_textOfLines_singleton, clusterRoleBindingFlow,
    Flow.text, Fields.text, Items.text, Key.text, literal, literalKey, nameKey, namespaceKey, kindKey, versionKey,
    metadataKey, line, noGap, ValidName.scalar, quoteMark]

set_option maxRecDepth 4000 in
theorem secret_text {token name : String} (valid : ValidName token) (valid' : ValidName name) :
    secretTemplate token name =
      String.ofList (Flow.mapping (line 4) (secretFlow valid.scalar valid'.scalar)).text := by
  apply String.toList_injective
  simp [secretTemplate, toList_textOfLines_cons, toList_textOfLines_singleton, secretFlow, Flow.text, Fields.text,
    Key.text, literal, literalKey, nameKey, kindKey, versionKey, metadataKey, line, noGap, blank, ValidName.scalar,
    quoteMark]

def serviceAccount (name namesp : Value) : Value :=
  .dict [("apiVersion", .str "v1"), ("kind", .str "ServiceAccount"),
    ("metadata", .dict [("name", name), ("namespace", namesp)])]

def clusterRoleBinding (name namesp : Value) : Value :=
  .dict [("apiVersion", .str "rbac.authorization.k8s.io/v1"), ("kind", .str "ClusterRoleBinding"),
    ("metadata", .dict [("name", name)]),
    ("roleRef", .dict [("apiGroup", .str "rbac.authorization.k8s.io"), ("kind", .str "ClusterRole"),
      ("name", .str "cluster-admin")]),
    ("subjects", .list [.dict [("kind", .str "ServiceAccount"), ("name", name), ("namespace", namesp)]])]

def secret (token name : Value) : Value :=
  .dict [("apiVersion", .str "v1"), ("kind", .str "Secret"),
    ("metadata", .dict [("name", token), ("annotations", .dict [("kubernetes.io/service-account.name", name)])]),
    ("type", .str "kubernetes.io/service-account-token")]

theorem ofData_eq_str_iff (data : Data) (text : String) :
    Value.ofData data = .str text ↔ data = .str text.toList := by
  cases data with
  | str chars =>
    rw [Value.ofData, Value.str.injEq, Data.str.injEq, ← String.ofList_inj, String.ofList_toList]
  | _ => simp [Value.ofData]

/-- A template with two names is loaded with both of them as texts exactly if neither has a type. -/
theorem SafeLoader.loads_iff {load : String → Except Exception Value} (loader : SafeLoader load) {gap : Gap}
    {fields : Fields} {first second : String} (form : Value → Value → Value)
    (injective : ∀ v w v' w', form v w = form v' w' ↔ v = v' ∧ w = w')
    (made : (Flow.mapping gap fields).tree.construct.map Value.ofData =
      (resolve first.toList).bind fun data => (resolve second.toList).map fun data' =>
        form (Value.ofData data) (Value.ofData data')) :
    load (String.ofList (Flow.mapping gap fields).text) = .ok (form (.str first) (.str second)) ↔
      Untyped first ∧ Untyped second := by
  have typed (name : String) : Untyped name ↔ resolve name.toList = some (.str name.toList) := by
    rw [resolve_eq_str_iff, Untyped]
    simp
  rw [typed first, typed second]
  cases constructed : (Flow.mapping gap fields).tree.construct with
  | none =>
    obtain ⟨e, failed⟩ := loader.refuses gap fields constructed
    rw [constructed] at made
    rw [failed]
    constructor
    · intro loaded
      cases loaded
    · intro texts
      rw [texts.1, texts.2] at made
      cases made
  | some data =>
    rw [constructed, Option.map_some] at made
    rw [loader.loads gap fields data constructed]
    cases resolved : resolve first.toList with
    | none =>
      rw [resolved] at made
      cases made
    | some one =>
      cases resolved' : resolve second.toList with
      | none =>
        rw [resolved, resolved'] at made
        cases made
      | some two =>
        rw [resolved, resolved'] at made
        have same : Value.ofData data = form (Value.ofData one) (Value.ofData two) := Option.some.inj made
        rw [same, Except.ok.injEq, injective, ofData_eq_str_iff, ofData_eq_str_iff, Option.some.injEq, Option.some.injEq]

theorem serviceAccount_construct (name namesp : Plain) :
    (Flow.mapping (line 4) (serviceAccountFlow name namesp)).tree.construct.map Value.ofData =
      (resolve name.chars).bind fun data => (resolve namesp.chars).map fun data' =>
        serviceAccount (Value.ofData data) (Value.ofData data') := by
  simp only [serviceAccountFlow, Flow.tree, Fields.trees, Tree.construct, constructFields, literal]
  cases resolve name.chars with
  | none => rfl
  | some data =>
    cases resolve namesp.chars with
    | none => rfl
    | some data' => rfl

theorem clusterRoleBinding_construct (name namesp : Plain) :
    (Flow.mapping (line 4) (clusterRoleBindingFlow name namesp)).tree.construct.map Value.ofData =
      (resolve name.chars).bind fun data => (resolve namesp.chars).map fun data' =>
        clusterRoleBinding (Value.ofData data) (Value.ofData data') := by
  simp only [clusterRoleBindingFlow, Flow.tree, Fields.trees, Items.trees, Tree.construct, constructFields,
    constructItems, literal]
  cases resolve name.chars with
  | none => rfl
  | some data =>
    cases resolve namesp.chars with
    | none => rfl
    | some data' => rfl

theorem secret_construct (token name : Plain) :
    (Flow.mapping (line 4) (secretFlow token name)).tree.construct.map Value.ofData =
      (resolve token.chars).bind fun data => (resolve name.chars).map fun data' =>
        secret (Value.ofData data) (Value.ofData data') := by
  simp only [secretFlow, Flow.tree, Fields.trees, Tree.construct, constructFields, literal]
  cases resolve token.chars with
  | none => rfl
  | some data =>
    cases resolve name.chars with
    | none => rfl
    | some data' => rfl

theorem ValidName.token {name : String} (valid : ValidName name) : ValidName (name ++ "-token") where
  chars := by
    rw [String.toList_append, List.all_append, valid.chars]
    decide
  first := by
    have first := valid.first
    rw [String.toList_append]
    cases found : name.toList with
    | nil =>
      rw [found] at first
      cases first
    | cons c rest =>
      rw [found] at first
      exact first
  last := by
    have behind : "-token".toList.getLast? = some 'n' := by decide
    rw [String.toList_append, List.getLast?_append, behind]
    rfl

theorem untyped_token (name : String) : Untyped (name ++ "-token") := by
  have behind : "-token".toList = ['-', 't', 'o', 'k', 'e', 'n'] := by decide
  apply implicitTag_hyphened
  · rw [String.toList_append, behind]
    simp
  · rw [String.toList_append, behind]
    simp

/-- The three payloads are loaded as the mappings of their templates, with the names as texts. -/
structure RoundTrips (load : String → Except Exception Value) (name namesp : String) : Prop where
  serviceAccount : load (getServiceAccountPayload name namesp) = .ok (serviceAccount (.str name) (.str namesp))
  clusterRoleBinding :
    load (getClusterRoleBindingPayload name namesp) = .ok (clusterRoleBinding (.str name) (.str namesp))
  secret : ∃ payload, getSecretPayload (.str name) = .ok payload ∧
    load payload = .ok (secret (.str (name ++ "-token")) (.str name))

section

variable {load : String → Except Exception Value} {name namesp : String}

theorem serviceAccount_loads_iff (loader : SafeLoader load) (valid : ValidName name) (valid' : ValidName namesp) :
    load (getServiceAccountPayload name namesp) = .ok (serviceAccount (.str name) (.str namesp)) ↔
      Untyped name ∧ Untyped namesp := by
  rw [serviceAccount_text valid valid']
  apply loader.loads_iff serviceAccount
  · simp [serviceAccount]
  · exact serviceAccount_construct valid.scalar valid'.scalar

theorem clusterRoleBinding_loads_iff (loader : SafeLoader load) (valid : ValidName name) (valid' : ValidName namesp) :
    load (getClusterRoleBindingPayload name namesp) = .ok (clusterRoleBinding (.str name) (.str namesp)) ↔
      Untyped name ∧ Untyped namesp := by
  rw [clusterRoleBinding_text valid valid']
  apply loader.loads_iff clusterRoleBinding
  · simp [clusterRoleBinding]
  · exact clusterRoleBinding_construct valid.scalar valid'.scalar

theorem secret_loads_iff (loader : SafeLoader load) (valid : ValidName name) :
    (∃ payload, getSecretPayload (.str name) = .ok payload ∧
      load payload = .ok (secret (.str (name ++ "-token")) (.str name))) ↔ Untyped name := by
  have payload : getSecretPayload (.str name) = .ok (secretTemplate (name ++ "-token") name) := rfl
  have loads : load (secretTemplate (name ++ "-token") name) = .ok (secret (.str (name ++ "-token")) (.str name)) ↔
      Untyped (name ++ "-token") ∧ Untyped name := by
    rw [secret_text valid.token valid]
    apply loader.loads_iff secret
    · simp [secret]
    · exact secret_construct valid.token.scalar valid.scalar
  have both : Untyped name ↔ Untyped (name ++ "-token") ∧ Untyped name := (and_iff_right (untyped_token name)).symm
  rw [both, ← loads, payload]
  constructor
  · intro loaded
    obtain ⟨text, same, loaded⟩ := loaded
    rw [Except.ok.inj same]
    exact loaded
  · intro loaded
    exact ⟨_, rfl, loaded⟩

/-- The payloads make the round trip exactly if the resolver finds no type in either name. -/
theorem roundTrips_iff (loader : SafeLoader load) (valid : ValidName name) (valid' : ValidName namesp) :
    RoundTrips load name namesp ↔ Untyped name ∧ Untyped namesp := by
  constructor
  · intro trip
    exact (serviceAccount_loads_iff loader valid valid').mp trip.serviceAccount
  · intro untyped
    constructor
    · exact (serviceAccount_loads_iff loader valid valid').mpr untyped
    · exact (clusterRoleBinding_loads_iff loader valid valid').mpr untyped
    · exact (secret_loads_iff loader valid).mpr untyped.1

end

theorem roundTrips_default : RoundTrips loadFlow "token-1a2b3c" "default" :=
  (roundTrips_iff safeLoader_loadFlow ⟨by decide, by decide, by decide⟩ ⟨by decide, by decide, by decide⟩).mpr
    ⟨by decide, by decide⟩

/-- A namespace of digits is loaded as a number. -/
theorem digits_retyped : ¬ ∀ load, SafeLoader load → ∀ name namesp, ValidName name → ValidName namesp →
    RoundTrips load name namesp := by
  intro trips
  have trip := trips loadFlow safeLoader_loadFlow "token-1a2b3c" "123" ⟨by decide, by decide, by decide⟩
    ⟨by decide, by decide, by decide⟩
  have untyped := (serviceAccount_loads_iff safeLoader_loadFlow ⟨by decide, by decide, by decide⟩
    ⟨by decide, by decide, by decide⟩).mp trip.serviceAccount
  revert untyped
  decide

/-- With the names as texts, the definition of the service account has them in its metadata. -/
theorem RoundTrips.metadata {load : String → Except Exception Value} {name namesp : String}
    (trip : RoundTrips load name namesp) :
    (resourceDefinitionFromPayload load (getServiceAccountPayload name namesp)).map (·.metadata) =
      .ok (.dict [("name", .str name), ("namespace", .str namesp)]) := by
  rw [resourceDefinitionFromPayload, trip.serviceAccount]
  rfl

end CloudifyKubernetes
