import CloudifyKubernetes.Utils

namespace CloudifyKubernetes

open Collections

namespace Value

def isInt : Value → Bool
  | bool _ => true
  | int _ => true
  | _ => false

def isText : Value → Bool
  | str _ => true
  | _ => false

mutual

def cleanuped (v : Value) : Value :=
  if !v.truthy then v
  else
    match v with
    | list resource => list (cleanupedList resource)
    | dict resource => dict (cleanupedDict resource)
    | v => if !v.isInt && !v.isText then str v.toText else v

def cleanupedList : List Value → List Value
  | [] => []
  | v :: rest => cleanuped v :: cleanupedList rest

def cleanupedDict : List (String × Value) → List (String × Value)
  | [] => []
  | (k, v) :: rest => (k, cleanuped v) :: cleanupedDict rest

end

end Value

/-- What a `JsonCleanuper` is made of: a dictionary, or an object with the result of its `to_dict()`. -/
inductive Cleanable
  | dict (entries : List (String × Value))
  | model (toDict : Value)

namespace Cleanable

def resource : Cleanable → Value
  | dict entries => .dict entries
  | model toDict => toDict

def value (ob : Cleanable) : Value :=
  match ob.resource with
  | .list resource => .list (Value.cleanupedList resource)
  | .dict resource => .dict (Value.cleanupedDict resource)
  | resource => resource

end Cleanable

namespace Value

mutual

theorem cleanuped_eq : (v : Value) → v.cleanuped = v.clean
  | none => rfl
  | bool value => by cases value <;> rfl
  | int value => by simp [cleanuped, clean, isInt]
  | float value text => by
    by_cases zero : value = 0 <;> simp [cleanuped, clean, truthy, isInt, isText, toText, repr, zero]
  | str text => by simp [cleanuped, clean, isText]
  | datetime text literal => rfl
  | list [] => rfl
  | list (v :: rest) => by
    have elements := cleanupedList_eq (v :: rest)
    simp [cleanuped, clean, truthy, elements]
  | dict [] => rfl
  | dict (e :: rest) => by
    have entries := cleanupedDict_eq (e :: rest)
    simp [cleanuped, clean, truthy, entries]
  | object cls attributes => rfl

theorem cleanupedList_eq : (resource : List Value) → cleanupedList resource = cleanElements resource
  | [] => rfl
  | v :: rest => by rw [cleanupedList, cleanElements, cleanuped_eq v, cleanupedList_eq rest]

theorem cleanupedDict_eq : (resource : List (String × Value)) → cleanupedDict resource = cleanEntries resource
  | [] => rfl
  | (k, v) :: rest => by rw [cleanupedDict, cleanEntries, cleanuped_eq v, cleanupedDict_eq rest]

end

inductive Selector
  | key (k : String)
  | index (i : Nat)

def select : List Selector → Value → Option Value
  | [], v => some v
  | .key k :: path, dict entries => (entries.lookup k).bind (select path)
  | .index i :: path, list elements => elements[i]?.bind (select path)
  | _, _ => Option.none

inductive Outline
  | leaf
  | length (n : Nat)
  | keys (ks : List String)

def outline : Value → Outline
  | list elements => .length elements.length
  | dict entries => .keys (entries.map Prod.fst)
  | _ => .leaf

theorem cleanElements_eq_map (elements : List Value) : cleanElements elements = elements.map clean := by
  induction elements with
  | nil => rfl
  | cons v rest ih => rw [cleanElements, ih, List.map_cons]

theorem keys_cleanEntries (entries : List (String × Value)) :
    (cleanEntries entries).map Prod.fst = entries.map Prod.fst := by
  induction entries with
  | nil => rfl
  | cons e rest ih =>
    obtain ⟨k, v⟩ := e
    rw [cleanEntries, List.map_cons, List.map_cons, ih]

theorem outline_clean (v : Value) : v.clean.outline = v.outline := by
  cases v with
  | float value text =>
    rw [clean]
    split <;> rfl
  | list elements => rw [clean, outline, outline, cleanElements_eq_map, List.length_map]
  | dict entries => rw [clean, outline, outline, keys_cleanEntries]
  | _ => rfl

theorem select_clean (path : List Selector) (v : Value) : select path v.clean = (select path v).map clean := by
  induction path generalizing v with
  | nil => rfl
  | cons selector path ih =>
    cases selector with
    | key k =>
      cases v with
      | dict entries =>
        rw [clean, select, select, lookup_cleanEntries]
        cases entries.lookup k with
        | none => rfl
        | some found => exact ih found
      | float value text =>
        rw [clean]
        split <;> rfl
      | _ => rfl
    | index i =>
      cases v with
      | list elements =>
        rw [clean, select, select, cleanElements_eq_map, List.getElem?_map]
        cases elements[i]? with
        | none => rfl
        | some found => exact ih found
      | float value text =>
        rw [clean]
        split <;> rfl
      | _ => rfl

def isPlain : Value → Bool
  | none => true
  | v => v.isInt || v.isText

def isScalar : Value → Bool
  | float _ _ => true
  | v => v.isPlain

theorem clean_of_isPlain {v : Value} (plain : v.isPlain = true) : v.clean = v := by
  cases v with
  | none => rfl
  | bool value => rfl
  | int value => rfl
  | str text => rfl
  | _ => cases plain

theorem isScalar_clean {v : Value} (leaf : v.outline = .leaf) : v.clean.isScalar = true := by
  cases v with
  | float value text =>
    rw [clean]
    split <;> rfl
  | list elements => cases leaf
  | dict entries => cases leaf
  | _ => rfl

mutual

theorem clean_clean : (v : Value) → v.clean.clean = v.clean
  | none => rfl
  | bool value => rfl
  | int value => rfl
  | float value text => by
    by_cases zero : value = 0 <;> simp [clean, zero]
  | str text => rfl
  | datetime text literal => rfl
  | list elements => by rw [clean, clean, cleanElements_clean elements]
  | dict entries => by rw [clean, clean, cleanEntries_clean entries]
  | object cls attributes => rfl

theorem cleanElements_clean : (elements : List Value) →
    cleanElements (cleanElements elements) = cleanElements elements
  | [] => rfl
  | v :: rest => by rw [cleanElements, cleanElements, clean_clean v, cleanElements_clean rest]

theorem cleanEntries_clean : (entries : List (String × Value)) →
    cleanEntries (cleanEntries entries) = cleanEntries entries
  | [] => rfl
  | (k, v) :: rest => by rw [cleanEntries, cleanEntries, clean_clean v, cleanEntries_clean rest]

end

def isContainer : Value → Bool
  | list _ => true
  | dict _ => true
  | _ => false

end Value

namespace Cleanable

open Value

theorem value_eq_clean {ob : Cleanable} (rooted : ob.resource.isContainer = true) : ob.value = ob.resource.clean := by
  rw [value]
  cases found : ob.resource with
  | list resource => simp only [clean, cleanupedList_eq]
  | dict resource => simp only [clean, cleanupedDict_eq]
  | _ =>
    rw [found] at rooted
    cases rooted

theorem jsonCleanuper_eq (entries : List (String × Value)) :
    jsonCleanuper (.dict entries) = .ok (Cleanable.dict entries).value := by
  rw [value_eq_clean rfl]
  rfl

theorem cleanup_eq (d : KubernetesResourceDefinition) : d.cleanup = (Cleanable.model d.toDict).value := by
  rw [value_eq_clean rfl]
  rfl

/-- Two trees with the same keys and lengths everywhere, of which the second is a JSON value that
    has the plain leaves of the first. -/
structure Cleaned (v cleaned : Value) : Prop where
  shape : ∀ path, (select path cleaned).map outline = (select path v).map outline
  plain : ∀ path leaf, select path v = some leaf → leaf.isPlain = true → select path cleaned = some leaf
  json : ∀ path leaf, select path cleaned = some leaf → leaf.outline = .leaf → leaf.isScalar = true

theorem clean_cleaned (v : Value) : Cleaned v v.clean where
  shape path := by
    rw [select_clean, Option.map_map]
    congr 1
    funext found
    exact outline_clean found
  plain path leaf found plain := by
    rw [select_clean, found, Option.map_some, clean_of_isPlain plain]
  json path leaf found isLeaf := by
    rw [select_clean] at found
    obtain ⟨raw, _, rfl⟩ := Option.map_eq_some_iff.mp found
    rw [outline_clean] at isLeaf
    exact isScalar_clean isLeaf

/-- Cleaning keeps the shape and leaves JSON, which it does not change any more; a definition that is
    made of what is stored is equal to it. -/
theorem value_cleaned {ob : Cleanable} (rooted : ob.resource.isContainer = true) :
    Cleaned ob.resource ob.value ∧ (∀ again : Cleanable, again.resource = ob.value → again.value = ob.value) ∧
      ∀ d : KubernetesResourceDefinition, d.toDict = ob.value → d.cleanup.eq ob.value = true := by
  have cleaned := value_eq_clean rooted
  have container : ob.value.isContainer = true := by
    rw [cleaned]
    cases found : ob.resource with
    | list resource => rfl
    | dict resource => rfl
    | _ =>
      rw [found] at rooted
      cases rooted
  have again : ∀ again : Cleanable, again.resource = ob.value → again.value = ob.value := by
    intro again same
    rw [value_eq_clean (by rw [same]; exact container), same, cleaned, clean_clean]
  refine ⟨?_, again, ?_⟩
  · rw [cleaned]
    exact clean_cleaned ob.resource
  · intro d same
    rw [cleanup_eq, again (.model d.toDict) same]
    exact eq_refl ob.value

def answered : Cleanable :=
  .model (.dict [("a", .str "b"), ("c", .list [.dict [("d", .str "f"),
    ("date", .datetime "2017-01-01 01:01:00" "datetime.datetime(2017, 1, 1, 1, 1)"), ("g", .none)], .none])])

theorem value_cleaned_answered : Cleaned answered.resource answered.value ∧
    (∀ again : Cleanable, again.resource = answered.value → again.value = answered.value) ∧
    ∀ d : KubernetesResourceDefinition, d.toDict = answered.value → d.cleanup.eq answered.value = true :=
  value_cleaned rfl

example : answered.value = .dict [("a", .str "b"), ("c", .list [.dict [("d", .str "f"),
    ("date", .str "2017-01-01 01:01:00"), ("g", .none)], .none])] := rfl

end Cleanable

end CloudifyKubernetes
