import Mathlib.Data.Rat.Defs
import CloudifyKubernetes.Collections.OrderedDict
import CloudifyKubernetes.Collections.Text
import CloudifyKubernetes.Python.Exception

namespace CloudifyKubernetes

open Collections

/-- The Python values that definitions, options and API responses are made of. An
    instance of a client class is its class name with its `vars()`. -/
inductive Value
  | none
  | bool (value : Bool)
  | int (value : Int)
  | float (value : Rat) (text : String)
  | str (text : String)
  | datetime (text literal : String)
  | list (elements : List Value)
  | dict (entries : List (String × Value))
  | object (cls : String) (attributes : List (String × Value))
  deriving Repr

abbrev Dict := OrderedDict String Value

namespace Value

def truthy : Value → Bool
  | none => false
  | bool value => value
  | int value => value ≠ 0
  | float value _ => value ≠ 0
  | str text => text ≠ ""
  | datetime _ _ => true
  | list elements => !elements.isEmpty
  | dict entries => !entries.isEmpty
  | object _ _ => true

def isNone : Value → Bool
  | none => true
  | _ => false

def number? : Value → Option Rat
  | bool value => some (if value then 1 else 0)
  | int value => some value
  | float value _ => some value
  | _ => Option.none

mutual

/-- `left == right`. Dictionaries compare as maps, whatever the order of their keys. -/
def eq : Value → Value → Bool
  | none, none => true
  | str left, str right => left == right
  | datetime left _, datetime right _ => left == right
  | list left, list right => elementsEq left right
  | dict left, dict right => left.length == right.length && entriesIn left right
  | object cls left, object cls' right =>
    cls == cls' && (left.length == right.length && entriesIn left right)
  | left, right =>
    match left.number?, right.number? with
    | some x, some y => x == y
    | _, _ => false

def elementsEq : List Value → List Value → Bool
  | [], [] => true
  | x :: xs, y :: ys => eq x y && elementsEq xs ys
  | _, _ => false

def entriesIn : List (String × Value) → List (String × Value) → Bool
  | [], _ => true
  | (key, value) :: rest, entries =>
    entries.any (fun e => e.1 == key && eq value e.2) && entriesIn rest entries

end

mutual

theorem eq_refl : (value : Value) → value.eq value = true
  | none => rfl
  | bool value => by simp [eq, number?]
  | int value => by simp [eq, number?]
  | float value text => by simp [eq, number?]
  | str text => by simp [eq]
  | datetime text literal => by simp [eq]
  | list elements => by rw [eq]; exact elementsEq_refl elements
  | dict entries => by
    rw [eq, entriesIn_refl entries entries fun _ member => member]
    simp
  | object cls attributes => by
    rw [eq, entriesIn_refl attributes attributes fun _ member => member]
    simp

theorem elementsEq_refl : (elements : List Value) → elementsEq elements elements = true
  | [] => rfl
  | value :: rest => by rw [elementsEq, eq_refl value, elementsEq_refl rest, Bool.and_self]

theorem entriesIn_refl : (part entries : List (String × Value)) →
    (∀ e ∈ part, e ∈ entries) → entriesIn part entries = true
  | [], _, _ => rfl
  | (key, value) :: rest, entries, members => by
    have here : (key, value) ∈ entries := members _ List.mem_cons_self
    have same : (key == key && eq value value) = true := by rw [eq_refl value]; simp
    rw [entriesIn, List.any_eq_true.mpr ⟨(key, value), here, same⟩,
      entriesIn_refl rest entries fun e member => members e (List.mem_cons_of_mem _ member),
      Bool.and_self]

end

theorem eq_str_iff {value : Value} {text : String} :
    value.eq (.str text) = true ↔ value = .str text := by
  cases value <;> simp [eq, number?]

def escape (mark c : Char) : List Char :=
  if c = '\\' then ['\\', '\\']
  else if c = mark then ['\\', c]
  else if c = '\n' then ['\\', 'n']
  else if c = '\r' then ['\\', 'r']
  else if c = '\t' then ['\\', 't']
  else if c.toNat < 32 ∨ c.toNat = 127 then
    ['\\', 'x', Nat.digitChar (c.toNat / 16), Nat.digitChar (c.toNat % 16)]
  else [c]

/-- `repr` of a string: single quotes unless the text has one and no double quote.
    Characters beyond ASCII are taken as printable. -/
def quote (text : String) : String :=
  let single := Char.ofNat 39
  let double := Char.ofNat 34
  let mark := if single ∈ text.toList ∧ double ∉ text.toList then double else single
  String.ofList (mark :: text.toList.flatMap (escape mark) ++ [mark])

mutual

def repr : Value → String
  | none => "None"
  | bool value => if value then "True" else "False"
  | int value => toString value
  | float _ text => text
  | str text => quote text
  | datetime _ literal => literal
  | list elements => "[" ++ ", ".intercalate (elementsRepr elements) ++ "]"
  | dict entries => "\x7b" ++ ", ".intercalate (entriesRepr entries) ++ "\x7d"
  | object _ attributes => "\x7b" ++ ", ".intercalate (entriesRepr attributes) ++ "\x7d"

def elementsRepr : List Value → List String
  | [] => []
  | value :: rest => repr value :: elementsRepr rest

def entriesRepr : List (String × Value) → List String
  | [] => []
  | (key, value) :: rest => (quote key ++ ": " ++ repr value) :: entriesRepr rest

end

def toText : Value → String
  | str text => text
  | datetime text _ => text
  | value => repr value

def get (value : Value) (key : String) (default : Value) : Except Exception Value :=
  match value with
  | dict entries => .ok ((entries.lookup key).getD default)
  | _ => .error ⟨.attributeError, "object has no attribute get"⟩

def index (value : Value) (key : String) : Except Exception Value :=
  match value with
  | dict entries =>
    match entries.lookup key with
    | some found => .ok found
    | Option.none => .error ⟨.keyError, quote key⟩
  | _ => .error ⟨.typeError, "object is not subscriptable by a string"⟩

mutual

/-- What `JsonCleanuper` leaves of a value: a leaf that JSON lacks becomes its text. A
    falsy value is left alone, so a zero stays a float. -/
def clean : Value → Value
  | float value text => if value = 0 then float value text else str text
  | datetime text _ => str text
  | object cls attributes => str (repr (object cls attributes))
  | list elements => list (cleanElements elements)
  | dict entries => dict (cleanEntries entries)
  | value => value

def cleanElements : List Value → List Value
  | [] => []
  | value :: rest => clean value :: cleanElements rest

def cleanEntries : List (String × Value) → List (String × Value)
  | [] => []
  | (key, value) :: rest => (key, clean value) :: cleanEntries rest

end

theorem lookup_cleanEntries (key : String) : (entries : List (String × Value)) →
    (cleanEntries entries).lookup key = (entries.lookup key).map clean
  | [] => rfl
  | (k, value) :: rest => by
    rw [cleanEntries]
    by_cases here : key = k
    · subst here
      simp
    · rw [lookup_cons_ne _ _ here, lookup_cons_ne _ _ here, lookup_cleanEntries key rest]

theorem isNone_clean (value : Value) : value.clean.isNone = value.isNone := by
  cases value with
  | float value text =>
    rw [clean]
    split <;> rfl
  | _ => rfl

end Value

end CloudifyKubernetes
