import Mathlib.Data.List.Basic

namespace Formats

namespace Yaml

inductive Tag
  | bool
  | int
  | null
  | timestamp
  | str
  deriving DecidableEq

inductive Data
  | null
  | bool (value : Bool)
  | int (value : Int)
  | date (year month day : Nat)
  | str (text : List Char)
  | list (elements : List Data)
  | dict (entries : List (List Char × Data))

def trueWords : List String := ["yes", "Yes", "YES", "true", "True", "TRUE", "on", "On", "ON"]

def falseWords : List String := ["no", "No", "NO", "false", "False", "FALSE", "off", "Off", "OFF"]

def nullWords : List String := ["null", "Null", "NULL"]

def isWord (words : List String) (text : List Char) : Bool := words.any fun word => word.toList = text

def isBinary (c : Char) : Bool := c = '0' || c = '1'

def isOctal (c : Char) : Bool := c.isDigit && c ≠ '8' && c ≠ '9'

def isHex (c : Char) : Bool := c.isDigit || ['a', 'b', 'c', 'd', 'e', 'f', 'A', 'B', 'C', 'D', 'E', 'F'].contains c

def isPart (digit : Char → Bool) (c : Char) : Bool := digit c || c = '_'

def isMarked (mark : List Char) (digit : Char → Bool) (text : List Char) : Bool :=
  mark.isPrefixOf text && !(text.drop mark.length).isEmpty && (text.drop mark.length).all (isPart digit)

def isDecimal : List Char → Bool
  | [] => false
  | c :: rest => c = '0' && rest.isEmpty || c.isDigit && c ≠ '0' && rest.all (isPart Char.isDigit)

def isInt (text : List Char) : Bool :=
  isMarked ['0', 'b'] isBinary text || isMarked ['0'] isOctal text || isDecimal text ||
    isMarked ['0', 'x'] isHex text

def isDate : List Char → Bool
  | [y₁, y₂, y₃, y₄, mark, m₁, m₂, mark', d₁, d₂] =>
    [y₁, y₂, y₃, y₄, m₁, m₂, d₁, d₂].all Char.isDigit && mark = '-' && mark' = '-'
  | _ => false

def implicitTag (text : List Char) : Tag :=
  if isWord trueWords text || isWord falseWords text then .bool
  else if isInt text then .int
  else if isWord nullWords text then .null
  else if isDate text then .timestamp
  else .str

def digitValue (c : Char) : Nat :=
  if c.isDigit then c.toNat - 48 else if c.isLower then c.toNat - 87 else c.toNat - 55

def ofDigits (base : Nat) (digits : List Char) : Nat := digits.foldl (fun n c => base * n + digitValue c) 0

def number? (base : Nat) (digits : List Char) : Option Data :=
  if digits.isEmpty then none else some (.int (ofDigits base digits))

def intValue (text : List Char) : Option Data :=
  let digits := text.filter (· ≠ '_')
  if ['0', 'b'].isPrefixOf digits then number? 2 (digits.drop 2)
  else if ['0', 'x'].isPrefixOf digits then number? 16 (digits.drop 2)
  else if ['0'].isPrefixOf digits then number? 8 digits
  else number? 10 digits

def daysIn (year month : Nat) : Nat :=
  if month = 2 then if year % 4 = 0 ∧ (year % 100 ≠ 0 ∨ year % 400 = 0) then 29 else 28
  else if month ∈ [4, 6, 9, 11] then 30 else 31

def dateValue (text : List Char) : Option Data :=
  let year := ofDigits 10 (text.take 4)
  let month := ofDigits 10 ((text.drop 5).take 2)
  let day := ofDigits 10 (text.drop 8)
  if 1 ≤ year ∧ 1 ≤ month ∧ month ≤ 12 ∧ 1 ≤ day ∧ day ≤ daysIn year month then some (.date year month day)
  else none

def resolve (text : List Char) : Option Data :=
  match implicitTag text with
  | .bool => some (.bool (isWord trueWords text))
  | .int => intValue text
  | .null => some .null
  | .timestamp => dateValue text
  | .str => some (.str text)

theorem number?_ne_str (base : Nat) (digits text : List Char) : number? base digits ≠ some (.str text) := by
  rw [number?]
  split
  · simp
  · simp

theorem intValue_ne_str (digits text : List Char) : intValue digits ≠ some (.str text) := by
  unfold intValue
  dsimp only
  split
  · exact number?_ne_str _ _ _
  · split
    · exact number?_ne_str _ _ _
    · split
      · exact number?_ne_str _ _ _
      · exact number?_ne_str _ _ _

theorem dateValue_ne_str (date text : List Char) : dateValue date ≠ some (.str text) := by
  unfold dateValue
  dsimp only
  split
  · simp
  · simp

theorem resolve_eq_str_iff (scalar text : List Char) :
    resolve scalar = some (.str text) ↔ implicitTag scalar = .str ∧ scalar = text := by
  rw [resolve]
  cases implicitTag scalar with
  | bool => simp
  | int => simp [intValue_ne_str]
  | null => simp
  | timestamp => simp [dateValue_ne_str]
  | str => simp

theorem isWord_false {words : List String} {text : List Char} {c : Char} (member : c ∈ text)
    (free : words.all (fun word => !word.toList.contains c) = true) : isWord words text = false := by
  by_contra found
  obtain ⟨word, listed, same⟩ := List.any_eq_true.mp (Bool.not_eq_false _ |>.mp found)
  have none := List.all_eq_true.mp free word listed
  rw [decide_eq_true_iff] at same
  subst same
  rw [Bool.not_eq_true', List.contains_eq_mem, decide_eq_false_iff_not] at none
  exact none member

theorem isMarked_all {mark : List Char} {digit : Char → Bool} {text : List Char} {check : Char → Bool}
    (marked : isMarked mark digit text = true) (marks : mark.all check = true)
    (digits : ∀ c, isPart digit c = true → check c = true) : ∀ c ∈ text, check c = true := by
  rw [isMarked, Bool.and_eq_true, Bool.and_eq_true] at marked
  obtain ⟨⟨front, _⟩, behind⟩ := marked
  obtain ⟨rest, rfl⟩ := List.isPrefixOf_iff_prefix.mp front
  rw [List.drop_left] at behind
  intro c member
  rcases List.mem_append.mp member with member | member
  · exact List.all_eq_true.mp marks c member
  · exact digits c (List.all_eq_true.mp behind c member)

theorem isInt_all {text : List Char} (int : isInt text = true) :
    ∀ c ∈ text, (isPart isHex c || c = 'x') = true := by
  have hexadecimal (digit : Char → Bool) (digits : ∀ c, digit c = true → isHex c = true) :
      ∀ c, isPart digit c = true → (isPart isHex c || c = 'x') = true := by
    intro c part
    rw [isPart, Bool.or_eq_true] at part
    rcases part with part | part
    · simp [isPart, digits c part]
    · simp [isPart, part]
  have decimal (c : Char) (digit : c.isDigit = true) : isHex c = true := by
    rw [isHex, digit, Bool.true_or]
  simp only [isInt, Bool.or_eq_true] at int
  rcases int with ((marked | marked) | plain) | marked
  · apply isMarked_all marked (by decide)
    apply hexadecimal
    intro c bit
    rw [isBinary, Bool.or_eq_true, decide_eq_true_iff, decide_eq_true_iff] at bit
    rcases bit with rfl | rfl <;> decide
  · apply isMarked_all marked (by decide)
    apply hexadecimal
    intro c digit
    rw [isOctal, Bool.and_eq_true, Bool.and_eq_true] at digit
    exact decimal c digit.1.1
  · cases text with
    | nil => cases plain
    | cons c rest =>
      simp only [isDecimal, Bool.or_eq_true, Bool.and_eq_true, decide_eq_true_iff] at plain
      rcases plain with ⟨rfl, alone⟩ | ⟨⟨digit, _⟩, digits⟩
      · obtain rfl := List.isEmpty_iff.mp alone
        intro d member
        rw [List.mem_singleton.mp member]
        decide
      · intro d member
        rcases List.mem_cons.mp member with rfl | member
        · simp [isPart, decimal d digit]
        · exact hexadecimal Char.isDigit decimal d (List.all_eq_true.mp digits d member)
  · apply isMarked_all marked (by decide)
    apply hexadecimal
    intro c digit
    exact digit

theorem isDate_all {text : List Char} (date : isDate text = true) : ∀ c ∈ text, (c.isDigit || c = '-') = true := by
  unfold isDate at date
  split at date
  · simp only [List.all_cons, List.all_nil, Bool.and_true, Bool.and_eq_true, decide_eq_true_iff] at date
    simp [date]
  · cases date

theorem implicitTag_hyphened {text : List Char} (hyphen : '-' ∈ text) (letter : 't' ∈ text) :
    implicitTag text = .str := by
  have int : isInt text = false := by
    by_contra int
    have digit := isInt_all (Bool.not_eq_false _ |>.mp int) 't' letter
    revert digit
    decide
  have date : isDate text = false := by
    by_contra date
    have digit := isDate_all (Bool.not_eq_false _ |>.mp date) 't' letter
    revert digit
    decide
  rw [implicitTag, isWord_false hyphen (by decide), isWord_false hyphen (by decide), int,
    isWord_false hyphen (by decide), date]
  rfl

end Yaml

end Formats
