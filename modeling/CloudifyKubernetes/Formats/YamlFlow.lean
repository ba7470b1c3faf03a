import CloudifyKubernetes.Collections.OrderedDict
import CloudifyKubernetes.Formats.YamlScalars

namespace Formats

namespace Yaml

open Collections

def quoteMark : Char := Char.ofNat 39

def isBlank (c : Char) : Bool := c = ' ' || c = '\n'

def isQuotable (c : Char) : Bool := c ≠ quoteMark && 32 ≤ c.toNat && c.toNat < 127

def isPlainChar (c : Char) : Bool := c.isAlphanum || c = '_' || c = '-'

structure Gap where
  chars : List Char
  blank : chars.all isBlank = true

structure Quoted where
  chars : List Char
  quotable : chars.all isQuotable = true

structure Key extends Quoted where
  short : chars.length ≤ 1000

structure Plain where
  chars : List Char
  opens : chars.head?.any Char.isAlphanum = true
  plain : chars.all isPlainChar = true

mutual

inductive Flow
  | quoted (text : Quoted)
  | plain (text : Plain)
  | sequence (gap : Gap) (items : Items)
  | mapping (gap : Gap) (fields : Fields)

inductive Items
  | nil
  | last (item : Flow) (behind : Gap)
  | more (item : Flow) (behind gap : Gap) (rest : Items)

inductive Fields
  | nil
  | last (key : Key) (before : Gap) (value : Flow) (behind : Gap)
  | more (key : Key) (before : Gap) (value : Flow) (behind gap : Gap) (rest : Fields)

end

def Key.text (key : Key) : List Char := quoteMark :: (key.chars ++ [quoteMark, ':', ' '])

mutual

def Flow.text : Flow → List Char
  | .quoted text => quoteMark :: (text.chars ++ [quoteMark])
  | .plain text => text.chars
  | .sequence gap items => '[' :: (gap.chars ++ (items.text ++ [']']))
  | .mapping gap fields => '{' :: (gap.chars ++ (fields.text ++ ['}']))

def Items.text : Items → List Char
  | .nil => []
  | .last item behind => item.text ++ behind.chars
  | .more item behind gap rest => item.text ++ (behind.chars ++ ',' :: (gap.chars ++ rest.text))

def Fields.text : Fields → List Char
  | .nil => []
  | .last key before value behind => key.text ++ (before.chars ++ (value.text ++ behind.chars))
  | .more key before value behind gap rest =>
    key.text ++ (before.chars ++ (value.text ++ (behind.chars ++ ',' :: (gap.chars ++ rest.text))))

end

inductive Tree
  | quoted (text : List Char)
  | plain (text : List Char)
  | sequence (items : List Tree)
  | mapping (fields : List (List Char × Tree))

mutual

def Flow.tree : Flow → Tree
  | .quoted text => .quoted text.chars
  | .plain text => .plain text.chars
  | .sequence _ items => .sequence items.trees
  | .mapping _ fields => .mapping fields.trees

def Items.trees : Items → List Tree
  | .nil => []
  | .last item _ => [item.tree]
  | .more item _ _ rest => item.tree :: rest.trees

def Fields.trees : Fields → List (List Char × Tree)
  | .nil => []
  | .last key _ value _ => [(key.chars, value.tree)]
  | .more key _ value _ _ rest => (key.chars, value.tree) :: rest.trees

end

mutual

def Tree.construct : Tree → Option Data
  | .quoted text => some (.str text)
  | .plain text => resolve text
  | .sequence items => (constructItems items).map .list
  | .mapping fields => (constructFields fields).map fun entries => .dict (OrderedDict.ofEntries entries).items

def constructItems : List Tree → Option (List Data)
  | [] => some []
  | item :: rest => do
    let first ← item.construct
    let others ← constructItems rest
    return first :: others

def constructFields : List (List Char × Tree) → Option (List (List Char × Data))
  | [] => some []
  | (key, value) :: rest => do
    let first ← value.construct
    let others ← constructFields rest
    return (key, first) :: others

end

def skipBlank (text : List Char) : List Char := text.dropWhile isBlank

def readQuoted (text : List Char) : Option (List Char × List Char) :=
  match text.dropWhile (· ≠ quoteMark) with
  | [] => none
  | _ :: rest => some (text.takeWhile (· ≠ quoteMark), rest)

def readPlain (text : List Char) : Option (Tree × List Char) :=
  if (text.takeWhile isPlainChar).isEmpty then none
  else some (.plain (text.takeWhile isPlainChar), text.dropWhile isPlainChar)

def readKey : List Char → Option (List Char × List Char)
  | [] => none
  | c :: rest =>
    if c = quoteMark then
      match readQuoted rest with
      | some (key, ':' :: ' ' :: rest) => some (key, skipBlank rest)
      | _ => none
    else none

def readSeparator (closing : Char) (text : List Char) : Option (Bool × List Char) :=
  match skipBlank text with
  | [] => none
  | c :: rest =>
    if c = closing then some (true, rest)
    else if c = ',' then some (false, skipBlank rest)
    else none

mutual

def read : Nat → List Char → Option (Tree × List Char)
  | 0, _ => none
  | _ + 1, [] => none
  | fuel + 1, c :: rest =>
    if c = quoteMark then (readQuoted rest).map fun (text, rest) => (.quoted text, rest)
    else if c = '[' then (readItems fuel (skipBlank rest)).map fun (items, rest) => (.sequence items, rest)
    else if c = '{' then (readFields fuel (skipBlank rest)).map fun (fields, rest) => (.mapping fields, rest)
    else readPlain (c :: rest)

def readItems : Nat → List Char → Option (List Tree × List Char)
  | 0, _ => none
  | _ + 1, [] => none
  | fuel + 1, c :: rest =>
    if c = ']' then some ([], rest)
    else do
      let (item, rest) ← read fuel (c :: rest)
      let (ended, rest) ← readSeparator ']' rest
      if ended then return ([item], rest)
      else
        let (items, rest) ← readItems fuel rest
        return (item :: items, rest)

def readFields : Nat → List Char → Option (List (List Char × Tree) × List Char)
  | 0, _ => none
  | _ + 1, [] => none
  | fuel + 1, c :: rest =>
    if c = '}' then some ([], rest)
    else do
      let (key, rest) ← readKey (c :: rest)
      let (value, rest) ← read fuel rest
      let (ended, rest) ← readSeparator '}' rest
      if ended then return ([(key, value)], rest)
      else
        let (fields, rest) ← readFields fuel rest
        return ((key, value) :: fields, rest)

end

def endsPlain : List Char → Bool
  | [] => true
  | c :: _ => !isPlainChar c

def opensNode : List Char → Bool
  | [] => false
  | c :: _ => !isBlank c && c ≠ ']' && c ≠ '}'

theorem skipBlank_gap (gap : Gap) (text : List Char) : skipBlank (gap.chars ++ text) = skipBlank text := by
  rw [skipBlank, skipBlank, List.dropWhile_append_of_pos]
  intro c member
  exact List.all_eq_true.mp gap.blank c member

theorem skipBlank_of_opens {text : List Char} (opens : opensNode text = true) : skipBlank text = text := by
  cases text with
  | nil => rfl
  | cons c rest =>
    rw [opensNode, Bool.and_eq_true, Bool.and_eq_true, Bool.not_eq_true'] at opens
    rw [skipBlank, List.dropWhile_cons, if_neg]
    simp [opens.1.1]

theorem opensNode_append {text : List Char} (opens : opensNode text = true) (rest : List Char) :
    opensNode (text ++ rest) = true := by
  cases text with
  | nil => cases opens
  | cons c tail => exact opens

theorem endsPlain_gap (gap : Gap) {rest : List Char} (ends : endsPlain rest = true) :
    endsPlain (gap.chars ++ rest) = true := by
  cases found : gap.chars with
  | nil => exact ends
  | cons c tail =>
    have blank := gap.blank
    rw [found, List.all_cons, Bool.and_eq_true, isBlank, Bool.or_eq_true, decide_eq_true_iff, decide_eq_true_iff] at blank
    rcases blank.1 with rfl | rfl <;> rfl

theorem readQuoted_text (quoted : Quoted) (rest : List Char) :
    readQuoted (quoted.chars ++ quoteMark :: rest) = some (quoted.chars, rest) := by
  have inside : ∀ c ∈ quoted.chars, decide (c ≠ quoteMark) = true := by
    intro c member
    have quotable := List.all_eq_true.mp quoted.quotable c member
    rw [isQuotable, Bool.and_eq_true, Bool.and_eq_true] at quotable
    exact quotable.1.1
  rw [readQuoted, List.dropWhile_append_of_pos inside, List.takeWhile_append_of_pos inside]
  simp

theorem readPlain_text (plain : Plain) {rest : List Char} (ends : endsPlain rest = true) :
    readPlain (plain.chars ++ rest) = some (.plain plain.chars, rest) := by
  have inside : ∀ c ∈ plain.chars, isPlainChar c = true := List.all_eq_true.mp plain.plain
  have front : rest.takeWhile isPlainChar = [] := by
    cases rest with
    | nil => rfl
    | cons c tail =>
      rw [endsPlain, Bool.not_eq_true'] at ends
      rw [List.takeWhile_cons, if_neg (by simp [ends])]
  have behind : rest.dropWhile isPlainChar = rest := by
    cases rest with
    | nil => rfl
    | cons c tail =>
      rw [endsPlain, Bool.not_eq_true'] at ends
      rw [List.dropWhile_cons, if_neg (by simp [ends])]
  have some : plain.chars.isEmpty = false := by
    cases found : plain.chars with
    | nil =>
      have opens := plain.opens
      rw [found] at opens
      cases opens
    | cons c tail => rfl
  rw [readPlain, List.takeWhile_append_of_pos inside, List.dropWhile_append_of_pos inside, front, behind,
    List.append_nil, some]
  rfl

theorem readKey_text (key : Key) (gap : Gap) {text : List Char} (opens : opensNode text = true) :
    readKey (key.text ++ (gap.chars ++ text)) = some (key.chars, text) := by
  have whole : key.text ++ (gap.chars ++ text) =
      quoteMark :: (key.chars ++ quoteMark :: ':' :: ' ' :: (gap.chars ++ text)) := by
    simp [Key.text]
  rw [whole, readKey, if_pos rfl, readQuoted_text key.toQuoted]
  simp only
  rw [skipBlank_gap, skipBlank_of_opens opens]

theorem opensNode_alphanum {c : Char} (alphanum : c.isAlphanum = true) (rest : List Char) :
    opensNode (c :: rest) = true ∧ c ≠ quoteMark ∧ c ≠ '[' ∧ c ≠ '{' := by
  have other {d : Char} (not : d.isAlphanum = false) : c ≠ d := by
    intro same
    rw [same, not] at alphanum
    cases alphanum
  refine ⟨?_, other (by decide), other (by decide), other (by decide)⟩
  simp [opensNode, isBlank, other (show ' '.isAlphanum = false by decide),
    other (show '\n'.isAlphanum = false by decide), other (show ']'.isAlphanum = false by decide),
    other (show '}'.isAlphanum = false by decide)]

theorem Plain.cons (plain : Plain) : ∃ c tail, plain.chars = c :: tail ∧ c.isAlphanum = true := by
  cases found : plain.chars with
  | nil =>
    have opens := plain.opens
    rw [found] at opens
    cases opens
  | cons c tail =>
    have opens := plain.opens
    rw [found] at opens
    exact ⟨c, tail, rfl, opens⟩

theorem Flow.opens (flow : Flow) : opensNode flow.text = true := by
  cases flow with
  | quoted text =>
    rw [Flow.text, opensNode]
    decide
  | plain text =>
    obtain ⟨c, tail, same, alphanum⟩ := text.cons
    rw [Flow.text, same]
    exact (opensNode_alphanum alphanum tail).1
  | sequence gap items =>
    rw [Flow.text, opensNode]
    decide
  | mapping gap fields =>
    rw [Flow.text, opensNode]
    decide

theorem Items.skip (items : Items) (rest : List Char) :
    skipBlank (items.text ++ ']' :: rest) = items.text ++ ']' :: rest := by
  cases items with
  | nil => rfl
  | last item behind => exact skipBlank_of_opens (opensNode_append (opensNode_append item.opens _) _)
  | more item behind gap others => exact skipBlank_of_opens (opensNode_append (opensNode_append item.opens _) _)

theorem Key.opens (key : Key) : opensNode key.text = true := by
  rw [Key.text, opensNode]
  decide

theorem Fields.skip (fields : Fields) (rest : List Char) :
    skipBlank (fields.text ++ '}' :: rest) = fields.text ++ '}' :: rest := by
  cases fields with
  | nil => rfl
  | last key before value behind => exact skipBlank_of_opens (opensNode_append (opensNode_append key.opens _) _)
  | more key before value behind gap others =>
    exact skipBlank_of_opens (opensNode_append (opensNode_append key.opens _) _)

theorem readSeparator_closing {closing : Char} (bracket : closing = ']' ∨ closing = '}') (gap : Gap) (rest : List Char) :
    readSeparator closing (gap.chars ++ closing :: rest) = some (true, rest) := by
  rw [readSeparator, skipBlank_gap]
  rcases bracket with rfl | rfl
  · simp [skipBlank, isBlank]
  · simp [skipBlank, isBlank]

theorem readSeparator_comma {closing : Char} (bracket : closing = ']' ∨ closing = '}') (behind gap : Gap)
    (rest : List Char) :
    readSeparator closing (behind.chars ++ ',' :: (gap.chars ++ rest)) = some (false, skipBlank rest) := by
  have comma : skipBlank (',' :: (gap.chars ++ rest)) = ',' :: (gap.chars ++ rest) := rfl
  rw [readSeparator, skipBlank_gap, comma]
  rcases bracket with rfl | rfl
  · simp [skipBlank_gap]
  · simp [skipBlank_gap]

theorem readItems_of_opens (fuel : Nat) {text : List Char} (opens : opensNode text = true) :
    readItems (fuel + 1) text = (do
      let (item, rest) ← read fuel text
      let (ended, rest) ← readSeparator ']' rest
      if ended then return ([item], rest)
      else
        let (items, rest) ← readItems fuel rest
        return (item :: items, rest)) := by
  cases text with
  | nil => cases opens
  | cons c tail =>
    simp only [opensNode, Bool.and_eq_true, decide_eq_true_iff] at opens
    rw [readItems, if_neg opens.1.2]

theorem readFields_of_opens (fuel : Nat) {text : List Char} (opens : opensNode text = true) :
    readFields (fuel + 1) text = (do
      let (key, rest) ← readKey text
      let (value, rest) ← read fuel rest
      let (ended, rest) ← readSeparator '}' rest
      if ended then return ([(key, value)], rest)
      else
        let (fields, rest) ← readFields fuel rest
        return ((key, value) :: fields, rest)) := by
  cases text with
  | nil => cases opens
  | cons c tail =>
    simp only [opensNode, Bool.and_eq_true, decide_eq_true_iff] at opens
    rw [readFields, if_neg opens.2]

mutual

/-- The induction is on the document, and each level of it costs the reader less than its length. -/
theorem read_text : (flow : Flow) → (fuel : Nat) → (rest : List Char) → flow.text.length ≤ fuel →
    endsPlain rest = true → read fuel (flow.text ++ rest) = some (flow.tree, rest)
  | .quoted text, 0, rest, enough, _ => by simp [Flow.text] at enough
  | .quoted text, fuel + 1, rest, _, _ => by
    have whole : (Flow.quoted text).text ++ rest = quoteMark :: (text.chars ++ quoteMark :: rest) := by
      simp [Flow.text]
    rw [whole, read, if_pos rfl, readQuoted_text]
    rfl
  | .plain text, 0, rest, enough, _ => by
    obtain ⟨c, tail, same, _⟩ := text.cons
    simp [Flow.text, same] at enough
  | .plain text, fuel + 1, rest, _, ends => by
    obtain ⟨c, tail, same, alphanum⟩ := text.cons
    obtain ⟨_, quote, bracket, brace⟩ := opensNode_alphanum alphanum tail
    have plain := readPlain_text text ends
    rw [same] at plain
    rw [Flow.text, same, List.cons_append, read, if_neg quote, if_neg bracket, if_neg brace, Flow.tree, same]
    exact plain
  | .sequence gap items, 0, rest, enough, _ => by simp [Flow.text] at enough
  | .sequence gap items, fuel + 1, rest, enough, _ => by
    have whole : (Flow.sequence gap items).text ++ rest = '[' :: (gap.chars ++ (items.text ++ ']' :: rest)) := by
      simp [Flow.text]
    have inside : items.text.length + 1 ≤ fuel := by
      simp only [Flow.text, List.length_cons, List.length_append, List.length_nil] at enough
      omega
    rw [whole, read, if_neg (by decide), if_pos rfl, skipBlank_gap, items.skip, readItems_text items fuel rest inside]
    rfl
  | .mapping gap fields, 0, rest, enough, _ => by simp [Flow.text] at enough
  | .mapping gap fields, fuel + 1, rest, enough, _ => by
    have whole : (Flow.mapping gap fields).text ++ rest = '{' :: (gap.chars ++ (fields.text ++ '}' :: rest)) := by
      simp [Flow.text]
    have inside : fields.text.length + 1 ≤ fuel := by
      simp only [Flow.text, List.length_cons, List.length_append, List.length_nil] at enough
      omega
    rw [whole, read, if_neg (by decide), if_neg (by decide), if_pos rfl, skipBlank_gap, fields.skip,
      readFields_text fields fuel rest inside]
    rfl

theorem readItems_text : (items : Items) → (fuel : Nat) → (rest : List Char) → items.text.length + 1 ≤ fuel →
    readItems fuel (items.text ++ ']' :: rest) = some (items.trees, rest)
  | items, 0, rest, enough => by omega
  | .nil, fuel + 1, rest, _ => by
    rw [Items.text, List.nil_append, readItems, if_pos rfl]
    rfl
  | .last item behind, fuel + 1, rest, enough => by
    have whole : (Items.last item behind).text ++ ']' :: rest = item.text ++ (behind.chars ++ ']' :: rest) := by
      simp [Items.text]
    have inside : item.text.length ≤ fuel := by
      simp only [Items.text, List.length_append] at enough
      omega
    rw [whole, readItems_of_opens fuel (opensNode_append item.opens _),
      read_text item fuel _ inside (endsPlain_gap behind rfl)]
    simp only [Option.bind_eq_bind, Option.bind_some, readSeparator_closing (.inl rfl)]
    rfl
  | .more item behind gap others, fuel + 1, rest, enough => by
    have whole : (Items.more item behind gap others).text ++ ']' :: rest =
        item.text ++ (behind.chars ++ ',' :: (gap.chars ++ (others.text ++ ']' :: rest))) := by
      simp [Items.text]
    have inside : item.text.length ≤ fuel ∧ others.text.length + 1 ≤ fuel := by
      simp only [Items.text, List.length_append, List.length_cons] at enough
      omega
    rw [whole, readItems_of_opens fuel (opensNode_append item.opens _),
      read_text item fuel _ inside.1 (endsPlain_gap behind rfl)]
    simp only [Option.bind_eq_bind, Option.bind_some, readSeparator_comma (.inl rfl), others.skip,
      readItems_text others fuel rest inside.2]
    rfl

theorem readFields_text : (fields : Fields) → (fuel : Nat) → (rest : List Char) → fields.text.length + 1 ≤ fuel →
    readFields fuel (fields.text ++ '}' :: rest) = some (fields.trees, rest)
  | fields, 0, rest, enough => by omega
  | .nil, fuel + 1, rest, _ => by
    rw [Fields.text, List.nil_append, readFields, if_pos rfl]
    rfl
  | .last key before value behind, fuel + 1, rest, enough => by
    have whole : (Fields.last key before value behind).text ++ '}' :: rest =
        key.text ++ (before.chars ++ (value.text ++ (behind.chars ++ '}' :: rest))) := by
      simp [Fields.text]
    have inside : value.text.length ≤ fuel := by
      simp only [Fields.text, List.length_append] at enough
      omega
    have ends : endsPlain (behind.chars ++ '}' :: rest) = true := endsPlain_gap behind rfl
    rw [whole, readFields_of_opens fuel (opensNode_append key.opens _),
      readKey_text key before (opensNode_append value.opens _)]
    simp only [Option.bind_eq_bind, Option.bind_some, read_text value fuel _ inside ends,
      readSeparator_closing (.inr rfl)]
    rfl
  | .more key before value behind gap others, fuel + 1, rest, enough => by
    have whole : (Fields.more key before value behind gap others).text ++ '}' :: rest = key.text ++ (before.chars ++
        (value.text ++ (behind.chars ++ ',' :: (gap.chars ++ (others.text ++ '}' :: rest))))) := by
      simp [Fields.text]
    have inside : value.text.length ≤ fuel ∧ others.text.length + 1 ≤ fuel := by
      simp only [Fields.text, List.length_append, List.length_cons] at enough
      omega
    have ends : endsPlain (behind.chars ++ ',' :: (gap.chars ++ (others.text ++ '}' :: rest))) = true :=
      endsPlain_gap behind rfl
    rw [whole, readFields_of_opens fuel (opensNode_append key.opens _),
      readKey_text key before (opensNode_append value.opens _)]
    simp only [Option.bind_eq_bind, Option.bind_some, read_text value fuel _ inside.1 ends,
      readSeparator_comma (.inr rfl), others.skip, readFields_text others fuel rest inside.2]
    rfl

end

def parse (text : List Char) : Option Tree :=
  match read text.length text with
  | some (tree, []) => some tree
  | _ => none

theorem parse_text (flow : Flow) : parse flow.text = some flow.tree := by
  have whole := read_text flow flow.text.length [] (Nat.le_refl _) rfl
  rw [List.append_nil] at whole
  rw [parse, whole]

end Yaml

end Formats
