import CloudifyKubernetes.Formats.JsonNumbers

namespace Formats

open Collections

namespace Json

inductive Reads {α : Type} (value : α) (rest : List Char) : Bool → Except ScanError (α × List Char) → Prop
  | read : Reads value rest true (.ok (value, rest))
  | refused (e : ScanError) : Reads value rest false (.error e)

theorem Reads.bind {α β : Type} {value : α} {value' : β} {rest rest' : List Char} {b b' : Bool}
    {first : Except ScanError (α × List Char)} {next : α × List Char → Except ScanError (β × List Char)}
    (reads : Reads value rest b first) (others : Reads value' rest' b' (next (value, rest))) :
    Reads value' rest' (b && b') (first >>= next) := by
  cases reads with
  | read => exact others
  | refused e => exact .refused e

theorem Reads.map {α β : Type} {value : α} {rest : List Char} {b : Bool} {f : α → β}
    {result : Except ScanError (α × List Char)} (reads : Reads value rest b result) :
    Reads (f value) rest b (result >>= fun read => pure (f read.1, read.2)) := by
  cases reads with
  | read => exact .read
  | refused e => exact .refused e

def opensValue : List Char → Bool
  | [] => false
  | c :: _ => !isSpace c && c ≠ ']' && c ≠ '}'

theorem skipSpace_of_opens {text : List Char} (opens : opensValue text = true) : skipSpace text = text := by
  cases text with
  | nil => cases opens
  | cons c rest =>
    have solid : isSpace c = false := by
      by_contra space
      simp [opensValue, space] at opens
    rw [skipSpace, List.dropWhile_cons, solid]
    rfl

theorem strip_of_opens {c : Char} {text : List Char} (opens : opensValue text = true)
    (closing : c = ']' ∨ c = '}') : strip c text = none := by
  cases text with
  | nil => rfl
  | cons d rest =>
    rw [strip, if_neg]
    rintro rfl
    rcases closing with rfl | rfl <;> simp [opensValue] at opens

theorem opensValue_append {text : List Char} (opens : opensValue text = true) (rest : List Char) :
    opensValue (text ++ rest) = true := by
  cases text with
  | nil => cases opens
  | cons c text => exact opens

/-- A way to write values, with what JSON has in common with it: the constants, and the
    quotings of some strings. -/
structure Dialect (floatRepr : String → String) where
  null : List Char
  bool : Bool → List Char
  quote : String → List Char
  shared : Bool
  quoted : String → Bool
  null_opens : opensValue null = true
  bool_opens (value : Bool) : opensValue (bool value) = true
  quote_opens (text : String) : opensValue (quote text) = true
  null_reads (fuel : Nat) (rest : List Char) :
    Reads Json.null rest shared (scanOnce floatRepr (fuel + 1) (null ++ rest))
  bool_reads (value : Bool) (fuel : Nat) (rest : List Char) :
    Reads (Json.bool value) rest shared (scanOnce floatRepr (fuel + 1) (bool value ++ rest))
  quote_reads (text : String) (fuel : Nat) (rest : List Char) :
    Reads (Json.str text) rest (quoted text) (scanOnce floatRepr (fuel + 1) (quote text ++ rest))
  key_reads (key : String) (rest : List Char) :
    Reads key (skipSpace rest) (quoted key) (scanKey (quote key ++ ':' :: rest))

variable {floatRepr : String → String} (dialect : Dialect floatRepr)

namespace Dialect

mutual

def render : Json → List Char
  | .null => dialect.null
  | .bool value => dialect.bool value
  | .int value => (toString value).toList
  | .float text => text.toList
  | .str text => dialect.quote text
  | .array elements => '[' :: renderElements elements
  | .object entries => '{' :: renderEntries entries

def renderElements : List Json → List Char
  | [] => [']']
  | [value] => render value ++ [']']
  | value :: next :: rest => render value ++ ',' :: ' ' :: renderElements (next :: rest)

def renderEntries : List (String × Json) → List Char
  | [] => ['}']
  | [(key, value)] => dialect.quote key ++ ':' :: ' ' :: (render value ++ ['}'])
  | (key, value) :: next :: rest =>
    dialect.quote key ++ ':' :: ' ' :: (render value ++ ',' :: ' ' :: renderEntries (next :: rest))

end

mutual

def isJson : Json → Bool
  | .null => dialect.shared
  | .bool _ => dialect.shared
  | .int _ => true
  | .float _ => true
  | .str text => dialect.quoted text
  | .array elements => elementsAreJson elements
  | .object entries => entriesAreJson entries

def elementsAreJson : List Json → Bool
  | [] => true
  | value :: rest => isJson value && elementsAreJson rest

def entriesAreJson : List (String × Json) → Bool
  | [] => true
  | (key, value) :: rest => dialect.quoted key && (isJson value && entriesAreJson rest)

end

end Dialect

mutual

/-- A value of the language: a float is its own shortest text, and a dictionary has each key
    once. -/
def WellFormed (floatRepr : String → String) : Json → Prop
  | .float text => floatRepr text = text ∧
      ∃ parts : NumberParts, parts.isWhole = false ∧ text = String.ofList parts.text
  | .array elements => ElementsWellFormed floatRepr elements
  | .object entries => (entries.map Prod.fst).Nodup ∧ EntriesWellFormed floatRepr entries
  | _ => True

def ElementsWellFormed (floatRepr : String → String) : List Json → Prop
  | [] => True
  | value :: rest => WellFormed floatRepr value ∧ ElementsWellFormed floatRepr rest

def EntriesWellFormed (floatRepr : String → String) : List (String × Json) → Prop
  | [] => True
  | (_, value) :: rest => WellFormed floatRepr value ∧ EntriesWellFormed floatRepr rest

end

theorem toDigits_head {n : Nat} (positive : 0 < n) : (Nat.toDigits 10 n).head? ≠ some '0' := by
  induction n using Nat.strongRecOn with
  | ind n ih =>
    rw [Nat.toDigits_eq_if (by decide)]
    split
    · simpa using Nat.pos_iff_ne_zero.mp positive
    · have smaller := ih (n / 10) (by omega) (by omega)
      have some_digit : Nat.toDigits 10 (n / 10) ≠ [] := Nat.toDigits_ne_nil
      rwa [List.head?_append_of_ne_nil _ some_digit]

def wholeParts (n : Nat) (sign : List Char) (signed : sign = [] ∨ sign = ['-']) : NumberParts where
  sign := sign
  whole := Nat.toDigits 10 n
  fraction := []
  exponent := []
  signed := signed
  digits := by
    rcases Nat.eq_zero_or_pos n with rfl | positive
    · exact .inl rfl
    · exact .inr ⟨⟨Nat.toDigits_ne_nil, fun c member => Nat.isDigit_of_mem_toDigits (by decide) (by decide) member⟩,
        toDigits_head positive⟩
  decimals := .inl rfl
  scaled := .inl rfl

def intParts (i : Int) : NumberParts :=
  wholeParts i.natAbs (if 0 ≤ i then [] else ['-']) (by split <;> simp)

theorem intParts_text (i : Int) : (intParts i).text = (toString i).toList := by
  rw [Int.toString_eq_repr, Int.repr_eq_if]
  by_cases positive : 0 ≤ i
  · have digits : i.toNat = i.natAbs := by omega
    simp [intParts, wholeParts, NumberParts.text, positive, digits]
  · have digits : (-i).toNat = i.natAbs := by omega
    simp [intParts, wholeParts, NumberParts.text, positive, digits]

theorem ofDigits_toDigits (i : Int) :
    ofDigits (if 0 ≤ i then [] else ['-']) (Nat.toDigits 10 i.natAbs) = i := by
  rw [ofDigits, Nat.ofDigitChars_ten_toDigits]
  by_cases positive : 0 ≤ i
  · rw [if_pos positive, if_pos rfl]
    omega
  · rw [if_neg positive, if_neg (List.cons_ne_nil _ _)]
    omega

theorem intParts_value (floatRepr : String → String) (i : Int) :
    (intParts i).value floatRepr = .int i := by
  have whole : (intParts i).isWhole = true := rfl
  rw [NumberParts.value, if_pos whole]
  exact congrArg Json.int (ofDigits_toDigits i)

section

variable {floatRepr : String → String} (dialect : Dialect floatRepr)

theorem NumberParts.opens (parts : NumberParts) : ∃ c behind, parts.text = c :: behind ∧ (c = '-' ∨ c.isDigit = true) := by
  obtain ⟨c, behind, starts, digit⟩ := head_of_digits parts.whole_isDigits (parts.fraction ++ parts.exponent)
  rw [NumberParts.text, starts]
  rcases parts.signed with positive | negative
  · exact ⟨c, behind, by rw [positive, List.nil_append], .inr digit⟩
  · exact ⟨'-', c :: behind, by rw [negative]; rfl, .inl rfl⟩

theorem ne_of_opens {c d : Char} (opens : c = '-' ∨ c.isDigit = true) (minus : '-' ≠ d) (other : d.isDigit = false) :
    c ≠ d := by
  rintro rfl
  rcases opens with rfl | digit
  · exact minus rfl
  · rw [other] at digit
    cases digit

theorem opensValue_text (parts : NumberParts) : opensValue parts.text = true := by
  obtain ⟨c, behind, whole, opens⟩ := parts.opens
  rw [whole]
  simp [opensValue, isSpace, ne_of_opens opens]

theorem scanOnce_text (parts : NumberParts) (fuel : Nat) {rest : List Char} (ends : endsValue rest = true) :
    scanOnce floatRepr (fuel + 1) (parts.text ++ rest) = .ok (parts.value floatRepr, rest) := by
  have atom := scanAtom_text floatRepr parts ends
  obtain ⟨c, behind, whole, opens⟩ := parts.opens
  have noQuote : c ≠ doubleQuote := ne_of_opens opens (by decide) rfl
  have noObject : c ≠ '{' := ne_of_opens opens (by decide) rfl
  have noArray : c ≠ '[' := ne_of_opens opens (by decide) rfl
  rw [whole, List.cons_append] at atom ⊢
  rw [scanOnce, if_neg noQuote, if_neg noObject, if_neg noArray, atom]

namespace Dialect

theorem render_opens {value : Json} (wellFormed : value.WellFormed floatRepr) :
    opensValue (dialect.render value) = true := by
  cases value with
  | null => exact dialect.null_opens
  | bool value => exact dialect.bool_opens value
  | int value =>
    rw [render, ← intParts_text]
    exact opensValue_text _
  | float text =>
    obtain ⟨_, parts, _, rfl⟩ := wellFormed
    rw [render, String.toList_ofList]
    exact opensValue_text parts
  | str text => exact dialect.quote_opens text
  | array elements => rfl
  | object entries => rfl

end Dialect

theorem scanDelimiter_closing {closing : Char} (bracket : closing = ']' ∨ closing = '}') (rest : List Char) :
    scanDelimiter closing (closing :: rest) = .ok (true, rest) := by
  rcases bracket with rfl | rfl <;> rfl

theorem scanDelimiter_comma {closing : Char} (bracket : closing = ']' ∨ closing = '}') {text : List Char}
    (opens : opensValue text = true) :
    scanDelimiter closing (',' :: ' ' :: text) = .ok (false, text) := by
  have skipped : skipSpace (' ' :: text) = text := skipSpace_of_opens opens
  have comma : scanDelimiter closing (',' :: ' ' :: text) = .ok (false, skipSpace (' ' :: text)) := by
    rcases bracket with rfl | rfl <;> rfl
  rw [comma, skipped]

namespace Dialect

theorem renderElements_opens {value : Json} {rest : List Json}
    (wellFormed : ElementsWellFormed floatRepr (value :: rest)) :
    opensValue (dialect.renderElements (value :: rest)) = true := by
  cases rest with
  | nil => exact opensValue_append (dialect.render_opens wellFormed.1) _
  | cons next rest => exact opensValue_append (dialect.render_opens wellFormed.1) _

theorem renderEntries_opens (key : String) (value : Json) (rest : List (String × Json)) :
    opensValue (dialect.renderEntries ((key, value) :: rest)) = true := by
  cases rest with
  | nil => exact opensValue_append (dialect.quote_opens key) _
  | cons next rest => exact opensValue_append (dialect.quote_opens key) _

mutual

theorem render_reads : (value : Json) → value.WellFormed floatRepr → ∀ (fuel : Nat) (rest : List Char),
    endsValue rest = true → 2 * (dialect.render value ++ rest).length < fuel →
    Reads value rest (dialect.isJson value) (scanOnce floatRepr fuel (dialect.render value ++ rest))
  | value, wellFormed, 0, rest, ends, enough => absurd enough (Nat.not_lt_zero _)
  | .null, wellFormed, fuel + 1, rest, ends, enough => dialect.null_reads fuel rest
  | .bool value, wellFormed, fuel + 1, rest, ends, enough => dialect.bool_reads value fuel rest
  | .int value, wellFormed, fuel + 1, rest, ends, enough => by
    rw [render, ← intParts_text, scanOnce_text _ fuel ends, intParts_value]
    exact .read
  | .float text, wellFormed, fuel + 1, rest, ends, enough => by
    obtain ⟨shortest, parts, notWhole, rfl⟩ := wellFormed
    have value : parts.value floatRepr = .float (String.ofList parts.text) := by
      rw [NumberParts.value, notWhole, shortest]
      rfl
    rw [render, String.toList_ofList, scanOnce_text parts fuel ends, value]
    exact .read
  | .str text, wellFormed, fuel + 1, rest, ends, enough => dialect.quote_reads text fuel rest
  | .array [], wellFormed, fuel + 1, rest, ends, enough => .read
  | .array (value :: others), wellFormed, fuel + 1, rest, ends, enough => by
    have opens := opensValue_append (dialect.renderElements_opens wellFormed) rest
    have elements := renderElements_reads (value :: others) (List.cons_ne_nil _ _) wellFormed fuel rest
      (by rw [render] at enough; simp only [List.cons_append, List.length_cons] at enough; omega)
    have inside : scanOnce floatRepr (fuel + 1) (dialect.render (.array (value :: others)) ++ rest) =
        scanElements floatRepr fuel (dialect.renderElements (value :: others) ++ rest) >>=
          fun read => pure (.array read.1, read.2) := by
      rw [render, List.cons_append, scanOnce, if_neg (by decide), if_neg (by decide), if_pos rfl,
        skipSpace_of_opens opens, strip_of_opens opens (.inl rfl)]
    rw [inside]
    exact elements.map
  | .object [], wellFormed, fuel + 1, rest, ends, enough => .read
  | .object (entry :: others), wellFormed, fuel + 1, rest, ends, enough => by
    have opens := opensValue_append (dialect.renderEntries_opens entry.1 entry.2 others) rest
    have entries := renderEntries_reads (entry :: others) (List.cons_ne_nil _ _) wellFormed.2 fuel rest
      (by rw [render] at enough; simp only [List.cons_append, List.length_cons] at enough; omega)
    have inside : scanOnce floatRepr (fuel + 1) (dialect.render (.object (entry :: others)) ++ rest) =
        scanMembers floatRepr fuel (dialect.renderEntries (entry :: others) ++ rest) >>=
          fun read => pure (ofPairs read.1, read.2) := by
      rw [render, List.cons_append, scanOnce, if_neg (by decide), if_pos rfl,
        skipSpace_of_opens opens, strip_of_opens opens (.inr rfl)]
    have distinct : ofPairs (entry :: others) = .object (entry :: others) :=
      congrArg Json.object (OrderedDict.items_ofEntries wellFormed.1)
    have reads := entries.map (f := ofPairs)
    rw [distinct] at reads
    rw [inside]
    exact reads

theorem renderElements_reads : (elements : List Json) → elements ≠ [] → ElementsWellFormed floatRepr elements →
    ∀ (fuel : Nat) (rest : List Char), 2 * (dialect.renderElements elements ++ rest).length + 1 < fuel →
    Reads elements rest (dialect.elementsAreJson elements)
      (scanElements floatRepr fuel (dialect.renderElements elements ++ rest))
  | elements, some_element, wellFormed, 0, rest, enough => absurd enough (Nat.not_lt_zero _)
  | [], some_element, wellFormed, fuel + 1, rest, enough => absurd rfl some_element
  | [value], some_element, wellFormed, fuel + 1, rest, enough => by
    have whole : dialect.renderElements [value] ++ rest = dialect.render value ++ ']' :: rest := by
      rw [renderElements, List.append_assoc]
      rfl
    rw [whole] at enough ⊢
    have first := render_reads value wellFormed.1 fuel (']' :: rest) rfl (by omega)
    rw [scanElements, elementsAreJson]
    refine first.bind ?_
    dsimp only
    rw [scanDelimiter_closing (.inl rfl)]
    exact .read
  | value :: next :: others, some_element, wellFormed, fuel + 1, rest, enough => by
    have whole : dialect.renderElements (value :: next :: others) ++ rest =
        dialect.render value ++ ',' :: ' ' :: (dialect.renderElements (next :: others) ++ rest) := by
      rw [renderElements, List.append_assoc]
      rfl
    have opens := opensValue_append (dialect.renderElements_opens wellFormed.2) rest
    rw [whole] at enough ⊢
    have first := render_reads value wellFormed.1 fuel
      (',' :: ' ' :: (dialect.renderElements (next :: others) ++ rest)) rfl (by omega)
    have later := renderElements_reads (next :: others) (List.cons_ne_nil _ _) wellFormed.2 fuel rest
      (by rw [List.length_append, List.length_cons, List.length_cons] at enough; omega)
    rw [scanElements, elementsAreJson]
    refine first.bind ?_
    dsimp only
    rw [scanDelimiter_comma (.inl rfl) opens]
    exact later.map (f := (value :: ·))

theorem renderEntries_reads : (entries : List (String × Json)) → entries ≠ [] → EntriesWellFormed floatRepr entries →
    ∀ (fuel : Nat) (rest : List Char), 2 * (dialect.renderEntries entries ++ rest).length + 1 < fuel →
    Reads entries rest (dialect.entriesAreJson entries)
      (scanMembers floatRepr fuel (dialect.renderEntries entries ++ rest))
  | entries, some_element, wellFormed, 0, rest, enough => absurd enough (Nat.not_lt_zero _)
  | [], some_element, wellFormed, fuel + 1, rest, enough => absurd rfl some_element
  | [(key, value)], some_element, wellFormed, fuel + 1, rest, enough => by
    have whole : dialect.renderEntries [(key, value)] ++ rest =
        dialect.quote key ++ ':' :: (' ' :: (dialect.render value ++ '}' :: rest)) := by
      rw [renderEntries]
      simp
    have opens := opensValue_append (dialect.render_opens wellFormed.1) ('}' :: rest)
    have skipped : skipSpace (' ' :: (dialect.render value ++ '}' :: rest)) = dialect.render value ++ '}' :: rest :=
      skipSpace_of_opens opens
    rw [whole] at enough ⊢
    have first := render_reads value wellFormed.1 fuel ('}' :: rest) rfl
      (by rw [List.length_append, List.length_cons, List.length_cons] at enough; omega)
    rw [scanMembers, entriesAreJson]
    refine (dialect.key_reads key _).bind ?_
    rw [skipped]
    refine first.bind ?_
    dsimp only
    rw [scanDelimiter_closing (.inr rfl)]
    exact .read
  | (key, value) :: (k, v) :: others, some_element, wellFormed, fuel + 1, rest, enough => by
    have whole : dialect.renderEntries ((key, value) :: (k, v) :: others) ++ rest =
        dialect.quote key ++ ':' :: (' ' :: (dialect.render value ++
          ',' :: ' ' :: (dialect.renderEntries ((k, v) :: others) ++ rest))) := by
      rw [renderEntries]
      simp
    have behind := opensValue_append (dialect.renderEntries_opens k v others) rest
    have opens := opensValue_append (dialect.render_opens wellFormed.1)
      (',' :: ' ' :: (dialect.renderEntries ((k, v) :: others) ++ rest))
    have skipped : skipSpace (' ' :: (dialect.render value ++
        ',' :: ' ' :: (dialect.renderEntries ((k, v) :: others) ++ rest))) =
        dialect.render value ++ ',' :: ' ' :: (dialect.renderEntries ((k, v) :: others) ++ rest) :=
      skipSpace_of_opens opens
    rw [whole] at enough ⊢
    simp only [List.length_append, List.length_cons] at enough
    have first := render_reads value wellFormed.1 fuel
      (',' :: ' ' :: (dialect.renderEntries ((k, v) :: others) ++ rest)) rfl
      (by simp only [List.length_append, List.length_cons]; omega)
    have later := renderEntries_reads ((k, v) :: others) (List.cons_ne_nil _ _) wellFormed.2 fuel rest
      (by rw [List.length_append]; omega)
    rw [scanMembers, entriesAreJson]
    refine (dialect.key_reads key _).bind ?_
    rw [skipped]
    refine first.bind ?_
    dsimp only
    rw [scanDelimiter_comma (.inr rfl) behind]
    exact later.map (f := ((key, value) :: ·))

end

/-- The text of a whole value: it decodes to that value if it is JSON, and not at all otherwise. -/
theorem decode_render {value : Json} (wellFormed : value.WellFormed floatRepr) :
    if dialect.isJson value then decode floatRepr (dialect.render value) = .ok value
    else ∃ e, decode floatRepr (dialect.render value) = .error e := by
  have reads := dialect.render_reads value wellFormed
    (2 * (dialect.render value).length + 1) [] rfl (by rw [List.append_nil]; omega)
  rw [List.append_nil] at reads
  rw [decode, skipSpace_of_opens (dialect.render_opens wellFormed)]
  generalize dialect.isJson value = shared at reads ⊢
  generalize scanOnce floatRepr (2 * (dialect.render value).length + 1) (dialect.render value) = result at reads ⊢
  cases reads with
  | read => rfl
  | refused e => exact ⟨e, rfl⟩

end Dialect

end

end Json

end Formats
