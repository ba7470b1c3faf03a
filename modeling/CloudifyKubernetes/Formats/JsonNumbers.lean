import CloudifyKubernetes.Formats.JsonDecoder

namespace Formats

namespace Json

def endsValue : List Char → Bool
  | [] => true
  | c :: _ => c = ',' ∨ c = ']' ∨ c = '}'

def IsDigits (digits : List Char) : Prop := digits ≠ [] ∧ ∀ c ∈ digits, c.isDigit = true

def stopsDigits : List Char → Bool
  | [] => true
  | c :: _ => !c.isDigit

structure NumberParts where
  sign : List Char
  whole : List Char
  fraction : List Char
  exponent : List Char
  signed : sign = [] ∨ sign = ['-']
  digits : whole = ['0'] ∨ IsDigits whole ∧ whole.head? ≠ some '0'
  decimals : fraction = [] ∨ ∃ digits, IsDigits digits ∧ fraction = '.' :: digits
  scaled : exponent = [] ∨ ∃ e s digits, (e = 'e' ∨ e = 'E') ∧ (s = [] ∨ s = ['-'] ∨ s = ['+']) ∧
    IsDigits digits ∧ exponent = e :: (s ++ digits)

namespace NumberParts

variable (parts : NumberParts)

def text : List Char := parts.sign ++ (parts.whole ++ (parts.fraction ++ parts.exponent))

def isWhole : Bool := parts.fraction = [] ∧ parts.exponent = []

end NumberParts

theorem stopsDigits_of_endsValue {rest : List Char} (ends : endsValue rest = true) :
    stopsDigits rest = true := by
  cases rest with
  | nil => rfl
  | cons c rest =>
    simp only [endsValue, decide_eq_true_eq] at ends
    rcases ends with rfl | rfl | rfl <;> rfl

theorem digitPart_of {digits rest : List Char} (all : ∀ c ∈ digits, c.isDigit = true)
    (stops : stopsDigits rest = true) : digitPart (digits ++ rest) = (digits, rest) := by
  have front : rest.takeWhile Char.isDigit = [] ∧ rest.dropWhile Char.isDigit = rest := by
    cases rest with
    | nil => exact ⟨rfl, rfl⟩
    | cons c rest =>
      have other : c.isDigit = false := by simpa [stopsDigits] using stops
      simp [other]
  rw [digitPart, List.takeWhile_append_of_pos all, List.dropWhile_append_of_pos all, front.1, front.2,
    List.append_nil]

theorem wholePart_of {whole rest : List Char} (digits : whole = ['0'] ∨ IsDigits whole ∧ whole.head? ≠ some '0')
    (stops : stopsDigits rest = true) : wholePart (whole ++ rest) = (whole, rest) := by
  rcases digits with rfl | ⟨⟨some_digit, all⟩, other⟩
  · rfl
  · cases whole with
    | nil => exact absurd rfl some_digit
    | cons c whole =>
      have nonzero : c ≠ '0' := by simpa using other
      rw [List.cons_append, wholePart, if_neg nonzero, ← List.cons_append, digitPart_of all stops]

theorem fractionPart_of {fraction rest : List Char}
    (decimals : fraction = [] ∨ ∃ digits, IsDigits digits ∧ fraction = '.' :: digits)
    (stops : stopsDigits rest = true) (behind : rest.head? ≠ some '.') :
    fractionPart (fraction ++ rest) = (fraction, rest) := by
  rcases decimals with rfl | ⟨digits, ⟨some_digit, all⟩, rfl⟩
  · cases rest with
    | nil => rfl
    | cons c rest =>
      have other : c ≠ '.' := by simpa using behind
      rw [List.nil_append, fractionPart, if_neg fun point => other point.1]
  · rw [List.cons_append, fractionPart, digitPart_of all stops, if_pos ⟨rfl, some_digit⟩]

theorem signPart_of {signs sign rest : List Char} (signed : sign = [] ∨ ∃ c ∈ signs, sign = [c])
    (other : ∀ c ∈ rest.head?, c ∉ signs) : signPart signs (sign ++ rest) = (sign, rest) := by
  rcases signed with rfl | ⟨c, member, rfl⟩
  · cases rest with
    | nil => rfl
    | cons c rest => rw [List.nil_append, signPart, if_neg (other c rfl)]
  · rw [List.singleton_append, signPart, if_pos member]

theorem head_of_digits {digits : List Char} (all : IsDigits digits) (rest : List Char) :
    ∃ c behind, digits ++ rest = c :: behind ∧ c.isDigit = true := by
  obtain ⟨some_digit, all⟩ := all
  cases digits with
  | nil => exact absurd rfl some_digit
  | cons c digits => exact ⟨c, digits ++ rest, rfl, all c List.mem_cons_self⟩

theorem exponentPart_of {exponent rest : List Char}
    (scaled : exponent = [] ∨ ∃ e s digits, (e = 'e' ∨ e = 'E') ∧ (s = [] ∨ s = ['-'] ∨ s = ['+']) ∧
      IsDigits digits ∧ exponent = e :: (s ++ digits)) (ends : endsValue rest = true) :
    exponentPart (exponent ++ rest) = (exponent, rest) := by
  rcases scaled with rfl | ⟨e, s, digits, letter, signed, all, rfl⟩
  · cases rest with
    | nil => rfl
    | cons c rest =>
      have other : ¬ (c = 'e' ∨ c = 'E') := by
        simp only [endsValue, decide_eq_true_eq] at ends
        rcases ends with rfl | rfl | rfl <;> simp
      rw [List.nil_append, exponentPart]
      exact if_neg fun both => other both.1
  · obtain ⟨c, behind, starts, digit⟩ := head_of_digits all rest
    have sign : signPart ['-', '+'] (s ++ (digits ++ rest)) = (s, digits ++ rest) := by
      refine signPart_of ?_ ?_
      · rcases signed with rfl | rfl | rfl
        · exact .inl rfl
        · exact .inr ⟨'-', by simp, rfl⟩
        · exact .inr ⟨'+', by simp, rfl⟩
      · intro c' head
        rw [starts, List.head?_cons, Option.mem_some_iff] at head
        subst head
        intro member
        rcases List.mem_pair.mp member with rfl | rfl <;> exact absurd digit (by decide)
    rw [List.cons_append, List.append_assoc, exponentPart, sign]
    dsimp only
    rw [digitPart_of all.2 (stopsDigits_of_endsValue ends)]
    exact if_pos ⟨letter, all.1⟩

section

variable (floatRepr : String → String) (parts : NumberParts)

def NumberParts.value : Json :=
  if parts.isWhole then .int (ofDigits parts.sign parts.whole)
  else .float (floatRepr (String.ofList parts.text))

theorem NumberParts.whole_isDigits : IsDigits parts.whole := by
  rcases parts.digits with zero | ⟨all, _⟩
  · rw [zero]
    exact ⟨by simp, by simp⟩
  · exact all

theorem scanNumber_text {rest : List Char} (ends : endsValue rest = true) :
    scanNumber floatRepr (parts.text ++ rest) = some (parts.value floatRepr, rest) := by
  obtain ⟨c, behind, starts, digit⟩ :=
    head_of_digits parts.whole_isDigits (parts.fraction ++ (parts.exponent ++ rest))
  have sign : signPart ['-'] (parts.sign ++ (parts.whole ++ (parts.fraction ++ (parts.exponent ++ rest)))) =
      (parts.sign, parts.whole ++ (parts.fraction ++ (parts.exponent ++ rest))) := by
    refine signPart_of ?_ ?_
    · rcases parts.signed with positive | negative
      · exact .inl positive
      · exact .inr ⟨'-', by simp, negative⟩
    · intro c' head
      rw [starts, List.head?_cons, Option.mem_some_iff] at head
      subst head
      intro member
      rw [List.mem_singleton.mp member] at digit
      exact absurd digit (by decide)
  have exponentHead : stopsDigits (parts.exponent ++ rest) = true ∧
      (parts.exponent ++ rest).head? ≠ some '.' := by
    rcases parts.scaled with none | ⟨e, s, digits, letter, _, _, scaled⟩
    · rw [none, List.nil_append]
      refine ⟨stopsDigits_of_endsValue ends, fun point => ?_⟩
      cases rest with
      | nil => cases point
      | cons c rest =>
        rw [Option.some.inj point] at ends
        exact absurd ends (by simp [endsValue])
    · rw [scaled, List.cons_append]
      rcases letter with rfl | rfl <;> exact ⟨rfl, by simp⟩
  have fractionHead : stopsDigits (parts.fraction ++ (parts.exponent ++ rest)) = true := by
    rcases parts.decimals with none | ⟨digits, _, point⟩
    · rw [none, List.nil_append]
      exact exponentHead.1
    · rw [point]
      rfl
  have split : parts.text ++ rest =
      parts.sign ++ (parts.whole ++ (parts.fraction ++ (parts.exponent ++ rest))) := by
    simp [NumberParts.text]
  have some_digit := parts.whole_isDigits.1
  rw [split, scanNumber, sign]
  dsimp only
  rw [wholePart_of parts.digits fractionHead]
  dsimp only
  rw [fractionPart_of parts.decimals exponentHead.1 exponentHead.2]
  dsimp only
  rw [exponentPart_of parts.scaled ends]
  dsimp only
  rw [if_neg some_digit, NumberParts.value, NumberParts.isWhole, NumberParts.text]
  simp only [decide_eq_true_eq, List.append_assoc]
  split <;> rfl

/-- No constant is a sign with a digit, or a digit. -/
theorem scanConstant_text (rest : List Char) : scanConstant (parts.text ++ rest) = none := by
  obtain ⟨c, behind, starts, digit⟩ :=
    head_of_digits parts.whole_isDigits (parts.fraction ++ (parts.exponent ++ rest))
  have split : parts.text ++ rest = parts.sign ++ c :: behind := by
    rw [← starts]
    simp [NumberParts.text]
  have words : ∀ e ∈ constants, ∃ d word, e.1.toList = d :: word ∧ d.isDigit = false ∧
      (d = '-' → word.head?.all fun d' => !d'.isDigit) ∧ word ≠ [] := by
    intro e member
    simp only [constants, List.mem_cons, List.not_mem_nil, or_false] at member
    rcases member with rfl | rfl | rfl | rfl | rfl | rfl <;> exact ⟨_, _, rfl, rfl, by decide, by decide⟩
  rw [split, scanConstant, List.findSome?_eq_none_iff]
  intro e member
  rw [Option.map_eq_none_iff, ← Option.not_isSome_iff_eq_none]
  intro found
  obtain ⟨left, found⟩ := Option.isSome_iff_exists.mp found
  have whole := List.isPrefixOf?_eq_some_iff_append_eq.mp found
  obtain ⟨d, word, spelled, letter, later, long⟩ := words e member
  rw [spelled, List.cons_append] at whole
  rcases parts.signed with positive | negative
  · rw [positive, List.nil_append] at whole
    obtain ⟨rfl, _⟩ := List.cons.inj whole
    rw [digit] at letter
    cases letter
  · rw [negative, List.singleton_append] at whole
    obtain ⟨dash, same⟩ := List.cons.inj whole
    cases word with
    | nil => exact long rfl
    | cons d' word =>
      obtain ⟨rfl, _⟩ := List.cons.inj same
      have other := later dash
      simp [digit] at other

theorem scanAtom_text {rest : List Char} (ends : endsValue rest = true) :
    scanAtom floatRepr (parts.text ++ rest) = .ok (parts.value floatRepr, rest) := by
  rw [scanAtom, scanConstant_text, Option.none_or, scanNumber_text floatRepr parts ends]

end

end Json

end Formats
