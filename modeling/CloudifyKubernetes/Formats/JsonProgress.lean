import CloudifyKubernetes.Formats.JsonDecoder

namespace Formats

namespace Json

def messages : List String :=
  ["Expecting value", "Expecting property name enclosed in double quotes", "Expecting ':' delimiter",
    "Expecting ',' delimiter", "Extra data", "Unterminated string starting at",
    "Invalid control character at", "Invalid \\escape", "Invalid \\uXXXX escape"]

inductive Settled {α : Type} (bound : Nat) : Except ScanError (α × List Char) → Prop
  | read (value : α) {rest : List Char} (shorter : rest.length < bound) : Settled bound (.ok (value, rest))
  | failed {msg : String} (known : msg ∈ messages) (left : Nat) : Settled bound (.error (.message msg left))

section

variable {α β : Type} {bound : Nat}

theorem Settled.bind {between : Nat} {first : Except ScanError (α × List Char)}
    {next : α × List Char → Except ScanError (β × List Char)} (settled : Settled between first)
    (others : ∀ value rest, rest.length < between → Settled bound (next (value, rest))) :
    Settled bound (first >>= next) := by
  cases settled with
  | read value shorter => exact others value _ shorter
  | failed known left => exact .failed known left

theorem Settled.mono {between : Nat} {result : Except ScanError (α × List Char)}
    (settled : Settled between result) (within : between ≤ bound) : Settled bound result := by
  cases settled with
  | read value shorter => exact .read value (by omega)
  | failed known left => exact .failed known left

theorem expect_settles {c : Char} {msg : String} {text : List Char}
    {next : List Char → Except ScanError (β × List Char)} (known : msg ∈ messages)
    (others : ∀ rest, text = c :: rest → Settled bound (next rest)) :
    Settled bound (expect c msg text >>= next) := by
  unfold expect
  cases text with
  | nil => exact .failed known _
  | cons d rest =>
    rw [strip]
    by_cases here : d = c
    · rw [if_pos here]
      exact others rest (here ▸ rfl)
    · rw [if_neg here]
      exact .failed known _

end

theorem skipSpace_length (text : List Char) : (skipSpace text).length ≤ text.length :=
  (List.dropWhile_suffix _).length_le

theorem strip_eq_some {c : Char} {text rest : List Char} (starts : strip c text = some rest) :
    text = c :: rest := by
  cases text with
  | nil => cases starts
  | cons d behind =>
    rw [strip] at starts
    split at starts
    · rename_i here
      rw [here, Option.some.inj starts]
    · cases starts

theorem scanHex_length {text rest : List Char} {code : Nat} (read : scanHex text = some (code, rest)) :
    rest.length + 4 = text.length := by
  unfold scanHex at read
  split at read
  · simp only [Option.bind_eq_bind, Option.bind_eq_some_iff, Option.pure_def, Option.some.injEq,
      Prod.mk.injEq] at read
    obtain ⟨_, _, _, _, _, _, _, _, _, rfl⟩ := read
    simp
  · cases read

theorem scanLow_settles (high : Nat) (text : List Char) : Settled (text.length + 1) (scanLow high text) := by
  unfold scanLow
  split
  · rename_i rest
    split
    · exact .read _ (by simp)
    · split
      · exact .failed (by decide) _
      · rename_i low rest' read
        have shorter := scanHex_length read
        split
        · exact .read _ (by simp; omega)
        · exact .read _ (by simp)
  · exact .read _ (by simp)

theorem scanUnicode_settles (text : List Char) : Settled text.length (scanUnicode text) := by
  unfold scanUnicode
  split
  · exact .failed (by decide) _
  · rename_i code rest read
    have shorter := scanHex_length read
    split
    · exact (scanLow_settles code rest).mono (by omega)
    · exact .read _ (by omega)

theorem scanEscape_settles (opening : Nat) (text : List Char) :
    Settled text.length (scanEscape opening text) := by
  cases text with
  | nil => exact .failed (by decide) _
  | cons c rest =>
    rw [scanEscape]
    split
    · exact (scanUnicode_settles rest).mono (by simp)
    · split
      · exact .failed (by decide) _
      · exact .read _ (by simp)

theorem scanChar_settles (opening : Nat) (text : List Char) :
    Settled text.length (scanChar opening text) := by
  cases text with
  | nil => exact .failed (by decide) _
  | cons c rest =>
    rw [scanChar]
    split
    · exact .read _ (by simp)
    · split
      · refine (scanEscape_settles opening rest).bind fun meant behind shorter => ?_
        exact .read _ (by rw [List.length_cons]; omega)
      · split
        · exact .failed (by decide) _
        · exact .read _ (by simp)

theorem scanChars_settles (opening : Nat) {fuel : Nat} {text : List Char} (enough : text.length < fuel) :
    Settled text.length (scanChars opening fuel text) := by
  induction fuel generalizing text with
  | zero => omega
  | succ fuel ih =>
    rw [scanChars]
    refine (scanChar_settles opening text).bind fun c rest shorter => ?_
    cases c with
    | none => exact .read _ shorter
    | some c => exact (ih (by omega)).bind fun chars rest' shorter' => .read _ (by omega)

theorem scanString_settles (text : List Char) : Settled text.length (scanString text) :=
  (scanChars_settles _ (Nat.lt_succ_self _)).bind fun _ _ shorter => .read _ shorter

theorem scanKey_settles (text : List Char) : Settled text.length (scanKey text) := by
  refine expect_settles (by decide) fun rest starts => ?_
  refine (scanString_settles rest).bind fun key behind shorter => ?_
  refine expect_settles (by decide) fun value colon => ?_
  have passed := skipSpace_length behind
  have skipped := skipSpace_length value
  rw [colon, List.length_cons] at passed
  exact .read _ (by rw [starts, List.length_cons]; omega)

theorem scanDelimiter_settles (closing : Char) (text : List Char) :
    Settled text.length (scanDelimiter closing text) := by
  have skipped := skipSpace_length text
  unfold scanDelimiter
  split
  · rename_i rest closes
    rw [strip_eq_some closes, List.length_cons] at skipped
    exact .read _ (by omega)
  · refine expect_settles (by decide) fun rest comma => ?_
    have passed := skipSpace_length rest
    rw [comma, List.length_cons] at skipped
    exact .read _ (by omega)

theorem signPart_append (signs text : List Char) :
    (signPart signs text).1 ++ (signPart signs text).2 = text := by
  cases text with
  | nil => rfl
  | cons c rest =>
    rw [signPart]
    split <;> rfl

theorem digitPart_append (text : List Char) : (digitPart text).1 ++ (digitPart text).2 = text :=
  List.takeWhile_append_dropWhile

theorem wholePart_append (text : List Char) : (wholePart text).1 ++ (wholePart text).2 = text := by
  cases text with
  | nil => rfl
  | cons c rest =>
    rw [wholePart]
    split
    · rename_i zero
      rw [zero]
      rfl
    · exact digitPart_append (c :: rest)

theorem fractionPart_append (text : List Char) :
    (fractionPart text).1 ++ (fractionPart text).2 = text := by
  cases text with
  | nil => rfl
  | cons c rest =>
    rw [fractionPart]
    split
    · rw [List.cons_append, digitPart_append]
    · rfl

theorem exponentPart_append (text : List Char) :
    (exponentPart text).1 ++ (exponentPart text).2 = text := by
  cases text with
  | nil => rfl
  | cons c rest =>
    rw [exponentPart]
    dsimp only
    split
    · rw [List.cons_append, List.append_assoc, digitPart_append, signPart_append]
    · rfl

theorem scanNumber_length {floatRepr : String → String} {text rest : List Char} {value : Json}
    (read : scanNumber floatRepr text = some (value, rest)) : rest.length < text.length := by
  unfold scanNumber at read
  dsimp only at read
  split at read
  · cases read
  · rename_i some_digit
    have parts := congrArg List.length (signPart_append ['-'] text)
    have parts' := congrArg List.length (wholePart_append (signPart ['-'] text).2)
    have parts'' := congrArg List.length (fractionPart_append (wholePart (signPart ['-'] text).2).2)
    have parts''' := congrArg List.length
      (exponentPart_append (fractionPart (wholePart (signPart ['-'] text).2).2).2)
    simp only [List.length_append] at parts parts' parts'' parts'''
    have digits := List.length_pos_iff.mpr some_digit
    split at read <;>
    · obtain ⟨_, rfl⟩ := Prod.mk.inj (Option.some.inj read)
      omega

theorem scanConstant_length {text rest : List Char} {value : Json}
    (read : scanConstant text = some (value, rest)) : rest.length < text.length := by
  obtain ⟨e, member, found⟩ := List.exists_of_findSome?_eq_some read
  obtain ⟨behind, starts, same⟩ := Option.map_eq_some_iff.mp found
  obtain ⟨_, rfl⟩ := Prod.mk.inj same
  have whole := List.isPrefixOf?_eq_some_iff_append_eq.mp starts
  have long : ∀ e ∈ constants, e.1.toList ≠ [] := by decide
  have positive := List.length_pos_iff.mpr (long e member)
  have lengths := congrArg List.length whole
  rw [List.length_append] at lengths
  omega

theorem scanAtom_settles (floatRepr : String → String) (text : List Char) :
    Settled text.length (scanAtom floatRepr text) := by
  unfold scanAtom
  split
  · rename_i value rest read
    refine .read _ ?_
    rcases Option.or_eq_some_iff.mp read with constant | ⟨_, number⟩
    · exact scanConstant_length constant
    · exact scanNumber_length number
  · exact .failed (by decide) _

section

variable (floatRepr : String → String)

theorem scan_settles (fuel : Nat) :
    (∀ text, 2 * text.length < fuel → Settled text.length (scanOnce floatRepr fuel text)) ∧
      (∀ text, 2 * text.length + 1 < fuel → Settled text.length (scanElements floatRepr fuel text)) ∧
      (∀ text, 2 * text.length + 1 < fuel → Settled text.length (scanMembers floatRepr fuel text)) := by
  induction fuel with
  | zero => exact ⟨fun _ enough => by omega, fun _ enough => by omega, fun _ enough => by omega⟩
  | succ fuel ih =>
    obtain ⟨once, elements, members⟩ := ih
    refine ⟨fun text enough => ?_, fun text enough => ?_, fun text enough => ?_⟩
    · cases text with
      | nil => exact .failed (by decide) _
      | cons c rest =>
        have skipped := skipSpace_length rest
        rw [List.length_cons] at enough ⊢
        rw [scanOnce]
        split
        · exact (scanString_settles rest).bind fun text behind shorter => .read _ (by omega)
        · split
          · split
            · rename_i behind closes
              rw [strip_eq_some closes, List.length_cons] at skipped
              exact .read _ (by omega)
            · exact (members _ (by omega)).bind fun pairs behind shorter => .read _ (by omega)
          · split
            · split
              · rename_i behind closes
                rw [strip_eq_some closes, List.length_cons] at skipped
                exact .read _ (by omega)
              · exact (elements _ (by omega)).bind fun values behind shorter => .read _ (by omega)
            · exact scanAtom_settles floatRepr (c :: rest)
    · rw [scanElements]
      refine (once text (by omega)).bind fun value rest shorter => ?_
      refine (scanDelimiter_settles ']' rest).bind fun closed behind shorter' => ?_
      cases closed with
      | true => exact .read _ (by omega)
      | false => exact (elements behind (by omega)).bind fun others left shorter'' => .read _ (by omega)
    · rw [scanMembers]
      refine (scanKey_settles text).bind fun key colon shorter => ?_
      refine (once colon (by omega)).bind fun value rest shorter' => ?_
      refine (scanDelimiter_settles '}' rest).bind fun closed behind shorter'' => ?_
      cases closed with
      | true => exact .read _ (by omega)
      | false => exact (members behind (by omega)).bind fun others left shorter''' => .read _ (by omega)

theorem decode_fails {text : List Char} {e : ScanError} (fails : decode floatRepr text = .error e) :
    ∃ msg left, msg ∈ messages ∧ e = .message msg left := by
  have skipped := skipSpace_length text
  have settled := (scan_settles floatRepr (2 * text.length + 1)).1 (skipSpace text) (by omega)
  unfold decode at fails
  cases first : scanOnce floatRepr (2 * text.length + 1) (skipSpace text) with
  | error e' =>
    rw [first] at settled fails
    cases settled with
    | failed known left =>
      cases fails
      exact ⟨_, left, known, rfl⟩
  | ok read =>
    obtain ⟨value, rest⟩ := read
    rw [first] at fails
    have fails : endOfText value rest = .error e := fails
    unfold endOfText at fails
    split at fails
    · cases fails
    · cases fails
      exact ⟨_, _, by decide, rfl⟩

/-- A text that is not decoded starts with a byte order mark or fails with a message of a scan. -/
theorem loads_fails {text : String} {e : ScanError} (fails : loads floatRepr text = .error e) :
    (text.toList.head? = some byteOrderMark ∧
        e = .message "Unexpected UTF-8 BOM (decode using utf-8-sig)" text.toList.length) ∨
      (text.toList.head? ≠ some byteOrderMark ∧ ∃ msg left, msg ∈ messages ∧ e = .message msg left) := by
  unfold loads at fails
  split at fails
  · rename_i empty
    exact .inr ⟨by rw [empty]; simp, decode_fails floatRepr fails⟩
  · rename_i c rest starts
    split at fails
    · rename_i marked
      cases fails
      exact .inl ⟨by rw [starts, marked]; rfl, by rw [starts]⟩
    · rename_i plain
      exact .inr ⟨by rw [starts]; simpa using plain, decode_fails floatRepr fails⟩

theorem loads_of_marked {text : String} (marked : text.toList.head? = some byteOrderMark) :
    loads floatRepr text =
      .error (.message "Unexpected UTF-8 BOM (decode using utf-8-sig)" text.toList.length) := by
  unfold loads
  cases starts : text.toList with
  | nil =>
    rw [starts] at marked
    cases marked
  | cons c rest =>
    rw [starts] at marked
    exact if_pos (Option.some.inj marked)

end

theorem mem_placeText {document : List Char} {position : Nat} {c : Char}
    (member : c ∈ (placeText document position).toList) :
    c ∈ ": line column (char )".toList ∨ c.isDigit = true := by
  have digit {n : Nat} (member : c ∈ (toString n).toList) : c.isDigit = true := by
    rw [Nat.toString_eq_repr, Nat.toList_repr] at member
    exact Nat.isDigit_of_mem_toDigits (by decide) (by decide) member
  have word {text : String} (known : (text.toList.all fun d => d ∈ ": line column (char )".toList) = true)
      (member : c ∈ text.toList) : c ∈ ": line column (char )".toList := by
    simpa using List.all_eq_true.mp known c member
  simp only [placeText, String.toList_append, List.mem_append] at member
  rcases member with line | number | column | number | char | number | closing
  · exact .inl (word (by decide +kernel) line)
  · exact .inr (digit number)
  · exact .inl (word (by decide +kernel) column)
  · exact .inr (digit number)
  · exact .inl (word (by decide +kernel) char)
  · exact .inr (digit number)
  · exact .inl (word (by decide +kernel) closing)

end Json

end Formats
