import CloudifyKubernetes.Formats.JsonDialects
import CloudifyKubernetes.Formats.JsonProgress

namespace Formats

namespace Json

def singleQuote : Char := Char.ofNat 39

def hexDigits : Nat → Nat → List Char
  | 0, _ => []
  | width + 1, n => hexDigits width (n / 16) ++ [Nat.digitChar (n % 16)]

def unicodeEscape (code : Nat) : List Char := '\\' :: 'u' :: hexDigits 4 code

def jsonEscape (c : Char) : List Char :=
  if c = '\\' ∨ c = doubleQuote then ['\\', c]
  else if c = '\n' then ['\\', 'n']
  else if c = '\r' then ['\\', 'r']
  else if c = '\t' then ['\\', 't']
  else if c = Char.ofNat 12 then ['\\', 'f']
  else if c = Char.ofNat 8 then ['\\', 'b']
  else if 0x20 ≤ c.toNat ∧ c.toNat ≤ 0x7E then [c]
  else if c.toNat < 0x10000 then unicodeEscape c.toNat
  else
    unicodeEscape (0xD800 + (c.toNat - 0x10000) / 0x400) ++ unicodeEscape (0xDC00 + (c.toNat - 0x10000) % 0x400)

def literalEscape (isPrintable : Char → Bool) (mark c : Char) : List Char :=
  if c = '\\' ∨ c = mark then ['\\', c]
  else if c = '\n' then ['\\', 'n']
  else if c = '\r' then ['\\', 'r']
  else if c = '\t' then ['\\', 't']
  else if 0x20 ≤ c.toNat ∧ c.toNat < 0x7F then [c]
  else if 0x7F < c.toNat ∧ isPrintable c then [c]
  else if c.toNat ≤ 0xFF then '\\' :: 'x' :: hexDigits 2 c.toNat
  else if c.toNat ≤ 0xFFFF then unicodeEscape c.toNat
  else '\\' :: 'U' :: hexDigits 8 c.toNat

def markOf (text : String) : Char :=
  if singleQuote ∈ text.toList ∧ doubleQuote ∉ text.toList then doubleQuote else singleQuote

def enclose (mark : Char) (escape : Char → List Char) (text : String) : List Char :=
  mark :: (text.toList.flatMap escape ++ [mark])

def jsonQuote (text : String) : List Char := enclose doubleQuote jsonEscape text

def literalQuote (isPrintable : Char → Bool) (text : String) : List Char :=
  enclose (markOf text) (literalEscape isPrintable (markOf text)) text

/-- A string between double quotes in which each character is escaped for itself. -/
theorem scanChars_reads {escape : Char → List Char} {readable : Char → Bool} {chars : List Char}
    (reads : ∀ c ∈ chars, ∀ opening rest, rest ≠ [] →
      Reads (some c) rest (readable c) (scanChar opening (escape c ++ rest)))
    (opening : Nat) {fuel : Nat} (enough : chars.length < fuel) (rest : List Char) :
    Reads chars rest (chars.all readable) (scanChars opening fuel (chars.flatMap escape ++ doubleQuote :: rest)) := by
  induction chars generalizing fuel with
  | nil =>
    cases fuel with
    | zero => cases enough
    | succ fuel => exact .read
  | cons c chars ih =>
    cases fuel with
    | zero => cases enough
    | succ fuel =>
      have behind : chars.flatMap escape ++ doubleQuote :: rest ≠ [] := by simp
      have first := reads c List.mem_cons_self opening _ behind
      have others := ih (fun c member => reads c (List.mem_cons_of_mem _ member)) (Nat.lt_of_succ_lt_succ enough)
      rw [List.flatMap_cons, List.append_assoc, scanChars, List.all_cons]
      refine first.bind ?_
      exact others.map (f := (c :: ·))

section

variable {escape : Char → List Char} {readable : Char → Bool}
  (written : ∀ c, escape c ≠ [])
include written

theorem length_le_flatMap (chars : List Char) : chars.length ≤ (chars.flatMap escape).length := by
  induction chars with
  | nil => exact Nat.le_refl _
  | cons c chars ih =>
    have positive := List.length_pos_iff.mpr (written c)
    rw [List.flatMap_cons, List.length_append, List.length_cons]
    omega

theorem scanString_reads {text : String} (reads : ∀ c ∈ text.toList, ∀ opening rest, rest ≠ [] →
      Reads (some c) rest (readable c) (scanChar opening (escape c ++ rest))) (rest : List Char) :
    Reads text rest (text.toList.all readable)
      (scanString (text.toList.flatMap escape ++ doubleQuote :: rest)) := by
  have long := length_le_flatMap written text.toList
  have enough : text.toList.length < (text.toList.flatMap escape ++ doubleQuote :: rest).length + 1 := by
    rw [List.length_append]
    omega
  have chars := scanChars_reads reads ((text.toList.flatMap escape ++ doubleQuote :: rest).length + 1) enough rest
  have string := chars.map (f := String.ofList)
  rw [String.ofList_toList] at string
  exact string

variable {floatRepr : String → String}

theorem scanOnce_enclosed (text : String) (reads : ∀ c ∈ text.toList, ∀ opening rest, rest ≠ [] →
      Reads (some c) rest (readable c) (scanChar opening (escape c ++ rest))) (fuel : Nat) (rest : List Char) :
    Reads (Json.str text) rest (text.toList.all readable)
      (scanOnce floatRepr (fuel + 1) (enclose doubleQuote escape text ++ rest)) := by
  have string := (scanString_reads written reads rest).map (f := Json.str)
  have inside : enclose doubleQuote escape text ++ rest =
      doubleQuote :: (text.toList.flatMap escape ++ doubleQuote :: rest) := by simp [enclose]
  rw [inside, scanOnce, if_pos rfl]
  exact string

theorem scanKey_enclosed (key : String) (reads : ∀ c ∈ key.toList, ∀ opening rest, rest ≠ [] →
      Reads (some c) rest (readable c) (scanChar opening (escape c ++ rest))) (rest : List Char) :
    Reads key (skipSpace rest) (key.toList.all readable)
      (scanKey (enclose doubleQuote escape key ++ ':' :: rest)) := by
  have inside : enclose doubleQuote escape key ++ ':' :: rest =
      doubleQuote :: (key.toList.flatMap escape ++ doubleQuote :: ':' :: rest) := by simp [enclose]
  have opened : scanKey (doubleQuote :: (key.toList.flatMap escape ++ doubleQuote :: ':' :: rest)) =
      scanString (key.toList.flatMap escape ++ doubleQuote :: ':' :: rest) >>= fun read =>
        expect ':' "Expecting ':' delimiter" (skipSpace read.2) >>= fun rest => pure (read.1, skipSpace rest) := rfl
  rw [inside, opened, ← Bool.and_true (key.toList.all readable)]
  exact (scanString_reads written reads (':' :: rest)).bind .read

end

theorem hexDigit?_digitChar {d : Nat} (small : d < 16) : hexDigit? (Nat.digitChar d) = some d := by
  revert d
  decide

theorem scanHex_hexDigits {n : Nat} (small : n < 0x10000) {rest : List Char} (more : rest ≠ []) :
    scanHex (hexDigits 4 n ++ rest) = some (n, rest) := by
  cases rest with
  | nil => exact absurd rfl more
  | cons e rest =>
    have digits : hexDigits 4 n ++ e :: rest = Nat.digitChar (n / 16 / 16 / 16 % 16) ::
        Nat.digitChar (n / 16 / 16 % 16) :: Nat.digitChar (n / 16 % 16) :: Nat.digitChar (n % 16) :: e :: rest := rfl
    have value : 4096 * (n / 16 / 16 / 16 % 16) + 256 * (n / 16 / 16 % 16) + 16 * (n / 16 % 16) + n % 16 = n := by
      omega
    rw [digits, scanHex]
    simp only [hexDigit?_digitChar (Nat.mod_lt _ (by decide : 0 < 16)), Option.bind_eq_bind, Option.bind_some,
      Option.pure_def, value]

theorem hexDigits_length (width n : Nat) : (hexDigits width n).length = width := by
  induction width generalizing n with
  | zero => rfl
  | succ width ih => rw [hexDigits, List.length_append, ih, List.length_singleton]

theorem ofCode_toNat (c : Char) : ofCode c.toNat = c := by
  have valid := c.valid
  have scalar : ¬ (isHighSurrogate c.toNat = true ∨ isLowSurrogate c.toNat = true) := by
    simp only [isHighSurrogate, isLowSurrogate, decide_eq_true_eq]
    have range : c.toNat < 0xD800 ∨ 0xDFFF < c.toNat ∧ c.toNat < 0x110000 := valid
    omega
  rw [ofCode, if_neg scalar, Char.ofNat_toNat]

theorem not_high (c : Char) : isHighSurrogate c.toNat = false := by
  have range : c.toNat < 0xD800 ∨ 0xDFFF < c.toNat ∧ c.toNat < 0x110000 := c.valid
  simp only [isHighSurrogate, decide_eq_false_iff_not]
  omega

theorem scanChar_unicode {c : Char} (basic : c.toNat < 0x10000) (opening : Nat) {rest : List Char} (more : rest ≠ []) :
    scanChar opening (unicodeEscape c.toNat ++ rest) = .ok (some c, rest) := by
  have code : scanUnicode (hexDigits 4 c.toNat ++ rest) = .ok (c, rest) := by
    rw [scanUnicode, scanHex_hexDigits basic more]
    dsimp only
    rw [not_high, if_neg Bool.false_ne_true, ofCode_toNat]
  have escaped : scanChar opening (unicodeEscape c.toNat ++ rest) =
      scanUnicode (hexDigits 4 c.toNat ++ rest) >>= fun read => pure (some read.1, read.2) := rfl
  rw [escaped, code]
  rfl

theorem scanChar_surrogates {c : Char} (beyond : 0x10000 ≤ c.toNat) (opening : Nat) {rest : List Char}
    (more : rest ≠ []) :
    scanChar opening (unicodeEscape (0xD800 + (c.toNat - 0x10000) / 0x400) ++
      unicodeEscape (0xDC00 + (c.toNat - 0x10000) % 0x400) ++ rest) = .ok (some c, rest) := by
  have range : c.toNat < 0xD800 ∨ 0xDFFF < c.toNat ∧ c.toNat < 0x110000 := c.valid
  obtain ⟨high, highIs⟩ : ∃ high, high = 0xD800 + (c.toNat - 0x10000) / 0x400 := ⟨_, rfl⟩
  obtain ⟨low, lowIs⟩ : ∃ low, low = 0xDC00 + (c.toNat - 0x10000) % 0x400 := ⟨_, rfl⟩
  rw [← highIs, ← lowIs]
  have isHigh : isHighSurrogate high = true := by
    simp only [isHighSurrogate, decide_eq_true_eq]
    omega
  have isLow : isLowSurrogate low = true := by
    simp only [isLowSurrogate, decide_eq_true_eq]
    omega
  have joined : joinSurrogates high low = c.toNat := by
    have inverse : 0x10000 + 0x400 * (high - 0xD800) + (low - 0xDC00) = c.toNat := by omega
    exact inverse
  have room : ¬ (hexDigits 4 low ++ rest).length < 5 := by
    have positive := List.length_pos_iff.mpr more
    rw [List.length_append, hexDigits_length]
    omega
  have second : scanLow high (unicodeEscape low ++ rest) = .ok (c, rest) := by
    have digits := scanHex_hexDigits (n := low) (by omega) more
    rw [unicodeEscape, List.cons_append, List.cons_append, scanLow, if_neg room, digits]
    dsimp only
    rw [isLow, if_pos rfl, joined, ofCode_toNat]
  have first : scanUnicode (hexDigits 4 high ++ (unicodeEscape low ++ rest)) = .ok (c, rest) := by
    have more' : unicodeEscape low ++ rest ≠ [] := List.cons_ne_nil _ _
    have digits := scanHex_hexDigits (n := high) (by omega) more'
    rw [scanUnicode, digits]
    dsimp only
    rw [isHigh, if_pos rfl, second]
  have escaped : scanChar opening (unicodeEscape high ++ unicodeEscape low ++ rest) =
      scanUnicode (hexDigits 4 high ++ (unicodeEscape low ++ rest)) >>=
        fun read => pure (some read.1, read.2) := by
    rw [List.append_assoc]
    rfl
  rw [escaped, first]
  rfl

theorem scanChar_plain {c : Char} (noQuote : c ≠ doubleQuote) (noEscape : c ≠ '\\') (visible : 0x20 ≤ c.toNat)
    (opening : Nat) (rest : List Char) : scanChar opening (c :: rest) = .ok (some c, rest) := by
  rw [scanChar, if_neg noQuote, if_neg noEscape, if_neg (by omega)]

theorem jsonEscape_reads (c : Char) (opening : Nat) {rest : List Char} (more : rest ≠ []) :
    Reads (some c) rest true (scanChar opening (jsonEscape c ++ rest)) := by
  unfold jsonEscape
  split_ifs with marked newline carriage tab feed back visible basic
  · rcases marked with rfl | rfl <;> exact .read
  · subst newline
    exact .read
  · subst carriage
    exact .read
  · subst tab
    exact .read
  · subst feed
    exact .read
  · subst back
    exact .read
  · rw [not_or] at marked
    rw [List.singleton_append, scanChar_plain marked.2 marked.1 visible.1]
    exact .read
  · rw [scanChar_unicode basic opening more]
    exact .read
  · rw [scanChar_surrogates (by omega) opening more]
    exact .read

def literalReadable (isPrintable : Char → Bool) (c : Char) : Bool :=
  c = '\\' ∨ c = '\n' ∨ c = '\r' ∨ c = '\t' ∨ 0x20 ≤ c.toNat ∧ c.toNat < 0x7F ∨
    0x7F < c.toNat ∧ (isPrintable c ∨ 0xFF < c.toNat ∧ c.toNat ≤ 0xFFFF)

theorem literalReadable_eq_false {isPrintable : Char → Bool} {c : Char} (backslash : c ≠ '\\') (newline : c ≠ '\n')
    (carriage : c ≠ '\r') (tab : c ≠ '\t') (ascii : ¬ (0x20 ≤ c.toNat ∧ c.toNat < 0x7F))
    (beyond : ¬ (0x7F < c.toNat ∧ (isPrintable c ∨ 0xFF < c.toNat ∧ c.toNat ≤ 0xFFFF))) :
    literalReadable isPrintable c = false := by
  rw [literalReadable, decide_eq_false_iff_not]
  simp only [not_or]
  exact ⟨backslash, newline, carriage, tab, ascii, beyond⟩

theorem literalEscape_reads (isPrintable : Char → Bool) (c : Char) (opening : Nat) {rest : List Char}
    (more : rest ≠ []) :
    Reads (some c) rest (literalReadable isPrintable c)
      (scanChar opening (literalEscape isPrintable doubleQuote c ++ rest)) := by
  unfold literalEscape
  split_ifs with marked newline carriage tab ascii printable byte basic
  · rcases marked with rfl | rfl <;> exact .read
  · subst newline
    exact .read
  · subst carriage
    exact .read
  · subst tab
    exact .read
  · rw [not_or] at marked
    have readable : literalReadable isPrintable c = true := by
      simp [literalReadable, ascii]
    rw [List.singleton_append, scanChar_plain marked.2 marked.1 ascii.1, readable]
    exact .read
  · rw [not_or] at marked
    have readable : literalReadable isPrintable c = true := by
      simp [literalReadable, printable]
    rw [List.singleton_append, scanChar_plain marked.2 marked.1 (by omega), readable]
    exact .read
  · rw [not_or] at marked
    have beyond : ¬ (0x7F < c.toNat ∧ (isPrintable c ∨ 0xFF < c.toNat ∧ c.toNat ≤ 0xFFFF)) := by
      rintro ⟨high, shown | wide⟩
      · exact printable ⟨high, shown⟩
      · omega
    rw [literalReadable_eq_false marked.1 newline carriage tab ascii beyond]
    exact .refused _
  · have readable : literalReadable isPrintable c = true := by
      have high : 0x7F < c.toNat ∧ 0xFF < c.toNat := by omega
      simp [literalReadable, high, basic]
    rw [scanChar_unicode (by omega) opening more, readable]
    exact .read
  · rw [not_or] at marked
    have beyond : ¬ (0x7F < c.toNat ∧ (isPrintable c ∨ 0xFF < c.toNat ∧ c.toNat ≤ 0xFFFF)) := by
      rintro ⟨high, shown | wide⟩
      · exact printable ⟨high, shown⟩
      · omega
    rw [literalReadable_eq_false marked.1 newline carriage tab ascii beyond]
    exact .refused _

theorem jsonEscape_ne_nil (c : Char) : jsonEscape c ≠ [] := by
  unfold jsonEscape
  split_ifs <;> exact List.cons_ne_nil _ _

theorem literalEscape_ne_nil (isPrintable : Char → Bool) (mark c : Char) :
    literalEscape isPrintable mark c ≠ [] := by
  unfold literalEscape
  split_ifs <;> exact List.cons_ne_nil _ _

def literalQuoted (isPrintable : Char → Bool) (text : String) : Bool :=
  markOf text = doubleQuote && text.toList.all (literalReadable isPrintable)

theorem markOf_cases (text : String) : markOf text = doubleQuote ∨ markOf text = singleQuote := by
  unfold markOf
  split
  · exact .inl rfl
  · exact .inr rfl

section

variable (floatRepr : String → String)

def jsonText : Dialect floatRepr where
  null := ['n', 'u', 'l', 'l']
  bool value := if value then ['t', 'r', 'u', 'e'] else ['f', 'a', 'l', 's', 'e']
  quote := jsonQuote
  shared := true
  quoted _ := true
  null_opens := rfl
  bool_opens value := by cases value <;> rfl
  quote_opens text := rfl
  null_reads fuel rest := .read
  bool_reads value fuel rest := by cases value <;> exact .read
  quote_reads text fuel rest := by
    have all : (text.toList.all fun _ => true) = true := List.all_eq_true.mpr fun _ _ => rfl
    rw [← all]
    exact scanOnce_enclosed jsonEscape_ne_nil text
      (fun c _ opening rest more => jsonEscape_reads c opening more) fuel rest
  key_reads key rest := by
    have all : (key.toList.all fun _ => true) = true := List.all_eq_true.mpr fun _ _ => rfl
    rw [← all]
    exact scanKey_enclosed jsonEscape_ne_nil key
      (fun c _ opening rest more => jsonEscape_reads c opening more) rest

def literalText (isPrintable : Char → Bool) : Dialect floatRepr where
  null := ['N', 'o', 'n', 'e']
  bool value := if value then ['T', 'r', 'u', 'e'] else ['F', 'a', 'l', 's', 'e']
  quote := literalQuote isPrintable
  shared := false
  quoted := literalQuoted isPrintable
  null_opens := rfl
  bool_opens value := by cases value <;> rfl
  quote_opens text := by
    unfold literalQuote enclose
    rcases markOf_cases text with double | single
    · rw [double]
      rfl
    · rw [single]
      rfl
  null_reads fuel rest := .refused _
  bool_reads value fuel rest := by cases value <;> exact .refused _
  quote_reads text fuel rest := by
    unfold literalQuote literalQuoted
    rcases markOf_cases text with double | single
    · rw [double]
      exact scanOnce_enclosed (literalEscape_ne_nil isPrintable doubleQuote) text
        (fun c _ opening rest more => literalEscape_reads isPrintable c opening more) fuel rest
    · rw [single]
      exact .refused _
  key_reads key rest := by
    unfold literalQuote literalQuoted
    rcases markOf_cases key with double | single
    · rw [double]
      exact scanKey_enclosed (literalEscape_ne_nil isPrintable doubleQuote) key
        (fun c _ opening rest more => literalEscape_reads isPrintable c opening more) rest
    · rw [single]
      exact .refused _

mutual

theorem jsonText_isJson : (value : Json) → (jsonText floatRepr).isJson value = true
  | .null => rfl
  | .bool _ => rfl
  | .int _ => rfl
  | .float _ => rfl
  | .str _ => rfl
  | .array elements => elements_areJson elements
  | .object entries => entries_areJson entries

theorem elements_areJson : (elements : List Json) → (jsonText floatRepr).elementsAreJson elements = true
  | [] => rfl
  | value :: rest => by
    rw [Dialect.elementsAreJson, jsonText_isJson value, elements_areJson rest]
    rfl

theorem entries_areJson : (entries : List (String × Json)) → (jsonText floatRepr).entriesAreJson entries = true
  | [] => rfl
  | (key, value) :: rest => by
    rw [Dialect.entriesAreJson, jsonText_isJson value, entries_areJson rest]
    rfl

end

end

section

variable {floatRepr : String → String} (dialect : Dialect floatRepr) {entries : List (String × Json)}

theorem loads_object : loads floatRepr (String.ofList (dialect.render (.object entries))) =
    decode floatRepr (dialect.render (.object entries)) := by
  rw [loads, String.toList_ofList, Dialect.render]
  exact if_neg (by decide)

theorem loads_object_iff (wellFormed : (Json.object entries).WellFormed floatRepr) :
    loads floatRepr (String.ofList (dialect.render (.object entries))) = .ok (.object entries) ↔
      dialect.isJson (.object entries) = true := by
  have reads := dialect.decode_render wellFormed
  rw [loads_object]
  cases isJson : dialect.isJson (.object entries) with
  | true =>
    rw [isJson, if_pos rfl] at reads
    exact ⟨fun _ => rfl, fun _ => reads⟩
  | false =>
    rw [isJson, if_neg Bool.false_ne_true] at reads
    obtain ⟨e, refused⟩ := reads
    rw [refused]
    exact ⟨fun same => (by cases same), fun same => (by cases same)⟩

theorem loads_object_refused (wellFormed : (Json.object entries).WellFormed floatRepr)
    (other : dialect.isJson (.object entries) = false) :
    ∃ msg left, msg ∈ messages ∧
      loads floatRepr (String.ofList (dialect.render (.object entries))) = .error (.message msg left) := by
  have reads := dialect.decode_render wellFormed
  rw [other, if_neg Bool.false_ne_true] at reads
  obtain ⟨e, refused⟩ := reads
  obtain ⟨msg, left, known, rfl⟩ := decode_fails floatRepr refused
  exact ⟨msg, left, known, by rw [loads_object, refused]⟩

end

end Json

end Formats
