import CloudifyKubernetes.Collections.OrderedDict

namespace Formats

open Collections

/-- What the decoder of the standard library makes of a text. A float is its shortest text. -/
inductive Json
  | null
  | bool (value : Bool)
  | int (value : Int)
  | float (text : String)
  | str (text : String)
  | array (elements : List Json)
  | object (entries : List (String × Json))
  deriving Repr

inductive ScanError
  | message (msg : String) (left : Nat)
  | outOfFuel
  deriving DecidableEq, Repr

namespace Json

def failAt {α : Type} (msg : String) (text : List Char) : Except ScanError α :=
  .error (.message msg text.length)

def strip (c : Char) : List Char → Option (List Char)
  | [] => none
  | d :: rest => if d = c then some rest else none

def expect (c : Char) (msg : String) (text : List Char) : Except ScanError (List Char) :=
  match strip c text with
  | some rest => .ok rest
  | none => failAt msg text

def isSpace (c : Char) : Bool := c = ' ' ∨ c = '\t' ∨ c = '\n' ∨ c = '\r'

def skipSpace (text : List Char) : List Char := text.dropWhile isSpace

def doubleQuote : Char := Char.ofNat 34

def hexDigit? (c : Char) : Option Nat :=
  if '0' ≤ c ∧ c ≤ '9' then some (c.toNat - 48)
  else if 'a' ≤ c ∧ c ≤ 'f' then some (c.toNat - 87)
  else if 'A' ≤ c ∧ c ≤ 'F' then some (c.toNat - 55)
  else none

def scanHex : List Char → Option (Nat × List Char)
  | a :: b :: c :: d :: e :: rest => do
    let a ← hexDigit? a
    let b ← hexDigit? b
    let c ← hexDigit? c
    let d ← hexDigit? d
    return (4096 * a + 256 * b + 16 * c + d, e :: rest)
  | _ => none

def isHighSurrogate (code : Nat) : Bool := 0xD800 ≤ code ∧ code ≤ 0xDBFF

def isLowSurrogate (code : Nat) : Bool := 0xDC00 ≤ code ∧ code ≤ 0xDFFF

def joinSurrogates (high low : Nat) : Nat := 0x10000 + 0x400 * (high - 0xD800) + (low - 0xDC00)

def ofCode (code : Nat) : Char :=
  if isHighSurrogate code ∨ isLowSurrogate code then Char.ofNat 0xFFFD else Char.ofNat code

def scanLow (high : Nat) : List Char → Except ScanError (Char × List Char)
  | '\\' :: 'u' :: rest =>
    if rest.length < 5 then .ok (ofCode high, '\\' :: 'u' :: rest)
    else match scanHex rest with
      | none => failAt "Invalid \\uXXXX escape" ('u' :: rest)
      | some (low, rest') =>
        if isLowSurrogate low then .ok (ofCode (joinSurrogates high low), rest')
        else .ok (ofCode high, '\\' :: 'u' :: rest)
  | rest => .ok (ofCode high, rest)

def scanUnicode (rest : List Char) : Except ScanError (Char × List Char) :=
  match scanHex rest with
  | none => failAt "Invalid \\uXXXX escape" ('u' :: rest)
  | some (code, rest) => if isHighSurrogate code then scanLow code rest else .ok (ofCode code, rest)

def simpleEscapes : List (Char × Char) :=
  [(doubleQuote, doubleQuote), ('\\', '\\'), ('/', '/'), ('b', Char.ofNat 8), ('f', Char.ofNat 12),
    ('n', '\n'), ('r', '\r'), ('t', '\t')]

def scanEscape (opening : Nat) : List Char → Except ScanError (Char × List Char)
  | [] => .error (.message "Unterminated string starting at" opening)
  | c :: rest =>
    if c = 'u' then scanUnicode rest
    else match simpleEscapes.lookup c with
      | none => failAt "Invalid \\escape" ('\\' :: c :: rest)
      | some meant => .ok (meant, rest)

def scanChar (opening : Nat) : List Char → Except ScanError (Option Char × List Char)
  | [] => .error (.message "Unterminated string starting at" opening)
  | c :: rest =>
    if c = doubleQuote then .ok (none, rest)
    else if c = '\\' then do
      let (meant, rest) ← scanEscape opening rest
      return (some meant, rest)
    else if c.toNat ≤ 0x1F then failAt "Invalid control character at" (c :: rest)
    else .ok (some c, rest)

def scanChars (opening : Nat) : Nat → List Char → Except ScanError (List Char × List Char)
  | 0, _ => .error .outOfFuel
  | fuel + 1, text => do
    match ← scanChar opening text with
    | (none, rest) => return ([], rest)
    | (some c, rest) =>
      let (chars, rest) ← scanChars opening fuel rest
      return (c :: chars, rest)

def scanString (text : List Char) : Except ScanError (String × List Char) := do
  let (chars, rest) ← scanChars (text.length + 1) (text.length + 1) text
  return (String.ofList chars, rest)

def signPart (signs : List Char) : List Char → List Char × List Char
  | [] => ([], [])
  | c :: rest => if c ∈ signs then ([c], rest) else ([], c :: rest)

def digitPart (text : List Char) : List Char × List Char :=
  (text.takeWhile Char.isDigit, text.dropWhile Char.isDigit)

def wholePart : List Char → List Char × List Char
  | [] => ([], [])
  | c :: rest => if c = '0' then (['0'], rest) else digitPart (c :: rest)

def fractionPart : List Char → List Char × List Char
  | [] => ([], [])
  | c :: rest =>
    if c = '.' ∧ (digitPart rest).1 ≠ [] then (c :: (digitPart rest).1, (digitPart rest).2)
    else ([], c :: rest)

def exponentPart : List Char → List Char × List Char
  | [] => ([], [])
  | c :: rest =>
    let (sign, behind) := signPart ['-', '+'] rest
    if (c = 'e' ∨ c = 'E') ∧ (digitPart behind).1 ≠ [] then
      (c :: (sign ++ (digitPart behind).1), (digitPart behind).2)
    else ([], c :: rest)

def ofDigits (sign digits : List Char) : Int :=
  if sign = [] then Nat.ofDigitChars 10 digits 0 else -(Nat.ofDigitChars 10 digits 0 : Int)

def scanNumber (floatRepr : String → String) (text : List Char) : Option (Json × List Char) :=
  let (sign, rest) := signPart ['-'] text
  let (whole, rest) := wholePart rest
  let (fraction, rest) := fractionPart rest
  let (exponent, rest) := exponentPart rest
  if whole = [] then none
  else if fraction = [] ∧ exponent = [] then some (.int (ofDigits sign whole), rest)
  else some (.float (floatRepr (String.ofList (sign ++ whole ++ fraction ++ exponent))), rest)

def constants : List (String × Json) :=
  [("null", .null), ("true", .bool true), ("false", .bool false), ("NaN", .float "nan"),
    ("Infinity", .float "inf"), ("-Infinity", .float "-inf")]

def scanConstant (text : List Char) : Option (Json × List Char) :=
  constants.findSome? fun e => (e.1.toList.isPrefixOf? text).map fun rest => (e.2, rest)

def scanAtom (floatRepr : String → String) (text : List Char) : Except ScanError (Json × List Char) :=
  match (scanConstant text).or (scanNumber floatRepr text) with
  | some (value, rest) => .ok (value, rest)
  | none => failAt "Expecting value" text

def scanDelimiter (closing : Char) (text : List Char) : Except ScanError (Bool × List Char) :=
  match strip closing (skipSpace text) with
  | some rest => .ok (true, rest)
  | none => do
    let rest ← expect ',' "Expecting ',' delimiter" (skipSpace text)
    return (false, skipSpace rest)

def scanKey (text : List Char) : Except ScanError (String × List Char) := do
  let rest ← expect doubleQuote "Expecting property name enclosed in double quotes" text
  let (key, rest) ← scanString rest
  let rest ← expect ':' "Expecting ':' delimiter" (skipSpace rest)
  return (key, skipSpace rest)

def ofPairs (pairs : List (String × Json)) : Json := .object (OrderedDict.ofEntries pairs).items

section

variable (floatRepr : String → String)

mutual

def scanOnce : Nat → List Char → Except ScanError (Json × List Char)
  | 0, _ => .error .outOfFuel
  | _ + 1, [] => failAt "Expecting value" []
  | fuel + 1, c :: rest =>
    if c = doubleQuote then do
      let (text, rest) ← scanString rest
      return (.str text, rest)
    else if c = '{' then
      match strip '}' (skipSpace rest) with
      | some rest => .ok (.object [], rest)
      | none => do
        let (pairs, rest) ← scanMembers fuel (skipSpace rest)
        return (ofPairs pairs, rest)
    else if c = '[' then
      match strip ']' (skipSpace rest) with
      | some rest => .ok (.array [], rest)
      | none => do
        let (elements, rest) ← scanElements fuel (skipSpace rest)
        return (.array elements, rest)
    else scanAtom floatRepr (c :: rest)

def scanElements : Nat → List Char → Except ScanError (List Json × List Char)
  | 0, _ => .error .outOfFuel
  | fuel + 1, text => do
    let (value, rest) ← scanOnce fuel text
    match ← scanDelimiter ']' rest with
    | (true, rest) => return ([value], rest)
    | (false, rest) =>
      let (others, rest) ← scanElements fuel rest
      return (value :: others, rest)

def scanMembers : Nat → List Char → Except ScanError (List (String × Json) × List Char)
  | 0, _ => .error .outOfFuel
  | fuel + 1, text => do
    let (key, rest) ← scanKey text
    let (value, rest) ← scanOnce fuel rest
    match ← scanDelimiter '}' rest with
    | (true, rest) => return ([(key, value)], rest)
    | (false, rest) =>
      let (others, rest) ← scanMembers fuel rest
      return ((key, value) :: others, rest)

end

def byteOrderMark : Char := Char.ofNat 0xFEFF

def endOfText (value : Json) (rest : List Char) : Except ScanError Json :=
  match skipSpace rest with
  | [] => .ok value
  | behind => failAt "Extra data" behind

def decode (text : List Char) : Except ScanError Json := do
  let (value, rest) ← scanOnce floatRepr (2 * text.length + 1) (skipSpace text)
  endOfText value rest

def loads (text : String) : Except ScanError Json :=
  match text.toList with
  | [] => decode floatRepr []
  | c :: rest =>
    if c = byteOrderMark then failAt "Unexpected UTF-8 BOM (decode using utf-8-sig)" (c :: rest)
    else decode floatRepr (c :: rest)

end

def placeText (document : List Char) (position : Nat) : String :=
  let before := document.take position
  let column := (before.reverse.takeWhile (· ≠ '\n')).length + 1
  ": line " ++ (toString (before.count '\n' + 1) ++ (" column " ++ (toString column ++
    (" (char " ++ (toString position ++ ")")))))

def errorText (msg : String) (document : List Char) (position : Nat) : String :=
  msg ++ placeText document position

end Json

end Formats
