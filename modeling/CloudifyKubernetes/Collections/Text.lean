import Mathlib.Data.List.Infix

namespace Collections

variable {α : Type}

theorem infix_of_head_absent {head : α} {rest front back : List α}
    (inside : head :: rest <:+: front ++ back) (absent : head ∉ front) : head :: rest <:+: back := by
  induction front with
  | nil => exact inside
  | cons c front ih =>
    rw [List.cons_append, List.infix_cons_iff] at inside
    rcases inside with start | inside
    · rw [List.cons_prefix_cons] at start
      exact absurd (start.1 ▸ List.mem_cons_self) absent
    · exact ih inside fun member => absent (List.mem_cons_of_mem _ member)

theorem infix_append_iff {part front back : List α}
    (apart : ∀ tail, tail <:+ front → tail ≠ [] → ¬ tail <+: part ∧ ¬ part <+: tail) :
    part <:+: front ++ back ↔ part <:+: back := by
  induction front with
  | nil => rfl
  | cons c front ih =>
    have later := ih fun tail inside => apart tail (inside.trans (List.suffix_cons c front))
    rw [List.cons_append, List.infix_cons_iff, later]
    refine or_iff_right fun here => ?_
    obtain ⟨shorter, longer⟩ := apart (c :: front) (List.suffix_refl _) (by simp)
    rcases List.prefix_or_prefix_of_prefix here (List.prefix_append (c :: front) back) with inside | inside
    · exact longer inside
    · exact shorter inside

theorem eq_of_delimited {c : α} {part front rest : List α} (free : c ∉ part) (free' : c ∉ front)
    (inside : part ++ [c] <+: front ++ c :: rest) : part = front := by
  induction part generalizing front with
  | nil =>
    cases front with
    | nil => rfl
    | cons d front =>
      obtain ⟨rfl, _⟩ := List.cons_prefix_cons.mp inside
      exact absurd List.mem_cons_self free'
  | cons d part ih =>
    cases front with
    | nil =>
      obtain ⟨rfl, _⟩ := List.cons_prefix_cons.mp inside
      exact absurd List.mem_cons_self free
    | cons d' front =>
      obtain ⟨rfl, behind⟩ := List.cons_prefix_cons.mp inside
      rw [ih (fun member => free (List.mem_cons_of_mem _ member))
        (fun member => free' (List.mem_cons_of_mem _ member)) behind]

variable [DecidableEq α]

/-- The scan behind `splitOn`: `skip` characters of a separator are still to be passed
    over, `piece` is the current piece in reverse. -/
def splitScan (separator : List α) : Nat → List α → List α → List (List α)
  | _, piece, [] => [piece.reverse]
  | skip + 1, piece, _ :: rest => splitScan separator skip piece rest
  | 0, piece, c :: rest =>
    if separator <+: c :: rest then
      piece.reverse :: splitScan separator (separator.length - 1) [] rest
    else splitScan separator 0 (c :: piece) rest

def splitOn (separator text : List α) : List (List α) := splitScan separator 0 [] text

omit [DecidableEq α] in
theorem singleton_prefix_iff (c d : α) (rest : List α) : [c] <+: d :: rest ↔ c = d := by
  rw [List.cons_prefix_cons]
  simp

theorem splitScan_of_absent {c : α} {tail text : List α} (absent : c ∉ text) (piece : List α) :
    splitScan (c :: tail) 0 piece text = [piece.reverse ++ text] := by
  induction text generalizing piece with
  | nil => simp [splitScan]
  | cons d rest ih =>
    rw [List.mem_cons, not_or] at absent
    have passed : ¬ c :: tail <+: d :: rest := fun here => absent.1 (List.cons_prefix_cons.mp here).1
    rw [splitScan, if_neg passed, ih absent.2]
    simp

theorem splitScan_skip (separator skipped piece text : List α) :
    splitScan separator skipped.length piece (skipped ++ text) = splitScan separator 0 piece text := by
  induction skipped with
  | nil => rfl
  | cons d rest ih => exact ih

theorem splitScan_once {c : α} {tail front back : List α} (initial : c ∉ tail)
    (before : ¬ c :: tail <:+: front) (behind : c ∉ back) (piece : List α) :
    splitScan (c :: tail) 0 piece (front ++ c :: (tail ++ back)) = [piece.reverse ++ front, back] := by
  induction front generalizing piece with
  | nil =>
    have here : c :: tail <+: c :: (tail ++ back) := List.cons_prefix_cons.mpr ⟨rfl, List.prefix_append _ _⟩
    rw [List.nil_append, splitScan, if_pos here, List.length_cons, Nat.add_sub_cancel, splitScan_skip,
      splitScan_of_absent behind]
    simp
  | cons d rest ih =>
    have passed : ¬ c :: tail <+: d :: rest ++ c :: (tail ++ back) := by
      intro here
      obtain ⟨rfl, inside⟩ := List.cons_prefix_cons.mp here
      by_cases fits : tail.length ≤ rest.length
      · have short : tail <+: rest := List.prefix_of_prefix_length_le inside (List.prefix_append _ _) fits
        exact before (List.cons_prefix_cons.mpr ⟨rfl, short⟩).isInfix
      · have reaches : rest ++ [c] <+: rest ++ c :: (tail ++ back) := by simp
        have covered : rest ++ [c] <+: tail :=
          List.prefix_of_prefix_length_le reaches inside (by simp; omega)
        exact initial (covered.subset (by simp))
    have later : ¬ c :: tail <:+: rest := fun inside => before (inside.trans (List.suffix_cons d rest).isInfix)
    rw [List.cons_append, splitScan, if_neg (by simpa using passed), ih later]
    simp

theorem not_mem_splitScan {c : α} (text : List α) {piece : List α} (absent : c ∉ piece) :
    ∀ part ∈ splitScan [c] 0 piece text, c ∉ part := by
  induction text generalizing piece with
  | nil => simpa [splitScan] using absent
  | cons d rest ih =>
    intro part member
    simp only [splitScan, singleton_prefix_iff] at member
    split at member
    · rcases List.mem_cons.mp member with rfl | member
      · simpa using absent
      · exact ih (List.not_mem_nil) part member
    · rename_i other
      exact ih (by simp [absent, other]) part member

theorem splitScan_ne_nil (separator piece text : List α) (skip : Nat) :
    splitScan separator skip piece text ≠ [] := by
  induction text generalizing skip piece with
  | nil => cases skip <;> simp [splitScan]
  | cons d rest ih =>
    cases skip with
    | zero =>
      rw [splitScan]
      split
      · simp
      · exact ih _ _
    | succ skip => exact ih _ _

theorem intercalate_splitScan (c : α) (text piece : List α) :
    [c].intercalate (splitScan [c] 0 piece text) = piece.reverse ++ text := by
  induction text generalizing piece with
  | nil => simp [splitScan]
  | cons d rest ih =>
    simp only [splitScan, singleton_prefix_iff]
    split
    · rename_i here
      rw [List.length_singleton, Nat.sub_self,
        List.intercalate_cons_of_ne_nil (splitScan_ne_nil [c] [] rest 0), ih [], here]
      simp
    · rw [ih]
      simp

theorem splitScan_intercalate {c : α} {pieces : List (List α)} (clean : ∀ piece ∈ pieces, c ∉ piece)
    (first piece : List α) (absent : c ∉ first) :
    splitScan [c] 0 piece ([c].intercalate (first :: pieces)) = (piece.reverse ++ first) :: pieces := by
  induction pieces generalizing first piece with
  | nil => simpa using splitScan_of_absent absent piece
  | cons next rest ih =>
    obtain ⟨clean', later⟩ := List.forall_mem_cons.mp clean
    rw [List.intercalate_cons_cons]
    induction first generalizing piece with
    | nil =>
      rw [List.nil_append, List.singleton_append, splitScan, if_pos ((singleton_prefix_iff ..).mpr rfl),
        List.length_singleton, Nat.sub_self, ih later next [] clean']
      simp
    | cons d first ih' =>
      rw [List.mem_cons, not_or] at absent
      rw [List.cons_append, List.cons_append, splitScan, if_neg (fun here => absent.1 ((singleton_prefix_iff ..).mp here)),
        ih' (d :: piece) absent.2]
      simp

theorem splitOn_intercalate {c : α} {pieces : List (List α)} (clean : ∀ piece ∈ pieces, c ∉ piece)
    (some : pieces ≠ []) : splitOn [c] ([c].intercalate pieces) = pieces := by
  obtain ⟨first, rest, rfl⟩ := List.exists_cons_of_ne_nil some
  obtain ⟨absent, later⟩ := List.forall_mem_cons.mp clean
  exact splitScan_intercalate later first [] absent

end Collections

namespace Text

def contains (text part : String) : Bool := decide (part.toList <:+: text.toList)

def split (text separator : String) : List String :=
  (Collections.splitOn separator.toList text.toList).map String.ofList

theorem contains_iff (text part : String) :
    contains text part = true ↔ part.toList <:+: text.toList := by simp [contains]

def apart (front part : String) : Bool :=
  front.toList.tails.all fun tail => tail.isEmpty || !(decide (tail <+: part.toList) || decide (part.toList <+: tail))

theorem contains_append {front part : String} (free : apart front part = true) (back : String) :
    contains (front ++ back) part = contains back part := by
  have starts : ∀ tail, tail <:+ front.toList → tail ≠ [] → ¬ tail <+: part.toList ∧ ¬ part.toList <+: tail := by
    intro tail inside some
    have here := List.all_eq_true.mp free tail ((List.mem_tails _ _).mpr inside)
    simpa [some] using here
  rw [Bool.eq_iff_iff, contains_iff, contains_iff, String.toList_append, Collections.infix_append_iff starts]

theorem contains_append_of_absent {front part : String} {c : Char} {rest : List Char}
    (starts : part.toList = c :: rest) (absent : c ∉ front.toList) (back : String) :
    contains (front ++ back) part = contains back part := by
  rw [Bool.eq_iff_iff, contains_iff, contains_iff, String.toList_append, starts]
  constructor
  · exact fun inside => Collections.infix_of_head_absent inside absent
  · exact fun inside => inside.trans (List.suffix_append _ _).isInfix

theorem toString_injective {i j : Nat} (same : toString i = toString j) : i = j := by
  have digits : Nat.toDigits 10 i = Nat.toDigits 10 j := by
    rw [← Nat.toList_repr, ← Nat.toList_repr]
    exact congrArg String.toList same
  rw [← Nat.ofDigitChars_ten_toDigits (n := i), digits, Nat.ofDigitChars_ten_toDigits]

theorem mem_toString_int {i : Int} {c : Char} (member : c ∈ (toString i).toList) :
    c = '-' ∨ c.isDigit = true := by
  rw [Int.toString_eq_repr, Int.repr_eq_if] at member
  have digit {n : Nat} (member : c ∈ n.repr.toList) : c.isDigit = true := by
    rw [Nat.toList_repr] at member
    exact Nat.isDigit_of_mem_toDigits (by decide) (by decide) member
  split at member
  · exact .inr (digit member)
  · rw [String.toList_append, List.mem_append] at member
    rcases member with sign | member
    · exact .inl (List.mem_singleton.mp sign)
    · exact .inr (digit member)

theorem toString_eq_natCast_iff {i : Int} {n : Nat} : toString i = toString n ↔ i = n := by
  constructor
  · intro same
    rw [Int.toString_eq_repr, Int.repr_eq_if] at same
    split at same
    · have equal := toString_injective (i := i.toNat) same
      omega
    · have sign : '-' ∈ (toString n).toList := by
        rw [← same]
        simp
      have digit := Nat.isDigit_of_mem_toDigits (by decide) (by decide) (Nat.toList_repr ▸ sign)
      exact absurd digit (by decide)
  · rintro rfl
    rfl

theorem split_once {front separator back : String} {c : Char} {tail : List Char}
    (starts : separator.toList = c :: tail) (initial : c ∉ tail) (before : contains front separator = false)
    (behind : c ∉ back.toList) : split (front ++ separator ++ back) separator = [front, back] := by
  have absent : ¬ c :: tail <:+: front.toList := by
    rw [← starts, ← contains_iff, before]
    decide
  have whole := Collections.splitScan_once initial absent behind []
  rw [split, Collections.splitOn, String.toList_append, String.toList_append, starts, List.append_assoc,
    List.cons_append, whole]
  simp

theorem split_of_absent {text : String} {c : Char} (absent : c ∉ text.toList) :
    split text (String.singleton c) = [text] := by
  have separator : (String.singleton c).toList = [c] := by simp
  rw [split, separator, Collections.splitOn, Collections.splitScan_of_absent absent]
  simp

theorem not_mem_split {text part : String} {c : Char} (member : part ∈ split text (String.singleton c)) :
    c ∉ part.toList := by
  have separator : (String.singleton c).toList = [c] := by simp
  rw [split, separator, List.mem_map] at member
  obtain ⟨piece, inside, rfl⟩ := member
  simpa using Collections.not_mem_splitScan _ List.not_mem_nil piece inside

example : split "conf/app.yaml#0" ".yaml" = ["conf/app", "#0"] := by decide +kernel

end Text
