import Mathlib.Data.Finset.Max
import CloudifyKubernetes.K8s.Definition

namespace CloudifyKubernetes

open Collections

namespace KubernetesResourceDefinition

variable {letters : CaseMapping}

def empties (pieces : List (List Char)) : Nat := pieces.countP List.isEmpty

def words (pieces : List (List Char)) : Nat := pieces.countP fun piece => !piece.isEmpty

theorem empties_add_words (pieces : List (List Char)) : empties pieces + words pieces = pieces.length := by
  rw [empties, words, List.length_eq_countP_add_countP List.isEmpty]
  congr
  funext piece
  cases piece <;> rfl

def underscores (chars : List Char) : Nat := chars.count '_'

section Pieces

variable {pieces : List (List Char)}

theorem underscores_of_clean {piece : List Char} (clean : '_' ∉ piece) : underscores piece = 0 :=
  List.count_eq_zero.mpr clean

theorem camelcasePieces_word (started : Bool) (c : Char) (piece : List Char) (rest : List (List Char)) :
    camelcasePieces letters started ((c :: piece) :: rest) =
      (if started then letters.capitalize (c :: piece) else letters.lower (c :: piece)) ++
        camelcasePieces letters true rest := by
  cases started <;> rfl

theorem underscores_camelcase (clean : ∀ piece ∈ pieces, '_' ∉ piece) (started : Bool) :
    underscores (camelcasePieces letters started pieces) = empties pieces := by
  induction pieces generalizing started with
  | nil => rfl
  | cons piece rest ih =>
    obtain ⟨first, others⟩ := List.forall_mem_cons.mp clean
    cases piece with
    | nil =>
      have later := ih others started
      simp only [underscores, empties] at later
      simp [camelcasePieces, underscores, empties, later]
    | cons c piece =>
      have later := ih others true
      have word : underscores (if started then letters.capitalize (c :: piece) else letters.lower (c :: piece)) = 0 := by
        cases started with
        | false => exact underscores_of_clean (letters.lower_clean _ first)
        | true => exact underscores_of_clean (letters.capitalize_clean _ first)
      simp only [underscores, empties] at later word
      rw [camelcasePieces_word, underscores, List.count_append, word, later]
      simp [empties]

theorem underscores_intercalate (clean : ∀ piece ∈ pieces, '_' ∉ piece) (some : pieces ≠ []) :
    underscores (['_'].intercalate pieces) + 1 = pieces.length := by
  induction pieces with
  | nil => exact absurd rfl some
  | cons piece rest ih =>
    obtain ⟨first, others⟩ := List.forall_mem_cons.mp clean
    have head := underscores_of_clean first
    by_cases last : rest = []
    · subst last
      simp [head]
    · have later := ih others last
      simp only [underscores] at head later
      rw [List.intercalate_cons_of_ne_nil last]
      simp only [underscores, List.count_append, head, List.count_singleton_self, List.length_cons]
      omega

theorem camelcase_wordless (none : words pieces = 0) (started : Bool) :
    camelcasePieces letters started pieces = List.replicate pieces.length '_' := by
  induction pieces generalizing started with
  | nil => rfl
  | cons piece rest ih =>
    cases piece with
    | nil =>
      have later : words rest = 0 := by simpa [words] using none
      rw [camelcasePieces, ih later, List.length_cons, List.replicate_succ]
    | cons c piece => simp [words] at none

theorem intercalate_wordless (none : words pieces = 0) (front : List Char) :
    ['_'].intercalate (front :: pieces) = front ++ List.replicate pieces.length '_' := by
  induction pieces generalizing front with
  | nil => simp
  | cons piece rest ih =>
    cases piece with
    | nil =>
      have later : words rest = 0 := by simpa [words] using none
      rw [List.intercalate_cons_cons, ih later, List.length_cons, List.replicate_succ]
      simp
    | cons c piece => simp [words] at none

theorem lowered_wordless (none : words pieces = 0) : pieces.map letters.lower = pieces := by
  refine (List.map_congr_left fun piece member => ?_).trans (List.map_id _)
  cases piece with
  | nil => exact letters.lower_nil
  | cons c piece =>
    refine absurd (List.countP_eq_zero.mp none _ member) ?_
    simp

theorem camelcase_of_one_word (one : words pieces = 1) :
    camelcasePieces letters false pieces = ['_'].intercalate (pieces.map letters.lower) := by
  induction pieces with
  | nil => simp [words] at one
  | cons piece rest ih =>
    cases piece with
    | nil =>
      have later : words rest = 1 := by simpa [words] using one
      have some : rest.map letters.lower ≠ [] := by
        rintro none
        rw [List.map_eq_nil_iff.mp none] at later
        simp [words] at later
      rw [camelcasePieces, ih later, List.map_cons, letters.lower_nil, List.intercalate_cons_of_ne_nil some]
      rfl
    | cons c piece =>
      have later : words rest = 0 := by simpa [words] using one
      rw [camelcasePieces_word, camelcase_wordless later, List.map_cons, lowered_wordless later,
        intercalate_wordless later]
      rfl

theorem mem_intercalate {piece : List Char} (member : piece ∈ pieces) {c : Char} (inside : c ∈ piece) :
    c ∈ ['_'].intercalate pieces := by
  induction pieces with
  | nil => cases member
  | cons first rest ih =>
    by_cases last : rest = []
    · subst last
      rw [List.mem_singleton.mp member] at inside
      simpa using inside
    · rw [List.intercalate_cons_of_ne_nil last]
      rcases List.mem_cons.mp member with rfl | later
      · simp [inside]
      · simp [ih later]

end Pieces

def Capital (letters : CaseMapping) (chars : List Char) : Prop :=
  (splitOn ['_'] chars).map letters.lower ≠ splitOn ['_'] chars

instance (letters : CaseMapping) (chars : List Char) : Decidable (Capital letters chars) :=
  inferInstanceAs (Decidable (_ ≠ _))

def rank (letters : CaseMapping) (chars : List Char) : Int :=
  if chars = List.replicate (underscores chars) '_' then -(underscores chars)
  else 2 * underscores chars + if Capital letters chars then 1 else 0

theorem rank_underscores (n : Nat) : rank letters (List.replicate n '_') = -n := by
  simp [rank, underscores]

theorem rank_of_word {chars : List Char} {c : Char} (member : c ∈ chars) (letter : c ≠ '_') :
    rank letters chars = 2 * underscores chars + if Capital letters chars then 1 else 0 := by
  refine if_neg fun same => letter ?_
  rw [same] at member
  exact List.eq_of_mem_replicate member

theorem rank_le (chars : List Char) :
    rank letters chars ≤ 2 * underscores chars + if Capital letters chars then 1 else 0 := by
  unfold rank
  split
  · split <;> omega
  · exact Int.le_refl _

theorem rank_camelcasePieces {pieces : List (List Char)} (clean : ∀ piece ∈ pieces, '_' ∉ piece) (some : pieces ≠ [])
    (changed : camelcasePieces letters false pieces ≠ ['_'].intercalate pieces) :
    rank letters (camelcasePieces letters false pieces) < rank letters (['_'].intercalate pieces) := by
  have joined := underscores_intercalate clean some
  have left : underscores (camelcasePieces letters false pieces) = empties pieces := underscores_camelcase clean false
  have parts := empties_add_words pieces
  rcases Nat.eq_zero_or_pos (words pieces) with none | word
  · -- Underscores only: one more than before.
    obtain ⟨first, rest, rfl⟩ := List.exists_cons_of_ne_nil some
    cases first with
    | nil =>
      have later : words rest = 0 := by simpa [words] using none
      rw [intercalate_wordless later, camelcase_wordless none, List.nil_append, rank_underscores, rank_underscores,
        List.length_cons]
      omega
    | cons c first => simp [words] at none
  · obtain ⟨piece, member, filled⟩ := List.countP_pos_iff.mp word
    obtain ⟨c, rest, rfl⟩ : ∃ c rest, piece = c :: rest := by cases piece <;> simp_all
    have letter : c ≠ '_' := fun same => clean _ member (same ▸ List.mem_cons_self)
    have before := @rank_of_word letters _ c (mem_intercalate member List.mem_cons_self) letter
    have after := @rank_le letters (camelcasePieces letters false pieces)
    by_cases one : words pieces = 1
    · -- One word loses its capitals.
      have split : splitOn ['_'] (['_'].intercalate pieces) = pieces := splitOn_intercalate clean some
      have lowered : ∀ piece ∈ pieces.map letters.lower, '_' ∉ piece := by
        intro piece member
        obtain ⟨original, inside, rfl⟩ := List.mem_map.mp member
        exact letters.lower_clean original (clean original inside)
      have split' := splitOn_intercalate lowered (by simpa using some)
      rw [camelcase_of_one_word one] at changed left after ⊢
      have capital : Capital letters (['_'].intercalate pieces) := by
        intro same
        rw [split] at same
        exact changed (by rw [same])
      have low : ¬ Capital letters (['_'].intercalate (pieces.map letters.lower)) := by
        rw [Capital, split', not_not, List.map_map]
        exact List.map_congr_left fun piece _ => letters.lower_lower piece
      rw [if_pos capital] at before
      rw [if_neg low] at after
      omega
    · split at after <;> split at before <;> omega

theorem rank_underscoreToCamelcase {key : String} (changed : underscoreToCamelcase letters key ≠ key) :
    rank letters (underscoreToCamelcase letters key).toList < rank letters key.toList := by
  have clean : ∀ piece ∈ splitOn ['_'] key.toList, '_' ∉ piece := not_mem_splitScan _ List.not_mem_nil
  have some : splitOn ['_'] key.toList ≠ [] := splitScan_ne_nil _ _ _ _
  have joined : ['_'].intercalate (splitOn ['_'] key.toList) = key.toList := intercalate_splitScan '_' _ _
  have smaller := @rank_camelcasePieces letters _ clean some
  rw [joined] at smaller
  rw [underscoreToCamelcase, String.toList_ofList]
  apply smaller
  intro same
  exact changed (by rw [underscoreToCamelcase, same, String.ofList_toList])

/-- Of keys that are conversions of each other every one is its own conversion. -/
theorem converted_of_permuted {keys : List String}
    (permuted : ∀ key ∈ keys, ∃ other ∈ keys, underscoreToCamelcase letters other = key) :
    ∀ key ∈ keys, underscoreToCamelcase letters key = key := by
  by_contra some
  push Not at some
  have changed : (keys.filter fun key => underscoreToCamelcase letters key ≠ key).toFinset.Nonempty := by
    obtain ⟨key, member, different⟩ := some
    exact ⟨key, by simpa using ⟨member, different⟩⟩
  -- One of the largest rank comes from a key that is not changed, which is itself.
  obtain ⟨key, here, largest⟩ :=
    Finset.exists_max_image _ (fun key : String => rank letters key.toList) changed
  simp only [List.mem_toFinset, List.mem_filter, decide_eq_true_eq] at here largest
  obtain ⟨other, member, converted⟩ := permuted key here.1
  by_cases same : underscoreToCamelcase letters other = other
  · rw [← converted, same] at here
    exact here.2 same
  · have smaller := rank_underscoreToCamelcase same
    have bound := largest other ⟨member, same⟩
    rw [converted] at smaller
    omega

/-- The keys of the source are ASCII, and are converted in the same way by every mapping. -/
theorem camelcasePieces_ascii {pieces : List (List Char)} (plain : ∀ piece ∈ pieces, ∀ c ∈ piece, c.toNat < 128)
    (started : Bool) : camelcasePieces letters started pieces = camelcasePieces .ascii started pieces := by
  induction pieces generalizing started with
  | nil => rfl
  | cons piece rest ih =>
    obtain ⟨first, others⟩ := List.forall_mem_cons.mp plain
    cases piece with
    | nil => rw [camelcasePieces, camelcasePieces, ih others]
    | cons c piece =>
      rw [camelcasePieces_word, camelcasePieces_word, ih others, letters.lower_eq_ascii first,
        letters.capitalize_eq_ascii (by simp) first]

def isAscii (key : String) : Bool := key.toList.all fun c => Nat.blt c.toNat 128

theorem underscoreToCamelcase_ascii {key : String} (ascii : isAscii key = true) :
    underscoreToCamelcase letters key = underscoreToCamelcase .ascii key := by
  have plain : ∀ c ∈ key.toList, c.toNat < 128 := fun c inside =>
    Nat.le_of_ble_eq_true (List.all_eq_true.mp ascii c inside)
  have pieces : ∀ piece ∈ splitOn ['_'] key.toList, ∀ c ∈ piece, c.toNat < 128 := by
    intro piece member c inside
    have joined : ['_'].intercalate (splitOn ['_'] key.toList) = key.toList := intercalate_splitScan '_' _ _
    exact plain c (joined ▸ mem_intercalate member inside)
  rw [underscoreToCamelcase, camelcasePieces_ascii pieces, underscoreToCamelcase]

end KubernetesResourceDefinition

end CloudifyKubernetes
