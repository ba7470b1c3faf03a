namespace CloudifyKubernetes

/-- `str.lower` and `str.capitalize` on the characters of a text. Their tables are those of Unicode:
    what is told of them here holds of each version of the tables. -/
structure CaseMapping where
  lower : List Char → List Char
  capitalize : List Char → List Char
  lower_ascii : ∀ text, (∀ c ∈ text, c.toNat < 128) → lower text = text.map Char.toLower
  capitalize_ascii : ∀ c text, (∀ d ∈ c :: text, d.toNat < 128) →
    capitalize (c :: text) = c.toUpper :: text.map Char.toLower
  lower_lower : ∀ text, lower (lower text) = lower text
  lower_clean : ∀ text, '_' ∉ text → '_' ∉ lower text
  capitalize_clean : ∀ text, '_' ∉ text → '_' ∉ capitalize text

namespace CaseMapping

theorem isUpper_iff (c : Char) : c.isUpper = true ↔ 65 ≤ c.val.toNat ∧ c.val.toNat ≤ 90 := by
  show decide (c.val ≥ 'A'.val ∧ c.val ≤ 'Z'.val) = true ↔ 'A'.val.toNat ≤ c.val.toNat ∧ c.val.toNat ≤ 'Z'.val.toNat
  rw [decide_eq_true_iff, ge_iff_le, UInt32.le_iff_toNat_le, UInt32.le_iff_toNat_le]

theorem toLower_val (c : Char) :
    c.toLower.val.toNat = if c.isUpper then c.val.toNat + 32 else c.val.toNat := by
  have bounds := isUpper_iff c
  unfold Char.toLower
  split
  · rename_i range
    simp only [ge_iff_le, UInt32.le_iff_toNat_le, Char.reduceVal, UInt32.reduceToNat] at range
    rw [if_pos (bounds.mpr range)]
    simp only [Char.reduceVal, UInt32.reduceSub, UInt32.toNat_add, UInt32.reduceToNat]
    omega
  · rename_i range
    simp only [ge_iff_le, UInt32.le_iff_toNat_le, Char.reduceVal, UInt32.reduceToNat] at range
    rw [if_neg (fun upper => range (bounds.mp upper))]

theorem toUpper_val (c : Char) :
    c.toUpper.val.toNat = if 97 ≤ c.val.toNat ∧ c.val.toNat ≤ 122 then c.val.toNat - 32 else c.val.toNat := by
  unfold Char.toUpper
  split
  · rename_i range
    simp only [UInt32.le_iff_toNat_le, Char.reduceVal, UInt32.reduceToNat] at range
    rw [if_pos range]
    simp only [Char.reduceVal, UInt32.reduceSub, UInt32.toNat_add, UInt32.reduceToNat]
    omega
  · rename_i range
    simp only [UInt32.le_iff_toNat_le, Char.reduceVal, UInt32.reduceToNat] at range
    rw [if_neg range]

theorem toLower_ne_underscore {c : Char} (plain : c ≠ '_') : c.toLower ≠ '_' := by
  intro same
  have value := toLower_val c
  have upper := isUpper_iff c
  rw [same] at value
  have here : c.val.toNat ≠ 95 := fun here => plain (Char.ext (UInt32.toNat_inj.mp here))
  split at value
  · rename_i is
    have range := upper.mp is
    simp only [Char.reduceVal, UInt32.reduceToNat] at value
    omega
  · exact here value.symm

theorem toUpper_ne_underscore {c : Char} (plain : c ≠ '_') : c.toUpper ≠ '_' := by
  intro same
  have value := toUpper_val c
  rw [same] at value
  have here : c.val.toNat ≠ 95 := fun here => plain (Char.ext (UInt32.toNat_inj.mp here))
  simp only [Char.reduceVal, UInt32.reduceToNat] at value
  split at value <;> omega

theorem not_isUpper_toLower (c : Char) : c.toLower.isUpper = false := by
  rw [Bool.eq_false_iff]
  intro upper
  have range := (isUpper_iff _).mp upper
  rw [toLower_val] at range
  split at range
  · rename_i is
    have original := (isUpper_iff c).mp is
    omega
  · rename_i is
    exact is ((isUpper_iff c).mpr range)

theorem toLower_toLower (c : Char) : c.toLower.toLower = c.toLower := by
  apply Char.ext
  apply UInt32.toNat_inj.mp
  rw [toLower_val c.toLower, not_isUpper_toLower]
  rfl

theorem map_toLower_clean (text : List Char) (clean : '_' ∉ text) : '_' ∉ text.map Char.toLower := by
  intro member
  obtain ⟨c, inside, same⟩ := List.mem_map.mp member
  exact toLower_ne_underscore (fun here => clean (here ▸ inside)) same

def capitalizeAscii : List Char → List Char
  | [] => []
  | c :: text => c.toUpper :: text.map Char.toLower

theorem capitalizeAscii_clean (text : List Char) (clean : '_' ∉ text) : '_' ∉ capitalizeAscii text := by
  cases text with
  | nil => exact clean
  | cons c text =>
    rw [List.mem_cons, not_or] at clean
    rw [capitalizeAscii, List.mem_cons, not_or]
    exact ⟨(toUpper_ne_underscore (Ne.symm clean.1)).symm, map_toLower_clean text clean.2⟩

def ascii : CaseMapping where
  lower text := text.map Char.toLower
  capitalize := capitalizeAscii
  lower_ascii _ _ := rfl
  capitalize_ascii _ _ _ := rfl
  lower_lower text := by
    rw [List.map_map]
    exact List.map_congr_left fun c _ => toLower_toLower c
  lower_clean := map_toLower_clean
  capitalize_clean := capitalizeAscii_clean

theorem lower_nil (letters : CaseMapping) : letters.lower [] = [] := letters.lower_ascii [] (by simp)

theorem lower_eq_ascii (letters : CaseMapping) {text : List Char} (plain : ∀ c ∈ text, c.toNat < 128) :
    letters.lower text = ascii.lower text := letters.lower_ascii text plain

theorem capitalize_eq_ascii (letters : CaseMapping) {text : List Char} (some : text ≠ [])
    (plain : ∀ c ∈ text, c.toNat < 128) : letters.capitalize text = ascii.capitalize text := by
  obtain ⟨c, text, rfl⟩ := List.exists_cons_of_ne_nil some
  exact letters.capitalize_ascii c text plain

end CaseMapping

end CloudifyKubernetes
