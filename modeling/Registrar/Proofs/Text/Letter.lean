/-! # ASCII letters

The letters, their lower case and their upper case by their code points.
-/

namespace Registrar.Text

theorem isAlpha_iff {c : Char} : c.isAlpha = true ↔
    65 ≤ c.val.toNat ∧ c.val.toNat ≤ 90 ∨ 97 ≤ c.val.toNat ∧ c.val.toNat ≤ 122 := by
  delta Char.isAlpha Char.isUpper Char.isLower
  simp only [Bool.or_eq_true, Bool.and_eq_true, decide_eq_true_eq, UInt32.le_iff_toNat_le,
    ge_iff_le]
  rfl

theorem isUpper_iff {c : Char} :
    c.isUpper = true ↔ 65 ≤ c.val.toNat ∧ c.val.toNat ≤ 90 := by
  delta Char.isUpper
  simp only [decide_eq_true_eq, UInt32.le_iff_toNat_le, ge_iff_le]
  rfl

theorem isLower_iff {c : Char} :
    c.isLower = true ↔ 97 ≤ c.val.toNat ∧ c.val.toNat ≤ 122 := by
  delta Char.isLower
  simp only [Bool.and_eq_true, decide_eq_true_eq, UInt32.le_iff_toNat_le, ge_iff_le]
  rfl

theorem isAlpha_of_isUpper {c : Char} (h : c.isUpper = true) : c.isAlpha = true :=
  isAlpha_iff.2 (.inl (isUpper_iff.1 h))

theorem isAlpha_of_isLower {c : Char} (h : c.isLower = true) : c.isAlpha = true :=
  isAlpha_iff.2 (.inr (isLower_iff.1 h))

theorem isDigit_iff {c : Char} :
    c.isDigit = true ↔ 48 ≤ c.val.toNat ∧ c.val.toNat ≤ 57 := by
  delta Char.isDigit
  simp only [Bool.and_eq_true, decide_eq_true_eq, UInt32.le_iff_toNat_le, ge_iff_le]
  rfl

theorem toNat_toLower (c : Char) : c.toLower.val.toNat =
    if 65 ≤ c.val.toNat ∧ c.val.toNat ≤ 90 then c.val.toNat + 32 else c.val.toNat := by
  have hA : 'A'.val.toNat = 65 := rfl
  have hZ : 'Z'.val.toNat = 90 := rfl
  unfold Char.toLower
  simp only [ge_iff_le, UInt32.le_iff_toNat_le, hA, hZ]
  split
  · next h =>
    rw [UInt32.toNat_add, show ('a'.val - 'A'.val).toNat = 32 from rfl]
    omega
  · rfl

theorem toNat_toUpper (c : Char) : c.toUpper.val.toNat =
    if 97 ≤ c.val.toNat ∧ c.val.toNat ≤ 122 then c.val.toNat - 32 else c.val.toNat := by
  have ha : 'a'.val.toNat = 97 := rfl
  have hz : 'z'.val.toNat = 122 := rfl
  unfold Char.toUpper
  simp only [UInt32.le_iff_toNat_le, ha, hz]
  split
  · next h =>
    rw [UInt32.toNat_add, show ('A'.val - 'a'.val).toNat = 2 ^ 32 - 32 from rfl]
    omega
  · rfl

theorem toLower_toUpper (c : Char) : c.toUpper.toLower = c.toLower := by
  have hupper := toNat_toUpper c
  have h := toNat_toLower c.toUpper
  have hlower := toNat_toLower c
  rw [Char.ext_iff, ← UInt32.toNat_inj]
  split at hupper <;> split at h <;> split at hlower <;> omega

theorem toUpper_toLower (c : Char) : c.toLower.toUpper = c.toUpper := by
  have hupper := toNat_toUpper c
  have h := toNat_toUpper c.toLower
  have hlower := toNat_toLower c
  rw [Char.ext_iff, ← UInt32.toNat_inj]
  split at hupper <;> split at h <;> split at hlower <;> omega

theorem toLower_toLower (c : Char) : c.toLower.toLower = c.toLower := by
  have h := toNat_toLower c.toLower
  have hlower := toNat_toLower c
  rw [Char.ext_iff, ← UInt32.toNat_inj]
  split at h <;> split at hlower <;> omega

theorem isDigit_toLower (c : Char) : c.toLower.isDigit = c.isDigit := by
  have hlower := toNat_toLower c
  rw [Bool.eq_iff_iff, isDigit_iff, isDigit_iff]
  split at hlower <;> omega

theorem toUpper_of_isDigit {c : Char} (h : c.isDigit = true) : c.toUpper = c := by
  have hupper := toNat_toUpper c
  rw [isDigit_iff] at h
  rw [Char.ext_iff, ← UInt32.toNat_inj]
  split at hupper <;> omega

theorem toUpper_of_isUpper {c : Char} (h : c.isUpper = true) : c.toUpper = c := by
  have hupper := toNat_toUpper c
  rw [isUpper_iff] at h
  rw [Char.ext_iff, ← UInt32.toNat_inj]
  split at hupper <;> omega

theorem toLower_eq_iff {c x : Char} (hx : x.isAlpha = false) : c.toLower = x ↔ c = x := by
  have hlower := toNat_toLower c
  rw [← Bool.not_eq_true, isAlpha_iff] at hx
  simp only [Char.ext_iff, ← UInt32.toNat_inj]
  split at hlower <;> omega

end Registrar.Text
