import Mathlib.Tactic.Linarith
import Mathlib.Tactic.FieldSimp
import Scam2Market.Python.Values

/-!
# Rounding and thresholds

Which numbers reach a threshold once they are rounded.  A half is rounded to the even neighbour, so
a threshold that is even in the last digit is reached from exactly half a unit below it.
-/

namespace Scam2Market

theorem le_roundHalfEven_iff {n : ℤ} (hn : n % 2 = 0) {value : ℚ} :
    n ≤ roundHalfEven value ↔ (n : ℚ) - 1 / 2 ≤ value := by
  have hlo : (⌊value⌋ : ℚ) ≤ value := Int.floor_le value
  have hhi : value < ⌊value⌋ + 1 := Int.lt_floor_add_one value
  simp only [roundHalfEven]
  split_ifs with hlow hhigh heven
  · constructor
    · intro h
      have h' : (n : ℚ) ≤ ⌊value⌋ := Int.cast_le.mpr h
      linarith
    · intro h
      have h' : (n : ℚ) < (⌊value⌋ + 1 : ℤ) := by
        push_cast
        linarith
      exact Int.lt_add_one_iff.mp (Int.cast_lt.mp h')
  · constructor
    · intro h
      have h' : (n : ℚ) ≤ (⌊value⌋ + 1 : ℤ) := Int.cast_le.mpr h
      push_cast at h'
      linarith
    · intro h
      have h' : (n : ℚ) < (⌊value⌋ + 1 + 1 : ℤ) := by
        push_cast
        linarith
      exact Int.lt_add_one_iff.mp (Int.cast_lt.mp h')
  -- half way between two integers: the even one of them is taken
  · constructor
    · intro h
      have h' : (n : ℚ) ≤ ⌊value⌋ := Int.cast_le.mpr h
      linarith
    · intro h
      have h' : (n : ℚ) ≤ (⌊value⌋ + 1 : ℤ) := by
        push_cast
        linarith
      have hle : n ≤ ⌊value⌋ + 1 := Int.cast_le.mp h'
      omega
  · constructor
    · intro h
      have h' : (n : ℚ) ≤ (⌊value⌋ + 1 : ℤ) := Int.cast_le.mpr h
      push_cast at h'
      linarith
    · intro h
      have h' : (n : ℚ) ≤ (⌊value⌋ + 1 : ℤ) := by
        push_cast
        linarith
      exact Int.cast_le.mp h'

theorem roundHalfEven_le {n : ℤ} {value : ℚ} (h : value ≤ n) : roundHalfEven value ≤ n := by
  have hlo : (⌊value⌋ : ℚ) ≤ value := Int.floor_le value
  have hfloor : ⌊value⌋ ≤ n := Int.cast_le.mp (hlo.trans h)
  -- unless the value is an integer, the integer above its floor is no more than the bound
  have hnext : ⌊value⌋ < value → ⌊value⌋ + 1 ≤ n := by
    intro hlt
    have h' : (⌊value⌋ : ℚ) < n := hlt.trans_le h
    exact Int.cast_lt.mp h'
  simp only [roundHalfEven]
  split_ifs
  · exact hfloor
  · exact hnext (by linarith)
  · exact hfloor
  · exact hnext (by linarith)

/-- Rounding does not pass a bound that has no more digits. -/
theorem roundTo_le {digits : ℕ} {n : ℤ} {value : ℚ} (h : value ≤ n / 10 ^ digits) :
    roundTo digits value ≤ n / 10 ^ digits := by
  have hpow : (0 : ℚ) < 10 ^ digits := by positivity
  rw [roundTo, div_le_div_iff_of_pos_right hpow, Int.cast_le]
  exact roundHalfEven_le ((le_div_iff₀ hpow).mp h)

/-- A threshold that is even in the last digit is reached from half a unit below it. -/
theorem le_roundTo_iff {digits : ℕ} {n : ℤ} (hn : n % 2 = 0) {value : ℚ} :
    (n : ℚ) / 10 ^ digits ≤ roundTo digits value ↔
      (n : ℚ) / 10 ^ digits - 1 / 2 / 10 ^ digits ≤ value := by
  have hpow : (0 : ℚ) < 10 ^ digits := by positivity
  rw [roundTo, div_le_div_iff_of_pos_right hpow, Int.cast_le, le_roundHalfEven_iff hn, ← sub_div,
    div_le_iff₀ hpow]

/-! ## Rounding as a function -/

/-- A number is rounded by half a unit at most. -/
theorem roundHalfEven_near (value : ℚ) :
    (roundHalfEven value : ℚ) - 1 / 2 ≤ value ∧ value ≤ roundHalfEven value + 1 / 2 := by
  have hlo : (⌊value⌋ : ℚ) ≤ value := Int.floor_le value
  have hhi : value < ⌊value⌋ + 1 := Int.lt_floor_add_one value
  simp only [roundHalfEven]
  split_ifs with hlow hhigh heven
  · constructor <;> linarith
  · push_cast
    constructor <;> linarith
  · constructor <;> linarith
  · push_cast
    constructor <;> linarith

theorem roundHalfEven_intCast (n : ℤ) : roundHalfEven n = n := by
  have hself : (n : ℚ) - ⌊(n : ℚ)⌋ < 1 / 2 := by
    rw [Int.floor_intCast, sub_self]
    norm_num
  rw [roundHalfEven, if_pos hself, Int.floor_intCast]

theorem roundHalfEven_mono {a b : ℚ} (h : a ≤ b) : roundHalfEven a ≤ roundHalfEven b := by
  by_contra hlt
  -- both are then half way between two integers, and equal
  have hnext : (roundHalfEven b : ℚ) + 1 ≤ roundHalfEven a := by
    exact_mod_cast Int.add_one_le_iff.mpr (not_le.mp hlt)
  obtain ⟨hlo, -⟩ := roundHalfEven_near a
  obtain ⟨-, hhi⟩ := roundHalfEven_near b
  have heq : a = b := by linarith
  rw [heq] at hlt
  exact hlt le_rfl

variable {digits : ℕ}

theorem roundTo_mono {a b : ℚ} (h : a ≤ b) : roundTo digits a ≤ roundTo digits b := by
  have hpow : (0 : ℚ) < 10 ^ digits := by positivity
  rw [roundTo, roundTo, div_le_div_iff_of_pos_right hpow, Int.cast_le]
  exact roundHalfEven_mono (mul_le_mul_of_nonneg_right h hpow.le)

/-- A number with no more digits stays. -/
theorem roundTo_decimal (digits : ℕ) (n : ℤ) :
    roundTo digits (n / 10 ^ digits) = n / 10 ^ digits := by
  have hpow : (10 : ℚ) ^ digits ≠ 0 := by positivity
  rw [roundTo, div_mul_cancel₀ _ hpow, roundHalfEven_intCast]

/-- A rounded number has no more digits. -/
theorem exists_roundTo (digits : ℕ) (value : ℚ) : ∃ n : ℤ, roundTo digits value = n / 10 ^ digits :=
  ⟨_, rfl⟩

theorem roundTo_zero (digits : ℕ) : roundTo digits 0 = 0 := by
  have h := roundTo_decimal digits 0
  rwa [Int.cast_zero, zero_div] at h

theorem roundTo_one (digits : ℕ) : roundTo digits 1 = 1 := by
  have hpow : (10 : ℚ) ^ digits ≠ 0 := by positivity
  have h := roundTo_decimal digits (10 ^ digits)
  push_cast at h
  rwa [div_self hpow] at h

/-- What is in the unit interval stays there. -/
theorem roundTo_mem_unit {value : ℚ} (h : 0 ≤ value ∧ value ≤ 1) :
    0 ≤ roundTo digits value ∧ roundTo digits value ≤ 1 := by
  have hlo : roundTo digits 0 ≤ roundTo digits value := roundTo_mono h.1
  have hhi : roundTo digits value ≤ roundTo digits 1 := roundTo_mono h.2
  rw [roundTo_zero] at hlo
  rw [roundTo_one] at hhi
  exact ⟨hlo, hhi⟩

end Scam2Market
