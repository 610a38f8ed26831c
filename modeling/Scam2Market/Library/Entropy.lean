import Mathlib.Algebra.BigOperators.Ring.List
import Mathlib.Algebra.Order.BigOperators.Group.List
import Mathlib.Analysis.SpecialFunctions.Log.Basic

/-!
# The entropy of a distribution

The shares of a whole are positive numbers whose sum is one.

* `IsDistribution.entropy_nonneg`, `IsDistribution.entropy_le_log`: the entropy of `n` shares lies
  between zero and `log n`.
* `isDistribution_div`: the shares of positive parts in their sum.
-/

namespace Scam2Market
namespace Library

/-- Positive numbers with the sum one. -/
structure IsDistribution (shares : List ℝ) : Prop where
  pos : ∀ share ∈ shares, 0 < share
  sum_eq : shares.sum = 1

/-- `-∑ p log p`. -/
noncomputable def shannonEntropy (shares : List ℝ) : ℝ :=
  -(shares.map fun share => share * Real.log share).sum

theorem shannonEntropy_eq (shares : List ℝ) :
    shannonEntropy shares = (shares.map fun share => -(share * Real.log share)).sum := by
  rw [shannonEntropy, List.sum_neg, List.map_map]
  rfl

/-- The parts of a whole. -/
theorem isDistribution_div {parts : List ℕ} {whole : ℕ} (hpos : ∀ part ∈ parts, 0 < part)
    (hsum : parts.sum = whole) (hwhole : 0 < whole) :
    IsDistribution (parts.map fun part : ℕ => (part / whole : ℝ)) where
  pos := by
    intro share hshare
    obtain ⟨part, hpart, rfl⟩ := List.mem_map.mp hshare
    exact div_pos (Nat.cast_pos.mpr (hpos part hpart)) (Nat.cast_pos.mpr hwhole)
  sum_eq := by
    have hcast : (parts.map fun part : ℕ => (part : ℝ)).sum = whole := by
      rw [← hsum, Nat.cast_list_sum]
    simp only [div_eq_mul_inv]
    rw [List.sum_map_mul_right, hcast, mul_inv_cancel₀ (Nat.cast_ne_zero.mpr hwhole.ne')]

namespace IsDistribution

variable {shares : List ℝ}

theorem le_one (h : IsDistribution shares) {share : ℝ} (hshare : share ∈ shares) : share ≤ 1 := by
  rw [← h.sum_eq]
  exact List.single_le_sum (fun other hother => (h.pos other hother).le) share hshare

/-- No share has a negative part in the entropy. -/
theorem entropy_nonneg (h : IsDistribution shares) : 0 ≤ shannonEntropy shares := by
  rw [shannonEntropy_eq]
  refine List.sum_nonneg fun term hterm => ?_
  obtain ⟨share, hshare, rfl⟩ := List.mem_map.mp hterm
  exact neg_nonneg.mpr (mul_nonpos_of_nonneg_of_nonpos (h.pos share hshare).le
    (Real.log_nonpos (h.pos share hshare).le (h.le_one hshare)))

/-- The entropy's term for a share, by the tangent of the logarithm at one. -/
theorem neg_mul_log_le {share count : ℝ} (hshare : 0 < share) (hcount : 0 < count) :
    -(share * Real.log share) ≤ share * (Real.log count - 1) + count⁻¹ := by
  have htangent := Real.log_le_sub_one_of_pos (inv_pos.mpr (mul_pos hcount hshare))
  rw [Real.log_inv, Real.log_mul hcount.ne' hshare.ne'] at htangent
  have hscaled := mul_le_mul_of_nonneg_left htangent hshare.le
  have hinv : share * ((count * share)⁻¹ - 1) = count⁻¹ - share := by
    field_simp
  rw [hinv] at hscaled
  linarith

/-- **The entropy is largest for equal shares.** -/
theorem entropy_le_log (h : IsDistribution shares) :
    shannonEntropy shares ≤ Real.log shares.length := by
  have hne : shares ≠ [] := by
    rintro rfl
    exact zero_ne_one h.sum_eq
  have hcount : (0 : ℝ) < shares.length := Nat.cast_pos.mpr (List.length_pos_iff.mpr hne)
  have hrest : (shares.map fun _ => (shares.length : ℝ)⁻¹).sum = 1 := by
    rw [List.map_const', List.sum_replicate, nsmul_eq_mul, mul_inv_cancel₀ hcount.ne']
  calc shannonEntropy shares
      = (shares.map fun share => -(share * Real.log share)).sum := shannonEntropy_eq shares
    _ ≤ (shares.map fun share =>
          share * (Real.log shares.length - 1) + (shares.length : ℝ)⁻¹).sum :=
        List.sum_le_sum fun share hshare => neg_mul_log_le (h.pos share hshare) hcount
    _ = Real.log shares.length := by
        rw [List.sum_map_add, hrest, List.sum_map_mul_right, List.map_id', h.sum_eq, one_mul,
          sub_add_cancel]

end IsDistribution

end Library
end Scam2Market
