import Mathlib.Algebra.BigOperators.Group.List.Lemmas
import Mathlib.Algebra.Order.BigOperators.Group.List
import Mathlib.Algebra.Order.Field.Basic

/-!
# Weighted means

The mean of a list of weighted values, each entry a weight and a value.  The mean of an empty list,
and of any list whose weights sum to zero, is zero.

* `weightedMean_perm`: the order of the entries does not matter.
* `weightedMean_mem`: with weights that are not negative, the mean of values of `[0, b]` is one.
* `weightedMean_mono`: raising the values does not lower the mean.
-/

namespace Scam2Market
namespace Library

variable {α : Type*} [Field α]

/-- The sum of the products, divided by the sum of the weights. -/
def weightedMean (l : List (α × α)) : α :=
  (l.map fun item => item.1 * item.2).sum / (l.map Prod.fst).sum

/-- The mean that is only divided when the weights do not sum to zero. -/
theorem ite_weightedMean [DecidableEq α] (l : List (α × α)) :
    (if (l.map Prod.fst).sum = 0 then 0
      else (l.map fun item => item.1 * item.2).sum / (l.map Prod.fst).sum) = weightedMean l := by
  rw [weightedMean]
  by_cases h : (l.map Prod.fst).sum = 0
  · rw [if_pos h, h, div_zero]
  · rw [if_neg h]

theorem weightedMean_perm {l l' : List (α × α)} (h : l.Perm l') :
    weightedMean l = weightedMean l' := by
  rw [weightedMean, weightedMean, (h.map _).sum_eq, (h.map Prod.fst).sum_eq]

variable [LinearOrder α] [IsStrictOrderedRing α]

/-- The sum of the products lies between zero and `b` times the sum of the weights. -/
theorem sum_weighted_mem {b : α} {l : List (α × α)} (hweights : ∀ item ∈ l, 0 ≤ item.1)
    (hvalues : ∀ item ∈ l, 0 ≤ item.2 ∧ item.2 ≤ b) :
    0 ≤ (l.map fun item => item.1 * item.2).sum ∧
      (l.map fun item => item.1 * item.2).sum ≤ b * (l.map Prod.fst).sum := by
  induction l with
  | nil => simp
  | cons item l ih =>
    obtain ⟨hlo, hhi⟩ := ih (fun other h => hweights other (List.mem_cons_of_mem _ h))
      fun other h => hvalues other (List.mem_cons_of_mem _ h)
    have hweight := hweights item List.mem_cons_self
    obtain ⟨hvalue, hvalue'⟩ := hvalues item List.mem_cons_self
    have hterm : item.1 * item.2 ≤ b * item.1 := by
      rw [mul_comm b]
      exact mul_le_mul_of_nonneg_left hvalue' hweight
    rw [List.map_cons, List.sum_cons, List.map_cons, List.sum_cons, mul_add]
    exact ⟨add_nonneg (mul_nonneg hweight hvalue) hlo, add_le_add hterm hhi⟩

/-- The mean of values of `[0, b]`. -/
theorem weightedMean_mem {b : α} (hb : 0 ≤ b) {l : List (α × α)}
    (hweights : ∀ item ∈ l, 0 ≤ item.1) (hvalues : ∀ item ∈ l, 0 ≤ item.2 ∧ item.2 ≤ b) :
    0 ≤ weightedMean l ∧ weightedMean l ≤ b := by
  obtain ⟨hlo, hhi⟩ := sum_weighted_mem hweights hvalues
  have htotal : 0 ≤ (l.map Prod.fst).sum :=
    List.sum_nonneg fun weight h => by
      obtain ⟨item, hitem, rfl⟩ := List.mem_map.mp h
      exact hweights item hitem
  exact ⟨div_nonneg hlo htotal, div_le_of_le_mul₀ htotal hb hhi⟩

/-- Raising values does not lower the mean. -/
theorem weightedMean_mono {l l' : List (α × α)} (hweights : ∀ item ∈ l, 0 ≤ item.1)
    (h : List.Forall₂ (fun item item' => item.1 = item'.1 ∧ item.2 ≤ item'.2) l l') :
    weightedMean l ≤ weightedMean l' := by
  have hsums : (l.map fun item => item.1 * item.2).sum ≤ (l'.map fun item => item.1 * item.2).sum ∧
      (l.map Prod.fst).sum = (l'.map Prod.fst).sum ∧ 0 ≤ (l.map Prod.fst).sum := by
    induction h with
    | nil => simp
    | @cons item item' l l' hitem _ ih =>
      obtain ⟨hle, heq, hpos⟩ := ih fun other h => hweights other (List.mem_cons_of_mem _ h)
      have hweight := hweights item List.mem_cons_self
      have hterm : item.1 * item.2 ≤ item'.1 * item'.2 := by
        rw [← hitem.1]
        exact mul_le_mul_of_nonneg_left hitem.2 hweight
      simp only [List.map_cons, List.sum_cons]
      exact ⟨add_le_add hterm hle, by rw [hitem.1, heq], add_nonneg hweight hpos⟩
  obtain ⟨hle, heq, hpos⟩ := hsums
  rw [weightedMean, weightedMean, ← heq]
  exact div_le_div_of_nonneg_right hle hpos

end Library
end Scam2Market
