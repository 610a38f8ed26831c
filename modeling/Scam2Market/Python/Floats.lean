import Mathlib.Algebra.Order.Field.Rat
import Mathlib.Algebra.Order.Group.Unbundled.Abs
import Mathlib.Algebra.Order.BigOperators.Group.List
import Mathlib.Tactic.Linarith
import Mathlib.Tactic.NormNum

/-!
# Floats that need not be finite

A float is a rational number below the bound from which a result overflows, an infinity, or not a
number.  Arithmetic on finite floats is exact up to overflow.

* `PyFloat.Fair`: a finite number that is not negative.
* `pySum_eq`: the sum of fair floats is their exact sum, or infinite when that overflows.
-/

namespace Scam2Market

/-- Half a unit in the last place beyond the greatest double. -/
def overflowBound : ℚ :=
  2 ^ 1024 - 2 ^ 970

theorem overflowBound_pos : 0 < overflowBound :=
  sub_pos.mpr (pow_lt_pow_right₀ one_lt_two (by decide))

/-- A float. -/
inductive PyFloat where
  | finite (value : ℚ) (bounded : |value| < overflowBound)
  | infinity
  | negInfinity
  | nan
  deriving DecidableEq

namespace PyFloat

/-- The float of an exact result. -/
def ofRat (value : ℚ) : PyFloat :=
  if h : |value| < overflowBound then finite value h
  else if 0 < value then infinity
  else negInfinity

/-- `0.0`. -/
def zero : PyFloat :=
  ofRat 0

/-- `isfinite(value)`. -/
def isFinite : PyFloat → Bool
  | finite _ _ => true
  | _ => false

/-- `left < right`, which is false of what is not a number. -/
def lt : PyFloat → PyFloat → Bool
  | finite a _, finite b _ => a < b
  | finite _ _, infinity => true
  | negInfinity, finite _ _ => true
  | negInfinity, infinity => true
  | _, _ => false

/-- `left + right`. -/
def add : PyFloat → PyFloat → PyFloat
  | finite a _, finite b _ => ofRat (a + b)
  | nan, _ => nan
  | _, nan => nan
  | infinity, negInfinity => nan
  | negInfinity, infinity => nan
  | infinity, _ => infinity
  | _, infinity => infinity
  | negInfinity, _ => negInfinity
  | _, negInfinity => negInfinity

/-- `-value`. -/
def neg : PyFloat → PyFloat
  | finite a h => finite (-a) (by rwa [abs_neg])
  | infinity => negInfinity
  | negInfinity => infinity
  | nan => nan

/-- `left - right`. -/
def sub (left right : PyFloat) : PyFloat :=
  add left (neg right)

/-- The number that a finite float is. -/
def toRat : PyFloat → ℚ
  | finite value _ => value
  | _ => 0

/-- A finite number that is not negative. -/
def Fair : PyFloat → Prop
  | finite value _ => 0 ≤ value
  | _ => False

instance (value : PyFloat) : Decidable value.Fair :=
  match value with
  | finite value _ => inferInstanceAs (Decidable (0 ≤ value))
  | infinity => isFalse id
  | negInfinity => isFalse id
  | nan => isFalse id

theorem ofRat_of_lt {value : ℚ} (h : |value| < overflowBound) : ofRat value = finite value h :=
  dif_pos h

/-- A finite float that is not below zero is fair. -/
theorem fair_iff {value : PyFloat} :
    value.Fair ↔ value.isFinite = true ∧ value.lt zero = false := by
  have hzero : zero = finite 0 (by rw [abs_zero]; exact overflowBound_pos) := ofRat_of_lt _
  cases value with
  | finite value h =>
    rw [hzero]
    simp only [Fair, isFinite, lt, decide_eq_false_iff_not, not_lt, true_and]
  | infinity => simp [Fair, isFinite]
  | negInfinity => simp [Fair, isFinite]
  | nan => simp [Fair, isFinite]

/-- The difference of fair floats is fair when it is not negative. -/
theorem fair_sub_iff {left right : PyFloat} (hleft : left.Fair) (hright : right.Fair) :
    (left.sub right).Fair ↔ left.lt right = false := by
  cases left with
  | finite a ha =>
    cases right with
    | finite b hb =>
      simp only [Fair] at hleft hright
      have hbounded : |a - b| < overflowBound := by
        rw [abs_lt] at ha hb ⊢
        constructor
        · linarith
        · linarith
      have hsub : (finite a ha).sub (finite b hb) = finite (a - b) hbounded := by
        rw [sub, neg, add, ← sub_eq_add_neg, ofRat_of_lt hbounded]
      rw [hsub]
      simp only [Fair, lt, decide_eq_false_iff_not, not_lt, sub_nonneg]
    | infinity => exact hright.elim
    | negInfinity => exact hright.elim
    | nan => exact hright.elim
  | infinity => exact hleft.elim
  | negInfinity => exact hleft.elim
  | nan => exact hleft.elim

/-- Which exact results are fair. -/
theorem fair_ofRat_iff {value : ℚ} (h : 0 ≤ value) : (ofRat value).Fair ↔ value < overflowBound := by
  by_cases hbounded : |value| < overflowBound
  · rw [ofRat_of_lt hbounded]
    exact iff_of_true h (by rwa [abs_of_nonneg h] at hbounded)
  · have hpos : 0 < value := by
      rw [abs_of_nonneg h] at hbounded
      exact overflowBound_pos.trans_le (not_lt.mp hbounded)
    rw [ofRat, dif_neg hbounded, if_pos hpos]
    rw [abs_of_nonneg h] at hbounded
    exact iff_of_false id hbounded

theorem ofRat_eq_zero_iff {value : ℚ} (h : 0 ≤ value) : ofRat value = zero ↔ value = 0 := by
  constructor
  · intro heq
    have hfair : (ofRat value).Fair := by
      rw [heq, zero, fair_ofRat_iff le_rfl]
      exact overflowBound_pos
    have hbounded : |value| < overflowBound := by
      rw [abs_of_nonneg h]
      exact (fair_ofRat_iff h).mp hfair
    have hzero : zero = finite 0 (by rw [abs_zero]; exact overflowBound_pos) := ofRat_of_lt _
    rw [ofRat_of_lt hbounded, hzero] at heq
    exact (finite.inj heq)
  · rintro rfl
    rfl

/-- Adding a fair float to an exact sum. -/
theorem add_ofRat {total : ℚ} {value : PyFloat} (htotal : 0 ≤ total) (hvalue : value.Fair) :
    (ofRat total).add value = ofRat (total + value.toRat) := by
  cases value with
  | finite q hq =>
    have hq0 : 0 ≤ q := hvalue
    rw [toRat]
    by_cases hbounded : |total| < overflowBound
    · rw [ofRat_of_lt hbounded, add]
    · have hpos : 0 < total := by
        rw [abs_of_nonneg htotal] at hbounded
        exact overflowBound_pos.trans_le (not_lt.mp hbounded)
      have hsum : ¬ |total + q| < overflowBound := by
        rw [abs_of_nonneg htotal] at hbounded
        rw [abs_of_nonneg (add_nonneg htotal hq0)]
        linarith
      rw [ofRat, dif_neg hbounded, if_pos hpos, ofRat, dif_neg hsum,
        if_pos (add_pos_of_pos_of_nonneg hpos hq0)]
      rfl
  | infinity => exact hvalue.elim
  | negInfinity => exact hvalue.elim
  | nan => exact hvalue.elim

theorem Fair.toRat_nonneg {value : PyFloat} (h : value.Fair) : 0 ≤ value.toRat := by
  cases value with
  | finite value _ => exact h
  | infinity => exact h.elim
  | negInfinity => exact h.elim
  | nan => exact h.elim

end PyFloat

/-- `sum(values)`. -/
def pySum (values : List PyFloat) : PyFloat :=
  values.foldl PyFloat.add .zero

/-- The sum of fair floats is their exact sum, or infinite. -/
theorem pySum_eq {values : List PyFloat} (h : ∀ value ∈ values, value.Fair) :
    pySum values = .ofRat (values.map PyFloat.toRat).sum := by
  have hgeneral : ∀ (values : List PyFloat) (total : ℚ), 0 ≤ total → (∀ value ∈ values, value.Fair) →
      values.foldl PyFloat.add (.ofRat total) = .ofRat (total + (values.map PyFloat.toRat).sum) := by
    intro values
    induction values with
    | nil =>
      intro total _ _
      rw [List.foldl_nil, List.map_nil, List.sum_nil, add_zero]
    | cons value values ih =>
      intro total htotal hfair
      have hvalue : value.Fair := hfair value List.mem_cons_self
      rw [List.foldl_cons, PyFloat.add_ofRat htotal hvalue,
        ih _ (add_nonneg htotal hvalue.toRat_nonneg) fun other hother =>
          hfair other (List.mem_cons_of_mem value hother),
        List.map_cons, List.sum_cons, add_assoc]
  rw [pySum, PyFloat.zero, hgeneral values 0 le_rfl h, zero_add]

end Scam2Market
