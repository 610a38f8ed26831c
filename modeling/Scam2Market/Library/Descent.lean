import Mathlib.Analysis.InnerProductSpace.Basic
import Mathlib.Analysis.InnerProductSpace.ProdL2
import Mathlib.Analysis.SpecialFunctions.Log.Deriv
import Mathlib.Analysis.SpecialFunctions.Sigmoid
import Mathlib.Analysis.Convex.Deriv
import Mathlib.Tactic.Linarith
import Mathlib.Tactic.Ring
import Scam2Market.Library.Numerals

/-!
# Gradient descent

Steps of fixed length against the gradient of a convex function, and the logistic loss of a line as the
function they are used on.

* `Smooth f gradient bound`: the function lies above its tangents, and below them with `bound / 2` times
  the square added.
* `Smooth.descend_le`: a step that is short enough does not raise the function.
* `Smooth.iterate_le`: after `n` steps the function is at most its value anywhere else, with the squared
  distance from the start over `2 * rate * n` added.
* `smooth_logisticLoss`: the mean logistic loss of a list of points is smooth, with a quarter of the mean
  of `x ^ 2 + 1` as its bound.
-/

namespace Scam2Market
namespace Library

attribute [local instance] atLeastTwo_two

open scoped RealInnerProductSpace

/-! ## Descent -/

section Descent

variable {E : Type*} [NormedAddCommGroup E] [InnerProductSpace ℝ E]

/-- The function lies above its tangents, and not far above them. -/
structure Smooth (f : E → ℝ) (gradient : E → E) (bound : ℝ) : Prop where
  above : ∀ θ v, f θ + ⟪gradient θ, v⟫ ≤ f (θ + v)
  below : ∀ θ v, f (θ + v) ≤ f θ + ⟪gradient θ, v⟫ + bound / 2 * ‖v‖ ^ 2

/-- One step against the gradient. -/
def descend (gradient : E → E) (rate : ℝ) (θ : E) : E :=
  θ - rate • gradient θ

namespace Smooth

variable {f : E → ℝ} {gradient : E → E} {bound rate : ℝ}

/-- **A short step lowers the function.** -/
theorem descend_le (h : Smooth f gradient bound) (hrate : 0 ≤ rate) (hshort : rate * bound ≤ 1) (θ : E) :
    f (descend gradient rate θ) ≤ f θ - rate / 2 * ‖gradient θ‖ ^ 2 := by
  have hstep := h.below θ (-(rate • gradient θ))
  rw [inner_neg_right, real_inner_smul_right, real_inner_self_eq_norm_sq, norm_neg, norm_smul,
    Real.norm_of_nonneg hrate, ← sub_eq_add_neg] at hstep
  have hsquare : rate * bound * (rate * ‖gradient θ‖ ^ 2) ≤ 1 * (rate * ‖gradient θ‖ ^ 2) :=
    mul_le_mul_of_nonneg_right hshort (mul_nonneg hrate (sq_nonneg _))
  calc f (descend gradient rate θ)
      ≤ f θ + -(rate * ‖gradient θ‖ ^ 2) + bound / 2 * (rate * ‖gradient θ‖) ^ 2 := hstep
    _ = f θ - rate * ‖gradient θ‖ ^ 2 + rate * bound * (rate * ‖gradient θ‖ ^ 2) / 2 := by ring
    _ ≤ f θ - rate / 2 * ‖gradient θ‖ ^ 2 := by linarith

theorem descend_le_self (h : Smooth f gradient bound) (hrate : 0 ≤ rate) (hshort : rate * bound ≤ 1)
    (θ : E) : f (descend gradient rate θ) ≤ f θ :=
  (h.descend_le hrate hshort θ).trans
    (sub_le_self _ (mul_nonneg (div_nonneg hrate zero_le_two) (sq_nonneg _)))

/-- What a step gains on any point, in terms of the distances to it before and after. -/
theorem descend_gain (h : Smooth f gradient bound) (hrate : 0 ≤ rate) (hshort : rate * bound ≤ 1)
    (θ θ' : E) :
    2 * rate * (f (descend gradient rate θ) - f θ') ≤
      ‖θ - θ'‖ ^ 2 - ‖descend gradient rate θ - θ'‖ ^ 2 := by
  have hlower := h.descend_le hrate hshort θ
  have htangent := h.above θ (θ' - θ)
  rw [add_sub_cancel] at htangent
  have hdistance : ‖descend gradient rate θ - θ'‖ ^ 2 =
      ‖θ - θ'‖ ^ 2 + 2 * rate * ⟪gradient θ, θ' - θ⟫ + rate ^ 2 * ‖gradient θ‖ ^ 2 := by
    have hsplit : descend gradient rate θ - θ' = (θ - θ') - rate • gradient θ := by
      rw [descend, sub_right_comm]
    rw [hsplit, norm_sub_sq_real, real_inner_smul_right, norm_smul, Real.norm_of_nonneg hrate,
      real_inner_comm, ← neg_sub θ' θ, inner_neg_right]
    rw [norm_neg, norm_sub_rev]
    ring
  rw [hdistance]
  have hscaled := mul_le_mul_of_nonneg_left (add_le_add hlower htangent)
    (mul_nonneg zero_le_two hrate)
  linarith [hscaled]

theorem iterate_succ_le (h : Smooth f gradient bound) (hrate : 0 ≤ rate) (hshort : rate * bound ≤ 1)
    (n : ℕ) (θ : E) : f ((descend gradient rate)^[n + 1] θ) ≤ f ((descend gradient rate)^[n] θ) := by
  rw [Function.iterate_succ_apply']
  exact h.descend_le_self hrate hshort _

/-- The gains of `n` steps. -/
theorem iterate_gain (h : Smooth f gradient bound) (hrate : 0 ≤ rate) (hshort : rate * bound ≤ 1)
    (n : ℕ) (θ θ' : E) :
    2 * rate * n * (f ((descend gradient rate)^[n] θ) - f θ') ≤
      ‖θ - θ'‖ ^ 2 - ‖(descend gradient rate)^[n] θ - θ'‖ ^ 2 := by
  induction n with
  | zero => simp
  | succ n ih =>
    have hgain := h.descend_gain hrate hshort ((descend gradient rate)^[n] θ) θ'
    have hlower := h.iterate_succ_le hrate hshort n θ
    rw [← Function.iterate_succ_apply' (descend gradient rate)] at hgain
    have hearlier : 2 * rate * n * (f ((descend gradient rate)^[n + 1] θ) - f θ') ≤
        2 * rate * n * (f ((descend gradient rate)^[n] θ) - f θ') :=
      mul_le_mul_of_nonneg_left (sub_le_sub_right hlower _)
        (mul_nonneg (mul_nonneg zero_le_two hrate) n.cast_nonneg)
    rw [Nat.cast_succ]
    linarith

/-- **After `n` steps the function is almost as low as anywhere else.** -/
theorem iterate_le (h : Smooth f gradient bound) (hrate : 0 < rate) (hshort : rate * bound ≤ 1)
    {n : ℕ} (hn : 0 < n) (θ θ' : E) :
    f ((descend gradient rate)^[n] θ) ≤ f θ' + ‖θ - θ'‖ ^ 2 / (2 * rate * n) := by
  have hgain := h.iterate_gain hrate.le hshort n θ θ'
  have hpos : 0 < 2 * rate * n := mul_pos (mul_pos two_pos hrate) (Nat.cast_pos.mpr hn)
  have hdistance : 2 * rate * n * (f ((descend gradient rate)^[n] θ) - f θ') ≤ ‖θ - θ'‖ ^ 2 :=
    hgain.trans (sub_le_self _ (sq_nonneg _))
  rw [← sub_le_iff_le_add', le_div_iff₀ hpos, mul_comm]
  exact hdistance

end Smooth

end Descent

/-! ## The logistic loss -/

/-- `f` lies above its tangents when its slope grows. -/
theorem tangent_le {f f' : ℝ → ℝ} (hf : ∀ x, HasDerivAt f (f' x) x) (hmono : Monotone f') (a h : ℝ) :
    f a + h * f' a ≤ f (a + h) := by
  have hconvex : ConvexOn ℝ Set.univ f := by
    refine Monotone.convexOn_univ_of_deriv (fun x => (hf x).differentiableAt) ?_
    rwa [funext fun x => (hf x).deriv]
  rcases lt_trichotomy h 0 with hneg | hzero | hpos
  · have hslope := hconvex.slope_le_of_hasDerivAt (Set.mem_univ (a + h)) (Set.mem_univ a)
      (add_lt_of_neg_right a hneg) (hf a)
    rw [slope_def_field, sub_add_cancel_left, div_le_iff₀ (neg_pos.mpr hneg)] at hslope
    linarith
  · simp [hzero]
  · have hslope := hconvex.le_slope_of_hasDerivAt (Set.mem_univ a) (Set.mem_univ (a + h))
      (lt_add_of_pos_right a hpos) (hf a)
    rw [slope_def_field, add_sub_cancel_left, le_div_iff₀ hpos] at hslope
    linarith

/-- `log (1 + exp x)`. -/
noncomputable def softplus (x : ℝ) : ℝ :=
  Real.log (1 + Real.exp x)

theorem hasDerivAt_softplus (x : ℝ) : HasDerivAt softplus (Real.sigmoid x) x := by
  have hpos : (0 : ℝ) < 1 + Real.exp x := add_pos one_pos (Real.exp_pos x)
  have hderiv := ((Real.hasDerivAt_exp x).const_add 1).log hpos.ne'
  refine hderiv.congr_deriv ?_
  rw [Real.sigmoid_def, Real.exp_neg]
  field_simp
  ring

theorem softplus_tangent_le (a h : ℝ) : softplus a + h * Real.sigmoid a ≤ softplus (a + h) :=
  tangent_le hasDerivAt_softplus Real.sigmoid_monotone a h

/-- `softplus` bends by a quarter at most. -/
theorem softplus_le_tangent_add (a h : ℝ) :
    softplus (a + h) ≤ softplus a + h * Real.sigmoid a + h ^ 2 / 8 := by
  have hderiv : ∀ x, HasDerivAt (fun x => x ^ 2 / 8 - softplus x) (x / 4 - Real.sigmoid x) x := by
    intro x
    have hsquare : HasDerivAt (fun x : ℝ => x ^ 2 / 8) (x / 4) x :=
      ((hasDerivAt_pow 2 x).div_const 8).congr_deriv (by ring)
    exact hsquare.sub (hasDerivAt_softplus x)
  have hmono : Monotone fun x : ℝ => x / 4 - Real.sigmoid x := by
    have hslope : ∀ x : ℝ, HasDerivAt (fun x : ℝ => x / 4 - Real.sigmoid x)
        (1 / 4 - Real.sigmoid x * (1 - Real.sigmoid x)) x := fun x =>
      ((hasDerivAt_id' x).div_const 4).sub (Real.hasDerivAt_sigmoid x)
    refine monotone_of_deriv_nonneg (fun x => (hslope x).differentiableAt) fun x => ?_
    rw [(hslope x).deriv]
    linarith [sq_nonneg (Real.sigmoid x - 1 / 2)]
  have htangent := tangent_le hderiv hmono a h
  linarith

/-- The logistic loss of a value of the line, for an outcome that is zero or one. -/
noncomputable def pointLoss (outcome value : ℝ) : ℝ :=
  softplus value - outcome * value

/-- The slope and the intercept of a line. -/
abbrev Line : Type :=
  WithLp 2 (ℝ × ℝ)

/-- The line at a point. -/
def Line.at (line : Line) (x : ℝ) : ℝ :=
  line.fst * x + line.snd

variable (points : List (ℝ × ℝ))

/-- The mean loss over the points, each an abscissa and an outcome. -/
noncomputable def logisticLoss (line : Line) : ℝ :=
  (points.map fun point => pointLoss point.2 (line.at point.1)).sum / points.length

/-- Its gradient. -/
noncomputable def logisticGradient (line : Line) : Line :=
  WithLp.toLp 2
    ((points.map fun point => (Real.sigmoid (line.at point.1) - point.2) * point.1).sum / points.length,
      (points.map fun point => Real.sigmoid (line.at point.1) - point.2).sum / points.length)

/-- A quarter of the mean of `x ^ 2 + 1`. -/
noncomputable def logisticBound : ℝ :=
  (points.map fun point => point.1 ^ 2 + 1).sum / points.length / 4

variable {points}

theorem Line.at_add (line move : Line) (x : ℝ) : (line + move).at x = line.at x + move.at x := by
  simp only [Line.at, WithLp.add_fst, WithLp.add_snd]
  ring

theorem Line.sq_at_le (move : Line) (x : ℝ) : move.at x ^ 2 ≤ (x ^ 2 + 1) * ‖move‖ ^ 2 := by
  rw [WithLp.prod_norm_sq_eq_of_L2, Real.norm_eq_abs, Real.norm_eq_abs, sq_abs, sq_abs, Line.at]
  linarith [sq_nonneg (move.fst - move.snd * x)]

/-- What the gradient says about a move is the mean of what its points say. -/
theorem inner_logisticGradient (line move : Line) :
    ⟪logisticGradient points line, move⟫ =
      (points.map fun point => move.at point.1 * (Real.sigmoid (line.at point.1) - point.2)).sum /
        points.length := by
  rw [WithLp.prod_inner_apply]
  have hsum : (points.map fun point => move.at point.1 * (Real.sigmoid (line.at point.1) - point.2)).sum =
      move.fst * (points.map fun point => (Real.sigmoid (line.at point.1) - point.2) * point.1).sum +
        move.snd * (points.map fun point => Real.sigmoid (line.at point.1) - point.2).sum := by
    rw [← List.sum_map_mul_left, ← List.sum_map_mul_left, ← List.sum_map_add]
    refine congrArg List.sum (List.map_congr_left fun point _ => ?_)
    rw [Line.at]
    ring
  rw [hsum, add_div]
  simp only [logisticGradient, RCLike.inner_apply, conj_trivial, WithLp.fst, WithLp.snd]
  ring

/-- **The logistic loss is smooth.** -/
theorem smooth_logisticLoss (points : List (ℝ × ℝ)) :
    Smooth (logisticLoss points) (logisticGradient points) (logisticBound points) where
  above line move := by
    rw [logisticLoss, logisticLoss, inner_logisticGradient, ← add_div, ← List.sum_map_add]
    refine div_le_div_of_nonneg_right (List.sum_le_sum fun point _ => ?_) (Nat.cast_nonneg _)
    have htangent := softplus_tangent_le (line.at point.1) (move.at point.1)
    rw [Line.at_add, pointLoss, pointLoss]
    linarith
  below line move := by
    have hbound : logisticBound points / 2 * ‖move‖ ^ 2 =
        (points.map fun point => (point.1 ^ 2 + 1) * (‖move‖ ^ 2 / 8)).sum / points.length := by
      rw [logisticBound, List.sum_map_mul_right]
      ring
    rw [hbound, logisticLoss, logisticLoss, inner_logisticGradient, ← add_div, ← add_div,
      ← List.sum_map_add, ← List.sum_map_add]
    refine div_le_div_of_nonneg_right (List.sum_le_sum fun point _ => ?_) (Nat.cast_nonneg _)
    have htangent := softplus_le_tangent_add (line.at point.1) (move.at point.1)
    have hsquare := move.sq_at_le point.1
    rw [Line.at_add, pointLoss, pointLoss]
    linarith

end Library
end Scam2Market
