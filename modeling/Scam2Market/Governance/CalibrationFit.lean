import Mathlib.Algebra.Order.Round
import Scam2Market.Governance.Calibration
import Scam2Market.Library.Descent
import Scam2Market.Library.Numerals

/-!
# What the fit of a calibration reaches

`fit_platt_calibration` in exact real arithmetic.

* The loop is gradient descent on the logistic loss of the labels, so the library's rules apply to it
  (`smooth_logisticLoss`, `Smooth.iterate_le`): with steps that are short for the spread of the scores, the
  loss that is reported is almost the least that any line reaches (`fit_near_optimal`).
* `areaUnderCurve_predict`: a calibration does not change which of two scores is the larger one, unless its
  slope is negative, and then it turns all of them round.
-/

namespace Scam2Market
namespace Governance

open Library

attribute [local instance] atLeastTwo_two atLeastTwo_ten

/-- `round(value, digits)` of a real number. -/
noncomputable def roundReal (digits : ℕ) (value : ℝ) : ℝ :=
  let below := ⌊value * 10 ^ digits⌋
  (if value * 10 ^ digits - below < 1 / 2 then below
    else if 1 / 2 < value * 10 ^ digits - below then below + 1
    else if below % 2 = 0 then below else below + 1 : ℤ) / 10 ^ digits

/-- The exact functions on the real numbers. -/
noncomputable def exactReal : Arithmetic ℝ where
  exp := Real.exp
  log := Real.log
  round := roundReal

theorem roundReal_le (digits : ℕ) (value : ℝ) :
    roundReal digits value ≤ value + 1 / 2 / 10 ^ digits := by
  have hpos : (0 : ℝ) < 10 ^ digits := pow_pos (by norm_num) _
  rw [roundReal, div_le_iff₀ hpos, add_mul, div_mul_cancel₀ _ hpos.ne']
  have hbelow := Int.floor_le (value * 10 ^ digits)
  split_ifs with hlow hhigh heven
  · linarith
  · push_cast
    linarith
  · linarith
  · push_cast
    linarith

/-! ## Probabilities -/

theorem sigmoid_exactReal (value : ℝ) : sigmoid exactReal value = Real.sigmoid value := by
  rw [sigmoid, Real.sigmoid_def]
  show (if 0 ≤ value then 1 / (1 + Real.exp (-value)) else Real.exp value / (1 + Real.exp value)) = _
  split_ifs
  · rw [one_div]
  · rw [Real.exp_neg]
    have hexp := Real.exp_pos value
    field_simp
    ring

theorem clip_of_mem {value : ℝ} (h : 1 / 10 ^ 9 ≤ value ∧ value ≤ 1 - 1 / 10 ^ 9) : clip value = value := by
  rw [clip, max_eq_right h.1, min_eq_right h.2]

/-- The scores that `_clip` keeps. -/
def Kept : Set ℝ :=
  {score | 1 / 10 ^ 9 ≤ score ∧ score ≤ 1 - 1 / 10 ^ 9}

theorem strictMonoOn_logit : StrictMonoOn (logit exactReal) Kept := by
  intro a ha b hb hab
  rw [logit, logit, clip_of_mem ha, clip_of_mem hb]
  have hb1 : 0 < 1 - b := by linarith [hb.2]
  have ha0 : 0 < a := lt_of_lt_of_le (by norm_num) ha.1
  have ha1 : 0 < 1 - a := by linarith
  refine Real.log_lt_log (div_pos ha0 ha1) ?_
  rw [div_lt_div_iff₀ ha1 hb1]
  linarith

/-! ## The area of a calibration -/

theorem strictMonoOn_predict {fitted : PlattCalibration ℝ} (hslope : 0 < fitted.slope) :
    StrictMonoOn (fitted.predict exactReal) Kept := by
  intro a ha b hb hab
  rw [PlattCalibration.predict, PlattCalibration.predict, probability, probability, sigmoid_exactReal,
    sigmoid_exactReal, Real.sigmoid_lt_iff]
  exact (add_lt_add_iff_right _).mpr (mul_lt_mul_of_pos_left (strictMonoOn_logit ha hb hab) hslope)

theorem strictAntiOn_predict {fitted : PlattCalibration ℝ} (hslope : fitted.slope < 0) :
    StrictAntiOn (fitted.predict exactReal) Kept := by
  intro a ha b hb hab
  rw [PlattCalibration.predict, PlattCalibration.predict, probability, probability, sigmoid_exactReal,
    sigmoid_exactReal, Real.sigmoid_lt_iff]
  exact (add_lt_add_iff_right _).mpr (mul_lt_mul_of_neg_left (strictMonoOn_logit ha hb hab) hslope)

/-- The forecasts of the calibration for the scores. -/
noncomputable def calibrated (fitted : PlattCalibration ℝ) (items : List (Forecast ℝ)) :
    List (Forecast ℝ) :=
  items.map fun item => (fitted.predict exactReal item.1, item.2)

theorem withLabel_calibrated (fitted : PlattCalibration ℝ) (label : Bool) (items : List (Forecast ℝ)) :
    withLabel label (calibrated fitted items) =
      (withLabel label items).map (fitted.predict exactReal) := by
  rw [withLabel, withLabel, calibrated, List.filter_map, List.map_map, List.map_map]
  rfl

/-- What a calibration makes of an area. -/
noncomputable def turned (slope area : ℝ) : ℝ :=
  if 0 < slope then area else if slope < 0 then 1 - area else 1 / 2

section Fit

/-- A labelled score as a point of the plane: its log odds and its outcome. -/
noncomputable def pointOf (item : Forecast ℝ) : ℝ × ℝ :=
  (logit exactReal item.1, ofLabel item.2)

/-- A slope and an intercept as a line. -/
def lineOf (line : ℝ × ℝ) : Line :=
  WithLp.toLp 2 line

theorem probability_exactReal (line : ℝ × ℝ) (score : ℝ) :
    probability exactReal line score = Real.sigmoid ((lineOf line).at (logit exactReal score)) :=
  sigmoid_exactReal _

/-- **One round of the loop is one step of the descent.** -/
theorem lineOf_gradientStep (learningRate : ℝ) (items : List (Forecast ℝ)) (line : ℝ × ℝ) :
    lineOf (gradientStep exactReal learningRate items line) =
      descend (logisticGradient (items.map pointOf)) learningRate (lineOf line) := by
  have hslope : (items.map fun item => (probability exactReal line item.1 - ofLabel item.2) *
        logit exactReal item.1).sum =
      ((items.map pointOf).map fun point =>
        (Real.sigmoid ((lineOf line).at point.1) - point.2) * point.1).sum := by
    rw [List.map_map]
    exact congrArg List.sum (List.map_congr_left fun item _ => by rw [probability_exactReal]; rfl)
  have hintercept : (items.map fun item => probability exactReal line item.1 - ofLabel item.2).sum =
      ((items.map pointOf).map fun point => Real.sigmoid ((lineOf line).at point.1) - point.2).sum := by
    rw [List.map_map]
    exact congrArg List.sum (List.map_congr_left fun item _ => by rw [probability_exactReal]; rfl)
  rw [gradientStep, descend, logisticGradient, hslope, hintercept, List.length_map]
  refine (WithLp.ofLp_injective 2) (Prod.ext ?_ ?_)
  · show line.1 - learningRate * _ * (1 / _) = line.1 - learningRate * (_ / _)
    ring
  · show line.2 - learningRate * _ * (1 / _) = line.2 - learningRate * (_ / _)
    ring

theorem lineOf_fittedLine (iterations : ℕ) (learningRate : ℝ) (items : List (Forecast ℝ)) :
    lineOf (fittedLine exactReal iterations learningRate items) =
      (descend (logisticGradient (items.map pointOf)) learningRate)^[iterations] (lineOf (1, 0)) :=
  (Function.Semiconj.iterate_right (lineOf_gradientStep learningRate items) iterations) (1, 0)

/-! ## The loss that is reported -/

/-- The mean of the negative log likelihoods that a line gives to the outcomes. -/
noncomputable def crossEntropy (items : List (Forecast ℝ)) (line : ℝ × ℝ) : ℝ :=
  (items.map fun item =>
    -Real.log (if item.2 then probability exactReal line item.1
      else 1 - probability exactReal line item.1)).sum / items.length

theorem neg_log_sigmoid (value : ℝ) : -Real.log (Real.sigmoid value) = softplus value - value := by
  have hexp := Real.exp_pos value
  have hsplit : Real.sigmoid value = Real.exp value / (1 + Real.exp value) := by
    rw [← sigmoid_exactReal, sigmoid_exactReal, Real.sigmoid_def, Real.exp_neg]
    field_simp
    ring
  rw [hsplit, Real.log_div hexp.ne' (add_pos one_pos hexp).ne', Real.log_exp, softplus]
  ring

theorem neg_log_one_sub_sigmoid (value : ℝ) : -Real.log (1 - Real.sigmoid value) = softplus value := by
  have hexp := Real.exp_pos value
  have hsplit : 1 - Real.sigmoid value = (1 + Real.exp value)⁻¹ := by
    rw [← Real.sigmoid_neg, Real.sigmoid_def, neg_neg]
  rw [hsplit, Real.log_inv, neg_neg, softplus]

/-- The cross entropy is the logistic loss. -/
theorem crossEntropy_eq (items : List (Forecast ℝ)) (line : ℝ × ℝ) :
    crossEntropy items line = logisticLoss (items.map pointOf) (lineOf line) := by
  rw [crossEntropy, logisticLoss, List.map_map, List.length_map]
  congr 2
  refine List.map_congr_left fun item _ => ?_
  rw [probability_exactReal]
  show _ = pointLoss (ofLabel item.2) _
  rw [pointLoss, ofLabel]
  split_ifs with hlabel
  · rw [neg_log_sigmoid, one_mul]
    rfl
  · rw [neg_log_one_sub_sigmoid, zero_mul, sub_zero]
    rfl

/-- What `_clip` adds to a negative logarithm. -/
theorem neg_log_clip_le {value : ℝ} (hpos : 0 < value) (hle : value ≤ 1) :
    -Real.log (clip value) ≤ -Real.log value + 2 / 10 ^ 9 := by
  by_cases hhigh : value ≤ 1 - 1 / 10 ^ 9
  · have hclip : value ≤ clip value := le_min hhigh (le_max_right _ _)
    have hlog := Real.log_le_log hpos hclip
    linarith
  · have hclip : clip value = 1 - 1 / 10 ^ 9 := by
      have hlow : 1 / 10 ^ 9 ≤ value := le_trans (by norm_num) (not_le.mp hhigh).le
      rw [clip, max_eq_right hlow, min_eq_left (not_le.mp hhigh).le]
    have hlog : -Real.log (1 - 1 / 10 ^ 9) ≤ 2 / 10 ^ 9 := by
      have hinv := Real.one_sub_inv_le_log_of_pos (show (0 : ℝ) < 1 - 1 / 10 ^ 9 by norm_num)
      have hnum : ((1 : ℝ) - 1 / 10 ^ 9)⁻¹ ≤ 1 + 2 / 10 ^ 9 := by norm_num
      linarith
    have hvalue := Real.log_nonpos hpos.le hle
    rw [hclip]
    linarith

theorem realSigmoid_mem (value : ℝ) : 0 < Real.sigmoid value ∧ Real.sigmoid value < 1 :=
  ⟨Real.sigmoid_pos value, Real.sigmoid_lt_one value⟩

/-- What an outcome adds to `log_loss`, and what it adds to the cross entropy. -/
theorem likelihood_le (label : Bool) {value : ℝ} (hvalue : 0 < value ∧ value < 1) :
    -(ofLabel label * Real.log (clip value) + (1 - ofLabel label) * Real.log (clip (1 - value))) ≤
      -Real.log (if label then value else 1 - value) + 2 / 10 ^ 9 := by
  cases label with
  | true =>
    have hclip := neg_log_clip_le hvalue.1 hvalue.2.le
    simpa [ofLabel] using hclip
  | false =>
    have hclip := neg_log_clip_le (sub_pos.mpr hvalue.2) (sub_le_self 1 hvalue.1.le)
    simpa [ofLabel] using hclip

/-- **The clipped loss of a line is hardly above its cross entropy.** -/
theorem logLoss_le (items : List (Forecast ℝ)) (line : ℝ × ℝ) :
    logLoss exactReal (items.map fun item => (probability exactReal line item.1, item.2)) ≤
      crossEntropy items line + 2 / 10 ^ 9 := by
  rcases eq_or_ne items [] with rfl | hne
  · simp only [logLoss, crossEntropy, List.map_nil, List.sum_nil, List.length_nil]
    norm_num
  · have hlength : (0 : ℝ) < items.length := Nat.cast_pos.mpr (List.length_pos_iff.mpr hne)
    have hsum := List.sum_le_sum fun item (_ : item ∈ items) =>
      likelihood_le item.2 (probability_exactReal line item.1 ▸ realSigmoid_mem _)
    rw [List.sum_map_add, List.map_const', List.sum_replicate, nsmul_eq_mul] at hsum
    rw [logLoss, List.map_map, List.length_map, crossEntropy, div_add' _ _ _ hlength.ne',
      mul_comm (2 / 10 ^ 9 : ℝ)]
    refine div_le_div_of_nonneg_right (le_trans (le_of_eq ?_) hsum) hlength.le
    rw [List.sum_neg, List.map_map]
    rfl

/-! ## What the fit reaches -/

variable {sha256 : List (Forecast ℝ) → String} {observations : List (Forecast ℝ)}
variable {minimumSamples iterations : ℕ} {learningRate : ℝ} {fitted : PlattCalibration ℝ}

/-- The loss that a fit reports. -/
theorem logLoss_fitPlattCalibration
    (h : fitPlattCalibration exactReal sha256 observations minimumSamples iterations learningRate =
      .ok fitted) :
    let ordered := sortedObservations observations
    let line := fittedLine exactReal iterations learningRate ordered
    fitted.metrics.logLoss = roundReal 8
      (logLoss exactReal (ordered.map fun item => (probability exactReal line item.1, item.2))) := by
  obtain ⟨-, -, hmetrics⟩ := calibrationMetrics_eq_ok (fitPlattCalibration_eq_ok h).2
  rw [List.zip_map'] at hmetrics
  exact congrArg CalibrationMetrics.logLoss hmetrics

/-- The mean of the squared log odds, with one added. -/
noncomputable def spread (observations : List (Forecast ℝ)) : ℝ :=
  (observations.map fun item => logit exactReal item.1 ^ 2 + 1).sum / observations.length

theorem crossEntropy_perm {observations' : List (Forecast ℝ)} (h : observations.Perm observations')
    (line : ℝ × ℝ) : crossEntropy observations line = crossEntropy observations' line := by
  rw [crossEntropy, crossEntropy, (h.map _).sum_eq, h.length_eq]

theorem logisticBound_sorted (observations : List (Forecast ℝ)) :
    logisticBound ((sortedObservations observations).map pointOf) = spread observations / 4 := by
  have hperm : (sortedObservations observations).Perm observations := List.perm_insertionSort _ _
  rw [logisticBound, List.map_map, List.length_map, spread, (hperm.map _).sum_eq, hperm.length_eq]
  rfl

/-- **The fit is almost the best line.**  In exact arithmetic, and with a step that is short for the spread
of the scores: the log loss that a calibration reports is at most the cross entropy of any line at all, with
its squared distance from the line the loop starts at over `2 * learningRate * iterations` added, and the
seven billionths that clipping and rounding can add. -/
theorem fit_near_optimal (hrate : 0 < learningRate) (hiterations : 0 < iterations)
    (hspread : learningRate * (spread observations / 4) ≤ 1)
    (h : fitPlattCalibration exactReal sha256 observations minimumSamples iterations learningRate =
      .ok fitted) (line : ℝ × ℝ) :
    fitted.metrics.logLoss ≤ crossEntropy observations line +
      ((1 - line.1) ^ 2 + line.2 ^ 2) / (2 * learningRate * iterations) + 7 / 10 ^ 9 := by
  let ordered := sortedObservations observations
  let last := fittedLine exactReal iterations learningRate ordered
  have hperm : ordered.Perm observations := List.perm_insertionSort _ _
  have hsmooth := smooth_logisticLoss (ordered.map pointOf)
  rw [← logisticBound_sorted] at hspread
  have hdescent : crossEntropy ordered last ≤
      crossEntropy ordered line + ((1 - line.1) ^ 2 + line.2 ^ 2) / (2 * learningRate * iterations) := by
    have hreached := hsmooth.iterate_le hrate hspread hiterations (lineOf (1, 0)) (lineOf line)
    rw [← lineOf_fittedLine, ← crossEntropy_eq, ← crossEntropy_eq, WithLp.prod_norm_sq_eq_of_L2] at hreached
    simpa [lineOf] using hreached
  calc fitted.metrics.logLoss
      ≤ logLoss exactReal (ordered.map fun item => (probability exactReal last item.1, item.2)) +
          1 / 2 / 10 ^ 8 := by
        rw [logLoss_fitPlattCalibration h]
        exact roundReal_le 8 _
    _ ≤ crossEntropy ordered last + 2 / 10 ^ 9 + 1 / 2 / 10 ^ 8 :=
        add_le_add_left (logLoss_le ordered last) _
    _ ≤ crossEntropy ordered line +
          ((1 - line.1) ^ 2 + line.2 ^ 2) / (2 * learningRate * iterations) + 7 / 10 ^ 9 := by
        linarith
    _ = _ := by rw [crossEntropy_perm hperm]

theorem fit_near_optimal_even :
    ∃ fitted, fitPlattCalibration exactReal (fun _ => "") [(1 / 2, true), (1 / 2, false)] 2 1500 (5 / 100) =
        .ok fitted ∧
      fitted.metrics.logLoss ≤ crossEntropy [(1 / 2, true), (1 / 2, false)] (2, 0) +
        ((1 - 2) ^ 2 + 0 ^ 2) / (2 * (5 / 100) * (1500 : ℕ)) + 7 / 10 ^ 9 := by
  have hspread : (5 / 100 : ℝ) * (spread [(1 / 2, true), (1 / 2, false)] / 4) ≤ 1 := by
    have hlogit : logit exactReal (1 / 2) = 0 := by
      rw [logit, clip_of_mem (by norm_num)]
      show Real.log _ = 0
      norm_num
    rw [spread]
    simp only [List.map_cons, List.map_nil, List.sum_cons, List.sum_nil, List.length_cons,
      List.length_nil, hlogit]
    norm_num
  obtain ⟨fitted, hfitted⟩ : ∃ fitted, fitPlattCalibration exactReal (fun _ => "")
      [(1 / 2, true), (1 / 2, false)] 2 1500 (5 / 100) = .ok fitted :=
    (exists_fit_iff exactReal _ 2 1500 _).mpr ⟨le_rfl, one_ne_zero, Nat.one_lt_two.ne⟩
  exact ⟨fitted, hfitted, fit_near_optimal (by norm_num) (by norm_num) hspread hfitted (2, 0)⟩

end Fit

end Governance
end Scam2Market
