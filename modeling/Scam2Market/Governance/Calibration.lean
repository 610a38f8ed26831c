import Mathlib.Data.Bool.Basic
import Mathlib.Data.List.Sort
import Mathlib.Data.Prod.Lex
import Mathlib.Data.Rat.Floor
import Scam2Market.Library.Forecasts
import Scam2Market.Library.Numerals
import Scam2Market.Library.StableSort
import Scam2Market.Python.Rounding
import Scam2Market.Python.Values

/-!
# Calibration

`model_governance/calibration.py`: a line through the log odds of the scores is fitted to labelled
outcomes, and the fit is measured by its Brier score, its log loss, its calibration error and the area under
its curve.

* The numbers are those of an ordered field `K`, with what `math` and `round` compute on them as
  `Arithmetic`.  `Arithmetic.ofFunctions` takes rational numbers for the floats; the exact real functions
  are in `Governance/CalibrationFit`.
* `calibrationMetrics_law`: what the four measures say about each other.
* `calibrationMetrics_perm`, `fitPlattCalibration_perm`: the order of the labels does not matter.
* The hash of the labels is a parameter.
-/

namespace Scam2Market
namespace Governance

open Library

attribute [local instance] atLeastTwo_two atLeastTwo_five atLeastTwo_ten atLeastTwo_hundred

/-- `math.exp`, `math.log` and `round`. -/
structure Arithmetic (K : Type) where
  exp : K → K
  log : K → K
  round : ℕ → K → K

/-- Rational numbers for the floats, rounded as Python does. -/
def Arithmetic.ofFunctions (exp log : ℚ → ℚ) : Arithmetic ℚ where
  exp := exp
  log := log
  round := roundTo

section Measures

variable {K : Type} [Field K] [LinearOrder K]

/-- `float(label)`. -/
def ofLabel (label : Bool) : K :=
  if label then 1 else 0

/-- `_clip(value)`. -/
def clip (value : K) : K :=
  min (1 - 1 / 10 ^ 9) (max (1 / 10 ^ 9) value)

variable (math : Arithmetic K)

/-- `_logit(value)`. -/
def logit (value : K) : K :=
  math.log (clip value / (1 - clip value))

/-- `_sigmoid(value)`. -/
def sigmoid (value : K) : K :=
  if 0 ≤ value then 1 / (1 + math.exp (-value)) else math.exp value / (1 + math.exp value)

/-! ## The measures -/

/-- A forecast and its outcome: `zip(probabilities, labels)`. -/
abbrev Forecast (K : Type) : Type :=
  K × Bool

/-- What a forecast is too high by. -/
def residual (item : Forecast K) : K :=
  item.1 - ofLabel item.2

/-- `brier`. -/
def brierScore (items : List (Forecast K)) : K :=
  (items.map fun item => residual item ^ 2).sum / items.length

/-- `log_loss`. -/
def logLoss (items : List (Forecast K)) : K :=
  -(items.map fun (value, label) =>
    ofLabel label * math.log (clip value) + (1 - ofLabel label) * math.log (clip (1 - value))).sum /
      items.length

/-- `members` of the bin `index`. -/
def members (bins index : ℕ) (items : List (Forecast K)) : List (Forecast K) :=
  items.filter fun item =>
    (((index : K) / bins ≤ item.1 ∧ item.1 < ((index + 1 : ℕ) : K) / bins) ∨
      (index = bins - 1 ∧ item.1 = 1) : Bool)

/-- What a bin adds to `ece`. -/
def binError (count : ℕ) (members : List (Forecast K)) : K :=
  if members = [] then 0
  else
    let confidence := (members.map Prod.fst).sum / members.length
    let accuracy := (members.map fun item => (ofLabel item.2 : K)).sum / members.length
    members.length / count * |confidence - accuracy|

/-- `ece`. -/
def expectedCalibrationError (bins : ℕ) (items : List (Forecast K)) : K :=
  ((List.range bins).map fun index => binError items.length (members bins index items)).sum

/-- `positives`, or `negatives`. -/
def withLabel (label : Bool) (items : List (Forecast K)) : List K :=
  (items.filter fun item => item.2 = label).map Prod.fst

/-- `_auc(probabilities, labels)`. -/
def areaUnderCurve (items : List (Forecast K)) : K :=
  let positives := withLabel true items
  let negatives := withLabel false items
  if positives = [] ∨ negatives = [] then 1 / 2
  else winCount positives negatives / (positives.length * negatives.length)

structure CalibrationMetrics (K : Type) where
  sampleCount : ℕ
  positiveCount : ℕ
  brierScore : K
  logLoss : K
  expectedCalibrationError : K
  auc : K
  deriving DecidableEq

/-- `calibration_metrics(probabilities, labels, bins)`. -/
def calibrationMetrics (probabilities : List K) (labels : List Bool) (bins : ℕ := 10) :
    Except String (CalibrationMetrics K) :=
  if probabilities = [] ∨ probabilities.length ≠ labels.length then
    .error "probabilities and labels must have equal non-zero length"
  else
    let items := probabilities.zip labels
    .ok
      { sampleCount := labels.length
        positiveCount := labels.count true
        brierScore := math.round 8 (brierScore items)
        logLoss := math.round 8 (logLoss math items)
        expectedCalibrationError := math.round 8 (expectedCalibrationError bins items)
        auc := math.round 8 (areaUnderCurve items) }

/-! ## The fit -/

structure PlattCalibration (K : Type) where
  slope : K
  intercept : K
  metrics : CalibrationMetrics K
  dataHash : String
  deriving DecidableEq

/-- The probability of a score on the line. -/
def probability (line : K × K) (score : K) : K :=
  sigmoid math (line.1 * logit math score + line.2)

/-- `PlattCalibration.predict(score)`. -/
def PlattCalibration.predict (fitted : PlattCalibration K) (score : K) : K :=
  probability math (fitted.slope, fitted.intercept) score

/-- One round of the loop of `fit_platt_calibration`. -/
def gradientStep (learningRate : K) (ordered : List (Forecast K)) (line : K × K) : K × K :=
  let error (item : Forecast K) : K := probability math line item.1 - ofLabel item.2
  let slopeGradient := (ordered.map fun item => error item * logit math item.1).sum
  let interceptGradient := (ordered.map error).sum
  let scale : K := 1 / ordered.length
  (line.1 - learningRate * slopeGradient * scale, line.2 - learningRate * interceptGradient * scale)

/-- `sorted(observations)`: by score, and then by label. -/
def sortedObservations (observations : List (Forecast K)) : List (Forecast K) :=
  observations.insertionSort fun a b => toLex a ≤ toLex b

/-- The line after the loop, which starts at the slope one and the intercept zero. -/
def fittedLine (iterations : ℕ) (learningRate : K) (ordered : List (Forecast K)) : K × K :=
  (gradientStep math learningRate ordered)^[iterations] (1, 0)

/-- `fit_platt_calibration(observations, minimum_samples, iterations, learning_rate)`. -/
def fitPlattCalibration (sha256 : List (Forecast K) → String) (observations : List (Forecast K))
    (minimumSamples : ℕ := 20) (iterations : ℕ := 1500) (learningRate : K := 5 / 100) :
    Except String (PlattCalibration K) :=
  let positives := observations.countP Prod.snd
  if observations.length < minimumSamples then
    .error s!"at least {minimumSamples} labels are required"
  else if positives = 0 ∨ positives = observations.length then
    .error "calibration labels must contain both outcomes"
  else
    let ordered := sortedObservations observations
    let line := fittedLine math iterations learningRate ordered
    (calibrationMetrics math (ordered.map fun item => probability math line item.1)
      (ordered.map Prod.snd)).map fun metrics =>
        { slope := math.round 10 line.1
          intercept := math.round 10 line.2
          metrics := metrics
          dataHash := sha256 ordered }

/-! ## Promotion -/

/-- `promotion_checks(...)`. -/
def promotionChecks (metrics : CalibrationMetrics K) (sampleCount minimumSamples : ℕ)
    (maximumEce minimumAuc : K) (driftStatus : Option String)
    (falsePositiveCount falsePositiveBudget : ℕ) (championBrierScore : Option K) (brierTolerance : K)
    (championComparisonRequired : Bool) : List (String × Bool) :=
  [("minimum_samples", minimumSamples ≤ sampleCount),
   ("maximum_ece", metrics.expectedCalibrationError ≤ maximumEce),
   ("minimum_auc", minimumAuc ≤ metrics.auc),
   ("drift_stable", driftStatus ≠ some "DRIFTED"),
   ("false_positive_budget", falsePositiveCount ≤ falsePositiveBudget),
   ("champion_calibration_available", !championComparisonRequired || championBrierScore.isSome),
   ("not_worse_than_champion",
    !championComparisonRequired ||
      championBrierScore.any fun champion => metrics.brierScore ≤ champion + brierTolerance)]

end Measures

/-! ## What the measures say about each other -/

section Law

variable {K : Type} [Field K] [LinearOrder K] {items items' : List (Forecast K)}

/-- The outcomes the other way round. -/
def flipped (items : List (Forecast K)) : List (Forecast K) :=
  items.map fun item => (item.1, !item.2)

omit [Field K] [LinearOrder K] in
theorem withLabel_flipped (label : Bool) (items : List (Forecast K)) :
    withLabel label (flipped items) = withLabel (!label) items := by
  rw [withLabel, withLabel, flipped, List.filter_map, List.map_map]
  refine congrArg₂ List.map rfl (List.filter_congr fun item _ => ?_)
  cases label <;> cases hlabel : item.2 <;> simp [hlabel]

omit [Field K] [LinearOrder K] in
theorem withLabel_perm (label : Bool) (h : items.Perm items') :
    (withLabel label items).Perm (withLabel label items') :=
  (h.filter _).map _

theorem areaUnderCurve_perm (h : items.Perm items') : areaUnderCurve items = areaUnderCurve items' := by
  have hpositives := withLabel_perm true h
  have hnegatives := withLabel_perm false h
  have hnil : ∀ {l l' : List K}, l.Perm l' → (l = [] ↔ l' = []) := fun h => by
    rw [← List.length_eq_zero_iff, h.length_eq, List.length_eq_zero_iff]
  simp only [areaUnderCurve, hnil hpositives, hnil hnegatives, winCount_perm hpositives hnegatives,
    hpositives.length_eq, hnegatives.length_eq]

omit [LinearOrder K] in
theorem brierScore_perm (h : items.Perm items') : brierScore items = brierScore items' := by
  rw [brierScore, brierScore, (h.map _).sum_eq, h.length_eq]

theorem logLoss_perm (math : Arithmetic K) (h : items.Perm items') :
    logLoss math items = logLoss math items' := by
  rw [logLoss, logLoss, (h.map _).sum_eq, h.length_eq]

variable [IsStrictOrderedRing K]

/-- A sigmoid lies in the unit interval, whatever else `math.exp` computes than negative numbers. -/
theorem sigmoid_mem {math : Arithmetic K} (hexp : ∀ value, 0 ≤ math.exp value) (value : K) :
    0 ≤ sigmoid math value ∧ sigmoid math value ≤ 1 := by
  rw [sigmoid]
  split_ifs
  · have hpos : 0 < 1 + math.exp (-value) := add_pos_of_pos_of_nonneg one_pos (hexp _)
    exact ⟨(one_div_pos.mpr hpos).le, div_le_one_of_le₀ (le_add_of_nonneg_right (hexp _)) hpos.le⟩
  · have hpos : 0 < 1 + math.exp value := add_pos_of_pos_of_nonneg one_pos (hexp _)
    exact ⟨div_nonneg (hexp _) hpos.le, div_le_one_of_le₀ (le_add_of_nonneg_left zero_le_one) hpos.le⟩

/-! ### The area under the curve -/

theorem areaUnderCurve_mem (items : List (Forecast K)) :
    0 ≤ areaUnderCurve items ∧ areaUnderCurve items ≤ 1 := by
  simp only [areaUnderCurve]
  split_ifs
  · exact ⟨one_half_pos.le, one_half_lt_one.le⟩
  · have hcount : (0 : K) ≤ (withLabel true items).length * (withLabel false items).length :=
      mul_nonneg (Nat.cast_nonneg _) (Nat.cast_nonneg _)
    exact ⟨div_nonneg (winCount_nonneg _ _) hcount, div_le_one_of_le₀ (winCount_le _ _) hcount⟩

/-- How many pairs there are, when both outcomes occur. -/
theorem pairs_ne_zero {positives negatives : List K} (h : ¬(positives = [] ∨ negatives = [])) :
    (positives.length : K) * negatives.length ≠ 0 := by
  obtain ⟨hpositives, hnegatives⟩ := not_or.mp h
  exact mul_ne_zero (Nat.cast_ne_zero.mpr (fun h => hpositives (List.length_eq_zero_iff.mp h)))
    (Nat.cast_ne_zero.mpr (fun h => hnegatives (List.length_eq_zero_iff.mp h)))

/-- **With the outcomes the other way round, the area is the rest.** -/
theorem areaUnderCurve_flipped (items : List (Forecast K)) :
    areaUnderCurve items + areaUnderCurve (flipped items) = 1 := by
  simp only [areaUnderCurve, withLabel_flipped, Bool.not_true, Bool.not_false]
  by_cases h : withLabel true items = [] ∨ withLabel false items = []
  · rw [if_pos h, if_pos h.symm, add_halves]
  · rw [if_neg h, if_neg fun h' => h h'.symm, mul_comm ((withLabel false items).length : K), ← add_div,
      winCount_add_swap, div_self (pairs_ne_zero h)]

theorem areaUnderCurve_eq_one_iff (h : ¬(withLabel true items = [] ∨ withLabel false items = [])) :
    areaUnderCurve items = 1 ↔
      ∀ a ∈ withLabel true items, ∀ b ∈ withLabel false items, b < a := by
  simp only [areaUnderCurve]
  rw [if_neg h, div_eq_one_iff_eq (pairs_ne_zero h), winCount_eq_iff]

/-! ### The calibration error -/

/-- The bin of a forecast. -/
def binOf [FloorRing K] (bins : ℕ) (item : Forecast K) : ℕ :=
  min ⌊item.1 * bins⌋₊ (bins - 1)

variable {bins : ℕ}

/-- A forecast of the unit interval is a member of its own bin, and of no other. -/
theorem mem_bin_iff [FloorRing K] (hbins : 0 < bins) {index : ℕ} (hindex : index < bins)
    {item : Forecast K} (hitem : 0 ≤ item.1 ∧ item.1 ≤ 1) :
    (((index : K) / bins ≤ item.1 ∧ item.1 < ((index + 1 : ℕ) : K) / bins) ∨
      (index = bins - 1 ∧ item.1 = 1)) ↔ binOf bins item = index := by
  have hpos : (0 : K) < bins := Nat.cast_pos.mpr hbins
  rw [div_le_iff₀ hpos, lt_div_iff₀ hpos, binOf]
  rcases hitem.2.eq_or_lt with hone | hlt
  · rw [hone, one_mul, Nat.floor_natCast, Nat.cast_le, Nat.cast_lt]
    simp only [and_true]
    omega
  · have hfloor : ⌊item.1 * bins⌋₊ < bins := by
      rw [Nat.floor_lt (mul_nonneg hitem.1 hpos.le)]
      exact (mul_lt_iff_lt_one_left hpos).mpr hlt
    rw [min_eq_left (Nat.le_sub_one_of_lt hfloor), Nat.floor_eq_iff (mul_nonneg hitem.1 hpos.le),
      Nat.cast_succ]
    exact or_iff_left fun h => hlt.ne h.2

omit [LinearOrder K] [IsStrictOrderedRing K] in
theorem sum_residual (items : List (Forecast K)) :
    (items.map residual).sum =
      (items.map Prod.fst).sum - (items.map fun item => (ofLabel item.2 : K)).sum := by
  rw [eq_sub_iff_add_eq, ← List.sum_map_add]
  exact congrArg List.sum (List.map_congr_left fun item _ => sub_add_cancel _ _)

/-- A bin adds what its residuals sum to. -/
theorem binError_eq (count : ℕ) (members : List (Forecast K)) :
    binError count members = |(members.map residual).sum| / count := by
  rw [binError]
  split_ifs with hnil
  · rw [hnil, List.map_nil, List.sum_nil, abs_zero, zero_div]
  · have hlength : (0 : K) < members.length :=
      Nat.cast_pos.mpr (List.length_pos_iff.mpr hnil)
    show (members.length : K) / count * |_ / _ - _ / _| = _
    rw [sum_residual, ← sub_div, abs_div, abs_of_pos hlength]
    field_simp

/-- The calibration error is the binned error of the residuals. -/
theorem expectedCalibrationError_eq [FloorRing K] (hbins : 0 < bins)
    (hitems : ∀ item ∈ items, 0 ≤ item.1 ∧ item.1 ≤ 1) :
    expectedCalibrationError bins items =
      binnedError bins (binOf bins) residual items / items.length := by
  have hmembers : ∀ index ∈ List.range bins,
      members bins index items = items.filter fun item => binOf bins item = index := by
    intro index hindex
    refine List.filter_congr fun item hitem => ?_
    exact decide_eq_decide.mpr (mem_bin_iff hbins (List.mem_range.mp hindex) (hitems item hitem))
  rw [expectedCalibrationError, binnedError, div_eq_mul_inv, ← List.sum_map_mul_right]
  refine congrArg List.sum (List.map_congr_left fun index hindex => ?_)
  rw [hmembers index hindex, binError_eq, div_eq_mul_inv]

theorem expectedCalibrationError_perm (bins : ℕ) (h : items.Perm items') :
    expectedCalibrationError bins items = expectedCalibrationError bins items' := by
  rw [expectedCalibrationError, expectedCalibrationError]
  refine congrArg List.sum (List.map_congr_left fun index _ => ?_)
  rw [binError_eq, binError_eq, members, members, ((h.filter _).map residual).sum_eq, h.length_eq]

/-! ### The four measures -/

/-- What the measures of a list of forecasts say about each other, before they are rounded. -/
structure Measured (bins : ℕ) (items : List (Forecast K)) : Prop where
  /-- On the whole the forecasts are no further from the outcomes than the calibration error says. -/
  bias : |(items.map Prod.fst).sum - (items.map fun item => (ofLabel item.2 : K)).sum| / items.length ≤
    expectedCalibrationError bins items
  /-- The Brier score bounds the calibration error. -/
  square : expectedCalibrationError bins items ^ 2 ≤ brierScore items
  brier : 0 ≤ brierScore items ∧ brierScore items ≤ 1
  calibration : 0 ≤ expectedCalibrationError bins items ∧ expectedCalibrationError bins items ≤ 1
  area : 0 ≤ areaUnderCurve items ∧ areaUnderCurve items ≤ 1
  /-- Only perfect forecasts score zero. -/
  perfect : brierScore items = 0 ↔ ∀ item ∈ items, item.1 = ofLabel item.2
  /-- The area is one exactly when every score of a positive is above every score of a negative. -/
  separated : ¬(withLabel true items = [] ∨ withLabel false items = []) →
    (areaUnderCurve items = 1 ↔ ∀ a ∈ withLabel true items, ∀ b ∈ withLabel false items, b < a)
  flip : areaUnderCurve items + areaUnderCurve (flipped items) = 1

theorem sq_residual_mem {item : Forecast K} (hitem : 0 ≤ item.1 ∧ item.1 ≤ 1) :
    0 ≤ residual item ^ 2 ∧ residual item ^ 2 ≤ 1 := by
  refine ⟨sq_nonneg _, (sq_le_one_iff_abs_le_one _).mpr (abs_le.mpr ?_)⟩
  rw [residual, ofLabel]
  split_ifs
  · exact ⟨by linarith [hitem.1], by linarith [hitem.2]⟩
  · exact ⟨by linarith [hitem.1], by linarith [hitem.2]⟩

theorem brierScore_mem (hitems : ∀ item ∈ items, 0 ≤ item.1 ∧ item.1 ≤ 1) :
    0 ≤ brierScore items ∧ brierScore items ≤ 1 := by
  refine ⟨div_nonneg (List.sum_nonneg fun _ h => ?_) (Nat.cast_nonneg _),
    div_le_one_of_le₀ ?_ (Nat.cast_nonneg _)⟩
  · obtain ⟨item, hitem, rfl⟩ := List.mem_map.mp h
    exact (sq_residual_mem (hitems item hitem)).1
  · calc (items.map fun item => residual item ^ 2).sum
        ≤ (items.map fun _ => (1 : K)).sum :=
          List.sum_le_sum fun item hitem => (sq_residual_mem (hitems item hitem)).2
      _ = items.length := by simp

theorem brierScore_eq_zero_iff : brierScore items = 0 ↔ ∀ item ∈ items, item.1 = ofLabel item.2 := by
  rw [brierScore, div_eq_zero_iff, Nat.cast_eq_zero, List.length_eq_zero_iff]
  constructor
  · rintro (hsum | rfl) item hitem
    · have hsquare : residual item ^ 2 = 0 :=
        List.all_zero_of_le_zero_le_of_sum_eq_zero
          (fun x hx => by
            obtain ⟨other, -, rfl⟩ := List.mem_map.mp hx
            exact sq_nonneg _) hsum (List.mem_map_of_mem hitem)
      exact sub_eq_zero.mp (pow_eq_zero_iff two_ne_zero |>.mp hsquare)
    · exact absurd hitem List.not_mem_nil
  · intro h
    refine Or.inl (List.sum_eq_zero fun x hx => ?_)
    obtain ⟨item, hitem, rfl⟩ := List.mem_map.mp hx
    rw [residual, sub_eq_zero.mpr (h item hitem), zero_pow two_ne_zero]

/-- **What the measures say about each other**, for probabilities of the unit interval. -/
theorem measured [FloorRing K] (hbins : 0 < bins) (hitems : ∀ item ∈ items, 0 ≤ item.1 ∧ item.1 ≤ 1) :
    Measured bins items := by
  have hbin : ∀ item ∈ items, binOf bins item < bins := fun item _ =>
    (min_le_right _ _).trans_lt (Nat.sub_one_lt hbins.ne')
  have hcount : (0 : K) ≤ items.length := Nat.cast_nonneg _
  have herror := expectedCalibrationError_eq hbins hitems
  have hsquare : expectedCalibrationError bins items ^ 2 ≤ brierScore items := by
    rw [herror, div_pow, brierScore]
    calc binnedError bins (binOf bins) residual items ^ 2 / (items.length : K) ^ 2
        ≤ items.length * (items.map fun item => residual item ^ 2).sum / (items.length : K) ^ 2 :=
          div_le_div_of_nonneg_right (sq_binnedError_le hbin) (sq_nonneg _)
      _ = (items.map fun item => residual item ^ 2).sum / items.length := by
          rcases eq_or_ne (items.length : K) 0 with hzero | hne
          · rw [hzero, zero_mul, zero_pow two_ne_zero, div_zero, div_zero]
          · field_simp
  have hbrier := brierScore_mem hitems
  have hnonneg : 0 ≤ expectedCalibrationError bins items := by
    rw [herror]
    exact div_nonneg (binnedError_nonneg _ _ _ _) hcount
  exact
    { bias := by
        rw [← sum_residual, herror]
        exact div_le_div_of_nonneg_right (abs_sum_le_binnedError hbin) hcount
      square := hsquare
      brier := hbrier
      calibration := ⟨hnonneg, (sq_le_one_iff₀ hnonneg).mp (hsquare.trans hbrier.2)⟩
      area := areaUnderCurve_mem items
      perfect := brierScore_eq_zero_iff
      separated := areaUnderCurve_eq_one_iff
      flip := areaUnderCurve_flipped items }

end Law

/-! ## The measures that are reported -/

section Reports

variable {K : Type} [Field K] [LinearOrder K] {math : Arithmetic K} {probabilities : List K}
  {labels : List Bool} {bins : ℕ} {metrics : CalibrationMetrics K}

/-- What a report consists of. -/
theorem calibrationMetrics_eq_ok
    (h : calibrationMetrics math probabilities labels bins = .ok metrics) :
    probabilities ≠ [] ∧ probabilities.length = labels.length ∧
      metrics =
        { sampleCount := labels.length
          positiveCount := labels.count true
          brierScore := math.round 8 (brierScore (probabilities.zip labels))
          logLoss := math.round 8 (logLoss math (probabilities.zip labels))
          expectedCalibrationError :=
            math.round 8 (expectedCalibrationError bins (probabilities.zip labels))
          auc := math.round 8 (areaUnderCurve (probabilities.zip labels)) } := by
  rw [calibrationMetrics] at h
  split_ifs at h with hrefused
  obtain ⟨hne, hlength⟩ := not_or.mp hrefused
  exact ⟨hne, not_not.mp hlength, (Except.ok.inj h).symm⟩

/-- A report is refused only for lists that are empty or of different lengths. -/
theorem exists_calibrationMetrics (math : Arithmetic K) (bins : ℕ) (hne : probabilities ≠ [])
    (hlength : probabilities.length = labels.length) :
    ∃ metrics, calibrationMetrics math probabilities labels bins = .ok metrics := by
  rw [calibrationMetrics, if_neg (not_or.mpr ⟨hne, not_not.mpr hlength⟩)]
  exact ⟨_, rfl⟩

/-- The measures of a report lie in the unit interval. -/
structure Reported (metrics : CalibrationMetrics ℚ) : Prop where
  brier : 0 ≤ metrics.brierScore ∧ metrics.brierScore ≤ 1
  calibration : 0 ≤ metrics.expectedCalibrationError ∧ metrics.expectedCalibrationError ≤ 1
  area : 0 ≤ metrics.auc ∧ metrics.auc ≤ 1

theorem measured_zip [IsStrictOrderedRing K] [FloorRing K] (hbins : 0 < bins)
    (hprobabilities : ∀ value ∈ probabilities, 0 ≤ value ∧ value ≤ 1) (labels : List Bool) :
    Measured bins (probabilities.zip labels) :=
  measured hbins fun item hitem => hprobabilities item.1 (List.of_mem_zip hitem).1

theorem reported {exp log : ℚ → ℚ} {probabilities : List ℚ} {metrics : CalibrationMetrics ℚ}
    (hbins : 0 < bins) (hprobabilities : ∀ value ∈ probabilities, 0 ≤ value ∧ value ≤ 1)
    (h : calibrationMetrics (.ofFunctions exp log) probabilities labels bins = .ok metrics) :
    Reported metrics := by
  have hmeasured := measured_zip hbins hprobabilities labels
  obtain ⟨-, -, rfl⟩ := calibrationMetrics_eq_ok h
  exact ⟨roundTo_mem_unit hmeasured.brier, roundTo_mem_unit hmeasured.calibration,
    roundTo_mem_unit hmeasured.area⟩

/-- **What `calibration_metrics` reports of probabilities.**  Whatever `math` computes, and for every
number of bins: the report lies in the unit interval, and before they are rounded its measures bound each
other. -/
theorem calibrationMetrics_measured (exp log : ℚ → ℚ) {probabilities : List ℚ} {labels : List Bool}
    {bins : ℕ} (hbins : 0 < bins) (hne : probabilities ≠ [])
    (hlength : probabilities.length = labels.length)
    (hprobabilities : ∀ value ∈ probabilities, 0 ≤ value ∧ value ≤ 1) :
    ∃ metrics, calibrationMetrics (.ofFunctions exp log) probabilities labels bins = .ok metrics ∧
      Reported metrics ∧ Measured bins (probabilities.zip labels) := by
  obtain ⟨metrics, hmetrics⟩ := exists_calibrationMetrics (.ofFunctions exp log) bins hne hlength
  exact ⟨metrics, hmetrics, reported hbins hprobabilities hmetrics,
    measured_zip hbins hprobabilities labels⟩

theorem calibrationMetrics_measured_pair :
    ∃ metrics, calibrationMetrics (.ofFunctions id id) [1 / 4, 3 / 4] [false, true] 10 = .ok metrics ∧
      Reported metrics ∧ Measured 10 ([(1 / 4 : ℚ), 3 / 4].zip [false, true]) :=
  calibrationMetrics_measured id id (by decide) (by decide) rfl (by decide +kernel)

end Reports

/-! ## The order of the labels -/

section Order

variable {K : Type} [Field K] [LinearOrder K] {observations observations' : List (Forecast K)}

omit [Field K] in
theorem sortedObservations_eq_of_perm (h : observations.Perm observations') :
    sortedObservations observations = sortedObservations observations' :=
  insertionSort_eq_of_perm (fun a b => toLex a ≤ toLex b) h fun _ _ _ _ hab hba =>
    toLex.injective (le_antisymm hab hba)

/-- **The order of the labels does not matter**, neither for a refusal nor for the fit. -/
theorem fitPlattCalibration_perm (math : Arithmetic K) (sha256 : List (Forecast K) → String)
    (minimumSamples iterations : ℕ) (learningRate : K) (h : observations.Perm observations') :
    fitPlattCalibration math sha256 observations minimumSamples iterations learningRate =
      fitPlattCalibration math sha256 observations' minimumSamples iterations learningRate := by
  simp only [fitPlattCalibration, h.length_eq, h.countP_eq Prod.snd, sortedObservations_eq_of_perm h]

/-- **The measures do not depend on the order of the labels**, each with its score. -/
theorem calibrationMetrics_perm [IsStrictOrderedRing K] [FloorRing K] (math : Arithmetic K)
    {probabilities probabilities' : List K} {labels labels' : List Bool} (bins : ℕ)
    (hlength : probabilities.length = labels.length) (hlength' : probabilities'.length = labels'.length)
    (h : (probabilities.zip labels).Perm (probabilities'.zip labels')) :
    calibrationMetrics math probabilities labels bins =
      calibrationMetrics math probabilities' labels' bins := by
  have hscores : probabilities.Perm probabilities' := by
    simpa only [List.map_fst_zip hlength.le, List.map_fst_zip hlength'.le] using h.map Prod.fst
  have houtcomes : labels.Perm labels' := by
    simpa only [List.map_snd_zip hlength.ge, List.map_snd_zip hlength'.ge] using h.map Prod.snd
  have hnil : probabilities = [] ↔ probabilities' = [] := by
    rw [← List.length_eq_zero_iff, hscores.length_eq, List.length_eq_zero_iff]
  simp only [calibrationMetrics, hnil, hlength, hlength', houtcomes.length_eq, houtcomes.count_eq,
    brierScore_perm h, logLoss_perm math h, expectedCalibrationError_perm bins h, areaUnderCurve_perm h]

omit [Field K] in
theorem length_sortedObservations (observations : List (Forecast K)) :
    (sortedObservations observations).length = observations.length :=
  (List.perm_insertionSort _ _).length_eq

variable {math : Arithmetic K} {sha256 : List (Forecast K) → String} {minimumSamples iterations : ℕ}
  {learningRate : K} {fitted : PlattCalibration K}

/-- What a fit that is not refused consists of. -/
theorem fitPlattCalibration_eq_ok
    (h : fitPlattCalibration math sha256 observations minimumSamples iterations learningRate =
      .ok fitted) :
    (minimumSamples ≤ observations.length ∧ observations.countP Prod.snd ≠ 0 ∧
      observations.countP Prod.snd ≠ observations.length) ∧
    let ordered := sortedObservations observations
    let line := fittedLine math iterations learningRate ordered
    calibrationMetrics math (ordered.map fun item => probability math line item.1)
      (ordered.map Prod.snd) = .ok fitted.metrics := by
  simp only [fitPlattCalibration] at h
  split_ifs at h with hfew hsame
  refine ⟨⟨not_lt.mp hfew, not_or.mp hsame⟩, ?_⟩
  cases hmetrics : calibrationMetrics math
      ((sortedObservations observations).map fun item =>
        probability math (fittedLine math iterations learningRate (sortedObservations observations)) item.1)
      ((sortedObservations observations).map Prod.snd) with
  | error detail =>
    rw [hmetrics] at h
    cases h
  | ok metrics =>
    rw [hmetrics] at h
    rw [← Except.ok.inj h]
    exact hmetrics

/-- **A fit is refused only for too few labels, or for labels that agree.** -/
theorem exists_fit_iff (math : Arithmetic K) (sha256 : List (Forecast K) → String)
    (minimumSamples iterations : ℕ) (learningRate : K) :
    (∃ fitted, fitPlattCalibration math sha256 observations minimumSamples iterations learningRate =
        .ok fitted) ↔
      minimumSamples ≤ observations.length ∧ observations.countP Prod.snd ≠ 0 ∧
        observations.countP Prod.snd ≠ observations.length := by
  refine ⟨fun ⟨fitted, h⟩ => (fitPlattCalibration_eq_ok h).1, fun ⟨hmany, hboth⟩ => ?_⟩
  have hne : sortedObservations observations ≠ [] := by
    intro hnil
    have hlength := length_sortedObservations observations
    rw [hnil, List.length_nil, eq_comm, List.length_eq_zero_iff] at hlength
    exact hboth.1 (by rw [hlength, List.countP_nil])
  simp only [fitPlattCalibration, if_neg (not_lt.mpr hmany), if_neg (not_or.mpr hboth)]
  let line := fittedLine math iterations learningRate (sortedObservations observations)
  have hlength : ((sortedObservations observations).map fun item => probability math line item.1).length =
      ((sortedObservations observations).map Prod.snd).length := by
    rw [List.length_map, List.length_map]
  obtain ⟨metrics, hmetrics⟩ := exists_calibrationMetrics math 10
    (fun hnil => hne (List.map_eq_nil_iff.mp hnil)) hlength
  rw [hmetrics]
  exact ⟨_, rfl⟩

end Order

end Governance
end Scam2Market
