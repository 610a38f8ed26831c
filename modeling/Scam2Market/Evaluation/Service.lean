import Scam2Market.Library.WeightedMean
import Scam2Market.Python.Rounding
import Scam2Market.Intelligence.ThreatUplift

/-!
# The replay evaluator

`ReplayEvaluator._profile_score` and `_severity` of `evaluation/service.py`, on the components that
`_components` of `evaluation/repository.py` reads from a stored score.  The evaluator computes the
score of the fusion engine again, from its own copy of the weights, the discount and the market cap.

* `discountedMean`: what the scores present are worth, the mean under the weights less the discount
  for a legitimate event.  Both the engine (`evidenceScore_default`) and the evaluator
  (`profileScore_components`) start from it.
* `severity_roundTo_iff`: rounding a score leaves its band, unless it lifts the score to a threshold.
-/

namespace Scam2Market
namespace Evaluation

open Intelligence (FusionEngine FusionFields FusionInputs FusionResult RiskLevel AtLeast InUnit)
open Library (OrderedDict weightedMean)

/-- `WEIGHTS`. -/
def profileWeights : List (String × ℚ) :=
  [("market_score", 0.40), ("social_score", 0.10), ("coordination_score", 0.18),
    ("temporal_score", 0.10), ("graph_score", 0.10), ("claim_risk", 0.12)]

/-- `set(allowed or (*WEIGHTS, "legitimate_event_score"))`: no components are all components. -/
def selected (allowed : Option (List String)) : List String :=
  match allowed with
  | some (name :: names) => name :: names
  | _ => profileWeights.map Prod.fst ++ ["legitimate_event_score"]

/-- The weight and the value of each selected component that is present. -/
def selectedComponents (components : OrderedDict String (Option ℚ))
    (allowed : Option (List String)) : List (ℚ × ℚ) :=
  profileWeights.filterMap fun item =>
    if item.1 ∈ selected allowed then
      (components.getD item.1 none).map fun value => (item.2, value)
    else none

/-- `ReplayEvaluator._profile_score(components, allowed)`. -/
def profileScore (components : OrderedDict String (Option ℚ)) (allowed : Option (List String)) :
    ℚ :=
  let present := selectedComponents components allowed
  let weightedSum := (present.map fun item => item.2 * item.1).sum
  let availableWeight := (present.map Prod.fst).sum
  let mean := if availableWeight = 0 then 0 else weightedSum / availableWeight
  let discounted :=
    if "legitimate_event_score" ∈ selected allowed then
      mean * (1 - 0.35 * (components.getD "legitimate_event_score" none).getD 0)
    else mean
  let score :=
    if (components.getD "market_score" none).getD 0 < 0.35 then min discounted 0.59 else discounted
  roundTo 6 (max 0 (min 1 score))

/-- `_severity(score)`. -/
def severity (score : ℚ) : RiskLevel :=
  if 0.8 ≤ score then .critical
  else if 0.6 ≤ score then .high
  else if 0.35 ≤ score then .watch
  else .normal

/-- `_components(score)`. -/
def componentsOf (score : FusionFields) : OrderedDict String (Option ℚ) :=
  .ofEntries [("market_score", score.marketScore), ("social_score", score.socialScore),
    ("coordination_score", score.coordinationScore), ("temporal_score", score.temporalScore),
    ("claim_risk", score.claimRisk), ("legitimate_event_score", score.legitimateEventScore),
    ("graph_score", score.graphScore)]

/-! ## What the scores are worth -/

variable {inputs : FusionInputs}

/-- Every component that is present, and the score of a legitimate event, is in `[0, 1]`. -/
structure ScoresInUnit (inputs : FusionInputs) : Prop where
  components : ∀ item ∈ profileWeights, ∀ q ∈ inputs.value item.1, InUnit q
  legitimate : ∀ q ∈ inputs.legitimateEventScore, InUnit q

/-- The mean of the scores present under the weights, less the discount for a legitimate event. -/
def discountedMean (inputs : FusionInputs) : ℚ :=
  weightedMean (profileWeights.filterMap fun item =>
      (inputs.value item.1).map fun value => (item.2, value)) *
    (1 - 0.35 * inputs.legitimateEventScore.getD 0)

theorem legitimate_factor_mem (h : ScoresInUnit inputs) :
    InUnit (1 - 0.35 * inputs.legitimateEventScore.getD 0) := by
  have hlegitimate : InUnit (inputs.legitimateEventScore.getD 0) := by
    cases hscore : inputs.legitimateEventScore with
    | none => exact ⟨le_rfl, zero_le_one⟩
    | some q => exact h.legitimate q hscore
  obtain ⟨hlo, hhi⟩ := hlegitimate
  constructor <;> linarith

/-- The scores present, with their weights. -/
theorem mem_weighted {item : ℚ × ℚ} (hitem : item ∈ profileWeights.filterMap fun item =>
    (inputs.value item.1).map fun value => (item.2, value)) :
    ∃ entry ∈ profileWeights, entry.2 = item.1 ∧ item.2 ∈ inputs.value entry.1 := by
  obtain ⟨entry, hentry, hmap⟩ := List.mem_filterMap.mp hitem
  obtain ⟨value, hvalue, rfl⟩ := Option.map_eq_some_iff.mp hmap
  exact ⟨entry, hentry, rfl, hvalue⟩

theorem weightedMean_present_mem (h : ScoresInUnit inputs) :
    InUnit (weightedMean (profileWeights.filterMap fun item =>
      (inputs.value item.1).map fun value => (item.2, value))) := by
  have hweights : ∀ entry ∈ profileWeights, 0 ≤ entry.2 := by decide +kernel
  refine Library.weightedMean_mem zero_le_one (fun item hitem => ?_) fun item hitem => ?_
  · obtain ⟨entry, hentry, heq, -⟩ := mem_weighted hitem
    exact heq ▸ hweights entry hentry
  · obtain ⟨entry, hentry, -, hvalue⟩ := mem_weighted hitem
    exact h.components entry hentry item.2 hvalue

theorem discountedMean_mem (h : ScoresInUnit inputs) : InUnit (discountedMean inputs) := by
  obtain ⟨hmean, hmean'⟩ := weightedMean_present_mem h
  obtain ⟨hfactor, hfactor'⟩ := legitimate_factor_mem h
  exact ⟨mul_nonneg hmean hfactor, mul_le_one₀ hmean' hfactor hfactor'⟩

/-! ## The engine and the evaluator on these scores -/

/-- The engine weighs the components in another order. -/
theorem weightedMean_presentComponents (inputs : FusionInputs) :
    weightedMean (({} : FusionEngine).presentComponents inputs) =
      weightedMean (profileWeights.filterMap fun item =>
        (inputs.value item.1).map fun value => (item.2, value)) := by
  refine Library.weightedMean_perm (List.Perm.filterMap _ ?_)
  decide +kernel

theorem rawWeightedScore_default (inputs : FusionInputs) :
    ({} : FusionEngine).rawWeightedScore inputs =
      weightedMean (({} : FusionEngine).presentComponents inputs) :=
  Library.ite_weightedMean _

/-- What the evidence is worth to the engine. -/
theorem evidenceScore_default (h : ScoresInUnit inputs) :
    ({} : FusionEngine).evidenceScore inputs = discountedMean inputs := by
  have hclamp : Intelligence.clamp (inputs.legitimateEventScore.getD 0) =
      inputs.legitimateEventScore.getD 0 := by
    cases hscore : inputs.legitimateEventScore with
    | none => exact Intelligence.clamp_of_mem ⟨le_rfl, zero_le_one⟩
    | some q => exact Intelligence.clamp_of_mem (h.legitimate q hscore)
  show Intelligence.clamp (({} : FusionEngine).rawWeightedScore inputs) *
    inputs.legitimateAdjustment = _
  rw [rawWeightedScore_default, weightedMean_presentComponents,
    Intelligence.clamp_of_mem (weightedMean_present_mem h), FusionInputs.legitimateAdjustment,
    hclamp]
  rfl

/-- The components of a result are the inputs. -/
theorem componentsOf_fuse {now : Datetime} {result : FusionResult}
    (h : ({} : FusionEngine).fuse inputs none now = .ok result) :
    (∀ item ∈ profileWeights,
      (componentsOf result.toFusionFields).getD item.1 none = inputs.value item.1) ∧
    (componentsOf result.toFusionFields).getD "legitimate_event_score" none =
      inputs.legitimateEventScore := by
  obtain ⟨components, -, hfields⟩ := FusionEngine.fuse_eq_ok.mp h
  have hclaim : inputs.value "claim_risk" = inputs.claimRisk := by
    rw [FusionInputs.value, FusionInputs.detectorValues,
      OrderedDict.getD_set_of_ne _ _ _ (by decide), OrderedDict.getD_set_self]
  have hgraph : inputs.value "graph_score" = inputs.graphScore := by
    rw [FusionInputs.value, FusionInputs.detectorValues, OrderedDict.getD_set_self]
  rw [hfields]
  refine ⟨fun item hitem => ?_, rfl⟩
  simp only [profileWeights, List.mem_cons, List.not_mem_nil, or_false] at hitem
  rcases hitem with rfl | rfl | rfl | rfl | rfl | rfl
  · rfl
  · rfl
  · rfl
  · rfl
  · exact hgraph.symm
  · exact hclaim.symm

/-- The evaluator takes every component of the inputs. -/
theorem selectedComponents_all {components : OrderedDict String (Option ℚ)}
    (h : ∀ item ∈ profileWeights, components.getD item.1 none = inputs.value item.1) :
    selectedComponents components none =
      profileWeights.filterMap fun item =>
        (inputs.value item.1).map fun value => (item.2, value) := by
  have hselected : ∀ item ∈ profileWeights, item.1 ∈ selected none := by decide +kernel
  refine List.filterMap_congr fun item hitem => ?_
  rw [if_pos (hselected item hitem), h item hitem]

theorem getD_lt_iff {value : Option ℚ} {bound : ℚ} (hbound : 0 < bound) :
    value.getD 0 < bound ↔ ¬ AtLeast value bound := by
  cases value with
  | none =>
    exact iff_of_true hbound fun h => Option.not_mem_none _ h.choose_spec.1
  | some q => simp [AtLeast]

/-- What the evaluator computes from a result: the discounted mean, behind the market cap. -/
theorem profileScore_components (hscores : ScoresInUnit inputs) {now : Datetime}
    {result : FusionResult} (h : ({} : FusionEngine).fuse inputs none now = .ok result) :
    profileScore (componentsOf result.toFusionFields) none =
      roundTo 6 (if ¬ inputs.MarketEvidence then min (discountedMean inputs) 0.59
        else discountedMean inputs) := by
  obtain ⟨hcomponents, hlegitimate⟩ := componentsOf_fuse h
  have hmarket : (componentsOf result.toFusionFields).getD "market_score" none =
      inputs.value "market_score" := hcomponents _ List.mem_cons_self
  have hmean : (if ((selectedComponents (componentsOf result.toFusionFields) none).map
        Prod.fst).sum = 0 then 0
      else ((selectedComponents (componentsOf result.toFusionFields) none).map
          fun item => item.2 * item.1).sum /
        ((selectedComponents (componentsOf result.toFusionFields) none).map Prod.fst).sum) *
      (1 - 0.35 * inputs.legitimateEventScore.getD 0) = discountedMean inputs := by
    simp only [mul_comm]
    rw [selectedComponents_all hcomponents, discountedMean, ← Library.ite_weightedMean, mul_comm]
  have hselected : "legitimate_event_score" ∈ selected none := by decide +kernel
  have hcap : (inputs.value "market_score").getD 0 < 0.35 ↔ ¬ inputs.MarketEvidence :=
    getD_lt_iff (by norm_num)
  obtain ⟨hlo, hhi⟩ := discountedMean_mem hscores
  simp only [profileScore, if_pos hselected, hlegitimate, hmarket, hmean, hcap]
  congr 1
  -- the score is in range before it is clamped
  split_ifs
  · rw [min_eq_right hhi, max_eq_right hlo]
  · rw [min_eq_right ((min_le_left _ _).trans hhi), max_eq_right (le_min hlo (by norm_num))]

/-! ## Bands of rounded scores -/

/-- The score is below the threshold, and reaches it when it is rounded to six digits. -/
def RoundsUpTo (threshold score : ℚ) : Prop :=
  threshold - 0.0000005 ≤ score ∧ score < threshold

theorem critical_le_severity_iff {score : ℚ} : severity score = .critical ↔ 0.8 ≤ score := by
  rw [severity]
  split_ifs with hcritical hhigh hwatch
  · exact iff_of_true rfl hcritical
  all_goals exact iff_of_false (by decide) hcritical

theorem high_le_severity_iff {score : ℚ} : .high ≤ severity score ↔ 0.6 ≤ score := by
  rw [severity]
  split_ifs with hcritical hhigh hwatch
  · exact iff_of_true (by decide) (by linarith)
  · exact iff_of_true le_rfl hhigh
  all_goals exact iff_of_false (by decide) hhigh

theorem watch_le_severity_iff {score : ℚ} : .watch ≤ severity score ↔ 0.35 ≤ score := by
  rw [severity]
  split_ifs with hcritical hhigh hwatch
  · exact iff_of_true (by decide) (by linarith)
  · exact iff_of_true (by decide) (by linarith)
  · exact iff_of_true le_rfl hwatch
  · exact iff_of_false (by decide) hwatch

/-- Two scores are in the same band when they reach the same thresholds. -/
theorem severity_eq_iff {a b : ℚ} :
    severity a = severity b ↔
      (0.8 ≤ a ↔ 0.8 ≤ b) ∧ (0.6 ≤ a ↔ 0.6 ≤ b) ∧ (0.35 ≤ a ↔ 0.35 ≤ b) := by
  constructor
  · intro h
    rw [← critical_le_severity_iff, ← critical_le_severity_iff, ← high_le_severity_iff,
      ← high_le_severity_iff, ← watch_le_severity_iff, ← watch_le_severity_iff, h]
    exact ⟨Iff.rfl, Iff.rfl, Iff.rfl⟩
  · rintro ⟨hcritical, hhigh, hwatch⟩
    simp only [severity, hcritical, hhigh, hwatch]

theorem threshold_le_roundTo {threshold score : ℚ} {n : ℤ} (hn : n % 2 = 0)
    (hthreshold : threshold = n / 10 ^ 6) :
    threshold ≤ roundTo 6 score ↔ threshold - 0.0000005 ≤ score := by
  have hhalf : (1 / 2 / 10 ^ 6 : ℚ) = 0.0000005 := by norm_num
  rw [hthreshold, le_roundTo_iff hn, hhalf]

/-- Rounding reaches no threshold that the score is below. -/
theorem same_threshold_iff {threshold score : ℚ} {n : ℤ} (hn : n % 2 = 0)
    (hthreshold : threshold = n / 10 ^ 6) :
    (threshold ≤ roundTo 6 score ↔ threshold ≤ score) ↔ ¬ RoundsUpTo threshold score := by
  rw [threshold_le_roundTo hn hthreshold, RoundsUpTo]
  constructor
  · rintro h ⟨hlo, hhi⟩
    exact absurd (h.mp hlo) (not_le.mpr hhi)
  · intro h
    refine ⟨fun hlo => not_lt.mp fun hhi => h ⟨hlo, hhi⟩, fun hle => ?_⟩
    linarith

theorem severity_roundTo_iff {score : ℚ} :
    severity (roundTo 6 score) = severity score ↔
      ¬ RoundsUpTo 0.8 score ∧ ¬ RoundsUpTo 0.6 score ∧ ¬ RoundsUpTo 0.35 score := by
  have hcritical : (0.8 : ℚ) = (800000 : ℤ) / 10 ^ 6 := by norm_num
  have hhigh : (0.6 : ℚ) = (600000 : ℤ) / 10 ^ 6 := by norm_num
  have hwatch : (0.35 : ℚ) = (350000 : ℤ) / 10 ^ 6 := by norm_num
  rw [severity_eq_iff, same_threshold_iff (by decide) hcritical,
    same_threshold_iff (by decide) hhigh, same_threshold_iff (by decide) hwatch]

end Evaluation
end Scam2Market
