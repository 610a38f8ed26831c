import Scam2Market.Library.Clipping
import Scam2Market.Intelligence.Schemas

/-!
# The detectors

`intelligence/detectors.py`: four detectors that score the features of a snapshot, and two
classifiers.  A detector without the observations it needs says why instead of scoring.

Every score lies in `[0, 1]` (`scored_mem`), and every confidence of a classifier
(`classifyRegime_mem`, `classifyLiquidity_mem`).
-/

namespace Scam2Market
namespace Intelligence

open Features (FeatureName FeatureSnapshot FeatureValues)
open Library (clampTo le_clampTo clampTo_le)

/-- `_number(features, name)`. -/
def number (features : FeatureValues) (name : FeatureName) : ℚ :=
  (features name).getD 0

/-- `_clamp(value)`. -/
def clamp (value : ℚ) : ℚ :=
  clampTo 0 1 value

theorem clamp_mem (value : ℚ) : InUnit (clamp value) :=
  ⟨le_clampTo value, clampTo_le zero_le_one value⟩

theorem clamp_of_mem {value : ℚ} (h : InUnit value) : clamp value = value :=
  Library.clampTo_of_mem h.1 h.2

theorem clamp_mono {a b : ℚ} (h : a ≤ b) : clamp a ≤ clamp b :=
  Library.clampTo_mono h

/-! ## Market anomalies -/

/-- The groups of the market blend: name, value, weight. -/
def marketGroups (features : FeatureValues) : List (String × ℚ × ℚ) :=
  [("direction", clamp (|number features .priceReturn| / 0.10), 0.30),
    ("activity",
      0.70 * clamp ((number features .relativeVolume - 1) / 4) +
        0.30 * clamp (number features .tradeCount / 30), 0.35),
    ("stress", clamp (number features .volatility / 0.05), 0.20)] ++
  if features .orderbookValid = some 1 then
    [("microstructure",
      0.65 * clamp |number features .orderbookImbalance| +
        0.35 * clamp (number features .spread / 0.02), 0.15)]
  else []

/-- Why there is no market score. -/
def marketMissingReason (features : FeatureValues) : MissingReason :=
  if 0 < number features .marketSourceDegraded then .sourceDegraded else .sourceUnavailable

/-- `MarketAnomalyDetector.score`. -/
def marketAnomaly (snapshot : FeatureSnapshot) : DetectorOutput :=
  let features := snapshot.features
  let hasMarket := 0 < number features .tradeCount ∨ 0 < number features .volume
  if ¬ hasMarket then
    { name := "market_score"
      score := none
      modelVersion := "market-grouped-baseline-v2"
      reason := "market features unavailable"
      missingReason := some (marketMissingReason features) }
  else
    let groups := marketGroups features
    let availableWeight := (groups.map fun group => group.2.2).sum
    let score := (groups.map fun group => group.2.1 * group.2.2).sum / availableWeight
    let reason := "grouped market anomaly blend: " ++
      ", ".intercalate (groups.map fun group => group.1)
    { name := "market_score"
      score := some (clamp score)
      modelVersion := "market-grouped-baseline-v2"
      reason :=
        if features .orderbookValid = some 1 then reason
        else reason ++ "; invalid or unavailable orderbook excluded" }

/-! ## Social surges -/

/-- Why there is no social score. -/
def socialMissingReason (features : FeatureValues) : MissingReason :=
  if 0 < number features .socialSourceIdle then .sourceIdle
  else if 0 < number features .socialSourceDegraded then .sourceDegraded
  else .sourceUnavailable

/-- `SocialSurgeDetector.score`. -/
def socialSurge (snapshot : FeatureSnapshot) : DetectorOutput :=
  let features := snapshot.features
  if features .mentionCount = none ∧ features .uniqueAuthorCount = none then
    { name := "social_score"
      score := none
      modelVersion := "social-baseline-v1"
      reason := "social features unavailable"
      missingReason := some (socialMissingReason features) }
  else
    let score :=
      0.40 * clamp (number features .mentionCount / 12) +
      0.25 * clamp (number features .uniqueAuthorCount / 8) +
      0.20 * clamp (number features .hashtagVelocity / 10) +
      0.15 * clamp (number features .newAuthorRatio)
    { name := "social_score"
      score := some (clamp score)
      modelVersion := "social-baseline-v1"
      reason := "social surge blend" }

/-! ## Coordination and lead -/

/-- `CoordinationHeuristicDetector.score`. -/
def coordinationHeuristic (snapshot : FeatureSnapshot) : DetectorOutput :=
  let features := snapshot.features
  if features .mentionCount = none then
    { name := "coordination_score"
      score := none
      modelVersion := "coordination-heuristics-v1"
      reason := "coordination evidence unavailable"
      missingReason := some .sourceUnavailable }
  else
    let score :=
      0.40 * number features .authorConcentration +
      0.35 * number features .repostReplyRatio +
      0.25 * number features .urlConcentration
    { name := "coordination_score"
      score := some (clamp score)
      modelVersion := "coordination-heuristics-v1"
      reason := "coordination heuristics" }

/-- `TemporalLeadLagDetector.score`. -/
def temporalLeadLag (snapshot : FeatureSnapshot) : DetectorOutput :=
  match snapshot.features .socialLeadSeconds with
  | none =>
    { name := "temporal_score"
      score := none
      modelVersion := "temporal-lead-lag-v1"
      reason := "paired streams unavailable"
      missingReason := some .sourceUnavailable }
  | some lead =>
    if lead ≤ 0 then
      { name := "temporal_score"
        score := some 0
        modelVersion := "temporal-lead-lag-v1"
        reason := "social did not lead market" }
    else
      { name := "temporal_score"
        score := some (clamp (lead / 300))
        modelVersion := "temporal-lead-lag-v1"
        reason := "social activity led market" }

/-- The outputs of the detection service, in its order. -/
def detectorOutputs (snapshot : FeatureSnapshot) : List DetectorOutput :=
  [marketAnomaly snapshot, socialSurge snapshot, coordinationHeuristic snapshot,
    temporalLeadLag snapshot]

theorem marketAnomaly_mem (snapshot : FeatureSnapshot) :
    ∀ q ∈ (marketAnomaly snapshot).score, InUnit q := by
  intro q hq
  by_cases h : 0 < number snapshot.features .tradeCount ∨ 0 < number snapshot.features .volume
  · rw [marketAnomaly, if_neg (not_not.mpr h)] at hq
    rw [← Option.some.inj hq]
    exact clamp_mem _
  · rw [marketAnomaly, if_pos h] at hq
    exact absurd hq (Option.not_mem_none q)

theorem socialSurge_mem (snapshot : FeatureSnapshot) :
    ∀ q ∈ (socialSurge snapshot).score, InUnit q := by
  intro q hq
  simp only [socialSurge] at hq
  split_ifs at hq
  · exact absurd hq (Option.not_mem_none q)
  · rw [← Option.some.inj hq]
    exact clamp_mem _

theorem coordinationHeuristic_mem (snapshot : FeatureSnapshot) :
    ∀ q ∈ (coordinationHeuristic snapshot).score, InUnit q := by
  intro q hq
  simp only [coordinationHeuristic] at hq
  split_ifs at hq
  · exact absurd hq (Option.not_mem_none q)
  · rw [← Option.some.inj hq]
    exact clamp_mem _

theorem temporalLeadLag_mem (snapshot : FeatureSnapshot) :
    ∀ q ∈ (temporalLeadLag snapshot).score, InUnit q := by
  intro q hq
  rw [temporalLeadLag] at hq
  cases hlead : snapshot.features .socialLeadSeconds with
  | none =>
    rw [hlead] at hq
    exact absurd hq (Option.not_mem_none q)
  | some lead =>
    simp only [hlead] at hq
    split_ifs at hq
    · rw [← Option.some.inj hq]
      exact ⟨le_rfl, zero_le_one⟩
    · rw [← Option.some.inj hq]
      exact clamp_mem _

/-- Whatever a detector scores lies in `[0, 1]`. -/
theorem detectorOutputs_mem (snapshot : FeatureSnapshot) :
    ∀ output ∈ detectorOutputs snapshot, ∀ q ∈ output.score, InUnit q := by
  intro output hmem
  simp only [detectorOutputs, List.mem_cons, List.not_mem_nil, or_false] at hmem
  rcases hmem with rfl | rfl | rfl | rfl
  · exact marketAnomaly_mem snapshot
  · exact socialSurge_mem snapshot
  · exact coordinationHeuristic_mem snapshot
  · exact temporalLeadLag_mem snapshot

/-! ## Classifiers -/

inductive MarketRegime where
  | calm
  | trending
  | volatile
  | dislocated
  deriving DecidableEq, Repr

/-- `regime.value`. -/
def MarketRegime.value : MarketRegime → String
  | calm => "CALM"
  | trending => "TRENDING"
  | volatile => "VOLATILE"
  | dislocated => "DISLOCATED"

/-- `MarketRegimeEngine.classify`. -/
def classifyRegime (snapshot : FeatureSnapshot) : MarketRegime × ℚ :=
  let priceReturn := |number snapshot.features .priceReturn|
  let volatility := number snapshot.features .volatility
  if 0.20 ≤ priceReturn ∨ 0.10 ≤ volatility then
    (.dislocated, clamp (max (priceReturn / 0.4) (volatility / 0.2)))
  else if 0.04 ≤ volatility then (.volatile, clamp (volatility / 0.10))
  else if 0.05 ≤ priceReturn then (.trending, clamp (priceReturn / 0.20))
  else (.calm, clamp (1 - max (priceReturn / 0.05) (volatility / 0.04)))

inductive LiquidityClass where
  | low
  | medium
  | high
  | unknown
  deriving DecidableEq, Repr

/-- `liquidity.value`. -/
def LiquidityClass.value : LiquidityClass → String
  | low => "LOW"
  | medium => "MEDIUM"
  | high => "HIGH"
  | unknown => "UNKNOWN"

/-- `LiquidityClassifier.classify`. -/
def classifyLiquidity (snapshot : FeatureSnapshot) : LiquidityClass × ℚ :=
  let volume := number snapshot.features .volume
  let depth := number snapshot.features .topNDepth
  let liquidity := volume + depth
  if volume ≤ 0 ∧ depth ≤ 0 then (.unknown, 0)
  else if liquidity < 10000 then (.low, clamp (1 - liquidity / 10000))
  else if liquidity < 250000 then (.medium, clamp (liquidity / 250000))
  else (.high, clamp (liquidity / 1000000))

theorem classifyRegime_mem (snapshot : FeatureSnapshot) : InUnit (classifyRegime snapshot).2 := by
  simp only [classifyRegime]
  split_ifs <;> exact clamp_mem _

theorem classifyLiquidity_mem (snapshot : FeatureSnapshot) :
    InUnit (classifyLiquidity snapshot).2 := by
  simp only [classifyLiquidity]
  split_ifs
  · exact ⟨le_rfl, zero_le_one⟩
  all_goals exact clamp_mem _

end Intelligence
end Scam2Market
