import Mathlib.Tactic.Linarith
import Mathlib.Tactic.NormNum
import Scam2Market.Intelligence.Detectors

/-!
# The fusion engine

`FusionEngine.fuse` of `intelligence/fusion.py`.  A renormalised weighted mean of the components
that are present is calibrated, discounted for a legitimate event, raised by matched threat
intelligence, raised to a floor and cut at two caps; the severity is the band of what comes out,
after two demotions.

* `Scoring` holds the local variables that the adjustments and the policies update, and each of them
  is one function (`calibrate`, `discountLegitimate`, `upliftThreat`, `floorWatch`, `capMarket`,
  `capThreat`).
* `FusionEngine.fuse` raises when a component is present and the weights of the present ones sum to
  zero, and when the validator refuses the result.
-/

namespace Scam2Market
namespace Intelligence

open Features (FeatureSnapshot)
open Library (OrderedDict)

/-- The arguments of the constructor.  A calibrator takes the score, the market regime and the
liquidity class. -/
structure FusionEngine where
  weights : FusionWeights := {}
  thresholds : ThresholdConfig := {}
  calibrator : Option (ℚ → String → String → ℚ) := none
  threatUpliftCap : ℚ := 0.10

/-- The arguments of `fuse`, except the threat context. -/
structure FusionInputs where
  snapshot : FeatureSnapshot
  outputs : List DetectorOutput
  claimRisk : Option ℚ := none
  legitimateEventScore : Option ℚ := none
  graphScore : Option ℚ := none
  marketRegime : String
  marketRegimeConfidence : ℚ
  liquidityClass : String
  liquidityConfidence : ℚ

/-- `value is not None and value >= bound`. -/
def AtLeast (value : Option ℚ) (bound : ℚ) : Prop :=
  ∃ q ∈ value, bound ≤ q

instance (value : Option ℚ) (bound : ℚ) : Decidable (AtLeast value bound) :=
  inferInstanceAs (Decidable (∃ q ∈ value, bound ≤ q))

theorem AtLeast.mono {value : Option ℚ} {b c : ℚ} (h : AtLeast value b) (hbc : c ≤ b) :
    AtLeast value c :=
  h.imp fun _ hq => ⟨hq.1, hbc.trans hq.2⟩

theorem AtLeast.ne_none {value : Option ℚ} {bound : ℚ} (h : AtLeast value bound) :
    value ≠ none := by
  rintro rfl
  obtain ⟨q, hq, -⟩ := h
  exact Option.not_mem_none q hq

/-! ## The components -/

namespace FusionInputs

/-- `detector_outputs`. -/
def detectorOutputs (inputs : FusionInputs) : OrderedDict String DetectorOutput :=
  .ofEntries (inputs.outputs.map fun output => (output.name, output))

/-- `detector_values`. -/
def detectorValues (inputs : FusionInputs) : OrderedDict String (Option ℚ) :=
  let scores := OrderedDict.ofEntries (inputs.detectorOutputs.entries.map fun item =>
    (item.1, item.2.score))
  (scores.set "claim_risk" inputs.claimRisk).set "graph_score" inputs.graphScore

/-- `detector_values.get(name)`. -/
def value (inputs : FusionInputs) (name : String) : Option ℚ :=
  inputs.detectorValues.getD name none

/-- Some component other than the market score is at least 0.55. -/
def Corroborated (inputs : FusionInputs) : Prop :=
  ∃ value ∈ [inputs.value "social_score", inputs.value "coordination_score",
    inputs.value "temporal_score", inputs.claimRisk, inputs.graphScore], AtLeast value 0.55

instance (inputs : FusionInputs) : Decidable inputs.Corroborated :=
  inferInstanceAs (Decidable (∃ value ∈ _, AtLeast value 0.55))

/-- Market and coordination scores are both at least 0.65. -/
def JointEvidence (inputs : FusionInputs) : Prop :=
  AtLeast (inputs.value "market_score") 0.65 ∧ AtLeast (inputs.value "coordination_score") 0.65

instance (inputs : FusionInputs) : Decidable inputs.JointEvidence :=
  inferInstanceAs (Decidable (_ ∧ _))

/-- The market score is at least 0.35. -/
def MarketEvidence (inputs : FusionInputs) : Prop :=
  AtLeast (inputs.value "market_score") 0.35

instance (inputs : FusionInputs) : Decidable inputs.MarketEvidence :=
  inferInstanceAs (Decidable (AtLeast _ _))

/-- Why a detector has no score. -/
def detectorReason (inputs : FusionInputs) (name : String) : MissingReason :=
  match inputs.detectorOutputs.get? name with
  | some output => output.missingReason.getD .noObservations
  | none => .notProvided

/-- `missing_outputs`. -/
def missingOutputs (inputs : FusionInputs) : List MissingOutput :=
  (["market_score", "social_score", "coordination_score", "temporal_score"].filter fun name =>
      inputs.value name = none).map (fun name => ⟨name, inputs.detectorReason name⟩) ++
  (if inputs.claimRisk = none then [⟨"claim_risk", .notProvided⟩] else []) ++
  (if inputs.legitimateEventScore = none then [⟨"legitimate_event_score", .notProvided⟩] else []) ++
  (if inputs.graphScore = none then [⟨"graph_score", .notProvided⟩] else [])

/-- `snapshot.features["baseline_confidence"] or 0.0`. -/
def baselineConfidence (inputs : FusionInputs) : ℚ :=
  (inputs.snapshot.features .baselineConfidence).getD 0

/-- The confidence before the threat context is looked at. -/
def confidence (inputs : FusionInputs) : ℚ :=
  let availability := 1 - (inputs.missingOutputs.length : ℚ) / 7
  let dataQuality := (inputs.snapshot.features .dataQualityScore).getD 0
  clamp (availability * (0.4 + 0.35 * inputs.baselineConfidence + 0.25 * dataQuality))

/-- The factor of the legitimate event score. -/
def legitimateAdjustment (inputs : FusionInputs) : ℚ :=
  1 - 0.35 * clamp (inputs.legitimateEventScore.getD 0)

/-- The score of social and coordination evidence together. -/
def socialCoordinationRisk (inputs : FusionInputs) : Option ℚ :=
  let present := [(inputs.value "social_score", (0.30 : ℚ)),
      (inputs.value "coordination_score", 0.70)].filterMap fun item =>
    item.1.map fun value => (value, item.2)
  let socialWeight := (present.map Prod.snd).sum
  if socialWeight = 0 then none
  else some ((present.map fun item => item.1 * item.2).sum / socialWeight)

/-- The profile and the revision that the enrichments present make. -/
def enrichment (inputs : FusionInputs) : EnrichmentProfile × ℤ :=
  let hasGraph := inputs.graphScore.isSome
  let hasVerification := inputs.claimRisk.isSome || inputs.legitimateEventScore.isSome
  if hasGraph && hasVerification then (.graphAndVerification, 3)
  else if hasGraph then (.graph, 2)
  else if hasVerification then (.verification, 2)
  else (.base, 1)

/-- `stage_signals`. -/
def stageSignals (inputs : FusionInputs) : OrderedDict String (Option ℚ) :=
  let features := inputs.snapshot.features
  .ofEntries [("price_return", features .priceReturn),
    ("relative_volume", features .relativeVolume),
    ("spread", features .spread),
    ("orderbook_imbalance", features .orderbookImbalance),
    ("buy_sell_pressure", features .buySellPressure),
    ("mention_count", features .mentionCount)]

end FusionInputs

/-- `_direction(delta)`. -/
def direction (delta : ℚ) : ContributionDirection :=
  if 0 < delta then .riskIncreasing
  else if delta < 0 then .riskReducing
  else .neutral

namespace FusionEngine

variable (engine : FusionEngine) (inputs : FusionInputs)

/-- The weight and the value of each component that is present. -/
def presentComponents : List (ℚ × ℚ) :=
  engine.weights.items.filterMap fun item => (inputs.value item.1).map fun value => (item.2, value)

/-- `available_weight`. -/
def availableWeight : ℚ :=
  ((engine.presentComponents inputs).map Prod.fst).sum

/-- `raw_weighted_score`. -/
def rawWeightedScore : ℚ :=
  let weightedSum := ((engine.presentComponents inputs).map fun item => item.1 * item.2).sum
  if engine.availableWeight inputs = 0 then 0 else weightedSum / engine.availableWeight inputs

/-- The trace of one component. -/
def traceComponent (item : String × ℚ) : Except PyError TraceComponent :=
  match inputs.value item.1 with
  | some value =>
    if engine.availableWeight inputs = 0 then .error .zeroDivisionError
    else
      let effectiveWeight := item.2 / engine.availableWeight inputs
      let contribution := value * effectiveWeight
      .ok
        { name := item.1
          value := some value
          configuredWeight := item.2
          effectiveNormalizedWeight := effectiveWeight
          signedWeightedContribution := contribution
          direction := if 0 < contribution then .riskIncreasing else .neutral
          missing := false
          missingReason := none }
  | none =>
    .ok
      { name := item.1
        value := none
        configuredWeight := item.2
        effectiveNormalizedWeight := 0
        signedWeightedContribution := 0
        direction := .neutral
        missing := true
        missingReason := some (inputs.detectorReason item.1) }

/-- `components`. -/
def traceComponents : Except PyError (List TraceComponent) :=
  engine.weights.items.mapM (engine.traceComponent inputs)

/-- `_severity(score)`: the band of a score. -/
def severity (score : ℚ) : RiskLevel :=
  if engine.thresholds.critical ≤ score then .critical
  else if engine.thresholds.high ≤ score then .high
  else if engine.thresholds.watch ≤ score then .watch
  else .normal

end FusionEngine

/-! ## Adjustments -/

/-- The local variables of `fuse` that adjustments and policies update. -/
structure Scoring where
  score : ℚ
  confidence : ℚ
  adjustments : List ScoreAdjustment := []
  policies : List PolicyDecision := []

namespace FusionEngine

variable (engine : FusionEngine) (inputs : FusionInputs) (context : ThreatContext)

/-- `is_calibrated`. -/
def isCalibrated : Bool :=
  engine.calibrator.isSome && decide (0.5 ≤ inputs.baselineConfidence)

/-- The result of the calibrator, if it is used. -/
def calibrate (s : Scoring) : Scoring :=
  match engine.calibrator with
  | some calibrator =>
    if 0.5 ≤ inputs.baselineConfidence then
      let after := clamp (calibrator s.score inputs.marketRegime inputs.liquidityClass)
      { s with
        score := after
        adjustments := s.adjustments ++
          [{ name := "calibration"
             before := s.score
             delta := after - s.score
             after := after
             direction := direction (after - s.score) }] }
    else s
  | none => s

/-- The discount for a legitimate event. -/
def discountLegitimate (s : Scoring) : Scoring :=
  let after := s.score * inputs.legitimateAdjustment
  { s with
    score := after
    adjustments := s.adjustments ++
      [{ name := "legitimate_event"
         before := s.score
         factor := some inputs.legitimateAdjustment
         delta := after - s.score
         after := after
         direction := direction (after - s.score) }] }

/-- The uplift of a score of threat intelligence. -/
def threatUplift (score : ℚ) : ℚ :=
  min engine.threatUpliftCap (score * context.confidence.getD 0 * engine.threatUpliftCap)

/-- The uplift of a match; threat intelligence that cannot be relied on costs confidence. -/
def upliftThreat (s : Scoring) : Scoring :=
  match context.status, context.score with
  | .matched, some score =>
    let after := min 1 (s.score + engine.threatUplift context score)
    { s with
      score := after
      adjustments := s.adjustments ++
        [{ name := "threat_intelligence_uplift"
           before := s.score
           delta := after - s.score
           after := after
           direction := .riskIncreasing }] }
  | .unavailable, _ => { s with confidence := s.confidence * 0.85 }
  | .stale, _ => { s with confidence := s.confidence * 0.85 }
  | _, _ => s

/-! ## Policies -/

/-- `corroborated_watch_floor`. -/
def floorWatch (s : Scoring) : Scoring :=
  if inputs.JointEvidence then
    let after := max s.score engine.thresholds.watch
    { s with
      score := after
      policies := s.policies ++
        [{ policy := "corroborated_watch_floor"
           applied := true
           before := s.score
           after := after
           reason := "market and coordination scores are at least 0.65" }] }
  else s

/-- `market_evidence_high_cap`. -/
def capMarket (s : Scoring) : Scoring :=
  if ¬ inputs.MarketEvidence then
    let after := min s.score (engine.thresholds.high - 0.01)
    { s with
      score := after
      policies := s.policies ++
        [{ policy := "market_evidence_high_cap"
           applied := decide (s.score ≠ after)
           before := s.score
           after := after
           reason := "market score is missing or below 0.35" }] }
  else
    { s with
      policies := s.policies ++
        [{ policy := "market_evidence_high_cap"
           applied := false
           before := s.score
           after := s.score
           reason := "market score meets the 0.35 evidence requirement" }] }

/-- `threat_cannot_independently_raise_high`: a match must not lift a score that was below the
HIGH threshold to it. -/
def capThreat (threatBefore : ℚ) (s : Scoring) : Scoring :=
  if context.status = .matched ∧ threatBefore < engine.thresholds.high then
    let after := min s.score (engine.thresholds.high - 0.01)
    { s with
      score := after
      policies := s.policies ++
        [{ policy := "threat_cannot_independently_raise_high"
           applied := decide (s.score ≠ after)
           before := s.score
           after := after
           reason := "threat context is corroborating evidence only" }] }
  else s

/-- The variables once the weighted mean is calibrated. -/
def calibratedScoring : Scoring :=
  engine.calibrate inputs
    { score := clamp (engine.rawWeightedScore inputs), confidence := inputs.confidence }

/-- The variables once every adjustment and every policy has been applied. -/
def scoring : Scoring :=
  let discounted := discountLegitimate inputs (engine.calibratedScoring inputs)
  engine.capThreat context discounted.score
    (engine.capMarket inputs (engine.floorWatch inputs (engine.upliftThreat context discounted)))

/-- `critical_requires_corroboration`: the level after the demotion, and what is recorded. -/
def demoteCritical (s : Scoring) (level : RiskLevel) : RiskLevel × List PolicyDecision :=
  if level = .critical ∧ ¬ (AtLeast (inputs.value "market_score") 0.65 ∧ inputs.Corroborated ∧
      0.4 ≤ s.confidence) then
    (.high,
      [{ policy := "critical_requires_corroboration"
         applied := true
         before := s.score
         after := s.score
         reason := "severity demoted from CRITICAL to HIGH" }])
  else (level, [])

/-- `missing_market_severity_demotion`: the level after the demotion, and what is recorded. -/
def demoteMissingMarket (s : Scoring) (level : RiskLevel) : RiskLevel × List PolicyDecision :=
  if inputs.value "market_score" = none ∧ (level = .high ∨ level = .critical) then
    (.watch,
      [{ policy := "missing_market_severity_demotion"
         applied := true
         before := s.score
         after := s.score
         reason := "severity demoted to WATCH because market score is missing" }])
  else (level, [])

/-- The severity of the score, and the demotions. -/
def verdict : RiskLevel × List PolicyDecision :=
  let s := engine.scoring inputs context
  let afterCritical := demoteCritical inputs s (engine.severity s.score)
  let afterMissing := demoteMissingMarket inputs s afterCritical.1
  (afterMissing.1, afterCritical.2 ++ afterMissing.2)

/-! ## The result -/

/-- The fields of the result. -/
def fusionFields (components : List TraceComponent) (now : Datetime) : FusionFields :=
  let s := engine.scoring inputs context
  { scopeId := inputs.snapshot.scopeId
    assetId := inputs.snapshot.assetId
    featureWindowId := inputs.snapshot.featureWindowId
    featureRevision := inputs.snapshot.revision
    modelVersion := "fusion-v2"
    baseModelVersion := "fusion-v2"
    fusionPolicyVersion := "fusion-policy-v1"
    enrichmentProfile := inputs.enrichment.1
    fusionRevision := inputs.enrichment.2
    evidenceCutoff := some inputs.snapshot.windowEnd
    marketScore := inputs.value "market_score"
    socialScore := inputs.value "social_score"
    coordinationScore := inputs.value "coordination_score"
    temporalScore := inputs.value "temporal_score"
    claimRisk := inputs.claimRisk
    legitimateEventScore := inputs.legitimateEventScore
    graphScore := inputs.graphScore
    threatContext := context
    marketAnomalyRisk := inputs.value "market_score"
    marketAnomalySeverity := engine.severity ((inputs.value "market_score").getD 0)
    socialCoordinationRisk := inputs.socialCoordinationRisk
    socialCoordinationSeverity := engine.severity (inputs.socialCoordinationRisk.getD 0)
    rawCrossDomainRisk := (engine.calibratedScoring inputs).score
    contextAdjustedRisk := s.score
    fusionScore := s.score
    confidence := s.confidence
    severity := (engine.verdict inputs context).1
    missingOutputs := inputs.missingOutputs
    isCalibrated := engine.isCalibrated inputs
    marketRegime := inputs.marketRegime
    marketRegimeConfidence := inputs.marketRegimeConfidence
    liquidityClass := inputs.liquidityClass
    liquidityConfidence := inputs.liquidityConfidence
    stageSignals := inputs.stageSignals
    decisionTrace :=
      { components := components
        adjustments := s.adjustments
        policyDecisions := s.policies ++ (engine.verdict inputs context).2
        thresholds := engine.thresholds
        rawWeightedScore := engine.rawWeightedScore inputs
        finalScore := s.score }
    scoredAt := now }

/-- `fuse(snapshot, outputs, ...)` at the instant `now`. -/
def fuse (threatContext : Option ThreatContext) (now : Datetime) :
    Except PyError FusionResult := do
  let components ← engine.traceComponents inputs
  (engine.fusionFields inputs (threatContext.getD {}) components now).validate

end FusionEngine

/-- A minute with a mature baseline in which two detectors have scored. -/
def minuteInputs (marketScore coordinationScore : Option ℚ) : FusionInputs where
  snapshot := Features.minuteSnapshot "LIVE" "asset" fun _ => some 1
  outputs :=
    [{ name := "market_score", score := marketScore, modelVersion := "", reason := "" },
      { name := "coordination_score", score := coordinationScore, modelVersion := "", reason := "" }]
  marketRegime := "CALM"
  marketRegimeConfidence := 1
  liquidityClass := "HIGH"
  liquidityConfidence := 1

/-- A certain match. -/
def certainMatch : ThreatContext where
  status := .matched
  score := some 1
  confidence := some 1
  score_mem := by norm_num [InUnit]
  confidence_mem := by norm_num [InUnit]

end Intelligence
end Scam2Market
