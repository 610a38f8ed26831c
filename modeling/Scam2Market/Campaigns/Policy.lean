import Mathlib.Data.List.Sort
import Mathlib.Algebra.Order.Group.Unbundled.Abs
import Scam2Market.Campaigns.Schemas

/-!
# The campaign state machine

`CampaignStateMachine` of `campaigns/policy.py`.

* `nextStage` proposes a stage, and `validate` compares the proposal with the table of transitions.
  The proposals are in the table (`nextStage_mem`), so `validate` never refuses one.
* `stageConfidence` is a fraction unless the stage is the coordinated one and the coordination score
  is more than 1, which no validator of a score excludes (`assess_succeeds_iff`).
* `alerts`: the triggers of a score, at most one of each type (`alerts_nodup`).
-/

namespace Scam2Market
namespace Campaigns

open Intelligence (FusionResult InUnit RiskLevel)

/-- `max_risk`. -/
def maxRisk (left right : RiskLevel) : RiskLevel :=
  if right.rank ≤ left.rank then left else right

/-- `value or other`: zero counts as missing. -/
def orElse (value other : Option ℚ) : Option ℚ :=
  match value with
  | some q => if q = 0 then other else some q
  | none => other

/-- `value or 0.0`. -/
def orZero (value : Option ℚ) : ℚ :=
  value.getD 0

/-- `score.stage_signals.get(name) or 0.0`. -/
def stageSignal (score : FusionResult) (name : String) : ℚ :=
  orZero (score.stageSignals.get? name).join

namespace CampaignStateMachine

/-- `version`. -/
def version : String := "campaign-stage-rules-v2"

/-- `_transitions`. -/
def transitions : CampaignStage → List CampaignStage
  | .normal => [.normal, .earlySocialSeeding]
  | .earlySocialSeeding =>
      [.normal, .earlySocialSeeding, .coordinatedAmplification, .marketPump, .postEvent]
  | .coordinatedAmplification => [.coordinatedAmplification, .marketPump, .dump, .postEvent]
  | .marketPump => [.marketPump, .possibleDistribution, .dump]
  | .possibleDistribution => [.possibleDistribution, .dump, .postEvent]
  | .dump => [.dump, .postEvent]
  | .postEvent => [.postEvent]

/-- `validate(current, target)`. -/
def validate (current target : CampaignStage) : Except PyError Unit :=
  if target ∈ transitions current then .ok ()
  else .error (.invalidCampaignTransition
    s!"invalid campaign transition: {current.value} -> {target.value}")

/-- `_next_stage(current, score)`. -/
def nextStage (current : CampaignStage) (score : FusionResult) : CampaignStage × String :=
  let priceReturn := stageSignal score "price_return"
  let pressure := stageSignal score "buy_sell_pressure"
  let social := orZero (orElse score.socialCoordinationRisk score.socialScore)
  let coordination := orZero score.coordinationScore
  let market := orZero score.marketAnomalyRisk
  match current with
  | .normal =>
    if 0.35 ≤ social then (.earlySocialSeeding, "social activity crossed watch threshold")
    else (current, "no campaign signal")
  | .earlySocialSeeding =>
    if 0.60 ≤ market ∧ RiskLevel.high.rank ≤ score.severity.rank then
      (.marketPump, "market evidence justified guarded stage skip")
    else if 0.55 ≤ coordination then
      (.coordinatedAmplification, "coordination corroborated social seeding")
    else if score.severity = .normal ∧ social < 0.20 then
      (.normal, "social signal decayed before corroboration")
    else (current, "social seeding persists")
  | .coordinatedAmplification =>
    if priceReturn ≤ -0.08 then (.dump, "sharp reversal justified guarded dump transition")
    else if 0.60 ≤ market ∧ RiskLevel.high.rank ≤ score.severity.rank then
      (.marketPump, "market anomaly corroborated coordination")
    else if score.severity = .normal ∧ social < 0.20 then
      (.postEvent, "coordinated activity ended without a pump")
    else (current, "coordinated amplification persists")
  | .marketPump =>
    if priceReturn ≤ -0.08 then (.dump, "price reversal crossed dump threshold")
    else if pressure ≤ -0.25 ∨ priceReturn < -0.02 then
      (.possibleDistribution, "sell-pressure proxies indicate possible distribution")
    else (current, "pump conditions persist")
  | .possibleDistribution =>
    if priceReturn ≤ -0.08 ∨ pressure ≤ -0.50 then
      (.dump, "possible distribution progressed to a sharp selloff")
    else if score.severity = .normal then
      (.postEvent, "possible distribution signal decayed")
    else (current, "possible distribution conditions persist")
  | .dump =>
    if score.severity = .normal then (.postEvent, "dump activity returned to baseline")
    else (current, "campaign remains in terminal monitoring")
  | .postEvent => (current, "campaign remains in terminal monitoring")

/-- `_stage_confidence(stage, score)`. -/
def stageConfidence (stage : CampaignStage) (score : FusionResult) : ℚ :=
  let market := orZero score.marketAnomalyRisk
  let social := orZero score.socialCoordinationRisk
  let coordination := orZero score.coordinationScore
  match stage with
  | .normal => max 0 (1 - score.fusionScore)
  | .earlySocialSeeding => social
  | .coordinatedAmplification => max social coordination
  | .marketPump | .possibleDistribution | .dump => max market score.confidence
  | .postEvent => score.confidence

/-- `_reason_codes(stage, score)`. -/
def reasonCodes (stage : CampaignStage) (score : FusionResult) : List String :=
  let codes :=
    (if 0.08 ≤ stageSignal score "price_return" then ["ABNORMAL_RETURN"] else []) ++
    (if 2.5 ≤ stageSignal score "relative_volume" then ["RELATIVE_VOLUME"] else []) ++
    (if 0.35 ≤ orZero score.socialCoordinationRisk then ["SOCIAL_COORDINATION"] else []) ++
    (if stageSignal score "buy_sell_pressure" ≤ -0.25 then ["SELL_PRESSURE_PROXY"] else []) ++
    (if stage = .possibleDistribution then ["PUBLIC_DATA_PROXY_ONLY"] else [])
  codes.dedup.insertionSort (· ≤ ·)

/-- The trigger of one type, when its condition holds. -/
def alertWhen (condition : Prop) [Decidable condition] (alertType : AlertType)
    (severity : RiskLevel) (reason : String) : List AlertTrigger :=
  if condition then [{ alertType := alertType, severity := severity, reason := reason }] else []

/-- `_alerts(score)`. -/
def alerts (score : FusionResult) : List AlertTrigger :=
  let market := orZero score.marketAnomalyRisk
  let social := orZero score.socialCoordinationRisk
  let coordination := orZero score.coordinationScore
  let priceReturn := stageSignal score "price_return"
  let relativeVolume := stageSignal score "relative_volume"
  let spread := stageSignal score "spread"
  let imbalance := stageSignal score "orderbook_imbalance"
  let pressure := stageSignal score "buy_sell_pressure"
  alertWhen (0.35 ≤ social) .socialHypeSurge score.socialCoordinationSeverity
    "social hype or author concentration crossed threshold" ++
  alertWhen (0.55 ≤ coordination) .coordinatedPromotion score.socialCoordinationSeverity
    "coordination heuristics crossed threshold" ++
  alertWhen (0.60 ≤ orZero score.claimRisk) .unverifiedNarrative (maxRisk .watch score.severity)
    "narrative lacked time-valid official support" ++
  alertWhen (0.35 ≤ market ∧ 2.5 ≤ relativeVolume) .marketVolumeAnomaly score.marketAnomalySeverity
    "relative market volume crossed threshold" ++
  alertWhen (0.08 ≤ |priceReturn|) .marketPriceAnomaly score.marketAnomalySeverity
    "absolute price return crossed threshold" ++
  alertWhen (0.02 ≤ spread ∨ 0.70 ≤ |imbalance|) .marketMicrostructureAnomaly
    score.marketAnomalySeverity "spread or order-book imbalance crossed threshold" ++
  alertWhen (0.35 ≤ score.fusionScore ∧ 0.35 ≤ market ∧ 0.35 ≤ social)
    .crossDomainManipulationRisk score.severity
    "market and social evidence corroborated each other" ++
  alertWhen (priceReturn ≤ -0.05 ∨ pressure ≤ -0.35) .possibleDumpPhase
    (maxRisk .watch score.marketAnomalySeverity)
    "negative return or sell pressure indicates a possible dump"

/-- The fields of the assessment. -/
def assessmentFields (current : CampaignStage) (score : FusionResult) : AssessmentFields where
  nextStage := (nextStage current score).1
  transitionReason := (nextStage current score).2
  stageConfidence := stageConfidence (nextStage current score).1 score
  reasonCodes := reasonCodes (nextStage current score).1 score
  stageEvidenceIds := score.idempotencyKey.toList
  ruleVersion := version
  alerts := alerts score

/-- `assess(current, score)`. -/
def assess (current : CampaignStage) (score : FusionResult) : Except PyError CampaignAssessment := do
  validate current (nextStage current score).1
  (assessmentFields current score).validate

/-! ## Stages -/

/-- **The state machine proposes what its table allows.** -/
theorem nextStage_mem (current : CampaignStage) (score : FusionResult) :
    (nextStage current score).1 ∈ transitions current := by
  cases current with
  | postEvent => exact List.mem_cons_self
  | _ =>
    rw [nextStage]
    split_ifs <;> decide

theorem validate_nextStage (current : CampaignStage) (score : FusionResult) :
    validate current (nextStage current score).1 = .ok () :=
  if_pos (nextStage_mem current score)

theorem assess_eq_validate (current : CampaignStage) (score : FusionResult) :
    assess current score = (assessmentFields current score).validate := by
  rw [assess, validate_nextStage]
  rfl

theorem assess_eq_ok {current : CampaignStage} {score : FusionResult}
    {assessment : CampaignAssessment} :
    assess current score = .ok assessment ↔
      assessment.toAssessmentFields = assessmentFields current score := by
  rw [assess_eq_validate]
  exact AssessmentFields.validate_eq_ok

theorem mem_transitions_self (stage : CampaignStage) : stage ∈ transitions stage := by
  cases stage <;> decide

/-- The last stage is not left. -/
theorem mem_transitions_postEvent {stage : CampaignStage} :
    stage ∈ transitions .postEvent ↔ stage = .postEvent :=
  List.mem_singleton

/-! ## Confidence -/

theorem inUnit_orZero {value : Option ℚ} (h : ∀ q ∈ value, InUnit q) : InUnit (orZero value) := by
  cases value with
  | none => exact ⟨le_rfl, zero_le_one⟩
  | some q => exact h q rfl

theorem inUnit_max {p q : ℚ} (hp : InUnit p) (hq : InUnit q) : InUnit (max p q) :=
  ⟨hp.1.trans (le_max_left p q), max_le hp.2 hq.2⟩

/-- The confidence of a stage is a fraction, but for the coordination score of the coordinated stage. -/
theorem inUnit_stageConfidence {stage : CampaignStage} {score : FusionResult} :
    InUnit (stageConfidence stage score) ↔
      ¬ (stage = .coordinatedAmplification ∧ 1 < orZero score.coordinationScore) := by
  have hmarket := inUnit_orZero score.valid.marketAnomalyRisk
  have hsocial := inUnit_orZero score.valid.socialCoordinationRisk
  have hconfidence := score.valid.confidence
  cases stage with
  | normal =>
    refine iff_of_true ⟨le_max_left _ _, max_le zero_le_one ?_⟩ (by simp)
    linarith [score.valid.fusionScore.1]
  | earlySocialSeeding => exact iff_of_true hsocial (by simp)
  | coordinatedAmplification =>
    show InUnit (max _ _) ↔ _
    constructor
    · rintro ⟨-, hle⟩ ⟨-, hlt⟩
      exact absurd ((le_max_right _ _).trans hle) (not_le.mpr hlt)
    · intro h
      exact ⟨hsocial.1.trans (le_max_left _ _),
        max_le hsocial.2 (not_lt.mp fun hlt => h ⟨rfl, hlt⟩)⟩
  | marketPump => exact iff_of_true (inUnit_max hmarket hconfidence) (by simp)
  | possibleDistribution => exact iff_of_true (inUnit_max hmarket hconfidence) (by simp)
  | dump => exact iff_of_true (inUnit_max hmarket hconfidence) (by simp)
  | postEvent => exact iff_of_true hconfidence (by simp)

/-- **When a score is refused.**  Only the coordinated stage has a confidence that is not checked
where the score is made. -/
theorem assess_succeeds_iff (current : CampaignStage) (score : FusionResult) :
    (∃ assessment, assess current score = .ok assessment) ↔
      ¬ ((nextStage current score).1 = .coordinatedAmplification ∧
        1 < orZero score.coordinationScore) := by
  rw [assess_eq_validate, AssessmentFields.validate_succeeds_iff]
  exact inUnit_stageConfidence

/-! ## Alerts -/

theorem map_alertType_alertWhen (condition : Prop) [Decidable condition] (alertType : AlertType)
    (severity : RiskLevel) (reason : String) :
    ((alertWhen condition alertType severity reason).map AlertTrigger.alertType).Sublist
      [alertType] := by
  rw [alertWhen]
  split_ifs
  · exact List.Sublist.refl _
  · exact List.nil_sublist _

/-- A score triggers at most one alert of each type. -/
theorem alerts_nodup (score : FusionResult) :
    ((alerts score).map AlertTrigger.alertType).Nodup := by
  have hsub : ((alerts score).map AlertTrigger.alertType).Sublist
      ([.socialHypeSurge] ++ [.coordinatedPromotion] ++ [.unverifiedNarrative] ++
        [.marketVolumeAnomaly] ++ [.marketPriceAnomaly] ++ [.marketMicrostructureAnomaly] ++
        [.crossDomainManipulationRisk] ++ [.possibleDumpPhase]) := by
    rw [alerts]
    simp only [List.map_append]
    repeat' apply List.Sublist.append
    all_goals exact map_alertType_alertWhen _ _ _ _
  exact hsub.nodup (by decide)

/-- The rank order is the order of the levels. -/
theorem maxRisk_eq_max (left right : RiskLevel) : maxRisk left right = max left right := by
  cases left <;> cases right <;> decide

end CampaignStateMachine

end Campaigns
end Scam2Market
