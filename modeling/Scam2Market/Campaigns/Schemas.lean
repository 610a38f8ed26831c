import Scam2Market.Intelligence.Schemas

/-!
# Campaigns and alerts

The data of `campaigns/schemas.py`.

* The enumerations, with the texts that the messages are formatted from.
* `CampaignEvidence`: a fusion score event, as the repository takes it.
* `CampaignAssessment` and `CampaignRecord` carry the bounds of their confidence, so an assessment
  whose confidence is no fraction cannot be built.  `AssessmentFields.validate` and
  `CampaignPayload.validate` are the validators.
-/

namespace Scam2Market
namespace Campaigns

open Intelligence (EnrichmentProfile FusionResult InUnit RiskLevel ScoreIdentity)

/-! ## Enumerations -/

inductive CampaignStage where
  | normal
  | earlySocialSeeding
  | coordinatedAmplification
  | marketPump
  | possibleDistribution
  | dump
  | postEvent
  deriving DecidableEq, Repr

def CampaignStage.value : CampaignStage → String
  | normal => "NORMAL"
  | earlySocialSeeding => "EARLY_SOCIAL_SEEDING"
  | coordinatedAmplification => "COORDINATED_AMPLIFICATION"
  | marketPump => "MARKET_PUMP"
  | possibleDistribution => "POSSIBLE_DISTRIBUTION"
  | dump => "DUMP"
  | postEvent => "POST_EVENT"

inductive CampaignStatus where
  | active
  | closed
  deriving DecidableEq, Repr

inductive AlertStatus where
  | active
  | resolved
  deriving DecidableEq, Repr

inductive AlertType where
  | socialHypeSurge
  | coordinatedPromotion
  | unverifiedNarrative
  | marketVolumeAnomaly
  | marketPriceAnomaly
  | marketMicrostructureAnomaly
  | crossDomainManipulationRisk
  | possibleDumpPhase
  deriving DecidableEq, Repr

/-! ## Evidence -/

/-- A fusion score event. -/
structure CampaignEvidence where
  eventId : String
  correlationId : String
  causationId : Option String := none
  eventTime : Datetime
  fusion : FusionResult

/-- A score of the `interval` seconds before an instant, with a social and a coordination score. -/
def windowScore (interval : ℕ) (cutoff : Datetime) (social coordination : Option ℚ)
    (severity : RiskLevel) : FusionResult where
  assetId := "asset"
  featureWindowId := ⟨⟨"LIVE", "asset", cutoff - timedeltaSeconds interval, interval⟩⟩
  featureRevision := 0
  modelVersion := "fusion-v2"
  evidenceCutoff := some cutoff
  marketScore := none
  socialScore := social
  coordinationScore := coordination
  temporalScore := none
  claimRisk := none
  legitimateEventScore := none
  graphScore := none
  marketAnomalySeverity := .normal
  socialCoordinationSeverity := .normal
  rawCrossDomainRisk := 0
  contextAdjustedRisk := 0
  fusionScore := 0
  confidence := 0
  severity := severity
  missingOutputs := []
  isCalibrated := false
  marketRegime := "CALM"
  marketRegimeConfidence := 0
  liquidityClass := "HIGH"
  liquidityConfidence := 0
  stageSignals := .empty
  decisionTrace :=
    { components := []
      adjustments := []
      policyDecisions := []
      thresholds := {}
      rawWeightedScore := 0
      finalScore := 0 }
  scoredAt := cutoff
  valid := by constructor <;> simp [InUnit]

/-- A score event of that score. -/
def windowEvidence (eventId : String) (score : FusionResult) (eventTime : Datetime) :
    CampaignEvidence where
  eventId := eventId
  correlationId := eventId
  eventTime := eventTime
  fusion := score

/-- The scope of the score. -/
def CampaignEvidence.scopeId (evidence : CampaignEvidence) : String :=
  evidence.fusion.scopeId

/-- The asset of the score. -/
def CampaignEvidence.assetId (evidence : CampaignEvidence) : String :=
  evidence.fusion.assetId

/-! ## Assessments -/

structure AlertTrigger where
  alertType : AlertType
  severity : RiskLevel
  reason : String
  deriving DecidableEq, Repr

/-- The fields of an assessment, before they are validated. -/
structure AssessmentFields where
  nextStage : CampaignStage
  transitionReason : String
  stageConfidence : ℚ
  reasonCodes : List String := []
  stageEvidenceIds : List (Digest ScoreIdentity) := []
  ruleVersion : String := "campaign-stage-rules-v2"
  alerts : List AlertTrigger := []

/-- What the state machine makes of a score. -/
structure CampaignAssessment extends AssessmentFields where
  stageConfidence_mem : InUnit stageConfidence

/-- `CampaignAssessment(...)`. -/
def AssessmentFields.validate (fields : AssessmentFields) : Except PyError CampaignAssessment :=
  if h : InUnit fields.stageConfidence then .ok ⟨fields, h⟩
  else .error (.validationError (Intelligence.refusedUnit "stage_confidence" fields.stageConfidence))

/-- The validator accepts exactly the fractions, and changes nothing. -/
theorem AssessmentFields.validate_eq_ok {fields : AssessmentFields}
    {assessment : CampaignAssessment} :
    fields.validate = .ok assessment ↔ assessment.toAssessmentFields = fields := by
  rw [validate]
  constructor
  · intro h
    split_ifs at h
    rw [← Except.ok.inj h]
  · rintro rfl
    rw [dif_pos assessment.stageConfidence_mem]

theorem AssessmentFields.validate_succeeds_iff {fields : AssessmentFields} :
    (∃ assessment, fields.validate = .ok assessment) ↔ InUnit fields.stageConfidence := by
  rw [validate]
  constructor
  · rintro ⟨assessment, h⟩
    by_contra hout
    rw [dif_neg hout] at h
    exact absurd h (by simp)
  · intro h
    exact ⟨_, dif_pos h⟩

/-! ## Records -/

/-- `uuid5` of the scope, the asset and the event id of the first evidence. -/
abbrev CampaignId := Uuid (String × String × String)

/-- `uuid5` of the campaign and the alert type. -/
abbrev AlertId := Uuid (CampaignId × AlertType)

/-- Why a campaign is in its stage. -/
structure StageReason where
  reason : String
  reasonCodes : List String
  evidenceIds : List (Digest ScoreIdentity)

/-- The fields of a campaign, before they are validated. -/
structure CampaignPayload where
  campaignId : CampaignId
  scopeId : String
  assetId : String
  stage : CampaignStage
  stageConfidence : ℚ
  stageReason : StageReason
  status : CampaignStatus
  maxSeverity : RiskLevel
  firstEvidenceAt : Datetime
  lastEvidenceAt : Datetime
  lastAppliedEvidenceCutoff : Option Datetime
  lastAppliedFeatureRevision : ℤ
  lastAppliedFusionRevision : ℤ
  lastAppliedEnrichmentProfile : EnrichmentProfile
  version : ℕ

/-- A campaign, as the repository shows it. -/
structure CampaignRecord extends CampaignPayload where
  stageConfidence_mem : InUnit stageConfidence

/-- `CampaignRecord.model_validate(payload)`. -/
def CampaignPayload.validate (payload : CampaignPayload) : Except PyError CampaignRecord :=
  if h : InUnit payload.stageConfidence then .ok ⟨payload, h⟩
  else .error (.validationError (Intelligence.refusedUnit "stage_confidence" payload.stageConfidence))

theorem CampaignPayload.validate_eq_ok {payload : CampaignPayload} {record : CampaignRecord} :
    payload.validate = .ok record ↔ record.toCampaignPayload = payload := by
  rw [validate]
  constructor
  · intro h
    split_ifs at h
    rw [← Except.ok.inj h]
  · rintro rfl
    rw [dif_pos record.stageConfidence_mem]

/-- An alert, as the repository shows it. -/
structure AlertRecord where
  alertId : AlertId
  campaignId : CampaignId
  alertType : AlertType
  severity : RiskLevel
  status : AlertStatus
  firstTriggeredAt : Datetime
  lastTriggeredAt : Datetime
  lastNotifiedAt : Option Datetime
  occurrenceCount : ℕ
  version : ℕ

end Campaigns
end Scam2Market
