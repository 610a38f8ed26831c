import Mathlib.Order.Lattice
import Scam2Market.Library.OrderedDict
import Scam2Market.Features.Schemas

/-!
# Scores and their traces

The data of `intelligence/fusion.py`.

* `RiskLevel`, with the order of its ranks.
* `ThresholdConfig` and `ThreatContext` carry their field constraints; `FusionWeights` has none.
* `FusionResult`: the fields (`FusionFields`) and what the validator checks about them, so that a
  result with a score outside `[0, 1]` cannot be built.  `FusionFields.validate` is the validator,
  with the fields and the messages of its errors.
-/

namespace Scam2Market
namespace Intelligence

open Features (FeatureValues WindowKey)
open Library (OrderedDict)

/-! ## Risk levels -/

inductive RiskLevel where
  | normal
  | watch
  | high
  | critical
  deriving DecidableEq, Repr

/-- `_RISK_RANK`. -/
def RiskLevel.rank : RiskLevel → ℕ
  | normal => 0
  | watch => 1
  | high => 2
  | critical => 3

theorem RiskLevel.rank_injective : Function.Injective RiskLevel.rank := by
  intro a b h
  cases a <;> cases b <;> first | rfl | exact absurd h (by decide)

/-- Levels are compared by their ranks. -/
instance : LinearOrder RiskLevel :=
  LinearOrder.lift' RiskLevel.rank RiskLevel.rank_injective

theorem RiskLevel.le_iff {a b : RiskLevel} : a ≤ b ↔ a.rank ≤ b.rank := Iff.rfl

theorem RiskLevel.normal_le (level : RiskLevel) : normal ≤ level :=
  Nat.zero_le _

theorem RiskLevel.le_critical (level : RiskLevel) : level ≤ critical := by
  cases level <;> decide

/-! ## Configuration -/

/-- `Field(ge=0, le=1)`. -/
def InUnit (value : ℚ) : Prop :=
  0 ≤ value ∧ value ≤ 1

instance (value : ℚ) : Decidable (InUnit value) :=
  inferInstanceAs (Decidable (_ ∧ _))

theorem inUnit_zero : InUnit 0 := by norm_num [InUnit]

theorem inUnit_one : InUnit 1 := by norm_num [InUnit]

theorem inUnit_none : ∀ q ∈ (none : Option ℚ), InUnit q := by simp

/-! The bands that the model has by default. -/

theorem inUnit_watch : InUnit 0.35 := by norm_num [InUnit]

theorem inUnit_high : InUnit 0.60 := by norm_num [InUnit]

theorem inUnit_critical : InUnit 0.80 := by norm_num [InUnit]

/-- The bands of the fusion score. -/
structure ThresholdConfig where
  version : String := "fusion-thresholds-v1"
  watch : ℚ := 0.35
  high : ℚ := 0.60
  critical : ℚ := 0.80
  watch_mem : InUnit watch := by first | with_reducible exact inUnit_watch | norm_num [InUnit]
  high_mem : InUnit high := by first | with_reducible exact inUnit_high | norm_num [InUnit]
  critical_mem : InUnit critical := by first | with_reducible exact inUnit_critical | norm_num [InUnit]

/-- The weights of the components. -/
structure FusionWeights where
  marketScore : ℚ := 0.40
  socialScore : ℚ := 0.10
  coordinationScore : ℚ := 0.18
  temporalScore : ℚ := 0.10
  claimRisk : ℚ := 0.12
  graphScore : ℚ := 0.10

/-- `weights.model_dump().items()`. -/
def FusionWeights.items (weights : FusionWeights) : List (String × ℚ) :=
  [("market_score", weights.marketScore), ("social_score", weights.socialScore),
    ("coordination_score", weights.coordinationScore), ("temporal_score", weights.temporalScore),
    ("claim_risk", weights.claimRisk), ("graph_score", weights.graphScore)]

/-! ## Inputs -/

inductive MissingReason where
  | sourceUnavailable
  | sourceIdle
  | sourceDegraded
  | insufficientHistory
  | noObservations
  | notProvided
  | invalidOrderbook
  | insufficientPeerData
  | notReady
  | qdrantDegraded
  | neo4jDegraded
  | noNarrative
  | noClaim
  | insufficientGraph
  | verificationUnknown
  | timeout
  deriving DecidableEq, Repr

/-- What a detector says about a snapshot. -/
structure DetectorOutput where
  name : String
  score : Option ℚ
  modelVersion : String
  reason : String
  missingReason : Option MissingReason := none

inductive ThreatContextStatus where
  | disabled
  | unavailable
  | stale
  | noMatch
  | matched
  deriving DecidableEq, Repr

/-- What threat intelligence knows about an asset. -/
structure ThreatContext where
  status : ThreatContextStatus := .disabled
  score : Option ℚ := none
  confidence : Option ℚ := none
  snapshotId : Option String := none
  matchIds : List String := []
  cutoff : Option Datetime := none
  version : String := "threat-context-v1"
  score_mem : ∀ q ∈ score, InUnit q := by first | with_reducible exact inUnit_none | simp
  confidence_mem : ∀ q ∈ confidence, InUnit q := by first | with_reducible exact inUnit_none | simp

/-! ## The trace of a decision -/

inductive ContributionDirection where
  | riskIncreasing
  | riskReducing
  | neutral
  deriving DecidableEq, Repr

structure MissingOutput where
  name : String
  reason : MissingReason
  deriving DecidableEq, Repr

structure TraceComponent where
  name : String
  value : Option ℚ
  configuredWeight : ℚ
  effectiveNormalizedWeight : ℚ
  signedWeightedContribution : ℚ
  direction : ContributionDirection
  missing : Bool
  missingReason : Option MissingReason
  deriving DecidableEq, Repr

structure ScoreAdjustment where
  name : String
  before : ℚ
  factor : Option ℚ := none
  delta : ℚ
  after : ℚ
  direction : ContributionDirection
  deriving DecidableEq, Repr

structure PolicyDecision where
  policy : String
  applied : Bool
  before : ℚ
  after : ℚ
  reason : String
  deriving DecidableEq, Repr

structure DecisionTrace where
  version : String := "fusion-decision-trace-v1"
  components : List TraceComponent
  adjustments : List ScoreAdjustment
  policyDecisions : List PolicyDecision
  thresholds : ThresholdConfig
  rawWeightedScore : ℚ
  finalScore : ℚ

/-! ## Results -/

inductive EnrichmentProfile where
  | base
  | graph
  | verification
  | graphAndVerification
  deriving DecidableEq, Repr

/-- The parts of the identity of a score, the snapshot ids in key order. -/
structure ScoreIdentity where
  scopeId : String
  assetId : String
  featureWindowId : Uuid WindowKey
  featureRevision : ℤ
  enrichmentProfile : EnrichmentProfile
  inputSnapshotIds : List (String × String)
  fusionPolicyVersion : String
  deriving DecidableEq, Repr

/-- The fields of a result, before they are validated.  The two identifiers are empty until the
detection service fills them in. -/
structure FusionFields where
  modelScoreId : Option (Uuid (Digest ScoreIdentity)) := none
  scopeId : String := "LIVE"
  assetId : String
  featureWindowId : Uuid WindowKey
  featureRevision : ℤ
  modelVersion : String
  baseModelVersion : String := "fusion-v2"
  fusionPolicyVersion : String := "fusion-policy-v1"
  enrichmentProfile : EnrichmentProfile := .base
  fusionRevision : ℤ := 1
  evidenceCutoff : Option Datetime := none
  inputSnapshotIds : OrderedDict String String := .empty
  idempotencyKey : Option (Digest ScoreIdentity) := none
  marketScore : Option ℚ
  socialScore : Option ℚ
  coordinationScore : Option ℚ
  temporalScore : Option ℚ
  claimRisk : Option ℚ
  legitimateEventScore : Option ℚ
  graphScore : Option ℚ
  threatContext : ThreatContext := {}
  marketAnomalyRisk : Option ℚ := none
  marketAnomalySeverity : RiskLevel
  socialCoordinationRisk : Option ℚ := none
  socialCoordinationSeverity : RiskLevel
  rawCrossDomainRisk : ℚ
  contextAdjustedRisk : ℚ
  fusionScore : ℚ
  confidence : ℚ
  severity : RiskLevel
  missingOutputs : List MissingOutput
  isCalibrated : Bool
  marketRegime : String
  marketRegimeConfidence : ℚ
  liquidityClass : String
  liquidityConfidence : ℚ
  stageSignals : OrderedDict String (Option ℚ)
  decisionTrace : DecisionTrace
  scoredAt : Datetime

/-- `Field(ge=0, le=1)` on a field: what it adds to the errors. -/
def refusedUnit (field : String) (value : ℚ) : List (String × String) :=
  if value < 0 then [(field, "Input should be greater than or equal to 0")]
  else if 1 < value then [(field, "Input should be less than or equal to 1")]
  else []

/-- `Field(default=None, ge=0, le=1)` on a field. -/
def refusedUnit? (field : String) (value : Option ℚ) : List (String × String) :=
  match value with
  | some q => refusedUnit field q
  | none => []

/-- `Field(ge=1)` on a field. -/
def refusedPositive (field : String) (value : ℤ) : List (String × String) :=
  if 1 ≤ value then [] else [(field, "Input should be greater than or equal to 1")]

theorem refusedUnit_eq_nil {field : String} {value : ℚ} :
    refusedUnit field value = [] ↔ InUnit value := by
  rw [refusedUnit, InUnit]
  by_cases hneg : value < 0
  · rw [if_pos hneg]
    exact iff_of_false (List.cons_ne_nil _ _) fun h => absurd h.1 (not_le.mpr hneg)
  · by_cases hbig : 1 < value
    · rw [if_neg hneg, if_pos hbig]
      exact iff_of_false (List.cons_ne_nil _ _) fun h => absurd h.2 (not_le.mpr hbig)
    · rw [if_neg hneg, if_neg hbig]
      exact iff_of_true rfl ⟨not_lt.mp hneg, not_lt.mp hbig⟩

theorem refusedUnit?_eq_nil {field : String} {value : Option ℚ} :
    refusedUnit? field value = [] ↔ ∀ q ∈ value, InUnit q := by
  cases value with
  | none => exact iff_of_true rfl (by simp)
  | some q => simpa [refusedUnit?] using refusedUnit_eq_nil

theorem refusedPositive_eq_nil {field : String} {value : ℤ} :
    refusedPositive field value = [] ↔ 1 ≤ value := by
  rw [refusedPositive]
  by_cases h : 1 ≤ value
  · rw [if_pos h]
    exact iff_of_true rfl h
  · rw [if_neg h]
    exact iff_of_false (List.cons_ne_nil _ _) h

/-- The fields that are refused, in the order of their declaration. -/
def FusionFields.refused (fields : FusionFields) : List (String × String) :=
  refusedPositive "fusion_revision" fields.fusionRevision ++
  refusedUnit? "market_anomaly_risk" fields.marketAnomalyRisk ++
  refusedUnit? "social_coordination_risk" fields.socialCoordinationRisk ++
  refusedUnit "raw_cross_domain_risk" fields.rawCrossDomainRisk ++
  refusedUnit "context_adjusted_risk" fields.contextAdjustedRisk ++
  refusedUnit "fusion_score" fields.fusionScore ++
  refusedUnit "confidence" fields.confidence ++
  refusedUnit "market_regime_confidence" fields.marketRegimeConfidence ++
  refusedUnit "liquidity_confidence" fields.liquidityConfidence

/-- What the validator of a result checks. -/
structure FusionFields.Valid (fields : FusionFields) : Prop where
  fusionRevision : 1 ≤ fields.fusionRevision
  marketAnomalyRisk : ∀ q ∈ fields.marketAnomalyRisk, InUnit q
  socialCoordinationRisk : ∀ q ∈ fields.socialCoordinationRisk, InUnit q
  rawCrossDomainRisk : InUnit fields.rawCrossDomainRisk
  contextAdjustedRisk : InUnit fields.contextAdjustedRisk
  fusionScore : InUnit fields.fusionScore
  confidence : InUnit fields.confidence
  marketRegimeConfidence : InUnit fields.marketRegimeConfidence
  liquidityConfidence : InUnit fields.liquidityConfidence

theorem FusionFields.refused_eq_nil {fields : FusionFields} :
    fields.refused = [] ↔ fields.Valid := by
  simp only [refused, List.append_eq_nil_iff, refusedUnit_eq_nil, refusedUnit?_eq_nil,
    refusedPositive_eq_nil]
  constructor
  · rintro ⟨⟨⟨⟨⟨⟨⟨⟨hrev, hmarket⟩, hsocial⟩, hraw⟩, hadj⟩, hscore⟩, hconf⟩, hregime⟩, hliq⟩
    exact ⟨hrev, hmarket, hsocial, hraw, hadj, hscore, hconf, hregime, hliq⟩
  · rintro ⟨hrev, hmarket, hsocial, hraw, hadj, hscore, hconf, hregime, hliq⟩
    exact ⟨⟨⟨⟨⟨⟨⟨⟨hrev, hmarket⟩, hsocial⟩, hraw⟩, hadj⟩, hscore⟩, hconf⟩, hregime⟩, hliq⟩

/-- A validated result. -/
structure FusionResult extends FusionFields where
  valid : toFusionFields.Valid

/-- `FusionResult(...)`. -/
def FusionFields.validate (fields : FusionFields) : Except PyError FusionResult :=
  if h : fields.refused = [] then .ok ⟨fields, refused_eq_nil.mp h⟩
  else .error (.validationError fields.refused)

/-- The validator accepts exactly the valid fields, and changes nothing. -/
theorem FusionFields.validate_eq_ok {fields : FusionFields} {result : FusionResult} :
    fields.validate = .ok result ↔ result.toFusionFields = fields := by
  rw [validate]
  constructor
  · intro h
    split_ifs at h
    rw [← Except.ok.inj h]
  · intro h
    have hnil : fields.refused = [] := refused_eq_nil.mpr (h ▸ result.valid)
    rw [dif_pos hnil]
    congr
    exact h.symm

theorem FusionFields.validate_of_valid {fields : FusionFields} (h : fields.Valid) :
    fields.validate = .ok ⟨fields, h⟩ :=
  validate_eq_ok.mpr rfl

/-- Every error names the field it is about. -/
theorem FusionFields.mem_refused {fields : FusionFields} {error : String × String}
    (h : error ∈ fields.refused) :
    error.1 ∈ ["fusion_revision", "market_anomaly_risk", "social_coordination_risk",
      "raw_cross_domain_risk", "context_adjusted_risk", "fusion_score", "confidence",
      "market_regime_confidence", "liquidity_confidence"] := by
  have hunit : ∀ {field value}, error ∈ refusedUnit field value → error.1 = field := by
    intro field value herr
    rw [refusedUnit] at herr
    split_ifs at herr
    · rw [List.mem_singleton.mp herr]
    · rw [List.mem_singleton.mp herr]
    · exact absurd herr List.not_mem_nil
  have hunit? : ∀ {field value}, error ∈ refusedUnit? field value → error.1 = field := by
    intro field value herr
    cases value with
    | none => exact absurd herr List.not_mem_nil
    | some q => exact hunit herr
  have hpos : ∀ {field value}, error ∈ refusedPositive field value → error.1 = field := by
    intro field value herr
    rw [refusedPositive] at herr
    split_ifs at herr
    · exact absurd herr List.not_mem_nil
    · rw [List.mem_singleton.mp herr]
  simp only [refused, List.mem_append] at h
  rcases h with (((((((h | h) | h) | h) | h) | h) | h) | h) | h
  · simp [hpos h]
  · simp [hunit? h]
  · simp [hunit? h]
  all_goals simp [hunit h]

end Intelligence
end Scam2Market
