import Scam2Market.Campaigns.Schemas
import Scam2Market.Features.Tables
import Scam2Market.Library.HashChain

/-!
# Evidence snapshots

The data of `evidence/schemas.py` and `EvidenceBuilder.build` of `evidence/service.py`.

* The content of a snapshot is the dump of its input, and stands for it.  `canonical_hash` has no
  collisions: a content hash is the digest of its content, and a chain hash is the three values it is
  taken of.
* `Completeness` carries that its score is a fraction.
* The explanation of a snapshot is left out: it is stored beside the snapshot and not read again.
-/

namespace Scam2Market
namespace Evidence

open Campaigns (AlertId AlertType CampaignId CampaignStage)
open Features (FeatureLineage FeatureValues WindowKey)
open Intelligence (FusionResult InUnit RiskLevel)
open Library.HashChain (Block)

/-! ## Inputs -/

/-- What is recorded of a revision of a window. -/
structure FeatureEvidence where
  featureWindowId : Uuid WindowKey
  revision : ℕ
  windowStart : Datetime
  windowEnd : Datetime
  featureSchemaVersion : String
  featureSchemaHash : Digest (String × List Features.FeatureName)
  isFinal : Bool
  features : FeatureValues

structure NarrativeEvidence where
  narrativeId : String
  revisionId : String
  revision : ℕ
  label : String
  summary : String
  postCount : ℕ
  uniqueAuthorCount : ℕ
  memberHash : String

structure GraphEvidence where
  graphSnapshotId : String
  cutoffEventTime : Datetime
  sourceLineageHash : String
  projectionVersion : String
  projectionStatus : String
  features : Option JsonObject
  graphScore : Option ℚ

structure VerificationEvidence where
  verificationId : String
  claimId : String
  claimText : String
  result : String
  claimRisk : ℚ
  legitimateEventScore : ℚ
  evidenceDocumentIds : List String
  retrievalMetadata : JsonObject
  deterministicReason : String
  verifierVersion : String
  sourcePolicyVersion : String
  retrospectiveOnly : Bool

structure EvidenceInput where
  alertId : AlertId
  campaignId : CampaignId
  scopeId : String
  assetId : String
  alertVersion : ℕ
  alertType : AlertType
  severity : RiskLevel
  stage : CampaignStage
  evidenceCutoff : Datetime
  campaignEvidenceEventId : String
  fusion : FusionResult
  feature : Option FeatureEvidence := none
  featureLineage : Option FeatureLineage := none
  narrative : Option NarrativeEvidence := none
  graph : Option GraphEvidence := none
  verifications : List VerificationEvidence := []

/-! ## Hashes -/

/-- `canonical_hash` of the previous chain hash, the content hash and the alert version. -/
inductive ChainHash where
  | canonicalHash (previousChainHash : Option ChainHash) (contentHash : Digest EvidenceInput)
      (alertVersion : ℕ)

/-- The chain hash of a version of an alert with its content. -/
def chainLink (previous : Option ChainHash) (entry : ℕ × EvidenceInput) : ChainHash :=
  .canonicalHash previous ⟨entry.2⟩ entry.1

theorem chainLink_injective (previous previous' : Option ChainHash) (entry entry' : ℕ × EvidenceInput)
    (h : chainLink previous entry = chainLink previous' entry') :
    previous = previous' ∧ entry = entry' := by
  obtain ⟨hprevious, hcontent, hversion⟩ := ChainHash.canonicalHash.inj h
  exact ⟨hprevious, Prod.ext hversion (congrArg Digest.material hcontent)⟩

/-! ## References -/

/-- What a reference has the digest of. -/
inductive EvidenceValue where
  | fusion (fusion : FusionResult)
  | feature (feature : FeatureEvidence)
  | narrative (narrative : NarrativeEvidence)
  | graph (graph : GraphEvidence)
  | verification (verification : VerificationEvidence)

/-- The text of an id, or the window it is the id of. -/
inductive EvidenceId where
  | text (id : String)
  | window (id : Uuid WindowKey)
  deriving DecidableEq, Repr

structure EvidenceReference where
  evidenceType : String
  evidenceId : EvidenceId
  eventTime : Option Datetime := none
  digest : Digest EvidenceValue
  metadata : List (String × String) := []

/-- `_references(source)`. -/
def references (source : EvidenceInput) : List EvidenceReference :=
  let reference (evidenceType : String) (evidenceId : EvidenceId) (value : EvidenceValue)
      (metadata : List (String × String)) : EvidenceReference :=
    { evidenceType := evidenceType
      evidenceId := evidenceId
      eventTime := some source.evidenceCutoff
      digest := ⟨value⟩
      metadata := metadata }
  [reference "CAMPAIGN_EVIDENCE" (.text source.campaignEvidenceEventId) (.fusion source.fusion)
    [("model_version", source.fusion.modelVersion)]] ++
  (source.feature.map fun feature =>
    reference "FEATURE" (.window feature.featureWindowId) (.feature feature) []).toList ++
  (source.narrative.map fun narrative =>
    reference "NARRATIVE" (.text narrative.narrativeId) (.narrative narrative) []).toList ++
  (source.graph.map fun graph =>
    reference "GRAPH" (.text graph.graphSnapshotId) (.graph graph) []).toList ++
  source.verifications.map fun item =>
    reference "CLAIM_VERIFICATION" (.text item.verificationId) (.verification item)
      [("result", item.result)]

/-! ## Completeness -/

structure Completeness where
  score : ℚ
  present : List String
  missing : List String
  score_mem : InUnit score

/-- `round(present / total, 4)`; no fraction of sevenths is halfway between two such numbers. -/
def roundedShare (present total : ℕ) : ℚ :=
  ((present * 20000 + total) / (2 * total) : ℕ) / 10000

theorem roundedShare_mem {present total : ℕ} (htotal : 0 < total) (h : present ≤ total) :
    InUnit (roundedShare present total) := by
  have hle : (present * 20000 + total) / (2 * total) ≤ 10000 :=
    Nat.lt_succ_iff.mp (Nat.div_lt_of_lt_mul (by omega))
  have hcast : (((present * 20000 + total) / (2 * total) : ℕ) : ℚ) ≤ 10000 := by exact_mod_cast hle
  unfold roundedShare InUnit
  constructor
  · positivity
  · rw [div_le_one (by norm_num)]
    exact hcast

/-- The domains of evidence, and whether they are there. -/
def completenessChecks (source : EvidenceInput) : List (String × Bool) :=
  [("market", source.fusion.marketScore.isSome),
    ("social", source.fusion.socialScore.isSome),
    ("coordination", source.fusion.coordinationScore.isSome),
    ("feature_lineage", source.feature.isSome && source.featureLineage.isSome),
    ("narrative", source.narrative.isSome),
    ("graph", source.graph.isSome),
    ("verification", !source.verifications.isEmpty)]

/-- `_completeness(source)`. -/
def completeness (source : EvidenceInput) : Completeness :=
  let checks := completenessChecks source
  let names (available : Bool) : List String :=
    ((checks.filter fun check => check.2 = available).map Prod.fst).insertionSort (· ≤ ·)
  { score := roundedShare (checks.countP Prod.snd) checks.length
    present := names true
    missing := names false
    score_mem := roundedShare_mem (by simp [checks, completenessChecks]) List.countP_le_length }

/-! ## Snapshots -/

/-- `SNAPSHOT_SCHEMA_VERSION`. -/
def snapshotSchemaVersion : String :=
  "evidence-snapshot-v1"

/-- `uuid5` of the alert, its version and the content hash. -/
abbrev SnapshotId := Uuid (AlertId × ℕ × Digest EvidenceInput)

structure EvidenceSnapshot where
  snapshotId : SnapshotId
  alertId : AlertId
  campaignId : CampaignId
  scopeId : String
  assetId : String
  alertVersion : ℕ
  evidenceCutoff : Datetime
  schemaVersion : String
  content : EvidenceInput
  contentHash : Digest EvidenceInput
  previousChainHash : Option ChainHash
  chainHash : ChainHash
  completeness : Completeness
  references : List EvidenceReference
  createdAt : Datetime

/-- `build(source, previous_chain_hash=..., created_at=...)`. -/
def build (source : EvidenceInput) (previousChainHash : Option ChainHash) (createdAt : Datetime) :
    EvidenceSnapshot where
  snapshotId := ⟨(source.alertId, source.alertVersion, ⟨source⟩)⟩
  alertId := source.alertId
  campaignId := source.campaignId
  scopeId := source.scopeId
  assetId := source.assetId
  alertVersion := source.alertVersion
  evidenceCutoff := source.evidenceCutoff
  schemaVersion := snapshotSchemaVersion
  content := source
  contentHash := ⟨source⟩
  previousChainHash := previousChainHash
  chainHash := .canonicalHash previousChainHash ⟨source⟩ source.alertVersion
  completeness := completeness source
  references := references source
  createdAt := createdAt

/-- A snapshot as a block of the chain of its alert. -/
def EvidenceSnapshot.block (snapshot : EvidenceSnapshot) : Block ChainHash (ℕ × EvidenceInput) where
  previous := snapshot.previousChainHash
  entry := (snapshot.alertVersion, snapshot.content)
  hash := snapshot.chainHash

end Evidence
end Scam2Market
