import Mathlib.Data.Finset.Defs
import Scam2Market.Intelligence.Schemas

/-!
# Disclosures and verifications

The data of `verification/schemas.py`.

* An id made by `uuid5` is the name it is made from; the id of a disclosure that a payload gives is
  its text (`DisclosureId`).
* The sorted list of the documents of the evidence is the set of them.
* Scores and reliabilities carry that they are fractions.
* Of the payload of a claim the model has the two entries that are read, with the amounts as texts.
-/

namespace Scam2Market
namespace Verification

open Intelligence (InUnit)

inductive VerificationResult where
  | supportedBeforeAlert
  | supportedAfterAlert
  | unsupported
  | conflicting
  | unknown
  deriving DecidableEq, Repr

inductive EvidenceRelation where
  | supporting
  | conflicting
  | context
  | retrospective
  deriving DecidableEq, Repr

/-- A given id, the id of a disclosure event, or the id of a version of an official document. -/
inductive DisclosureId where
  | given (text : String)
  | disclosure (source sourceEventId : String) (documentVersion : ℕ) (contentHash : String)
  | officialDisclosure (logicalKey documentKey : String) (version : ℕ) (contentHash : String)
  deriving DecidableEq, Repr

/-- `uuid5` of the disclosure and the index. -/
abbrev ChunkId := Uuid (DisclosureId × ℕ)

structure DisclosureDocument where
  disclosureId : DisclosureId
  source : String
  sourceDocumentId : String
  assetId : Option String := none
  title : String
  body : String
  publishedAt : Datetime
  retrievedAt : Datetime
  firstObservedAt : Option Datetime := none
  ingestedAt : Option Datetime := none
  availableAt : Option Datetime := none
  documentVersion : ℕ := 1
  supersedesDisclosureId : Option DisclosureId := none
  sourcePolicyVersion : String := "official-sources-v1"
  reliability : ℚ := 1
  contentHash : String
  sourcePolicyId : Option String := none
  sourceDocumentKey : Option String := none
  logicalSourceKey : Option String := none
  versionStatus : String := "CURRENT"
  documentVersion_pos : 1 ≤ documentVersion := by first | exact Nat.one_pos | norm_num
  reliability_mem : InUnit reliability := by
    first | with_reducible exact Intelligence.inUnit_one | norm_num [Intelligence.InUnit]

structure DisclosureChunk where
  chunkId : ChunkId
  disclosureId : DisclosureId
  chunkIndex : ℕ
  text : String

structure DisclosureCandidate where
  chunkId : ChunkId
  disclosureId : DisclosureId
  source : String
  sourceDocumentId : String
  title : String
  text : String
  publishedAt : Datetime
  firstObservedAt : Datetime
  ingestedAt : Datetime
  availableAt : Datetime
  documentVersion : ℕ
  sourcePolicyVersion : String
  reliability : ℚ
  sourcePolicyId : Option String := none
  trustTier : String := "UNSPECIFIED"
  trustRationale : Option String := none
  licenseSnapshot : JsonObject := .empty
  documentVersion_pos : 1 ≤ documentVersion
  reliability_mem : InUnit reliability

structure VerificationEvidence where
  disclosureId : DisclosureId
  relation : EvidenceRelation
  score : ℚ
  rank : ℕ
  temporalEligible : Bool
  reasonCodes : List String
  sourcePolicyId : Option String := none
  sourcePolicyVersion : String
  trustScore : ℚ
  trustTier : String
  licenseSnapshot : JsonObject := .empty
  score_mem : InUnit score
  rank_pos : 1 ≤ rank
  trustScore_mem : InUnit trustScore

/-- `canonical_payload`: a missing entry reads like a null one, amounts that are no list read like no
amounts, and a polarity that is no text reads like a text of its own. -/
structure CanonicalPayload where
  polarity : Option String := none
  amounts : List String := []

structure Claim where
  claimId : String
  narrativeId : String
  assetId : String
  claimText : String
  claimType : String := "OTHER"
  canonicalPayload : CanonicalPayload := {}
  claimHash : String
  extractedAt : Datetime
  extractorVersion : String

/-- An entry of `matches`. -/
structure RetrievalMatch where
  documentId : DisclosureId
  sourceDocumentId : String
  publishedAt : Datetime
  firstObservedAt : Datetime
  ingestedAt : Datetime
  availableAt : Datetime
  similarity : ℚ
  isFuture : Bool

structure RetrievalMetadata where
  alertCutoff : Datetime
  temporalFilter : String
  availabilityRule : String
  coverage : JsonObject
  sourcePolicyVersion : String
  candidateCount : ℕ
  matched : List RetrievalMatch

structure ClaimVerification where
  verificationId : Uuid (String × Datetime × String)
  claimId : String
  alertTime : Datetime
  result : VerificationResult
  claimRisk : ℚ
  legitimateEventScore : ℚ
  evidenceDocumentIds : Finset DisclosureId
  retrievalMetadata : RetrievalMetadata
  deterministicReason : String
  llmExplanation : Option String := none
  verifierVersion : String
  sourcePolicyVersion : String := "official-sources-v1"
  retrospectiveOnly : Bool := false
  verifiedAt : Datetime
  evidence : List VerificationEvidence := []
  claimRisk_mem : InUnit claimRisk
  legitimateEventScore_mem : InUnit legitimateEventScore

end Verification
end Scam2Market
