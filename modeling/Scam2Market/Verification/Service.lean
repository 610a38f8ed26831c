import Scam2Market.Library.Clipping
import Scam2Market.Verification.Repository
import Scam2Market.Verification.Similarity

/-!
# The verifier

`TimeBoundedClaimVerifier` of `verification/service.py`.

* `verdictOf`: the six branches of the result.
* `verificationEvidence`: one record for each disclosure and relation, the most similar chunk first.
* `judge`: what `verify` does with the candidates and the coverage it has fetched.
-/

namespace Scam2Market
namespace Verification

open Intelligence (InUnit)
open Library (clampTo le_clampTo clampTo_le)

/-- The verifier; an explainer may raise. -/
structure TimeBoundedClaimVerifier where
  explainer : Option (Claim → VerificationResult → List DisclosureCandidate → Except PyError String) :=
    none
  supportThreshold : ℚ := 0.34
  lookbackDays : ℤ := 30
  futureDays : ℤ := 7

namespace TimeBoundedClaimVerifier

def version : String :=
  "availability-bounded-verifier-v2"

def sourcePolicyVersion : String :=
  "official-sources-v1"

end TimeBoundedClaimVerifier

/-- A candidate with its similarity to the claim. -/
abbrev Scored := DisclosureCandidate × ℚ

/-! ## The verdict -/

structure Verdict where
  result : VerificationResult
  claimRisk : ℚ
  legitimateEventScore : ℚ
  evidence : List Scored
  deterministicReason : String
  claimRisk_mem : InUnit claimRisk := by
    first
    | with_reducible exact Intelligence.inUnit_one
    | with_reducible exact Intelligence.inUnit_zero
    | norm_num [Intelligence.InUnit]
  legitimateEventScore_mem : InUnit legitimateEventScore := by
    first
    | with_reducible exact Intelligence.inUnit_one
    | with_reducible exact Intelligence.inUnit_zero
    | norm_num [Intelligence.InUnit]

/-- `max(item[0].reliability for item in support)`. -/
def bestReliability (support : List Scored) : ℚ :=
  support.foldr (fun item best => max item.1.reliability best) 0

theorem bestReliability_mem (support : List Scored) : InUnit (bestReliability support) := by
  induction support with
  | nil => exact ⟨le_rfl, zero_le_one⟩
  | cons item support ih =>
    exact ⟨le_max_of_le_right ih.1, max_le item.1.reliability_mem.2 ih.2⟩

/-- The result, by what supports the claim, what conflicts with it, what comes too late, whether the
sources are complete, and whether there is any candidate. -/
def verdictOf (support conflict future : List Scored) (complete : Bool)
    (candidates : List DisclosureCandidate) : Verdict :=
  if conflict ≠ [] then
    { result := .conflicting
      claimRisk := 1
      legitimateEventScore := 0
      evidence := support ++ conflict ++ future
      deterministicReason := "a time-valid source materially conflicts with the extracted claim" }
  else if support ≠ [] then
    { result := .supportedBeforeAlert
      claimRisk := 0.15
      legitimateEventScore := bestReliability support
      evidence := support ++ future
      deterministicReason := "supporting disclosure existed at or before the alert cutoff"
      legitimateEventScore_mem := bestReliability_mem support }
  else if future ≠ [] then
    { result := .supportedAfterAlert
      claimRisk := 0.75
      legitimateEventScore := 0
      evidence := future
      deterministicReason :=
        "support appeared only after the alert cutoff and was not used retrospectively" }
  else if complete = false then
    { result := .unknown
      claimRisk := 0.50
      legitimateEventScore := 0
      evidence := []
      deterministicReason := "expected official sources were failed, stale, or incomplete" }
  else if candidates ≠ [] then
    { result := .unsupported
      claimRisk := 0.90
      legitimateEventScore := 0
      evidence := []
      deterministicReason := "retrieved time-bounded sources did not support the claim" }
  else
    { result := .unknown
      claimRisk := 0.50
      legitimateEventScore := 0
      evidence := []
      deterministicReason := "no eligible disclosure evidence was available around the alert cutoff" }

section Verdict

variable (support conflict future : List Scored) (complete : Bool)
  (candidates : List DisclosureCandidate)

theorem result_eq_conflicting_iff :
    (verdictOf support conflict future complete candidates).result = .conflicting ↔
      conflict ≠ [] := by
  unfold verdictOf
  split_ifs with h <;> simp [h]

theorem result_eq_supportedBeforeAlert_iff :
    (verdictOf support conflict future complete candidates).result = .supportedBeforeAlert ↔
      conflict = [] ∧ support ≠ [] := by
  unfold verdictOf
  split_ifs with hconflict hsupport <;> simp_all

/-- Only support that nothing contradicts is credited. -/
theorem legitimateEventScore_eq :
    (verdictOf support conflict future complete candidates).legitimateEventScore =
      if conflict = [] then bestReliability support else 0 := by
  unfold verdictOf
  split_ifs with hconflict hsupport <;> simp_all [bestReliability]

variable {support conflict future complete candidates}
  {support' conflict' future' : List Scored} {candidates' : List DisclosureCandidate}

/-- When the verdict depends on whether there is a candidate. -/
theorem verdict_eq_iff (hconflict : conflict = [] ↔ conflict' = [])
    (hsupport : support = [] ↔ support' = []) (hfuture : future = [] ↔ future' = [])
    (hbest : bestReliability support = bestReliability support') :
    ((verdictOf support conflict future complete candidates).result =
        (verdictOf support' conflict' future' complete candidates').result ∧
      (verdictOf support conflict future complete candidates).claimRisk =
        (verdictOf support' conflict' future' complete candidates').claimRisk ∧
      (verdictOf support conflict future complete candidates).legitimateEventScore =
        (verdictOf support' conflict' future' complete candidates').legitimateEventScore) ↔
      conflict ≠ [] ∨ support ≠ [] ∨ future ≠ [] ∨ complete = false ∨
        (candidates = [] ↔ candidates' = []) := by
  unfold verdictOf
  by_cases h1 : conflict = []
  · have h1' := hconflict.mp h1
    by_cases h2 : support = []
    · have h2' := hsupport.mp h2
      by_cases h3 : future = []
      · have h3' := hfuture.mp h3
        cases complete with
        | false => simp [h1, h1', h2, h2', h3, h3']
        | true =>
          by_cases h4 : candidates = []
          · by_cases h4' : candidates' = [] <;> simp [h1, h1', h2, h2', h3, h3', h4, h4']
          · by_cases h4' : candidates' = [] <;> simp [h1, h1', h2, h2', h3, h3', h4, h4']
      · have h3' : future' ≠ [] := fun h => h3 (hfuture.mpr h)
        simp [h1, h1', h2, h2', h3, h3']
    · have h2' : support' ≠ [] := fun h => h2 (hsupport.mpr h)
      simp [h1, h1', h2, h2', hbest]
  · have h1' : conflict' ≠ [] := fun h => h1 (hconflict.mpr h)
    simp [h1, h1']

end Verdict

/-! ## The records of the evidence -/

section Evidence

variable (text : ChunkId → String) (claim : Claim) (alertTime : Datetime)

/-- The most similar first, by the text of the id among equals. -/
def rankKey (item : Scored) : ℚ ×ₗ String :=
  toLex (-item.2, text item.1.chunkId)

/-- `sorted(matching, key=...)`. -/
def ranked (matching : List Scored) : List Scored :=
  matching.insertionSort fun a b => rankKey text a ≤ rankKey text b

/-- What a candidate is to the claim. -/
def relationOf (candidate : DisclosureCandidate) : EvidenceRelation :=
  if alertTime < candidate.availableAt then .retrospective
  else if conflictReasons claim candidate ≠ [] then .conflicting
  else .supporting

/-- The record of a candidate, with a rank. -/
def evidenceRecord (item : Scored) (rank : ℕ) : VerificationEvidence :=
  let conflicts := conflictReasons claim item.1
  let eligible := decide (item.1.availableAt ≤ alertTime)
  { disclosureId := item.1.disclosureId
    relation := relationOf claim alertTime item.1
    score := clampTo 0 1 (item.2 * item.1.reliability)
    rank := rank + 1
    temporalEligible := eligible
    reasonCodes :=
      if conflicts ≠ [] then conflicts
      else if eligible then ["AVAILABLE_AT_CUTOFF"] else ["AVAILABLE_AFTER_CUTOFF"]
    sourcePolicyId := item.1.sourcePolicyId
    sourcePolicyVersion := item.1.sourcePolicyVersion
    trustScore := item.1.reliability
    trustTier := item.1.trustTier
    licenseSnapshot := item.1.licenseSnapshot
    score_mem := ⟨le_clampTo _, clampTo_le zero_le_one _⟩
    rank_pos := Nat.succ_pos rank
    trustScore_mem := item.1.reliability_mem }

/-- One round of the loop, after the keys that have been seen. -/
def addRecord (acc : List (DisclosureId × EvidenceRelation) × List VerificationEvidence)
    (item : Scored) : List (DisclosureId × EvidenceRelation) × List VerificationEvidence :=
  let key := (item.1.disclosureId, relationOf claim alertTime item.1)
  if key ∈ acc.1 then acc
  else (key :: acc.1, acc.2 ++ [evidenceRecord claim alertTime item acc.2.length])

/-- `_verification_evidence(claim, matching, alert_time)`. -/
def verificationEvidence (matching : List Scored) : List VerificationEvidence :=
  ((ranked text matching).foldl (addRecord claim alertTime) ([], [])).2

end Evidence

/-! ## Verification -/

namespace TimeBoundedClaimVerifier

variable (verifier : TimeBoundedClaimVerifier) (text : ChunkId → String) (claim : Claim)
  (alertTime : Datetime)

/-- A candidate reaches the threshold. -/
def Reaches (candidate : DisclosureCandidate) : Prop :=
  verifier.supportThreshold ≤ structuredSimilarity claim candidate * candidate.reliability

instance (candidate : DisclosureCandidate) : Decidable (verifier.Reaches claim candidate) :=
  inferInstanceAs (Decidable (_ ≤ _))

/-- The candidates that reach the threshold, with their similarities. -/
def matching (candidates : List DisclosureCandidate) : List Scored :=
  (candidates.filter fun candidate => verifier.Reaches claim candidate).map fun candidate =>
    (candidate, structuredSimilarity claim candidate)

/-- The matching candidates that were available at the alert. -/
def before (candidates : List DisclosureCandidate) : List Scored :=
  (verifier.matching claim candidates).filter fun item => item.1.availableAt ≤ alertTime

/-- The matching candidates that were not. -/
def future (candidates : List DisclosureCandidate) : List Scored :=
  (verifier.matching claim candidates).filter fun item => alertTime < item.1.availableAt

def conflict (candidates : List DisclosureCandidate) : List Scored :=
  (verifier.before claim alertTime candidates).filter fun item => conflictReasons claim item.1 ≠ []

def support (candidates : List DisclosureCandidate) : List Scored :=
  (verifier.before claim alertTime candidates).filter fun item => conflictReasons claim item.1 = []

/-- The verdict on the candidates that were retrieved. -/
def verdict (candidates : List DisclosureCandidate) (coverage : JsonObject) : Verdict :=
  verdictOf (verifier.support claim alertTime candidates) (verifier.conflict claim alertTime candidates)
    (verifier.future claim alertTime candidates) (coverage.getD "complete" (.bool true)).truthy
    candidates

/-- An entry of `matches`. -/
def retrievalMatch (item : Scored) : RetrievalMatch where
  documentId := item.1.disclosureId
  sourceDocumentId := item.1.sourceDocumentId
  publishedAt := item.1.publishedAt
  firstObservedAt := item.1.firstObservedAt
  ingestedAt := item.1.ingestedAt
  availableAt := item.1.availableAt
  similarity := roundTo 6 item.2
  isFuture := decide (alertTime < item.1.availableAt)

/-- What `verify` makes of the candidates and the coverage. -/
def judge (candidates : List DisclosureCandidate) (coverage : JsonObject) (now : Datetime) :
    ClaimVerification :=
  let verdict := verifier.verdict claim alertTime candidates coverage
  let matching := verifier.matching claim candidates
  { verificationId := ⟨(claim.claimId, alertTime, version)⟩
    claimId := claim.claimId
    alertTime := alertTime
    result := verdict.result
    claimRisk := verdict.claimRisk
    legitimateEventScore := verdict.legitimateEventScore
    evidenceDocumentIds := (verdict.evidence.map fun item => item.1.disclosureId).toFinset
    retrievalMetadata :=
      { alertCutoff := alertTime
        temporalFilter := "available_at <= alert_time for contemporaneous support"
        availabilityRule := "available_at <= alert_time for contemporaneous support"
        coverage := coverage
        sourcePolicyVersion := sourcePolicyVersion
        candidateCount := candidates.length
        matched := (ranked text matching).map (retrievalMatch alertTime) }
    deterministicReason := verdict.deterministicReason
    llmExplanation := verifier.explainer.bind fun explain =>
      (explain claim verdict.result (verdict.evidence.map Prod.fst)).toOption
    verifierVersion := version
    sourcePolicyVersion := sourcePolicyVersion
    retrospectiveOnly := verdict.result = .supportedAfterAlert
    verifiedAt := now
    evidence := verificationEvidence text claim alertTime matching
    claimRisk_mem := verdict.claimRisk_mem
    legitimateEventScore_mem := verdict.legitimateEventScore_mem }

/-- The candidates that `verify` fetches. -/
def retrieve (repository : InMemoryVerificationRepository) : List DisclosureCandidate :=
  repository.candidates text claim.assetId alertTime verifier.lookbackDays verifier.futureDays

/-- `verify(claim, alert_time)`. -/
def verify (repository : InMemoryVerificationRepository) (now : Datetime) : ClaimVerification :=
  verifier.judge text claim alertTime (verifier.retrieve text claim alertTime repository)
    (repository.sourceCoverage claim.assetId) now

end TimeBoundedClaimVerifier

end Verification
end Scam2Market
