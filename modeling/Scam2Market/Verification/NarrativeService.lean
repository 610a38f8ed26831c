import Scam2Market.Verification.Claims
import Scam2Market.Verification.Service
import Scam2Market.Verification.SqlRepository

/-!
# The verification of narratives

`NarrativeVerificationService.process` of `verification/service.py`, with
`SqlVerificationRepository.persist_verifications`.

* The event carries the parts of its payload that are read, of their types; the narrative of an event is
  stored with the event, so the reference of a claim to it holds.
* `Stores`: what the transaction checks.  `persistVerifications_of_stores` and
  `persistVerifications_of_not_stores`: it stores everything, or raises and stores nothing.
-/

namespace Scam2Market
namespace Verification

open Intelligence (InUnit)

/-! ## Events -/

/-- A narrative event. -/
structure NarrativeEvent where
  eventType : String
  eventTime : Datetime
  narrative : NarrativeCluster
  featureSnapshot : Json
  graphFeatures : JsonObject
  graphSnapshotId : Option String := none

/-- `uuid5` of the revision, the time and the version of the verifier. -/
abbrev SnapshotId := Uuid (String × Datetime × String)

structure VerificationSummary where
  verificationSnapshotId : SnapshotId
  narrativeId : String
  alertTime : Datetime
  result : VerificationResult
  claimRisk : ℚ
  legitimateEventScore : ℚ
  claims : List Claim
  verifications : List ClaimVerification

/-- `claim.verification_completed`. -/
structure SummaryEvent where
  eventId : Uuid SnapshotId
  eventType : String := "claim.verification_completed"
  schemaVersion : ℕ := 1
  source : String
  sourceEventId : String × Datetime
  assetId : String
  eventTime : Datetime
  ingestedAt : Datetime
  processedAt : Datetime
  partitionKey : String
  replaySessionId : Option String
  summary : VerificationSummary
  featureSnapshot : Json
  graphScore : Json
  graphSnapshotId : Option String

/-! ## Tables -/

structure EventOutboxModel where
  topic : String
  event : SummaryEvent

/-- The tables that `persist_verifications` writes; `evidence` has the records with their verifications. -/
structure VerificationTables where
  claims : List Claim := []
  verifications : List ClaimVerification := []
  evidence : List (Uuid (String × Datetime × String) × VerificationEvidence) := []
  outbox : List EventOutboxModel := []

/-- The key of a record of the evidence. -/
def evidenceKey (record : Uuid (String × Datetime × String) × VerificationEvidence) :
    Uuid (String × Datetime × String) × DisclosureId × EvidenceRelation :=
  (record.1, record.2.disclosureId, record.2.relation)

/-- The records of the evidence of verifications. -/
def evidenceOf (verifications : List ClaimVerification) :
    List (Uuid (String × Datetime × String) × VerificationEvidence) :=
  verifications.flatMap fun item => item.evidence.map fun evidence => (item.verificationId, evidence)

def verificationTopic : String :=
  "claim.verification.v1"

namespace VerificationTables

variable (t : VerificationTables) (disclosures : List DisclosureId)

/-- The claims that are not stored. -/
def newClaims (claims : List Claim) : List Claim :=
  claims.filter fun claim => claim.claimId ∉ t.claims.map Claim.claimId

/-- With the claims, the verifications, their evidence and the event. -/
def stored (claims : List Claim) (verifications : List ClaimVerification) (event : SummaryEvent) :
    VerificationTables where
  claims := t.claims ++ t.newClaims claims
  verifications := t.verifications ++ verifications
  evidence := t.evidence ++ evidenceOf verifications
  outbox := t.outbox ++ [⟨verificationTopic, event⟩]

/-- `persist_verifications(claims, verifications, event)`; `disclosures` are the ids of the stored
disclosures. -/
def persistVerifications (claims : List Claim) (verifications : List ClaimVerification)
    (event : SummaryEvent) : Except PyError (Bool × VerificationTables) :=
  match verifications.head? with
  | none => .error (.lookupError "list index out of range")
  | some first =>
    let t' := t.stored claims verifications event
    let ids := t'.verifications.map ClaimVerification.verificationId
    if first.verificationId ∈ t.verifications.map ClaimVerification.verificationId then .ok (false, t)
    else if ¬ (t'.claims.map Claim.claimId).Nodup then .error (.integrityError "claims_pkey")
    else if ¬ (t'.claims.map fun claim => (claim.narrativeId, claim.claimHash)).Nodup then
      .error (.integrityError "uq_narrative_claim_hash")
    else if ¬ ids.Nodup then .error (.integrityError "claim_verifications_pkey")
    else if ¬ (t'.verifications.map fun item =>
        (item.claimId, item.alertTime, item.verifierVersion)).Nodup then
      .error (.integrityError "uq_claim_verification_cutoff")
    else if ¬ ∀ item ∈ verifications, item.claimId ∈ t'.claims.map Claim.claimId then
      .error (.integrityError "claim_verifications_claim_id_fkey")
    else if ¬ (t'.evidence.map evidenceKey).Nodup then
      .error (.integrityError "uq_verification_evidence")
    else if ¬ ∀ record ∈ evidenceOf verifications, record.2.disclosureId ∈ disclosures then
      .error (.integrityError "verification_evidence_disclosure_id_fkey")
    else if ¬ (t'.outbox.map fun row => (row.event.eventId, row.topic)).Nodup then
      .error (.integrityError "uq_outbox_event_topic")
    else .ok (true, t')

/-- What the transaction checks. -/
structure Stores (claims : List Claim) (verifications : List ClaimVerification)
    (event : SummaryEvent) : Prop where
  claimIds : ((t.stored claims verifications event).claims.map Claim.claimId).Nodup
  claimHashes : ((t.stored claims verifications event).claims.map fun claim =>
    (claim.narrativeId, claim.claimHash)).Nodup
  ids : ((t.stored claims verifications event).verifications.map
    ClaimVerification.verificationId).Nodup
  cutoffs : ((t.stored claims verifications event).verifications.map fun item =>
    (item.claimId, item.alertTime, item.verifierVersion)).Nodup
  references : ∀ item ∈ verifications,
    item.claimId ∈ (t.stored claims verifications event).claims.map Claim.claimId
  evidence : ((t.stored claims verifications event).evidence.map evidenceKey).Nodup
  documents : ∀ record ∈ evidenceOf verifications, record.2.disclosureId ∈ disclosures
  outbox : ((t.stored claims verifications event).outbox.map fun row =>
    (row.event.eventId, row.topic)).Nodup

section Persist

variable {t disclosures} {claims : List Claim} {verifications : List ClaimVerification}
  {event : SummaryEvent} {first : ClaimVerification}

theorem persistVerifications_of_mem (hfirst : verifications.head? = some first)
    (hmem : first.verificationId ∈ t.verifications.map ClaimVerification.verificationId) :
    t.persistVerifications disclosures claims verifications event = .ok (false, t) := by
  unfold persistVerifications
  rw [hfirst]
  exact if_pos hmem

theorem persistVerifications_of_stores (hfirst : verifications.head? = some first)
    (hnew : first.verificationId ∉ t.verifications.map ClaimVerification.verificationId)
    (h : t.Stores disclosures claims verifications event) :
    t.persistVerifications disclosures claims verifications event =
      .ok (true, t.stored claims verifications event) := by
  unfold persistVerifications
  rw [hfirst]
  dsimp only
  rw [if_neg hnew, if_neg (not_not_intro h.claimIds), if_neg (not_not_intro h.claimHashes),
    if_neg (not_not_intro h.ids), if_neg (not_not_intro h.cutoffs),
    if_neg (not_not_intro h.references), if_neg (not_not_intro h.evidence),
    if_neg (not_not_intro h.documents), if_neg (not_not_intro h.outbox)]

theorem persistVerifications_of_not_stores (hfirst : verifications.head? = some first)
    (hnew : first.verificationId ∉ t.verifications.map ClaimVerification.verificationId)
    (h : ¬ t.Stores disclosures claims verifications event) :
    ∃ key, t.persistVerifications disclosures claims verifications event =
      .error (.integrityError key) := by
  unfold persistVerifications
  rw [hfirst]
  dsimp only
  rw [if_neg hnew]
  split_ifs with h1 h2 h3 h4 h5 h6 h7 h8
  · exact absurd ⟨h1, h2, h3, h4, h5, h6, h7, h8⟩ h
  all_goals exact ⟨_, rfl⟩

end Persist

end VerificationTables

/-! ## The service -/

/-- `precedence` of `_aggregate_result`. -/
def precedence : VerificationResult → ℕ
  | .conflicting => 5
  | .unsupported => 4
  | .supportedAfterAlert => 3
  | .unknown => 2
  | .supportedBeforeAlert => 1

/-- `_aggregate_result(verifications)`: the result that takes precedence. -/
def aggregateResult (first : ClaimVerification) (rest : List ClaimVerification) : VerificationResult :=
  rest.foldl (fun result item =>
    if precedence result < precedence item.result then item.result else result) first.result

/-- The highest of a quantity. -/
def highest (quantity : ClaimVerification → ℚ) (first : ClaimVerification)
    (rest : List ClaimVerification) : ℚ :=
  rest.foldl (fun value item => max value (quantity item)) (quantity first)

/-- What the verifier reads besides the claims: the disclosures, the coverage of the sources of an asset
and the clock. -/
structure Surroundings where
  disclosures : DisclosureTables
  coverage : String → Datetime → JsonObject
  now : Datetime

structure NarrativeVerificationService where
  verifier : TimeBoundedClaimVerifier
  extractor : DeterministicClaimExtractor
  text : ChunkId → String

namespace NarrativeVerificationService

variable (service : NarrativeVerificationService) (surroundings : Surroundings)
  (event : NarrativeEvent)

/-- `TimeBoundedClaimVerifier.verify(claim, alert_time)`, on the database. -/
def verify (claim : Claim) : ClaimVerification :=
  service.verifier.judge service.text claim event.eventTime
    (surroundings.disclosures.candidates claim.assetId event.eventTime service.verifier.lookbackDays
      service.verifier.futureDays)
    (surroundings.coverage claim.assetId event.eventTime) surroundings.now

def claims : List Claim :=
  service.extractor.extract event.narrative event.eventTime

def verifications : List ClaimVerification :=
  (service.claims event).map (service.verify surroundings event)

/-- `verification_snapshot_id`. -/
def snapshotId : SnapshotId :=
  ⟨(event.narrative.narrativeRevisionId, event.eventTime, TimeBoundedClaimVerifier.version)⟩

def summary (first : ClaimVerification) (rest : List ClaimVerification) : VerificationSummary where
  verificationSnapshotId := snapshotId event
  narrativeId := event.narrative.narrativeId
  alertTime := event.eventTime
  result := aggregateResult first rest
  claimRisk := highest ClaimVerification.claimRisk first rest
  legitimateEventScore := highest ClaimVerification.legitimateEventScore first rest
  claims := service.claims event
  verifications := first :: rest

def output (summary : VerificationSummary) : SummaryEvent where
  eventId := ⟨summary.verificationSnapshotId⟩
  source := TimeBoundedClaimVerifier.version
  sourceEventId := (event.narrative.narrativeId, event.eventTime)
  assetId := event.narrative.assetId
  eventTime := event.eventTime
  ingestedAt := surroundings.now
  processedAt := surroundings.now
  partitionKey := event.narrative.assetId
  replaySessionId := if event.narrative.scopeId = "LIVE" then none else some event.narrative.scopeId
  summary := summary
  featureSnapshot := event.featureSnapshot
  graphScore := event.graphFeatures.getD "graph_score" .null
  graphSnapshotId := event.graphSnapshotId

/-- `process(event)`. -/
def process (t : VerificationTables) : Except PyError (VerificationSummary × VerificationTables) :=
  if event.eventType ≠ "narrative.clustered" then
    .error (.valueError "verification requires a narrative event")
  else
    match service.verifications surroundings event with
    | [] => .error (.valueError "narrative did not contain a verifiable claim")
    | first :: rest =>
      let summary := service.summary event first rest
      match t.persistVerifications
          (surroundings.disclosures.disclosures.map DisclosureModel.disclosureId)
          (service.claims event) (first :: rest) (output surroundings event summary) with
      | .error error => .error error
      | .ok (_, t') => .ok (summary, t')

end NarrativeVerificationService

end Verification
end Scam2Market
