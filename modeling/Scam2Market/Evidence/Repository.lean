import Scam2Market.Campaigns.Tables
import Scam2Market.Evidence.Schemas

/-!
# Capturing evidence

`EvidenceCaptureRepository` of `evidence/repository.py` and the loop of `workers/evidence_worker.py`.

* `EvidenceSources`: the tables a capture reads beside those of the campaigns.
* `captureAlert`: one transaction.  It reads the alert as it is now, and what it captures is named by
  the version of that row.
* A ledger is the rows of `evidence_snapshots`, each with the references that are inserted with it.  A
  snapshot id, a content hash and a chain hash are taken of a content that names its alert and its
  version, so their keys are taken just when the key of the alert and the version is.
-/

namespace Scam2Market
namespace Evidence

open Campaigns (AlertId CampaignEvidenceModel CampaignId CampaignModel DomainEvent DomainPayload)
open Features (FeatureLineage FeatureTables)
open Intelligence (FusionResult)
open Library (OrderedDict Procedure)
open Library.Procedure
open Streaming (EventType)

/-! ## Sources -/

structure GraphSnapshotModel where
  graphSnapshotId : String
  cutoffEventTime : Datetime
  sourceLineageHash : String
  projectionVersion : String
  projectionStatus : String

structure GraphFeatureModel where
  graphScore : Option ℚ
  features : JsonObject

structure NarrativeModel where
  narrativeId : String
  currentRevisionId : String
  currentRevision : ℕ
  label : String
  summary : String
  postCount : ℕ
  uniqueAuthorCount : ℕ
  memberHash : String

/-- A verification joined to its claim. -/
structure ClaimVerificationModel where
  narrativeId : String
  alertTime : Datetime
  verifiedAt : Datetime
  evidence : VerificationEvidence

structure EvidenceSources where
  features : FeatureTables
  dominantNarrativeId : CampaignId → Option String
  narratives : OrderedDict String NarrativeModel
  graphs : OrderedDict String (GraphSnapshotModel × Option GraphFeatureModel)
  verifications : OrderedDict String ClaimVerificationModel

/-- No row in any table. -/
def EvidenceSources.empty : EvidenceSources where
  features := .empty
  dominantNarrativeId := fun _ => none
  narratives := .empty
  graphs := .empty
  verifications := .empty

namespace EvidenceSources

variable (sources : EvidenceSources)

/-- `_feature_evidence(session, fusion)`. -/
def featureEvidence (fusion : FusionResult) : Option (FeatureEvidence × FeatureLineage) := do
  let window ← sources.features.windows.get? fusion.featureWindowId
  let revisionNumber ← if 0 ≤ fusion.featureRevision then some fusion.featureRevision.toNat else none
  let revision ← sources.features.revisions.get? (window.featureWindowId, revisionNumber)
  return (
    { featureWindowId := window.featureWindowId
      revision := revision.revision
      windowStart := window.windowStart
      windowEnd := window.windowEnd
      featureSchemaVersion := window.featureSchemaVersion
      featureSchemaHash := revision.featureSchemaHash
      isFinal := revision.isFinal
      features := revision.features },
    revision.lineage)

/-- `_narrative_evidence(session, campaign)`. -/
def narrativeEvidence (campaignId : CampaignId) : Option NarrativeEvidence := do
  let narrativeId ← sources.dominantNarrativeId campaignId
  let narrative ← sources.narratives.get? narrativeId
  return {
    narrativeId := narrative.narrativeId
    revisionId := narrative.currentRevisionId
    revision := narrative.currentRevision
    label := narrative.label
    summary := narrative.summary
    postCount := narrative.postCount
    uniqueAuthorCount := narrative.uniqueAuthorCount
    memberHash := narrative.memberHash }

/-- `_graph_evidence(session, fusion)`. -/
def graphEvidence (fusion : FusionResult) : Option GraphEvidence := do
  let graphId ← (fusion.inputSnapshotIds.get? "graph_snapshot_id").filter (· ≠ "")
  let row ← sources.graphs.get? graphId
  return {
    graphSnapshotId := row.1.graphSnapshotId
    cutoffEventTime := row.1.cutoffEventTime
    sourceLineageHash := row.1.sourceLineageHash
    projectionVersion := row.1.projectionVersion
    projectionStatus := row.1.projectionStatus
    features := row.2.map fun features => features.features
    graphScore := row.2.bind fun features => features.graphScore }

/-- `_verification_evidence(session, campaign, evidence_cutoff)`: the last one first. -/
def verificationEvidence (campaignId : CampaignId) (evidenceCutoff : Datetime) :
    List VerificationEvidence :=
  match sources.dominantNarrativeId campaignId with
  | none => []
  | some narrativeId =>
    (((sources.verifications.entries.map Prod.snd).filter fun row =>
      row.narrativeId = narrativeId ∧ row.alertTime ≤ evidenceCutoff).insertionSort
        fun a b => b.verifiedAt ≤ a.verifiedAt).map ClaimVerificationModel.evidence

end EvidenceSources

/-! ## The ledger -/

abbrev Ledger := List EvidenceSnapshot

/-- The snapshot of a version of an alert. -/
def Ledger.find (ledger : Ledger) (alertId : AlertId) (version : ℕ) : Option EvidenceSnapshot :=
  ledger.find? fun row => decide (row.alertId = alertId ∧ row.alertVersion = version)

/-- The snapshots of an alert. -/
def Ledger.snapshotsOf (ledger : Ledger) (alertId : AlertId) : List EvidenceSnapshot :=
  ledger.filter fun row => decide (row.alertId = alertId)

/-- The first of the rows with the greatest version. -/
def newest (rows : List EvidenceSnapshot) : Option EvidenceSnapshot :=
  rows.foldl (fun best row =>
    match best with
    | none => some row
    | some top => if top.alertVersion < row.alertVersion then some row else some top) none

/-- The chain hash of the snapshot of an alert with the highest version. -/
def Ledger.lastChainHash (ledger : Ledger) (alertId : AlertId) : Option ChainHash :=
  (newest (ledger.snapshotsOf alertId)).map EvidenceSnapshot.chainHash

/-! ## One capture -/

/-- `EvidenceInput(...)`. -/
def evidenceInput (sources : EvidenceSources) (alert : Campaigns.AlertModel)
    (campaign : CampaignModel) (evidenceEventId : String) (evidence : CampaignEvidenceModel) :
    EvidenceInput :=
  let fusion := evidence.evidenceJson
  let feature := sources.featureEvidence fusion
  { alertId := alert.alertId
    campaignId := campaign.campaignId
    scopeId := campaign.scopeId
    assetId := campaign.assetId
    alertVersion := alert.version
    alertType := alert.alertType
    severity := alert.severity
    stage := campaign.stage
    evidenceCutoff := evidence.eventTime
    campaignEvidenceEventId := evidenceEventId
    fusion := fusion
    feature := feature.map Prod.fst
    featureLineage := feature.map Prod.snd
    narrative := sources.narrativeEvidence campaign.campaignId
    graph := sources.graphEvidence fusion
    verifications := sources.verificationEvidence campaign.campaignId evidence.eventTime }

/-- Add a snapshot, unless its key is taken. -/
def addSnapshot (snapshot : EvidenceSnapshot) : Procedure Ledger PyError Unit := do
  let found ← reading fun ledger => ledger.find snapshot.alertId snapshot.alertVersion
  if found.isSome then raise (.integrityError "uq_evidence_alert_version")
  else modify fun ledger => ledger ++ [snapshot]

/-- The alert and the evidence that an event names. -/
def alertOf (event : DomainEvent) : Except PyError (AlertId × String) :=
  match event.payload with
  | .alert alert _ _ _ _ evidenceEventId => .ok (alert.alertId, evidenceEventId)
  | _ => .error (.keyError "alert_id")

/-- The block of the session: capture the alert as it is now. -/
def captureRow (tables : Campaigns.Tables) (sources : EvidenceSources) (alertId : AlertId)
    (evidenceEventId : String) (now : Datetime) : Procedure Ledger PyError SnapshotId := do
  let some alert := tables.alerts.get? alertId
    | raise (.lookupError "alert not found")
  let existing ← reading fun ledger => ledger.find alertId alert.version
  match existing with
  | some snapshot => return snapshot.snapshotId
  | none =>
    let some campaign := tables.campaigns.get? alert.campaignId
      | raise (.lookupError "campaign not found")
    let some evidence := tables.evidence.get? evidenceEventId
      | raise (.lookupError "campaign evidence not found")
    let previousChainHash ← reading fun ledger => ledger.lastChainHash alertId
    let snapshot := build (evidenceInput sources alert campaign evidenceEventId evidence)
      previousChainHash now
    addSnapshot snapshot
    return snapshot.snapshotId

/-- `capture_alert(event)`. -/
def captureAlert (tables : Campaigns.Tables) (sources : EvidenceSources) (event : DomainEvent)
    (now : Datetime) : Procedure Ledger PyError SnapshotId := do
  let (alertId, evidenceEventId) ← ofExcept (alertOf event)
  atomically (captureRow tables sources alertId evidenceEventId now)

/-- What the worker does with an event before it commits the offset. -/
def handleEvent (tables : Campaigns.Tables) (sources : EvidenceSources) (event : DomainEvent)
    (now : Datetime) : Procedure Ledger PyError (Option SnapshotId) :=
  if event.eventType = .alertCreated ∨ event.eventType = .alertSeverityChanged ∨
      event.eventType = .alertRefreshed then do
    let snapshotId ← captureAlert tables sources event now
    return some snapshotId
  else pure none

end Evidence
end Scam2Market
