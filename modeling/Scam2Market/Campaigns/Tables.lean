import Scam2Market.Library.Procedure
import Scam2Market.Streaming.Events
import Scam2Market.Campaigns.Policy

/-!
# The tables of the campaign repository

The rows of `db/models.py` that `campaigns/repository.py` reads and writes, and the events that stand
in the outbox.

* A row is added by `addRow`, which raises the `IntegrityError` of a unique key that is taken.  The
  database raises it when the session is flushed, inside the same transaction.
* A table with a primary key of the program is a dictionary by that key; a history is a list.
* `selectActive` and `selectAlert` are the two queries.
-/

namespace Scam2Market
namespace Campaigns

open Intelligence (EnrichmentProfile FusionResult RiskLevel)
open Library (OrderedDict)
open Library.Procedure
open Streaming (CanonicalEvent EventFields EventType ReplayMetadata)

/-! ## Rows -/

structure CampaignModel where
  campaignId : CampaignId
  scopeId : String
  assetId : String
  stage : CampaignStage
  stageConfidence : ℚ
  stageReason : StageReason
  stageRuleVersion : String
  status : CampaignStatus
  maxSeverity : RiskLevel
  firstEvidenceAt : Datetime
  lastEvidenceAt : Datetime
  lastAppliedEvidenceCutoff : Option Datetime
  lastAppliedFeatureRevision : ℤ
  lastAppliedFusionRevision : ℤ
  lastAppliedEnrichmentProfile : EnrichmentProfile
  closedReason : Option String := none
  version : ℕ

structure CampaignEvidenceModel where
  evidenceEventId : String
  scopeId : String
  campaignId : CampaignId
  eventTime : Datetime
  evidenceType : EventType
  evidenceFingerprint : Digest FusionResult
  evidenceJson : FusionResult

structure CampaignStageHistoryModel where
  campaignId : CampaignId
  fromStage : Option CampaignStage
  toStage : CampaignStage
  evidenceEventId : String
  reason : StageReason
  confidence : ℚ
  ruleVersion : String
  changedAtEventTime : Datetime

structure AlertModel where
  alertId : AlertId
  campaignId : CampaignId
  alertType : AlertType
  severity : RiskLevel
  status : AlertStatus
  firstTriggeredAt : Datetime
  lastTriggeredAt : Datetime
  lastNotifiedAt : Option Datetime
  occurrenceCount : ℕ
  evidenceFingerprint : Digest FusionResult
  version : ℕ

structure AlertStateHistoryModel where
  alertId : AlertId
  evidenceEventId : String
  fromSeverity : Option RiskLevel
  toSeverity : RiskLevel
  fromStatus : Option AlertStatus
  toStatus : AlertStatus
  suppressionReason : Option String
  changedAt : Datetime

/-- `_campaign_payload(campaign)`. -/
def campaignPayload (campaign : CampaignModel) : CampaignPayload where
  campaignId := campaign.campaignId
  scopeId := campaign.scopeId
  assetId := campaign.assetId
  stage := campaign.stage
  stageConfidence := campaign.stageConfidence
  stageReason := campaign.stageReason
  status := campaign.status
  maxSeverity := campaign.maxSeverity
  firstEvidenceAt := campaign.firstEvidenceAt
  lastEvidenceAt := campaign.lastEvidenceAt
  lastAppliedEvidenceCutoff := campaign.lastAppliedEvidenceCutoff
  lastAppliedFeatureRevision := campaign.lastAppliedFeatureRevision
  lastAppliedFusionRevision := campaign.lastAppliedFusionRevision
  lastAppliedEnrichmentProfile := campaign.lastAppliedEnrichmentProfile
  version := campaign.version

/-- `_campaign_record(row)`. -/
def campaignRecord (row : CampaignModel) : Except PyError CampaignRecord :=
  (campaignPayload row).validate

/-- `_alert_payload(alert)`, which is also `_alert_record(alert)`: a record of an alert has no
constraint. -/
def alertPayload (alert : AlertModel) : AlertRecord where
  alertId := alert.alertId
  campaignId := alert.campaignId
  alertType := alert.alertType
  severity := alert.severity
  status := alert.status
  firstTriggeredAt := alert.firstTriggeredAt
  lastTriggeredAt := alert.lastTriggeredAt
  lastNotifiedAt := alert.lastNotifiedAt
  occurrenceCount := alert.occurrenceCount
  version := alert.version

/-! ## Events -/

/-- What an event is about. -/
inductive EntityId where
  | campaign (campaignId : CampaignId)
  | alert (alertId : AlertId)
  deriving DecidableEq, Repr

/-- `{entity_id}:{event_type}:{evidence.event_id}`. -/
abbrev SourceEventId := EntityId × EventType × String

/-- `uuid5` of the topic and the source event id. -/
abbrev DomainEventId := Uuid (String × SourceEventId)

/-- What an event carries. -/
inductive DomainPayload where
  | campaignCreated (campaign : CampaignPayload)
  | campaignStageChanged (campaign : CampaignPayload) (fromStage : CampaignStage) (reason : String)
  | campaignClosed (campaignId : CampaignId) (reason : String)
  | alert (alert : AlertRecord) (scopeId assetId : String) (stage : CampaignStage)
      (reason evidenceEventId : String)

abbrev DomainEvent := CanonicalEvent SourceEventId DomainPayload

/-- `_domain_event(evidence, event_type, topic, entity_id, payload)`. -/
def domainEvent {π : Type} (evidence : CampaignEvidence) (eventType : EventType) (topic : String)
    (entityId : EntityId) (payload : π) (now : Datetime) :
    Except PyError (CanonicalEvent SourceEventId π) := do
  let sourceEventId := (entityId, eventType, evidence.eventId)
  let replay ← ReplayMetadata.ofScope evidence.scopeId
  let fields : EventFields SourceEventId π :=
    { eventId := ⟨(topic, sourceEventId)⟩
      eventType := eventType
      source := "campaign-engine-v1"
      sourceEventId := sourceEventId
      assetId := evidence.assetId
      eventTime := evidence.eventTime
      ingestedAt := now
      processedAt := now
      partitionKey := evidence.assetId
      replay := replay
      correlationId := some evidence.correlationId
      causationId := some evidence.eventId
      payload := payload }
  fields.validate

structure EventOutboxModel where
  eventId : DomainEventId
  topic : String
  partitionKey : String
  envelope : DomainEvent

/-! ## Tables -/

structure Tables where
  campaigns : OrderedDict CampaignId CampaignModel
  evidence : OrderedDict String CampaignEvidenceModel
  stageHistory : List CampaignStageHistoryModel
  alerts : OrderedDict AlertId AlertModel
  alertHistory : List AlertStateHistoryModel
  outbox : List EventOutboxModel

/-- No row in any table. -/
def Tables.empty : Tables where
  campaigns := .empty
  evidence := .empty
  stageHistory := []
  alerts := .empty
  alertHistory := []
  outbox := []

/-- A procedure on the tables. -/
abbrev SessionM := Library.Procedure Tables PyError

/-- Add a row, unless its key is taken. -/
def addRow (key : String) (taken : Tables → Bool) (add : Tables → Tables) : SessionM Unit := do
  let isTaken ← reading taken
  if isTaken then raise (.integrityError key) else modify add

def addCampaign (row : CampaignModel) : SessionM Unit :=
  addRow "campaigns_pkey" (fun t => (t.campaigns.get? row.campaignId).isSome)
    fun t => { t with campaigns := t.campaigns.set row.campaignId row }

def addEvidence (row : CampaignEvidenceModel) : SessionM Unit :=
  addRow "campaign_evidence_pkey" (fun t => (t.evidence.get? row.evidenceEventId).isSome)
    fun t => { t with evidence := t.evidence.set row.evidenceEventId row }

def addStageHistory (row : CampaignStageHistoryModel) : SessionM Unit :=
  addRow "uq_campaign_stage_evidence"
    (fun t => t.stageHistory.any fun other =>
      decide (other.campaignId = row.campaignId ∧ other.evidenceEventId = row.evidenceEventId))
    fun t => { t with stageHistory := t.stageHistory ++ [row] }

def addAlert (row : AlertModel) : SessionM Unit :=
  addRow "alerts_pkey" (fun t => (t.alerts.get? row.alertId).isSome)
    fun t => { t with alerts := t.alerts.set row.alertId row }

def addAlertHistory (row : AlertStateHistoryModel) : SessionM Unit :=
  addRow "uq_alert_state_evidence"
    (fun t => t.alertHistory.any fun other =>
      decide (other.alertId = row.alertId ∧ other.evidenceEventId = row.evidenceEventId))
    fun t => { t with alertHistory := t.alertHistory ++ [row] }

/-- `_enqueue(session, topic, event)`. -/
def enqueue (topic : String) (event : DomainEvent) : SessionM Unit :=
  addRow "uq_outbox_event_topic"
    (fun t => t.outbox.any fun other =>
      decide (other.eventId = event.eventId ∧ other.topic = topic))
    fun t =>
      { t with outbox := t.outbox ++
          [{ eventId := event.eventId, topic := topic, partitionKey := event.partitionKey,
             envelope := event }] }

/-- Write the changed attributes of a campaign. -/
def saveCampaign (row : CampaignModel) : SessionM Unit :=
  modify fun t => { t with campaigns := t.campaigns.set row.campaignId row }

/-- Write the changed attributes of an alert. -/
def saveAlert (row : AlertModel) : SessionM Unit :=
  modify fun t => { t with alerts := t.alerts.set row.alertId row }

/-- The active campaign of a scope and an asset. -/
def Tables.selectActive (scopeId assetId : String) (t : Tables) : Option CampaignModel :=
  (t.campaigns.entries.map Prod.snd).find? fun campaign =>
    decide (campaign.scopeId = scopeId ∧ campaign.assetId = assetId ∧ campaign.status = .active)

/-- The alert of a type of a campaign. -/
def Tables.selectAlert (campaignId : CampaignId) (alertType : AlertType) (t : Tables) :
    Option AlertModel :=
  (t.alerts.entries.map Prod.snd).find? fun alert =>
    decide (alert.campaignId = campaignId ∧ alert.alertType = alertType)

end Campaigns
end Scam2Market
