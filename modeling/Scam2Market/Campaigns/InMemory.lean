import Mathlib.Data.Finset.Insert
import Scam2Market.Campaigns.Staleness

/-!
# The campaign repository in memory

`InMemoryCampaignRepository` of `campaigns/repository.py`, which the tests use.

* Campaigns stand under their scope and asset, so a campaign whose merge gap has elapsed is
  overwritten by the next one.
* A call is not a transaction: what it has written before it raises stays.
* The checks stand in another order than in the database: the merge gap, the state machine, and then
  the staleness of the evidence.
-/

namespace Scam2Market
namespace Campaigns

open Intelligence (RiskLevel)
open Library (OrderedDict)
open Library.Procedure
open Streaming (CanonicalEvent EventType)


/-! ## The store -/

/-- What an event of the outbox carries. -/
inductive MemoryPayload where
  | campaign (campaign : CampaignRecord)
  | alert (alert : AlertRecord) (reason : String)

abbrev MemoryEvent := CanonicalEvent SourceEventId MemoryPayload

/-- The attributes of the repository. -/
structure MemoryStore where
  campaigns : OrderedDict (String × String) CampaignRecord
  alerts : OrderedDict (CampaignId × AlertType) AlertRecord
  evidenceIds : Finset String
  stageHistory : List (CampaignId × CampaignStage × CampaignStage)
  alertHistory : List (AlertId × RiskLevel × Bool)
  outbox : List (String × MemoryEvent)

/-- The attributes of a new repository. -/
def MemoryStore.empty : MemoryStore where
  campaigns := .empty
  alerts := .empty
  evidenceIds := ∅
  stageHistory := []
  alertHistory := []
  outbox := []

/-- A procedure on the store. -/
abbrev MemoryM := Library.Procedure MemoryStore PyError

/-- The arguments of the constructor. -/
structure InMemoryCampaignRepository where
  mergeGapSeconds : ℤ := 1800
  suppressionSeconds : ℤ := 300

/-- `_is_stale_campaign_record(campaign, evidence)`. -/
def isStaleCampaignRecord (campaign : CampaignRecord) (evidence : CampaignEvidence) : Bool :=
  match campaign.lastAppliedEvidenceCutoff with
  | none => false
  | some cutoff =>
    decide (evaluationOrder evidence ≤
      .of cutoff campaign.lastAppliedFeatureRevision campaign.lastAppliedFusionRevision
        (profilePriority campaign.lastAppliedEnrichmentProfile))

namespace InMemoryCampaignRepository

variable (repo : InMemoryCampaignRepository)

/-- `_merge_gap`. -/
def mergeGap : Timedelta :=
  timedeltaSeconds repo.mergeGapSeconds

/-- `_suppression`. -/
def suppression : Timedelta :=
  timedeltaSeconds repo.suppressionSeconds

/-! ## Campaigns -/

/-- The campaign that evidence opens.  Its confidence is that of the assessment. -/
def openedRecord (evidence : CampaignEvidence) (assessment : CampaignAssessment) :
    CampaignRecord where
  campaignId := ⟨(evidence.scopeId, evidence.assetId, evidence.eventId)⟩
  scopeId := evidence.scopeId
  assetId := evidence.assetId
  stage := assessment.nextStage
  stageConfidence := assessment.stageConfidence
  stageReason := stageReason assessment
  status := .active
  maxSeverity := evidence.fusion.severity
  firstEvidenceAt := evidence.eventTime
  lastEvidenceAt := evidence.eventTime
  lastAppliedEvidenceCutoff := some evidence.cutoff
  lastAppliedFeatureRevision := evidence.fusion.featureRevision
  lastAppliedFusionRevision := evidence.fusion.fusionRevision
  lastAppliedEnrichmentProfile := evidence.fusion.enrichmentProfile
  version := 1
  stageConfidence_mem := assessment.stageConfidence_mem

/-- `existing.model_copy(update={...})`. -/
def updatedRecord (existing : CampaignRecord) (evidence : CampaignEvidence)
    (assessment : CampaignAssessment) : CampaignRecord :=
  { existing with
    stage := assessment.nextStage
    stageConfidence := assessment.stageConfidence
    stageReason := stageReason assessment
    maxSeverity := maxRisk existing.maxSeverity evidence.fusion.severity
    lastEvidenceAt := max existing.lastEvidenceAt evidence.eventTime
    lastAppliedEvidenceCutoff := some evidence.cutoff
    lastAppliedFeatureRevision := evidence.fusion.featureRevision
    lastAppliedFusionRevision := evidence.fusion.fusionRevision
    lastAppliedEnrichmentProfile := evidence.fusion.enrichmentProfile
    version := existing.version + 1
    stageConfidence_mem := assessment.stageConfidence_mem }

/-- The existing campaign, unless its merge gap has elapsed. -/
def withinGap (evidence : CampaignEvidence) (existing : Option CampaignRecord) :
    Option CampaignRecord :=
  existing.filter fun record => !decide (repo.mergeGap < evidence.eventTime - record.lastEvidenceAt)

/-- The stage to assess from. -/
def recordStage : Option CampaignRecord → CampaignStage
  | none => .normal
  | some record => record.stage

def saveRecord (record : CampaignRecord) (evidence : CampaignEvidence) : MemoryM Unit :=
  modify fun m => { m with campaigns := m.campaigns.set (evidence.scopeId, evidence.assetId) record }

/-- Make an event and append it to the outbox. -/
def publish (evidence : CampaignEvidence) (eventType : EventType) (topic : String)
    (entityId : EntityId) (payload : MemoryPayload) (now : Datetime) : MemoryM DomainEventId := do
  let event ← ofExcept (domainEvent evidence eventType topic entityId payload now)
  modify fun m => { m with outbox := m.outbox ++ [(topic, event)] }
  return event.eventId

/-- Write the campaign, and announce it when it is new or its stage has changed. -/
def placeRecord (evidence : CampaignEvidence) (assessment : CampaignAssessment) (now : Datetime) :
    Option CampaignRecord → MemoryM (CampaignRecord × List DomainEventId)
  | none => do
    let campaign := openedRecord evidence assessment
    saveRecord campaign evidence
    let created ← publish evidence .campaignCreated "campaign.events.v1"
      (.campaign campaign.campaignId) (.campaign campaign) now
    return (campaign, [created])
  | some existing =>
    let campaign := updatedRecord existing evidence assessment
    if campaign.stage ≠ existing.stage then do
      modify fun m => { m with
        stageHistory := m.stageHistory ++ [(campaign.campaignId, existing.stage, campaign.stage)] }
      saveRecord campaign evidence
      let changed ← publish evidence .campaignStageChanged "campaign.events.v1"
        (.campaign campaign.campaignId) (.campaign campaign) now
      return (campaign, [changed])
    else do
      saveRecord campaign evidence
      return (campaign, [])

/-! ## Alerts -/

/-- What a trigger makes of an alert. -/
structure RecordChange where
  alert : AlertRecord
  eventType : EventType
  suppressed : Bool

/-- The alert that is created, or the one that is updated. -/
def recordChange (campaignId : CampaignId) (evidence : CampaignEvidence) (trigger : AlertTrigger) :
    Option AlertRecord → RecordChange
  | none =>
    { alert :=
        { alertId := ⟨(campaignId, trigger.alertType)⟩
          campaignId := campaignId
          alertType := trigger.alertType
          severity := trigger.severity
          status := .active
          firstTriggeredAt := evidence.eventTime
          lastTriggeredAt := evidence.eventTime
          lastNotifiedAt := some evidence.eventTime
          occurrenceCount := 1
          version := 1 }
      eventType := .alertCreated
      suppressed := false }
  | some alert =>
    let severity := maxRisk alert.severity trigger.severity
    let changed := decide (severity ≠ alert.severity ∨ alert.status ≠ .active)
    let recent := match alert.lastNotifiedAt with
      | none => false
      | some notified => decide (evidence.eventTime - notified < repo.suppression)
    let suppressed := !changed && recent
    { alert :=
        { alert with
          severity := severity
          status := .active
          lastTriggeredAt := max alert.lastTriggeredAt evidence.eventTime
          lastNotifiedAt := if suppressed then alert.lastNotifiedAt else some evidence.eventTime
          occurrenceCount := alert.occurrenceCount + 1
          version := alert.version + 1 }
      eventType := if changed then .alertSeverityChanged else .alertRefreshed
      suppressed := suppressed }

/-- The body of the loop over the triggers. -/
def raiseRecord (campaign : CampaignRecord) (evidence : CampaignEvidence) (now : Datetime)
    (trigger : AlertTrigger) : MemoryM (AlertRecord × Option DomainEventId) := do
  let found ← reading fun m => m.alerts.get? (campaign.campaignId, trigger.alertType)
  let change := repo.recordChange campaign.campaignId evidence trigger found
  modify fun m => { m with
    alerts := m.alerts.set (campaign.campaignId, trigger.alertType) change.alert
    alertHistory := m.alertHistory ++
      [(change.alert.alertId, change.alert.severity, change.suppressed)] }
  if change.suppressed then return (change.alert, none)
  else do
    let published ← publish evidence change.eventType "alerts.events.v1"
      (.alert change.alert.alertId) (.alert change.alert trigger.reason) now
    return (change.alert, some published)

/-! ## A call -/

/-- Write the campaign and raise its alerts. -/
def applyRecord (evidence : CampaignEvidence) (assessment : CampaignAssessment) (now : Datetime)
    (existing : Option CampaignRecord) : MemoryM CampaignUpdate := do
  let (campaign, placed) ← placeRecord evidence assessment now existing
  let raised ← forEach (repo.raiseRecord campaign evidence now) assessment.alerts
  return {
    campaign := campaign
    alerts := raised.map Prod.fst
    emittedEventIds := placed ++ raised.filterMap Prod.snd }

/-- Evidence that has not been seen before. -/
def applyUnseen (evidence : CampaignEvidence) (now : Datetime) (existing : Option CampaignRecord) :
    MemoryM CampaignUpdate := do
  modify fun m => { m with evidenceIds := insert evidence.eventId m.evidenceIds }
  let existing := repo.withinGap evidence existing
  let assessment ← ofExcept (CampaignStateMachine.assess (recordStage existing) evidence.fusion)
  match existing with
  | none => repo.applyRecord evidence assessment now none
  | some record =>
    if isStaleCampaignRecord record evidence then
      return { campaign := record, staleEvidence := true }
    else repo.applyRecord evidence assessment now (some record)

/-- `apply(evidence, state_machine)`. -/
def apply (evidence : CampaignEvidence) (now : Datetime) : MemoryM CampaignUpdate := do
  let existing ← reading fun m => m.campaigns.get? (evidence.scopeId, evidence.assetId)
  let seen ← reading fun m => decide (evidence.eventId ∈ m.evidenceIds)
  if seen then
    match existing with
    | none => raise (.runtimeError "duplicate evidence has no campaign")
    | some record => return { campaign := record, duplicateEvidence := true }
  else repo.applyUnseen evidence now existing

/-- Make a call.  There is no advisory lock to ask for. -/
def perform (call : SqlCampaignRepository.Call) : MemoryM CampaignUpdate :=
  repo.apply call.evidence call.now

end InMemoryCampaignRepository

end Campaigns
end Scam2Market
