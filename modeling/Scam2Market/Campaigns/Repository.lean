import Mathlib.Data.Prod.Lex
import Scam2Market.Campaigns.Tables

/-!
# The campaign repository

`SqlCampaignRepository` of `campaigns/repository.py`.

* `apply` is one transaction: it answers duplicates, records stale evidence, closes a campaign whose
  merge gap has elapsed, opens a campaign or updates the active one, and raises the alerts.
* `evaluationOrder`: what decides whether evidence is stale.
* What the attempts at the advisory lock answer (`granted`) and what `datetime.now` returns are
  arguments of a call.
-/

namespace Scam2Market
namespace Campaigns

open Intelligence (EnrichmentProfile FusionResult RiskLevel)
open Library (OrderedDict)
open Library.Procedure
open Streaming (EventType)

/-! ## Staleness -/

/-- `_PROFILE_PRIORITY`. -/
def profilePriority : EnrichmentProfile → ℕ
  | .base => 0
  | .graph => 1
  | .verification => 2
  | .graphAndVerification => 3

/-- Tuples are compared from the left. -/
abbrev EvaluationOrder := Datetime ×ₗ ℤ ×ₗ ℤ ×ₗ ℕ

/-- The tuple of its parts. -/
def EvaluationOrder.of (cutoff : Datetime) (featureRevision fusionRevision : ℤ) (priority : ℕ) :
    EvaluationOrder :=
  toLex (cutoff, toLex (featureRevision, toLex (fusionRevision, priority)))

/-- `fusion.evidence_cutoff or evidence.event_time`. -/
def CampaignEvidence.cutoff (evidence : CampaignEvidence) : Datetime :=
  evidence.fusion.evidenceCutoff.getD evidence.eventTime

/-- `_evaluation_order(evidence)`. -/
def evaluationOrder (evidence : CampaignEvidence) : EvaluationOrder :=
  .of evidence.cutoff evidence.fusion.featureRevision evidence.fusion.fusionRevision
    (profilePriority evidence.fusion.enrichmentProfile)

/-- `_is_stale_campaign_evidence(campaign, evidence)`. -/
def isStaleCampaignEvidence (campaign : CampaignModel) (evidence : CampaignEvidence) : Bool :=
  match campaign.lastAppliedEvidenceCutoff with
  | none => false
  | some cutoff =>
    decide (evaluationOrder evidence ≤
      .of cutoff campaign.lastAppliedFeatureRevision campaign.lastAppliedFusionRevision
        (profilePriority campaign.lastAppliedEnrichmentProfile))

/-! ## Rows for evidence -/

/-- `_fingerprint(evidence.fusion.model_dump(mode="json"))`. -/
def fingerprint (evidence : CampaignEvidence) : Digest FusionResult :=
  ⟨evidence.fusion⟩

def evidenceRow (evidence : CampaignEvidence) (campaignId : CampaignId) :
    CampaignEvidenceModel where
  evidenceEventId := evidence.eventId
  scopeId := evidence.scopeId
  campaignId := campaignId
  eventTime := evidence.eventTime
  evidenceType := .modelFusionScored
  evidenceFingerprint := fingerprint evidence
  evidenceJson := evidence.fusion

/-- `stage_reason_json`. -/
def stageReason (assessment : CampaignAssessment) : StageReason where
  reason := assessment.transitionReason
  reasonCodes := assessment.reasonCodes
  evidenceIds := assessment.stageEvidenceIds

def stageHistoryRow (campaignId : CampaignId) (fromStage : Option CampaignStage)
    (evidence : CampaignEvidence) (assessment : CampaignAssessment) :
    CampaignStageHistoryModel where
  campaignId := campaignId
  fromStage := fromStage
  toStage := assessment.nextStage
  evidenceEventId := evidence.eventId
  reason := stageReason assessment
  confidence := assessment.stageConfidence
  ruleVersion := assessment.ruleVersion
  changedAtEventTime := evidence.eventTime

/-- The campaign that evidence opens. -/
def openedCampaign (evidence : CampaignEvidence) (assessment : CampaignAssessment) :
    CampaignModel where
  campaignId := ⟨(evidence.scopeId, evidence.assetId, evidence.eventId)⟩
  scopeId := evidence.scopeId
  assetId := evidence.assetId
  stage := assessment.nextStage
  stageConfidence := assessment.stageConfidence
  stageReason := stageReason assessment
  stageRuleVersion := assessment.ruleVersion
  status := .active
  maxSeverity := evidence.fusion.severity
  firstEvidenceAt := evidence.eventTime
  lastEvidenceAt := evidence.eventTime
  lastAppliedEvidenceCutoff := some evidence.cutoff
  lastAppliedFeatureRevision := evidence.fusion.featureRevision
  lastAppliedFusionRevision := evidence.fusion.fusionRevision
  lastAppliedEnrichmentProfile := evidence.fusion.enrichmentProfile
  version := 1

/-- The campaign that evidence updates.  The stage is written when it changes. -/
def updatedCampaign (campaign : CampaignModel) (evidence : CampaignEvidence)
    (assessment : CampaignAssessment) : CampaignModel :=
  { campaign with
    stage := if assessment.nextStage ≠ campaign.stage then assessment.nextStage else campaign.stage
    stageConfidence := assessment.stageConfidence
    stageReason := stageReason assessment
    stageRuleVersion := assessment.ruleVersion
    maxSeverity := maxRisk campaign.maxSeverity evidence.fusion.severity
    lastEvidenceAt := max campaign.lastEvidenceAt evidence.eventTime
    lastAppliedEvidenceCutoff := some evidence.cutoff
    lastAppliedFeatureRevision := evidence.fusion.featureRevision
    lastAppliedFusionRevision := evidence.fusion.fusionRevision
    lastAppliedEnrichmentProfile := evidence.fusion.enrichmentProfile
    version := campaign.version + 1 }

/-- The campaign after its merge gap. -/
def closedCampaign (campaign : CampaignModel) : CampaignModel :=
  { campaign with
    status := .closed
    closedReason := some "INACTIVITY_TIMEOUT"
    version := campaign.version + 1 }

/-! ## Alerts -/

/-- What a trigger makes of an alert. -/
structure AlertChange where
  alert : AlertModel
  oldSeverity : Option RiskLevel
  oldStatus : Option AlertStatus
  eventType : EventType
  suppressed : Bool

/-- An update, with what the block of the session returns. -/
structure CampaignUpdate where
  campaign : CampaignRecord
  alerts : List AlertRecord := []
  duplicateEvidence : Bool := false
  staleEvidence : Bool := false
  emittedEventIds : List DomainEventId := []

/-- What the block of the session leaves for the last statement of `apply`. -/
structure AppliedEvidence where
  campaign : CampaignModel
  alerts : List AlertRecord
  emittedEventIds : List DomainEventId

/-- The arguments of the constructor. -/
structure SqlCampaignRepository where
  mergeGapSeconds : ℤ := 1800
  suppressionSeconds : ℤ := 300
  lockRetryCount : ℤ := 3

namespace SqlCampaignRepository

variable (repo : SqlCampaignRepository)

/-- `_merge_gap`. -/
def mergeGap : Timedelta :=
  timedeltaSeconds repo.mergeGapSeconds

/-- `_suppression`. -/
def suppression : Timedelta :=
  timedeltaSeconds repo.suppressionSeconds

/-- The first half of `_upsert_alert`: the alert that is created, or the one that is updated. -/
def alertChange (campaign : CampaignModel) (evidence : CampaignEvidence) (trigger : AlertTrigger) :
    Option AlertModel → AlertChange
  | none =>
    { alert :=
        { alertId := ⟨(campaign.campaignId, trigger.alertType)⟩
          campaignId := campaign.campaignId
          alertType := trigger.alertType
          severity := trigger.severity
          status := .active
          firstTriggeredAt := evidence.eventTime
          lastTriggeredAt := evidence.eventTime
          lastNotifiedAt := some evidence.eventTime
          occurrenceCount := 1
          evidenceFingerprint := fingerprint evidence
          version := 1 }
      oldSeverity := none
      oldStatus := none
      eventType := .alertCreated
      suppressed := false }
  | some alert =>
    let severity := maxRisk alert.severity trigger.severity
    let severityChanged := decide (severity ≠ alert.severity ∨ alert.status ≠ .active)
    let recent := match alert.lastNotifiedAt with
      | none => false
      | some notified => decide (evidence.eventTime - notified < repo.suppression)
    let suppressed := !severityChanged && recent
    { alert :=
        { alert with
          lastTriggeredAt := max alert.lastTriggeredAt evidence.eventTime
          occurrenceCount := alert.occurrenceCount + 1
          evidenceFingerprint := fingerprint evidence
          status := .active
          severity := severity
          version := alert.version + 1
          lastNotifiedAt := if suppressed then alert.lastNotifiedAt else some evidence.eventTime }
      oldSeverity := some alert.severity
      oldStatus := some alert.status
      eventType := if severityChanged then .alertSeverityChanged else .alertRefreshed
      suppressed := suppressed }

/-- Add the alert that is created, save the one that is updated. -/
def storeAlert (found : Option AlertModel) (alert : AlertModel) : SessionM Unit :=
  match found with
  | none => addAlert alert
  | some _ => saveAlert alert

def alertHistoryRow (evidence : CampaignEvidence) (change : AlertChange) :
    AlertStateHistoryModel where
  alertId := change.alert.alertId
  evidenceEventId := evidence.eventId
  fromSeverity := change.oldSeverity
  toSeverity := change.alert.severity
  fromStatus := change.oldStatus
  toStatus := change.alert.status
  suppressionReason := if change.suppressed then some "COOLDOWN" else none
  changedAt := evidence.eventTime

/-- The event of a change, unless it is suppressed. -/
def alertEvent (campaign : CampaignModel) (evidence : CampaignEvidence) (trigger : AlertTrigger)
    (change : AlertChange) (now : Datetime) : Except PyError (Option DomainEvent) :=
  if change.suppressed then .ok none
  else
    (domainEvent evidence change.eventType "alerts.events.v1" (.alert change.alert.alertId)
      (.alert (alertPayload change.alert) campaign.scopeId campaign.assetId campaign.stage
        trigger.reason evidence.eventId) now).map some

/-- `_upsert_alert(session, campaign, evidence, trigger, fingerprint)`. -/
def upsertAlert (campaign : CampaignModel) (evidence : CampaignEvidence) (now : Datetime)
    (trigger : AlertTrigger) : SessionM (AlertRecord × Option DomainEvent) := do
  let found ← reading (Tables.selectAlert campaign.campaignId trigger.alertType)
  let change := repo.alertChange campaign evidence trigger found
  storeAlert found change.alert
  addAlertHistory (alertHistoryRow evidence change)
  let event ← ofExcept (alertEvent campaign evidence trigger change now)
  return (alertPayload change.alert, event)

/-- Enqueue an event, if there is one. -/
def enqueue? (topic : String) : Option DomainEvent → SessionM Unit
  | none => pure ()
  | some event => enqueue topic event

/-- The body of the loop over the triggers. -/
def raiseAlert (campaign : CampaignModel) (evidence : CampaignEvidence) (now : Datetime)
    (trigger : AlertTrigger) : SessionM (AlertRecord × Option DomainEventId) := do
  let result ← repo.upsertAlert campaign evidence now trigger
  enqueue? "alerts.events.v1" result.2
  return (result.1, result.2.map fun event => event.eventId)

/-! ## Campaigns -/

/-- Make an event about a campaign and enqueue it. -/
def announce (evidence : CampaignEvidence) (eventType : EventType) (campaignId : CampaignId)
    (payload : DomainPayload) (now : Datetime) : SessionM DomainEventId := do
  let event ← ofExcept (domainEvent evidence eventType "campaign.events.v1" (.campaign campaignId)
    payload now)
  enqueue "campaign.events.v1" event
  return event.eventId

/-- Close a campaign. -/
def closeCampaign (evidence : CampaignEvidence) (now : Datetime) (campaign : CampaignModel) :
    SessionM DomainEventId := do
  saveCampaign (closedCampaign campaign)
  announce evidence .campaignClosed campaign.campaignId
    (.campaignClosed campaign.campaignId "merge gap elapsed") now

/-- Close the active campaign if its merge gap has elapsed: the campaign that is left, and the events
that were enqueued. -/
def closeExpired (evidence : CampaignEvidence) (now : Datetime) :
    Option CampaignModel → SessionM (Option CampaignModel × List DomainEventId)
  | none => pure (none, [])
  | some campaign =>
    if repo.mergeGap < evidence.eventTime - campaign.lastEvidenceAt then do
      let closed ← closeCampaign evidence now campaign
      return (none, [closed])
    else pure (some campaign, [])

/-- Open a campaign. -/
def openCampaign (evidence : CampaignEvidence) (assessment : CampaignAssessment) (now : Datetime) :
    SessionM (CampaignModel × List DomainEventId) := do
  let campaign := openedCampaign evidence assessment
  addCampaign campaign
  addStageHistory (stageHistoryRow campaign.campaignId none evidence assessment)
  let created ← announce evidence .campaignCreated campaign.campaignId
    (.campaignCreated (campaignPayload campaign)) now
  return (campaign, [created])

/-- Record a change of stage. -/
def moveStage (oldStage : CampaignStage) (campaign : CampaignModel) (evidence : CampaignEvidence)
    (assessment : CampaignAssessment) (now : Datetime) : SessionM (List DomainEventId) :=
  if assessment.nextStage ≠ oldStage then do
    addStageHistory (stageHistoryRow campaign.campaignId (some oldStage) evidence assessment)
    let changed ← announce evidence .campaignStageChanged campaign.campaignId
      (.campaignStageChanged (campaignPayload campaign) oldStage assessment.transitionReason) now
    return [changed]
  else pure []

/-- Update a campaign. -/
def updateCampaign (campaign : CampaignModel) (evidence : CampaignEvidence)
    (assessment : CampaignAssessment) (now : Datetime) :
    SessionM (CampaignModel × List DomainEventId) := do
  let updated := updatedCampaign campaign evidence assessment
  saveCampaign updated
  let emitted ← moveStage campaign.stage updated evidence assessment now
  return (updated, emitted)

/-- Open a campaign, or update the active one. -/
def placeEvidence (evidence : CampaignEvidence) (assessment : CampaignAssessment) (now : Datetime) :
    Option CampaignModel → SessionM (CampaignModel × List DomainEventId)
  | none => openCampaign evidence assessment now
  | some campaign => updateCampaign campaign evidence assessment now

/-- The stage to assess from. -/
def currentStage : Option CampaignModel → CampaignStage
  | none => .normal
  | some campaign => campaign.stage

/-- Evidence that is neither a duplicate nor stale. -/
def applyFresh (evidence : CampaignEvidence) (now : Datetime) (active : Option CampaignModel) :
    SessionM AppliedEvidence := do
  let (active, closed) ← repo.closeExpired evidence now active
  let assessment ← ofExcept (CampaignStateMachine.assess (currentStage active) evidence.fusion)
  let (campaign, placed) ← placeEvidence evidence assessment now active
  addEvidence (evidenceRow evidence campaign.campaignId)
  let raised ← forEach (repo.raiseAlert campaign evidence now) assessment.alerts
  return {
    campaign := campaign
    alerts := raised.map Prod.fst
    emittedEventIds := closed ++ placed ++ raised.filterMap Prod.snd }

/-- Evidence that has been recorded before. -/
def answerDuplicate (prior : CampaignEvidenceModel) : SessionM CampaignUpdate := do
  let found ← reading fun t => t.campaigns.get? prior.campaignId
  match found with
  | none => raise (.runtimeError "campaign evidence references a missing campaign")
  | some campaign =>
    let record ← ofExcept (campaignRecord campaign)
    return { campaign := record, duplicateEvidence := true }

/-- Evidence that is no newer than what the campaign has applied. -/
def recordStale (evidence : CampaignEvidence) (campaign : CampaignModel) :
    SessionM CampaignUpdate := do
  addEvidence (evidenceRow evidence campaign.campaignId)
  let record ← ofExcept (campaignRecord campaign)
  return { campaign := record, staleEvidence := true }

/-- Try to get the advisory lock. -/
def acquireLock (evidence : CampaignEvidence) (granted : ℕ → Bool) : SessionM Unit :=
  if (List.range (repo.lockRetryCount + 1).toNat).any granted then pure ()
  else raise (.timeoutError
    s!"campaign lock timeout for {evidence.scopeId}:{evidence.assetId}")

/-- The block of the session after the lock. -/
def applyLocked (evidence : CampaignEvidence) (now : Datetime) :
    SessionM (CampaignUpdate ⊕ AppliedEvidence) := do
  let prior ← reading fun t => t.evidence.get? evidence.eventId
  match prior with
  | some prior => Sum.inl <$> answerDuplicate prior
  | none => do
    let active ← reading (Tables.selectActive evidence.scopeId evidence.assetId)
    match active with
    | none => Sum.inr <$> repo.applyFresh evidence now none
    | some campaign =>
      if isStaleCampaignEvidence campaign evidence then
        Sum.inl <$> recordStale evidence campaign
      else Sum.inr <$> repo.applyFresh evidence now (some campaign)

/-- `apply(evidence, state_machine)`. -/
def apply (evidence : CampaignEvidence) (granted : ℕ → Bool) (now : Datetime) :
    SessionM CampaignUpdate := do
  let result ← atomically do
    repo.acquireLock evidence granted
    repo.applyLocked evidence now
  match result with
  | .inl update => return update
  | .inr applied =>
    let record ← ofExcept (campaignRecord applied.campaign)
    return {
      campaign := record
      alerts := applied.alerts
      emittedEventIds := applied.emittedEventIds }

/-- A call of `apply`. -/
structure Call where
  evidence : CampaignEvidence
  granted : ℕ → Bool
  now : Datetime

/-- Make a call. -/
def perform (call : Call) : SessionM CampaignUpdate :=
  repo.apply call.evidence call.granted call.now

end SqlCampaignRepository

end Campaigns
end Scam2Market
