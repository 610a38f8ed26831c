import Scam2Market.Campaigns.Repository

/-!
# What a call of the repository does

* `Placed`: which row evidence leaves in the table of campaigns, and which changes of stage it
  records, in the three ways it can be applied: it opens a campaign, it opens one in the place of an
  expired one, or it updates the active one.
* `apply_cases`: a call raises and changes nothing, answers a duplicate, records stale evidence, or
  applies evidence and raises its alerts.
-/

namespace Scam2Market
namespace Campaigns

open Intelligence (RiskLevel)
open Library (OrderedDict)
open Library.Procedure
open Streaming (EventFields EventType)
open CampaignStateMachine (assess)
open SqlCampaignRepository

/-! ## Rows and events -/

theorem addRow_eq_ok {key : String} {taken : Tables → Bool} {add : Tables → Tables}
    {t t' : Tables} {u : Unit} :
    addRow key taken add t = (.ok u, t') ↔ taken t = false ∧ t' = add t := by
  rw [addRow, reading_bind]
  cases htaken : taken t with
  | true => exact iff_of_false (fun h => absurd (congrArg Prod.fst h) (by simp)) (by simp)
  | false => simp [eq_comm]

section DomainEvent

variable {evidence : CampaignEvidence} {eventType : EventType} {topic : String}
  {entityId : EntityId} {payload : DomainPayload} {now : Datetime} {event : DomainEvent}

/-- What a domain event says. -/
structure DomainEventOf (evidence : CampaignEvidence) (eventType : EventType) (topic : String)
    (entityId : EntityId) (payload : DomainPayload) (event : DomainEvent) : Prop where
  id_eq : event.eventId = ⟨(topic, entityId, eventType, evidence.eventId)⟩
  type_eq : event.eventType = eventType
  source_eq : event.sourceEventId = (entityId, eventType, evidence.eventId)
  time_eq : event.eventTime = evidence.eventTime
  payload_eq : event.payload = payload

theorem domainEvent_ok (h : domainEvent evidence eventType topic entityId payload now = .ok event) :
    DomainEventOf evidence eventType topic entityId payload event := by
  rw [domainEvent] at h
  rcases hreplay : Streaming.ReplayMetadata.ofScope evidence.scopeId with e | replay
  · rw [hreplay] at h
    exact absurd h (by simp [bind, Except.bind])
  · rw [hreplay] at h
    have hfields := EventFields.validate_eq_ok h
    constructor <;> rw [hfields]

end DomainEvent

/-- The row of an event. -/
def outboxRow (topic : String) (event : DomainEvent) : EventOutboxModel where
  eventId := event.eventId
  topic := topic
  partitionKey := event.partitionKey
  envelope := event

theorem enqueue_ok {topic : String} {event : DomainEvent} {t t' : Tables} {u : Unit}
    (h : enqueue topic event t = (.ok u, t')) :
    t' = { t with outbox := t.outbox ++ [outboxRow topic event] } :=
  (addRow_eq_ok.mp h).2

/-- Events about campaigns that evidence has caused. -/
def AboutCampaigns (evidence : CampaignEvidence) (rows : List EventOutboxModel) : Prop :=
  ∀ row ∈ rows, row.topic = "campaign.events.v1" ∧
    ∃ campaignId eventType payload, DomainEventOf evidence eventType row.topic
      (.campaign campaignId) payload row.envelope ∧ row.eventId = row.envelope.eventId

section Announce

variable {evidence : CampaignEvidence} {campaignId : CampaignId} {eventType : EventType}
  {payload : DomainPayload} {now : Datetime} {t t' : Tables}

theorem announce_ok {id : DomainEventId}
    (h : announce evidence eventType campaignId payload now t = (.ok id, t')) :
    ∃ rows, t' = { t with outbox := t.outbox ++ rows } ∧ AboutCampaigns evidence rows := by
  obtain ⟨event, mid, hevent, h⟩ := bind_eq_ok.mp h
  obtain ⟨hmade, rfl⟩ := Prod.mk.inj hevent
  obtain ⟨u, mid', henqueue, h⟩ := bind_eq_ok.mp h
  obtain ⟨-, rfl⟩ := Prod.mk.inj h
  refine ⟨[outboxRow "campaign.events.v1" event], enqueue_ok henqueue, fun row hrow => ?_⟩
  obtain rfl := List.mem_singleton.mp hrow
  exact ⟨rfl, campaignId, eventType, payload, domainEvent_ok hmade, rfl⟩

end Announce

/-! ## Placing evidence -/

variable {repo : SqlCampaignRepository} {evidence : CampaignEvidence} {now : Datetime}
  {t t' : Tables}

/-- How evidence can be applied to the table of campaigns, when `active` is the active one: the row
it leaves, the table, and the changes of stage. -/
inductive Placed (repo : SqlCampaignRepository) (evidence : CampaignEvidence)
    (campaigns : OrderedDict CampaignId CampaignModel) :
    Option CampaignModel → CampaignModel → OrderedDict CampaignId CampaignModel →
      List CampaignStageHistoryModel → Prop where
  | opened (assessment : CampaignAssessment)
      (hassess : assess .normal evidence.fusion = .ok assessment)
      (hfresh : campaigns.get? (openedCampaign evidence assessment).campaignId = none) :
      Placed repo evidence campaigns none (openedCampaign evidence assessment)
        (campaigns.set (openedCampaign evidence assessment).campaignId
          (openedCampaign evidence assessment))
        [stageHistoryRow (openedCampaign evidence assessment).campaignId none evidence assessment]
  | reopened (old : CampaignModel) (assessment : CampaignAssessment)
      (hgap : repo.mergeGap < evidence.eventTime - old.lastEvidenceAt)
      (hassess : assess .normal evidence.fusion = .ok assessment)
      (hfresh : (campaigns.set old.campaignId (closedCampaign old)).get?
        (openedCampaign evidence assessment).campaignId = none) :
      Placed repo evidence campaigns (some old) (openedCampaign evidence assessment)
        ((campaigns.set old.campaignId (closedCampaign old)).set
          (openedCampaign evidence assessment).campaignId (openedCampaign evidence assessment))
        [stageHistoryRow (openedCampaign evidence assessment).campaignId none evidence assessment]
  | continued (old : CampaignModel) (assessment : CampaignAssessment)
      (hgap : ¬ repo.mergeGap < evidence.eventTime - old.lastEvidenceAt)
      (hassess : assess old.stage evidence.fusion = .ok assessment) :
      Placed repo evidence campaigns (some old) (updatedCampaign old evidence assessment)
        (campaigns.set old.campaignId (updatedCampaign old evidence assessment))
        (if assessment.nextStage ≠ old.stage then
          [stageHistoryRow old.campaignId (some old.stage) evidence assessment] else [])

/-- The tables before the alerts are raised. -/
structure BeforeAlerts (evidence : CampaignEvidence) (row : CampaignModel)
    (campaigns : OrderedDict CampaignId CampaignModel) (stages : List CampaignStageHistoryModel)
    (t t' : Tables) : Prop where
  campaigns_eq : t'.campaigns = campaigns
  stages_eq : t'.stageHistory = t.stageHistory ++ stages
  evidence_eq : t'.evidence = t.evidence.set evidence.eventId (evidenceRow evidence row.campaignId)
  alerts_eq : t'.alerts = t.alerts
  history_eq : t'.alertHistory = t.alertHistory
  outbox_eq : ∃ rows, t'.outbox = t.outbox ++ rows ∧ AboutCampaigns evidence rows

theorem aboutCampaigns_append {rows rows' : List EventOutboxModel}
    (h : AboutCampaigns evidence rows) (h' : AboutCampaigns evidence rows') :
    AboutCampaigns evidence (rows ++ rows') := fun row hrow =>
  (List.mem_append.mp hrow).elim (h row) (h' row)

theorem openCampaign_ok {assessment : CampaignAssessment}
    {placed : CampaignModel × List DomainEventId}
    (h : openCampaign evidence assessment now t = (.ok placed, t')) :
    t.campaigns.get? (openedCampaign evidence assessment).campaignId = none ∧
      placed.1 = openedCampaign evidence assessment ∧
      ∃ rows, AboutCampaigns evidence rows ∧
        t' = { t with
          campaigns := t.campaigns.set (openedCampaign evidence assessment).campaignId
            (openedCampaign evidence assessment)
          stageHistory := t.stageHistory ++
            [stageHistoryRow (openedCampaign evidence assessment).campaignId none evidence
              assessment]
          outbox := t.outbox ++ rows } := by
  obtain ⟨u, t₁, hadd, h⟩ := bind_eq_ok.mp h
  obtain ⟨u', t₂, hstage, h⟩ := bind_eq_ok.mp h
  obtain ⟨id, t₃, hannounce, h⟩ := bind_eq_ok.mp h
  obtain ⟨hplaced, rfl⟩ := Prod.mk.inj h
  obtain ⟨hfresh, rfl⟩ := addRow_eq_ok.mp hadd
  obtain ⟨-, rfl⟩ := addRow_eq_ok.mp hstage
  obtain ⟨rows, rfl, hrows⟩ := announce_ok hannounce
  refine ⟨by simpa using hfresh, ?_, rows, hrows, rfl⟩
  rw [← Except.ok.inj hplaced]

theorem updateCampaign_ok {campaign : CampaignModel} {assessment : CampaignAssessment}
    {placed : CampaignModel × List DomainEventId}
    (h : updateCampaign campaign evidence assessment now t = (.ok placed, t')) :
    placed.1 = updatedCampaign campaign evidence assessment ∧
      ∃ rows, AboutCampaigns evidence rows ∧
        t' = { t with
          campaigns := t.campaigns.set campaign.campaignId
            (updatedCampaign campaign evidence assessment)
          stageHistory := t.stageHistory ++
            if assessment.nextStage ≠ campaign.stage then
              [stageHistoryRow campaign.campaignId (some campaign.stage) evidence assessment]
            else []
          outbox := t.outbox ++ rows } := by
  obtain ⟨u, t₁, hsave, h⟩ := bind_eq_ok.mp h
  obtain ⟨emitted, t₂, hmove, h⟩ := bind_eq_ok.mp h
  obtain ⟨hplaced, rfl⟩ := Prod.mk.inj h
  obtain ⟨-, rfl⟩ := Prod.mk.inj hsave
  refine ⟨by rw [← Except.ok.inj hplaced], ?_⟩
  rw [moveStage] at hmove
  by_cases hstage : assessment.nextStage ≠ campaign.stage
  · rw [if_pos hstage] at hmove
    obtain ⟨u', t₃, hadd, hmove⟩ := bind_eq_ok.mp hmove
    obtain ⟨id, t₄, hannounce, hmove⟩ := bind_eq_ok.mp hmove
    obtain ⟨-, rfl⟩ := Prod.mk.inj hmove
    obtain ⟨-, rfl⟩ := addRow_eq_ok.mp hadd
    obtain ⟨rows, rfl, hrows⟩ := announce_ok hannounce
    refine ⟨rows, hrows, ?_⟩
    rw [if_pos hstage]
    rfl
  · rw [if_neg hstage] at hmove
    obtain ⟨-, rfl⟩ := Prod.mk.inj hmove
    refine ⟨[], fun row hrow => absurd hrow List.not_mem_nil, ?_⟩
    rw [if_neg hstage, List.append_nil, List.append_nil]
    rfl

/-- What closing an expired campaign does, when it does anything. -/
theorem closeExpired_ok {active : Option CampaignModel}
    {left : Option CampaignModel × List DomainEventId}
    (h : repo.closeExpired evidence now active t = (.ok left, t')) :
    (left.1 = active ∧ t' = t ∧
        ∀ old ∈ active, ¬ repo.mergeGap < evidence.eventTime - old.lastEvidenceAt) ∨
      ∃ old, active = some old ∧ left.1 = none ∧
        repo.mergeGap < evidence.eventTime - old.lastEvidenceAt ∧
        ∃ rows, AboutCampaigns evidence rows ∧
          t' = { t with
            campaigns := t.campaigns.set old.campaignId (closedCampaign old)
            outbox := t.outbox ++ rows } := by
  cases active with
  | none =>
    obtain ⟨hleft, rfl⟩ := Prod.mk.inj h
    refine Or.inl ⟨by rw [← Except.ok.inj hleft], rfl, ?_⟩
    exact fun old hold => absurd hold (Option.not_mem_none old)
  | some old =>
    rw [closeExpired] at h
    by_cases hgap : repo.mergeGap < evidence.eventTime - old.lastEvidenceAt
    · rw [if_pos hgap] at h
      obtain ⟨id, t₁, hclose, h⟩ := bind_eq_ok.mp h
      obtain ⟨hleft, rfl⟩ := Prod.mk.inj h
      obtain ⟨u, t₂, hsave, hclose⟩ := bind_eq_ok.mp hclose
      obtain ⟨-, rfl⟩ := Prod.mk.inj hsave
      obtain ⟨rows, rfl, hrows⟩ := announce_ok hclose
      exact Or.inr ⟨old, rfl, by rw [← Except.ok.inj hleft], hgap, rows, hrows, rfl⟩
    · rw [if_neg hgap] at h
      obtain ⟨hleft, rfl⟩ := Prod.mk.inj h
      refine Or.inl ⟨by rw [← Except.ok.inj hleft], rfl, ?_⟩
      intro other hother
      rw [← Option.some.inj hother]
      exact hgap

/-- **What applying evidence does.**  It places the evidence, and then raises the alerts. -/
theorem applyFresh_ok {active : Option CampaignModel} {applied : AppliedEvidence}
    (h : repo.applyFresh evidence now active t = (.ok applied, t')) :
    ∃ campaigns stages mid raised,
      Placed repo evidence t.campaigns active applied.campaign campaigns stages ∧
      BeforeAlerts evidence applied.campaign campaigns stages t mid ∧
      forEach (repo.raiseAlert applied.campaign evidence now)
        (CampaignStateMachine.alerts evidence.fusion) mid = (.ok raised, t') ∧
      raised.map Prod.fst = applied.alerts := by
  obtain ⟨⟨left, closed⟩, t₁, hclose, h⟩ := bind_eq_ok.mp h
  obtain ⟨assessment, t₂, hread, h⟩ := bind_eq_ok.mp h
  obtain ⟨⟨campaign, placed⟩, t₃, hplace, h⟩ := bind_eq_ok.mp h
  obtain ⟨u, t₄, hevidence, h⟩ := bind_eq_ok.mp h
  obtain ⟨raised, t₅, hraise, h⟩ := bind_eq_ok.mp h
  obtain ⟨happlied, rfl⟩ := Prod.mk.inj h
  obtain ⟨hassess, rfl⟩ := Prod.mk.inj hread
  obtain ⟨-, rfl⟩ := addRow_eq_ok.mp hevidence
  have hcampaign : applied.campaign = campaign := by rw [← Except.ok.inj happlied]
  have hrecords : raised.map Prod.fst = applied.alerts := by rw [← Except.ok.inj happlied]
  have halerts : assessment.alerts = CampaignStateMachine.alerts evidence.fusion := by
    rw [CampaignStateMachine.assess_eq_ok.mp hassess]
    rfl
  rw [halerts] at hraise
  rw [hcampaign]
  rcases closeExpired_ok hclose with ⟨hleft, rfl, hgap⟩ | ⟨old, rfl, hleft, hgap, rows, hrows, rfl⟩
  · obtain rfl : left = active := hleft
    cases left with
    | none =>
      obtain ⟨hfresh, hrow, rows, hrows, rfl⟩ := openCampaign_ok hplace
      obtain rfl : campaign = _ := hrow
      refine ⟨_, _, _, raised, .opened assessment hassess hfresh, ?_, hraise, hrecords⟩
      exact ⟨rfl, rfl, rfl, rfl, rfl, rows, rfl, hrows⟩
    | some old =>
      obtain ⟨hrow, rows, hrows, rfl⟩ := updateCampaign_ok hplace
      obtain rfl : campaign = _ := hrow
      refine ⟨_, _, _, raised, .continued old assessment (hgap old rfl) hassess, ?_, hraise, hrecords⟩
      exact ⟨rfl, rfl, rfl, rfl, rfl, rows, rfl, hrows⟩
  · obtain rfl : left = none := hleft
    obtain ⟨hfresh, hrow, rows', hrows', rfl⟩ := openCampaign_ok hplace
    obtain rfl : campaign = _ := hrow
    refine ⟨_, _, _, raised, .reopened old assessment hgap hassess hfresh, ?_, hraise, hrecords⟩
    refine ⟨rfl, rfl, rfl, rfl, rfl, rows ++ rows', ?_, aboutCampaigns_append hrows hrows'⟩
    exact List.append_assoc _ _ _

/-! ## Raising alerts -/

/-- The tables that raising alerts leaves alone. -/
def SameCampaigns (t t' : Tables) : Prop :=
  t'.campaigns = t.campaigns ∧ t'.stageHistory = t.stageHistory ∧ t'.evidence = t.evidence

instance : Std.Refl SameCampaigns :=
  ⟨fun _ => ⟨rfl, rfl, rfl⟩⟩

instance : IsTrans Tables SameCampaigns :=
  ⟨fun _ _ _ hab hbc => ⟨hbc.1.trans hab.1, hbc.2.1.trans hab.2.1, hbc.2.2.trans hab.2.2⟩⟩

theorem keeps_addRow {R : Tables → Tables → Prop} [Std.Refl R] {key : String}
    {taken : Tables → Bool} {add : Tables → Tables} (h : ∀ t, R t (add t)) :
    Keeps R (addRow key taken add) := by
  intro t
  rw [addRow, reading_bind]
  cases taken t with
  | true => exact Std.Refl.refl t
  | false => exact h t

theorem keeps_raiseAlert (campaign : CampaignModel) (trigger : AlertTrigger) :
    Keeps SameCampaigns (repo.raiseAlert campaign evidence now trigger) := by
  have hstore : ∀ found alert, Keeps SameCampaigns (storeAlert found alert) := by
    intro found alert
    cases found with
    | none => exact keeps_addRow fun t => ⟨rfl, rfl, rfl⟩
    | some other => exact keeps_modify fun t => ⟨rfl, rfl, rfl⟩
  have henqueue : ∀ event, Keeps SameCampaigns (enqueue? "alerts.events.v1" event) := by
    intro event
    cases event with
    | none => exact keeps_pure ()
    | some event => exact keeps_addRow fun t => ⟨rfl, rfl, rfl⟩
  have hupsert : Keeps SameCampaigns (repo.upsertAlert campaign evidence now trigger) :=
    keeps_bind (keeps_reading _) fun found => keeps_bind (hstore found _) fun _ =>
      keeps_bind (keeps_addRow fun t => ⟨rfl, rfl, rfl⟩) fun _ =>
        keeps_bind (keeps_ofExcept _) fun _ => keeps_pure _
  exact keeps_bind hupsert fun result => keeps_bind (henqueue result.2) fun _ => keeps_pure _

/-- What applying evidence leaves in the tables. -/
structure AppliedTo (repo : SqlCampaignRepository) (evidence : CampaignEvidence) (now : Datetime)
    (row : CampaignModel) (alerts : List AlertRecord) (t t' : Tables) : Prop where
  fresh : t.evidence.get? evidence.eventId = none
  notStale : ∀ old ∈ t.selectActive evidence.scopeId evidence.assetId,
    isStaleCampaignEvidence old evidence = false
  evidence_eq : t'.evidence = t.evidence.set evidence.eventId (evidenceRow evidence row.campaignId)
  placed : ∃ stages, t'.stageHistory = t.stageHistory ++ stages ∧
    Placed repo evidence t.campaigns (t.selectActive evidence.scopeId evidence.assetId) row
      t'.campaigns stages
  raised : ∃ mid results, mid.alerts = t.alerts ∧ mid.alertHistory = t.alertHistory ∧
    (∃ rows, mid.outbox = t.outbox ++ rows ∧ AboutCampaigns evidence rows) ∧
    forEach (repo.raiseAlert row evidence now) (CampaignStateMachine.alerts evidence.fusion) mid =
      (.ok results, t') ∧ results.map Prod.fst = alerts

theorem appliedTo_of_applyFresh {applied : AppliedEvidence}
    (hfresh : t.evidence.get? evidence.eventId = none)
    (hstale : ∀ old ∈ t.selectActive evidence.scopeId evidence.assetId,
      isStaleCampaignEvidence old evidence = false)
    (h : repo.applyFresh evidence now (t.selectActive evidence.scopeId evidence.assetId) t =
      (.ok applied, t')) :
    AppliedTo repo evidence now applied.campaign applied.alerts t t' := by
  obtain ⟨campaigns, stages, mid, results, hplaced, hbefore, hloop, halerts⟩ := applyFresh_ok h
  have hkeeps : Keeps SameCampaigns (forEach (repo.raiseAlert applied.campaign evidence now)
      (CampaignStateMachine.alerts evidence.fusion)) :=
    keeps_forEach fun trigger _ => keeps_raiseAlert _ trigger
  obtain ⟨hcampaigns, hstages, hevidence⟩ := hkeeps mid
  rw [hloop] at hcampaigns hstages hevidence
  refine ⟨hfresh, hstale, hevidence.trans hbefore.evidence_eq, ⟨stages, ?_, ?_⟩, ?_⟩
  · exact hstages.trans hbefore.stages_eq
  · rw [hcampaigns, hbefore.campaigns_eq]
    exact hplaced
  · exact ⟨mid, results, hbefore.alerts_eq, hbefore.history_eq, hbefore.outbox_eq, hloop, halerts⟩

/-- The row that evidence leaves has a confidence. -/
theorem inUnit_of_placed {campaigns campaigns' : OrderedDict CampaignId CampaignModel}
    {active : Option CampaignModel} {row : CampaignModel}
    {stages : List CampaignStageHistoryModel}
    (h : Placed repo evidence campaigns active row campaigns' stages) :
    Intelligence.InUnit row.stageConfidence := by
  cases h with
  | opened assessment => exact assessment.stageConfidence_mem
  | reopened old assessment => exact assessment.stageConfidence_mem
  | continued old assessment => exact assessment.stageConfidence_mem

/-! ## A call -/

/-- The update of evidence that has been recorded before. -/
def CampaignUpdate.IsDuplicate (campaign : CampaignModel) (update : CampaignUpdate) : Prop :=
  ∃ record, record.toCampaignPayload = campaignPayload campaign ∧
    update = { campaign := record, duplicateEvidence := true }

/-- The update of stale evidence. -/
def CampaignUpdate.IsStale (campaign : CampaignModel) (update : CampaignUpdate) : Prop :=
  ∃ record, record.toCampaignPayload = campaignPayload campaign ∧
    update = { campaign := record, staleEvidence := true }

/-- The update of evidence that is applied. -/
def CampaignUpdate.IsApplied (campaign : CampaignModel) (update : CampaignUpdate) : Prop :=
  update.campaign.toCampaignPayload = campaignPayload campaign ∧
    update.duplicateEvidence = false ∧ update.staleEvidence = false

/-- What a call that returns can have done. -/
inductive ApplyStep (repo : SqlCampaignRepository) (call : Call) (t : Tables) :
    CampaignUpdate → Tables → Prop where
  | duplicate (prior : CampaignEvidenceModel) (campaign : CampaignModel) (update : CampaignUpdate)
      (hprior : t.evidence.get? call.evidence.eventId = some prior)
      (hcampaign : t.campaigns.get? prior.campaignId = some campaign)
      (hupdate : update.IsDuplicate campaign) : ApplyStep repo call t update t
  | stale (campaign : CampaignModel) (update : CampaignUpdate)
      (hfresh : t.evidence.get? call.evidence.eventId = none)
      (hactive : t.selectActive call.evidence.scopeId call.evidence.assetId = some campaign)
      (hstale : isStaleCampaignEvidence campaign call.evidence = true)
      (hupdate : update.IsStale campaign) :
      ApplyStep repo call t update
        { t with
          evidence := t.evidence.set call.evidence.eventId
            (evidenceRow call.evidence campaign.campaignId) }
  | applied (row : CampaignModel) (update : CampaignUpdate) (t' : Tables)
      (happlied : AppliedTo repo call.evidence call.now row update.alerts t t')
      (hupdate : update.IsApplied row) : ApplyStep repo call t update t'

theorem answerDuplicate_ok {prior : CampaignEvidenceModel} {update : CampaignUpdate}
    (h : answerDuplicate prior t = (.ok update, t')) :
    t' = t ∧ ∃ campaign, t.campaigns.get? prior.campaignId = some campaign ∧
      update.IsDuplicate campaign := by
  rw [answerDuplicate, reading_bind] at h
  cases hfound : t.campaigns.get? prior.campaignId with
  | none =>
    rw [hfound] at h
    exact absurd (congrArg Prod.fst h) (by simp)
  | some campaign =>
    rw [hfound] at h
    obtain ⟨record, mid, hrecord, hpure⟩ := bind_eq_ok.mp h
    obtain ⟨hvalid, rfl⟩ := Prod.mk.inj hrecord
    obtain ⟨hupdate, rfl⟩ := Prod.mk.inj hpure
    exact ⟨rfl, campaign, rfl, record, CampaignPayload.validate_eq_ok.mp hvalid,
      (Except.ok.inj hupdate).symm⟩

theorem recordStale_ok {campaign : CampaignModel} {update : CampaignUpdate}
    (h : recordStale evidence campaign t = (.ok update, t')) :
    t' = { t with
        evidence := t.evidence.set evidence.eventId (evidenceRow evidence campaign.campaignId) } ∧
      update.IsStale campaign := by
  obtain ⟨u, mid, hadd, h⟩ := bind_eq_ok.mp h
  obtain ⟨record, mid', hrecord, hpure⟩ := bind_eq_ok.mp h
  obtain ⟨-, rfl⟩ := addRow_eq_ok.mp hadd
  obtain ⟨hvalid, rfl⟩ := Prod.mk.inj hrecord
  obtain ⟨hupdate, rfl⟩ := Prod.mk.inj hpure
  exact ⟨rfl, record, CampaignPayload.validate_eq_ok.mp hvalid, (Except.ok.inj hupdate).symm⟩

/-- What the block of the session returns. -/
theorem applyLocked_ok {result : CampaignUpdate ⊕ AppliedEvidence}
    (h : repo.applyLocked evidence now t = (.ok result, t')) :
    (∃ prior, t.evidence.get? evidence.eventId = some prior ∧
        ∃ update, result = .inl update ∧ answerDuplicate prior t = (.ok update, t')) ∨
      (t.evidence.get? evidence.eventId = none ∧
        ((∃ campaign, t.selectActive evidence.scopeId evidence.assetId = some campaign ∧
            isStaleCampaignEvidence campaign evidence = true ∧
            ∃ update, result = .inl update ∧ recordStale evidence campaign t = (.ok update, t')) ∨
          ∃ applied, result = .inr applied ∧
            AppliedTo repo evidence now applied.campaign applied.alerts t t')) := by
  rw [applyLocked, reading_bind] at h
  cases hprior : t.evidence.get? evidence.eventId with
  | some prior =>
    rw [hprior] at h
    obtain ⟨update, hanswer, hresult⟩ := map_eq_ok h
    exact Or.inl ⟨prior, rfl, update, hresult.symm, hanswer⟩
  | none =>
    rw [hprior] at h
    obtain ⟨active, mid, hread, h⟩ := bind_eq_ok.mp h
    obtain ⟨hactive, rfl⟩ := Prod.mk.inj hread
    replace hactive : t.selectActive evidence.scopeId evidence.assetId = active :=
      Except.ok.inj hactive
    refine Or.inr ⟨rfl, ?_⟩
    cases active with
    | none =>
      obtain ⟨applied, happlied, hresult⟩ := map_eq_ok h
      rw [← hactive] at happlied
      refine Or.inr ⟨applied, hresult.symm, appliedTo_of_applyFresh hprior ?_ happlied⟩
      rw [hactive]
      exact fun old hold => absurd hold (Option.not_mem_none old)
    | some campaign =>
      cases hstale : isStaleCampaignEvidence campaign evidence with
      | true =>
        simp only [hstale, if_true] at h
        obtain ⟨update, hrecord, hresult⟩ := map_eq_ok h
        exact Or.inl ⟨campaign, hactive, hstale, update, hresult.symm, hrecord⟩
      | false =>
        simp only [hstale, Bool.false_eq_true, if_false] at h
        obtain ⟨applied, happlied, hresult⟩ := map_eq_ok h
        rw [← hactive] at happlied
        refine Or.inr ⟨applied, hresult.symm, appliedTo_of_applyFresh hprior ?_ happlied⟩
        rw [hactive]
        intro old hold
        rw [← Option.some.inj hold]
        exact hstale

/-- **What a call does.**  It raises and changes nothing, or it takes one of the three steps. -/
theorem perform_cases (repo : SqlCampaignRepository) (call : Call) (t : Tables) :
    (∃ e, repo.perform call t = (.error e, t)) ∨
      ∃ update t', repo.perform call t = (.ok update, t') ∧ ApplyStep repo call t update t' := by
  rw [perform, apply]
  rcases atomically_cases (do
      repo.acquireLock call.evidence call.granted
      repo.applyLocked call.evidence call.now) t with ⟨e, herror⟩ | ⟨result, t', hblock, hok⟩
  · exact Or.inl ⟨e, bind_of_error herror⟩
  · refine Or.inr ?_
    rw [bind_of_ok hok]
    obtain ⟨u, mid, hlock, hlocked⟩ := bind_eq_ok.mp hblock
    obtain rfl : mid = t := by
      rw [acquireLock] at hlock
      split_ifs at hlock
      · exact (congrArg Prod.snd hlock).symm
      · exact absurd (congrArg Prod.fst hlock) (by simp)
    rcases applyLocked_ok hlocked with ⟨prior, hprior, update, rfl, hanswer⟩ |
      ⟨hfresh, ⟨campaign, hactive, hstale, update, rfl, hrecord⟩ | ⟨applied, rfl, happlied⟩⟩
    · obtain ⟨rfl, campaign, hcampaign, hupdate⟩ := answerDuplicate_ok hanswer
      exact ⟨update, _, rfl, .duplicate prior campaign update hprior hcampaign hupdate⟩
    · obtain ⟨rfl, hupdate⟩ := recordStale_ok hrecord
      exact ⟨update, _, rfl, .stale campaign update hfresh hactive hstale hupdate⟩
    · obtain ⟨stages, -, hplaced⟩ := happlied.placed
      have hrecord : campaignRecord applied.campaign =
          .ok ⟨campaignPayload applied.campaign, inUnit_of_placed hplaced⟩ :=
        CampaignPayload.validate_eq_ok.mpr rfl
      dsimp only
      rw [hrecord]
      exact ⟨_, t', rfl, .applied applied.campaign _ t' happlied ⟨rfl, rfl, rfl⟩⟩

end Campaigns
end Scam2Market
