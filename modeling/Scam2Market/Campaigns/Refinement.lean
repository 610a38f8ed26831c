import Scam2Market.Campaigns.InMemory

/-!
# The two campaign repositories

The repository in memory answers as the one in the database does, call by call, as long as no call
meets one of the cases in which the two differ.

* `Mirrors`: the store in memory shows the active campaigns, the alerts and the recorded evidence.
* `Comparable`: the call does not meet a difference.
* `mirrors_perform`: a comparable call is answered alike, and keeps the mirror; `answers_run`: so are
  the calls of a run.
-/

namespace Scam2Market
namespace Campaigns

open Intelligence (RiskLevel)
open Library (OrderedDict)
open Library.Procedure
open SqlCampaignRepository
open InMemoryCampaignRepository (openedRecord placeRecord publish recordChange recordStage
  saveRecord updatedRecord)
open CampaignStateMachine (assess nextStage)
open Streaming (EventType)

/-! ## What the two have in common -/

/-- The two repositories have the same settings. -/
structure SameSettings (sql : SqlCampaignRepository) (memory : InMemoryCampaignRepository) :
    Prop where
  mergeGapSeconds : memory.mergeGapSeconds = sql.mergeGapSeconds
  suppressionSeconds : memory.suppressionSeconds = sql.suppressionSeconds

/-- The alerts in memory are those of the database. -/
def MirrorsAlerts (t : Tables) (m : MemoryStore) : Prop :=
  ∀ id : AlertId, m.alerts.get? id.name = (t.alerts.get? id).map alertPayload

/-- The store in memory shows what the database shows. -/
structure Mirrors (t : Tables) (m : MemoryStore) : Prop where
  campaigns : ∀ scopeId assetId,
    (m.campaigns.get? (scopeId, assetId)).map CampaignRecord.toCampaignPayload =
      (t.selectActive scopeId assetId).map campaignPayload
  alerts : MirrorsAlerts t m
  evidence : ∀ key, key ∈ m.evidenceIds ↔ t.Recorded key

/-- Two answers with the same campaign, the same alerts and the same flags. -/
structure SameAnswer (u v : CampaignUpdate) : Prop where
  campaign : v.campaign.toCampaignPayload = u.campaign.toCampaignPayload
  alerts : v.alerts = u.alerts
  duplicateEvidence : v.duplicateEvidence = u.duplicateEvidence
  staleEvidence : v.staleEvidence = u.staleEvidence

variable {sql : SqlCampaignRepository} {memory : InMemoryCampaignRepository} {t t' : Tables}
  {m m' : MemoryStore} {call : Call} {evidence : CampaignEvidence} {now : Datetime}
  {campaign row : CampaignModel} {record : CampaignRecord} {trigger : AlertTrigger}
  {triggers : AlertId → List (Datetime × RiskLevel)}

/-! ## Alerts -/

/-- The alerts change alike. -/
theorem recordChange_eq (hsame : SameSettings sql memory) (campaign : CampaignModel)
    (evidence : CampaignEvidence) (trigger : AlertTrigger) (found : Option AlertModel) :
    memory.recordChange campaign.campaignId evidence trigger (found.map alertPayload) =
      { alert := alertPayload (sql.alertChange campaign evidence trigger found).alert
        eventType := (sql.alertChange campaign evidence trigger found).eventType
        suppressed := (sql.alertChange campaign evidence trigger found).suppressed } := by
  have hsuppression : memory.suppression = sql.suppression :=
    congrArg timedeltaSeconds hsame.suppressionSeconds
  cases found with
  | none => rfl
  | some alert =>
    rw [Option.map_some, recordChange, hsuppression]
    rfl

theorem publish_returns (haddressed : evidence.Addressed) (eventType : EventType) (topic : String)
    (entityId : EntityId) (payload : MemoryPayload) (now : Datetime) (m : MemoryStore) :
    ∃ id events, publish evidence eventType topic entityId payload now m =
      (.ok id, { m with outbox := m.outbox ++ events }) := by
  obtain ⟨event, hevent⟩ := domainEvent_returns haddressed eventType topic entityId payload now
  refine ⟨event.eventId, [(topic, event)], ?_⟩
  rw [publish, hevent]
  rfl

theorem mirrorsAlerts_set (halerts : MirrorsAlerts t m) {alert : AlertModel}
    (ht : t'.alerts = t.alerts.set alert.alertId alert)
    (hm : m'.alerts = m.alerts.set alert.alertId.name (alertPayload alert)) :
    MirrorsAlerts t' m' := by
  intro id
  rw [ht, hm]
  by_cases hid : id = alert.alertId
  · rw [hid, OrderedDict.get?_set_self, OrderedDict.get?_set_self]
    rfl
  · have hname : id.name ≠ alert.alertId.name := fun heq => hid (congrArg Uuid.mk heq)
    rw [OrderedDict.get?_set_of_ne _ _ hid, OrderedDict.get?_set_of_ne _ _ hname]
    exact halerts id

/-- What raising alerts in memory leaves alone. -/
structure RaisedAlike (t' : Tables) (m m' : MemoryStore) : Prop where
  alerts : MirrorsAlerts t' m'
  campaigns_eq : m'.campaigns = m.campaigns
  evidence_eq : m'.evidenceIds = m.evidenceIds

/-- **An alert is raised alike.** -/
theorem raiseRecord_alike (hsame : SameSettings sql memory) (haddressed : evidence.Addressed)
    (hfollows : Follows sql triggers t) (halerts : MirrorsAlerts t m)
    (hid : record.campaignId = campaign.campaignId)
    {result : AlertRecord × Option DomainEventId}
    (hraise : sql.raiseAlert campaign evidence now trigger t = (.ok result, t')) :
    ∃ result' m', memory.raiseRecord record evidence now trigger m = (.ok result', m') ∧
      result'.1 = result.1 ∧ RaisedAlike t' m m' := by
  obtain ⟨hresult, hset, -⟩ := raiseAlert_ok hraise
  have hown := alertId_alertChange hfollows campaign evidence trigger
  have hfound : m.alerts.get? (campaign.campaignId, trigger.alertType) =
      (t.selectAlert campaign.campaignId trigger.alertType).map alertPayload := by
    rw [selectAlert_eq hfollows]
    exact halerts (alertIdOf campaign trigger)
  have hchange := recordChange_eq hsame campaign evidence trigger
    (t.selectAlert campaign.campaignId trigger.alertType)
  generalize sql.alertChange campaign evidence trigger
    (t.selectAlert campaign.campaignId trigger.alertType) = change at hresult hset hown hchange
  have hname : change.alert.alertId.name = (campaign.campaignId, trigger.alertType) :=
    congrArg Uuid.name hown
  rw [InMemoryCampaignRepository.raiseRecord, reading_bind, hid, hfound, hchange, modify_bind]
  cases hsuppressed : change.suppressed with
  | true => exact ⟨_, _, rfl, hresult.symm, mirrorsAlerts_set halerts hset (by rw [hname]), rfl, rfl⟩
  | false =>
    obtain ⟨id, events, hpublish⟩ := publish_returns haddressed change.eventType "alerts.events.v1"
      (.alert change.alert.alertId) (.alert (alertPayload change.alert) trigger.reason) now
      { m with
        alerts := m.alerts.set (campaign.campaignId, trigger.alertType) (alertPayload change.alert)
        alertHistory := m.alertHistory ++ [(change.alert.alertId, change.alert.severity, false)] }
    exact ⟨_, _, bind_of_ok hpublish, hresult.symm, mirrorsAlerts_set halerts hset (by rw [hname]),
      rfl, rfl⟩

/-- **The alerts of a score are raised alike.** -/
theorem raiseRecords_alike (hsame : SameSettings sql memory) (haddressed : evidence.Addressed)
    (hfollows : Follows sql triggers t) (halerts : MirrorsAlerts t m)
    (hid : record.campaignId = campaign.campaignId) {alerts : List AlertTrigger}
    {results : List (AlertRecord × Option DomainEventId)}
    (hloop : forEach (sql.raiseAlert campaign evidence now) alerts t = (.ok results, t')) :
    ∃ results' m', forEach (memory.raiseRecord record evidence now) alerts m = (.ok results', m') ∧
      results'.map Prod.fst = results.map Prod.fst ∧ RaisedAlike t' m m' := by
  induction alerts generalizing t m triggers results with
  | nil =>
    obtain ⟨hresults, rfl⟩ := Prod.mk.inj hloop
    rw [← Except.ok.inj hresults]
    exact ⟨[], m, rfl, rfl, halerts, rfl, rfl⟩
  | cons trigger alerts ih =>
    obtain ⟨result, rest, mid, hraise, hrest, rfl⟩ := forEach_cons_eq_ok.mp hloop
    obtain ⟨result', m₁, hraise', hresult, hraised⟩ :=
      raiseRecord_alike hsame haddressed hfollows halerts hid hraise
    obtain ⟨rest', m₂, hrest', hrests, hraised'⟩ :=
      ih (follows_raiseAlert hfollows hraise) hraised.alerts hrest
    refine ⟨result' :: rest', m₂, forEach_cons_eq_ok.mpr ⟨_, _, m₁, hraise', hrest', rfl⟩, ?_,
      hraised'.alerts, hraised'.campaigns_eq.trans hraised.campaigns_eq,
      hraised'.evidence_eq.trans hraised.evidence_eq⟩
    rw [List.map_cons, List.map_cons, hresult, hrests]

/-! ## Campaigns -/

/-- The campaign that evidence leaves in memory. -/
def placedRecord (evidence : CampaignEvidence) (assessment : CampaignAssessment) :
    Option CampaignRecord → CampaignRecord
  | none => openedRecord evidence assessment
  | some existing => updatedRecord existing evidence assessment

/-- A campaign is written in memory. -/
theorem placeRecord_returns (haddressed : evidence.Addressed) (assessment : CampaignAssessment)
    (now : Datetime) (existing : Option CampaignRecord) (m : MemoryStore) :
    ∃ placed m', placeRecord evidence assessment now existing m =
        (.ok (placedRecord evidence assessment existing, placed), m') ∧
      m'.campaigns = m.campaigns.set (evidence.scopeId, evidence.assetId)
        (placedRecord evidence assessment existing) ∧
      m'.alerts = m.alerts ∧ m'.evidenceIds = m.evidenceIds := by
  cases existing with
  | none =>
    obtain ⟨id, events, hpublish⟩ := publish_returns haddressed .campaignCreated
      "campaign.events.v1" (.campaign (openedRecord evidence assessment).campaignId)
      (.campaign (openedRecord evidence assessment)) now
      { m with
        campaigns := m.campaigns.set (evidence.scopeId, evidence.assetId)
          (openedRecord evidence assessment) }
    have hplace : placeRecord evidence assessment now none m =
        (.ok (openedRecord evidence assessment, [id]), _) := bind_of_ok hpublish
    exact ⟨[id], _, hplace, rfl, rfl, rfl⟩
  | some existing =>
    by_cases hstage : (updatedRecord existing evidence assessment).stage ≠ existing.stage
    · obtain ⟨id, events, hpublish⟩ := publish_returns haddressed .campaignStageChanged
        "campaign.events.v1" (.campaign (updatedRecord existing evidence assessment).campaignId)
        (.campaign (updatedRecord existing evidence assessment)) now
        { m with
          campaigns := m.campaigns.set (evidence.scopeId, evidence.assetId)
            (updatedRecord existing evidence assessment)
          stageHistory := m.stageHistory ++
            [((updatedRecord existing evidence assessment).campaignId, existing.stage,
              (updatedRecord existing evidence assessment).stage)] }
      have hplace : placeRecord evidence assessment now (some existing) m =
          (.ok (updatedRecord existing evidence assessment, [id]), _) :=
        (congrFun (if_pos hstage) m).trans (bind_of_ok hpublish)
      exact ⟨[id], _, hplace, rfl, rfl, rfl⟩
    · have hplace : placeRecord evidence assessment now (some existing) m =
          (.ok (updatedRecord existing evidence assessment, []), _) :=
        congrFun (if_neg hstage) m
      exact ⟨[], _, hplace, rfl, rfl, rfl⟩

/-- The campaigns of the other scopes and assets. -/
theorem get?_of_placed_of_ne (hkeys : CampaignsKeyed t)
    {campaigns : OrderedDict CampaignId CampaignModel} {stages : List CampaignStageHistoryModel}
    (hplaced : Placed sql evidence t.campaigns
      (t.selectActive evidence.scopeId evidence.assetId) row campaigns stages)
    {id : CampaignId} {other : CampaignModel}
    (hother : ¬ (other.scopeId = evidence.scopeId ∧ other.assetId = evidence.assetId)) :
    campaigns.get? id = some other ↔ t.campaigns.get? id = some other := by
  have hset : ∀ {d : OrderedDict CampaignId CampaignModel} (new : CampaignModel),
      new.scopeId = evidence.scopeId ∧ new.assetId = evidence.assetId →
      (∀ old, d.get? new.campaignId = some old →
        old.scopeId = evidence.scopeId ∧ old.assetId = evidence.assetId) →
      ((d.set new.campaignId new).get? id = some other ↔ d.get? id = some other) := by
    intro d new hnew hold
    rw [OrderedDict.get?_set]
    split_ifs with hid
    · rw [hid]
      refine iff_of_false (fun heq => hother ?_) fun heq => hother (hold other heq)
      rw [← Option.some.inj heq]
      exact hnew
    · exact Iff.rfl
  generalize hactive : t.selectActive evidence.scopeId evidence.assetId = active at hplaced
  cases hplaced with
  | opened assessment hassess hfresh =>
    exact hset _ ⟨rfl, rfl⟩ fun old hold => absurd (hfresh.symm.trans hold) (by simp)
  | reopened old assessment hgap hassess hfresh =>
    obtain ⟨hget, hscope, hasset, -⟩ := selectActive_eq_some hkeys hactive
    refine (hset (openedCampaign evidence assessment) ⟨rfl, rfl⟩ fun old' hold' =>
      absurd (hfresh.symm.trans hold') (by simp)).trans ?_
    refine hset (closedCampaign old) ⟨hscope, hasset⟩ fun old' hold' => ?_
    rw [← Option.some.inj (hget.symm.trans hold')]
    exact ⟨hscope, hasset⟩
  | continued old assessment hgap hassess =>
    obtain ⟨hget, hscope, hasset, -⟩ := selectActive_eq_some hkeys hactive
    refine hset (updatedCampaign old evidence assessment) ⟨hscope, hasset⟩
      fun old' hold' => ?_
    rw [← Option.some.inj (hget.symm.trans hold')]
    exact ⟨hscope, hasset⟩

/-- The active campaigns of the other scopes and assets stay. -/
theorem selectActive_of_placed_of_ne (hkeys : CampaignsKeyed t) (hone : OneActive t.campaigns)
    {stages : List CampaignStageHistoryModel}
    (hplaced : Placed sql evidence t.campaigns
      (t.selectActive evidence.scopeId evidence.assetId) row t'.campaigns stages)
    {scopeId assetId : String}
    (hkey : (scopeId, assetId) ≠ (evidence.scopeId, evidence.assetId)) :
    t'.selectActive scopeId assetId = t.selectActive scopeId assetId := by
  have hkeys' := keyed_of_placed hkeys hplaced
  have hne : ∀ {other : CampaignModel}, other.scopeId = scopeId → other.assetId = assetId →
      ¬ (other.scopeId = evidence.scopeId ∧ other.assetId = evidence.assetId) := by
    rintro other rfl rfl ⟨hscope, hasset⟩
    exact hkey (Prod.ext hscope hasset)
  cases hselect : t.selectActive scopeId assetId with
  | some other =>
    obtain ⟨hget, rfl, rfl, hstatus⟩ := selectActive_eq_some hkeys hselect
    exact selectActive_of_active hkeys' (oneActive_of_placed hkeys hone hplaced)
      ((get?_of_placed_of_ne hkeys hplaced (hne rfl rfl)).mpr hget) hstatus
  | none =>
    cases hselect' : t'.selectActive scopeId assetId with
    | none => rfl
    | some other =>
      obtain ⟨hget, rfl, rfl, hstatus⟩ := selectActive_eq_some hkeys' hselect'
      have hget' := (get?_of_placed_of_ne hkeys hplaced (hne rfl rfl)).mp hget
      exact absurd ⟨rfl, rfl, hstatus⟩ (selectActive_eq_none hselect hget')

/-! ## A call -/

/-- A call that does not meet a difference between the two repositories. -/
structure Comparable (sql : SqlCampaignRepository) (call : Call) (t : Tables) : Prop where
  lock : sql.getsLock call.granted = true
  addressed : call.evidence.Addressed
  recordedHere : ∀ prior, t.evidence.get? call.evidence.eventId = some prior →
    ∃ campaign ∈ t.selectActive call.evidence.scopeId call.evidence.assetId,
      campaign.campaignId = prior.campaignId
  staleWithinGap : ¬ t.Recorded call.evidence.eventId →
    ∀ campaign ∈ t.selectActive call.evidence.scopeId call.evidence.assetId,
      isStaleCampaignEvidence campaign call.evidence = true →
        ¬ sql.mergeGap < call.evidence.eventTime - campaign.lastEvidenceAt
  accepted : ¬ t.Recorded call.evidence.eventId →
    ¬ ((nextStage (currentStage (sql.remaining call.evidence
        (t.selectActive call.evidence.scopeId call.evidence.assetId)))
          call.evidence.fusion).1 = .coordinatedAmplification ∧
      1 < orZero call.evidence.fusion.coordinationScore)

/-- The campaign in memory, unless its merge gap has elapsed, is the one in the database. -/
theorem withinGap_mirrors (hsame : SameSettings sql memory) (evidence : CampaignEvidence)
    {existing : Option CampaignRecord} {active : Option CampaignModel}
    (h : existing.map CampaignRecord.toCampaignPayload = active.map campaignPayload) :
    (memory.withinGap evidence existing).map CampaignRecord.toCampaignPayload =
      (sql.remaining evidence active).map campaignPayload := by
  have hgap : memory.mergeGap = sql.mergeGap := congrArg timedeltaSeconds hsame.mergeGapSeconds
  cases existing with
  | none =>
    cases active with
    | none => rfl
    | some old => exact absurd h (by simp)
  | some record =>
    cases active with
    | none => exact absurd h (by simp)
    | some old =>
      have hpayload : record.toCampaignPayload = campaignPayload old := Option.some.inj h
      have htime : record.lastEvidenceAt = old.lastEvidenceAt :=
        congrArg CampaignPayload.lastEvidenceAt hpayload
      rw [InMemoryCampaignRepository.withinGap, SqlCampaignRepository.remaining, Option.filter_some,
        Option.filter_some, hgap, htime]
      split_ifs
      · exact h
      · rfl

theorem recordStage_mirrors {existing : Option CampaignRecord} {active : Option CampaignModel}
    (h : existing.map CampaignRecord.toCampaignPayload = active.map campaignPayload) :
    recordStage existing = currentStage active := by
  cases existing with
  | none =>
    cases active with
    | none => rfl
    | some old => exact absurd h (by simp)
  | some record =>
    cases active with
    | none => exact absurd h (by simp)
    | some old => exact congrArg CampaignPayload.stage (Option.some.inj h)

/-- Staleness is read off the payload. -/
theorem isStaleCampaignRecord_eq (h : record.toCampaignPayload = campaignPayload campaign) :
    isStaleCampaignRecord record evidence = isStaleCampaignEvidence campaign evidence := by
  rw [isStaleCampaignRecord, h]
  rfl

theorem mem_insert_iff_recorded (h : ∀ key, key ∈ m.evidenceIds ↔ t.Recorded key)
    {row : CampaignEvidenceModel} (ht : t'.evidence = t.evidence.set evidence.eventId row)
    (key : String) : key ∈ insert evidence.eventId m.evidenceIds ↔ t'.Recorded key := by
  rw [Tables.Recorded, ht, Finset.mem_insert, OrderedDict.get?_set, h]
  by_cases hkey : key = evidence.eventId
  · simp [hkey]
  · simp [hkey, Tables.Recorded]

/-- Applying evidence is alike: the campaign is placed and its alerts are raised. -/
theorem applyRecord_alike (hsame : SameSettings sql memory) (haddressed : evidence.Addressed)
    (hreached : Reached sql t) (hmirrors : Mirrors t m) {alerts : List AlertRecord}
    {assessment : CampaignAssessment} {existing : Option CampaignRecord}
    (happlied : AppliedTo sql evidence now row alerts t t')
    (halerts : assessment.alerts = CampaignStateMachine.alerts evidence.fusion)
    (hrow : (placedRecord evidence assessment existing).toCampaignPayload = campaignPayload row) :
    ∃ v m', memory.applyRecord evidence assessment now existing
        { m with evidenceIds := insert evidence.eventId m.evidenceIds } = (.ok v, m') ∧
      v.campaign.toCampaignPayload = campaignPayload row ∧ v.alerts = alerts ∧
      v.duplicateEvidence = false ∧ v.staleEvidence = false ∧ Mirrors t' m' := by
  obtain ⟨triggers, hfollows⟩ := hreached.follows
  obtain ⟨stages, -, hplaced⟩ := happlied.placed
  obtain ⟨mid, results, hmid, hhistory, ⟨rows, houtbox, hrows⟩, hloop, rfl⟩ := happlied.raised
  obtain ⟨placed, m₁, hplace, hcampaigns, halerts₁, hevidence⟩ := placeRecord_returns haddressed
    assessment now existing { m with evidenceIds := insert evidence.eventId m.evidenceIds }
  have hmidAlerts : MirrorsAlerts mid m₁ := by
    intro id
    rw [hmid, halerts₁]
    exact hmirrors.alerts id
  obtain ⟨results', m₂, hloop', hresults, hraised⟩ := raiseRecords_alike hsame haddressed
    (hfollows.announced hmid hhistory houtbox hrows) hmidAlerts
    (congrArg CampaignPayload.campaignId hrow) hloop
  rw [← halerts] at hloop'
  have happly : memory.applyRecord evidence assessment now existing
      { m with evidenceIds := insert evidence.eventId m.evidenceIds } = (.ok
        { campaign := placedRecord evidence assessment existing
          alerts := results'.map Prod.fst
          emittedEventIds := placed ++ results'.filterMap Prod.snd }, m₂) := by
    refine bind_eq_ok.mpr ⟨_, m₁, hplace, ?_⟩
    exact bind_eq_ok.mpr ⟨results', m₂, hloop', rfl⟩
  refine ⟨_, m₂, happly, hrow, hresults, rfl, rfl, ?_, hraised.alerts, ?_⟩
  · intro scopeId assetId
    rw [hraised.campaigns_eq, hcampaigns]
    by_cases hkey : (scopeId, assetId) = (evidence.scopeId, evidence.assetId)
    · obtain ⟨rfl, rfl⟩ := Prod.mk.inj hkey
      rw [(stale_after hreached.accounted.keyed hreached.oneActive happlied).1,
        OrderedDict.get?_set_self]
      exact congrArg some hrow
    · rw [OrderedDict.get?_set_of_ne _ _ hkey,
        selectActive_of_placed_of_ne hreached.accounted.keyed hreached.oneActive hplaced hkey]
      exact hmirrors.campaigns scopeId assetId
  · intro key
    rw [hraised.evidence_eq, hevidence]
    exact mem_insert_iff_recorded hmirrors.evidence happlied.evidence_eq key

/-- The campaign that is placed in memory is the row that is placed in the database. -/
theorem placedRecord_eq {campaigns campaigns' : OrderedDict CampaignId CampaignModel}
    {active : Option CampaignModel} {stages : List CampaignStageHistoryModel}
    (hplaced : Placed sql evidence campaigns active row campaigns' stages)
    {existing : Option CampaignRecord}
    (h : existing.map CampaignRecord.toCampaignPayload =
      (sql.remaining evidence active).map campaignPayload) :
    ∃ assessment, assess (recordStage existing) evidence.fusion = .ok assessment ∧
      (placedRecord evidence assessment existing).toCampaignPayload = campaignPayload row := by
  rw [recordStage_mirrors h]
  cases hplaced with
  | opened assessment hassess hfresh =>
    cases existing with
    | none => exact ⟨assessment, hassess, rfl⟩
    | some record => exact absurd h (by simp [SqlCampaignRepository.remaining])
  | reopened old assessment hgap hassess hfresh =>
    have hnone : sql.remaining evidence (some old) = none := by
      rw [SqlCampaignRepository.remaining, Option.filter_some, decide_eq_true hgap]
      rfl
    rw [hnone] at h ⊢
    cases existing with
    | none => exact ⟨assessment, hassess, rfl⟩
    | some record => exact absurd h (by simp)
  | continued old assessment hgap hassess =>
    have hsome : sql.remaining evidence (some old) = some old := by
      rw [SqlCampaignRepository.remaining, Option.filter_some, decide_eq_false hgap]
      rfl
    rw [hsome] at h ⊢
    cases existing with
    | none => exact absurd h (by simp)
    | some record =>
      have hpayload : record.toCampaignPayload = campaignPayload old := Option.some.inj h
      have hstage : (if assessment.nextStage ≠ old.stage then assessment.nextStage else old.stage) =
          assessment.nextStage := by
        split_ifs with hne
        · rfl
        · exact (not_not.mp hne).symm
      refine ⟨assessment, hassess, ?_⟩
      rw [placedRecord, updatedRecord, hpayload]
      rw [campaignPayload, updatedCampaign, hstage]
      rfl

/-- Evidence that is new in memory, once the state machine has accepted its score. -/
theorem applyUnseen_eq {existing : Option CampaignRecord} {assessment : CampaignAssessment}
    (hassess : assess (recordStage (memory.withinGap evidence existing)) evidence.fusion =
      .ok assessment) :
    memory.applyUnseen evidence now existing m =
      (match memory.withinGap evidence existing with
        | none => memory.applyRecord evidence assessment now none
        | some record =>
          if isStaleCampaignRecord record evidence then
            pure { campaign := record, staleEvidence := true }
          else memory.applyRecord evidence assessment now (some record))
        { m with evidenceIds := insert evidence.eventId m.evidenceIds } := by
  rw [InMemoryCampaignRepository.applyUnseen, modify_bind, hassess]
  rfl

/-- **A comparable call is answered alike**, and keeps the mirror. -/
theorem mirrors_perform (hsame : SameSettings sql memory) (hreached : Reached sql t)
    (hmirrors : Mirrors t m) (hcomparable : Comparable sql call t) :
    ∃ u t' v m', sql.perform call t = (.ok u, t') ∧ memory.perform call m = (.ok v, m') ∧
      SameAnswer u v ∧ Mirrors t' m' := by
  have hkeys := hreached.accounted.keyed
  obtain ⟨triggers, hfollows⟩ := hreached.follows
  have hfresh : ∀ {key : String}, t.evidence.get? key = none → ¬ t.Recorded key := by
    rintro key hnone ⟨other, hother⟩
    exact absurd (hnone.symm.trans hother) (by simp)
  have hexisting := hmirrors.campaigns call.evidence.scopeId call.evidence.assetId
  generalize hget : m.campaigns.get? (call.evidence.scopeId, call.evidence.assetId) = existing
    at hexisting
  obtain ⟨u, t', hok⟩ := perform_returns hreached.accounted hfollows hcomparable.lock
    hcomparable.addressed fun hnone _ =>
      (CampaignStateMachine.assess_succeeds_iff _ _).mpr (hcomparable.accepted (hfresh hnone))
  have hstep := applyStep_of_ok hok
  -- the call in memory, when the evidence is new
  have hnew : ¬ t.Recorded call.evidence.eventId →
      memory.perform call m = memory.applyUnseen call.evidence call.now existing m := by
    intro hnot
    rw [InMemoryCampaignRepository.perform, InMemoryCampaignRepository.apply, reading_bind,
      reading_bind, hget, if_neg]
    rw [decide_eq_true_eq, hmirrors.evidence]
    exact hnot
  cases hstep with
  | duplicate prior campaign _ hprior hcampaign hupdate =>
    obtain ⟨record, hrecord, rfl⟩ := hupdate
    obtain ⟨active, hactive, hid⟩ := hcomparable.recordedHere prior hprior
    obtain ⟨hfound, -⟩ := selectActive_eq_some hkeys hactive
    rw [hid] at hfound
    obtain rfl : active = campaign := Option.some.inj (hfound.symm.trans hcampaign)
    rw [Option.mem_def.mp hactive] at hexisting
    obtain ⟨shown, rfl, hshown⟩ := Option.map_eq_some_iff.mp hexisting
    have hseen : call.evidence.eventId ∈ m.evidenceIds :=
      (hmirrors.evidence _).mpr ⟨prior, hprior⟩
    have hmemory : memory.perform call m =
        (.ok { campaign := shown, duplicateEvidence := true }, m) := by
      rw [InMemoryCampaignRepository.perform, InMemoryCampaignRepository.apply, reading_bind,
        reading_bind, hget, if_pos (decide_eq_true hseen)]
      rfl
    exact ⟨_, _, _, _, hok, hmemory, ⟨hshown.trans hrecord.symm, rfl, rfl, rfl⟩, hmirrors⟩
  | stale campaign _ hnone hactive hstale hupdate =>
    obtain ⟨record, hrecord, rfl⟩ := hupdate
    have hnot := hfresh hnone
    have hwithin := withinGap_mirrors hsame call.evidence hexisting
    obtain ⟨assessment, hassess⟩ :=
      (CampaignStateMachine.assess_succeeds_iff _ _).mpr (hcomparable.accepted hnot)
    rw [← recordStage_mirrors hwithin] at hassess
    have hremaining : sql.remaining call.evidence (some campaign) = some campaign := by
      rw [SqlCampaignRepository.remaining, Option.filter_some,
        decide_eq_false (hcomparable.staleWithinGap hnot campaign hactive hstale)]
      rfl
    rw [hactive, hremaining] at hwithin
    obtain ⟨shown, hsome, hshown⟩ := Option.map_eq_some_iff.mp hwithin
    have hmemory : memory.perform call m = (.ok { campaign := shown, staleEvidence := true },
        { m with evidenceIds := insert call.evidence.eventId m.evidenceIds }) := by
      rw [hnew hnot, applyUnseen_eq hassess, hsome]
      dsimp only
      rw [isStaleCampaignRecord_eq hshown, if_pos hstale]
      rfl
    exact ⟨_, _, _, _, hok, hmemory, ⟨hshown.trans hrecord.symm, rfl, rfl, rfl⟩,
      hmirrors.campaigns, hmirrors.alerts, mem_insert_iff_recorded hmirrors.evidence rfl⟩
  | applied row _ _ happlied hupdate =>
    have hnot := hfresh happlied.fresh
    have hwithin := withinGap_mirrors hsame call.evidence hexisting
    obtain ⟨stages, -, hplaced⟩ := happlied.placed
    obtain ⟨assessment, hassess, hrow⟩ := placedRecord_eq hplaced hwithin
    have halerts : assessment.alerts = CampaignStateMachine.alerts call.evidence.fusion := by
      rw [CampaignStateMachine.assess_eq_ok.mp hassess]
      rfl
    obtain ⟨v, m', happly, hcampaign, halertsEq, hduplicate, hstale, hmirrors'⟩ :=
      applyRecord_alike hsame hcomparable.addressed hreached hmirrors happlied halerts hrow
    have hmemory : memory.perform call m = (.ok v, m') := by
      rw [hnew hnot, applyUnseen_eq hassess, ← happly]
      cases hexists : memory.withinGap call.evidence existing with
      | none => rfl
      | some record =>
        -- the campaign in memory is the active one, which does not find the evidence stale
        rw [hexists] at hwithin
        obtain ⟨old, hold, hpayload⟩ := Option.map_eq_some_iff.mp hwithin.symm
        have hnotStale := happlied.notStale old (Option.filter_eq_some_iff.mp hold).1
        dsimp only
        rw [isStaleCampaignRecord_eq hpayload.symm, hnotStale]
        rfl
    exact ⟨_, _, v, m', hok, hmemory,
      ⟨hcampaign.trans hupdate.1.symm, halertsEq, hduplicate.trans hupdate.2.1.symm,
        hstale.trans hupdate.2.2.symm⟩, hmirrors'⟩

/-! ## Runs -/

/-- Two outcomes that are both answers, and the same. -/
def SameOutcome (x y : Except PyError CampaignUpdate) : Prop :=
  ∃ u v, x = .ok u ∧ y = .ok v ∧ SameAnswer u v

/-- No call of a run meets a difference. -/
def ComparableRun (sql : SqlCampaignRepository) (calls : List Call) : Prop :=
  ∀ earlier call later, calls = earlier ++ call :: later →
    Comparable sql call (runAll sql.perform earlier .empty).2

theorem mirrors_empty : Mirrors .empty .empty where
  campaigns _ _ := rfl
  alerts _ := rfl
  evidence key := iff_of_false (Finset.notMem_empty key) fun h => by
    obtain ⟨row, hrow⟩ := h
    exact absurd hrow (by simp [Tables.empty])

theorem forall₂_concat {α β : Type*} {R : α → β → Prop} {as : List α} {bs : List β} {a : α} {b : β}
    (h : List.Forall₂ R as bs) (hab : R a b) : List.Forall₂ R (as ++ [a]) (bs ++ [b]) := by
  induction h with
  | nil => exact .cons hab .nil
  | cons hhead _ ih => exact .cons hhead ih

/-- **The repository in memory answers a run as the one in the database does**, when no call of the
run meets a difference between the two. -/
theorem answers_run (hsame : SameSettings sql memory) {calls : List Call}
    (hcomparable : ComparableRun sql calls) :
    List.Forall₂ SameOutcome (runAll sql.perform calls .empty).1
        (runAll memory.perform calls .empty).1 ∧
      Mirrors (runAll sql.perform calls .empty).2 (runAll memory.perform calls .empty).2 := by
  induction calls using List.reverseRecOn with
  | nil => exact ⟨.nil, mirrors_empty⟩
  | append_singleton calls call ih =>
    have hearlier : ComparableRun sql calls := by
      rintro earlier other later rfl
      exact hcomparable earlier other (later ++ [call]) (by simp)
    obtain ⟨houtcomes, hmirrors⟩ := ih hearlier
    obtain ⟨u, t', v, m', hok, hmemory, hanswer, hmirrors'⟩ := mirrors_perform hsame
      ⟨calls, rfl⟩ hmirrors (hcomparable calls call [] (by simp))
    rw [runAll_append, runAll_append, runAll_cons, runAll_cons, hok, hmemory]
    exact ⟨forall₂_concat houtcomes ⟨u, v, rfl, rfl, hanswer⟩, hmirrors'⟩

/-- One score is comparable. -/
theorem answers_run_seeding :
    SameSettings {} {} ∧ ComparableRun {} [seedingCall] ∧
      List.Forall₂ SameOutcome (runAll ({} : SqlCampaignRepository).perform [seedingCall] .empty).1
          (runAll ({} : InMemoryCampaignRepository).perform [seedingCall] .empty).1 ∧
        Mirrors (runAll ({} : SqlCampaignRepository).perform [seedingCall] .empty).2
          (runAll ({} : InMemoryCampaignRepository).perform [seedingCall] .empty).2 := by
  have hcomparable : ComparableRun {} [seedingCall] := by
    intro earlier call later hcalls
    obtain ⟨rfl, rfl, rfl⟩ : earlier = [] ∧ seedingCall = call ∧ later = [] := by
      rcases earlier with _ | ⟨other, earlier⟩
      · obtain ⟨hcall, hlater⟩ := List.cons.inj hcalls
        exact ⟨rfl, hcall, hlater.symm⟩
      · exact absurd (List.cons.inj hcalls).2 (by simp)
    refine ⟨rfl, ⟨by decide, by decide⟩, ?_, ?_, fun _ => by decide +kernel⟩
    · intro prior hprior
      exact absurd hprior (by simp [Tables.empty])
    · intro _ campaign hcampaign
      exact absurd hcampaign (by simp [Tables.selectActive, Tables.empty, OrderedDict.empty])
  exact ⟨⟨rfl, rfl⟩, hcomparable, answers_run ⟨rfl, rfl⟩ hcomparable⟩

/-- A score, another one an hour later, and the first one once more. -/
def lateRepeat : List Call :=
  let first : Call :=
    { evidence := windowEvidence "first" (windowScore 60 60000000 none none .watch) 60000000
      granted := fun _ => true
      now := 60000000 }
  [first,
    { evidence := windowEvidence "second" (windowScore 60 3660000000 none none .watch) 3660000000
      granted := fun _ => true
      now := 3660000000 },
    first]

/-- The campaign of an answer. -/
def answeredCampaign (outcome : Except PyError CampaignUpdate) : Option CampaignId :=
  outcome.toOption.map fun update => update.campaign.campaignId

/-- **A late repeat is answered with another campaign.**  The database answers with the campaign that
the score was recorded under, which has been closed; the repository in memory with the one that has
taken its place. -/
theorem late_repeat_differs :
    SameSettings {} {} ∧
      (∀ call ∈ lateRepeat, call.evidence.cutoff = call.evidence.eventTime) ∧
      (runAll ({} : SqlCampaignRepository).perform lateRepeat .empty).1.map answeredCampaign =
        [some ⟨("LIVE", "asset", "first")⟩, some ⟨("LIVE", "asset", "second")⟩,
          some ⟨("LIVE", "asset", "first")⟩] ∧
      (runAll ({} : InMemoryCampaignRepository).perform lateRepeat .empty).1.map answeredCampaign =
        [some ⟨("LIVE", "asset", "first")⟩, some ⟨("LIVE", "asset", "second")⟩,
          some ⟨("LIVE", "asset", "second")⟩] ∧
      ¬ List.Forall₂ SameOutcome (runAll ({} : SqlCampaignRepository).perform lateRepeat .empty).1
        (runAll ({} : InMemoryCampaignRepository).perform lateRepeat .empty).1 := by
  have hsql : (runAll ({} : SqlCampaignRepository).perform lateRepeat .empty).1.map
      answeredCampaign =
        [some ⟨("LIVE", "asset", "first")⟩, some ⟨("LIVE", "asset", "second")⟩,
          some ⟨("LIVE", "asset", "first")⟩] := by decide +kernel
  have hmemory : (runAll ({} : InMemoryCampaignRepository).perform lateRepeat .empty).1.map
      answeredCampaign =
        [some ⟨("LIVE", "asset", "first")⟩, some ⟨("LIVE", "asset", "second")⟩,
          some ⟨("LIVE", "asset", "second")⟩] := by decide +kernel
  have hmap : ∀ {xs ys : List (Except PyError CampaignUpdate)}, List.Forall₂ SameOutcome xs ys →
      xs.map answeredCampaign = ys.map answeredCampaign := by
    intro xs ys h
    induction h with
    | nil => rfl
    | cons hhead _ ih =>
      obtain ⟨u, v, rfl, rfl, hanswer⟩ := hhead
      rw [List.map_cons, List.map_cons, ih]
      exact congrArg (· :: _)
        (congrArg some (congrArg CampaignPayload.campaignId hanswer.campaign).symm)
  refine ⟨⟨rfl, rfl⟩, ?_, hsql, hmemory, fun h => ?_⟩
  · intro call hcall
    simp only [lateRepeat, List.mem_cons, List.not_mem_nil, or_false] at hcall
    rcases hcall with rfl | rfl | rfl <;> rfl
  · have hsame := hmap h
    rw [hsql, hmemory] at hsame
    exact absurd hsame (by decide)

end Campaigns
end Scam2Market
