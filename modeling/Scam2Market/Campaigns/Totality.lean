import Scam2Market.Campaigns.Invariants

/-!
# Calls that return

* `Accounted`: every row of the tables is about evidence that has been recorded, so a row about new
  evidence never meets a unique key that is taken.
* `perform_returns`: a call that gets the lock returns, when events can be made about its evidence
  and the state machine accepts its score.
-/

namespace Scam2Market
namespace Campaigns

open Intelligence (InUnit RiskLevel)
open Library (OrderedDict)
open Library.Procedure
open SqlCampaignRepository
open Streaming (EventFields EventType ReplayMetadata)
open CampaignStateMachine (assess)

variable {repo : SqlCampaignRepository} {call : Call} {evidence : CampaignEvidence}
  {now : Datetime} {t t' : Tables}

/-! ## Rows about recorded evidence -/

/-- Evidence has been recorded. -/
def Tables.Recorded (key : String) (t : Tables) : Prop :=
  ∃ row, t.evidence.get? key = some row

/-- The evidence that an event is about. -/
def sourceEvidence (id : DomainEventId) : String :=
  id.name.2.2.2

/-- Every row is about evidence that has been recorded. -/
structure Accounted (t : Tables) : Prop where
  keyed : CampaignsKeyed t
  confidence : ∀ id row, t.campaigns.get? id = some row → InUnit row.stageConfidence
  campaigns : ∀ id row, t.campaigns.get? id = some row → t.Recorded id.name.2.2
  evidence : ∀ key row, t.evidence.get? key = some row →
    ∃ campaign, t.campaigns.get? row.campaignId = some campaign
  stages : ∀ row ∈ t.stageHistory, t.Recorded row.evidenceEventId
  history : ∀ row ∈ t.alertHistory, t.Recorded row.evidenceEventId
  outbox : ∀ row ∈ t.outbox, t.Recorded (sourceEvidence row.eventId)

theorem accounted_empty : Accounted .empty where
  keyed := keyed_empty
  confidence _ _ h := absurd h (by simp [Tables.empty])
  campaigns _ _ h := absurd h (by simp [Tables.empty])
  evidence _ _ h := absurd h (by simp [Tables.empty])
  stages _ h := absurd h List.not_mem_nil
  history _ h := absurd h List.not_mem_nil
  outbox _ h := absurd h List.not_mem_nil

section Set

variable {row : CampaignEvidenceModel}
  (hevidence : t'.evidence = t.evidence.set evidence.eventId row)
include hevidence

theorem recorded_self : t'.Recorded evidence.eventId :=
  ⟨row, by rw [hevidence, OrderedDict.get?_set_self]⟩

theorem recorded_of_recorded {key : String} (h : t.Recorded key) : t'.Recorded key := by
  obtain ⟨other, hother⟩ := h
  by_cases hkey : key = evidence.eventId
  · rw [hkey]
    exact recorded_self hevidence
  · exact ⟨other, by rw [hevidence, OrderedDict.get?_set_of_ne _ _ hkey, hother]⟩

end Set

/-- Where the campaigns come from after evidence has been placed. -/
theorem campaigns_of_placed (h : Accounted t) {row : CampaignModel}
    {campaigns : OrderedDict CampaignId CampaignModel} {stages : List CampaignStageHistoryModel}
    (hplaced : Placed repo evidence t.campaigns
      (t.selectActive evidence.scopeId evidence.assetId) row campaigns stages)
    {id : CampaignId} {new : CampaignModel} (hget : campaigns.get? id = some new) :
    InUnit new.stageConfidence ∧
      (id.name.2.2 = evidence.eventId ∨ ∃ old, t.campaigns.get? id = some old) := by
  have hset : ∀ {d : OrderedDict CampaignId CampaignModel} {id' : CampaignId}
      {other : CampaignModel}, (d.set id' other).get? id = some new →
      (id = id' ∧ other = new) ∨ d.get? id = some new := by
    intro d id' other hset
    rw [OrderedDict.get?_set] at hset
    split_ifs at hset with hid
    · exact Or.inl ⟨hid, Option.some.inj hset⟩
    · exact Or.inr hset
  generalize hactive : t.selectActive evidence.scopeId evidence.assetId = active at hplaced
  cases hplaced with
  | opened assessment hassess hfresh =>
    rcases hset hget with ⟨rfl, rfl⟩ | hold
    · exact ⟨assessment.stageConfidence_mem, Or.inl rfl⟩
    · exact ⟨h.confidence id new hold, Or.inr ⟨new, hold⟩⟩
  | reopened old assessment hgap hassess hfresh =>
    obtain ⟨hold, -⟩ := selectActive_eq_some h.keyed hactive
    rcases hset hget with ⟨rfl, rfl⟩ | hget
    · exact ⟨assessment.stageConfidence_mem, Or.inl rfl⟩
    · rcases hset hget with ⟨rfl, rfl⟩ | hold'
      · exact ⟨h.confidence _ old hold, Or.inr ⟨old, hold⟩⟩
      · exact ⟨h.confidence id new hold', Or.inr ⟨new, hold'⟩⟩
  | continued old assessment hgap hassess =>
    obtain ⟨hold, -⟩ := selectActive_eq_some h.keyed hactive
    rcases hset hget with ⟨rfl, rfl⟩ | hold'
    · exact ⟨assessment.stageConfidence_mem, Or.inr ⟨old, hold⟩⟩
    · exact ⟨h.confidence id new hold', Or.inr ⟨new, hold'⟩⟩

/-- The row that evidence leaves, and the changes of stage. -/
theorem row_of_placed {campaigns campaigns' : OrderedDict CampaignId CampaignModel}
    {active : Option CampaignModel} {row : CampaignModel} {stages : List CampaignStageHistoryModel}
    (hplaced : Placed repo evidence campaigns active row campaigns' stages) :
    campaigns'.get? row.campaignId = some row ∧
      ∀ stage ∈ stages, stage.evidenceEventId = evidence.eventId := by
  cases hplaced with
  | opened assessment | reopened old assessment =>
    refine ⟨OrderedDict.get?_set_self _ _ _, fun stage hstage => ?_⟩
    rw [List.mem_singleton.mp hstage]
    rfl
  | continued old assessment =>
    refine ⟨OrderedDict.get?_set_self _ _ _, fun stage hstage => ?_⟩
    split_ifs at hstage
    · rw [List.mem_singleton.mp hstage]
      rfl
    · exact absurd hstage List.not_mem_nil

/-- Raising alerts adds rows about the evidence only. -/
theorem rows_of_raiseAlerts {campaign : CampaignModel} {alerts : List AlertTrigger}
    {results : List (AlertRecord × Option DomainEventId)}
    (h : forEach (repo.raiseAlert campaign evidence now) alerts t = (.ok results, t')) :
    (∀ row ∈ t'.alertHistory, row ∈ t.alertHistory ∨ row.evidenceEventId = evidence.eventId) ∧
      ∀ row ∈ t'.outbox, row ∈ t.outbox ∨ sourceEvidence row.eventId = evidence.eventId := by
  induction alerts generalizing t results with
  | nil =>
    obtain rfl : t = t' := congrArg Prod.snd h
    exact ⟨fun row hrow => Or.inl hrow, fun row hrow => Or.inl hrow⟩
  | cons trigger alerts ih =>
    obtain ⟨result, rest, mid, hraise, hrest, -⟩ := forEach_cons_eq_ok.mp h
    obtain ⟨-, -, hhistory, rows, houtbox, hrows⟩ := raiseAlert_ok hraise
    obtain ⟨hhistory', houtbox'⟩ := ih hrest
    constructor
    · intro row hrow
      rcases hhistory' row hrow with hmid | hown
      · rw [hhistory] at hmid
        rcases List.mem_append.mp hmid with hmem | hmem
        · exact Or.inl hmem
        · rw [List.mem_singleton.mp hmem]
          exact Or.inr rfl
      · exact Or.inr hown
    · intro row hrow
      rcases houtbox' row hrow with hmid | hown
      · rw [houtbox] at hmid
        rcases List.mem_append.mp hmid with hmem | hmem
        · exact Or.inl hmem
        · rcases hrows with ⟨-, rfl⟩ | ⟨-, event, rfl, hevent⟩
          · exact absurd hmem List.not_mem_nil
          · rw [List.mem_singleton.mp hmem]
            exact Or.inr (congrArg sourceEvidence hevent.id_eq)
      · exact Or.inr hown

/-- Applying evidence accounts for the rows it adds. -/
theorem accounted_of_appliedTo {row : CampaignModel} {alerts : List AlertRecord} (h : Accounted t)
    (happlied : AppliedTo repo evidence now row alerts t t') : Accounted t' := by
  obtain ⟨stages, hstages, hplaced⟩ := happlied.placed
  obtain ⟨mid, results, -, hhistory, ⟨rows, houtbox, hrows⟩, hloop, -⟩ := happlied.raised
  obtain ⟨hhistory', houtbox'⟩ := rows_of_raiseAlerts hloop
  have hself : t'.Recorded evidence.eventId := recorded_self happlied.evidence_eq
  have hkeep : ∀ {key}, t.Recorded key → t'.Recorded key := fun hkey =>
    recorded_of_recorded happlied.evidence_eq hkey
  refine ⟨keyed_of_placed h.keyed hplaced, ?_, ?_, ?_, ?_, ?_, ?_⟩
  · intro id new hget
    exact (campaigns_of_placed h hplaced hget).1
  · intro id new hget
    rcases (campaigns_of_placed h hplaced hget).2 with hid | ⟨old, hold⟩
    · rw [hid]
      exact hself
    · exact hkeep (h.campaigns id old hold)
  · intro key other hget
    rw [happlied.evidence_eq, OrderedDict.get?_set] at hget
    split_ifs at hget with hkey
    · rw [← Option.some.inj hget]
      exact ⟨row, (row_of_placed hplaced).1⟩
    · obtain ⟨campaign, hcampaign⟩ := h.evidence key other hget
      obtain ⟨new, hnew, -⟩ := stage_of_placed h.keyed hplaced hcampaign
      exact ⟨new, hnew⟩
  · intro stage hstage
    rw [hstages] at hstage
    rcases List.mem_append.mp hstage with hmem | hmem
    · exact hkeep (h.stages stage hmem)
    · rw [(row_of_placed hplaced).2 stage hmem]
      exact hself
  · intro entry hentry
    rcases hhistory' entry hentry with hmem | hown
    · rw [hhistory] at hmem
      exact hkeep (h.history entry hmem)
    · rw [hown]
      exact hself
  · intro event hevent
    rcases houtbox' event hevent with hmem | hown
    · rw [houtbox] at hmem
      rcases List.mem_append.mp hmem with hmem | hmem
      · exact hkeep (h.outbox event hmem)
      · obtain ⟨-, campaignId, eventType, payload, hof, hid⟩ := hrows event hmem
        rw [hid, hof.id_eq]
        exact hself
    · rw [hown]
      exact hself

/-- **Every call accounts for the rows it adds.** -/
theorem accounted_perform (h : Accounted t) : Accounted (repo.perform call t).2 := by
  rcases perform_cases repo call t with ⟨e, herror⟩ | ⟨update, t', hok, hstep⟩
  · rw [herror]
    exact h
  · rw [hok]
    cases hstep with
    | duplicate => exact h
    | stale campaign _ hfresh hactive hstale hupdate =>
      obtain ⟨hcampaign, -⟩ := selectActive_eq_some h.keyed hactive
      refine ⟨h.keyed, h.confidence, ?_, ?_, ?_, ?_, ?_⟩
      · exact fun id row hget => recorded_of_recorded rfl (h.campaigns id row hget)
      · intro key other hget
        replace hget : (t.evidence.set call.evidence.eventId
          (evidenceRow call.evidence campaign.campaignId)).get? key = some other := hget
        rw [OrderedDict.get?_set] at hget
        split_ifs at hget with hkey
        · rw [← Option.some.inj hget]
          exact ⟨campaign, hcampaign⟩
        · exact h.evidence key other hget
      · exact fun row hrow => recorded_of_recorded rfl (h.stages row hrow)
      · exact fun row hrow => recorded_of_recorded rfl (h.history row hrow)
      · exact fun row hrow => recorded_of_recorded rfl (h.outbox row hrow)
    | applied row _ _ happlied => exact accounted_of_appliedTo h happlied

theorem accounted_run (repo : SqlCampaignRepository) (calls : List Call) :
    Accounted (runAll repo.perform calls .empty).2 :=
  runAll_invariant accounted_empty fun _ _ _ h => accounted_perform h

/-! ## Evidence that no row is about -/

/-- Evidence that events can be made about. -/
structure CampaignEvidence.Addressed (evidence : CampaignEvidence) : Prop where
  scope_ne : evidence.scopeId ≠ ""
  asset_nonblank : isBlank evidence.assetId = false

/-- No row is about the evidence, but for the events that `made` allows. -/
structure Unseen (evidence : CampaignEvidence) (made : DomainEventId → Prop) (t : Tables) :
    Prop where
  fresh : t.evidence.get? evidence.eventId = none
  campaigns : ∀ id, id.name.2.2 = evidence.eventId → t.campaigns.get? id = none
  stages : ∀ row ∈ t.stageHistory, row.evidenceEventId ≠ evidence.eventId
  history : ∀ row ∈ t.alertHistory, row.evidenceEventId ≠ evidence.eventId
  outbox : ∀ row ∈ t.outbox, sourceEvidence row.eventId = evidence.eventId → made row.eventId

theorem Accounted.unseen (h : Accounted t) (hfresh : t.evidence.get? evidence.eventId = none) :
    Unseen evidence (fun _ => False) t := by
  have hnot : ∀ {key}, t.Recorded key → key ≠ evidence.eventId := by
    rintro key ⟨row, hrow⟩ rfl
    exact absurd (hfresh.symm.trans hrow) (by simp)
  refine ⟨hfresh, ?_, ?_, ?_, ?_⟩
  · intro id hid
    cases hget : t.campaigns.get? id with
    | none => rfl
    | some row => exact absurd hid (hnot (h.campaigns id row hget))
  · exact fun row hrow => hnot (h.stages row hrow)
  · exact fun row hrow => hnot (h.history row hrow)
  · exact fun row hrow heq => hnot (h.outbox row hrow) heq

theorem addRow_of_free {key : String} {taken : Tables → Bool} {add : Tables → Tables}
    (h : taken t = false) : addRow key taken add t = (.ok (), add t) :=
  addRow_eq_ok.mpr ⟨h, rfl⟩

theorem domainEvent_returns {π : Type} (haddressed : evidence.Addressed) (eventType : EventType)
    (topic : String) (entityId : EntityId) (payload : π) (now : Datetime) :
    ∃ event, domainEvent evidence eventType topic entityId payload now = .ok event := by
  obtain ⟨replay, hreplay⟩ := ReplayMetadata.ofScope_succeeds haddressed.scope_ne
  rw [domainEvent, hreplay]
  have hsource : isBlank "campaign-engine-v1" = false := by decide
  exact EventFields.validate_succeeds le_rfl hsource haddressed.asset_nonblank

/-- An event that has not been made is enqueued. -/
theorem enqueue_returns (topic : String) (event : DomainEvent)
    (hfree : ∀ row ∈ t.outbox, row.eventId ≠ event.eventId) :
    enqueue topic event t = (.ok (), { t with outbox := t.outbox ++ [outboxRow topic event] }) := by
  refine addRow_of_free (List.any_eq_false.mpr fun row hrow htaken => ?_)
  exact hfree row hrow (of_decide_eq_true htaken).1

theorem announce_returns (haddressed : evidence.Addressed) (campaignId : CampaignId)
    (eventType : EventType) (payload : DomainPayload) (now : Datetime)
    (hfree : ∀ row ∈ t.outbox, row.eventId ≠
      ⟨("campaign.events.v1", .campaign campaignId, eventType, evidence.eventId)⟩) :
    ∃ id row, announce evidence eventType campaignId payload now t =
        (.ok id, { t with outbox := t.outbox ++ [row] }) ∧
      row.eventId = ⟨("campaign.events.v1", .campaign campaignId, eventType, evidence.eventId)⟩ ∧
      AboutCampaigns evidence [row] := by
  obtain ⟨event, hevent⟩ := domainEvent_returns haddressed eventType "campaign.events.v1"
    (.campaign campaignId) payload now
  have hid := (domainEvent_ok hevent).id_eq
  refine ⟨event.eventId, outboxRow "campaign.events.v1" event, ?_, hid, fun row hrow => ?_⟩
  rotate_left
  · rw [List.mem_singleton.mp hrow]
    exact ⟨rfl, campaignId, eventType, payload, domainEvent_ok hevent, rfl⟩
  rw [announce, hevent, bind_of_ok (ofExcept_apply (.ok event) t),
    bind_of_ok (enqueue_returns _ event fun row hrow => hid ▸ hfree row hrow)]
  rfl

/-! ## The steps of a call return -/

/-- The campaign that is left after an expired one has been closed. -/
def SqlCampaignRepository.remaining (repo : SqlCampaignRepository) (evidence : CampaignEvidence)
    (active : Option CampaignModel) : Option CampaignModel :=
  active.filter fun old => !decide (repo.mergeGap < evidence.eventTime - old.lastEvidenceAt)

/-- An event that closes a campaign. -/
def IsClosing (id : DomainEventId) : Prop :=
  id.name.2.2.1 = .campaignClosed

/-- An event about a campaign. -/
def IsCampaignEvent (id : DomainEventId) : Prop :=
  ∃ campaignId, id.name.2.1 = .campaign campaignId

theorem aboutCampaigns_nil : AboutCampaigns evidence [] := fun _ h => absurd h List.not_mem_nil

theorem closeExpired_returns (haddressed : evidence.Addressed) (now : Datetime)
    (hunseen : Unseen evidence (fun _ => False) t) {active : Option CampaignModel}
    (hactive : ∀ old ∈ active, t.campaigns.get? old.campaignId = some old) :
    ∃ closed t', repo.closeExpired evidence now active t =
        (.ok (repo.remaining evidence active, closed), t') ∧
      Unseen evidence (fun id => IsClosing id ∧ IsCampaignEvent id) t' ∧
      t'.alerts = t.alerts ∧ t'.alertHistory = t.alertHistory ∧
      ∃ rows, t'.outbox = t.outbox ++ rows ∧ AboutCampaigns evidence rows := by
  have hsame : Unseen evidence (fun id => IsClosing id ∧ IsCampaignEvent id) t :=
    { hunseen with outbox := fun row hrow heq => (hunseen.outbox row hrow heq).elim }
  cases active with
  | none => exact ⟨[], t, rfl, hsame, rfl, rfl, [], (List.append_nil _).symm, aboutCampaigns_nil⟩
  | some old =>
    rw [closeExpired]
    by_cases hgap : repo.mergeGap < evidence.eventTime - old.lastEvidenceAt
    · have hnone : repo.remaining evidence (some old) = none := by
        rw [SqlCampaignRepository.remaining, Option.filter_some, decide_eq_true hgap]
        rfl
      rw [if_pos hgap, hnone]
      obtain ⟨id, row, hannounce, hid, habout⟩ := announce_returns
        (t := { t with campaigns := t.campaigns.set old.campaignId (closedCampaign old) })
        haddressed old.campaignId .campaignClosed
        (.campaignClosed old.campaignId "merge gap elapsed") now
        fun row hrow heq => hunseen.outbox row hrow (congrArg sourceEvidence heq)
      have hclose : closeCampaign evidence now old t = (.ok id, { t with
          campaigns := t.campaigns.set old.campaignId (closedCampaign old)
          outbox := t.outbox ++ [row] }) := hannounce
      refine ⟨[id], _, bind_of_ok hclose, ?_, rfl, rfl, [row], rfl, habout⟩
      refine ⟨hunseen.fresh, ?_, hunseen.stages, hunseen.history, ?_⟩
      · intro id' hid'
        have hne : id' ≠ old.campaignId := by
          rintro rfl
          exact absurd ((hunseen.campaigns _ hid').symm.trans (hactive old rfl)) (by simp)
        exact (OrderedDict.get?_set_of_ne _ _ hne).trans (hunseen.campaigns id' hid')
      · intro event hevent heq
        rcases List.mem_append.mp hevent with hmem | hmem
        · exact (hunseen.outbox event hmem heq).elim
        · rw [List.mem_singleton.mp hmem, hid]
          exact ⟨rfl, old.campaignId, rfl⟩
    · have hsome : repo.remaining evidence (some old) = some old := by
        rw [SqlCampaignRepository.remaining, Option.filter_some, decide_eq_false hgap]
        rfl
      rw [if_neg hgap, hsome]
      exact ⟨[], t, rfl, hsame, rfl, rfl, [], (List.append_nil _).symm, aboutCampaigns_nil⟩

/-- Every event about the evidence is about a campaign. -/
def OnlyCampaignEvents (evidence : CampaignEvidence) (t : Tables) : Prop :=
  ∀ row ∈ t.outbox, sourceEvidence row.eventId = evidence.eventId → IsCampaignEvent row.eventId

/-- The only events about the evidence are those that close a campaign. -/
def OnlyClosing (evidence : CampaignEvidence) (t : Tables) : Prop :=
  ∀ row ∈ t.outbox, sourceEvidence row.eventId = evidence.eventId →
    IsClosing row.eventId ∧ IsCampaignEvent row.eventId

theorem onlyCampaignEvents_announce (h : OnlyClosing evidence t) {row : EventOutboxModel}
    {campaignId : CampaignId} {eventType : EventType}
    (hid : row.eventId =
      ⟨("campaign.events.v1", .campaign campaignId, eventType, evidence.eventId)⟩)
    (houtbox : t'.outbox = t.outbox ++ [row]) : OnlyCampaignEvents evidence t' := by
  intro event hevent heq
  rw [houtbox] at hevent
  rcases List.mem_append.mp hevent with hmem | hmem
  · exact (h event hmem heq).2
  · rw [List.mem_singleton.mp hmem, hid]
    exact ⟨campaignId, rfl⟩

/-- An event of another type has not been made. -/
theorem OnlyClosing.free (h : OnlyClosing evidence t) (campaignId : CampaignId)
    {eventType : EventType} (htype : eventType ≠ .campaignClosed) :
    ∀ row ∈ t.outbox, row.eventId ≠
      ⟨("campaign.events.v1", .campaign campaignId, eventType, evidence.eventId)⟩ := by
  intro row hrow heq
  have hclosing := (h row hrow (congrArg sourceEvidence heq)).1
  rw [heq] at hclosing
  exact htype hclosing

theorem addStageHistory_returns
    (hstages : ∀ row ∈ t.stageHistory, row.evidenceEventId ≠ evidence.eventId)
    (row : CampaignStageHistoryModel) (hrow : row.evidenceEventId = evidence.eventId) :
    addStageHistory row t = (.ok (), { t with stageHistory := t.stageHistory ++ [row] }) := by
  refine addRow_of_free (List.any_eq_false.mpr fun other hother htaken => ?_)
  exact hstages other hother ((of_decide_eq_true htaken).2.trans hrow)

/-- What placing evidence leaves alone, and the events it makes. -/
structure PlacedEvents (evidence : CampaignEvidence) (t t' : Tables) : Prop where
  evidence_eq : t'.evidence = t.evidence
  alerts_eq : t'.alerts = t.alerts
  history_eq : t'.alertHistory = t.alertHistory
  outbox_eq : ∃ rows, t'.outbox = t.outbox ++ rows ∧ AboutCampaigns evidence rows
  events : OnlyCampaignEvents evidence t'

theorem openCampaign_returns (haddressed : evidence.Addressed) (assessment : CampaignAssessment)
    (now : Datetime)
    (hcampaign : t.campaigns.get? (openedCampaign evidence assessment).campaignId = none)
    (hstages : ∀ row ∈ t.stageHistory, row.evidenceEventId ≠ evidence.eventId)
    (houtbox : OnlyClosing evidence t) :
    ∃ placed t', openCampaign evidence assessment now t = (.ok placed, t') ∧
      PlacedEvents evidence t t' := by
  have hadd : addCampaign (openedCampaign evidence assessment) t = (.ok (), { t with
      campaigns := t.campaigns.set (openedCampaign evidence assessment).campaignId
        (openedCampaign evidence assessment) }) :=
    addRow_of_free (by rw [hcampaign]; rfl)
  obtain ⟨id, row, hannounce, hid, habout⟩ := announce_returns
    (t := { t with
      campaigns := t.campaigns.set (openedCampaign evidence assessment).campaignId
        (openedCampaign evidence assessment)
      stageHistory := t.stageHistory ++
        [stageHistoryRow (openedCampaign evidence assessment).campaignId none evidence
          assessment] })
    haddressed (openedCampaign evidence assessment).campaignId .campaignCreated
    (.campaignCreated (campaignPayload (openedCampaign evidence assessment))) now
    (houtbox.free _ (by decide))
  have hstage := addStageHistory_returns
    (t := { t with
      campaigns := t.campaigns.set (openedCampaign evidence assessment).campaignId
        (openedCampaign evidence assessment) })
    hstages (stageHistoryRow (openedCampaign evidence assessment).campaignId none evidence
      assessment) rfl
  rw [openCampaign, bind_of_ok hadd, bind_of_ok hstage, bind_of_ok hannounce]
  exact ⟨_, _, rfl, rfl, rfl, rfl, ⟨[row], rfl, habout⟩, onlyCampaignEvents_announce houtbox hid rfl⟩

theorem moveStage_returns (haddressed : evidence.Addressed) (oldStage : CampaignStage)
    (campaign : CampaignModel) (assessment : CampaignAssessment) (now : Datetime)
    (hstages : ∀ row ∈ t.stageHistory, row.evidenceEventId ≠ evidence.eventId)
    (houtbox : OnlyClosing evidence t) :
    ∃ emitted t', moveStage oldStage campaign evidence assessment now t = (.ok emitted, t') ∧
      PlacedEvents evidence t t' := by
  rw [moveStage]
  by_cases hstage : assessment.nextStage ≠ oldStage
  · obtain ⟨id, row, hannounce, hid, habout⟩ := announce_returns
      (t := { t with
        stageHistory := t.stageHistory ++
          [stageHistoryRow campaign.campaignId (some oldStage) evidence assessment] })
      haddressed campaign.campaignId .campaignStageChanged
      (.campaignStageChanged (campaignPayload campaign) oldStage assessment.transitionReason) now
      (houtbox.free _ (by decide))
    rw [if_pos hstage, bind_of_ok (addStageHistory_returns hstages _ rfl), bind_of_ok hannounce]
    exact ⟨[id], _, rfl, rfl, rfl, rfl, ⟨[row], rfl, habout⟩,
      onlyCampaignEvents_announce houtbox hid rfl⟩
  · rw [if_neg hstage]
    exact ⟨[], t, rfl, rfl, rfl, rfl, ⟨[], (List.append_nil _).symm, aboutCampaigns_nil⟩,
      fun row hrow heq => (houtbox row hrow heq).2⟩

/-- Evidence is placed. -/
theorem placeEvidence_returns (haddressed : evidence.Addressed) (assessment : CampaignAssessment)
    (now : Datetime) (active : Option CampaignModel)
    (hcampaign : t.campaigns.get? (openedCampaign evidence assessment).campaignId = none)
    (hstages : ∀ row ∈ t.stageHistory, row.evidenceEventId ≠ evidence.eventId)
    (houtbox : OnlyClosing evidence t) :
    ∃ placed t', placeEvidence evidence assessment now active t = (.ok placed, t') ∧
      PlacedEvents evidence t t' := by
  cases active with
  | none => exact openCampaign_returns haddressed assessment now hcampaign hstages houtbox
  | some old =>
    obtain ⟨emitted, t', hmove, hkept⟩ := moveStage_returns
      (t := { t with campaigns :=
        t.campaigns.set old.campaignId (updatedCampaign old evidence assessment) })
      haddressed old.stage (updatedCampaign old evidence assessment) assessment now hstages houtbox
    have hplace : placeEvidence evidence assessment now (some old) t =
        (.ok (updatedCampaign old evidence assessment, emitted), t') := bind_of_ok hmove
    exact ⟨_, _, hplace, hkept.evidence_eq, hkept.alerts_eq, hkept.history_eq, hkept.outbox_eq,
      hkept.events⟩

/-! ## Raising alerts returns -/

/-- No row about the evidence is about one of the alerts. -/
structure Unraised (evidence : CampaignEvidence) (ids : List AlertId) (t : Tables) : Prop where
  history : ∀ row ∈ t.alertHistory, row.evidenceEventId = evidence.eventId → row.alertId ∉ ids
  outbox : ∀ row ∈ t.outbox, sourceEvidence row.eventId = evidence.eventId →
    ∀ id ∈ ids, row.eventId.name.2.1 ≠ .alert id

variable {campaign : CampaignModel} {trigger : AlertTrigger}
  {triggers : AlertId → List (Datetime × RiskLevel)}

theorem storeAlert_returns {found : Option AlertModel} {alert : AlertModel}
    (h : found = none → t.alerts.get? alert.alertId = none) :
    storeAlert found alert t =
      (.ok (), { t with alerts := t.alerts.set alert.alertId alert }) := by
  cases found with
  | none => exact addRow_of_free (by rw [h rfl]; rfl)
  | some other => rfl

theorem addAlertHistory_returns (row : AlertStateHistoryModel)
    (h : ∀ other ∈ t.alertHistory, other.evidenceEventId = row.evidenceEventId →
      other.alertId ≠ row.alertId) :
    addAlertHistory row t = (.ok (), { t with alertHistory := t.alertHistory ++ [row] }) := by
  refine addRow_of_free (List.any_eq_false.mpr fun other hother htaken => ?_)
  exact h other hother (of_decide_eq_true htaken).2 (of_decide_eq_true htaken).1

theorem alertEvent_returns (haddressed : evidence.Addressed) (campaign : CampaignModel)
    (trigger : AlertTrigger) (change : AlertChange) (now : Datetime) :
    ∃ event, alertEvent campaign evidence trigger change now = .ok event ∧
      ∀ made ∈ event, made.eventId =
        ⟨("alerts.events.v1", .alert change.alert.alertId, change.eventType, evidence.eventId)⟩ := by
  rw [alertEvent]
  by_cases hsuppressed : change.suppressed
  · rw [if_pos hsuppressed]
    exact ⟨none, rfl, fun made hmade => absurd hmade (Option.not_mem_none made)⟩
  · rw [if_neg hsuppressed]
    obtain ⟨event, hevent⟩ := domainEvent_returns haddressed change.eventType "alerts.events.v1"
      (.alert change.alert.alertId) (DomainPayload.alert (alertPayload change.alert)
        campaign.scopeId campaign.assetId campaign.stage trigger.reason evidence.eventId) now
    rw [hevent]
    refine ⟨some event, rfl, fun made hmade => ?_⟩
    rw [← Option.some.inj hmade]
    exact (domainEvent_ok hevent).id_eq

theorem raiseAlert_returns (haddressed : evidence.Addressed) (h : Follows repo triggers t)
    (now : Datetime) (hunraised : Unraised evidence [alertIdOf campaign trigger] t) :
    ∃ result t', repo.raiseAlert campaign evidence now trigger t = (.ok result, t') := by
  have hid := alertId_alertChange h campaign evidence trigger
  generalize hfound : t.selectAlert campaign.campaignId trigger.alertType = found at hid
  generalize hchange : repo.alertChange campaign evidence trigger found = change at hid
  have hstore : storeAlert found change.alert t =
      (.ok (), { t with alerts := t.alerts.set change.alert.alertId change.alert }) := by
    refine storeAlert_returns fun hnone => ?_
    rw [hid]
    exact (selectAlert_eq h _ _).symm.trans (hfound.trans hnone)
  have hhistory := addAlertHistory_returns
    (t := { t with alerts := t.alerts.set change.alert.alertId change.alert })
    (alertHistoryRow evidence change) fun other hother heq hown =>
      hunraised.history other hother heq (List.mem_singleton.mpr (hown.trans hid))
  obtain ⟨event, hevent, hmade⟩ := alertEvent_returns haddressed campaign trigger change now
  have hupsert : repo.upsertAlert campaign evidence now trigger t =
      (.ok (alertPayload change.alert, event), { t with
        alerts := t.alerts.set change.alert.alertId change.alert
        alertHistory := t.alertHistory ++ [alertHistoryRow evidence change] }) := by
    rw [upsertAlert, reading_bind, hfound, hchange, bind_of_ok hstore, bind_of_ok hhistory, hevent]
    rfl
  rw [raiseAlert, bind_of_ok hupsert]
  cases event with
  | none => exact ⟨_, _, rfl⟩
  | some event =>
    have henqueue := enqueue_returns
      (t := { t with
        alerts := t.alerts.set change.alert.alertId change.alert
        alertHistory := t.alertHistory ++ [alertHistoryRow evidence change] })
      "alerts.events.v1" event fun row hrow heq => by
        rw [hmade event rfl] at heq
        refine hunraised.outbox row hrow (congrArg sourceEvidence heq) _
          (List.mem_singleton_self _) ?_
        rw [heq, hid]
    exact ⟨_, _, bind_of_ok henqueue⟩

/-- What is not raised yet stays so when another alert is raised. -/
theorem Unraised.raiseAlert {ids : List AlertId} {result : AlertRecord × Option DomainEventId}
    (hunraised : Unraised evidence ids t) (h : Follows repo triggers t)
    (hraise : repo.raiseAlert campaign evidence now trigger t = (.ok result, t'))
    (hid : alertIdOf campaign trigger ∉ ids) : Unraised evidence ids t' := by
  obtain ⟨-, -, hhistory, rows, houtbox, hrows⟩ := raiseAlert_ok hraise
  have hown := alertId_alertChange h campaign evidence trigger
  constructor
  · intro row hrow heq
    rw [hhistory] at hrow
    rcases List.mem_append.mp hrow with hmem | hmem
    · exact hunraised.history row hmem heq
    · rw [List.mem_singleton.mp hmem]
      exact fun hmem' => hid (hown ▸ hmem')
  · intro row hrow heq
    rw [houtbox] at hrow
    rcases List.mem_append.mp hrow with hmem | hmem
    · exact hunraised.outbox row hmem heq
    · rcases hrows with ⟨-, rfl⟩ | ⟨-, event, rfl, hevent⟩
      · exact absurd hmem List.not_mem_nil
      · intro id hidmem hsame
        rw [List.mem_singleton.mp hmem] at hsame
        have hentity : EntityId.alert (alertIdOf campaign trigger) = .alert id := by
          rw [← hown]
          exact (congrArg (fun made : DomainEventId => made.name.2.1) hevent.id_eq).symm.trans hsame
        exact hid (EntityId.alert.inj hentity ▸ hidmem)

/-- **The loop over the triggers returns.** -/
theorem raiseAlerts_return (haddressed : evidence.Addressed) (campaign : CampaignModel)
    (now : Datetime) {alerts : List AlertTrigger}
    (hnodup : (alerts.map AlertTrigger.alertType).Nodup) (h : Follows repo triggers t)
    (hunraised : Unraised evidence (alerts.map (alertIdOf campaign)) t) :
    ∃ results t', forEach (repo.raiseAlert campaign evidence now) alerts t = (.ok results, t') := by
  induction alerts generalizing t triggers with
  | nil => exact ⟨[], t, rfl⟩
  | cons trigger alerts ih =>
    obtain ⟨hnotin, hnodup⟩ := List.nodup_cons.mp hnodup
    have hfirst : Unraised evidence [alertIdOf campaign trigger] t := by
      refine ⟨fun row hrow heq hmem => hunraised.history row hrow heq ?_,
        fun row hrow heq id hid => hunraised.outbox row hrow heq id ?_⟩
      · rw [List.mem_singleton.mp hmem]
        exact List.mem_cons_self
      · rw [List.mem_singleton.mp hid]
        exact List.mem_cons_self
    have hrest : Unraised evidence (alerts.map (alertIdOf campaign)) t :=
      ⟨fun row hrow heq hmem => hunraised.history row hrow heq (List.mem_cons_of_mem _ hmem),
        fun row hrow heq id hid => hunraised.outbox row hrow heq id (List.mem_cons_of_mem _ hid)⟩
    have hother : alertIdOf campaign trigger ∉ alerts.map (alertIdOf campaign) := by
      intro hmem
      obtain ⟨other, hother, hsame⟩ := List.mem_map.mp hmem
      have htype : other.alertType = trigger.alertType :=
        congrArg (fun id : AlertId => id.name.2) hsame
      exact hnotin (htype ▸ List.mem_map_of_mem hother)
    obtain ⟨result, mid, hraise⟩ := raiseAlert_returns haddressed h now hfirst
    obtain ⟨results, t', hloop⟩ := ih hnodup (follows_raiseAlert h hraise)
      (hrest.raiseAlert h hraise hother)
    exact ⟨result :: results, t', forEach_cons_eq_ok.mpr ⟨result, results, mid, hraise, hloop, rfl⟩⟩

/-! ## Calls return -/

/-- The lock is granted at one of the attempts. -/
def SqlCampaignRepository.getsLock (repo : SqlCampaignRepository) (granted : ℕ → Bool) : Bool :=
  (List.range (repo.lockRetryCount + 1).toNat).any granted

theorem applyFresh_returns (haddressed : evidence.Addressed) (h : Follows repo triggers t)
    (hunseen : Unseen evidence (fun _ => False) t) (now : Datetime) {active : Option CampaignModel}
    (hactive : ∀ old ∈ active, t.campaigns.get? old.campaignId = some old)
    {assessment : CampaignAssessment}
    (hassess : assess (currentStage (repo.remaining evidence active)) evidence.fusion =
      .ok assessment) :
    ∃ applied t', repo.applyFresh evidence now active t = (.ok applied, t') := by
  obtain ⟨closed, t₁, hclose, hunseen₁, halerts₁, hhistory₁, rows, houtbox₁, habout⟩ :=
    closeExpired_returns haddressed now hunseen hactive
  obtain ⟨⟨campaign, placed⟩, t₂, hplace, hplaced⟩ := placeEvidence_returns haddressed assessment now
    (repo.remaining evidence active) (hunseen₁.campaigns _ rfl) hunseen₁.stages hunseen₁.outbox
  have hadd : addEvidence (evidenceRow evidence campaign.campaignId) t₂ = (.ok (), { t₂ with
      evidence := t₂.evidence.set evidence.eventId (evidenceRow evidence campaign.campaignId) }) := by
    refine addRow_of_free ?_
    show (t₂.evidence.get? evidence.eventId).isSome = false
    rw [hplaced.evidence_eq, hunseen₁.fresh]
    rfl
  obtain ⟨rows', houtbox₂, habout'⟩ := hplaced.outbox_eq
  have hfollows : Follows repo triggers { t₂ with
      evidence := t₂.evidence.set evidence.eventId (evidenceRow evidence campaign.campaignId) } :=
    (h.announced halerts₁ hhistory₁ houtbox₁ habout).announced hplaced.alerts_eq
      hplaced.history_eq houtbox₂ habout'
  have halerts : assessment.alerts = CampaignStateMachine.alerts evidence.fusion := by
    rw [CampaignStateMachine.assess_eq_ok.mp hassess]
    rfl
  have hnodup : (assessment.alerts.map AlertTrigger.alertType).Nodup := by
    rw [halerts]
    exact CampaignStateMachine.alerts_nodup evidence.fusion
  have hunraised : Unraised evidence (assessment.alerts.map (alertIdOf campaign)) { t₂ with
      evidence := t₂.evidence.set evidence.eventId (evidenceRow evidence campaign.campaignId) } := by
    refine ⟨fun row hrow heq => ?_, fun row hrow heq id _ hid => ?_⟩
    · exact absurd heq (hunseen₁.history row (hplaced.history_eq ▸ hrow))
    · obtain ⟨campaignId, hcampaign⟩ := hplaced.events row hrow heq
      exact absurd (hcampaign.symm.trans hid) (by simp)
  obtain ⟨results, t', hraise⟩ := raiseAlerts_return haddressed campaign now hnodup hfollows hunraised
  have hfresh : repo.applyFresh evidence now active t = (.ok
      { campaign := campaign
        alerts := results.map Prod.fst
        emittedEventIds := closed ++ placed ++ results.filterMap Prod.snd }, t') := by
    refine bind_eq_ok.mpr ⟨_, t₁, hclose, ?_⟩
    refine bind_eq_ok.mpr ⟨assessment, t₁, Prod.ext hassess rfl, ?_⟩
    refine bind_eq_ok.mpr ⟨_, t₂, hplace, ?_⟩
    refine bind_eq_ok.mpr ⟨(), _, hadd, ?_⟩
    exact bind_eq_ok.mpr ⟨results, t', hraise, rfl⟩
  exact ⟨_, t', hfresh⟩

/-- A lock that is granted is acquired. -/
theorem acquireLock_of_getsLock {granted : ℕ → Bool} (h : repo.getsLock granted = true) :
    repo.acquireLock evidence granted t = (.ok (), t) := by
  rw [getsLock] at h
  rw [acquireLock, if_pos h]
  rfl

theorem campaignRecord_returns {row : CampaignModel} (h : InUnit row.stageConfidence) :
    ∃ record, campaignRecord row = .ok record :=
  ⟨⟨campaignPayload row, h⟩, CampaignPayload.validate_eq_ok.mpr rfl⟩

theorem answerDuplicate_returns (haccounted : Accounted t) {prior : CampaignEvidenceModel}
    (hprior : t.evidence.get? evidence.eventId = some prior) :
    ∃ update, answerDuplicate prior t = (.ok update, t) := by
  obtain ⟨campaign, hcampaign⟩ := haccounted.evidence _ prior hprior
  obtain ⟨record, hrecord⟩ := campaignRecord_returns (haccounted.confidence _ campaign hcampaign)
  refine ⟨{ campaign := record, duplicateEvidence := true }, ?_⟩
  rw [answerDuplicate, reading_bind, hcampaign]
  exact bind_eq_ok.mpr ⟨record, t, Prod.ext hrecord rfl, rfl⟩

theorem recordStale_returns (haccounted : Accounted t) {campaign : CampaignModel}
    (hfresh : t.evidence.get? evidence.eventId = none)
    (hcampaign : t.campaigns.get? campaign.campaignId = some campaign) :
    ∃ update t', recordStale evidence campaign t = (.ok update, t') := by
  obtain ⟨record, hrecord⟩ := campaignRecord_returns (haccounted.confidence _ campaign hcampaign)
  have hadd : addEvidence (evidenceRow evidence campaign.campaignId) t = (.ok (), { t with
      evidence := t.evidence.set evidence.eventId (evidenceRow evidence campaign.campaignId) }) := by
    refine addRow_of_free ?_
    show (t.evidence.get? evidence.eventId).isSome = false
    rw [hfresh]
    rfl
  have hrest : (do
      let record ← ofExcept (campaignRecord campaign)
      return { campaign := record, staleEvidence := true } : SessionM CampaignUpdate) { t with
        evidence := t.evidence.set evidence.eventId (evidenceRow evidence campaign.campaignId) } =
      (.ok { campaign := record, staleEvidence := true }, _) :=
    bind_eq_ok.mpr ⟨record, _, Prod.ext hrecord rfl, rfl⟩
  exact ⟨_, _, bind_eq_ok.mpr ⟨(), _, hadd, hrest⟩⟩

/-- What the block of the session has to return. -/
theorem applyLocked_returns (haccounted : Accounted t) (h : Follows repo triggers t)
    (haddressed : evidence.Addressed) (now : Datetime)
    (hassess : t.evidence.get? evidence.eventId = none →
      (∀ old ∈ t.selectActive evidence.scopeId evidence.assetId,
        isStaleCampaignEvidence old evidence = false) →
      ∃ assessment, assess (currentStage (repo.remaining evidence
        (t.selectActive evidence.scopeId evidence.assetId))) evidence.fusion = .ok assessment) :
    ∃ result t', repo.applyLocked evidence now t = (.ok result, t') := by
  rw [applyLocked, reading_bind]
  cases hprior : t.evidence.get? evidence.eventId with
  | some prior =>
    obtain ⟨update, hanswer⟩ := answerDuplicate_returns haccounted hprior
    exact ⟨_, _, map_of_ok hanswer⟩
  | none =>
    have hunseen := haccounted.unseen hprior
    have hactive : ∀ old ∈ t.selectActive evidence.scopeId evidence.assetId,
        t.campaigns.get? old.campaignId = some old := fun old hold =>
      (selectActive_eq_some haccounted.keyed hold).1
    have hfresh : (∀ old ∈ t.selectActive evidence.scopeId evidence.assetId,
        isStaleCampaignEvidence old evidence = false) →
        ∃ applied t', repo.applyFresh evidence now
          (t.selectActive evidence.scopeId evidence.assetId) t = (.ok applied, t') := by
      intro hstale
      obtain ⟨assessment, hok⟩ := hassess hprior hstale
      exact applyFresh_returns haddressed h hunseen now hactive hok
    dsimp only
    rw [reading_bind]
    cases hselect : t.selectActive evidence.scopeId evidence.assetId with
    | none =>
      rw [hselect] at hfresh
      obtain ⟨applied, t', happlied⟩ := hfresh fun old hold => absurd hold (Option.not_mem_none old)
      exact ⟨_, _, map_of_ok happlied⟩
    | some campaign =>
      rw [hselect] at hfresh hactive
      cases hstale : isStaleCampaignEvidence campaign evidence with
      | true =>
        obtain ⟨update, t', hrecord⟩ := recordStale_returns haccounted hprior (hactive campaign rfl)
        dsimp only
        rw [if_pos hstale]
        exact ⟨_, _, map_of_ok hrecord⟩
      | false =>
        obtain ⟨applied, t', happlied⟩ := hfresh fun old hold => by
          rw [← Option.some.inj hold]
          exact hstale
        dsimp only
        rw [if_neg (by rw [hstale]; decide)]
        exact ⟨_, _, map_of_ok happlied⟩

/-- **A call returns.**  It gets the lock, events can be made about its evidence, and, unless the
evidence has been recorded or is stale, the state machine accepts its score. -/
theorem perform_returns (haccounted : Accounted t) (h : Follows repo triggers t)
    (hlock : repo.getsLock call.granted = true) (haddressed : call.evidence.Addressed)
    (hassess : t.evidence.get? call.evidence.eventId = none →
      (∀ old ∈ t.selectActive call.evidence.scopeId call.evidence.assetId,
        isStaleCampaignEvidence old call.evidence = false) →
      ∃ assessment, assess (currentStage (repo.remaining call.evidence
        (t.selectActive call.evidence.scopeId call.evidence.assetId))) call.evidence.fusion =
          .ok assessment) :
    ∃ update t', repo.perform call t = (.ok update, t') := by
  obtain ⟨result, t', hlocked⟩ :=
    applyLocked_returns haccounted h haddressed call.now hassess
  have hblock : atomically (do
      repo.acquireLock call.evidence call.granted
      repo.applyLocked call.evidence call.now) t = (.ok result, t') :=
    atomically_of_ok (bind_eq_ok.mpr ⟨(), t, acquireLock_of_getsLock hlock, hlocked⟩)
  rw [perform, apply, bind_of_ok hblock]
  cases result with
  | inl update => exact ⟨update, t', rfl⟩
  | inr applied =>
    rcases applyLocked_ok hlocked with ⟨prior, -, update, hresult, -⟩ |
      ⟨-, ⟨campaign, -, -, update, hresult, -⟩ | ⟨applied', hresult, happlied⟩⟩
    · exact absurd hresult (by simp)
    · exact absurd hresult (by simp)
    · obtain rfl := Sum.inr.inj hresult
      obtain ⟨stages, -, hplaced⟩ := happlied.placed
      obtain ⟨record, hrecord⟩ := campaignRecord_returns (inUnit_of_placed hplaced)
      exact ⟨_, t', bind_eq_ok.mpr ⟨record, t', Prod.ext hrecord rfl, rfl⟩⟩

/-! ## Reached tables -/

/-- The tables after some calls. -/
def Reached (repo : SqlCampaignRepository) (t : Tables) : Prop :=
  ∃ calls, (runAll repo.perform calls .empty).2 = t

/-- A delivery that the repository can take: it gets the lock, events can be made about its evidence,
and its score is one that the state machine accepts in every stage. -/
structure SqlCampaignRepository.Takes (repo : SqlCampaignRepository) (call : Call) : Prop where
  lock : repo.getsLock call.granted = true
  addressed : call.evidence.Addressed
  coordination : orZero call.evidence.fusion.coordinationScore ≤ 1

namespace Reached

theorem perform (h : Reached repo t) (call : Call) : Reached repo (repo.perform call t).2 := by
  obtain ⟨calls, rfl⟩ := h
  exact ⟨calls ++ [call], runAll_concat calls call _⟩

theorem accounted (h : Reached repo t) : Accounted t := by
  obtain ⟨calls, rfl⟩ := h
  exact accounted_run repo calls

theorem oneActive (h : Reached repo t) : OneActive t.campaigns := by
  obtain ⟨calls, rfl⟩ := h
  exact oneActive_run repo calls

theorem follows (h : Reached repo t) : ∃ triggers, Follows repo triggers t := by
  obtain ⟨calls, rfl⟩ := h
  exact ⟨_, follows_run repo calls⟩

/-- **A delivery that the repository can take is answered.** -/
theorem answers (h : Reached repo t) (htakes : repo.Takes call) :
    ∃ update t', repo.perform call t = (.ok update, t') ∧ ApplyStep repo call t update t' := by
  obtain ⟨triggers, hfollows⟩ := h.follows
  obtain ⟨update, t', hok⟩ := perform_returns h.accounted hfollows htakes.lock htakes.addressed
    fun _ _ => (CampaignStateMachine.assess_succeeds_iff _ _).mpr fun hboth =>
      absurd hboth.2 (not_lt.mpr htakes.coordination)
  rcases perform_cases repo call t with ⟨e, herror⟩ | ⟨update', t'', hok', hstep⟩
  · exact absurd (congrArg Prod.fst (herror.symm.trans hok)) (by simp)
  · exact ⟨update', t'', hok', hstep⟩

end Reached

end Campaigns
end Scam2Market
