import Scam2Market.Campaigns.Invariants

/-!
# Versions of alerts

The version of an alert is the length of its history, so a row of the history stands for the version
that its trigger has produced.

* `Tells t event`: an alert event names a version of its alert, and the evidence of that version.
* `Extends evidence t t'`: from `t` to `t'` the histories have grown by rows about the evidence.
* `traced_perform`: what a call adds to the histories and to the alert events, and that an alert takes
  each evidence once (`DistinctEvidence`).
-/

namespace Scam2Market
namespace Campaigns

open Intelligence (RiskLevel)
open Library (OrderedDict)
open Library.Procedure
open SqlCampaignRepository
open Streaming (EventType)

variable {repo : SqlCampaignRepository} {call : Call} {evidence : CampaignEvidence}
  {campaign : CampaignModel} {trigger : AlertTrigger} {now : Datetime} {t t' t'' : Tables}
  {triggers : AlertId → List (Datetime × RiskLevel)} {id : AlertId}

/-! ## Versions and events -/

/-- The version of an alert, before which it has none. -/
def Tables.versionOf (id : AlertId) (t : Tables) : ℕ :=
  ((t.alerts.get? id).map AlertModel.version).getD 0

/-- The alert events of the outbox, in the order they were emitted in. -/
def alertLog (t : Tables) : List DomainEvent :=
  (t.outbox.filter fun row => row.topic = "alerts.events.v1").map EventOutboxModel.envelope

/-- The events that are about a version of an alert. -/
def alertEventTypes : List EventType :=
  [.alertCreated, .alertSeverityChanged, .alertRefreshed]

/-- An event names a version of its alert, and the evidence of that version. -/
def Tells (t : Tables) (event : DomainEvent) : Prop :=
  event.eventType ∈ alertEventTypes ∧
    ∃ (record : AlertRecord) (scopeId assetId : String) (stage : CampaignStage) (reason : String)
      (k : ℕ) (row : AlertStateHistoryModel),
      event.payload = .alert record scopeId assetId stage reason row.evidenceEventId ∧
        record.version = k + 1 ∧ (t.alertHistoryOf record.alertId)[k]? = some row

/-- No alert has taken an evidence twice. -/
def DistinctEvidence (t : Tables) : Prop :=
  ∀ id, ((t.alertHistoryOf id).map AlertStateHistoryModel.evidenceEventId).Nodup

/-- The histories have grown by rows about the evidence, for alerts of the campaign. -/
def Extends (eventId : String) (campaignId : CampaignId) (t t' : Tables) : Prop :=
  ∀ id, ∃ rows, t'.alertHistoryOf id = t.alertHistoryOf id ++ rows ∧
    ∀ row ∈ rows, row.evidenceEventId = eventId ∧ id.name.1 = campaignId

/-- A row of the alerts is what its triggers say. -/
theorem Follows.standing (h : Follows repo triggers t) {alert : AlertModel}
    (hget : t.alerts.get? id = some alert) :
    ∃ alarm, AlertStanding id (triggers id).length alert alarm := by
  have hrow := (h id).row
  rw [hget] at hrow
  generalize (Library.Cooldown.run repo.suppression (triggers id)).1 = alarm at hrow
  cases hrow with
  | some hstanding => exact ⟨_, hstanding⟩

/-- The version of an alert is the length of its history. -/
theorem versionOf_eq (h : Follows repo triggers t) (id : AlertId) :
    t.versionOf id = (t.alertHistoryOf id).length := by
  have hlength : (t.alertHistoryOf id).length = (triggers id).length := by
    rw [← Library.Cooldown.length_log repo.suppression (triggers id), ← (h id).history,
      List.length_map]
  rw [hlength]
  unfold Tables.versionOf
  cases hget : t.alerts.get? id with
  | none =>
    have hrow := (h id).row
    rw [hget] at hrow
    cases hrun : (Library.Cooldown.run repo.suppression (triggers id)).1 with
    | none => rw [Library.Cooldown.alarm_eq_none_iff.mp hrun]; rfl
    | some alarm =>
      rw [hrun] at hrow
      cases hrow
  | some alert =>
    obtain ⟨alarm, hstanding⟩ := h.standing hget
    exact hstanding.version

theorem Extends.refl (eventId : String) (campaignId : CampaignId) (t : Tables) :
    Extends eventId campaignId t t :=
  fun id => ⟨[], (List.append_nil _).symm, fun _ hrow => absurd hrow List.not_mem_nil⟩

theorem Extends.trans {eventId : String} {campaignId : CampaignId}
    (h : Extends eventId campaignId t t') (h' : Extends eventId campaignId t' t'') :
    Extends eventId campaignId t t'' := by
  intro id
  obtain ⟨rows, hrows, habout⟩ := h id
  obtain ⟨rows', hrows', habout'⟩ := h' id
  refine ⟨rows ++ rows', by rw [hrows', hrows, List.append_assoc], fun row hrow => ?_⟩
  exact (List.mem_append.mp hrow).elim (habout row) (habout' row)

theorem Extends.getElem? {eventId : String} {campaignId : CampaignId}
    (h : Extends eventId campaignId t t') {k : ℕ} {row : AlertStateHistoryModel}
    (hrow : (t.alertHistoryOf id)[k]? = some row) : (t'.alertHistoryOf id)[k]? = some row := by
  obtain ⟨rows, hrows, -⟩ := h id
  rw [hrows, List.getElem?_append_left (List.getElem?_eq_some_iff.mp hrow).1, hrow]

/-- What an event tells stays true. -/
theorem Tells.extend {eventId : String} {campaignId : CampaignId} {event : DomainEvent}
    (htells : Tells t event) (h : Extends eventId campaignId t t') : Tells t' event := by
  obtain ⟨htype, record, scopeId, assetId, stage, reason, k, row, hpayload, hversion, hrow⟩ := htells
  exact ⟨htype, record, scopeId, assetId, stage, reason, k, row, hpayload, hversion, h.getElem? hrow⟩

/-! ## One trigger -/

/-- The evidence of a trigger is new to its alert. -/
theorem raiseAlert_new {result : AlertRecord × Option DomainEventId}
    (h : repo.raiseAlert campaign evidence now trigger t = (.ok result, t')) :
    ∀ row ∈ t.alertHistory,
      row.alertId = (repo.alertChange campaign evidence trigger
        (t.selectAlert campaign.campaignId trigger.alertType)).alert.alertId →
        row.evidenceEventId ≠ evidence.eventId := by
  obtain ⟨⟨record, event⟩, t₁, hupsert, h⟩ := bind_eq_ok.mp h
  obtain ⟨found, t₂, hread, hupsert⟩ := bind_eq_ok.mp hupsert
  obtain ⟨hfound, rfl⟩ := Prod.mk.inj hread
  obtain rfl : t.selectAlert campaign.campaignId trigger.alertType = found :=
    Except.ok.inj hfound
  obtain ⟨u, t₃, hstore, hupsert⟩ := bind_eq_ok.mp hupsert
  obtain ⟨u', t₄, hhistory, hupsert⟩ := bind_eq_ok.mp hupsert
  obtain ⟨hfree, -⟩ := addRow_eq_ok.mp hhistory
  rw [storeAlert_ok hstore] at hfree
  intro row hrow hown heq
  have hnot := List.any_eq_false.mp hfree row hrow
  exact hnot (decide_eq_true ⟨hown, heq⟩)

theorem alertLog_append {rows : List EventOutboxModel} (h : t'.outbox = t.outbox ++ rows) :
    alertLog t' = alertLog t ++
      (rows.filter fun row => row.topic = "alerts.events.v1").map EventOutboxModel.envelope := by
  rw [alertLog, h, List.filter_append, List.map_append]
  rfl

/-- How the histories and the alert events stand, and that they have grown from `t`. -/
structure Traced (eventId : String) (campaignId : CampaignId) (t t' : Tables) : Prop where
  grown : Extends eventId campaignId t t'
  tells : ∀ event ∈ alertLog t', Tells t' event
  distinct : DistinctEvidence t'

/-- Raising an alert adds a version with its evidence, and an event that tells it. -/
theorem traced_raiseAlert {result : AlertRecord × Option DomainEventId} (h : Follows repo triggers t)
    (htells : ∀ event ∈ alertLog t, Tells t event) (hdistinct : DistinctEvidence t)
    (hraise : repo.raiseAlert campaign evidence now trigger t = (.ok result, t')) :
    Traced evidence.eventId campaign.campaignId t t' := by
  have hnew := raiseAlert_new hraise
  have hid := alertId_alertChange h campaign evidence trigger
  have hversion : (repo.alertChange campaign evidence trigger
      (t.selectAlert campaign.campaignId trigger.alertType)).alert.version =
        (t.alertHistoryOf (alertIdOf campaign trigger)).length + 1 := by
    rw [← versionOf_eq h, selectAlert_eq h]
    unfold Tables.versionOf alertIdOf
    cases t.alerts.get? ⟨(campaign.campaignId, trigger.alertType)⟩ <;> rfl
  have htype : (repo.alertChange campaign evidence trigger
      (t.selectAlert campaign.campaignId trigger.alertType)).eventType ∈ alertEventTypes := by
    cases t.selectAlert campaign.campaignId trigger.alertType with
    | none => exact List.mem_cons_self
    | some alert =>
      show (if _ then EventType.alertSeverityChanged else .alertRefreshed) ∈ alertEventTypes
      split_ifs <;> decide
  obtain ⟨-, -, hhistory, rows, houtbox, hrows⟩ := raiseAlert_ok hraise
  generalize repo.alertChange campaign evidence trigger
    (t.selectAlert campaign.campaignId trigger.alertType) = change at *
  have hhistoryOf : ∀ id, t'.alertHistoryOf id = t.alertHistoryOf id ++
      if alertIdOf campaign trigger = id then [alertHistoryRow evidence change] else [] := by
    intro id
    rw [Tables.alertHistoryOf, hhistory, List.filter_append, List.filter_singleton]
    simp [Tables.alertHistoryOf, alertHistoryRow, hid]
  have hextends : Extends evidence.eventId campaign.campaignId t t' := by
    intro id
    refine ⟨_, hhistoryOf id, fun row hrow => ?_⟩
    split_ifs at hrow with hown
    · rw [List.mem_singleton.mp hrow, ← hown]
      exact ⟨rfl, rfl⟩
    · exact absurd hrow List.not_mem_nil
  refine ⟨hextends, fun event hevent => ?_, fun id => ?_⟩
  · rw [alertLog_append houtbox] at hevent
    rcases List.mem_append.mp hevent with hevent | hevent
    · exact (htells event hevent).extend hextends
    · rcases hrows with ⟨-, rfl⟩ | ⟨-, made, rfl, hmade⟩
      · exact absurd hevent List.not_mem_nil
      · obtain rfl : event = made := by simpa [outboxRow] using hevent
        refine ⟨hmade.type_eq ▸ htype, _, _, _, _, _,
          (t.alertHistoryOf (alertIdOf campaign trigger)).length, alertHistoryRow evidence change,
          hmade.payload_eq, hversion, ?_⟩
        show (t'.alertHistoryOf change.alert.alertId)[_]? = _
        rw [hid, hhistoryOf, if_pos rfl, List.getElem?_concat_length]
  · rw [hhistoryOf]
    split_ifs with hown
    · rw [List.map_append, List.nodup_append]
      refine ⟨hdistinct id, List.nodup_singleton _, ?_⟩
      intro old hold new hnew' heq
      obtain ⟨row, hrow, rfl⟩ := List.mem_map.mp hold
      rw [List.map_singleton, List.mem_singleton] at hnew'
      obtain ⟨hmem, hrowId⟩ := List.mem_filter.mp hrow
      refine hnew row hmem ?_ (heq.trans hnew')
      rw [hid, hown]
      exact of_decide_eq_true hrowId
    · rw [List.append_nil]
      exact hdistinct id

/-! ## A call -/

/-- The loop over the triggers of a score. -/
theorem traced_forEach {alerts : List AlertTrigger}
    {results : List (AlertRecord × Option DomainEventId)} (h : Follows repo triggers t)
    (htells : ∀ event ∈ alertLog t, Tells t event) (hdistinct : DistinctEvidence t)
    (hloop : forEach (repo.raiseAlert campaign evidence now) alerts t = (.ok results, t')) :
    Traced evidence.eventId campaign.campaignId t t' := by
  induction alerts generalizing t triggers results with
  | nil =>
    obtain rfl : t = t' := congrArg Prod.snd hloop
    exact ⟨.refl _ _ _, htells, hdistinct⟩
  | cons trigger alerts ih =>
    obtain ⟨result, rest, mid, hraise, hrest, -⟩ := forEach_cons_eq_ok.mp hloop
    have hfirst := traced_raiseAlert h htells hdistinct hraise
    have hlater := ih (follows_raiseAlert h hraise) hfirst.tells hfirst.distinct hrest
    exact ⟨hfirst.grown.trans hlater.grown, hlater.tells, hlater.distinct⟩

/-- What a call has recorded of its evidence. -/
def RecordedFor (evidence : CampaignEvidence) (campaignId : CampaignId) (t : Tables) : Prop :=
  ∃ row, t.evidence.get? evidence.eventId = some row ∧ row.evidenceJson = evidence.fusion ∧
    row.campaignId = campaignId

/-- **What a call adds to the alerts**: rows about its evidence, which it has recorded, and events that
tell the new versions. -/
theorem traced_perform (h : Follows repo triggers t) (htells : ∀ event ∈ alertLog t, Tells t event)
    (hdistinct : DistinctEvidence t) :
    ∃ campaignId, Traced call.evidence.eventId campaignId t (repo.perform call t).2 ∧
      ((∀ id, (repo.perform call t).2.alertHistoryOf id = t.alertHistoryOf id) ∨
        RecordedFor call.evidence campaignId (repo.perform call t).2) ∧
      ∀ key row, t.evidence.get? key = some row →
        (repo.perform call t).2.evidence.get? key = some row := by
  have hquiet : ∀ t₁ : Tables, t₁.alertHistory = t.alertHistory → t₁.outbox = t.outbox →
      ∀ campaignId, Traced call.evidence.eventId campaignId t t₁ ∧
        ∀ id, t₁.alertHistoryOf id = t.alertHistoryOf id := by
    intro t₁ hhistory houtbox campaignId
    have hsame : ∀ id, t₁.alertHistoryOf id = t.alertHistoryOf id := fun id => by
      rw [Tables.alertHistoryOf, hhistory]
      rfl
    have hgrown : Extends call.evidence.eventId campaignId t t₁ := fun id =>
      ⟨[], by rw [hsame, List.append_nil], fun _ hrow => absurd hrow List.not_mem_nil⟩
    refine ⟨⟨hgrown, fun event hevent => ?_, fun id => ?_⟩, hsame⟩
    · rw [alertLog, houtbox] at hevent
      exact (htells event hevent).extend hgrown
    · rw [hsame]
      exact hdistinct id
  have hkept : ∀ {row' : CampaignEvidenceModel}, t.evidence.get? call.evidence.eventId = none →
      ∀ key row, t.evidence.get? key = some row →
        (t.evidence.set call.evidence.eventId row').get? key = some row := by
    intro row' hfresh key row hrow
    rw [OrderedDict.get?_set_of_ne _ _ fun heq => ?_, hrow]
    rw [heq, hfresh] at hrow
    cases hrow
  rcases perform_cases repo call t with ⟨e, herror⟩ | ⟨update, t', hok, hstep⟩
  · rw [herror]
    obtain ⟨htraced, hsame⟩ := hquiet t rfl rfl ⟨("", "", "")⟩
    exact ⟨_, htraced, Or.inl hsame, fun _ _ hrow => hrow⟩
  · rw [hok]
    cases hstep with
    | duplicate prior campaign _ hprior hcampaign hupdate =>
      obtain ⟨htraced, hsame⟩ := hquiet t rfl rfl ⟨("", "", "")⟩
      exact ⟨_, htraced, Or.inl hsame, fun _ _ hrow => hrow⟩
    | stale campaign _ hfresh hactive hstale hupdate =>
      obtain ⟨htraced, hsame⟩ := hquiet { t with
        evidence := t.evidence.set call.evidence.eventId
          (evidenceRow call.evidence campaign.campaignId) } rfl rfl ⟨("", "", "")⟩
      exact ⟨_, htraced, Or.inl hsame, hkept hfresh⟩
    | applied row _ _ happlied hupdate =>
      obtain ⟨mid, results, halerts, hhistory, ⟨rows, houtbox, hrows⟩, hloop, -⟩ :=
        happlied.raised
      have hfollows : Follows repo triggers mid := h.announced halerts hhistory houtbox hrows
      have hsilent : alertLog mid = alertLog t := by
        rw [alertLog_append houtbox]
        have hnone : rows.filter (fun row => decide (row.topic = "alerts.events.v1")) = [] := by
          refine List.filter_eq_nil_iff.mpr fun other hother htopic => ?_
          rw [(hrows other hother).1] at htopic
          exact absurd htopic (by decide)
        rw [hnone]
        exact List.append_nil _
      have hmid : ∀ id, mid.alertHistoryOf id = t.alertHistoryOf id := fun id => by
        rw [Tables.alertHistoryOf, hhistory]
        rfl
      have hgrown : Extends call.evidence.eventId row.campaignId t mid := fun id =>
        ⟨[], by rw [hmid, List.append_nil], fun _ hrow => absurd hrow List.not_mem_nil⟩
      have htraced := traced_forEach hfollows
        (fun event hevent => (htells event (hsilent ▸ hevent)).extend hgrown)
        (fun id => by rw [hmid]; exact hdistinct id) hloop
      refine ⟨row.campaignId, ⟨hgrown.trans htraced.grown, htraced.tells, htraced.distinct⟩,
        Or.inr ⟨evidenceRow call.evidence row.campaignId, ?_, rfl, rfl⟩, ?_⟩
      · show t'.evidence.get? _ = _
        rw [happlied.evidence_eq, OrderedDict.get?_set_self]
      · show ∀ key row, _ → t'.evidence.get? key = some row
        rw [happlied.evidence_eq]
        exact hkept happlied.fresh

end Campaigns
end Scam2Market
