import Scam2Market.Library.Cooldown
import Scam2Market.Campaigns.RepositorySteps

/-!
# Alerts follow their triggers

The rows of an alert, its history and its events in the outbox are those of a notifier with a
cooldown that has been given the triggers of the alert.

* `FollowsAlert repo id triggers t`: the tables show, for the alert `id`, the notifier after
  `triggers`.
* `follows_raiseAlert`: raising an alert is one more trigger for it, and none for the others.
* `follows_forEach`: what the loop over the triggers of a score adds.
-/

namespace Scam2Market
namespace Campaigns

open Intelligence (RiskLevel)
open Library (OrderedDict)
open Library.Cooldown (Alarm Entry Notice respond run)
open Library.Procedure
open Streaming (EventType)
open SqlCampaignRepository

/-! ## What the tables say about an alert -/

/-- The rows of an alert. -/
def Tables.alertRows (id : AlertId) (t : Tables) : List AlertModel :=
  (t.alerts.entries.map Prod.snd).filter fun alert =>
    decide (alert.campaignId = id.name.1 ∧ alert.alertType = id.name.2)

/-- The history of an alert. -/
def Tables.alertHistoryOf (id : AlertId) (t : Tables) : List AlertStateHistoryModel :=
  t.alertHistory.filter fun row => decide (row.alertId = id)

/-- What an event in the outbox says about an alert. -/
def alertEventOf (id : AlertId) (row : EventOutboxModel) : Option (EventType × Datetime) :=
  match row.envelope.payload with
  | .alert alert _ _ _ _ _ =>
    if alert.alertId = id then some (row.envelope.eventType, row.envelope.eventTime) else none
  | _ => none

/-- What the events of the topic of alerts say about an alert. -/
def alertEventsIn (id : AlertId) (rows : List EventOutboxModel) : List (EventType × Datetime) :=
  (rows.filter fun row => decide (row.topic = "alerts.events.v1")).filterMap (alertEventOf id)

/-- The alert events of an alert. -/
def Tables.alertEvents (id : AlertId) (t : Tables) : List (EventType × Datetime) :=
  alertEventsIn id t.outbox

/-- What a row of the history says the trigger meant. -/
def noticeOf (row : AlertStateHistoryModel) : Notice :=
  match row.fromSeverity with
  | none => .created
  | some severity =>
    if row.toSeverity = severity ∧ row.fromStatus = some row.toStatus then .refreshed else .raised

/-- The event type of a notice. -/
def noticeType : Notice → EventType
  | .created => .alertCreated
  | .raised => .alertSeverityChanged
  | .refreshed => .alertRefreshed

/-- A row of the history as an entry of a log. -/
def entryOf (row : AlertStateHistoryModel) : Entry Datetime RiskLevel where
  time := row.changedAt
  before := row.fromSeverity
  after := row.toSeverity
  notice := noticeOf row
  suppressed := row.suppressionReason.isSome

/-- An alert row shows an alarm that has been triggered `n` times. -/
structure AlertStanding (id : AlertId) (n : ℕ) (alert : AlertModel)
    (alarm : Alarm Datetime RiskLevel) : Prop where
  alertId : alert.alertId = id
  campaignId : alert.campaignId = id.name.1
  alertType : alert.alertType = id.name.2
  severity : alert.severity = alarm.level
  status : alert.status = .active
  lastNotifiedAt : alert.lastNotifiedAt = some alarm.notifiedAt
  occurrenceCount : alert.occurrenceCount = n
  version : alert.version = n

/-- The tables show the notifier of an alert after its triggers. -/
structure FollowsAlert (repo : SqlCampaignRepository) (id : AlertId)
    (triggers : List (Datetime × RiskLevel)) (t : Tables) : Prop where
  row : Option.Rel (AlertStanding id triggers.length) (t.alerts.get? id)
    (run repo.suppression triggers).1
  history : (t.alertHistoryOf id).map entryOf = (run repo.suppression triggers).2
  reason : ∀ entry ∈ t.alertHistoryOf id, ∀ text ∈ entry.suppressionReason,
    text = "COOLDOWN"
  events : t.alertEvents id =
    ((run repo.suppression triggers).2.filter fun entry => !entry.suppressed).map fun entry =>
      (noticeType entry.notice, entry.time)

/-- The tables follow the triggers of every alert. -/
def Follows (repo : SqlCampaignRepository) (triggers : AlertId → List (Datetime × RiskLevel))
    (t : Tables) : Prop :=
  ∀ id, FollowsAlert repo id (triggers id) t

variable {repo : SqlCampaignRepository} {evidence : CampaignEvidence} {now : Datetime}
  {campaign : CampaignModel} {trigger : AlertTrigger} {t t' : Tables}
  {triggers : AlertId → List (Datetime × RiskLevel)}

/-- The alert that a trigger is for. -/
def alertIdOf (campaign : CampaignModel) (trigger : AlertTrigger) : AlertId :=
  ⟨(campaign.campaignId, trigger.alertType)⟩

theorem follows_empty (repo : SqlCampaignRepository) : Follows repo (fun _ => []) .empty :=
  fun _ => ⟨Option.Rel.none, rfl, fun _ hentry => absurd hentry List.not_mem_nil, rfl⟩

/-- Alerts stand under their own ids. -/
theorem mem_alertRows_iff (h : Follows repo triggers t) (id : AlertId) :
    ∀ id' alert, t.alerts.get? id' = some alert →
      (decide (alert.campaignId = id.name.1 ∧ alert.alertType = id.name.2) = true ↔ id' = id) := by
  intro id' alert hget
  have hrow := (h id').row
  rw [hget] at hrow
  cases hrun : (run repo.suppression (triggers id')).1 with
  | none =>
    rw [hrun] at hrow
    cases hrow
  | some alarm =>
    rw [hrun] at hrow
    cases hrow with
    | some hstanding =>
      rw [hstanding.campaignId, hstanding.alertType, decide_eq_true_iff]
      constructor
      · rintro ⟨hcampaign, htype⟩
        obtain ⟨name⟩ := id
        obtain ⟨name'⟩ := id'
        exact congrArg Uuid.mk (Prod.ext hcampaign htype)
      · rintro rfl
        exact ⟨rfl, rfl⟩

theorem alertRows_eq (h : Follows repo triggers t) (id : AlertId) :
    t.alertRows id = (t.alerts.get? id).toList :=
  OrderedDict.filter_values_eq (mem_alertRows_iff h id)

theorem selectAlert_eq (h : Follows repo triggers t) (campaignId : CampaignId)
    (alertType : AlertType) :
    t.selectAlert campaignId alertType = t.alerts.get? ⟨(campaignId, alertType)⟩ :=
  OrderedDict.find?_values_eq (mem_alertRows_iff h ⟨(campaignId, alertType)⟩)

/-! ## One trigger -/

theorem storeAlert_ok {found : Option AlertModel} {alert : AlertModel} {u : Unit}
    (h : storeAlert found alert t = (.ok u, t')) :
    t' = { t with alerts := t.alerts.set alert.alertId alert } := by
  cases found with
  | none => exact (addRow_eq_ok.mp h).2
  | some other => exact (congrArg Prod.snd h).symm

/-- What raising an alert writes. -/
theorem raiseAlert_ok {result : AlertRecord × Option DomainEventId}
    (h : repo.raiseAlert campaign evidence now trigger t = (.ok result, t')) :
    let change := repo.alertChange campaign evidence trigger
      (t.selectAlert campaign.campaignId trigger.alertType)
    result.1 = alertPayload change.alert ∧ t'.alerts = t.alerts.set change.alert.alertId change.alert ∧
      t'.alertHistory = t.alertHistory ++ [alertHistoryRow evidence change] ∧
      ∃ rows, t'.outbox = t.outbox ++ rows ∧
        ((change.suppressed = true ∧ rows = []) ∨
          (change.suppressed = false ∧ ∃ event, rows = [outboxRow "alerts.events.v1" event] ∧
            DomainEventOf evidence change.eventType "alerts.events.v1"
              (.alert change.alert.alertId)
              (.alert (alertPayload change.alert) campaign.scopeId campaign.assetId campaign.stage
                trigger.reason evidence.eventId) event)) := by
  intro change
  obtain ⟨⟨record, event⟩, t₁, hupsert, h⟩ := bind_eq_ok.mp h
  obtain ⟨found, t₂, hread, hupsert⟩ := bind_eq_ok.mp hupsert
  obtain ⟨hfound, rfl⟩ := Prod.mk.inj hread
  obtain rfl : t.selectAlert campaign.campaignId trigger.alertType = found :=
    Except.ok.inj hfound
  obtain ⟨u, t₃, hstore, hupsert⟩ := bind_eq_ok.mp hupsert
  obtain ⟨u', t₄, hhistory, hupsert⟩ := bind_eq_ok.mp hupsert
  obtain ⟨made, t₅, hevent, hupsert⟩ := bind_eq_ok.mp hupsert
  obtain ⟨hmade, rfl⟩ := Prod.mk.inj hevent
  obtain ⟨hresult, rfl⟩ := Prod.mk.inj hupsert
  obtain ⟨rfl, rfl⟩ : alertPayload change.alert = record ∧ made = event :=
    Prod.mk.inj (Except.ok.inj hresult)
  obtain ⟨u'', t₆, henqueue, h⟩ := bind_eq_ok.mp h
  obtain ⟨hrecord, rfl⟩ := Prod.mk.inj h
  have hrecord' : result.1 = alertPayload change.alert := by rw [← Except.ok.inj hrecord]
  have hstored : t₃ = { t with alerts := t.alerts.set change.alert.alertId change.alert } :=
    storeAlert_ok hstore
  obtain ⟨-, rfl⟩ := addRow_eq_ok.mp hhistory
  subst hstored
  change alertEvent campaign evidence trigger change now = .ok made at hmade
  rw [alertEvent] at hmade
  cases hsuppressed : change.suppressed with
  | true =>
    rw [if_pos hsuppressed] at hmade
    obtain rfl : none = made := Except.ok.inj hmade
    obtain ⟨-, rfl⟩ := Prod.mk.inj henqueue
    exact ⟨hrecord', rfl, rfl, [], (List.append_nil _).symm, Or.inl ⟨rfl, rfl⟩⟩
  | false =>
    rw [if_neg (by simp [hsuppressed])] at hmade
    rcases hdomain : domainEvent evidence change.eventType "alerts.events.v1"
      (.alert change.alert.alertId) (DomainPayload.alert (alertPayload change.alert) campaign.scopeId
        campaign.assetId campaign.stage trigger.reason evidence.eventId) now with e | event
    · rw [hdomain] at hmade
      exact absurd hmade (by simp [Except.map])
    · rw [hdomain] at hmade
      obtain rfl : some event = made := Except.ok.inj hmade
      rw [enqueue_ok henqueue]
      exact ⟨hrecord', rfl, rfl, _, rfl, Or.inr ⟨rfl, event, rfl, domainEvent_ok hdomain⟩⟩

/-- An alert changes as the alarm it shows responds to the trigger. -/
theorem alertChange_standing (repo : SqlCampaignRepository) (evidence : CampaignEvidence)
    {found : Option AlertModel}
    {alarm : Option (Alarm Datetime RiskLevel)} {n : ℕ}
    (h : Option.Rel (AlertStanding (alertIdOf campaign trigger) n) found alarm)
    (hn : alarm = none → n = 0) :
    let change := repo.alertChange campaign evidence trigger found
    let response := respond repo.suppression alarm (evidence.eventTime, trigger.severity)
    AlertStanding (alertIdOf campaign trigger) (n + 1) change.alert response.1 ∧
      entryOf (alertHistoryRow evidence change) = response.2 ∧
      change.eventType = noticeType response.2.notice ∧
      change.suppressed = response.2.suppressed := by
  cases h with
  | none =>
    obtain rfl := hn rfl
    exact ⟨⟨rfl, rfl, rfl, rfl, rfl, rfl, rfl, rfl⟩, rfl, rfl, rfl⟩
  | @some alert alarm hstanding =>
    have hmax : maxRisk alert.severity trigger.severity = max alarm.level trigger.severity := by
      rw [CampaignStateMachine.maxRisk_eq_max, hstanding.severity]
    -- the status is active, so only the severity can have changed
    have hchanged : decide (maxRisk alert.severity trigger.severity ≠ alert.severity ∨
        alert.status ≠ .active) = decide (max alarm.level trigger.severity ≠ alarm.level) := by
      rw [hmax, hstanding.severity, hstanding.status]
      simp
    have hsuppressed : (repo.alertChange campaign evidence trigger (some alert)).suppressed =
        (respond repo.suppression (some alarm)
          (evidence.eventTime, trigger.severity)).2.suppressed := by
      show (!decide _ && _) = _
      rw [hchanged, hstanding.lastNotifiedAt]
      by_cases hraise : max alarm.level trigger.severity = alarm.level <;> simp [respond, hraise]
    have hfrom : some alert.status = some AlertStatus.active := by rw [hstanding.status]
    refine ⟨⟨hstanding.alertId, hstanding.campaignId, hstanding.alertType, hmax, rfl, ?_,
      congrArg (· + 1) hstanding.occurrenceCount, congrArg (· + 1) hstanding.version⟩, ?_, ?_,
      hsuppressed⟩
    · show (if (repo.alertChange campaign evidence trigger (some alert)).suppressed = true then
        alert.lastNotifiedAt else some evidence.eventTime) = _
      rw [hsuppressed, hstanding.lastNotifiedAt]
      exact (apply_ite some _ _ _).symm
    · have hnotice : noticeOf (alertHistoryRow evidence
          (repo.alertChange campaign evidence trigger (some alert))) =
          (respond repo.suppression (some alarm)
            (evidence.eventTime, trigger.severity)).2.notice := by
        show (if maxRisk alert.severity trigger.severity = alert.severity ∧
          some alert.status = some AlertStatus.active then Notice.refreshed else .raised) = _
        rw [hmax, hstanding.severity, hfrom]
        by_cases hraise : max alarm.level trigger.severity = alarm.level <;>
          simp [respond, hraise]
      have hreason : (alertHistoryRow evidence
          (repo.alertChange campaign evidence trigger (some alert))).suppressionReason.isSome =
          (repo.alertChange campaign evidence trigger (some alert)).suppressed := by
        rw [alertHistoryRow]
        cases (repo.alertChange campaign evidence trigger (some alert)).suppressed <;> rfl
      exact Entry.ext rfl (congrArg some hstanding.severity) hmax hnotice
        (hreason.trans hsuppressed)
    · show (if decide _ = true then EventType.alertSeverityChanged else .alertRefreshed) = _
      rw [hchanged]
      by_cases hraise : max alarm.level trigger.severity = alarm.level <;>
        simp [respond, hraise, noticeType]

/-- A change is about the alert of its trigger. -/
theorem alertId_alertChange (h : Follows repo triggers t) (campaign : CampaignModel)
    (evidence : CampaignEvidence) (trigger : AlertTrigger) :
    (repo.alertChange campaign evidence trigger
      (t.selectAlert campaign.campaignId trigger.alertType)).alert.alertId =
        alertIdOf campaign trigger := by
  rw [selectAlert_eq h]
  have hrow := (h (alertIdOf campaign trigger)).row
  have hzero : (run repo.suppression (triggers (alertIdOf campaign trigger))).1 = none →
      (triggers (alertIdOf campaign trigger)).length = 0 := fun hnone => by
    rw [Library.Cooldown.alarm_eq_none_iff.mp hnone, List.length_nil]
  exact (alertChange_standing repo evidence hrow hzero).1.alertId

/-! ## The tables after a trigger -/

theorem alertEventsIn_append (id : AlertId) (rows rows' : List EventOutboxModel) :
    alertEventsIn id (rows ++ rows') = alertEventsIn id rows ++ alertEventsIn id rows' := by
  rw [alertEventsIn, List.filter_append, List.filterMap_append]
  rfl

/-- Events about campaigns say nothing about alerts. -/
theorem alertEventsIn_of_aboutCampaigns (id : AlertId) {rows : List EventOutboxModel}
    (h : AboutCampaigns evidence rows) : alertEventsIn id rows = [] := by
  have hnone : rows.filter (fun row => decide (row.topic = "alerts.events.v1")) = [] := by
    refine List.filter_eq_nil_iff.mpr fun row hrow htopic => ?_
    rw [(h row hrow).1] at htopic
    exact absurd htopic (by decide)
  rw [alertEventsIn, hnone]
  rfl

/-- An event about an alert says what happened to that alert. -/
theorem alertEventsIn_outboxRow {eventType : EventType} {entityId : EntityId} {alert : AlertRecord}
    {scopeId assetId : String} {stage : CampaignStage} {reason evidenceEventId : String}
    {event : DomainEvent} (id : AlertId)
    (h : DomainEventOf evidence eventType "alerts.events.v1" entityId
      (.alert alert scopeId assetId stage reason evidenceEventId) event) :
    alertEventsIn id [outboxRow "alerts.events.v1" event] =
      if alert.alertId = id then [(eventType, evidence.eventTime)] else [] := by
  have hrow : alertEventOf id (outboxRow "alerts.events.v1" event) =
      if alert.alertId = id then some (eventType, evidence.eventTime) else none := by
    rw [alertEventOf, outboxRow, h.payload_eq, h.type_eq, h.time_eq]
  have htopic : [outboxRow "alerts.events.v1" event].filter
      (fun row => decide (row.topic = "alerts.events.v1")) =
      [outboxRow "alerts.events.v1" event] := List.filter_cons_of_pos (decide_eq_true rfl)
  rw [alertEventsIn, htopic, List.filterMap_cons, hrow]
  split_ifs <;> rfl

/-- What raising an alert leaves in the tables. -/
structure Raised (evidence : CampaignEvidence) (change : AlertChange) (t t' : Tables) : Prop where
  alerts_eq : t'.alerts = t.alerts.set change.alert.alertId change.alert
  history_eq : t'.alertHistory = t.alertHistory ++ [alertHistoryRow evidence change]
  events_eq : ∀ id, t'.alertEvents id = t.alertEvents id ++
    if change.alert.alertId = id ∧ change.suppressed = false then
      [(change.eventType, evidence.eventTime)] else []

theorem raised_of_raiseAlert {result : AlertRecord × Option DomainEventId}
    (h : repo.raiseAlert campaign evidence now trigger t = (.ok result, t')) :
    Raised evidence (repo.alertChange campaign evidence trigger
      (t.selectAlert campaign.campaignId trigger.alertType)) t t' := by
  obtain ⟨-, halerts, hhistory, rows, houtbox, hrows⟩ := raiseAlert_ok h
  refine ⟨halerts, hhistory, fun id => ?_⟩
  rw [Tables.alertEvents, houtbox, alertEventsIn_append]
  rcases hrows with ⟨hsuppressed, rfl⟩ | ⟨hsuppressed, event, rfl, hevent⟩
  · rw [if_neg fun hboth => absurd (hsuppressed.symm.trans hboth.2) (by decide)]
    rfl
  · rw [alertEventsIn_outboxRow id hevent]
    simp only [hsuppressed, and_true]
    rfl

/-- Raising an alert does not touch the others. -/
theorem Raised.followsAlert_of_ne {change : AlertChange} {id : AlertId}
    {past : List (Datetime × RiskLevel)} (hraised : Raised evidence change t t')
    (hid : change.alert.alertId ≠ id) (h : FollowsAlert repo id past t) :
    FollowsAlert repo id past t' := by
  have hhistory : t'.alertHistoryOf id = t.alertHistoryOf id := by
    have hrow : [alertHistoryRow evidence change].filter
        (fun row => decide (row.alertId = id)) = [] :=
      List.filter_cons_of_neg fun heq => hid (of_decide_eq_true heq)
    rw [Tables.alertHistoryOf, hraised.history_eq, List.filter_append, hrow, List.append_nil]
    rfl
  have hevents : t'.alertEvents id = t.alertEvents id := by
    rw [hraised.events_eq, if_neg fun hboth => hid hboth.1, List.append_nil]
  refine ⟨?_, ?_, ?_, ?_⟩
  · rw [hraised.alerts_eq, OrderedDict.get?_set_of_ne _ _ (Ne.symm hid)]
    exact h.row
  · rw [hhistory]
    exact h.history
  · rw [hhistory]
    exact h.reason
  · rw [hevents]
    exact h.events

/-- The alert that is raised has one trigger more. -/
theorem Raised.followsAlert {past : List (Datetime × RiskLevel)}
    (hraised : Raised evidence (repo.alertChange campaign evidence trigger
      (t.alerts.get? (alertIdOf campaign trigger))) t t')
    (h : FollowsAlert repo (alertIdOf campaign trigger) past t) :
    FollowsAlert repo (alertIdOf campaign trigger)
      (past ++ [(evidence.eventTime, trigger.severity)]) t' := by
  have hzero : (run repo.suppression past).1 = none → past.length = 0 := fun hnone => by
    rw [Library.Cooldown.alarm_eq_none_iff.mp hnone, List.length_nil]
  obtain ⟨hstanding, hentry, htype, hsuppressed⟩ :=
    alertChange_standing repo evidence h.row hzero
  generalize repo.alertChange campaign evidence trigger
    (t.alerts.get? (alertIdOf campaign trigger)) = change at *
  have hhistory : t'.alertHistoryOf (alertIdOf campaign trigger) =
      t.alertHistoryOf (alertIdOf campaign trigger) ++ [alertHistoryRow evidence change] := by
    have hrow : [alertHistoryRow evidence change].filter
        (fun row => decide (row.alertId = alertIdOf campaign trigger)) =
        [alertHistoryRow evidence change] :=
      List.filter_cons_of_pos (decide_eq_true hstanding.alertId)
    rw [Tables.alertHistoryOf, hraised.history_eq, List.filter_append, hrow]
    rfl
  refine ⟨?_, ?_, ?_, ?_⟩
  · rw [hraised.alerts_eq, hstanding.alertId, OrderedDict.get?_set_self,
      Library.Cooldown.alarm_concat, List.length_append]
    exact Option.Rel.some hstanding
  · rw [hhistory, List.map_append, h.history, Library.Cooldown.log_concat, List.map_singleton,
      hentry]
  · intro entry hmem text htext
    rw [hhistory] at hmem
    rcases List.mem_append.mp hmem with hmem | hmem
    · exact h.reason entry hmem text htext
    · rw [List.mem_singleton.mp hmem, alertHistoryRow] at htext
      split_ifs at htext
      · exact (Option.some.inj htext).symm
      · exact absurd htext (Option.not_mem_none text)
  · rw [hraised.events_eq, h.events, Library.Cooldown.log_concat, List.filter_append,
      List.map_append, hstanding.alertId, htype, hsuppressed]
    cases hcase : (respond repo.suppression (run repo.suppression past).1
      (evidence.eventTime, trigger.severity)).2.suppressed with
    | true => simp [hcase]
    | false => simp [hcase, Library.Cooldown.time_respond]

/-! ## The loop -/

/-- The triggers of an alert in a score. -/
def triggersIn (campaign : CampaignModel) (evidence : CampaignEvidence) (alerts : List AlertTrigger)
    (id : AlertId) : List (Datetime × RiskLevel) :=
  (alerts.filter fun trigger => decide (alertIdOf campaign trigger = id)).map fun trigger =>
    (evidence.eventTime, trigger.severity)

/-- **One trigger more.**  Raising an alert adds its trigger to the triggers of that alert. -/
theorem follows_raiseAlert {result : AlertRecord × Option DomainEventId}
    (h : Follows repo triggers t)
    (hraise : repo.raiseAlert campaign evidence now trigger t = (.ok result, t')) :
    Follows repo (fun id => triggers id ++ triggersIn campaign evidence [trigger] id) t' := by
  have hraised := raised_of_raiseAlert hraise
  rw [selectAlert_eq h] at hraised
  intro id
  by_cases hid : alertIdOf campaign trigger = id
  · subst hid
    have hown := hraised.followsAlert (h (alertIdOf campaign trigger))
    simpa [triggersIn] using hown
  · have hchange := alertId_alertChange h campaign evidence trigger
    rw [selectAlert_eq h] at hchange
    have hother := hraised.followsAlert_of_ne (fun heq => hid (hchange.symm.trans heq)) (h id)
    simpa [triggersIn, hid] using hother

/-- **The triggers of a score.**  The loop adds, to each alert, its triggers in the score. -/
theorem follows_forEach {alerts : List AlertTrigger}
    {results : List (AlertRecord × Option DomainEventId)} (h : Follows repo triggers t)
    (hloop : forEach (repo.raiseAlert campaign evidence now) alerts t = (.ok results, t')) :
    Follows repo (fun id => triggers id ++ triggersIn campaign evidence alerts id) t' := by
  induction alerts generalizing t triggers results with
  | nil =>
    obtain rfl : t = t' := congrArg Prod.snd hloop
    simpa [triggersIn] using h
  | cons trigger alerts ih =>
    obtain ⟨result, rest, mid, hraise, hrest, -⟩ := forEach_cons_eq_ok.mp hloop
    have hnext := ih (follows_raiseAlert h hraise) hrest
    intro id
    have happend : triggersIn campaign evidence [trigger] id ++
        triggersIn campaign evidence alerts id =
        triggersIn campaign evidence (trigger :: alerts) id := by
      rw [triggersIn, triggersIn, ← List.map_append, ← List.filter_append]
      rfl
    show FollowsAlert repo id (triggers id ++ triggersIn campaign evidence (trigger :: alerts) id) t'
    rw [← happend, ← List.append_assoc]
    exact hnext id

end Campaigns
end Scam2Market
