import Scam2Market.Streaming.Publication
import Scam2Market.Workers.CampaignWorker
import Scam2Market.Workers.NotificationWorker

/-!
# From a score to the notification of an alert

Three processes in a row: `campaign_worker` turns scores into campaigns and alerts and writes the events of
the alerts in the outbox, `outbox_worker` publishes the outbox, and `notification_worker` queues what is
published.  Any of them may be cut off at any point, a publish may fail after its event was appended, and a
record is handled again after a crash.

* `AlertPipeline`: the state of the three, and the topics between them.
* `outbox_perform`: a call of `apply` adds rows to the outbox, and no others go in.
* `Linked`: the invariant of the pipeline.
* `alerts_delivered_once`: every alert that is published and taken has exactly one delivery for each channel
  subscribed to it; no delivery is without an alert in the outbox, and no score has an effect twice.
-/

namespace Scam2Market
namespace Workers

open Library
open Library.Consumer
open Campaigns (AlertType DomainEvent DomainEventId DomainPayload EventOutboxModel
  SqlCampaignRepository Tables)
open Campaigns.SqlCampaignRepository (Call)
open Intelligence (RiskLevel)
open Notifications
open Streaming (Outbox OutboxMessage OutboxMove)

/-! ## What an alert event says -/

/-- The value of a `RiskLevel`, in upper case as it is. -/
def riskLevelText : RiskLevel → String
  | .normal => "NORMAL"
  | .watch => "WATCH"
  | .high => "HIGH"
  | .critical => "CRITICAL"

def alertTypeText : AlertType → String
  | .socialHypeSurge => "SOCIAL_HYPE_SURGE"
  | .coordinatedPromotion => "COORDINATED_PROMOTION"
  | .unverifiedNarrative => "UNVERIFIED_NARRATIVE"
  | .marketVolumeAnomaly => "MARKET_VOLUME_ANOMALY"
  | .marketPriceAnomaly => "MARKET_PRICE_ANOMALY"
  | .marketMicrostructureAnomaly => "MARKET_MICROSTRUCTURE_ANOMALY"
  | .crossDomainManipulationRisk => "CROSS_DOMAIN_MANIPULATION_RISK"
  | .possibleDumpPhase => "POSSIBLE_DUMP_PHASE"

/-- `str(event.payload.get("severity", "INFO")).upper()`. -/
def payloadSeverity : DomainPayload → String
  | .alert alert _ _ _ _ _ => riskLevelText alert.severity
  | _ => "INFO"

/-- `str(event.payload.get("alert_type", ""))`. -/
def payloadAlertType : DomainPayload → String
  | .alert alert _ _ _ _ _ => alertTypeText alert.alertType
  | _ => ""

/-- `event.payload.get("asset_id")`. -/
def payloadAssetId : DomainPayload → Option String
  | .campaignCreated campaign => some campaign.assetId
  | .campaignStageChanged campaign _ _ => some campaign.assetId
  | .campaignClosed _ _ => none
  | .alert _ _ assetId _ _ _ => some assetId

/-- What the notification worker makes of an event; no payload names a tenant. -/
def alertEventOf (eventIdText : DomainEventId → String) (event : DomainEvent) :
    AlertEvent DomainEvent where
  alert := {
    eventId := eventIdText event.eventId
    severity := payloadSeverity event.payload
    assetId :=
      match payloadAssetId event.payload with
      | none => event.assetId
      | some assetId => if assetId = "" then event.assetId else assetId
    alertType := payloadAlertType event.payload
    envelope := event }
  payloadTenant := none

/-! ## The processes in a row -/

/-- The one task that queues alerts; requests and deliveries go on beside it. -/
def besides : Service DomainEvent → ServiceMove DomainEvent → Service DomainEvent
  | s, .enqueue .. => s
  | s, move => s.step move

/-- A topic is a log for each of its partitions; a transaction that is aborted takes an offset. -/
structure AlertPipeline where
  campaigns : CampaignWorker := initialCampaignWorker
  outbox : Outbox ℕ DomainEvent := {}
  topics : String × ℕ → List (Option DomainEvent) := fun _ => []
  notifications : NotificationWorker DomainEvent

inductive AlertPipelineMove where
  | campaign (move : CampaignWorkerMove) (createdAt : Datetime)
  | dispatch (move : OutboxMove ℕ DomainEvent)
  | append (index : ℕ)
  | abort (partition : String × ℕ)
  | notify (move : NotificationWorkerMove DomainEvent)

namespace AlertPipeline

/-- The rows that a transaction has added are in the table of the dispatchers. -/
def insertRows (createdAt : Datetime) (outbox : Outbox ℕ DomainEvent) (rows : List EventOutboxModel) :
    Outbox ℕ DomainEvent :=
  rows.foldl
    (fun outbox row => outbox.enqueue outbox.rows.length row.topic row.envelope createdAt) outbox

/-- The consumer of the topic reads what is committed. -/
def alertLog (eventIdText : DomainEventId → String) (topics : String × ℕ → List (Option DomainEvent)) :
    AlertLog DomainEvent :=
  fun partition offset =>
    if partition.1 = "alerts.events.v1" then
      ((topics partition)[offset]?.join).map (alertEventOf eventIdText)
    else none

variable (repo : SqlCampaignRepository) (scores : ScoreLog) (partitionOf : String → ℕ)
  (eventIdText : DomainEventId → String)

/-- The partition that a message is sent to, by its key. -/
def partitionOfMessage (held : OutboxMessage ℕ DomainEvent) : String × ℕ :=
  (held.topic, partitionOf held.event.partitionKey)

/-- The transaction of a publish is committed. -/
def appended (topics : String × ℕ → List (Option DomainEvent))
    (held : OutboxMessage ℕ DomainEvent) : String × ℕ → List (Option DomainEvent) :=
  Function.update topics (partitionOfMessage partitionOf held)
    (topics (partitionOfMessage partitionOf held) ++ [some held.event])

/-- What the broker has of the publish of a dispatcher. -/
def commitPublish (s : AlertPipeline) (index : ℕ) : AlertPipeline :=
  match s.outbox.publishing? index with
  | some held => { s with topics := appended partitionOf s.topics held }
  | none => s

/-- One move.  A publish that returns has committed its transaction; one that raises may have. -/
def step (s : AlertPipeline) : AlertPipelineMove → AlertPipeline
  | .campaign move createdAt =>
    let campaigns := campaignWorkerStep repo scores s.campaigns move
    let rows := campaigns.store.outbox.drop s.campaigns.store.outbox.length
    { s with campaigns := campaigns, outbox := insertRows createdAt s.outbox rows }
  | .dispatch (.enqueue ..) => s
  | .dispatch (.finish index (.ok ())) =>
    let s := s.commitPublish partitionOf index
    { s with outbox := s.outbox.step (.finish index (.ok ())) }
  | .dispatch move => { s with outbox := s.outbox.step move }
  | .append index => s.commitPublish partitionOf index
  | .abort partition =>
    { s with topics := Function.update s.topics partition (s.topics partition ++ [none]) }
  | .notify move =>
    { s with
      notifications :=
        Consumer.step (alertLog eventIdText s.topics) enqueueAlert besides s.notifications move }

end AlertPipeline

/-! ## What is added to the outbox -/

section Outbox

variable {repo : SqlCampaignRepository} {t t' : Tables}

/-- Rows were added. -/
def OutboxGrows (t t' : Tables) : Prop :=
  ∃ rows, t'.outbox = t.outbox ++ rows

theorem outboxGrows_refl (t : Tables) : OutboxGrows t t :=
  ⟨[], (List.append_nil _).symm⟩

theorem OutboxGrows.trans {t'' : Tables} (h : OutboxGrows t t') (h' : OutboxGrows t' t'') :
    OutboxGrows t t'' := by
  obtain ⟨rows, hrows⟩ := h
  obtain ⟨rows', hrows'⟩ := h'
  exact ⟨rows ++ rows', by rw [hrows', hrows, List.append_assoc]⟩

theorem outboxGrows_forEach {campaign : Campaigns.CampaignModel} {evidence : Campaigns.CampaignEvidence}
    {now : Datetime} {alerts : List Campaigns.AlertTrigger}
    {results : List (Campaigns.AlertRecord × Option DomainEventId)}
    (h : Procedure.forEach (repo.raiseAlert campaign evidence now) alerts t = (.ok results, t')) :
    OutboxGrows t t' := by
  induction alerts generalizing t results with
  | nil =>
    obtain rfl : t = t' := congrArg Prod.snd h
    exact outboxGrows_refl t
  | cons trigger alerts ih =>
    obtain ⟨result, rest, mid, hraise, hrest, -⟩ := Procedure.forEach_cons_eq_ok.mp h
    obtain ⟨-, -, -, rows, hrows, -⟩ := Campaigns.raiseAlert_ok hraise
    exact OutboxGrows.trans ⟨rows, hrows⟩ (ih hrest)

/-- A call of `apply` adds rows. -/
theorem outbox_perform (repo : SqlCampaignRepository) (call : Call) (t : Tables) :
    OutboxGrows t (repo.perform call t).2 := by
  rcases Campaigns.perform_cases repo call t with ⟨e, herror⟩ | ⟨update, t', hok, hstep⟩
  · rw [herror]
    exact outboxGrows_refl t
  · rw [hok]
    cases hstep with
    | duplicate prior campaign _ hprior hcampaign hupdate => exact outboxGrows_refl t
    | stale campaign _ hfresh hactive hstale hupdate => exact outboxGrows_refl t
    | applied row _ _ happlied hupdate =>
      obtain ⟨mid, results, -, -, ⟨rows, houtbox, -⟩, hloop, -⟩ := happlied.raised
      exact OutboxGrows.trans ⟨rows, houtbox⟩ (outboxGrows_forEach hloop)

theorem outbox_process (repo : SqlCampaignRepository) (event : FusionScoreEvent)
    (surroundings : CampaignSurroundings) (t : Tables) :
    OutboxGrows t (process repo event surroundings t).2 := by
  rcases process_cases repo event surroundings t with
    ⟨e, herror⟩ | ⟨call, update, t', -, hperform, hprocess⟩
  · rw [herror]
    exact outboxGrows_refl t
  · have hgrows := outbox_perform repo call t
    rw [hperform] at hgrows
    rw [hprocess]
    exact hgrows

theorem changes_handleScore (repo : SqlCampaignRepository) (record : ScoreRecord)
    (surroundings : CampaignSurroundings) : (handleScore repo record surroundings).Changes OutboxGrows := by
  refine fun t => ⟨outbox_process repo record.event surroundings t, ?_⟩
  show (if _ then Program.done else .raise : Program Tables).Changes OutboxGrows
  split_ifs <;> exact trivial

theorem moving_campaignWorkerStep (repo : SqlCampaignRepository) (scores : ScoreLog) {s : CampaignWorker}
    (h : Moving OutboxGrows s) (move : CampaignWorkerMove) :
    Moving OutboxGrows (campaignWorkerStep repo scores s move) ∧
      OutboxGrows s.store (campaignWorkerStep repo scores s move).store :=
  h.step outboxGrows_refl (changes_handleScore repo) (fun _ move => move.elim) move

end Outbox

/-! ## The table of the dispatchers -/

namespace AlertPipeline

/-- What a row carries. -/
def rowContent (row : Streaming.OutboxRow ℕ DomainEvent) : String × DomainEvent :=
  (row.topic, row.envelope)

def modelContent (row : EventOutboxModel) : String × DomainEvent :=
  (row.topic, row.envelope)

/-- The rows are numbered. -/
def Numbered (outbox : Outbox ℕ DomainEvent) : Prop :=
  outbox.rows.map Streaming.OutboxRow.outboxId = List.range outbox.rows.length

variable {outbox : Outbox ℕ DomainEvent} {delivered : OutboxMessage ℕ DomainEvent → Prop}

theorem rows_enqueue (h : Numbered outbox) (createdAt : Datetime) (topic : String) (envelope : DomainEvent) :
    Numbered (outbox.enqueue outbox.rows.length topic envelope createdAt) ∧
      (outbox.enqueue outbox.rows.length topic envelope createdAt).rows.map rowContent =
        outbox.rows.map rowContent ++ [(topic, envelope)] := by
  have hfresh : outbox.rows.length ∉ outbox.rows.map Streaming.OutboxRow.outboxId := by
    rw [h]
    exact List.not_mem_range_self
  rw [Outbox.enqueue, if_neg hfresh]
  refine ⟨?_, List.map_append⟩
  rw [Numbered, List.map_append, h, List.length_append, List.length_singleton, List.range_succ]
  rfl

/-- Rows that are inserted are there, in their order. -/
theorem insertRows_spec (h : Numbered outbox) (hhonest : Outbox.Honest delivered outbox)
    (createdAt : Datetime) (rows : List EventOutboxModel) :
    Numbered (insertRows createdAt outbox rows) ∧
      (insertRows createdAt outbox rows).rows.map rowContent =
        outbox.rows.map rowContent ++ rows.map modelContent ∧
      Outbox.Honest delivered (insertRows createdAt outbox rows) := by
  induction rows generalizing outbox with
  | nil => exact ⟨h, (List.append_nil _).symm, hhonest⟩
  | cons row rows ih =>
    obtain ⟨hnumbered, hcontent⟩ := rows_enqueue h createdAt row.topic row.envelope
    obtain ⟨hall, hcontents, hdelivered⟩ :=
      ih hnumbered (hhonest.enqueue outbox.rows.length row.topic row.envelope createdAt)
    refine ⟨hall, ?_, hdelivered⟩
    show (insertRows createdAt (outbox.enqueue outbox.rows.length row.topic row.envelope createdAt)
      rows).rows.map rowContent = _
    rw [hcontents, hcontent, List.append_assoc]
    rfl

/-- A move of a dispatcher keeps the numbers and the contents. -/
theorem dispatch_spec {move : OutboxMove ℕ DomainEvent} (h : Numbered outbox)
    (hmove : ∀ outboxId topic envelope createdAt,
      move ≠ .enqueue outboxId topic envelope createdAt) :
    Numbered (outbox.step move) ∧
      (outbox.step move).rows.map rowContent = outbox.rows.map rowContent := by
  have hmessages := Outbox.messages_step outbox move hmove
  have hlength : (outbox.step move).rows.length = outbox.rows.length := by
    have hboth := congrArg List.length hmessages
    rwa [List.length_map, List.length_map] at hboth
  constructor
  · rw [Numbered, Outbox.map_outboxId_of_messages hmessages, hlength]
    exact h
  · have hcontent : rowContent = (fun held : OutboxMessage ℕ DomainEvent => (held.topic, held.event)) ∘
        Streaming.SqlOutboxRepository.message := rfl
    rw [hcontent, ← List.map_map, ← List.map_map, hmessages]

end AlertPipeline

/-! ## The deliveries have an alert -/

section Justified

variable {ε : Type} {s : Service ε} {t before : NotificationTables ε} {history : List (AlertRecord ε)}

/-- A delivery that is new is of an alert that was handled. -/
def Justified (before : NotificationTables ε) (history : List (AlertRecord ε))
    (t : NotificationTables ε) : Prop :=
  ∀ delivery ∈ t.deliveries, deliveryKey delivery ∈ deliveryKeys before ∨
    ∃ record ∈ history, delivery.eventId = record.event.alert.eventId ∧
      delivery.payload = record.event.alert.envelope

theorem Justified.of_map {t' : NotificationTables ε} (h : Justified before history t)
    (hmap : (t'.deliveries.map fun delivery => (deliveryKey delivery, delivery.payload)) =
      t.deliveries.map fun delivery => (deliveryKey delivery, delivery.payload)) :
    Justified before history t' := by
  intro delivery hdelivery
  have hmem : (deliveryKey delivery, delivery.payload) ∈
      t.deliveries.map fun delivery => (deliveryKey delivery, delivery.payload) := by
    rw [← hmap]
    exact List.mem_map_of_mem hdelivery
  obtain ⟨old, hold, hsame⟩ := List.mem_map.mp hmem
  obtain ⟨hkey, hpayload⟩ := Prod.mk.inj hsame
  have hid : old.eventId = delivery.eventId := congrArg Prod.snd hkey
  rw [← hkey, ← hid, ← hpayload]
  exact h old hold

theorem Justified.concat (h : Justified before history t) (record : AlertRecord ε) :
    Justified before (history ++ [record]) t := by
  intro delivery hdelivery
  refine (h delivery hdelivery).imp_right fun ⟨old, hold, hsame⟩ => ?_
  exact ⟨old, List.mem_append_left _ hold, hsame⟩

theorem Justified.enqueue (h : Justified before history t) (now : Datetime) (record : AlertRecord ε)
    (tenantId : String) :
    Justified before (history ++ [record]) (t.enqueue now record.event.alert tenantId) := by
  have hfold : ∀ (rows : List (NotificationSubscription × NotificationChannel))
      (t : NotificationTables ε), Justified before (history ++ [record]) t →
        Justified before (history ++ [record])
          (rows.foldl (fun t row => t.addDelivery now tenantId record.event.alert row.2) t) := by
    intro rows
    induction rows with
    | nil => exact fun _ h => h
    | cons row rows ih =>
      intro t h
      refine ih (t.addDelivery now tenantId record.event.alert row.2) ?_
      rw [NotificationTables.addDelivery]
      split_ifs
      · exact h
      · intro delivery hdelivery
        rcases List.mem_append.mp hdelivery with hold | hnew
        · exact h delivery hold
        · rw [List.mem_singleton.mp hnew]
          exact Or.inr ⟨record, List.mem_append_right _ (List.mem_singleton_self record), rfl, rfl⟩
  exact hfold _ t (h.concat record)

end Justified

/-! ## What is queued -/

section Queue

variable {before : NotificationTables DomainEvent} {history : List (AlertRecord DomainEvent)}
  {s : Service DomainEvent}

/-- What is said of the deliveries: they are there, and they have an alert. -/
def QueuedFor (before : NotificationTables DomainEvent) (history : List (AlertRecord DomainEvent))
    (s : Service DomainEvent) : Prop :=
  Queued before history s ∧ Justified before history s.toNotificationTables

theorem QueuedFor.besides (h : QueuedFor before history s) (move : ServiceMove DomainEvent) :
    QueuedFor before history (besides s move) := by
  by_cases hmove : IsEnqueue move
  · have hsame : Workers.besides s move = s := by
      cases move with
      | enqueue now event tenantId => rfl
      | _ => exact absurd hmove not_false
    rw [hsame]
    exact h
  · have hstep : Workers.besides s move = s.step move := by
      cases move with
      | enqueue now event tenantId => exact absurd trivial hmove
      | _ => rfl
    rw [hstep]
    refine ⟨h.1.step move, h.2.of_map ?_⟩
    exact map_deliveries_step (fun _ => rfl) (fun _ result _ => by cases result <;> rfl) s hmove

theorem rule_queuedFor (before : NotificationTables DomainEvent) (log : AlertLog DomainEvent) :
    Rule log enqueueAlert besides (fun _ => True) (QueuedFor before) (QueuedFor before) where
  interfere _ move _ h := h.besides move
  interfere_running _ move _ h := h.besides move
  recover _ _ h _ := h
  handle history record now s _ _ _ _ h := by
    refine ⟨h, fun s' hs' => ?_⟩
    have hkept : QueuedFor before history s' := hs'.keeps (fun move _ hs => hs.besides move) h
    exact ⟨hkept.1.enqueue record now, hkept.2.enqueue now record _⟩

end Queue

/-! ## The invariant -/

namespace AlertPipeline

variable {repo : SqlCampaignRepository} {scores : ScoreLog} {partitionOf : String → ℕ}
  {eventIdText : DomainEventId → String} {before : NotificationTables DomainEvent} {s : AlertPipeline}
  {topics : String × ℕ → List (Option DomainEvent)} {held : OutboxMessage ℕ DomainEvent}

/-- The event of a message is in its partition. -/
def Delivered (partitionOf : String → ℕ) (topics : String × ℕ → List (Option DomainEvent))
    (held : OutboxMessage ℕ DomainEvent) : Prop :=
  some held.event ∈ topics (partitionOfMessage partitionOf held)

/-- An event of a topic has its row in the outbox. -/
def Sourced (topics : String × ℕ → List (Option DomainEvent)) (t : Tables) : Prop :=
  ∀ partition event, some event ∈ topics partition → (partition.1, event) ∈ t.outbox.map modelContent

/-- What the stages of the pipeline know of one another. -/
structure Linked (repo : SqlCampaignRepository) (scores : ScoreLog) (partitionOf : String → ℕ)
    (eventIdText : DomainEventId → String) (before : NotificationTables DomainEvent)
    (s : AlertPipeline) : Prop where
  applied : Consumed scores alone (fun history => SuccessfulCalls repo (keepFirst scoreId [] history))
    (fun history => SuccessfulCalls repo (keepFirst scoreId [] history)) s.campaigns
  moving : Moving OutboxGrows s.campaigns
  numbered : Numbered s.outbox
  contents : s.outbox.rows.map rowContent = s.campaigns.store.outbox.map modelContent
  honest : Outbox.Honest (Delivered partitionOf s.topics) s.outbox
  sourced : Sourced s.topics s.campaigns.store
  queued : Consumed (alertLog eventIdText s.topics) besides (QueuedFor before) (QueuedFor before)
    s.notifications

/-! ### Topics that grow -/

/-- Every partition has become longer, or stays. -/
def TopicsGrow (topics topics' : String × ℕ → List (Option DomainEvent)) : Prop :=
  ∀ partition, topics partition <+: topics' partition

theorem topicsGrow_concat (topics : String × ℕ → List (Option DomainEvent)) (partition : String × ℕ)
    (entry : Option DomainEvent) :
    TopicsGrow topics (Function.update topics partition (topics partition ++ [entry])) := by
  intro other
  by_cases hother : other = partition
  · subst hother
    rw [Function.update_self]
    exact List.prefix_append _ _
  · refine ⟨[], ?_⟩
    rw [Function.update_of_ne hother, List.append_nil]

theorem alertLog_eq_some {partition : String × ℕ} {offset : ℕ} {event : AlertEvent DomainEvent} :
    alertLog eventIdText topics partition offset = some event ↔
      partition.1 = "alerts.events.v1" ∧ ∃ envelope,
        (topics partition)[offset]? = some (some envelope) ∧ alertEventOf eventIdText envelope = event := by
  rw [alertLog]
  by_cases htopic : partition.1 = "alerts.events.v1"
  · rw [if_pos htopic, Option.map_eq_some_iff]
    simp only [Option.join_eq_some_iff, htopic, true_and]
  · rw [if_neg htopic]
    exact ⟨fun h => absurd h (by simp), fun h => absurd h.1 htopic⟩

/-- A topic that grows is a log that grows. -/
theorem TopicsGrow.extends {topics' : String × ℕ → List (Option DomainEvent)}
    (h : TopicsGrow topics topics') :
    Extends (alertLog eventIdText topics) (alertLog eventIdText topics') where
  kept partition offset event hevent := by
    obtain ⟨htopic, envelope, hentry, hof⟩ := alertLog_eq_some.mp hevent
    refine alertLog_eq_some.mpr ⟨htopic, envelope, ?_, hof⟩
    obtain ⟨rest, hrest⟩ := h partition
    obtain ⟨hlt, -⟩ := List.getElem?_eq_some_iff.mp hentry
    rw [← hrest, List.getElem?_append_left hlt]
    exact hentry
  behind partition offset event offset' event' hevent hnew hold := by
    obtain ⟨htopic, envelope, hentry, -⟩ := alertLog_eq_some.mp hevent
    obtain ⟨-, envelope', hentry', -⟩ := alertLog_eq_some.mp hnew
    obtain ⟨hlt, -⟩ := List.getElem?_eq_some_iff.mp hentry
    -- a new entry stands where the old partition had ended
    have hend : (topics partition).length ≤ offset' := by
      by_contra hlt'
      obtain ⟨rest, hrest⟩ := h partition
      have hsame : (topics partition)[offset']? = some (some envelope') := by
        rw [← hrest, List.getElem?_append_left (Nat.lt_of_not_le hlt')] at hentry'
        exact hentry'
      rw [alertLog_eq_some.mpr ⟨htopic, envelope', hsame, rfl⟩] at hold
      exact absurd hold (Option.some_ne_none _)
    exact Nat.lt_of_lt_of_le hlt hend

theorem Delivered.grow {topics' : String × ℕ → List (Option DomainEvent)}
    (h : Delivered partitionOf topics held) (hgrow : TopicsGrow topics topics') :
    Delivered partitionOf topics' held :=
  (hgrow _).subset h

/-- The invariant of a pipeline whose topics have grown by events of the outbox. -/
theorem Linked.grow (h : Linked repo scores partitionOf eventIdText before s)
    {topics' : String × ℕ → List (Option DomainEvent)} (hgrow : TopicsGrow s.topics topics')
    (hsourced : Sourced topics' s.campaigns.store) :
    Linked repo scores partitionOf eventIdText before { s with topics := topics' } where
  applied := h.applied
  moving := h.moving
  numbered := h.numbered
  contents := h.contents
  honest := h.honest.mono fun _ hheld => hheld.grow hgrow
  sourced := hsourced
  queued := h.queued.of_extends hgrow.extends

/-- A message that is being published is a row of the outbox. -/
theorem Linked.sourced_appended (h : Linked repo scores partitionOf eventIdText before s)
    {index : ℕ} (hheld : s.outbox.publishing? index = some held) :
    Sourced (appended partitionOf s.topics held) s.campaigns.store := by
  intro partition event hevent
  by_cases hpartition : partition = partitionOfMessage partitionOf held
  · subst hpartition
    rw [appended, Function.update_self] at hevent
    rcases List.mem_append.mp hevent with hold | hnew
    · exact h.sourced _ event hold
    · obtain rfl : event = held.event := Option.some.inj (List.mem_singleton.mp hnew)
      have htodo : held ∈ (s.outbox.dispatchers index).todo := by
        rw [Outbox.publishing?] at hheld
        split at hheld
        · next message rest published hdispatcher =>
          rw [hdispatcher, ← Option.some.inj hheld]
          exact List.mem_cons_self
        · cases hheld
      obtain ⟨row, hrow, rfl⟩ := List.mem_map.mp (h.honest.known index held htodo)
      show rowContent row ∈ _
      rw [← h.contents]
      exact List.mem_map_of_mem hrow
  · rw [appended, Function.update_of_ne hpartition] at hevent
    exact h.sourced partition event hevent

theorem Linked.commitPublish (h : Linked repo scores partitionOf eventIdText before s) (index : ℕ) :
    Linked repo scores partitionOf eventIdText before (s.commitPublish partitionOf index) := by
  rw [AlertPipeline.commitPublish]
  split
  · next held hheld => exact h.grow (topicsGrow_concat _ _ _) (h.sourced_appended hheld)
  · exact h

end AlertPipeline

/-! ## Runs of the pipeline -/

namespace AlertPipeline

section Steps

variable {repo : SqlCampaignRepository} {scores : ScoreLog} {partitionOf : String → ℕ}
  {eventIdText : DomainEventId → String} {before : NotificationTables DomainEvent} {s : AlertPipeline}

/-- The campaign worker goes on, and its rows are in the outbox. -/
theorem Linked.campaign (h : Linked repo scores partitionOf eventIdText before s)
    (move : CampaignWorkerMove) (createdAt : Datetime) :
    Linked repo scores partitionOf eventIdText before
      (s.step repo scores partitionOf eventIdText (.campaign move createdAt)) := by
  obtain ⟨hmoving, rows, hrows⟩ := moving_campaignWorkerStep repo scores h.moving move
  have hdrop : (campaignWorkerStep repo scores s.campaigns move).store.outbox.drop
      s.campaigns.store.outbox.length = rows := by
    rw [hrows, List.drop_left]
  obtain ⟨hnumbered, hcontents, hhonest⟩ := insertRows_spec h.numbered h.honest createdAt rows
  have hstep : s.step repo scores partitionOf eventIdText (.campaign move createdAt) =
      { s with
        campaigns := campaignWorkerStep repo scores s.campaigns move
        outbox := insertRows createdAt s.outbox rows } := by
    rw [AlertPipeline.step, hdrop]
  rw [hstep]
  refine ⟨?_, hmoving, hnumbered, ?_, hhonest, ?_, h.queued⟩
  · exact h.applied.step (onceRule_successfulCalls repo scores).rule move fun _ _ _ _ => trivial
  · show _ = (campaignWorkerStep repo scores s.campaigns move).store.outbox.map modelContent
    rw [hrows, List.map_append, hcontents, h.contents]
  · intro partition event hevent
    show _ ∈ (campaignWorkerStep repo scores s.campaigns move).store.outbox.map modelContent
    rw [hrows, List.map_append]
    exact List.mem_append_left _ (h.sourced partition event hevent)

/-- A dispatcher goes on. -/
theorem Linked.dispatch (h : Linked repo scores partitionOf eventIdText before s)
    {move : OutboxMove ℕ DomainEvent}
    (hmove : ∀ outboxId topic envelope createdAt, move ≠ .enqueue outboxId topic envelope createdAt)
    (hdelivers : ∀ index held, move = .finish index (.ok ()) → s.outbox.publishing? index = some held →
      Delivered partitionOf s.topics held) :
    Linked repo scores partitionOf eventIdText before { s with outbox := s.outbox.step move } := by
  obtain ⟨hnumbered, hcontents⟩ := dispatch_spec h.numbered hmove
  exact ⟨h.applied, h.moving, hnumbered, hcontents.trans h.contents, h.honest.step move hdelivers,
    h.sourced, h.queued⟩

/-- **Every move of the pipeline keeps the invariant.** -/
theorem Linked.step (h : Linked repo scores partitionOf eventIdText before s)
    (move : AlertPipelineMove) :
    Linked repo scores partitionOf eventIdText before
      (s.step repo scores partitionOf eventIdText move) := by
  cases move with
  | campaign move createdAt => exact h.campaign move createdAt
  | append index => exact h.commitPublish index
  | abort partition =>
    refine h.grow (topicsGrow_concat s.topics partition none) fun other event hevent => ?_
    by_cases hother : other = partition
    · subst hother
      rw [Function.update_self] at hevent
      rcases List.mem_append.mp hevent with hold | hnew
      · exact h.sourced other event hold
      · cases List.mem_singleton.mp hnew
    · rw [Function.update_of_ne hother] at hevent
      exact h.sourced other event hevent
  | notify move =>
    exact ⟨h.applied, h.moving, h.numbered, h.contents, h.honest, h.sourced,
      h.queued.step (rule_queuedFor before (alertLog eventIdText s.topics)) move
        fun _ _ _ _ => trivial⟩
  | dispatch move =>
    cases move with
    | enqueue outboxId topic envelope createdAt => exact h
    | finish index outcome =>
      cases outcome with
      | error error =>
        exact h.dispatch (fun _ _ _ _ heq => by cases heq) fun _ _ heq _ => by cases heq
      | ok done =>
        refine (h.commitPublish index).dispatch (fun _ _ _ _ heq => by cases heq) ?_
        intro index' held heq hheld
        obtain rfl : index = index' := by
          cases heq
          rfl
        -- the transaction of the message that is being published was committed just before
        have hbefore : s.outbox.publishing? index = some held := by
          rw [AlertPipeline.commitPublish] at hheld
          split at hheld <;> exact hheld
        rw [AlertPipeline.commitPublish, hbefore]
        show some held.event ∈ Function.update s.topics _ _ _
        rw [Function.update_self]
        exact List.mem_append_right _ (List.mem_singleton_self _)
    | dispatchBatch index now limit locked =>
      exact h.dispatch (fun _ _ _ _ heq => by cases heq) fun _ _ heq _ => by cases heq
    | publish index =>
      exact h.dispatch (fun _ _ _ _ heq => by cases heq) fun _ _ heq _ => by cases heq
    | mark index now =>
      exact h.dispatch (fun _ _ _ _ heq => by cases heq) fun _ _ heq _ => by cases heq
    | crash index =>
      exact h.dispatch (fun _ _ _ _ heq => by cases heq) fun _ _ heq _ => by cases heq

/-- The pipeline at its start, with a notification service in any state. -/
def initial (service : Service DomainEvent) : AlertPipeline :=
  { notifications := { store := service } }

theorem linked_initial (repo : SqlCampaignRepository) (scores : ScoreLog) (partitionOf : String → ℕ)
    (eventIdText : DomainEventId → String) {service : Service DomainEvent}
    (hservice : Service.Invariant service)
    (hkeys : (deliveryKeys service.toNotificationTables).Nodup) :
    Linked repo scores partitionOf eventIdText service.toNotificationTables (initial service) where
  applied := consumed_initial (successfulCalls_nil repo)
  moving := moving_initial
  numbered := rfl
  contents := rfl
  honest := Outbox.honest_initial
  sourced _ _ hevent := absurd hevent List.not_mem_nil
  queued := consumed_initial ⟨⟨hservice, hkeys, fun _ => List.Subset.refl _,
    fun _ h => absurd h List.not_mem_nil⟩, fun _ hdelivery =>
      Or.inl (List.mem_map_of_mem hdelivery)⟩

end Steps

end AlertPipeline

/-! ## The guarantee -/

section Guarantee

variable {repo : SqlCampaignRepository} {scores : ScoreLog} {partitionOf : String → ℕ}
  {eventIdText : DomainEventId → String} {before : NotificationTables DomainEvent} {s : AlertPipeline}

/-- The event has exactly one delivery for each channel that was subscribed to it in `before`, and that one
was sent five times at most. -/
def DeliveredOnce (eventIdText : DomainEventId → String) (before : NotificationTables DomainEvent)
    (service : Service DomainEvent) (event : DomainEvent) : Prop :=
  ∀ row ∈ recipients before (alertEventOf eventIdText event).alert
      (alertEventOf eventIdText event).tenantId,
    ∃! delivery, delivery ∈ service.deliveries ∧
      deliveryKey delivery = (row.2.channelId, eventIdText event.eventId) ∧
      service.sends.count delivery.deliveryId ≤ 5

/-- An alert that was taken from its topic has its deliveries. -/
theorem AlertPipeline.Linked.deliveredOnce
    (h : AlertPipeline.Linked repo scores partitionOf eventIdText before s) {partition : String × ℕ}
    {offset : ℕ} {event : DomainEvent} (htopic : partition.1 = "alerts.events.v1")
    (hentry : (s.topics partition)[offset]? = some (some event))
    (hlt : offset < s.notifications.committed partition) :
    DeliveredOnce eventIdText before s.notifications.store event := by
  intro row hrow
  have hlogged : AlertPipeline.alertLog eventIdText s.topics partition offset =
      some (alertEventOf eventIdText event) :=
    AlertPipeline.alertLog_eq_some.mpr ⟨htopic, event, hentry, rfl⟩
  have hhandled := h.queued.schedule.complete partition offset _ hlogged hlt
  obtain ⟨hqueued, -⟩ := h.queued.holds
  obtain ⟨delivery, hdelivery, hkey⟩ := List.mem_map.mp (hqueued.queued _ hhandled row hrow)
  refine ⟨delivery, ⟨hdelivery, hkey, hqueued.service.count_le delivery.deliveryId⟩, ?_⟩
  rintro other ⟨hother, hotherKey, -⟩
  exact eq_of_key_eq hqueued.distinct hother hdelivery (hotherKey.trans hkey.symm)

/-- A delivery that is new has an alert in the outbox. -/
theorem AlertPipeline.Linked.justified
    (h : AlertPipeline.Linked repo scores partitionOf eventIdText before s)
    {delivery : NotificationDelivery DomainEvent} (hdelivery : delivery ∈ s.notifications.store.deliveries)
    (hnew : deliveryKey delivery ∉ deliveryKeys before) :
    ∃ row ∈ s.campaigns.store.outbox, row.topic = "alerts.events.v1" ∧
      row.envelope = delivery.payload ∧ delivery.eventId = eventIdText row.envelope.eventId := by
  obtain ⟨-, hjustified⟩ := h.queued.holds
  obtain ⟨record, hrecord, hid, hpayload⟩ := (hjustified delivery hdelivery).resolve_left hnew
  obtain ⟨htopic, event, hentry, hof⟩ :=
    AlertPipeline.alertLog_eq_some.mp (h.queued.schedule.logged record hrecord)
  obtain ⟨row, hrow, hcontent⟩ :=
    List.mem_map.mp (h.sourced record.partition event (List.mem_of_getElem? hentry))
  obtain ⟨hrowTopic, henvelope⟩ := Prod.mk.inj hcontent
  have halert : record.event.alert = (alertEventOf eventIdText event).alert := by rw [hof]
  rw [halert] at hid hpayload
  refine ⟨row, hrow, hrowTopic.trans htopic, henvelope.trans hpayload.symm, ?_⟩
  rw [henvelope]
  exact hid

/-- **From a score to its notifications.**  Take the notification service in any state, and from there any
run of the three processes, with crashes, publishes that fail and other requests at any point.

* The campaigns, alerts and outbox rows are those of one successful call of `apply` for each score that was
  handled, and none below the committed offset is missing.
* The rows that the dispatchers work on are those of the outbox.  A row that is published has its event in
  its topic, and when the event has been taken from there it has exactly one delivery for each channel that
  was subscribed to it.
* A delivery that is new is of an alert in the outbox. -/
theorem alerts_delivered_once (repo : SqlCampaignRepository) (scores : ScoreLog)
    (partitionOf : String → ℕ) (eventIdText : DomainEventId → String)
    (setup : List (ServiceMove DomainEvent)) (moves : List AlertPipelineMove) :
    let before := run Service.step {} setup
    let s := run (AlertPipeline.step repo scores partitionOf eventIdText)
      (AlertPipeline.initial before) moves
    (∃ handled, HandledOnce scores scoreId s.campaigns.committed handled ∧
      SuccessfulCalls repo handled s.campaigns.store) ∧
    s.outbox.rows.map AlertPipeline.rowContent =
      s.campaigns.store.outbox.map AlertPipeline.modelContent ∧
    (∀ row ∈ s.outbox.rows, row.status = .published →
      ∃ offset, (s.topics (row.topic, partitionOf row.envelope.partitionKey))[offset]? =
          some (some row.envelope) ∧
        (row.topic = "alerts.events.v1" →
          offset < s.notifications.committed (row.topic, partitionOf row.envelope.partitionKey) →
          DeliveredOnce eventIdText before.toNotificationTables s.notifications.store row.envelope)) ∧
    ∀ delivery ∈ s.notifications.store.deliveries,
      deliveryKey delivery ∉ deliveryKeys before.toNotificationTables →
      ∃ row ∈ s.campaigns.store.outbox, row.topic = "alerts.events.v1" ∧
        row.envelope = delivery.payload ∧ delivery.eventId = eventIdText row.envelope.eventId := by
  intro before s
  have hbefore := service_run setup
  have hlinked : AlertPipeline.Linked repo scores partitionOf eventIdText before.toNotificationTables s :=
    run_invariant (fun _ move h => h.step move)
      (AlertPipeline.linked_initial repo scores partitionOf eventIdText hbefore.1 hbefore.2) moves
  refine ⟨?_, hlinked.contents, fun row hrow hstatus => ?_, fun delivery hdelivery hnew => ?_⟩
  · exact ⟨_, hlinked.applied.schedule.handledOnce scoreId, hlinked.applied.holds⟩
  · obtain ⟨offset, hentry⟩ := List.getElem?_of_mem (hlinked.honest.published row hrow hstatus)
    exact ⟨offset, hentry, fun htopic hlt => hlinked.deliveredOnce htopic hentry hlt⟩
  · exact hlinked.justified hdelivery hnew

end Guarantee

end Workers
end Scam2Market
