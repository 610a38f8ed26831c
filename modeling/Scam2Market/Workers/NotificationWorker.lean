import Scam2Market.Library.Consumers
import Scam2Market.Notifications.Stranding

/-!
# The notification worker

`workers/notification_worker.py`: one task takes the alert events and enqueues their deliveries, the other
delivers what is due; the channels and subscriptions are changed by requests meanwhile.

* `enqueueAlert`: the transaction of an alert, before its offset is committed.
* `deliveryKey`: deliveries are told apart by their channel and event (`uq_notification_channel_event`).
* `rule_queued`: the deliveries of every alert handled are there, each once.
* `queued_once`: whatever crashes, an alert below the committed offset has one delivery for each channel
  that was subscribed to it, and that delivery is sent five times at most.
-/

namespace Scam2Market
namespace Workers

open Library
open Library.Consumer
open Notifications

variable {ε : Type}

/-! ## The worker -/

/-- What the worker reads of an alert event: what is enqueued, and `event.payload.get("tenant_id")`. -/
structure AlertEvent (ε : Type) where
  alert : NotificationEvent ε
  payloadTenant : Option String

/-- `str(record.event.payload.get("tenant_id") or "default")`. -/
def AlertEvent.tenantId (event : AlertEvent ε) : String :=
  match event.payloadTenant with
  | none => "default"
  | some tenant => if tenant = "" then "default" else tenant

abbrev AlertLog (ε : Type) := String × ℕ → ℕ → Option (AlertEvent ε)

abbrev AlertRecord (ε : Type) := Record (String × ℕ) (AlertEvent ε)

/-- `service.enqueue(record.event, tenant_id=tenant_id)`; `now` is the clock of the database. -/
def enqueueAlert (record : AlertRecord ε) (now : Datetime) : Program (Service ε) :=
  .step (fun s => s.step (.enqueue now record.event.alert record.event.tenantId)) fun _ => .done

abbrev NotificationWorker (ε : Type) := Consumer (String × ℕ) (AlertEvent ε) (Service ε)

/-- A move of the first task, or any move of the service. -/
abbrev NotificationWorkerMove (ε : Type) := ConsumerMove (String × ℕ) Datetime (ServiceMove ε)

def notificationStep (log : AlertLog ε) :
    NotificationWorker ε → NotificationWorkerMove ε → NotificationWorker ε :=
  Consumer.step log enqueueAlert Service.step

/-! ## The keys of the deliveries -/

def deliveryKey (delivery : NotificationDelivery ε) : String × String :=
  (delivery.channelId, delivery.eventId)

def deliveryKeys (t : NotificationTables ε) : List (String × String) :=
  t.deliveries.map deliveryKey

variable {t : NotificationTables ε} {s : Service ε} {now : Datetime} {tenantId : String}
  {event : NotificationEvent ε} {channel : NotificationChannel} {history : List (AlertRecord ε)}

/-- A delivery is added when its key is new. -/
theorem deliveryKeys_addDelivery (t : NotificationTables ε) (now : Datetime) (tenantId : String)
    (event : NotificationEvent ε) (channel : NotificationChannel) :
    deliveryKeys (t.addDelivery now tenantId event channel) =
      deliveryKeys t ++
        if (channel.channelId, event.eventId) ∈ deliveryKeys t then []
        else [(channel.channelId, event.eventId)] := by
  have hany : (t.deliveries.any fun delivery =>
      delivery.channelId = channel.channelId && delivery.eventId = event.eventId) = true ↔
        (channel.channelId, event.eventId) ∈ deliveryKeys t := by
    simp only [List.any_eq_true, deliveryKeys, List.mem_map, deliveryKey, Prod.mk.injEq,
      Bool.and_eq_true, decide_eq_true_eq]
  rw [NotificationTables.addDelivery]
  by_cases hfound : (channel.channelId, event.eventId) ∈ deliveryKeys t
  · rw [if_pos (hany.mpr hfound), if_pos hfound, List.append_nil]
  · rw [if_neg fun h => hfound (hany.mp h), if_neg hfound, deliveryKeys, List.map_append]
    rfl

theorem mem_deliveryKeys_addDelivery {key : String × String} :
    key ∈ deliveryKeys (t.addDelivery now tenantId event channel) ↔
      key ∈ deliveryKeys t ∨ key = (channel.channelId, event.eventId) := by
  rw [deliveryKeys_addDelivery, List.mem_append]
  by_cases hfound : (channel.channelId, event.eventId) ∈ deliveryKeys t
  · rw [if_pos hfound]
    refine ⟨fun h => Or.inl (h.resolve_right List.not_mem_nil), fun h => ?_⟩
    rcases h with hold | rfl
    · exact Or.inl hold
    · exact Or.inl hfound
  · rw [if_neg hfound, List.mem_singleton]

theorem nodup_addDelivery (h : (deliveryKeys t).Nodup) :
    (deliveryKeys (t.addDelivery now tenantId event channel)).Nodup := by
  rw [deliveryKeys_addDelivery]
  by_cases hfound : (channel.channelId, event.eventId) ∈ deliveryKeys t
  · rw [if_pos hfound, List.append_nil]
    exact h
  · rw [if_neg hfound]
    exact h.append (List.nodup_singleton _) (List.disjoint_singleton.mpr hfound)

/-- The channels that an event is enqueued for. -/
def recipients (t : NotificationTables ε) (event : NotificationEvent ε) (tenantId : String) :
    List (NotificationSubscription × NotificationChannel) :=
  (t.subscribed tenantId).filter fun row =>
    isMatching row.1 event.severity event.assetId event.alertType

/-- **What `enqueue` adds.**  The keys of the recipients, none of them twice. -/
theorem deliveryKeys_enqueue (h : (deliveryKeys t).Nodup) (now : Datetime) (event : NotificationEvent ε)
    (tenantId : String) :
    (deliveryKeys (t.enqueue now event tenantId)).Nodup ∧
      ∀ key, key ∈ deliveryKeys (t.enqueue now event tenantId) ↔
        key ∈ deliveryKeys t ∨
          ∃ row ∈ recipients t event tenantId, key = (row.2.channelId, event.eventId) := by
  have hfold : ∀ (rows : List (NotificationSubscription × NotificationChannel))
      (t : NotificationTables ε), (deliveryKeys t).Nodup →
        (deliveryKeys (rows.foldl (fun t row => t.addDelivery now tenantId event row.2) t)).Nodup ∧
          ∀ key, key ∈ deliveryKeys
              (rows.foldl (fun t row => t.addDelivery now tenantId event row.2) t) ↔
            key ∈ deliveryKeys t ∨ ∃ row ∈ rows, key = (row.2.channelId, event.eventId) := by
    intro rows
    induction rows with
    | nil => exact fun t h => ⟨h, fun key => by simp⟩
    | cons row rows ih =>
      intro t h
      obtain ⟨hnodup, hmem⟩ := ih (t.addDelivery now tenantId event row.2) (nodup_addDelivery h)
      refine ⟨hnodup, fun key => (hmem key).trans ?_⟩
      rw [mem_deliveryKeys_addDelivery, or_assoc]
      simp only [List.mem_cons, exists_eq_or_imp]
  exact hfold _ t h

/-! ## What the other moves keep -/

/-- Whether a move enqueues. -/
def IsEnqueue : ServiceMove ε → Prop
  | .enqueue .. => True
  | _ => False

theorem map_applied {β : Type} {f : NotificationDelivery ε → β} {deliveryId : ℕ}
    {result : Except String ℤ} (commit : Commit)
    (hsettle : ∀ delivery, f (settle now result delivery) = f delivery) :
    (s.applied (finalizeDelivery now deliveryId result s.toNotificationTables)
      commit).deliveries.map f = s.deliveries.map f := by
  have happlied : (finalizeDelivery now deliveryId result s.toNotificationTables).deliveries.map f =
      s.deliveries.map f := map_updateWhere hsettle
  cases commit with
  | returned => exact happlied
  | raised applied error =>
    cases applied with
    | false => rfl
    | true => exact happlied

/-- Deliveries are rewritten and never removed: what claiming and settling keep, every move keeps that
enqueues nothing. -/
theorem map_deliveries_step {β : Type} {f : NotificationDelivery ε → β}
    (hclaim : ∀ delivery, f (claim delivery) = f delivery)
    (hsettle : ∀ now result delivery, f (settle now result delivery) = f delivery) (s : Service ε)
    {move : ServiceMove ε} (hmove : ¬ IsEnqueue move) :
    (s.step move).deliveries.map f = s.deliveries.map f := by
  cases move with
  | addChannel channel => rfl
  | subscribe subscription => rfl
  | enqueue now event tenantId => exact absurd trivial hmove
  | deliverDue index now limit locked =>
    rw [Service.step, Service.deliverDue]
    split
    · exact map_updateWhere hclaim
    · rfl
  | send index =>
    rw [Service.step, Service.send]
    split <;> rfl
  | finish index result =>
    show (s.finish index result).deliveries.map f = s.deliveries.map f
    unfold Service.finish
    split <;> rfl
  | finalize index now commit =>
    rw [Service.step, Service.finalize]
    split
    · exact map_applied commit (hsettle now _)
    · exact map_applied commit (hsettle now _)
    · rfl
  | crash index => rfl

theorem channels_applied {deliveryId : ℕ} {result : Except String ℤ} (commit : Commit) :
    (s.applied (finalizeDelivery now deliveryId result s.toNotificationTables)
        commit).channels = s.channels ∧
      (s.applied (finalizeDelivery now deliveryId result s.toNotificationTables)
        commit).subscriptions = s.subscriptions := by
  cases commit with
  | returned => exact ⟨rfl, rfl⟩
  | raised applied error => cases applied <;> exact ⟨rfl, rfl⟩

/-- What a move keeps of the tables: the keys of the deliveries, which stay distinct, and the rows that are
subscribed. -/
structure Grows (t t' : NotificationTables ε) : Prop where
  nodup : (deliveryKeys t).Nodup → (deliveryKeys t').Nodup
  keys : (deliveryKeys t).Nodup → deliveryKeys t ⊆ deliveryKeys t'
  subscribed : ∀ tenantId, t.subscribed tenantId ⊆ t'.subscribed tenantId

theorem grows_of_keys {t t' : NotificationTables ε} (hkeys : deliveryKeys t' = deliveryKeys t)
    (hchannels : t'.channels = t.channels) (hsubscriptions : t'.subscriptions = t.subscriptions) :
    Grows t t' where
  nodup h := hkeys ▸ h
  keys _ := hkeys ▸ List.Subset.refl _
  subscribed tenantId := by
    have hsame : t'.subscribed tenantId = t.subscribed tenantId := by
      simp only [NotificationTables.subscribed, NotificationTables.channel?, hchannels, hsubscriptions]
    rw [hsame]
    exact List.Subset.refl _

theorem channels_enqueue (t : NotificationTables ε) (now : Datetime) (event : NotificationEvent ε)
    (tenantId : String) :
    (t.enqueue now event tenantId).channels = t.channels ∧
      (t.enqueue now event tenantId).subscriptions = t.subscriptions := by
  rw [NotificationTables.enqueue]
  generalize (t.subscribed tenantId).filter _ = rows
  induction rows generalizing t with
  | nil => exact ⟨rfl, rfl⟩
  | cons row rows ih =>
    have hrow : (t.addDelivery now tenantId event row.2).channels = t.channels ∧
        (t.addDelivery now tenantId event row.2).subscriptions = t.subscriptions := by
      rw [NotificationTables.addDelivery]
      split_ifs <;> exact ⟨rfl, rfl⟩
    obtain ⟨hchannels, hsubscriptions⟩ := ih (t.addDelivery now tenantId event row.2)
    exact ⟨hchannels.trans hrow.1, hsubscriptions.trans hrow.2⟩

theorem grows_enqueue (t : NotificationTables ε) (now : Datetime) (event : NotificationEvent ε)
    (tenantId : String) : Grows t (t.enqueue now event tenantId) where
  nodup h := (deliveryKeys_enqueue h now event tenantId).1
  keys h key hkey := ((deliveryKeys_enqueue h now event tenantId).2 key).mpr (Or.inl hkey)
  subscribed tenantId' := by
    obtain ⟨hchannels, hsubscriptions⟩ := channels_enqueue t now event tenantId
    have hsame : (t.enqueue now event tenantId).subscribed tenantId' = t.subscribed tenantId' := by
      simp only [NotificationTables.subscribed, NotificationTables.channel?, hchannels, hsubscriptions]
    rw [hsame]
    exact List.Subset.refl _

/-- The first channel of a key stays the first. -/
theorem subscribed_addChannel (t : NotificationTables ε) (added : NotificationChannel) (tenantId : String) :
    t.subscribed tenantId ⊆
      ({ t with channels := t.channels ++ [added] } : NotificationTables ε).subscribed tenantId := by
  intro row hrow
  obtain ⟨subscription, hsubscription, hkept⟩ := List.mem_filterMap.mp hrow
  refine List.mem_filterMap.mpr ⟨subscription, hsubscription, ?_⟩
  cases hchannel : t.channel? subscription.channelId with
  | none =>
    rw [hchannel] at hkept
    exact absurd hkept (by simp)
  | some channel =>
    have happend : ({ t with channels := t.channels ++ [added] } : NotificationTables ε).channel?
        subscription.channelId = some channel := by
      rw [NotificationTables.channel?, List.find?_append]
      rw [NotificationTables.channel?] at hchannel
      rw [hchannel]
      rfl
    rw [hchannel] at hkept
    rw [happend]
    exact hkept

/-- **Every move of the service lets the tables grow.** -/
theorem grows_step (s : Service ε) (move : ServiceMove ε) :
    Grows s.toNotificationTables (s.step move).toNotificationTables := by
  have hkeys : ¬ IsEnqueue move →
      deliveryKeys (s.step move).toNotificationTables = deliveryKeys s.toNotificationTables :=
    fun hmove => map_deliveries_step (fun _ => rfl)
      (fun _ result _ => by cases result <;> rfl) s hmove
  cases move with
  | addChannel channel =>
    exact ⟨fun h => h, fun _ => List.Subset.refl _,
      subscribed_addChannel s.toNotificationTables channel⟩
  | subscribe subscription =>
    refine ⟨fun h => h, fun _ => List.Subset.refl _, fun tenantId row hrow => ?_⟩
    show row ∈ (s.subscriptions ++ [subscription]).filterMap _
    rw [List.filterMap_append]
    exact List.mem_append_left _ hrow
  | enqueue now event tenantId => exact grows_enqueue s.toNotificationTables now event tenantId
  | deliverDue index now limit locked =>
    refine grows_of_keys (hkeys not_false) ?_ ?_ <;>
      rw [Service.step, Service.deliverDue] <;> split <;> rfl
  | send index =>
    refine grows_of_keys (hkeys not_false) ?_ ?_ <;>
      rw [Service.step, Service.send] <;> split <;> rfl
  | finish index result =>
    have hfinish : (s.finish index result).toNotificationTables = s.toNotificationTables := by
      unfold Service.finish
      split <;> rfl
    exact grows_of_keys (hkeys not_false) (congrArg NotificationTables.channels hfinish)
      (congrArg NotificationTables.subscriptions hfinish)
  | finalize index now commit =>
    refine grows_of_keys (hkeys not_false) ?_ ?_ <;> rw [Service.step, Service.finalize] <;> split
    · exact (channels_applied commit).1
    · exact (channels_applied commit).1
    · rfl
    · exact (channels_applied commit).2
    · exact (channels_applied commit).2
    · rfl
  | crash index => exact grows_of_keys (hkeys not_false) rfl rfl

/-! ## Runs of the worker -/

/-- What holds of the deliveries: those of the alerts handled are there, for the channels that were
subscribed in `before`. -/
structure Queued (before : NotificationTables ε) (history : List (AlertRecord ε)) (s : Service ε) :
    Prop where
  service : Service.Invariant s
  distinct : (deliveryKeys s.toNotificationTables).Nodup
  subscribed : ∀ tenantId, before.subscribed tenantId ⊆ s.subscribed tenantId
  queued : ∀ record ∈ history,
    ∀ row ∈ recipients before record.event.alert record.event.tenantId,
      (row.2.channelId, record.event.alert.eventId) ∈ deliveryKeys s.toNotificationTables

variable {before : NotificationTables ε}

theorem Queued.step (h : Queued before history s) (move : ServiceMove ε) :
    Queued before history (s.step move) where
  service := h.service.step move
  distinct := (grows_step s move).nodup h.distinct
  subscribed tenantId :=
    List.Subset.trans (h.subscribed tenantId) ((grows_step s move).subscribed tenantId)
  queued record hrecord row hrow :=
    (grows_step s move).keys h.distinct (h.queued record hrecord row hrow)

/-- The transaction of an alert leaves its deliveries. -/
theorem Queued.enqueue (h : Queued before history s) (record : AlertRecord ε) (now : Datetime) :
    Queued before (history ++ [record])
      (s.step (.enqueue now record.event.alert record.event.tenantId)) where
  service := h.service.step _
  distinct := (h.step _).distinct
  subscribed := (h.step _).subscribed
  queued other hother row hrow := by
    rcases List.mem_append.mp hother with hold | hnew
    · exact (h.step _).queued other hold row hrow
    · rw [List.mem_singleton.mp hnew] at hrow ⊢
      obtain ⟨hsubscribed, hmatching⟩ := List.mem_filter.mp hrow
      refine ((deliveryKeys_enqueue h.distinct now record.event.alert record.event.tenantId).2 _).mpr
        (Or.inr ⟨row, ?_, rfl⟩)
      exact List.mem_filter.mpr ⟨h.subscribed _ hsubscribed, hmatching⟩

/-- Handling an alert queues it. -/
theorem rule_queued (before : NotificationTables ε) (log : AlertLog ε) :
    Rule log enqueueAlert Service.step (fun _ => True) (Queued before) (Queued before) where
  interfere _ move _ h := h.step move
  interfere_running _ move _ h := h.step move
  recover _ _ h _ := h
  handle history record now s _ _ _ _ h := by
    refine ⟨h, fun s' hs' => ?_⟩
    have hkept : Queued before history s' := hs'.keeps (fun move _ hs => hs.step move) h
    exact hkept.enqueue record now

/-- What holds of the service whatever was done. -/
theorem service_run (setup : List (ServiceMove ε)) :
    Service.Invariant (run Service.step {} setup) ∧
      (deliveryKeys (run Service.step {} setup).toNotificationTables).Nodup :=
  run_invariant (I := fun s : Service ε =>
      Service.Invariant s ∧ (deliveryKeys s.toNotificationTables).Nodup)
    (fun s move h => ⟨h.1.step move, (grows_step s move).nodup h.2⟩)
    ⟨Service.invariant_initial, List.nodup_nil⟩ setup

/-- **No alert is lost, and none is delivered twice.**  Take any state of the service, and from there any
run: the task may be cut off at every point, and channels, subscriptions, other workers and their sends may
come in between.  Below the committed offset, an alert has exactly one delivery for each channel that was
subscribed to it; and no delivery is sent more than five times. -/
theorem queued_once (log : AlertLog ε) (setup : List (ServiceMove ε))
    (moves : List (NotificationWorkerMove ε)) :
    let before := run Service.step {} setup
    let s := run (notificationStep log) { store := before } moves
    (∀ partition offset event, log partition offset = some event → offset < s.committed partition →
      ∀ row ∈ recipients before.toNotificationTables event.alert event.tenantId,
        ∃! delivery, delivery ∈ s.store.deliveries ∧
          deliveryKey delivery = (row.2.channelId, event.alert.eventId)) ∧
    ∀ delivery ∈ s.store.deliveries, s.store.sends.count delivery.deliveryId ≤ 5 := by
  intro before s
  have hbefore := service_run setup
  have hinitial : Queued before.toNotificationTables [] before :=
    ⟨hbefore.1, hbefore.2, fun _ => List.Subset.refl _, fun _ h => absurd h List.not_mem_nil⟩
  have hconsumed := consumed_run (rule_queued before.toNotificationTables log)
    (consumed_initial hinitial) moves
  have hqueued := hconsumed.holds
  refine ⟨fun partition offset event hevent hlt row hrow => ?_,
    fun delivery _ => hqueued.service.count_le delivery.deliveryId⟩
  have hhandled := hconsumed.schedule.complete partition offset event hevent hlt
  obtain ⟨delivery, hdelivery, hkey⟩ := List.mem_map.mp (hqueued.queued _ hhandled row hrow)
  refine ⟨delivery, ⟨hdelivery, hkey⟩, ?_⟩
  rintro other ⟨hother, hotherKey⟩
  exact eq_of_key_eq hqueued.distinct hother hdelivery (hotherKey.trans hkey.symm)

end Workers
end Scam2Market
