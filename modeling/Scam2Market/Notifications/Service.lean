import Scam2Market.Library.Rows
import Scam2Market.Python.Values
import Mathlib.Logic.Function.Basic

/-!
# The notification service

`notifications/service.py`: the tables, the three transactions of `NotificationService`, and any number
of workers in `deliver_due` side by side.

* `enqueue`, `claimDue`, `finalizeDelivery`: the transactions.
* `Worker`: what is left of a batch, and where the send of its next delivery stands.
* `finalize`: the transaction may raise, applied or not.  Raised after a send that returned, the error is
  finalized instead; raised again, it leaves `deliver_due`, and the worker is gone.
* `NotStranded`: a delivery that is neither delivered nor failed has an owner or will be claimed; it is
  sent five times at most.
-/

namespace Scam2Market
namespace Notifications

open Library

/-! ## Tables -/

inductive DeliveryStatus where
  | pending
  | processing
  | delivered
  | retry
  | failed
  deriving DecidableEq, Repr

structure NotificationChannel where
  channelId : String
  tenantId : String
  channelType : String
  endpoint : String
  secret : Option String := none
  enabled : Bool := true
  deriving DecidableEq

structure NotificationSubscription where
  tenantId : String
  channelId : String
  minimumSeverity : String := "HIGH"
  assetIds : List String := []
  alertTypes : List String := []
  enabled : Bool := true

/-- A row of `notification_deliveries`; `payload` is the envelope of the event. -/
structure NotificationDelivery (ε : Type) where
  deliveryId : ℕ
  tenantId : String
  channelId : String
  eventId : String
  payload : ε
  status : DeliveryStatus := .pending
  attempts : ℕ := 0
  nextAttemptAt : Datetime
  deliveredAt : Option Datetime := none
  lastError : Option String := none
  responseCode : Option ℤ := none
  deriving DecidableEq

/-- What `enqueue` reads of an event: the severity in upper case, the asset and the alert type. -/
structure NotificationEvent (ε : Type) where
  eventId : String
  severity : String
  assetId : String
  alertType : String
  envelope : ε

structure NotificationTables (ε : Type) where
  channels : List NotificationChannel := []
  subscriptions : List NotificationSubscription := []
  deliveries : List (NotificationDelivery ε) := []

/-- `SEVERITY_ORDER`. -/
def severityOrder : String → Option ℕ
  | "INFO" => some 0
  | "NORMAL" => some 0
  | "WATCH" => some 1
  | "HIGH" => some 2
  | "CRITICAL" => some 3
  | _ => none

/-- `_matches(subscription, severity, asset_id, alert_type)`. -/
def isMatching (subscription : NotificationSubscription) (severity assetId alertType : String) :
    Bool :=
  (severityOrder subscription.minimumSeverity).getD 2 ≤ (severityOrder severity).getD 0 &&
    (subscription.assetIds = [] || assetId ∈ subscription.assetIds) &&
    (subscription.alertTypes = [] || alertType ∈ subscription.alertTypes)

namespace NotificationTables

variable {ε : Type}

/-- The channel of a key. -/
def channel? (t : NotificationTables ε) (channelId : String) : Option NotificationChannel :=
  t.channels.find? fun channel => channel.channelId = channelId

/-- The subscriptions of a tenant with their channels, both enabled. -/
def subscribed (t : NotificationTables ε) (tenantId : String) :
    List (NotificationSubscription × NotificationChannel) :=
  t.subscriptions.filterMap fun subscription =>
    match t.channel? subscription.channelId with
    | some channel =>
      if subscription.tenantId = tenantId && subscription.enabled && channel.enabled then
        some (subscription, channel)
      else none
    | none => none

/-- The delivery of an event to a channel is added, unless there is one; deliveries are numbered. -/
def addDelivery (t : NotificationTables ε) (now : Datetime) (tenantId : String)
    (event : NotificationEvent ε) (channel : NotificationChannel) : NotificationTables ε :=
  if t.deliveries.any fun delivery =>
      delivery.channelId = channel.channelId && delivery.eventId = event.eventId then t
  else { t with deliveries := t.deliveries ++ [{
    deliveryId := t.deliveries.length, tenantId, channelId := channel.channelId
    eventId := event.eventId, payload := event.envelope, nextAttemptAt := now }] }

/-- `enqueue(event, tenant_id)`. -/
def enqueue (t : NotificationTables ε) (now : Datetime) (event : NotificationEvent ε)
    (tenantId : String) : NotificationTables ε :=
  ((t.subscribed tenantId).filter fun (subscription, _) =>
      isMatching subscription event.severity event.assetId event.alertType).foldl
    (fun t (_, channel) => t.addDelivery now tenantId event channel) t

/-- The deliveries with their channels. -/
def joined (t : NotificationTables ε) : List (NotificationDelivery ε × NotificationChannel) :=
  t.deliveries.filterMap fun delivery =>
    (t.channel? delivery.channelId).map fun channel => (delivery, channel)

end NotificationTables

variable {ε : Type}

/-- The deliveries `_claim_due` selects. -/
def due (now : Datetime) (delivery : NotificationDelivery ε) : Bool :=
  (delivery.status = .pending || delivery.status = .retry) && delivery.nextAttemptAt ≤ now

/-- A delivery that was claimed. -/
structure Claim (ε : Type) where
  deliveryId : ℕ
  channel : NotificationChannel
  envelope : ε

def claim (delivery : NotificationDelivery ε) : NotificationDelivery ε :=
  { delivery with attempts := delivery.attempts + 1, status := .processing }

/-- The rows a call of `_claim_due` claims; `locked` are the rows that other transactions hold. -/
def claimedRows (now : Datetime) (limit : ℕ) (locked : ℕ → Bool) (t : NotificationTables ε) :
    List (NotificationDelivery ε × NotificationChannel) :=
  firstWhere (fun row => due now row.1 && !locked row.1.deliveryId)
    (fun row row' => row.1.nextAttemptAt ≤ row'.1.nextAttemptAt) limit t.joined

/-- `_claim_due(limit)`: what is claimed, and the tables after it. -/
def claimDue (now : Datetime) (limit : ℕ) (locked : ℕ → Bool) (t : NotificationTables ε) :
    List (Claim ε) × NotificationTables ε :=
  let rows := claimedRows now limit locked t
  (rows.map fun (delivery, channel) => ⟨delivery.deliveryId, channel, delivery.payload⟩,
    { t with
      deliveries := updateWhere
        (fun delivery => delivery.deliveryId ∈ rows.map fun row => row.1.deliveryId) claim
        t.deliveries })

/-- How the row of a delivery is finalized: with a response code, or with an error. -/
def settle (now : Datetime) (result : Except String ℤ) (delivery : NotificationDelivery ε) :
    NotificationDelivery ε :=
  match result with
  | .ok responseCode =>
    { delivery with
      status := .delivered
      deliveredAt := some now
      responseCode := some responseCode
      lastError := none }
  | .error error =>
    { delivery with
      lastError := some (String.ofList (error.toList.take 2000))
      status := if 5 ≤ delivery.attempts then .failed else .retry
      nextAttemptAt := now + timedeltaSeconds (min 900 (2 ^ delivery.attempts * 5)) }

/-- `_finalize(delivery_id, ...)`: a delivery that is not being processed stays. -/
def finalizeDelivery (now : Datetime) (deliveryId : ℕ) (result : Except String ℤ)
    (t : NotificationTables ε) : NotificationTables ε :=
  { t with
    deliveries := updateWhere
      (fun delivery => delivery.deliveryId = deliveryId && delivery.status = .processing)
      (settle now result) t.deliveries }

/-! ## Workers side by side -/

/-- Where the send of the next delivery stands. -/
inductive SendPhase where
  | ready
  | sending
  | sent (responseCode : ℤ)
  | raised (error : String)
  deriving DecidableEq

/-- The deliveries that are left, the send of the first of them, and how many were claimed. -/
structure Worker (ε : Type) where
  todo : List (Claim ε) := []
  phase : SendPhase := .ready
  claimed : ℕ := 0

/-- How a transaction ends; one that raises may have been applied. -/
inductive Commit where
  | returned
  | raised (applied : Bool) (error : String)

/-- The tables, the workers, and the deliveries that were sent, once for each call. -/
structure Service (ε : Type) extends NotificationTables ε where
  workers : ℕ → Worker ε := fun _ => {}
  sends : List ℕ := []

inductive ServiceMove (ε : Type) where
  | addChannel (channel : NotificationChannel)
  | subscribe (subscription : NotificationSubscription)
  | enqueue (now : Datetime) (event : NotificationEvent ε) (tenantId : String)
  | deliverDue (index : ℕ) (now : Datetime) (limit : ℕ) (locked : ℕ → Bool)
  | send (index : ℕ)
  | finish (index : ℕ) (result : Except String ℤ)
  | finalize (index : ℕ) (now : Datetime) (commit : Commit)
  | crash (index : ℕ)

namespace Service

/-- A worker goes on. -/
def setWorker (s : Service ε) (index : ℕ) (worker : Worker ε) : Service ε :=
  { s with workers := Function.update s.workers index worker }

def withTables (s : Service ε) (t : NotificationTables ε) : Service ε :=
  { s with toNotificationTables := t }

/-- A `deliver_due` begins. -/
def deliverDue (s : Service ε) (index : ℕ) (now : Datetime) (limit : ℕ) (locked : ℕ → Bool) :
    Service ε :=
  match (s.workers index).todo with
  | [] =>
    let (claims, t) := claimDue now limit locked s.toNotificationTables
    (s.withTables t).setWorker index { todo := claims, claimed := claims.length }
  | _ :: _ => s

/-- The channel is called. -/
def send (s : Service ε) (index : ℕ) : Service ε :=
  match s.workers index with
  | { todo := claim :: rest, phase := .ready, claimed } =>
    { s with sends := s.sends ++ [claim.deliveryId] }.setWorker index
      { todo := claim :: rest, phase := .sending, claimed }
  | _ => s

/-- The call of the channel returns, or raises. -/
def finish (s : Service ε) (index : ℕ) (result : Except String ℤ) : Service ε :=
  match s.workers index with
  | { todo, phase := .sending, claimed } =>
    s.setWorker index
      { todo
        phase := match result with
          | .ok responseCode => .sent responseCode
          | .error error => .raised error
        claimed }
  | _ => s

/-- The tables after a transaction that ended so. -/
def applied (s : Service ε) (t : NotificationTables ε) : Commit → Service ε
  | .raised false _ => s
  | _ => s.withTables t

/-- The first delivery is finalized. -/
def finalize (s : Service ε) (index : ℕ) (now : Datetime) (commit : Commit) : Service ε :=
  match s.workers index with
  | { todo := claim :: rest, phase := .sent responseCode, claimed } =>
    (s.applied (finalizeDelivery now claim.deliveryId (.ok responseCode) s.toNotificationTables)
      commit).setWorker index <|
      match commit with
      | .returned => { todo := rest, claimed }
      | .raised _ error => { todo := claim :: rest, phase := .raised error, claimed }
  | { todo := claim :: rest, phase := .raised error, claimed } =>
    (s.applied (finalizeDelivery now claim.deliveryId (.error error) s.toNotificationTables)
      commit).setWorker index <|
      match commit with
      | .returned => { todo := rest, claimed }
      | .raised _ _ => {}
  | _ => s

def step (s : Service ε) : ServiceMove ε → Service ε
  | .addChannel channel => s.withTables { s with channels := s.channels ++ [channel] }
  | .subscribe subscription =>
    s.withTables { s with subscriptions := s.subscriptions ++ [subscription] }
  | .enqueue now event tenantId => s.withTables (s.toNotificationTables.enqueue now event tenantId)
  | .deliverDue index now limit locked => s.deliverDue index now limit locked
  | .send index => s.send index
  | .finish index result => s.finish index result
  | .finalize index now commit => s.finalize index now commit
  | .crash index => s.setWorker index {}

/-- A delivery is in the batch of a worker. -/
def Owns (s : Service ε) (index : ℕ) (deliveryId : ℕ) : Prop :=
  deliveryId ∈ (s.workers index).todo.map Claim.deliveryId

/-- From when the next attempt is due, `_claim_due` returns the delivery, if no more deliveries than the
limit are due as early. -/
def WillBeClaimed (t : NotificationTables ε) (delivery : NotificationDelivery ε) : Prop :=
  ∀ now limit, delivery.nextAttemptAt ≤ now →
    (t.joined.filter fun row =>
      due now row.1 && row.1.nextAttemptAt ≤ delivery.nextAttemptAt).length ≤ limit →
    delivery.deliveryId ∈ (claimDue now limit (fun _ => false) t).1.map Claim.deliveryId

/-- A delivery that is neither delivered nor failed has an owner or will be claimed, and a delivery is
attempted five times at most: so many times it was claimed, and so many times it was sent. -/
structure NotStranded (s : Service ε) : Prop where
  owned : ∀ delivery ∈ s.deliveries, delivery.status ≠ .delivered → delivery.status ≠ .failed →
    (∃ index, s.Owns index delivery.deliveryId) ∨ WillBeClaimed s.toNotificationTables delivery
  attempts : ∀ delivery ∈ s.deliveries, delivery.attempts ≤ 5
  sends : ∀ deliveryId, s.sends.count deliveryId ≤ 5

/-- The deliveries that a worker leaves behind. -/
def leftBehind (s : Service ε) : ServiceMove ε → List ℕ
  | .crash index => (s.workers index).todo.map Claim.deliveryId
  | .finalize index _ (.raised applied _) =>
    match s.workers index with
    | { todo := claim :: rest, phase := .raised _, .. } =>
      (if applied then rest else claim :: rest).map Claim.deliveryId
    | _ => []
  | _ => []

/-- The condition on a step: a worker does not stop before every delivery of its batch is finalized. -/
def Careful (s : Service ε) (move : ServiceMove ε) : Prop :=
  ∀ delivery ∈ s.deliveries, delivery.status = .processing →
    delivery.deliveryId ∉ s.leftBehind move

end Service

end Notifications
end Scam2Market
