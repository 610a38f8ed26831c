import Mathlib.Data.Prod.Lex
import Mathlib.Data.String.Basic
import Scam2Market.Features.Checkpoint
import Scam2Market.Library.Rows
import Scam2Market.Workers.HandlerSteps
import Scam2Market.Workers.TelemetryOffsets

/-!
# The feature worker

The loop of `workers/stream_worker.py` over `EventConsumer` of `streaming/consumer.py` and the repository
of the checkpoints in `ingestion/repositories.py`.

* The process may stop after any step, and whatever raises stops it (`crash`).  What is left are the join
  keys, the latest features, the tables, the published events, the checkpoints and the committed offsets.
* `start`: the next process restores the checkpoint that was updated last, and begins at the committed
  offsets.
* `fetch`: any number of records of any partitions, in the order of the event times.  Offsets may have gaps.
* A batch is handled record by record; then one record of each partition is saved, with the state of the
  engine, and committed.
* `passed`, `returned` and `longest` are for the statements only: the signals that were passed to an engine,
  for which record, the records whose handling has returned, and the longest log of a scope and asset.
-/

namespace Scam2Market
namespace Workers

open Features (EngineConfig EngineState FeatureSignal Serialiser)
open Library (OrderedDict)

/-! ## Records -/

def WorkerEvent.eventTime : WorkerEvent → Datetime
  | market event => event.eventTime
  | post event => event.eventTime
  | mentions event => event.eventTime

structure ConsumedEvent where
  event : WorkerEvent
  partition : Partition
  offset : ℕ

namespace ConsumedEvent

/-- The key of the sort of a batch. -/
def sortKey (record : ConsumedEvent) : Datetime ×ₗ String ×ₗ ℕ ×ₗ ℕ :=
  toLex (record.event.eventTime,
    toLex (record.partition.1, toLex (record.partition.2, record.offset)))

/-- `sorted(batch, key=...)`. -/
def sorted (batch : List ConsumedEvent) : List ConsumedEvent :=
  batch.insertionSort fun a b => a.sortKey ≤ b.sortKey

/-- `latest_by_partition`: the last record of each partition, in the order of the batch. -/
def latestByPartition (batch : List ConsumedEvent) : List ConsumedEvent :=
  (OrderedDict.ofEntries (batch.map fun record => (record.partition, record))).entries.map Prod.snd

end ConsumedEvent

/-! ## Checkpoints -/

/-- What was written is read back. -/
structure FaithfulSerialiser extends Serialiser where
  keepsInstant : ∀ value, toSerialiser.KeepsInstant value
  loads_dumps : ∀ {document text}, toSerialiser.dumps document = .ok text →
    toSerialiser.loads text = .ok document

/-- A row of the checkpoints of the worker; the rows stand under their partitions. -/
structure WorkerCheckpointModel where
  lastDurableOffset : ℕ
  featureStateVersion : String
  stateJson : Json
  stateChecksum : Digest String
  eventTime : Datetime
  updatedAt : ℕ

/-- The rows of the worker. -/
abbrev Checkpoints := OrderedDict Partition WorkerCheckpointModel

/-- `save(...)` at the time `now`.  Where no column changes, no row is updated. -/
def Checkpoints.save (rows : Checkpoints) (now : ℕ) (record : ConsumedEvent) (stateJson : Json)
    (stateChecksum : Digest String) : Checkpoints :=
  let written (lastDurableOffset : ℕ) : WorkerCheckpointModel := {
    lastDurableOffset := lastDurableOffset
    featureStateVersion := "feature-engine-state-v1"
    stateJson := stateJson
    stateChecksum := stateChecksum
    eventTime := record.event.eventTime
    updatedAt := now }
  match rows.get? record.partition with
  | none => rows.set record.partition (written record.offset)
  | some row =>
    let offset := max row.lastDurableOffset record.offset
    if row.lastDurableOffset = offset ∧ row.stateChecksum = stateChecksum ∧
        row.eventTime = record.event.eventTime then rows
    else rows.set record.partition (written offset)

/-- `latest(consumer_group)`. -/
def Checkpoints.latest (rows : Checkpoints) : Option WorkerCheckpointModel :=
  (rows.entries.map Prod.snd).argmax WorkerCheckpointModel.updatedAt

/-! ## The worker -/

inductive WorkerPhase where
  | down
  | polling
  | handling (batch : List ConsumedEvent) (record : ConsumedEvent) (handler : Handler)
    (rest : List ConsumedEvent)
  | saving (stateJson : Json) (stateChecksum : Digest String) (todo : List ConsumedEvent)
  | committing (stateJson : Json) (stateChecksum : Digest String) (record : ConsumedEvent)
    (todo : List ConsumedEvent)

/-- The records of the batch whose handling has not returned. -/
def WorkerPhase.pending : WorkerPhase → List ConsumedEvent
  | .handling _ record _ rest => record :: rest
  | _ => []

structure FeatureWorker where
  stores : Stores := .initial
  health : String → Option JsonObject := fun _ => none
  checkpoints : Checkpoints := .empty
  now : ℕ := 0
  committed : Partition → ℕ := fun _ => 0
  position : Partition → ℕ := fun _ => 0
  phase : WorkerPhase := .down
  passed : List (ConsumedEvent × FeatureSignal) := []
  returned : List ConsumedEvent := []
  longest : String → String → List FeatureSignal := fun _ _ => []

inductive WorkerMove where
  | start
  | fetch (ends : List (Partition × ℕ))
  | advance (now : Datetime)
  | setHealth (key : String) (health : JsonObject)
  | crash

/-- The signals of a scope and asset. -/
def signalsOf (scopeId assetId : String) (log : List FeatureSignal) : List FeatureSignal :=
  log.filter fun signal => signal.scopeId = scopeId ∧ signal.assetId = assetId

/-- The signal that the next step of a handler passes to the engine. -/
def Handler.next? (handler : Handler) : Option FeatureSignal :=
  match handler.stage with
  | .working (.ingest signal :: _) _ => some signal
  | _ => none

namespace FeatureWorker

variable (cfg : EngineConfig) (ser : FaithfulSerialiser) (records : Partition → ℕ → Option WorkerEvent)

/-- The process stops, and its memory is lost. -/
def crash (s : FeatureWorker) : FeatureWorker :=
  { s with stores := { s.stores with engine := .initial }, phase := .down }

/-- The loop begins. -/
def begin (s : FeatureWorker) (engine : EngineState) : FeatureWorker :=
  { s with
    stores := { s.stores with engine := engine }, position := s.committed, phase := .polling }

/-- The checkpoint is restored; a checksum that does not match, or a state that cannot be restored,
stops the process. -/
def start (s : FeatureWorker) : FeatureWorker :=
  match s.phase with
  | .down =>
    match s.checkpoints.latest with
    | none => s.begin .initial
    | some checkpoint =>
      match ser.dumps checkpoint.stateJson with
      | .error _ => s
      | .ok encoded =>
        if checkpoint.stateChecksum ≠ ⟨encoded⟩ then s
        else
          match Features.restoreState cfg ser.toSerialiser checkpoint.stateJson .initial with
          | (.error _, _) => s
          | (.ok _, engine) => s.begin engine
  | _ => s

/-- The records of a partition from its position to an offset. -/
def recordsUpTo (s : FeatureWorker) (partition : Partition) (stop : ℕ) : List ConsumedEvent :=
  (List.range' (s.position partition) (stop - s.position partition)).filterMap fun offset =>
    (records partition offset).map fun event => ⟨event, partition, offset⟩

/-- `getmany(...)` and the sort. -/
def batchOf (s : FeatureWorker) (ends : List (Partition × ℕ)) : List ConsumedEvent :=
  ConsumedEvent.sorted (ends.flatMap fun entry => s.recordsUpTo records entry.1 entry.2)

/-- The next batch, unless it is empty. -/
def fetch (s : FeatureWorker) (ends : List (Partition × ℕ)) : FeatureWorker :=
  match s.phase, s.batchOf records ends with
  | .polling, record :: rest =>
    if (ends.map Prod.fst).Nodup then
      { s with
        position := fun partition =>
          max (s.position partition) (((ends.find? fun entry => entry.1 = partition).map Prod.snd).getD 0)
        phase := .handling (record :: rest) record { event := record.event } rest }
    else s
  | _, _ => s

/-- The state of the engine is exported once the batch is handled. -/
def exportEngine (s : FeatureWorker) (batch : List ConsumedEvent) : FeatureWorker :=
  let stateJson := Features.exportState ser.toSerialiser s.stores.engine
  match ser.dumps stateJson with
  | .error _ => s.crash
  | .ok encoded =>
    { s with phase := .saving stateJson ⟨encoded⟩ (ConsumedEvent.latestByPartition batch) }

/-- The handler of a record has returned. -/
def proceed (s : FeatureWorker) (batch : List ConsumedEvent) (record : ConsumedEvent)
    (rest : List ConsumedEvent) : FeatureWorker :=
  let s := { s with returned := s.returned ++ [record] }
  match rest with
  | next :: rest => { s with phase := .handling batch next { event := next.event } rest }
  | [] => s.exportEngine ser batch

/-- The next step of the handler of a record. -/
def handle (s : FeatureWorker) (now : Datetime) (batch : List ConsumedEvent) (record : ConsumedEvent)
    (handler : Handler) (rest : List ConsumedEvent) : FeatureWorker :=
  let (handler', stores) := handler.advance cfg ⟨s.health, now⟩ s.stores
  { s with
    stores := stores
    phase := .handling batch record handler' rest
    passed := s.passed ++ handler.next?.toList.map fun signal => (record, signal)
    longest := fun scopeId assetId =>
      let log := signalsOf scopeId assetId stores.engine.signalLog
      if (s.longest scopeId assetId).length < log.length then log else s.longest scopeId assetId }

/-- A checkpoint is saved. -/
def save (s : FeatureWorker) (stateJson : Json) (stateChecksum : Digest String)
    (record : ConsumedEvent) (todo : List ConsumedEvent) : FeatureWorker :=
  { s with
    checkpoints := s.checkpoints.save s.now record stateJson stateChecksum
    now := s.now + 1
    phase := .committing stateJson stateChecksum record todo }

/-- `commit(record)`. -/
def commit (s : FeatureWorker) (stateJson : Json) (stateChecksum : Digest String)
    (record : ConsumedEvent) (todo : List ConsumedEvent) : FeatureWorker :=
  { s with
    committed := Function.update s.committed record.partition (record.offset + 1)
    phase := .saving stateJson stateChecksum todo }

/-- The next step of the loop. -/
def advance (s : FeatureWorker) (now : Datetime) : FeatureWorker :=
  match s.phase with
  | .handling batch record handler rest =>
    match handler.stage with
    | .raised _ => s.crash
    | .returned => s.proceed ser batch record rest
    | _ => s.handle cfg now batch record handler rest
  | .saving stateJson stateChecksum (record :: todo) => s.save stateJson stateChecksum record todo
  | .saving _ _ [] => { s with phase := .polling }
  | .committing stateJson stateChecksum record todo => s.commit stateJson stateChecksum record todo
  | _ => s

def step (s : FeatureWorker) : WorkerMove → FeatureWorker
  | .start => s.start cfg ser
  | .fetch ends => s.fetch records ends
  | .advance now => s.advance cfg ser now
  | .setHealth key health => { s with health := Function.update s.health key (some health) }
  | .crash => s.crash

end FeatureWorker

end Workers
end Scam2Market
