import Scam2Market.Features.Signals
import Scam2Market.Features.Tables
import Scam2Market.Services.Calls
import Mathlib.Logic.Function.Basic

/-!
# How the feature worker handles an event

`_process_event` and `_process_social_pair` of `workers/stream_worker.py`, and
`FeatureWindowService.process` of `features/engine.py`, cut into the steps between which another process
can act or this one can stop: one write or read of a store, one call of the engine, one transaction,
one event published.

* `Stores`: the engine, which is in the memory of the worker, and what outlives it: the join keys and
  the latest features in the online state, the tables and the published events.
* `Effect`: what is still to be done; to pass a signal to the engine adds what is to be done with the
  snapshots it returns.
* `Handler.advance`: the next step of a handler.
-/

namespace Scam2Market
namespace Workers

open Features (EngineConfig EngineState FeatureSignal FeatureSnapshot FeatureTables WindowKey)
open Library (OrderedDict Procedure)
open Streaming (CanonicalEvent MarketEvent MentionEvent PostEvent)

/-- An event of the topics of the worker. -/
inductive WorkerEvent where
  | market (event : MarketEvent)
  | post (event : PostEvent)
  | mentions (event : MentionEvent)

/-- The event of a snapshot. -/
abbrev FeatureEvent := CanonicalEvent (String × Uuid WindowKey × ℕ) FeatureSnapshot

/-- What the handlers read and write.  The join keys are `join:social:post:{post_id}` and
`join:social:mentions:{post_id}`. -/
structure Stores where
  engine : EngineState
  posts : String → Option PostEvent
  mentions : String → Option MentionEvent
  online : OrderedDict String FeatureSnapshot
  tables : FeatureTables
  published : List (String × FeatureEvent)

/-- Nothing has been handled. -/
def Stores.initial : Stores where
  engine := .initial
  posts := fun _ => none
  mentions := fun _ => none
  online := .empty
  tables := .empty
  published := []

/-- What a step finds: the source health that other workers have written, and the time. -/
structure Surroundings where
  health : String → Option JsonObject
  now : Datetime

/-! ## The effects of a signal -/

inductive Effect where
  | ingest (signal : FeatureSignal)
  | persist (snapshot : FeatureSnapshot)
  | setScoped (snapshot : FeatureSnapshot)
  | setLatest (snapshot : FeatureSnapshot)
  | publish (signal : FeatureSignal) (snapshot : FeatureSnapshot)

/-- The signal an effect passes to the engine. -/
def Effect.signal? : Effect → Option FeatureSignal
  | ingest signal => some signal
  | _ => none

/-- The body of the loop over the snapshots. -/
def snapshotEffects (signal : FeatureSignal) (snapshot : FeatureSnapshot) : List Effect :=
  [.persist snapshot, .setScoped snapshot, .setLatest snapshot, .publish signal snapshot]

/-- `set_json(key, snapshot)`. -/
def setFeatures (key : String) (snapshot : FeatureSnapshot) (stores : Stores) : Stores :=
  { stores with online := stores.online.set key snapshot }

/-- Have an effect, and return what is to be done next. -/
def perform (cfg : EngineConfig) (found : Surroundings) :
    Effect → Procedure Stores PyError (List Effect)
  | .ingest signal => do
    let snapshots ← (Features.ingest cfg signal).within Stores.engine
      fun engine stores => { stores with engine := engine }
    return snapshots.flatMap (snapshotEffects signal)
  | .persist snapshot => do
    let _ ← (Features.persist snapshot).within Stores.tables
      fun tables stores => { stores with tables := tables }
    return []
  | .setScoped snapshot => do
    Procedure.modify (setFeatures (Services.scopedFeaturesKey snapshot.scopeId snapshot.assetId
      snapshot.intervalSeconds) snapshot)
    return []
  | .setLatest snapshot => do
    Procedure.modify (setFeatures (Services.latestFeaturesKey snapshot.assetId
      snapshot.intervalSeconds) snapshot)
    return []
  | .publish signal snapshot => do
    let event ← Procedure.ofExcept (Services.featureEvent signal found.now snapshot)
    Procedure.modify fun stores =>
      { stores with published := stores.published ++ [(Services.featureTopic signal, event)] }
    return []

/-! ## Handlers -/

/-- The health that is read once the signals of an event are processed. -/
inductive HealthQuery where
  | market (event : MarketEvent)
  | social (event : MentionEvent) (platform : String) (signals : List FeatureSignal)

/-- The key that is read. -/
def HealthQuery.key : HealthQuery → String
  | market event => s!"source-health:market:{event.source}:{event.assetId}"
  | social event platform _ => s!"source-health:social:{event.source}:{platform}"

/-- The signals about the health. -/
def HealthQuery.signals (health : JsonObject) : HealthQuery → List FeatureSignal
  | market event => [Features.marketQualitySignal event health]
  | social event _ signals => Features.socialQualitySignals event signals health

inductive Stage where
  | received
  | stored (postId : String)
  | readPost (postId : String)
  | working (effects : List Effect) (query : Option HealthQuery)
  | returned
  | raised (error : PyError)

/-- A call of `_process_event`, with what it has read and the signals it has passed to the engine. -/
structure Handler where
  event : WorkerEvent
  stage : Stage := .received
  postData : Option PostEvent := none
  mentionData : Option MentionEvent := none
  passed : List FeatureSignal := []

namespace Handler

/-- The first step: a market event has its signal, an event about a post is written to its join key. -/
def receive (handler : Handler) (stores : Stores) : Handler × Stores :=
  match handler.event with
  | .market event =>
    match Streaming.normalizeMarketEvent event with
    | .ok datum =>
      ({ handler with
          stage := .working [.ingest (Features.marketSignal event datum)] (some (.market event)) },
        stores)
    | .error error => ({ handler with stage := .raised error }, stores)
  | .post event =>
    let postId := event.payload.postId
    ({ handler with stage := .stored postId },
      { stores with posts := Function.update stores.posts postId (some event) })
  | .mentions event =>
    let postId := event.payload.postId
    ({ handler with stage := .stored postId },
      { stores with mentions := Function.update stores.mentions postId (some event) })

/-- The signals of a pair. -/
def pairSignals (post : PostEvent) (mention : MentionEvent) : List FeatureSignal :=
  Features.socialSignals mention post.payload mention.payload.mentions

/-- What is done once both keys are read. -/
def join (handler : Handler) (mentionData : Option MentionEvent) : Handler :=
  match handler.postData, mentionData with
  | some post, some mention =>
    { handler with
      mentionData := mentionData
      stage := .working ((pairSignals post mention).map .ingest)
        (some (.social mention post.payload.platform (pairSignals post mention))) }
  | _, _ => { handler with mentionData := mentionData, stage := .returned }

/-- The next effect. -/
def work (cfg : EngineConfig) (found : Surroundings) (handler : Handler) (effect : Effect)
    (effects : List Effect) (query : Option HealthQuery) (stores : Stores) : Handler × Stores :=
  match perform cfg found effect stores with
  | (.ok more, stores) =>
    ({ handler with
        stage := .working (more ++ effects) query
        passed := handler.passed ++ effect.signal?.toList }, stores)
  | (.error error, stores) => ({ handler with stage := .raised error }, stores)

/-- Ask for the health of the source. -/
def ask (found : Surroundings) (handler : Handler) (query : HealthQuery) : Handler :=
  match found.health query.key with
  | some health => { handler with stage := .working ((query.signals health).map .ingest) none }
  | none => { handler with stage := .returned }

/-- The next step of a handler. -/
def advance (cfg : EngineConfig) (found : Surroundings) (handler : Handler) (stores : Stores) :
    Handler × Stores :=
  match handler.stage with
  | .received => handler.receive stores
  | .stored postId =>
    ({ handler with postData := stores.posts postId, stage := .readPost postId }, stores)
  | .readPost postId => (handler.join (stores.mentions postId), stores)
  | .working (effect :: effects) query => handler.work cfg found effect effects query stores
  | .working [] (some query) => (handler.ask found query, stores)
  | .working [] none => ({ handler with stage := .returned }, stores)
  | .returned => (handler, stores)
  | .raised _ => (handler, stores)

end Handler

end Workers
end Scam2Market
