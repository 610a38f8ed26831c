import Scam2Market.Library.Procedure
import Scam2Market.Streaming.Events
import Scam2Market.Features.Engine
import Scam2Market.Intelligence.Schemas

/-!
# What the services write to

The feature service and the detection service share an online state store, and each has a repository
and publishes events.  The stores are the in-memory ones of the program: dictionaries and lists.

The keys of the online state are the strings the services format.  A scope or an asset may contain a
colon, so the scoped key of one asset can be the unscoped key of another.
-/

namespace Scam2Market
namespace Services

open Features (EngineState FeatureSnapshot WindowKey)
open Intelligence (FusionResult ScoreIdentity)
open Library (OrderedDict)
open Streaming (CanonicalEvent)

/-- A value of the online state: the dump of a snapshot or of a score. -/
inductive StateRecord where
  | features (snapshot : FeatureSnapshot)
  | score (result : FusionResult)

/-- The scope a value was computed in. -/
def StateRecord.scopeId : StateRecord → String
  | features snapshot => snapshot.scopeId
  | score result => result.scopeId

/-- A published event. -/
inductive PublishedEvent where
  | feature (event : CanonicalEvent (String × Uuid WindowKey × ℕ) FeatureSnapshot)
  | score (event : CanonicalEvent
      (String × Uuid WindowKey × ℕ × Option (Digest ScoreIdentity)) FusionResult)

/-- The engine and the stores. -/
structure ServiceState where
  engine : EngineState
  snapshots : OrderedDict (Uuid WindowKey × ℕ) FeatureSnapshot
  history : List FeatureSnapshot
  results : OrderedDict (Uuid WindowKey × ℤ × Option (Digest ScoreIdentity)) FusionResult
  online : OrderedDict String StateRecord
  published : List (String × PublishedEvent)

/-- Nothing has been processed. -/
def ServiceState.initial : ServiceState where
  engine := .initial
  snapshots := .empty
  history := []
  results := .empty
  online := .empty
  published := []

/-- A method of a service. -/
abbrev ServiceM := Library.Procedure ServiceState PyError

/-- `latest:features:{scope_id}:{asset_id}:{interval_seconds}`. -/
def scopedFeaturesKey (scopeId assetId : String) (intervalSeconds : ℕ) : String :=
  s!"latest:features:{scopeId}:{assetId}:{intervalSeconds}"

/-- `latest:features:{asset_id}:{interval_seconds}`. -/
def latestFeaturesKey (assetId : String) (intervalSeconds : ℕ) : String :=
  s!"latest:features:{assetId}:{intervalSeconds}"

/-- `latest:score:{scope_id}:{asset_id}`. -/
def scopedScoreKey (scopeId assetId : String) : String :=
  s!"latest:score:{scopeId}:{assetId}"

/-- `latest:score:{asset_id}`. -/
def latestScoreKey (assetId : String) : String :=
  s!"latest:score:{assetId}"

/-- `set_json(key, value)`. -/
def setJson (key : String) (value : StateRecord) (st : ServiceState) : ServiceState :=
  { st with online := st.online.set key value }

/-- `publish(topic, event)`. -/
def publish (topic : String) (event : PublishedEvent) (st : ServiceState) : ServiceState :=
  { st with published := st.published ++ [(topic, event)] }

/-- Run a method of the engine. -/
def onEngine {α : Type} (p : Features.EngineM α) : ServiceM α :=
  p.within ServiceState.engine fun engine st => { st with engine := engine }

@[simp] theorem setJson_online (key : String) (value : StateRecord) (st : ServiceState) :
    (setJson key value st).online = st.online.set key value := rfl

@[simp] theorem setJson_engine (key : String) (value : StateRecord) (st : ServiceState) :
    (setJson key value st).engine = st.engine := rfl

@[simp] theorem publish_online (topic : String) (event : PublishedEvent) (st : ServiceState) :
    (publish topic event st).online = st.online := rfl

@[simp] theorem publish_engine (topic : String) (event : PublishedEvent) (st : ServiceState) :
    (publish topic event st).engine = st.engine := rfl

end Services
end Scam2Market
