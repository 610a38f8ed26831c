import Scam2Market.Services.State
import Scam2Market.Intelligence.Fusion

/-!
# The feature service and the detection service

`FeatureWindowService.process` of `features/engine.py` and `DetectionService.score` of
`intelligence/fusion.py`.  Both write the online state of an asset under two keys, one with the scope
and one without, whatever the scope is.

* `processSignal` lets the engine ingest a signal and then persists, stores and publishes each
  snapshot.
* `scoreSnapshot` runs the detectors and the fusion engine, names the result, persists and stores it,
  and publishes it unless it was persisted before.
* What `datetime.now` returns is an argument of a call; the threat repository answers by the instant
  it is asked at.
-/

namespace Scam2Market
namespace Services

open Features (EngineConfig FeatureSignal FeatureSnapshot)
open Intelligence (FusionEngine FusionInputs FusionResult ScoreIdentity ThreatContext)
open Library (OrderedDict)
open Library.Procedure
open Streaming (CanonicalEvent EventFields EventType ReplayMetadata)

/-! ## `FeatureWindowService.process` -/

/-- The type of the event of a snapshot. -/
def featureEventType (snapshot : FeatureSnapshot) : EventType :=
  match snapshot.revisionState with
  | .provisional => .featureWindowUpdated
  | .final => .featureWindowFinalized
  | .corrected => .featureWindowCorrected

/-- The event of a snapshot. -/
def featureEvent (signal : FeatureSignal) (now : Datetime) (snapshot : FeatureSnapshot) :
    Except PyError (CanonicalEvent (String × Uuid Features.WindowKey × ℕ) FeatureSnapshot) := do
  let sourceEventId := (snapshot.scopeId, snapshot.featureWindowId, snapshot.revision)
  let replay ← ReplayMetadata.ofScope snapshot.scopeId
  let fields : EventFields (String × Uuid Features.WindowKey × ℕ) FeatureSnapshot :=
    { eventId := ⟨("feature-event", sourceEventId)⟩
      eventType := featureEventType snapshot
      source := "feature-window-engine-v1"
      sourceEventId := sourceEventId
      assetId := snapshot.assetId
      eventTime := snapshot.windowEnd
      ingestedAt := signal.ingestedAt
      processedAt := now
      partitionKey := snapshot.assetId
      replay := replay
      causationId := some signal.eventId
      payload := snapshot }
  fields.validate

/-- The topic of the snapshots of a signal. -/
def featureTopic (signal : FeatureSignal) : String :=
  let isMarketSignal := match signal.kind with
    | .marketTrade | .marketCandle | .orderbook => true
    | .dataQuality => ((signal.values.get? "domain").bind Json.asStr?) = some "market"
    | .socialPost | .assetMention => false
  if isMarketSignal then "features.market.v1" else "features.social.v1"

/-- `InMemoryFeatureRepository.persist`. -/
def persistSnapshot (snapshot : FeatureSnapshot) (st : ServiceState) : ServiceState :=
  match st.snapshots.get? (snapshot.featureWindowId, snapshot.revision) with
  | some _ => st
  | none =>
    { st with
      snapshots := st.snapshots.set (snapshot.featureWindowId, snapshot.revision) snapshot
      history := st.history ++ [snapshot] }

/-- The body of the loop over the snapshots. -/
def storeSnapshot (signal : FeatureSignal) (now : Datetime) (snapshot : FeatureSnapshot) :
    ServiceM Unit := do
  modify (persistSnapshot snapshot)
  modify (setJson
    (scopedFeaturesKey snapshot.scopeId snapshot.assetId snapshot.intervalSeconds)
    (.features snapshot))
  modify (setJson (latestFeaturesKey snapshot.assetId snapshot.intervalSeconds)
    (.features snapshot))
  let event ← ofExcept (featureEvent signal now snapshot)
  modify (publish (featureTopic signal) (.feature event))

/-- `process(signal)`. -/
def processSignal (cfg : EngineConfig) (signal : FeatureSignal) (now : Datetime) :
    ServiceM (List FeatureSnapshot) := do
  let snapshots ← onEngine (Features.ingest cfg signal)
  let _ ← forEach (storeSnapshot signal now) snapshots
  return snapshots

/-! ## `DetectionService.score` -/

/-- The arguments of the constructor. -/
structure DetectionService where
  fusion : FusionEngine := {}
  threatRepository :
    Option (Datetime → String → String → Datetime → Bool → ℤ → ThreatContext) := none
  threatEnabled : Bool := false
  threatFreshnessSeconds : ℤ := 86400

/-- The arguments of `score`. -/
structure ScoreArguments where
  snapshot : FeatureSnapshot
  claimRisk : Option ℚ := none
  legitimateEventScore : Option ℚ := none
  graphScore : Option ℚ := none
  graphSnapshotId : Option String := none
  verificationSnapshotId : Option String := none
  threatContext : Option ThreatContext := none

namespace DetectionService

variable (service : DetectionService) (arguments : ScoreArguments) (now : Datetime)

/-- The threat context that is passed, or what the threat repository answers. -/
def resolveThreat : Option ThreatContext :=
  match arguments.threatContext, service.threatRepository with
  | some context, _ => some context
  | none, some threatContext =>
    some (threatContext now arguments.snapshot.scopeId arguments.snapshot.assetId
      arguments.snapshot.windowEnd service.threatEnabled service.threatFreshnessSeconds)
  | none, none => none

/-- What the detectors and the classifiers make of a snapshot. -/
def fusionInputs : FusionInputs :=
  let regime := Intelligence.classifyRegime arguments.snapshot
  let liquidity := Intelligence.classifyLiquidity arguments.snapshot
  { snapshot := arguments.snapshot
    outputs := Intelligence.detectorOutputs arguments.snapshot
    claimRisk := arguments.claimRisk
    legitimateEventScore := arguments.legitimateEventScore
    graphScore := arguments.graphScore
    marketRegime := regime.1.value
    marketRegimeConfidence := regime.2
    liquidityClass := liquidity.1.value
    liquidityConfidence := liquidity.2 }

/-- `input_snapshot_ids`: the ids that are known. -/
def inputSnapshotIds : OrderedDict String String :=
  .ofEntries ([("graph_snapshot_id", arguments.graphSnapshotId),
      ("verification_snapshot_id", arguments.verificationSnapshotId),
      ("threat_snapshot_id",
        (service.resolveThreat arguments now).bind ThreatContext.snapshotId)].filterMap
    fun item => item.2.map fun value => (item.1, value))

/-- `identity`. -/
def identity (result : FusionResult) : ScoreIdentity where
  scopeId := arguments.snapshot.scopeId
  assetId := arguments.snapshot.assetId
  featureWindowId := arguments.snapshot.featureWindowId
  featureRevision := arguments.snapshot.revision
  enrichmentProfile := result.enrichmentProfile
  inputSnapshotIds := (service.inputSnapshotIds arguments now).entries.insertionSort fun a b =>
    a.1 ≤ b.1
  fusionPolicyVersion := result.fusionPolicyVersion

/-- The result with its identifiers. -/
def named (result : FusionResult) : FusionResult :=
  let idempotencyKey : Digest ScoreIdentity := ⟨service.identity arguments now result⟩
  { result with
    modelScoreId := some ⟨idempotencyKey⟩
    inputSnapshotIds := service.inputSnapshotIds arguments now
    idempotencyKey := some idempotencyKey
    valid :=
      { fusionRevision := result.valid.fusionRevision
        marketAnomalyRisk := result.valid.marketAnomalyRisk
        socialCoordinationRisk := result.valid.socialCoordinationRisk
        rawCrossDomainRisk := result.valid.rawCrossDomainRisk
        contextAdjustedRisk := result.valid.contextAdjustedRisk
        fusionScore := result.valid.fusionScore
        confidence := result.valid.confidence
        marketRegimeConfidence := result.valid.marketRegimeConfidence
        liquidityConfidence := result.valid.liquidityConfidence } }

/-- The result of a call, before anything is stored. -/
def scored : Except PyError FusionResult := do
  let result ← service.fusion.fuse (fusionInputs arguments) (service.resolveThreat arguments now) now
  return service.named arguments now result

end DetectionService

/-- The key of a result in the repository. -/
def resultKey (result : FusionResult) :
    Uuid Features.WindowKey × ℤ × Option (Digest ScoreIdentity) :=
  (result.featureWindowId, result.featureRevision, result.idempotencyKey)

/-- `InMemoryScoreRepository.persist`, with its answer. -/
def persistResult (result : FusionResult) : ServiceM Bool := do
  let known ← reading fun st => (st.results.get? (resultKey result)).isSome
  if known then return false
  else
    modify fun st => { st with results := st.results.set (resultKey result) result }
    return true

/-- The event of a result. -/
def scoreEvent (snapshot : FeatureSnapshot) (result : FusionResult) :
    Except PyError (CanonicalEvent
      (String × Uuid Features.WindowKey × ℕ × Option (Digest ScoreIdentity)) FusionResult) := do
  let sourceEventId :=
    (snapshot.scopeId, snapshot.featureWindowId, snapshot.revision, result.idempotencyKey)
  let replay ← ReplayMetadata.ofScope snapshot.scopeId
  let fields : EventFields
      (String × Uuid Features.WindowKey × ℕ × Option (Digest ScoreIdentity)) FusionResult :=
    { eventId := ⟨("fusion-event", sourceEventId)⟩
      eventType := .modelFusionScored
      source := result.baseModelVersion
      sourceEventId := sourceEventId
      assetId := snapshot.assetId
      eventTime := snapshot.windowEnd
      ingestedAt := result.scoredAt
      processedAt := result.scoredAt
      partitionKey := snapshot.assetId
      replay := replay
      payload := result }
  fields.validate

/-- Make the event of a result and publish it, if the result was not persisted before. -/
def publishResult (persisted : Bool) (snapshot : FeatureSnapshot) (result : FusionResult) :
    ServiceM Unit :=
  if persisted then do
    let event ← ofExcept (scoreEvent snapshot result)
    modify (publish "model.fusion.score.v1" (.score event))
  else pure ()

/-- `score(snapshot, ...)`. -/
def scoreSnapshot (service : DetectionService) (arguments : ScoreArguments) (now : Datetime) :
    ServiceM FusionResult := do
  let result ← ofExcept (service.scored arguments now)
  let persisted ← persistResult result
  modify (setJson (latestScoreKey arguments.snapshot.assetId) (.score result))
  modify (setJson (scopedScoreKey arguments.snapshot.scopeId arguments.snapshot.assetId)
    (.score result))
  publishResult persisted arguments.snapshot result
  return result

/-! ## Calls -/

/-- A call of one of the services, at an instant. -/
inductive ServiceCall where
  | process (signal : FeatureSignal) (now : Datetime)
  | score (arguments : ScoreArguments) (now : Datetime)

/-- The scope of a call. -/
def ServiceCall.scopeId : ServiceCall → String
  | process signal _ => signal.scopeId
  | score arguments _ => arguments.snapshot.scopeId

/-- Make a call. -/
def perform (cfg : EngineConfig) (service : DetectionService) : ServiceCall → ServiceM Unit
  | .process signal now => do
    let _ ← processSignal cfg signal now
    return ()
  | .score arguments now => do
    let _ ← scoreSnapshot service arguments now
    return ()

end Services
end Scam2Market
