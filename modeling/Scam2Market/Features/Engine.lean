import Scam2Market.Library.OrderedDict
import Scam2Market.Library.Procedure
import Scam2Market.Features.Formulas
import Mathlib.Data.Finset.Insert
import Mathlib.Data.List.Sort

/-!
# The feature window engine

`FeatureWindowEngine` of `features/engine.py`.  All scopes and assets share the dictionaries of one
`EngineState`, and every method finds its own part of them with a filter on the keys.

* `watermarks` is a query that writes: a source that has been quiet for too long is marked idle.
* `buildRevision` appends one revision to a window; `ingest` builds the window of the signal and
  every later window of the same interval, for each interval, and then whatever
  `finalizeEligible` finds the watermark has passed.
* An exception leaves the state as far as it was written.
-/

namespace Scam2Market
namespace Features

open Library
open Library.Procedure

/-- The flags of a source: `{"active": ..., "idle": ..., "degraded": ...}`. -/
structure SourceState where
  active : Bool
  idle : Bool
  degraded : Bool
  deriving DecidableEq, Repr

/-- The key of a source: `(scope_id, asset_id, source_domain)`. -/
abbrev SourceKey := String × String × SourceDomain

/-- The key of an author: `(scope_id, asset_id, author_id)`. -/
abbrev AuthorKey := String × String × String

/-- The arguments of the constructor; there is an interval, and every interval is positive. -/
structure EngineConfig where
  intervals : List ℕ
  intervals_ne : intervals ≠ []
  intervals_pos : ∀ interval ∈ intervals, 0 < interval
  allowedLateness : Timedelta := timedeltaSeconds 120
  sourceIdleAfter : Timedelta := timedeltaSeconds 600
  schemaVersion : String := featureSchema
  requiredDomains : List SourceDomain := [.market, .social]

/-- What the engine remembers. -/
structure EngineState where
  events : OrderedDict WindowKey (List FeatureSignal)
  revisions : OrderedDict WindowKey (List FeatureSnapshot)
  maxEventTime : OrderedDict SourceKey Datetime
  sourceStates : OrderedDict SourceKey SourceState
  seenEventIds : Finset (String × String)
  authorFirstSeen : OrderedDict AuthorKey Datetime
  signalLog : List FeatureSignal

/-- A new engine. -/
def EngineState.initial : EngineState where
  events := .empty
  revisions := .empty
  maxEventTime := .empty
  sourceStates := .empty
  seenEventIds := ∅
  authorFirstSeen := .empty
  signalLog := []

/-- A method of the engine. -/
abbrev EngineM := Procedure EngineState PyError

/-- `(signal.scope_id, signal.event_id)`. -/
def FeatureSignal.seenKey (signal : FeatureSignal) : String × String :=
  (signal.scopeId, signal.eventId)

/-- `(signal.scope_id, signal.asset_id, signal.source_domain)`. -/
def FeatureSignal.sourceKey (signal : FeatureSignal) : SourceKey :=
  (signal.scopeId, signal.assetId, signal.sourceDomain)

/-- The window of a signal. -/
def FeatureSignal.windowKey (signal : FeatureSignal) (interval : ℕ) : WindowKey :=
  ⟨signal.scopeId, signal.assetId, floorWindow signal.eventTime interval, interval⟩

/-- The order of the signals of a window: by event time, then by event id. -/
def FeatureSignal.Before (a b : FeatureSignal) : Prop :=
  a.eventTime < b.eventTime ∨ (a.eventTime = b.eventTime ∧ a.eventId ≤ b.eventId)

instance : DecidableRel FeatureSignal.Before := fun a b =>
  inferInstanceAs (Decidable (a.eventTime < b.eventTime ∨
    (a.eventTime = b.eventTime ∧ a.eventId ≤ b.eventId)))

/-- `sorted(events, key=lambda event: (event.event_time, event.event_id))`. -/
def sortSignals (events : List FeatureSignal) : List FeatureSignal :=
  events.insertionSort FeatureSignal.Before

/-! ## Registering a signal -/

/-- The flags of its source after a signal. -/
def sourceStateAfter (signal : FeatureSignal) (state : SourceState) : SourceState :=
  if signal.kind = .dataQuality then
    { active := signal.flag "source_active" true
      idle := signal.flag "source_idle" false
      degraded := signal.flag "source_degraded" false }
  else
    { state with active := true, idle := false }

/-- The first time an author was seen, after a signal. -/
def authorFirstSeenAfter (signal : FeatureSignal) (seen : OrderedDict AuthorKey Datetime) :
    OrderedDict AuthorKey Datetime :=
  match signal.author? with
  | some author =>
    let key := (signal.scopeId, signal.assetId, author)
    seen.set key (min signal.eventTime (seen.getD key signal.eventTime))
  | none => seen

/-- What `ingest` writes about a new signal before it builds anything. -/
def register (signal : FeatureSignal) (st : EngineState) : EngineState :=
  { st with
    seenEventIds := insert signal.seenKey st.seenEventIds
    signalLog := st.signalLog ++ [signal]
    maxEventTime := st.maxEventTime.set signal.sourceKey
      (max signal.eventTime (st.maxEventTime.getD signal.sourceKey signal.eventTime))
    sourceStates := st.sourceStates.set signal.sourceKey
      (sourceStateAfter signal (st.sourceStates.getD signal.sourceKey ⟨true, false, false⟩))
    authorFirstSeen := authorFirstSeenAfter signal st.authorFirstSeen }

/-! ## Watermarks -/

/-- `max(observed, default=None)` over the sources of a scope and asset. -/
def globalMax (st : EngineState) (scopeId assetId : String) : Option Datetime :=
  (st.maxEventTime.entries.filterMap fun item =>
    if item.1.1 = scopeId ∧ item.1.2.1 = assetId then some item.2 else none).max?

/-- Whether a source has been quiet for too long. -/
def quietTooLong (cfg : EngineConfig) (globalMax maximum : Option Datetime) : Bool :=
  match globalMax, maximum with
  | some latest, some last => cfg.sourceIdleAfter ≤ latest - last
  | _, _ => false

/-- The watermark of a source: `None` when it is unknown or degraded; when it is idle, the watermark
follows the latest event of the asset. -/
def domainWatermark (cfg : EngineConfig) (globalMax : Option Datetime)
    (sourceState : Option SourceState) (maximum : Option Datetime) : Option Datetime :=
  match sourceState with
  | none => none
  | some state =>
    if state.degraded then none
    else if quietTooLong cfg globalMax maximum then globalMax.map (· - cfg.allowedLateness)
    else if state.idle ∧ globalMax ≠ none then globalMax.map (· - cfg.allowedLateness)
    else maximum.map (· - cfg.allowedLateness)

/-- `source_state.update(active=True, idle=True)`. -/
def markIdle (key : SourceKey) (st : EngineState) : EngineState :=
  match st.sourceStates.get? key with
  | some state =>
    { st with
      sourceStates := st.sourceStates.set key { state with active := true, idle := true } }
  | none => st

/-- Whether a query of the watermarks marks a source idle. -/
def becomesIdle (cfg : EngineConfig) (globalMax : Option Datetime)
    (sourceState : Option SourceState) (maximum : Option Datetime) : Bool :=
  match sourceState with
  | some state => !state.degraded && quietTooLong cfg globalMax maximum
  | none => false

/-- The watermark of each required domain, and that of the fusion. -/
structure Watermarks where
  domains : OrderedDict SourceDomain (Option Datetime)
  fusion : Option Datetime

/-- The fusion watermark: the least of the domain watermarks, when there is one for every required
domain.  `min` of no watermark at all raises. -/
def fusionWatermark (cfg : EngineConfig) (domains : OrderedDict SourceDomain (Option Datetime)) :
    Except PyError (Option Datetime) :=
  let available := domains.entries.filterMap Prod.snd
  if available.length = cfg.requiredDomains.length then
    match available.min? with
    | some least => .ok (some least)
    | none => .error (.valueError "min() arg is an empty sequence")
  else
    .ok none

/-- One round of the loop of `watermarks`. -/
def watermarkOf (cfg : EngineConfig) (scopeId assetId : String) (latest : Option Datetime)
    (domain : SourceDomain) : EngineM (SourceDomain × Option Datetime) := do
  let key := (scopeId, assetId, domain)
  let sourceState ← reading fun st => st.sourceStates.get? key
  let maximum ← reading fun st => st.maxEventTime.get? key
  modify fun st => if becomesIdle cfg latest sourceState maximum then markIdle key st else st
  return (domain, domainWatermark cfg latest sourceState maximum)

/-- `watermarks`. -/
def watermarks (cfg : EngineConfig) (scopeId assetId : String) : EngineM Watermarks := do
  let latest ← reading fun st => globalMax st scopeId assetId
  let items ← forEach (watermarkOf cfg scopeId assetId latest) cfg.requiredDomains
  let domains := OrderedDict.ofEntries items
  let fusion ← ofExcept (fusionWatermark cfg domains)
  return { domains, fusion }

/-- `_watermark`. -/
def watermark (cfg : EngineConfig) (scopeId assetId : String) : EngineM (Option Datetime) := do
  let all ← watermarks cfg scopeId assetId
  return all.fusion

/-! ## Features -/

/-- `interval_seconds` of `_compute_features`. -/
def intervalSeconds (windowStart windowEnd : Datetime) : ℤ :=
  truncate (totalSeconds (windowEnd - windowStart))

/-- Whether a window of the dictionaries is an earlier one of the same scope, asset and interval. -/
def isEarlier (key candidate : WindowKey) : Bool :=
  candidate.scopeId = key.scopeId ∧ candidate.assetId = key.assetId ∧
    (candidate.interval : ℤ) = intervalSeconds key.windowStart key.windowEnd ∧
    candidate.windowStart < key.windowStart

/-- The items of the windows by their start: `sorted(self._events.items(), key=...)`. -/
def byStart (items : List (WindowKey × List FeatureSignal)) :
    List (WindowKey × List FeatureSignal) :=
  items.insertionSort fun a b => a.1.windowStart ≤ b.1.windowStart

/-- `values[-20:]`. -/
def lastTwenty (values : List ℚ) : List ℚ :=
  values.drop (values.length - 20)

/-- The raw volumes of the last twenty earlier windows. -/
def trailingVolumes (events : OrderedDict WindowKey (List FeatureSignal)) (key : WindowKey) :
    List ℚ :=
  lastTwenty (((byStart events.entries).filter fun item => isEarlier key item.1).map fun item =>
    rawVolume item.2)

/-- The number of earlier windows. -/
def priorWindowCount (events : OrderedDict WindowKey (List FeatureSignal)) (key : WindowKey) : ℕ :=
  events.keys.countP (isEarlier key)

/-- What the formulas of a window read from the windows of the engine. -/
def windowInputs (events : OrderedDict WindowKey (List FeatureSignal)) (key : WindowKey)
    (signals : List FeatureSignal) : WindowInputs where
  windowStart := key.windowStart
  windowEnd := key.windowEnd
  events := signals
  trailingVolumes := trailingVolumes events key
  priorWindowCount := priorWindowCount events key

/-- The state of a source, or that of an unknown one. -/
def sourceState (st : EngineState) (key : WindowKey) (domain : SourceDomain) : SourceState :=
  st.sourceStates.getD (key.scopeId, key.assetId, domain) ⟨false, false, true⟩

/-- `int(flag)`. -/
def flagValue (flag : Bool) : Option ℚ :=
  some (if flag then 1 else 0)

/-- The number of authors first seen in the window. -/
def newAuthorCount (st : EngineState) (key : WindowKey) (authors : List String) : ℕ :=
  authors.dedup.countP fun author =>
    key.windowStart ≤
      st.authorFirstSeen.getD (key.scopeId, key.assetId, author) key.windowStart

/-- `data_quality_score`. -/
def dataQualityScore (w : WindowInputs) (marketState socialState : SourceState) : ℚ :=
  let available := w.marketFreshness :: w.socialFreshness.toList
  let freshnessPenalty := min 1 (available.sum / 600)
  let sourcePenalty :=
    1 / 4 * (([marketState, socialState].countP SourceState.degraded : ℕ) : ℚ)
  max 0 (1 - freshnessPenalty - sourcePenalty - min (1 / 2) (w.sourceGapCount * (1 / 10)))

/-- `_compute_features`. -/
def computeFeatures (st : EngineState) (key : WindowKey) (signals : List FeatureSignal) :
    Except PyError FeatureValues := do
  let w := windowInputs st.events key signals
  let social := w.social
  let posters := authors social
  let urls ← socialUrls social
  let hashtags ← hashtagCount social
  let marketState := sourceState st key .market
  let socialState := sourceState st key .social
  let socialAvailable := socialState.active && !socialState.degraded
  let whenAvailable := fun value : ℚ => if socialAvailable then some value else none
  return fun
    | .marketSourceActive => flagValue marketState.active
    | .marketSourceIdle => flagValue marketState.idle
    | .marketSourceDegraded => flagValue marketState.degraded
    | .mentionCount => whenAvailable w.mentions.length
    | .uniqueAuthorCount => whenAvailable posters.dedup.length
    | .authorConcentration => whenAvailable (concentration posters)
    | .repostReplyRatio => whenAvailable
        (if social ≠ [] then (repostReplyCount social : ℚ) / social.length else 0)
    | .hashtagVelocity => whenAvailable
        (hashtags / max 1 (totalSeconds (key.windowEnd - key.windowStart) / 60))
    | .urlConcentration => whenAvailable (concentration urls)
    | .newAuthorRatio => whenAvailable
        (if posters ≠ [] then (newAuthorCount st key posters : ℚ) / posters.dedup.length else 0)
    | .socialSourceActive => flagValue socialState.active
    | .socialSourceIdle => flagValue socialState.idle
    | .socialSourceDegraded => flagValue socialState.degraded
    | .dataQualityScore => some (dataQualityScore w marketState socialState)
    | name => w.feature name

/-! ## Revisions -/

/-- The state of a new revision, and the revision it supersedes. -/
def nextState (prior : List FeatureSnapshot) (shouldFinalize : Bool) :
    RevisionState × Option ℕ :=
  match prior.getLast? with
  | some last =>
    if last.revisionState = .final ∨ last.revisionState = .corrected then
      (.corrected, some last.revision)
    else if shouldFinalize then (.final, none)
    else (.provisional, none)
  | none => if shouldFinalize then (.final, none) else (.provisional, none)

/-- The lineage of a revision. -/
def lineageOf (key : WindowKey) (revision : ℕ) (signals : List FeatureSignal) : FeatureLineage where
  lineageId := ⟨(⟨key⟩, revision, ⟨signals⟩)⟩
  sourceEventIds := signals.map FeatureSignal.eventId
  sourceEventMinTime := signals.head?.map FeatureSignal.eventTime
  sourceEventMaxTime := signals.getLast?.map FeatureSignal.eventTime
  sourceCount := signals.length
  sourceHash := ⟨signals⟩

/-- The arguments of `FeatureSnapshot(...)` in `_build_revision`. -/
def snapshotFields (cfg : EngineConfig) (key : WindowKey) (signals : List FeatureSignal)
    (prior : List FeatureSnapshot) (shouldFinalize : Bool) (features : FeatureValues) :
    SnapshotFields :=
  let revision := prior.length + 1
  let (revisionState, supersedesRevision) := nextState prior shouldFinalize
  { featureWindowId := ⟨key⟩
    scopeId := key.scopeId
    assetId := key.assetId
    windowStart := key.windowStart
    windowEnd := key.windowEnd
    intervalSeconds := key.interval
    revision := revision
    isFinal := revisionState ≠ .provisional
    revisionState := revisionState
    supersedesRevision := supersedesRevision
    featureSchemaVersion := cfg.schemaVersion
    featureSchemaHash := featureSchemaHash
    features := features
    lineage := lineageOf key revision signals }

/-- The snapshot `_build_revision` makes of a window. -/
def makeSnapshot (cfg : EngineConfig) (st : EngineState) (key : WindowKey)
    (signals : List FeatureSignal) (prior : List FeatureSnapshot) (shouldFinalize : Bool) :
    Except PyError FeatureSnapshot := do
  let features ← computeFeatures st key signals
  (snapshotFields cfg key signals prior shouldFinalize features).validate

/-- The revisions of a window. -/
def EngineState.revisionsOf (st : EngineState) (key : WindowKey) : List FeatureSnapshot :=
  st.revisions.getD key []

/-- `self._revisions[key][-1].is_final`; the revision lists are not empty. -/
def EngineState.lastIsFinal (st : EngineState) (key : WindowKey) : Bool :=
  match (st.revisionsOf key).getLast? with
  | some last => last.isFinal
  | none => false

/-- `self._revisions.setdefault(key, []).append(snapshot)`. -/
def appendRevision (key : WindowKey) (snapshot : FeatureSnapshot) (st : EngineState) :
    EngineState :=
  { st with revisions := st.revisions.set key (st.revisionsOf key ++ [snapshot]) }

/-- `self._events.setdefault(key, []).append(signal)`. -/
def appendEvent (key : WindowKey) (signal : FeatureSignal) (st : EngineState) : EngineState :=
  { st with events := st.events.set key (st.events.getD key [] ++ [signal]) }

/-- `watermark is not None and window_end <= watermark`. -/
def hasPassed (mark : Option Datetime) (windowEnd : Datetime) : Bool :=
  match mark with
  | some value => windowEnd ≤ value
  | none => false

/-- `_build_revision`. -/
def buildRevision (cfg : EngineConfig) (key : WindowKey) (forceFinal : Bool) :
    EngineM FeatureSnapshot := do
  let stored ← reading fun st => st.events.get? key
  let some unsorted := stored | raise (.keyError "window")
  let signals := sortSignals unsorted
  let prior ← reading fun st => st.revisionsOf key
  let mark ← watermark cfg key.scopeId key.assetId
  let made ← reading fun st =>
    makeSnapshot cfg st key signals prior (forceFinal || hasPassed mark key.windowEnd)
  let snapshot ← ofExcept made
  modify (appendRevision key snapshot)
  return snapshot

/-- One round of the loop of `_finalize_eligible`. -/
def finalizeIfEligible (cfg : EngineConfig) (scopeId assetId : String) (mark : Datetime)
    (key : WindowKey) : EngineM (List FeatureSnapshot) :=
  if key.scopeId ≠ scopeId ∨ key.assetId ≠ assetId then pure []
  else do
    let isFinal ← reading fun st => st.lastIsFinal key
    if isFinal then return []
    else if key.windowEnd ≤ mark then
      let snapshot ← buildRevision cfg key true
      return [snapshot]
    else return []

/-- `_finalize_eligible`. -/
def finalizeEligible (cfg : EngineConfig) (scopeId assetId : String) :
    EngineM (List FeatureSnapshot) := do
  let mark ← watermark cfg scopeId assetId
  match mark with
  | none => return []
  | some value =>
    let keys ← reading fun st => st.revisions.keys
    flatForEach (finalizeIfEligible cfg scopeId assetId value) keys

/-- The later windows of a scope, asset and interval, by their start. -/
def downstreamKeys (st : EngineState) (key : WindowKey) : List WindowKey :=
  (st.revisions.keys.filter fun candidate =>
    candidate.scopeId = key.scopeId ∧ candidate.assetId = key.assetId ∧
      candidate.interval = key.interval ∧ key.windowStart < candidate.windowStart).insertionSort
    fun a b => a.windowStart ≤ b.windowStart

/-- Rebuild a later window. -/
def rebuildDownstream (cfg : EngineConfig) (key : WindowKey) : EngineM FeatureSnapshot := do
  let forceFinal ← reading fun st => st.lastIsFinal key
  buildRevision cfg key forceFinal

/-- One round of the loop of `ingest` over the intervals. -/
def ingestInterval (cfg : EngineConfig) (signal : FeatureSignal) (interval : ℕ) :
    EngineM (List FeatureSnapshot) := do
  let key := signal.windowKey interval
  modify (appendEvent key signal)
  let own ← buildRevision cfg key false
  let downstream ← reading fun st => downstreamKeys st key
  let rebuilt ← forEach (rebuildDownstream cfg) downstream
  return own :: rebuilt

/-- `ingest`. -/
def ingest (cfg : EngineConfig) (signal : FeatureSignal) : EngineM (List FeatureSnapshot) := do
  let seen ← reading fun st => decide (signal.seenKey ∈ st.seenEventIds)
  if seen then return []
  else
    modify (register signal)
    let changed ← flatForEach (ingestInterval cfg signal) cfg.intervals
    let finalized ← finalizeEligible cfg signal.scopeId signal.assetId
    return changed ++ finalized

/-! ## Queries -/

/-- `max(candidates, key=window_start, default=None)`: the first of the greatest. -/
def latestOf (candidates : List FeatureSnapshot) : Option FeatureSnapshot :=
  candidates.foldl (fun best candidate =>
    match best with
    | some snapshot =>
      if snapshot.windowStart < candidate.windowStart then some candidate else some snapshot
    | none => some candidate) none

/-- `latest`: the last revision of the window with the greatest start. -/
def latest (st : EngineState) (assetId : String) (interval : ℕ) (scopeId : String) :
    Option FeatureSnapshot :=
  latestOf (st.revisions.entries.filterMap fun item =>
    if item.1.scopeId = scopeId ∧ item.1.assetId = assetId ∧ item.1.interval = interval then
      item.2.getLast?
    else none)

/-! ## The trades of the tests -/

/-- `START` of the tests: noon on the first of January 2026. -/
def testStart : Datetime :=
  timedeltaSeconds 1767268800

/-- `_trade_signal` of the tests. -/
def tradeSignal (eventId : String) (eventTime : Datetime) (quantity : ℤ := 100) : FeatureSignal where
  eventId := eventId
  assetId := "S2MUSDT"
  eventTime := eventTime
  ingestedAt := eventTime + timedeltaSeconds 1
  kind := .marketTrade
  sourceDomain := .market
  values := .ofFields [("price", .float 1), ("quantity", .int quantity), ("side", .str "BUY")]

theorem minute_ne_nil : [60] ≠ ([] : List ℕ) := by decide

theorem minute_pos : ∀ interval ∈ [60], 0 < interval := by decide

/-- The configuration of the tests: windows of a minute, no lateness, market signals only. -/
def marketOnly : EngineConfig where
  intervals := [60]
  intervals_ne := minute_ne_nil
  intervals_pos := minute_pos
  allowedLateness := 0
  requiredDomains := [.market]

end Features
end Scam2Market
