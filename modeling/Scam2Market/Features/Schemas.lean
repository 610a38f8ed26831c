import Scam2Market.Python.Values

/-!
# Signals and snapshots

The data of the feature engine: what it ingests (`FeatureSignal`), the names of the features in the
order of the registered manifest (`FeatureName`, `featureNames`), and what it produces
(`FeatureSnapshot`).

A snapshot carries what its validator checks, so a snapshot whose state and finality disagree, or a
correction that does not say what it supersedes, cannot be built.  `SnapshotFields.validate` is the
validator, with its messages.
-/

namespace Scam2Market
namespace Features

inductive SignalKind where
  | marketTrade
  | marketCandle
  | orderbook
  | socialPost
  | assetMention
  | dataQuality
  deriving DecidableEq, Repr

inductive SourceDomain where
  | market
  | social
  deriving DecidableEq, Repr

inductive RevisionState where
  | provisional
  | final
  | corrected
  deriving DecidableEq, Repr

/-- One observation about an asset in a scope, with the values its source reported. -/
structure FeatureSignal where
  eventId : String
  scopeId : String := "LIVE"
  assetId : String
  eventTime : Datetime
  ingestedAt : Datetime
  kind : SignalKind
  sourceDomain : SourceDomain
  values : JsonObject := JsonObject.empty

/-- The identity of a window: `(scope_id, asset_id, window_start, interval)`. -/
structure WindowKey where
  scopeId : String
  assetId : String
  windowStart : Datetime
  interval : ℕ
  deriving DecidableEq, Repr

/-- The end of a window. -/
def WindowKey.windowEnd (key : WindowKey) : Datetime :=
  key.windowStart + timedeltaSeconds key.interval

/-- The features of the registered manifest. -/
inductive FeatureName where
  | priceReturn
  | volume
  | relativeVolume
  | volatility
  | spread
  | topNDepth
  | orderbookImbalance
  | orderbookValid
  | tradeCount
  | buySellPressure
  | marketDataFreshnessSeconds
  | marketSourceActive
  | marketSourceIdle
  | marketSourceDegraded
  | mentionCount
  | uniqueAuthorCount
  | authorConcentration
  | repostReplyRatio
  | hashtagVelocity
  | urlConcentration
  | newAuthorRatio
  | socialDataFreshnessSeconds
  | socialSourceActive
  | socialSourceIdle
  | socialSourceDegraded
  | socialLeadSeconds
  | sourceGapCount
  | dataQualityScore
  | baselineConfidence
  deriving DecidableEq, Repr

/-- `FEATURE_NAMES`: the features in the order of the manifest. -/
def featureNames : List FeatureName :=
  [.priceReturn, .volume, .relativeVolume, .volatility, .spread, .topNDepth, .orderbookImbalance,
    .orderbookValid, .tradeCount, .buySellPressure, .marketDataFreshnessSeconds,
    .marketSourceActive, .marketSourceIdle, .marketSourceDegraded, .mentionCount,
    .uniqueAuthorCount, .authorConcentration, .repostReplyRatio, .hashtagVelocity,
    .urlConcentration, .newAuthorRatio, .socialDataFreshnessSeconds, .socialSourceActive,
    .socialSourceIdle, .socialSourceDegraded, .socialLeadSeconds, .sourceGapCount,
    .dataQualityScore, .baselineConfidence]

/-- The manifest names every feature. -/
theorem mem_featureNames (name : FeatureName) : name ∈ featureNames := by
  cases name <;> decide

/-- `FEATURE_SCHEMA.feature_schema`. -/
def featureSchema : String :=
  "surveillance-features-v2"

/-- `FEATURE_SCHEMA.schema_hash`. -/
def featureSchemaHash : Digest (String × List FeatureName) :=
  ⟨(featureSchema, featureNames)⟩

/-- A number or `None` for each feature. -/
abbrev FeatureValues := FeatureName → Option ℚ

/-- The signals a revision was computed from. -/
structure FeatureLineage where
  lineageId : Uuid (Uuid WindowKey × ℕ × Digest (List FeatureSignal))
  sourceEventIds : List String
  sourceEventMinTime : Option Datetime
  sourceEventMaxTime : Option Datetime
  sourceCount : ℕ
  sourceHash : Digest (List FeatureSignal)

/-- The fields of a snapshot, before they are validated. -/
structure SnapshotFields where
  featureWindowId : Uuid WindowKey
  scopeId : String
  assetId : String
  windowStart : Datetime
  windowEnd : Datetime
  intervalSeconds : ℕ
  revision : ℕ
  isFinal : Bool
  revisionState : RevisionState
  supersedesRevision : Option ℕ
  featureSchemaVersion : String
  featureSchemaHash : Digest (String × List FeatureName)
  features : FeatureValues
  lineage : FeatureLineage

/-- A validated snapshot: one revision of a window. -/
structure FeatureSnapshot extends SnapshotFields where
  revision_pos : 1 ≤ revision
  supersedes_pos : ∀ n, supersedesRevision = some n → 1 ≤ n
  schemaVersion_eq : featureSchemaVersion = featureSchema
  schemaHash_eq : featureSchemaHash = Features.featureSchemaHash
  isFinal_eq : isFinal = decide (revisionState ≠ .provisional)
  supersedes_of_corrected : revisionState = .corrected → supersedesRevision ≠ none

/-- The fields that are refused: both revision numbers are at least one. -/
def SnapshotFields.refused (fields : SnapshotFields) : List (String × String) :=
  (if 1 ≤ fields.revision then []
    else [("revision", "Input should be greater than or equal to 1")]) ++
  (if ∀ n ∈ fields.supersedesRevision, 1 ≤ n then []
    else [("supersedes_revision", "Input should be greater than or equal to 1")])

theorem SnapshotFields.refused_eq_nil {fields : SnapshotFields} :
    fields.refused = [] ↔ 1 ≤ fields.revision ∧ ∀ n ∈ fields.supersedesRevision, 1 ≤ n := by
  have hcheck : ∀ (p : Prop) [Decidable p] (error : String × String),
      (if p then [] else [error]) = [] ↔ p := by
    intro p _ error
    by_cases h : p
    · rw [if_pos h]
      exact iff_of_true rfl h
    · rw [if_neg h]
      exact iff_of_false (List.cons_ne_nil _ _) h
  unfold refused
  rw [List.append_eq_nil_iff, hcheck, hcheck]

/-- `FeatureSnapshot(...)`: the field constraints, then `feature_order_matches_schema`.  The names
of the features are right by their type. -/
def SnapshotFields.validate (fields : SnapshotFields) : Except PyError FeatureSnapshot :=
  if href : ¬ fields.refused = [] then
    .error (.validationError fields.refused)
  else if hver : ¬ fields.featureSchemaVersion = featureSchema then
    .error (.ofValidator "feature schema version does not match the registered manifest")
  else if hhash : ¬ fields.featureSchemaHash = Features.featureSchemaHash then
    .error (.ofValidator "feature schema hash does not match the registered manifest")
  else if hfin : ¬ fields.isFinal = decide (fields.revisionState ≠ .provisional) then
    .error (.ofValidator "is_final and revision_state disagree")
  else if hsup : fields.revisionState = .corrected ∧ fields.supersedesRevision = none then
    .error (.ofValidator "corrected revisions must identify the superseded revision")
  else
    .ok ⟨fields, (refused_eq_nil.mp (not_not.mp href)).1, (refused_eq_nil.mp (not_not.mp href)).2,
      not_not.mp hver, not_not.mp hhash, not_not.mp hfin, fun hcor hnone => hsup ⟨hcor, hnone⟩⟩

/-- The validator changes nothing. -/
theorem SnapshotFields.validate_eq_ok {fields : SnapshotFields} {snapshot : FeatureSnapshot}
    (h : fields.validate = .ok snapshot) : snapshot.toSnapshotFields = fields := by
  unfold validate at h
  split_ifs at h
  rw [← Except.ok.inj h]

/-- The validator accepts fields that keep the rules. -/
theorem SnapshotFields.validate_of_rules {fields : SnapshotFields} (hrev : 1 ≤ fields.revision)
    (hpos : ∀ n ∈ fields.supersedesRevision, 1 ≤ n)
    (hver : fields.featureSchemaVersion = featureSchema)
    (hhash : fields.featureSchemaHash = Features.featureSchemaHash)
    (hfin : fields.isFinal = decide (fields.revisionState ≠ .provisional))
    (hsup : fields.revisionState = .corrected → fields.supersedesRevision ≠ none) :
    ∃ snapshot, fields.validate = .ok snapshot := by
  unfold validate
  rw [dif_neg (not_not.mpr (refused_eq_nil.mpr ⟨hrev, hpos⟩)), dif_neg (not_not.mpr hver),
    dif_neg (not_not.mpr hhash), dif_neg (not_not.mpr hfin), dif_neg fun h => hsup h.1 h.2]
  exact ⟨_, rfl⟩

/-- The window a snapshot is a revision of. -/
def FeatureSnapshot.windowKey (snapshot : FeatureSnapshot) : WindowKey :=
  ⟨snapshot.scopeId, snapshot.assetId, snapshot.windowStart, snapshot.intervalSeconds⟩

/-- The first revision of a minute of an asset, with the given features. -/
def minuteSnapshot (scopeId assetId : String) (features : FeatureValues) : FeatureSnapshot where
  featureWindowId := ⟨⟨scopeId, assetId, 0, 60⟩⟩
  scopeId := scopeId
  assetId := assetId
  windowStart := 0
  windowEnd := timedeltaSeconds 60
  intervalSeconds := 60
  revision := 1
  isFinal := false
  revisionState := .provisional
  supersedesRevision := none
  featureSchemaVersion := featureSchema
  featureSchemaHash := Features.featureSchemaHash
  features := features
  lineage :=
    { lineageId := ⟨⟨⟨scopeId, assetId, 0, 60⟩⟩, 1, ⟨[]⟩⟩
      sourceEventIds := []
      sourceEventMinTime := none
      sourceEventMaxTime := none
      sourceCount := 0
      sourceHash := ⟨[]⟩ }
  revision_pos := le_rfl
  supersedes_pos := by simp
  schemaVersion_eq := rfl
  schemaHash_eq := rfl
  isFinal_eq := rfl
  supersedes_of_corrected := by simp

end Features
end Scam2Market
