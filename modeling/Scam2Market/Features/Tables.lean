import Scam2Market.Features.Engine
import Scam2Market.Library.Faults

/-!
# The tables of the feature windows

`SqlFeatureRepository` of `ingestion/repositories.py`.

* A window has one row, which names its current revision, and one row for each revision.  The row of
  a lineage is inserted with the row of its revision and carries its number, so it stands with it.
* `insertRevision` is the transaction: a revision that is no newer than the current one of its window
  is not written.
* Rows of `asset_baselines` are left out: the rows modelled here are not read from them.
-/

namespace Scam2Market
namespace Features

open Library (OrderedDict Violation)

structure FeatureWindowModel where
  featureWindowId : Uuid WindowKey
  scopeId : String
  assetId : String
  windowStart : Datetime
  windowEnd : Datetime
  intervalSeconds : ℕ
  currentRevision : ℕ
  isFinal : Bool
  revisionState : RevisionState
  featureSchemaVersion : String
  featureSchemaHash : Digest (String × List FeatureName)

structure FeatureRevisionModel where
  featureWindowId : Uuid WindowKey
  revision : ℕ
  lineage : FeatureLineage
  isFinal : Bool
  revisionState : RevisionState
  supersedesRevision : Option ℕ
  featureSchemaHash : Digest (String × List FeatureName)
  features : FeatureValues

structure FeatureTables where
  windows : OrderedDict (Uuid WindowKey) FeatureWindowModel
  revisions : OrderedDict (Uuid WindowKey × ℕ) FeatureRevisionModel

/-- No row in any table. -/
def FeatureTables.empty : FeatureTables :=
  ⟨.empty, .empty⟩

/-- The row of the window of a snapshot that is its current revision. -/
def windowRow (snapshot : FeatureSnapshot) : FeatureWindowModel where
  featureWindowId := snapshot.featureWindowId
  scopeId := snapshot.scopeId
  assetId := snapshot.assetId
  windowStart := snapshot.windowStart
  windowEnd := snapshot.windowEnd
  intervalSeconds := snapshot.intervalSeconds
  currentRevision := snapshot.revision
  isFinal := snapshot.isFinal
  revisionState := snapshot.revisionState
  featureSchemaVersion := snapshot.featureSchemaVersion
  featureSchemaHash := snapshot.featureSchemaHash

/-- The row of a window after a revision of it. -/
def FeatureWindowModel.revised (row : FeatureWindowModel) (snapshot : FeatureSnapshot) :
    FeatureWindowModel :=
  { row with
    currentRevision := snapshot.revision
    isFinal := snapshot.isFinal
    revisionState := snapshot.revisionState
    featureSchemaVersion := snapshot.featureSchemaVersion
    featureSchemaHash := snapshot.featureSchemaHash }

/-- The row of a revision. -/
def revisionRow (snapshot : FeatureSnapshot) : FeatureRevisionModel where
  featureWindowId := snapshot.featureWindowId
  revision := snapshot.revision
  lineage := snapshot.lineage
  isFinal := snapshot.isFinal
  revisionState := snapshot.revisionState
  supersedesRevision := snapshot.supersedesRevision
  featureSchemaHash := snapshot.featureSchemaHash
  features := snapshot.features

namespace FeatureTables

variable (tables : FeatureTables) (snapshot : FeatureSnapshot)

/-- The window of a snapshot. -/
def selectWindow : Option FeatureWindowModel :=
  (tables.windows.entries.map Prod.snd).find? fun row =>
    decide (row.scopeId = snapshot.scopeId ∧ row.assetId = snapshot.assetId ∧
      row.windowStart = snapshot.windowStart ∧ row.intervalSeconds = snapshot.intervalSeconds)

/-- Write the row of a window, and the row of its revision. -/
def addRevision (row : FeatureWindowModel) : Except Violation FeatureTables :=
  let windows := tables.windows.set row.featureWindowId row
  if (windows.get? snapshot.featureWindowId).isNone then
    .error (.foreignKey "feature_revisions_feature_window_id_fkey")
  else if (tables.revisions.get? (snapshot.featureWindowId, snapshot.revision)).isSome then
    .error (.unique "feature_revisions_pkey")
  else
    .ok
      { windows := windows
        revisions := tables.revisions.set (snapshot.featureWindowId, snapshot.revision)
          (revisionRow snapshot) }

/-- The transaction of `persist`: nothing when the revision is not newer than the current one. -/
def insertRevision : Except Violation (Option FeatureTables) :=
  match tables.selectWindow snapshot with
  | none =>
    if (tables.windows.get? snapshot.featureWindowId).isSome then
      .error (.unique "feature_windows_pkey")
    else (tables.addRevision snapshot (windowRow snapshot)).map some
  | some row =>
    if snapshot.revision ≤ row.currentRevision then .ok none
    else (tables.addRevision snapshot (row.revised snapshot)).map some

end FeatureTables

/-- `persist(snapshot)`. -/
def persist (snapshot : FeatureSnapshot) : Library.Procedure FeatureTables PyError Bool := do
  match ← Library.Procedure.reading fun tables => tables.insertRevision snapshot with
  | .ok (some tables) =>
    Library.Procedure.modify fun _ => tables
    return true
  | .ok none => return false
  | .error violation =>
    if violation.isUnique then return false
    else Library.Procedure.raise (.integrityError violation.constraint)

end Features
end Scam2Market
