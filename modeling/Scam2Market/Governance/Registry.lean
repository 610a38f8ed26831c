import Mathlib.Data.List.Sort
import Mathlib.Logic.Function.Basic
import Scam2Market.Api.Requests
import Scam2Market.Governance.Calibration
import Scam2Market.Library.Transactions

/-!
# The registry of models

The handlers that write the tables of model governance: `register_model_artifact` and `assign_model_alias` of
`api/routes/evaluation.py`, `report_model_drift` of `api/routes/operations.py`, and
`create_calibration_label`, `fit_calibration`, `evaluate_promotion` and `create_false_positive_report` of
`api/routes/model_governance.py`.

* Each handler is a transaction at READ COMMITTED: every `session.get` and `session.scalar` reads the
  committed state of its own moment, and what is written becomes visible at the commit.
* An `UPDATE` sets the columns whose value differs from the one that was loaded, and no others
  (`ModelAlias.update`).
* The id that `uuid4` draws for a row is the number of the request that adds it.  A row of `audit_logs` is
  an `AuditLog`, one constructor for each action of these handlers.
* The columns that no handler reads back are kept where they are part of a response; the responses of the
  three handlers that only insert a row are left out.
-/

namespace Scam2Market
namespace Governance

open Api Library

/-! ## Rows -/

/-- `uuid5` of `model-artifact:<family>:<version>:<hash>`. -/
abbrev ArtifactId : Type := Uuid String

/-- The `uuid4` of a row. -/
abbrev RowId : Type := ℕ

/-- A `dict[str, str]`, as its items in key order. -/
structure Segment where
  fields : List (String × String) := []
  sorted : fields.Pairwise fun a b => a.1 < b.1 := by decide
  deriving DecidableEq, Repr

/-- A row of `model_artifacts`. -/
structure ModelArtifact where
  modelArtifactId : ArtifactId
  modelFamily : String
  modelVersion : String
  artifactUri : String
  artifactHash : String
  inputSchemaHash : String
  trainingDataHash : Option String
  mlflowRunId : Option String
  status : String := "REGISTERED"
  metadataJson : JsonObject

/-- The primary key of `model_aliases`: the family and the alias. -/
abbrev AliasKey : Type := String × String

/-- A row of `model_aliases`, without its key. -/
structure ModelAlias where
  modelArtifactId : ArtifactId
  assignedBy : String
  reason : String
  assignedAt : Datetime
  deriving DecidableEq, Repr

/-- What `UPDATE` makes of a column: it is set when its new value is not the one that was loaded. -/
def changed {α : Type} [DecidableEq α] (loaded new current : α) : α :=
  if new = loaded then current else new

/-- What `UPDATE` makes of a row. -/
def ModelAlias.update (loaded new current : ModelAlias) : ModelAlias where
  modelArtifactId := changed loaded.modelArtifactId new.modelArtifactId current.modelArtifactId
  assignedBy := changed loaded.assignedBy new.assignedBy current.assignedBy
  reason := changed loaded.reason new.reason current.reason
  assignedAt := changed loaded.assignedAt new.assignedAt current.assignedAt

/-- A row of `calibration_labels`. -/
structure CalibrationLabel where
  tenantId : String
  modelFamily : String
  modelVersion : String
  rawScore : ℚ
  outcome : Bool
  dataPartition : String
  segmentJson : Segment
  alertId : Option String
  eventTime : Datetime
  labeledBy : String
  labelReason : String

/-- A row of `model_calibrations`; `metrics_json` is its `fit` and its `holdout`. -/
structure ModelCalibration where
  calibrationId : RowId
  tenantId : String
  modelArtifactId : ArtifactId
  method : String := "PLATT"
  segmentJson : Segment
  slope : ℚ
  intercept : ℚ
  fit : CalibrationMetrics ℚ
  holdout : Option (CalibrationMetrics ℚ)
  holdoutSampleCount : ℕ
  sampleCount : ℕ
  dataHash : String
  status : String := "ACTIVE"
  createdBy : String
  createdAt : Datetime

/-- `metrics_json.get("holdout") or metrics_json["fit"]`. -/
def ModelCalibration.metrics (calibration : ModelCalibration) : CalibrationMetrics ℚ :=
  calibration.holdout.getD calibration.fit

/-- A row of `model_drift_events`. -/
structure ModelDriftEvent where
  tenantId : String
  modelFamily : String
  modelVersion : String
  driftScore : ℚ
  threshold : ℚ
  status : String
  detailsJson : JsonObject
  observedAt : Datetime

/-- A row of `false_positive_reports`. -/
structure FalsePositiveReport where
  tenantId : String
  alertId : Option String
  modelFamily : String
  modelVersion : String
  assetId : Option String
  reasonCode : String
  notes : String
  reportedBy : String
  createdAt : Datetime

/-- A row of `model_promotion_decisions`. -/
structure ModelPromotionDecision where
  decisionId : RowId
  tenantId : String
  modelFamily : String
  candidateArtifactId : ArtifactId
  championArtifactId : Option ArtifactId
  calibrationId : RowId
  status : String
  checksJson : List (String × Bool)
  reason : String
  decidedBy : String

/-- A row of `audit_logs`. -/
inductive AuditLog where
  | registerModelArtifact (actorId : String) (targetId : ArtifactId) (family version : String)
  | assignModelAlias (actorId : String) (target : AliasKey) (reason : String)
      (oldArtifactId : Option ArtifactId) (newArtifactId : ArtifactId)
  | modelPromotionDecision (tenantId actorId : String) (targetId : ArtifactId) (reason status : String)
      (checks : List (String × Bool))

/-- The column `action`. -/
def AuditLog.action : AuditLog → String
  | registerModelArtifact .. => "REGISTER_MODEL_ARTIFACT"
  | assignModelAlias .. => "ASSIGN_MODEL_ALIAS"
  | modelPromotionDecision .. => "MODEL_PROMOTION_DECISION"

/-- The columns `target_type` and `target_id`. -/
def AuditLog.target : AuditLog → String × String
  | registerModelArtifact _ targetId .. => ("MODEL_ARTIFACT", targetId.name)
  | assignModelAlias _ target .. => ("MODEL_ALIAS", target.1 ++ ":" ++ target.2)
  | modelPromotionDecision _ _ targetId .. => ("MODEL_ARTIFACT", targetId.name)

structure GovernanceTables where
  artifacts : List ModelArtifact := []
  aliases : AliasKey → Option ModelAlias := fun _ => none
  labels : List CalibrationLabel := []
  calibrations : List ModelCalibration := []
  driftEvents : List ModelDriftEvent := []
  falsePositives : List FalsePositiveReport := []
  decisions : List ModelPromotionDecision := []
  audit : List AuditLog := []

namespace GovernanceTables

variable (tables : GovernanceTables)

/-- `session.get(ModelArtifactModel, artifact_id)`. -/
def artifact? (artifactId : ArtifactId) : Option ModelArtifact :=
  tables.artifacts.find? fun artifact => artifact.modelArtifactId = artifactId

/-- The first of the rows in the order of a column, newest first. -/
def newest {α : Type} (time : α → Datetime) (rows : List α) : Option α :=
  (rows.insertionSort fun a b => time b ≤ time a).head?

/-- The active calibration of an artifact that was created last. -/
def activeCalibration (tenantId : String) (artifactId : ArtifactId) : Option ModelCalibration :=
  newest ModelCalibration.createdAt (tables.calibrations.filter fun calibration =>
    calibration.tenantId = tenantId ∧ calibration.modelArtifactId = artifactId ∧
      calibration.status = "ACTIVE")

/-- The drift event of a version that was observed last. -/
def latestDrift (tenantId family version : String) : Option ModelDriftEvent :=
  newest ModelDriftEvent.observedAt (tables.driftEvents.filter fun event =>
    event.tenantId = tenantId ∧ event.modelFamily = family ∧ event.modelVersion = version)

/-- The number of false positives that were reported since an instant. -/
def falsePositiveCount (tenantId family version : String) (since : Datetime) : ℕ :=
  tables.falsePositives.countP fun report =>
    report.tenantId = tenantId ∧ report.modelFamily = family ∧ report.modelVersion = version ∧
      since ≤ report.createdAt

/-- `_labels(session, tenant_id, artifact, partition, segment)`. -/
def labelsOf (tenantId : String) (artifact : ModelArtifact) (partition : String) (segment : Segment) :
    List (Forecast ℚ) :=
  ((tables.labels.filter fun label =>
      label.tenantId = tenantId ∧ label.modelFamily = artifact.modelFamily ∧
        label.modelVersion = artifact.modelVersion ∧ label.dataPartition = partition ∧
        (segment.fields = [] ∨ label.segmentJson = segment)).insertionSort
    fun a b => a.eventTime ≤ b.eventTime).map fun label => (label.rawScore, label.outcome)

/-- Write a row of `model_aliases`: an `INSERT` when none was loaded, else an `UPDATE`. -/
def putAlias (key : AliasKey) (loaded : Option ModelAlias) (row : ModelAlias) :
    Except RequestError GovernanceTables :=
  match loaded, tables.aliases key with
  | none, none => .ok { tables with aliases := Function.update tables.aliases key (some row) }
  | none, some _ => .error (.integrityError "model_aliases_pkey")
  | some old, some current =>
    .ok { tables with aliases := Function.update tables.aliases key (some (old.update row current)) }
  | some _, none => .error (.staleDataError "model_aliases")

end GovernanceTables

/-! ## Requests -/

/-- The settings of the promotion gate. -/
structure GovernanceSettings where
  calibrationMinSamples : ℕ := 20
  calibrationMaxEce : ℚ := 12 / 100
  calibrationMinAuc : ℚ := 65 / 100
  promotionMaxFalsePositives : ℕ := 5
  promotionBrierTolerance : ℚ := 1 / 100
  minSamples_mem : 10 ≤ calibrationMinSamples ∧ calibrationMinSamples ≤ 100000 := by decide
  maxEce_mem : 0 ≤ calibrationMaxEce ∧ calibrationMaxEce ≤ 1 := by norm_num
  minAuc_mem : 0 ≤ calibrationMinAuc ∧ calibrationMinAuc ≤ 1 := by norm_num
  tolerance_mem : 0 ≤ promotionBrierTolerance ∧ promotionBrierTolerance ≤ 1 := by norm_num

/-- `^[a-fA-F0-9]{64}$`. -/
def IsHash (value : String) : Prop :=
  value.length = 64 ∧ ∀ c ∈ value.toList, c.isDigit ∨ ('a' ≤ c ∧ c ≤ 'f') ∨ ('A' ≤ c ∧ c ≤ 'F')

structure ModelArtifactCreate where
  modelFamily : String
  modelVersion : String
  artifactUri : String
  artifactHash : String
  inputSchemaHash : String
  trainingDataHash : Option String := none
  mlflowRunId : Option String := none
  metadata : JsonObject := .empty
  modelFamily_length : 2 ≤ modelFamily.length ∧ modelFamily.length ≤ 128
  modelVersion_length : 1 ≤ modelVersion.length ∧ modelVersion.length ≤ 64
  artifactUri_length : 3 ≤ artifactUri.length ∧ artifactUri.length ≤ 2000
  artifactHash_pattern : IsHash artifactHash
  inputSchemaHash_pattern : IsHash inputSchemaHash
  trainingDataHash_pattern : ∀ hash ∈ trainingDataHash, IsHash hash
  mlflowRunId_length : ∀ id ∈ mlflowRunId, id.length ≤ 128

structure AliasAssignment where
  modelArtifactId : ArtifactId
  reason : String
  reason_length : 5 ≤ reason.length ∧ reason.length ≤ 2000

structure CalibrationLabelCreate where
  modelFamily : String
  modelVersion : String
  rawScore : ℚ
  outcome : Bool
  holdout : Bool := false
  segment : Segment := {}
  alertId : Option String := none
  eventTime : Datetime
  reason : String
  modelFamily_length : 2 ≤ modelFamily.length ∧ modelFamily.length ≤ 128
  modelVersion_length : 1 ≤ modelVersion.length ∧ modelVersion.length ≤ 64
  rawScore_mem : 0 ≤ rawScore ∧ rawScore ≤ 1
  reason_length : 5 ≤ reason.length ∧ reason.length ≤ 2000

/-- The `Literal` of `data_partition`. -/
def CalibrationLabelCreate.dataPartition (body : CalibrationLabelCreate) : String :=
  if body.holdout then "HOLDOUT" else "CALIBRATION"

structure CalibrationFitRequest where
  modelArtifactId : ArtifactId
  segment : Segment := {}

structure PromotionRequest where
  candidateArtifactId : ArtifactId
  reason : String
  applyAlias : Bool := false
  reason_length : 5 ≤ reason.length ∧ reason.length ≤ 2000

structure DriftEventCreate where
  modelFamily : String
  modelVersion : String
  driftScore : ℚ
  threshold : ℚ
  details : JsonObject := .empty
  observedAt : Datetime
  modelFamily_length : 1 ≤ modelFamily.length ∧ modelFamily.length ≤ 128
  modelVersion_length : 1 ≤ modelVersion.length ∧ modelVersion.length ≤ 64
  driftScore_nonneg : 0 ≤ driftScore
  threshold_pos : 0 < threshold

structure FalsePositiveCreate where
  alertId : Option String := none
  modelFamily : String
  modelVersion : String
  assetId : Option String := none
  reasonCode : String
  notes : String
  modelFamily_length : 2 ≤ modelFamily.length ∧ modelFamily.length ≤ 128
  modelVersion_length : 1 ≤ modelVersion.length ∧ modelVersion.length ≤ 64
  assetId_length : ∀ id ∈ assetId, id.length ≤ 64
  reasonCode_mem : reasonCode ∈ ["LEGITIMATE_EVENT", "ASSET_AMBIGUITY", "DATA_QUALITY",
    "THRESHOLD_TOO_LOW", "DUPLICATE_CAMPAIGN", "OTHER"]
  notes_length : 5 ≤ notes.length ∧ notes.length ≤ 4000

/-- Who asks, for which tenant, at which instant, and the id of the row that is added. -/
structure Caller where
  tenantId : String
  actorId : String
  now : Datetime
  newId : RowId

/-- What a handler answers. -/
inductive GovernanceResponse where
  | artifact (row : ModelArtifact)
  | assignment (key : AliasKey) (row : ModelAlias)
  | calibration (row : ModelCalibration)
  | decision (row : ModelPromotionDecision)
  | created

/-- A handler.  No row is locked before the flush, so no key is. -/
abbrev Handler : Type :=
  Transaction Empty GovernanceTables RequestError GovernanceResponse

/-! ## Handlers -/

/-- The id of an artifact: the hash is the one of the body, in whatever case it was written. -/
def ModelArtifactCreate.artifactId (body : ModelArtifactCreate) : ArtifactId :=
  ⟨s!"model-artifact:{body.modelFamily}:{body.modelVersion}:{body.artifactHash}"⟩

/-- The row of an artifact, its hashes in lower case. -/
def ModelArtifactCreate.row (body : ModelArtifactCreate) : ModelArtifact where
  modelArtifactId := body.artifactId
  modelFamily := body.modelFamily
  modelVersion := body.modelVersion
  artifactUri := body.artifactUri
  artifactHash := body.artifactHash.toLower
  inputSchemaHash := body.inputSchemaHash.toLower
  trainingDataHash := body.trainingDataHash.map String.toLower
  mlflowRunId := body.mlflowRunId
  metadataJson := body.metadata

/-- `INSERT INTO model_artifacts`: the id, and the family with the version, are unique. -/
def GovernanceTables.addArtifact (tables : GovernanceTables) (artifact : ModelArtifact) :
    Except RequestError GovernanceTables :=
  if tables.artifacts.any fun row => row.modelArtifactId = artifact.modelArtifactId then
    .error (.integrityError "model_artifacts_pkey")
  else if tables.artifacts.any fun row =>
      row.modelFamily = artifact.modelFamily ∧ row.modelVersion = artifact.modelVersion then
    .error (.integrityError "uq_model_family_version")
  else .ok { tables with artifacts := tables.artifacts ++ [artifact] }

/-- A row of `audit_logs`, whose `target_id` has 128 characters. -/
def GovernanceTables.addAudit (tables : GovernanceTables) (entry : AuditLog) :
    Except RequestError GovernanceTables :=
  if 128 < entry.target.2.length then .error (.dataError "target_id")
  else .ok { tables with audit := tables.audit ++ [entry] }

/-- `register_model_artifact(body, actor_id)`. -/
def registerModelArtifact (body : ModelArtifactCreate) (caller : Caller) : Handler :=
  .select fun tables =>
    match tables.artifact? body.artifactId with
    | some existing => .commit (fun tables => .ok tables) (.artifact existing)
    | none => .commit
        (fun tables => do
          let tables ← tables.addArtifact body.row
          tables.addAudit (.registerModelArtifact caller.actorId body.artifactId body.modelFamily
            body.modelVersion))
        (.artifact body.row)

/-- What `assign_model_alias` and `_promote_alias` make of an alias. -/
def assignedRow (artifactId : ArtifactId) (reason : String) (caller : Caller) : ModelAlias where
  modelArtifactId := artifactId
  assignedBy := caller.actorId
  reason := reason
  assignedAt := caller.now

/-- The writes of `assign_model_alias`, with the row that was loaded. -/
def assignWrite (key : AliasKey) (loaded : Option ModelAlias) (body : AliasAssignment) (caller : Caller)
    (tables : GovernanceTables) : Except RequestError GovernanceTables := do
  let tables ← tables.putAlias key loaded (assignedRow body.modelArtifactId body.reason caller)
  tables.addAudit (.assignModelAlias caller.actorId key body.reason
    (loaded.map ModelAlias.modelArtifactId) body.modelArtifactId)

/-- `assign_model_alias(model_family, alias, body, actor_id)`; `upper` is `str.upper`. -/
def assignModelAlias (upper : String → String) (modelFamily aliasName : String) (body : AliasAssignment)
    (caller : Caller) : Handler :=
  let normalizedAlias := upper aliasName
  if normalizedAlias ∉ ["CHAMPION", "CANDIDATE", "SHADOW"] then
    .raise (.httpException 422 "alias must be CHAMPION, CANDIDATE, or SHADOW")
  else
    .select fun tables =>
      if ∀ artifact ∈ tables.artifact? body.modelArtifactId, artifact.modelFamily ≠ modelFamily then
        .raise (.httpException 422 "artifact does not belong to model family")
      else
        .select fun tables =>
          let key := (modelFamily, normalizedAlias)
          .commit (assignWrite key (tables.aliases key) body caller)
            (.assignment key (assignedRow body.modelArtifactId body.reason caller))

/-- `create_calibration_label(body, actor_id)`. -/
def createCalibrationLabel (body : CalibrationLabelCreate) (caller : Caller) : Handler :=
  .commit (fun tables => .ok { tables with
    labels := tables.labels ++
      [{ tenantId := caller.tenantId
         modelFamily := body.modelFamily
         modelVersion := body.modelVersion
         rawScore := body.rawScore
         outcome := body.outcome
         dataPartition := body.dataPartition
         segmentJson := body.segment
         alertId := body.alertId
         eventTime := body.eventTime
         labeledBy := caller.actorId
         labelReason := body.reason }] }) .created

/-- `report_model_drift(body)`. -/
def reportModelDrift (body : DriftEventCreate) (caller : Caller) : Handler :=
  .commit (fun tables => .ok { tables with
    driftEvents := tables.driftEvents ++
      [{ tenantId := caller.tenantId
         modelFamily := body.modelFamily
         modelVersion := body.modelVersion
         driftScore := body.driftScore
         threshold := body.threshold
         status := if body.threshold ≤ body.driftScore then "DRIFTED" else "STABLE"
         detailsJson := body.details
         observedAt := body.observedAt }] }) .created

/-- `create_false_positive_report(body, actor_id)`. -/
def createFalsePositiveReport (body : FalsePositiveCreate) (caller : Caller) : Handler :=
  .commit (fun tables => .ok { tables with
    falsePositives := tables.falsePositives ++
      [{ tenantId := caller.tenantId
         alertId := body.alertId
         modelFamily := body.modelFamily
         modelVersion := body.modelVersion
         assetId := body.assetId
         reasonCode := body.reasonCode
         notes := body.notes
         reportedBy := caller.actorId
         createdAt := caller.now }] }) .created

/-! ### Calibrations -/

section Fit

variable (settings : GovernanceSettings) (math : Arithmetic ℚ) (sha256 : List (Forecast ℚ) → String)

/-- `holdout_metrics`: there are none without labels. -/
def holdoutMetrics (fitted : PlattCalibration ℚ) (holdout : List (Forecast ℚ)) :
    Option (CalibrationMetrics ℚ) :=
  if holdout = [] then none
  else (calibrationMetrics math (holdout.map fun item => fitted.predict math item.1)
    (holdout.map Prod.snd)).toOption

/-- The row of a fit. -/
def calibrationRow (body : CalibrationFitRequest) (caller : Caller) (artifactId : ArtifactId)
    (fitted : PlattCalibration ℚ) (holdout : List (Forecast ℚ)) : ModelCalibration where
  calibrationId := caller.newId
  tenantId := caller.tenantId
  modelArtifactId := artifactId
  segmentJson := body.segment
  slope := fitted.slope
  intercept := fitted.intercept
  fit := fitted.metrics
  holdout := holdoutMetrics math fitted holdout
  holdoutSampleCount := holdout.length
  sampleCount := fitted.metrics.sampleCount
  dataHash := fitted.dataHash
  createdBy := caller.actorId
  createdAt := caller.now

/-- The write of `fit_calibration`. -/
def calibrationWrite (row : ModelCalibration) (tables : GovernanceTables) :
    Except RequestError GovernanceTables :=
  .ok { tables with calibrations := tables.calibrations ++ [row] }

/-- `fit_calibration(body, actor_id)`. -/
def fitCalibration (body : CalibrationFitRequest) (caller : Caller) : Handler :=
  .select fun tables =>
    match tables.artifact? body.modelArtifactId with
    | none => .raise (.httpException 404 "model artifact not found")
    | some artifact =>
      .select fun tables =>
        match fitPlattCalibration math sha256
            (tables.labelsOf caller.tenantId artifact "CALIBRATION" body.segment)
            settings.calibrationMinSamples with
        | .error detail => .raise (.httpException 422 detail)
        | .ok fitted =>
          .select fun tables =>
            let row := calibrationRow math body caller artifact.modelArtifactId fitted
              (tables.labelsOf caller.tenantId artifact "HOLDOUT" body.segment)
            .commit (calibrationWrite row) (.calibration row)

end Fit

/-! ### Promotions -/

section Promotion

variable (settings : GovernanceSettings)

/-- `status` of a decision. -/
def decisionStatus (checks : List (String × Bool)) (applyAlias : Bool) : String :=
  let passed := checks.all Prod.snd
  if passed && applyAlias then "PROMOTED" else if passed then "APPROVED" else "REJECTED"

/-- What a decision is made on. -/
structure PromotionEvidence where
  candidate : ModelArtifact
  calibration : ModelCalibration
  championAlias : Option ModelAlias
  championBrier : Option ℚ
  driftStatus : Option String
  falsePositives : ℕ

namespace PromotionEvidence

variable (evidence : PromotionEvidence)

/-- `champion_id`. -/
def championId : Option ArtifactId :=
  evidence.championAlias.map ModelAlias.modelArtifactId

/-- `champion_id is not None and champion_id != candidate.model_artifact_id`. -/
def comparisonRequired : Bool :=
  evidence.championId.any fun champion => champion ≠ evidence.candidate.modelArtifactId

/-- `checks`. -/
def checks : List (String × Bool) :=
  promotionChecks evidence.calibration.metrics evidence.calibration.sampleCount
    settings.calibrationMinSamples settings.calibrationMaxEce settings.calibrationMinAuc
    evidence.driftStatus evidence.falsePositives settings.promotionMaxFalsePositives
    evidence.championBrier settings.promotionBrierTolerance evidence.comparisonRequired

/-- The row of the decision. -/
def decision (body : PromotionRequest) (caller : Caller) : ModelPromotionDecision where
  decisionId := caller.newId
  tenantId := caller.tenantId
  modelFamily := evidence.candidate.modelFamily
  candidateArtifactId := evidence.candidate.modelArtifactId
  championArtifactId := evidence.championId
  calibrationId := evidence.calibration.calibrationId
  status := decisionStatus (evidence.checks settings) body.applyAlias
  checksJson := evidence.checks settings
  reason := body.reason
  decidedBy := caller.actorId

/-- The alias that a promotion assigns. -/
def key : AliasKey :=
  (evidence.candidate.modelFamily, "CHAMPION")

end PromotionEvidence

/-- The audit entry of a decision. -/
def ModelPromotionDecision.auditLog (decision : ModelPromotionDecision) : AuditLog :=
  .modelPromotionDecision decision.tenantId decision.decidedBy decision.candidateArtifactId
    decision.reason decision.status decision.checksJson

/-- The writes of a decision that assigns no alias. -/
def decisionWrite (decision : ModelPromotionDecision) (tables : GovernanceTables) :
    Except RequestError GovernanceTables :=
  { tables with decisions := tables.decisions ++ [decision] }.addAudit decision.auditLog

/-- The writes of a promotion: those of `_promote_alias`, with the row that was loaded, and the decision. -/
def promotionWrite (loaded : Option ModelAlias) (caller : Caller) (decision : ModelPromotionDecision)
    (tables : GovernanceTables) : Except RequestError GovernanceTables := do
  let tables ← tables.putAlias (decision.modelFamily, "CHAMPION") loaded
    (assignedRow decision.candidateArtifactId decision.reason caller)
  decisionWrite decision tables

/-- The end of `evaluate_promotion`: a `session.get` of `_promote_alias` finds the alias that the session
has loaded, and reads again when there was none. -/
def decidePromotion (body : PromotionRequest) (caller : Caller) (evidence : PromotionEvidence) : Handler :=
  let decision := evidence.decision settings body caller
  if decision.status = "PROMOTED" then
    match evidence.championAlias with
    | some loaded => .commit (promotionWrite (some loaded) caller decision) (.decision decision)
    | none => .select fun tables =>
        .commit (promotionWrite (tables.aliases evidence.key) caller decision) (.decision decision)
  else .commit (decisionWrite decision) (.decision decision)

/-- The drift and the false positives that the checks read. -/
def evaluateRest (body : PromotionRequest) (caller : Caller) (candidate : ModelArtifact)
    (calibration : ModelCalibration) (championAlias : Option ModelAlias) (championBrier : Option ℚ) :
    Handler :=
  .select fun tables =>
    let drift := tables.latestDrift caller.tenantId candidate.modelFamily candidate.modelVersion
    .select fun tables =>
      let falsePositives := tables.falsePositiveCount caller.tenantId candidate.modelFamily
        candidate.modelVersion (caller.now - timedeltaSeconds (30 * 86400))
      decidePromotion settings body caller
        { candidate := candidate
          calibration := calibration
          championAlias := championAlias
          championBrier := championBrier
          driftStatus := drift.map ModelDriftEvent.status
          falsePositives := falsePositives }

/-- `evaluate_promotion(body, actor_id)`. -/
def evaluatePromotion (body : PromotionRequest) (caller : Caller) : Handler :=
  .select fun tables =>
    match tables.artifact? body.candidateArtifactId with
    | none => .raise (.httpException 404 "candidate artifact not found")
    | some candidate =>
      .select fun tables =>
        match tables.activeCalibration caller.tenantId candidate.modelArtifactId with
        | none => .raise (.httpException 409 "candidate has no active calibration")
        | some calibration =>
          .select fun tables =>
            let championAlias := tables.aliases (candidate.modelFamily, "CHAMPION")
            match championAlias.map ModelAlias.modelArtifactId with
            | none => evaluateRest settings body caller candidate calibration championAlias none
            | some champion =>
              if champion = candidate.modelArtifactId then
                evaluateRest settings body caller candidate calibration championAlias none
              else
                .select fun tables =>
                  evaluateRest settings body caller candidate calibration championAlias
                    ((tables.activeCalibration caller.tenantId champion).map fun row =>
                      row.metrics.brierScore)

end Promotion

/-- A request to one of the handlers. -/
inductive GovernanceRequest where
  | registerModelArtifact (body : ModelArtifactCreate)
  | assignModelAlias (modelFamily aliasName : String) (body : AliasAssignment)
  | createCalibrationLabel (body : CalibrationLabelCreate)
  | fitCalibration (body : CalibrationFitRequest)
  | evaluatePromotion (body : PromotionRequest)
  | reportModelDrift (body : DriftEventCreate)
  | createFalsePositiveReport (body : FalsePositiveCreate)

/-- What the handlers are given besides their requests. -/
structure GovernanceService where
  settings : GovernanceSettings
  exp : ℚ → ℚ
  log : ℚ → ℚ
  sha256 : List (Forecast ℚ) → String
  upper : String → String
  exp_nonneg : ∀ value, 0 ≤ exp value

/-- The transaction of a request. -/
def GovernanceService.handler (service : GovernanceService) (caller : Caller) :
    GovernanceRequest → Handler
  | .registerModelArtifact body => Governance.registerModelArtifact body caller
  | .assignModelAlias modelFamily aliasName body =>
    Governance.assignModelAlias service.upper modelFamily aliasName body caller
  | .createCalibrationLabel body => Governance.createCalibrationLabel body caller
  | .fitCalibration body =>
    Governance.fitCalibration service.settings (.ofFunctions service.exp service.log) service.sha256 body
      caller
  | .evaluatePromotion body => Governance.evaluatePromotion service.settings body caller
  | .reportModelDrift body => Governance.reportModelDrift body caller
  | .createFalsePositiveReport body => Governance.createFalsePositiveReport body caller

end Governance
end Scam2Market
