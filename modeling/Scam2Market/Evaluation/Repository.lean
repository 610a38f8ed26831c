import Scam2Market.Evaluation.Metrics
import Scam2Market.Features.Tables
import Scam2Market.Governance.Registry
import Scam2Market.Library.Transactions

/-!
# The tables of the evaluations

`EvaluationRepository` of `evaluation/repository.py`: `evaluate` with `_load`, `set_mlflow_run` and
`shadow_score`, each a transaction at READ COMMITTED, with `_observation` and `shadow_fusion_score`.

* `Sources` are the tables that these transactions only read; the rest of the program writes them at any time
  (`EvaluationRequest.upstream`).  `EvaluationTables` has those that they write.
* `metrics_json` and the other columns are kept as what they were dumped from.
* The time of a request is part of it, and so is what `UUID(text)`, `float(text)` and the manifests on disk
  say (`EvaluationService`).  A weight whose text says `nan` or `inf` is left out.
-/

namespace Scam2Market
namespace Evaluation

open Features (FeatureRevisionModel FeatureTables WindowKey)
open Governance (ModelArtifact)
open Intelligence (FusionFields InUnit RiskLevel refusedUnit refusedUnit_eq_nil)
open Library (OrderedDict Transaction)

/-! ## Rows -/

/-- A row of `replay_sessions`. -/
structure ReplaySession where
  replaySessionId : String
  scopeId : String
  datasetId : String
  manifestHash : String

/-- A row of `model_scores`: its id, the cutoff, which is never `NULL`, and the fields of the result. -/
structure ModelScore where
  modelScoreId : String
  evidenceCutoff : Datetime
  result : FusionFields

/-- What is read; `createdAt` is the column of the revisions that says when they were written. -/
structure Sources where
  replays : List ReplaySession := []
  features : FeatureTables := .empty
  createdAt : Uuid WindowKey × ℕ → Datetime := fun _ => 0
  scores : List ModelScore := []
  artifacts : List ModelArtifact := []

/-- `uuid5` of the session, the version and the manifest. -/
abbrev EvaluationId : Type := Uuid (String × String × String)

/-- A row of `replay_evaluations`. -/
structure ReplayEvaluationModel where
  evaluationId : EvaluationId
  replaySessionId : String
  evaluationVersion : String
  status : String
  manifestHash : String
  metricsJson : EvaluationMetrics
  generatedAt : Datetime
  mlflowRunId : Option String

/-- A row of `ablation_results`; the id is `uuid5` of the evaluation and the profile. -/
structure AblationResultModel where
  ablationResultId : Uuid (EvaluationId × String)
  evaluationId : EvaluationId
  profile : String
  componentSetJson : List String
  metricsJson : EvaluationMetrics
  contributionDelta : ℚ
  generatedAt : Datetime

/-- The window, its revision and the artifact. -/
abbrev ShadowKey : Type := Uuid WindowKey × ℕ × Governance.ArtifactId

/-- A row of `shadow_scores`; the id is `uuid5` of its key. -/
structure ShadowScoreModel where
  shadowScoreId : Uuid ShadowKey
  replaySessionId : Option String
  featureWindowId : Uuid WindowKey
  featureRevision : ℕ
  modelArtifactId : Governance.ArtifactId
  championModelScoreId : String
  score : ℚ
  severity : RiskLevel
  confidence : ℚ
  controlsAlerts : Bool
  agreement : Bool
  latencyMs : ℚ
  scoredAt : Datetime
  deriving DecidableEq

/-- `uq_shadow_score`. -/
def ShadowScoreModel.key (row : ShadowScoreModel) : ShadowKey :=
  (row.featureWindowId, row.featureRevision, row.modelArtifactId)

structure EvaluationTables where
  sources : Sources := {}
  evaluations : List ReplayEvaluationModel := []
  ablationResults : List AblationResultModel := []
  shadowScores : List ShadowScoreModel := []

/-! ## Reading the scores -/

/-- The scores of a scope with their revisions, in the order of the query. -/
def Sources.rows (sources : Sources) (scopeId : String) : List (ModelScore × FeatureRevisionModel) :=
  let joined := sources.scores.flatMap fun score =>
    match sources.features.windows.get? score.result.featureWindowId with
    | some window =>
      if window.scopeId = scopeId then
        (sources.features.revisions.entries.filter fun entry =>
          entry.1.1 = score.result.featureWindowId ∧ (entry.1.2 : ℤ) = score.result.featureRevision).map
            fun entry => (score, entry.2)
      else []
    | none => []
  joined.insertionSort fun a b =>
    toLex (a.1.evidenceCutoff, a.1.result.fusionRevision) ≤
      toLex (b.1.evidenceCutoff, b.1.result.fusionRevision)

/-- `_observation(score, revision)`; the error names the fields that the schema refuses. -/
def Sources.observation (sources : Sources) (row : ModelScore × FeatureRevisionModel) :
    Except PyError ScoreObservation :=
  let (score, revision) := row
  let freshnessValues :=
    [revision.features .marketDataFreshnessSeconds, revision.features .socialDataFreshnessSeconds].filterMap id
  let dataFreshnessSeconds := if freshnessValues = [] then none else some (fmean freshnessValues)
  let createdAt := sources.createdAt (revision.featureWindowId, revision.revision)
  let stale : List (String × String) :=
    if ∀ q ∈ dataFreshnessSeconds, 0 ≤ q then []
    else [("data_freshness_seconds", "Input should be greater than or equal to 0")]
  if h : refusedUnit "confidence" score.result.confidence ++ stale = [] then
    .ok {
      scoreId := score.modelScoreId
      eventTime := score.evidenceCutoff
      confidence := score.result.confidence
      components := componentsOf score.result
      missingOutputCount := score.result.missingOutputs.length
      dataFreshnessSeconds := dataFreshnessSeconds
      processingLatencyMs := max 0 (totalSeconds (score.result.scoredAt - createdAt) * 1000)
      confidence_mem := refusedUnit_eq_nil.mp (List.append_eq_nil_iff.mp h).1
      latency_nonneg := le_max_left _ _ }
  else .error (.validationError (refusedUnit "confidence" score.result.confidence ++ stale))

/-! ## Evaluations -/

/-- What a request asks of the world outside the database: the timeline of the manifest of a name, and what
`UUID(text)` and `float(text)` make of a text. -/
structure EvaluationService where
  loadScenarioManifest : String → Except PyError (OrderedDict String Datetime)
  uuid : String → Option String
  float : String → Except PyError ℚ

/-- What `evaluate` computes from the rows of the scores. -/
def EvaluationService.evaluated (service : EvaluationService) (sources : Sources) (replay : ReplaySession)
    (now : Datetime) : Except PyError ReplayEvaluation := do
  let rows := sources.rows replay.scopeId
  if rows.isEmpty then throw (.valueError "replay has no model scores to evaluate")
  let observations ← rows.mapM sources.observation
  let timeline ← service.loadScenarioManifest s!"{replay.datasetId}.yaml"
  match timeline.get? "expected_volume_anomaly" with
  | none => throw (.keyError "expected_volume_anomaly")
  | some positiveFrom =>
    return evaluate replay.replaySessionId replay.manifestHash observations positiveFrom now

/-- The row of an evaluation. -/
def ReplayEvaluation.row (evaluation : ReplayEvaluation) : ReplayEvaluationModel where
  evaluationId := evaluation.evaluationId
  replaySessionId := evaluation.replaySessionId
  evaluationVersion := evaluation.evaluationVersion
  status := "COMPLETED"
  manifestHash := evaluation.manifestHash
  metricsJson := evaluation.metrics
  generatedAt := evaluation.generatedAt
  mlflowRunId := none

/-- The row of an ablation. -/
def ReplayEvaluation.ablationRow (evaluation : ReplayEvaluation) (ablation : AblationResult) :
    AblationResultModel where
  ablationResultId := ⟨(evaluation.evaluationId, ablation.profile)⟩
  evaluationId := evaluation.evaluationId
  profile := ablation.profile
  componentSetJson := ablation.components
  metricsJson := ablation.metrics
  contributionDelta := ablation.contributionDelta
  generatedAt := evaluation.generatedAt

/-- What is read back of an ablation. -/
def AblationResultModel.result (row : AblationResultModel) : AblationResult where
  profile := row.profile
  components := row.componentSetJson
  metrics := row.metricsJson
  contributionDelta := row.contributionDelta

namespace EvaluationTables

variable (tables : EvaluationTables)

/-- `ORDER BY generated_at, profile`. -/
def ablationOrder (a b : AblationResultModel) : Prop :=
  toLex (a.generatedAt, a.profile) ≤ toLex (b.generatedAt, b.profile)

instance : DecidableRel ablationOrder := fun _ _ => inferInstanceAs (Decidable (_ ≤ _))

/-- The ablations of an evaluation. -/
def ablationsOf (evaluationId : EvaluationId) : List AblationResultModel :=
  tables.ablationResults.filter fun row => row.evaluationId = evaluationId

/-- `_load(session, row)`. -/
def load (row : ReplayEvaluationModel) : ReplayEvaluation where
  evaluationId := row.evaluationId
  replaySessionId := row.replaySessionId
  evaluationVersion := row.evaluationVersion
  manifestHash := row.manifestHash
  metrics := row.metricsJson
  ablations := ((tables.ablationsOf row.evaluationId).insertionSort ablationOrder).map
    AblationResultModel.result
  generatedAt := row.generatedAt
  mlflowRunId := row.mlflowRunId

/-- The evaluation of a replay, of the current version. -/
def evaluation? (replaySessionId : String) : Option ReplayEvaluationModel :=
  tables.evaluations.find? fun row =>
    row.replaySessionId = replaySessionId ∧ row.evaluationVersion = evaluationVersion

/-- `INSERT` of an evaluation and its ablations: the ids are unique, and so are the session with the version
and the evaluation with the profile. -/
def addEvaluation (evaluation : ReplayEvaluation) : Except PyError EvaluationTables :=
  let rows := evaluation.ablations.map evaluation.ablationRow
  let after := tables.ablationResults ++ rows
  if tables.evaluations.any fun row => row.evaluationId = evaluation.evaluationId then
    .error (.integrityError "replay_evaluations_pkey")
  else if tables.evaluations.any fun row => row.replaySessionId = evaluation.replaySessionId ∧
      row.evaluationVersion = evaluation.evaluationVersion then
    .error (.integrityError "uq_replay_evaluation_version")
  else if ¬ (after.map AblationResultModel.ablationResultId).Nodup then
    .error (.integrityError "ablation_results_pkey")
  else if ¬ (after.map fun row => (row.evaluationId, row.profile)).Nodup then
    .error (.integrityError "uq_evaluation_ablation_profile")
  else
    .ok { tables with
      evaluations := tables.evaluations ++ [evaluation.row]
      ablationResults := after }

end EvaluationTables

/-- What a transaction returns. -/
inductive EvaluationResponse where
  | evaluation (evaluation : ReplayEvaluation)
  | shadow (row : ShadowScoreModel)
  | done

/-- A transaction.  No row is locked before the flush, so no key is. -/
abbrev EvaluationHandler : Type :=
  Transaction Empty EvaluationTables PyError EvaluationResponse

/-- `EvaluationRepository.evaluate(replay_session_id)`. -/
def EvaluationService.evaluateReplay (service : EvaluationService) (replaySessionId : String)
    (now : Datetime) : EvaluationHandler :=
  .select fun tables =>
    match tables.sources.replays.find? fun row => row.replaySessionId = replaySessionId with
    | none => .raise (.lookupError s!"replay {replaySessionId} not found")
    | some replay =>
      .select fun tables =>
        match tables.evaluation? replaySessionId with
        | some existing =>
          .select fun tables => .commit (fun tables => .ok tables) (.evaluation (tables.load existing))
        | none =>
          .select fun tables =>
            match service.evaluated tables.sources replay now with
            | .error error => .raise error
            | .ok evaluation =>
              .commit (fun tables => tables.addEvaluation evaluation) (.evaluation evaluation)

/-- A row after the `UPDATE` of `set_mlflow_run`, with the run that was loaded. -/
def ReplayEvaluationModel.withRun (evaluationId : EvaluationId) (loaded : Option String) (runId : String)
    (row : ReplayEvaluationModel) : ReplayEvaluationModel :=
  if row.evaluationId = evaluationId then
    { row with mlflowRunId := Governance.changed loaded (some runId) row.mlflowRunId }
  else row

/-- The `UPDATE`. -/
def EvaluationTables.putMlflowRun (evaluationId : EvaluationId) (loaded : Option String) (runId : String)
    (tables : EvaluationTables) : EvaluationTables :=
  { tables with evaluations := tables.evaluations.map (.withRun evaluationId loaded runId) }

/-- `EvaluationRepository.set_mlflow_run(evaluation_id, run_id)`. -/
def setMlflowRun (evaluationId : EvaluationId) (runId : String) : EvaluationHandler :=
  .select fun tables =>
    match tables.evaluations.find? fun row => row.evaluationId = evaluationId with
    | none => .commit (fun tables => .ok tables) .done
    | some loaded =>
      .commit (fun tables => .ok (tables.putMlflowRun evaluationId loaded.mlflowRunId runId)) .done

/-! ## Shadow scores -/

/-- `float(value)`. -/
def EvaluationService.floatOf (service : EvaluationService) : Json → Except PyError ℚ
  | .bool value => .ok (if value then 1 else 0)
  | .int value => .ok value
  | .float value => .ok value
  | .str value => service.float value
  | _ => .error (.typeError "float")

/-- The weights of an artifact without its own. -/
def defaultShadowWeights : OrderedDict String ℚ :=
  .ofEntries [("market_score", 0.40), ("social_score", 0.10), ("coordination_score", 0.18),
    ("temporal_score", 0.10), ("claim_risk", 0.12), ("graph_score", 0.10)]

/-- The weights that the metadata of an artifact name. -/
def EvaluationService.shadowWeights (service : EvaluationService) (metadata : JsonObject) :
    Except PyError (OrderedDict String ℚ) :=
  match metadata.getD "weights" (.obj []) with
  | .obj (field :: fields) => do
    let weights ← (field :: fields).mapM fun item => do return (item.1, ← service.floatOf item.2)
    return .ofEntries weights
  | _ => .ok defaultShadowWeights

/-- `shadow_fusion_score(components, weights)`. -/
def shadowFusionScore (components : OrderedDict String (Option ℚ)) (weights : OrderedDict String ℚ) : ℚ :=
  let present := components.entries.filterMap fun item => item.2.map fun value => (item.1, value)
  let weightedSum := (present.map fun item => item.2 * weights.getD item.1 0).sum
  let available := (present.map fun item => weights.getD item.1 0).sum
  roundTo 6 (max 0 (min 1 (if available = 0 then 0 else weightedSum / available)))

/-- `ShadowScoreRequest`. -/
structure ShadowScoreRequest where
  modelArtifactId : Governance.ArtifactId
  featureWindowId : Uuid WindowKey
  featureRevision : ℕ
  latencyMs : ℚ := 0
  revision_pos : 1 ≤ featureRevision
  latency_nonneg : 0 ≤ latencyMs

def ShadowScoreRequest.key (body : ShadowScoreRequest) : ShadowKey :=
  (body.featureWindowId, body.featureRevision, body.modelArtifactId)

/-- `ORDER BY fusion_revision DESC LIMIT 1`, of the scores of a revision. -/
def Sources.champion? (sources : Sources) (body : ShadowScoreRequest) : Option ModelScore :=
  ((sources.scores.filter fun score => score.result.featureWindowId = body.featureWindowId ∧
      score.result.featureRevision = (body.featureRevision : ℤ)).insertionSort
    fun a b => b.result.fusionRevision ≤ a.result.fusionRevision).head?

/-- The row that `shadow_score` builds from what it has read. -/
def shadowRow (body : ShadowScoreRequest) (champion : ModelScore) (weights : OrderedDict String ℚ)
    (replaySessionId : Option String) (now : Datetime) : ShadowScoreModel :=
  let score := shadowFusionScore (componentsOf champion.result) weights
  { shadowScoreId := ⟨body.key⟩
    replaySessionId := replaySessionId
    featureWindowId := body.featureWindowId
    featureRevision := body.featureRevision
    modelArtifactId := body.modelArtifactId
    championModelScoreId := champion.modelScoreId
    score := score
    severity := severity score
    confidence := max 0 (min 1
      (champion.result.confidence * (1 - (champion.result.missingOutputs.length : ℚ) / 7)))
    controlsAlerts := false
    agreement := severity score = champion.result.severity
    latencyMs := body.latencyMs
    scoredAt := now }

/-- `INSERT INTO shadow_scores`: the id and the key are unique, and the replay exists. -/
def EvaluationTables.addShadow (row : ShadowScoreModel) (tables : EvaluationTables) :
    Except PyError EvaluationTables :=
  if tables.shadowScores.any fun other => other.shadowScoreId = row.shadowScoreId then
    .error (.integrityError "shadow_scores_pkey")
  else if tables.shadowScores.any fun other => other.key = row.key then
    .error (.integrityError "uq_shadow_score")
  else if ∀ replayId ∈ row.replaySessionId,
      tables.sources.replays.any fun replay => replay.replaySessionId = replayId then
    .ok { tables with shadowScores := tables.shadowScores ++ [row] }
  else .error (.integrityError "shadow_scores_replay_session_id_fkey")

/-- The replay that a window belongs to, by its scope. -/
def EvaluationService.replayOf (service : EvaluationService) (sources : Sources)
    (featureWindowId : Uuid WindowKey) : Option String :=
  (sources.features.windows.get? featureWindowId).bind fun window =>
    if window.scopeId = "LIVE" then none else service.uuid window.scopeId

/-- The end of `EvaluationRepository.shadow_score(...)`, without a row of the same key. -/
def EvaluationService.scoreShadow (service : EvaluationService) (body : ShadowScoreRequest)
    (artifact : ModelArtifact) (champion : ModelScore) (now : Datetime) : EvaluationHandler :=
  match service.shadowWeights artifact.metadataJson with
  | .error error => .raise error
  | .ok weights =>
    .select fun tables =>
      let row := shadowRow body champion weights (service.replayOf tables.sources body.featureWindowId) now
      .commit (fun tables => tables.addShadow row) (.shadow row)

/-- `EvaluationRepository.shadow_score(...)`. -/
def EvaluationService.shadowScore (service : EvaluationService) (body : ShadowScoreRequest)
    (now : Datetime) : EvaluationHandler :=
  .select fun tables =>
    match tables.sources.artifacts.find? fun row => row.modelArtifactId = body.modelArtifactId with
    | none => .raise (.lookupError s!"model artifact {body.modelArtifactId.name} not found")
    | some artifact =>
      .select fun tables =>
        if (tables.sources.features.revisions.get? (body.featureWindowId, body.featureRevision)).isNone then
          .raise (.lookupError "feature revision not found")
        else
          .select fun tables =>
            match tables.sources.champion? body with
            | none => .raise (.valueError "champion score is required for shadow comparison")
            | some champion =>
              .select fun tables =>
                match tables.shadowScores.find? fun row => row.key = body.key with
                | some existing => .commit (fun tables => .ok tables) (.shadow existing)
                | none => service.scoreShadow body artifact champion now

/-! ## Requests -/

/-- A request to the repository, or a commit of the rest of the program. -/
inductive EvaluationRequest where
  | evaluate (replaySessionId : String) (now : Datetime)
  | setMlflowRun (evaluationId : EvaluationId) (runId : String)
  | shadowScore (body : ShadowScoreRequest) (now : Datetime)
  | upstream (change : Sources → Sources)

/-- The transaction of a request. -/
def EvaluationService.handler (service : EvaluationService) : EvaluationRequest → EvaluationHandler
  | .evaluate replaySessionId now => service.evaluateReplay replaySessionId now
  | .setMlflowRun evaluationId runId => Evaluation.setMlflowRun evaluationId runId
  | .shadowScore body now => service.shadowScore body now
  | .upstream change => .commit (fun tables => .ok { tables with sources := change tables.sources }) .done

end Evaluation
end Scam2Market
