import Scam2Market.Evaluation.Repository
import Scam2Market.Library.Fallible
import Scam2Market.Library.Guarantees

/-!
# A replay is evaluated once

Any number of the transactions of `Evaluation/Repository`, interleaved in any way with each other and with the
rest of the program, which may change everything that they read.

* `EvaluationSound`: what is stored for a replay is one evaluation of scores that were read, with all its
  ablations; a shadow score has one row for its key.
* `Grows`: what is stored is not changed any more, except for the run of MLflow.
* `evaluation_run`: every interleaving keeps the tables sound, and all that it has answered stands in them.
* `evaluated_once`: so two answers for one replay are the same evaluation, and two for one shadow key the same
  row.
-/

namespace Scam2Market
namespace Evaluation

open Features (WindowKey)
open Intelligence (InUnit RiskLevel)
open Library Library.Database

variable {service : EvaluationService} {s s' : EvaluationTables}

/-! ## What is stored -/

/-- An evaluation as it is stored: its ablations in the order in which they are read, and no run. -/
def ReplayEvaluation.settled (evaluation : ReplayEvaluation) : ReplayEvaluation :=
  { evaluation with
    ablations := evaluation.ablations.insertionSort fun a b => a.profile ≤ b.profile
    mlflowRunId := none }

/-- What is read of a row, without its run. -/
def EvaluationTables.settledRow (s : EvaluationTables) (row : ReplayEvaluationModel) : ReplayEvaluation :=
  { s.load row with mlflowRunId := none }

/-- What is stored for a replay. -/
def EvaluationTables.stored (s : EvaluationTables) (replaySessionId : String) : Option ReplayEvaluation :=
  (s.evaluation? replaySessionId).map s.settledRow

/-- It is what the evaluator makes of scores that were there. -/
def Measured (evaluation : ReplayEvaluation) : Prop :=
  ∃ observations positiveFrom, observations ≠ [] ∧
    evaluation = (evaluate evaluation.replaySessionId evaluation.manifestHash observations positiveFrom
      evaluation.generatedAt).settled

/-- What is true of a row of `shadow_scores`. -/
structure ShadowSound (row : ShadowScoreModel) : Prop where
  id : row.shadowScoreId = ⟨row.key⟩
  score : InUnit row.score
  severity : row.severity = Evaluation.severity row.score
  confidence : InUnit row.confidence
  quiet : row.controlsAlerts = false

/-- What is true of the tables in every run. -/
structure EvaluationSound (s : EvaluationTables) : Prop where
  ids : (s.evaluations.map ReplayEvaluationModel.evaluationId).Nodup
  versions : (s.evaluations.map fun row => (row.replaySessionId, row.evaluationVersion)).Nodup
  owned : ∀ row ∈ s.ablationResults,
    row.evaluationId ∈ s.evaluations.map ReplayEvaluationModel.evaluationId
  measured : ∀ row ∈ s.evaluations, Measured (s.settledRow row)
  shadowKeys : (s.shadowScores.map ShadowScoreModel.key).Nodup
  shadows : ∀ row ∈ s.shadowScores, ShadowSound row

/-- What is stored stays as it is. -/
structure Grows (s s' : EvaluationTables) : Prop where
  stored : ∀ replaySessionId evaluation,
    s.stored replaySessionId = some evaluation → s'.stored replaySessionId = some evaluation
  shadowScores : s.shadowScores ⊆ s'.shadowScores

theorem grows_refl (s : EvaluationTables) : Grows s s :=
  ⟨fun _ _ h => h, List.Subset.refl _⟩

theorem grows_trans (s s' s'' : EvaluationTables) (h : Grows s s') (h' : Grows s' s'') : Grows s s'' :=
  ⟨fun id evaluation hstored => h'.stored id evaluation (h.stored id evaluation hstored),
    fun _ hrow => h'.shadowScores (h.shadowScores hrow)⟩

theorem evaluationSound_empty : EvaluationSound {} where
  ids := List.nodup_nil
  versions := List.nodup_nil
  owned _ h := absurd h List.not_mem_nil
  measured _ h := absurd h List.not_mem_nil
  shadowKeys := List.nodup_nil
  shadows _ h := absurd h List.not_mem_nil

/-- Sorting again changes nothing. -/
theorem Measured.settled_eq {evaluation : ReplayEvaluation} (h : Measured evaluation) :
    evaluation.settled = evaluation := by
  obtain ⟨observations, positiveFrom, -, heq⟩ := h
  rw [heq]
  unfold ReplayEvaluation.settled
  congr 1
  exact List.Pairwise.insertionSort_eq (List.pairwise_insertionSort _ _)

/-! ## The rest of the program -/

/-- What is only read may change. -/
theorem EvaluationSound.withSources (h : EvaluationSound s) (sources : Sources) :
    Grows s { s with sources := sources } ∧ EvaluationSound { s with sources := sources } :=
  ⟨⟨fun _ _ hstored => hstored, List.Subset.refl _⟩,
    ⟨h.ids, h.versions, h.owned, h.measured, h.shadowKeys, h.shadows⟩⟩

/-! ## Runs of MLflow -/

section MlflowRun

variable {row row' : ReplayEvaluationModel}

/-- What is read of a row, without the run, does not depend on the run. -/
theorem settledRow_eq (hresults : s'.ablationResults = s.ablationResults)
    (hrow : { row' with mlflowRunId := none } = { row with mlflowRunId := none }) :
    s'.settledRow row' = s.settledRow row := by
  obtain ⟨hid, hreplay, hversion, -, hhash, hmetrics, htime, -⟩ :=
    ReplayEvaluationModel.mk.inj hrow
  rw [EvaluationTables.settledRow, EvaluationTables.settledRow, EvaluationTables.load,
    EvaluationTables.load, EvaluationTables.ablationsOf, EvaluationTables.ablationsOf, hresults, hid,
    hreplay, hversion, hhash, hmetrics, htime]

theorem withRun_core (evaluationId : EvaluationId) (loaded : Option String) (runId : String)
    (row : ReplayEvaluationModel) :
    { row.withRun evaluationId loaded runId with mlflowRunId := none } = { row with mlflowRunId := none } := by
  rw [ReplayEvaluationModel.withRun]
  split_ifs <;> rfl

/-- The columns that are unique stay. -/
theorem withRun_keys (evaluationId : EvaluationId) (loaded : Option String) (runId : String)
    (row : ReplayEvaluationModel) :
    (row.withRun evaluationId loaded runId).evaluationId = row.evaluationId ∧
      (row.withRun evaluationId loaded runId).replaySessionId = row.replaySessionId ∧
      (row.withRun evaluationId loaded runId).evaluationVersion = row.evaluationVersion := by
  obtain ⟨hid, hreplay, hversion, -⟩ :=
    ReplayEvaluationModel.mk.inj (withRun_core evaluationId loaded runId row)
  exact ⟨hid, hreplay, hversion⟩

/-- A run that is noted changes nothing else. -/
theorem EvaluationSound.putMlflowRun (h : EvaluationSound s) (evaluationId : EvaluationId)
    (loaded : Option String) (runId : String) :
    Grows s (s.putMlflowRun evaluationId loaded runId) ∧
      EvaluationSound (s.putMlflowRun evaluationId loaded runId) := by
  have hkeys := withRun_keys evaluationId loaded runId
  have hsettled : ∀ row, (s.putMlflowRun evaluationId loaded runId).settledRow
      (row.withRun evaluationId loaded runId) = s.settledRow row :=
    fun row => settledRow_eq rfl (withRun_core evaluationId loaded runId row)
  have hids : (s.putMlflowRun evaluationId loaded runId).evaluations.map
      ReplayEvaluationModel.evaluationId = s.evaluations.map ReplayEvaluationModel.evaluationId := by
    rw [EvaluationTables.putMlflowRun, List.map_map]
    exact List.map_congr_left fun row _ => (hkeys row).1
  refine ⟨⟨fun replaySessionId evaluation hstored => ?_, List.Subset.refl _⟩, ?_, ?_, ?_, ?_,
    h.shadowKeys, h.shadows⟩
  · rw [← hstored, EvaluationTables.stored, EvaluationTables.stored, EvaluationTables.evaluation?,
      EvaluationTables.evaluation?]
    show ((s.evaluations.map _).find? _).map _ = _
    rw [List.find?_map, Option.map_map]
    refine congrArg₂ Option.map (funext hsettled) (congrArg (fun p => s.evaluations.find? p) ?_)
    funext row
    simp only [Function.comp_apply, (hkeys row).2.1, (hkeys row).2.2]
  · rw [hids]
    exact h.ids
  · show ((s.evaluations.map _).map _).Nodup
    rw [List.map_map]
    refine (List.map_congr_left fun row _ => ?_) ▸ h.versions
    simp only [Function.comp_apply, (hkeys row).2.1, (hkeys row).2.2]
  · rw [hids]
    exact h.owned
  · intro row hrow
    obtain ⟨old, hold, rfl⟩ := List.mem_map.mp hrow
    rw [hsettled]
    exact h.measured old hold

end MlflowRun

/-! ## Evaluations -/

section NewEvaluation

variable {evaluation : ReplayEvaluation}

theorem settledRow_congr {row : ReplayEvaluationModel}
    (h : s'.ablationsOf row.evaluationId = s.ablationsOf row.evaluationId) :
    s'.settledRow row = s.settledRow row := by
  rw [EvaluationTables.settledRow, EvaluationTables.settledRow, EvaluationTables.load,
    EvaluationTables.load, h]

/-- An `INSERT` that no constraint refuses. -/
theorem addEvaluation_eq_ok (h : s.addEvaluation evaluation = .ok s') :
    (∀ row ∈ s.evaluations, row.evaluationId ≠ evaluation.evaluationId) ∧
      (∀ row ∈ s.evaluations, ¬ (row.replaySessionId = evaluation.replaySessionId ∧
        row.evaluationVersion = evaluation.evaluationVersion)) ∧
      s' = { s with
        evaluations := s.evaluations ++ [evaluation.row]
        ablationResults := s.ablationResults ++ evaluation.ablations.map evaluation.ablationRow } := by
  rw [EvaluationTables.addEvaluation] at h
  split_ifs at h with hid hversion
  refine ⟨fun row hrow heq => hid ?_, fun row hrow heq => hversion ?_, (Except.ok.inj h).symm⟩
  · exact List.any_eq_true.mpr ⟨row, hrow, decide_eq_true heq⟩
  · exact List.any_eq_true.mpr ⟨row, hrow, decide_eq_true heq⟩

/-- The rows of a new evaluation are read back as they were added. -/
theorem results_ablationRow (evaluation : ReplayEvaluation) :
    ((evaluation.ablations.map evaluation.ablationRow).insertionSort EvaluationTables.ablationOrder).map
        AblationResultModel.result =
      evaluation.ablations.insertionSort fun a b => a.profile ≤ b.profile := by
  have hresult : ∀ ablation, (evaluation.ablationRow ablation).result = ablation := fun _ => rfl
  rw [← List.map_insertionSort (fun a b : AblationResult => a.profile ≤ b.profile)
    EvaluationTables.ablationOrder evaluation.ablationRow, List.map_map]
  · exact List.map_id'' hresult _
  · intro a _ b _
    rw [EvaluationTables.ablationOrder, Prod.Lex.le_iff]
    exact ⟨fun hle => Or.inr ⟨rfl, hle⟩, fun hle => hle.elim (fun hlt => absurd hlt (lt_irrefl _)) And.right⟩

/-- Sound tables with an evaluation and its ablations added. -/
theorem EvaluationSound.withEvaluation (h : EvaluationSound s)
    (hversion : evaluation.evaluationVersion = evaluationVersion) (hmeasured : Measured evaluation.settled)
    (hadd : s.addEvaluation evaluation = .ok s') :
    Grows s s' ∧ EvaluationSound s' ∧
      s'.stored evaluation.replaySessionId = some evaluation.settled := by
  obtain ⟨hfreshId, hfreshVersion, rfl⟩ := addEvaluation_eq_ok hadd
  set after : EvaluationTables := { s with
    evaluations := s.evaluations ++ [evaluation.row]
    ablationResults := s.ablationResults ++ evaluation.ablations.map evaluation.ablationRow } with hafter
  have hold : ∀ row ∈ s.evaluations, after.settledRow row = s.settledRow row := by
    intro row hrow
    refine settledRow_congr ?_
    show (s.ablationResults ++ _).filter _ = s.ablationResults.filter _
    rw [List.filter_append, List.append_right_eq_self, List.filter_eq_nil_iff]
    intro ablation hablation heq
    obtain ⟨result, -, rfl⟩ := List.mem_map.mp hablation
    exact hfreshId row hrow (of_decide_eq_true heq).symm
  have hnew : after.settledRow evaluation.row = evaluation.settled := by
    have hablations : after.ablationsOf evaluation.evaluationId =
        evaluation.ablations.map evaluation.ablationRow := by
      show (s.ablationResults ++ _).filter _ = _
      rw [List.filter_append, List.filter_eq_nil_iff.mpr, List.nil_append, List.filter_eq_self]
      · intro ablation hablation
        obtain ⟨result, -, rfl⟩ := List.mem_map.mp hablation
        exact decide_eq_true rfl
      · intro ablation hablation heq
        obtain ⟨row, hrow, hid⟩ := List.mem_map.mp (h.owned ablation hablation)
        exact hfreshId row hrow (hid.trans (of_decide_eq_true heq))
    rw [EvaluationTables.settledRow, EvaluationTables.load, ReplayEvaluation.settled]
    show ReplayEvaluation.mk _ _ _ _ _ (((after.ablationsOf evaluation.evaluationId).insertionSort
      EvaluationTables.ablationOrder).map AblationResultModel.result) _ _ = _
    rw [hablations, results_ablationRow]
    rfl
  refine ⟨⟨fun replaySessionId stored hstored => ?_, List.Subset.refl _⟩, ⟨?_, ?_, ?_, ?_, h.shadowKeys,
    h.shadows⟩, ?_⟩
  · obtain ⟨row, hfound, rfl⟩ := Option.map_eq_some_iff.mp hstored
    refine Option.map_eq_some_iff.mpr ⟨row, ?_, hold row (List.mem_of_find?_eq_some hfound)⟩
    show (s.evaluations ++ _).find? _ = _
    rw [List.find?_append, show s.evaluations.find? _ = some row from hfound]
    rfl
  · rw [hafter, List.map_append, List.nodup_append]
    refine ⟨h.ids, List.nodup_singleton _, fun a ha b hb => ?_⟩
    obtain ⟨row, hrow, rfl⟩ := List.mem_map.mp ha
    rw [List.mem_singleton.mp hb]
    exact hfreshId row hrow
  · rw [hafter, List.map_append, List.nodup_append]
    refine ⟨h.versions, List.nodup_singleton _, fun a ha b hb heq => ?_⟩
    obtain ⟨row, hrow, rfl⟩ := List.mem_map.mp ha
    rw [List.mem_singleton.mp hb] at heq
    exact hfreshVersion row hrow (Prod.ext_iff.mp heq)
  · intro ablation hablation
    rw [hafter, List.map_append]
    rcases List.mem_append.mp hablation with hin | hin
    · exact List.mem_append_left _ (h.owned ablation hin)
    · obtain ⟨result, -, rfl⟩ := List.mem_map.mp hin
      exact List.mem_append_right _ List.mem_cons_self
  · intro row hrow
    rcases List.mem_append.mp hrow with hin | hin
    · rw [hold row hin]
      exact h.measured row hin
    · rw [List.mem_singleton.mp hin, hnew]
      exact hmeasured
  · refine Option.map_eq_some_iff.mpr ⟨evaluation.row, ?_, hnew⟩
    show (s.evaluations ++ [evaluation.row]).find? _ = _
    rw [List.find?_append, List.find?_eq_none.mpr, Option.none_or, List.find?_cons_of_pos]
    · exact decide_eq_true ⟨rfl, hversion⟩
    · intro row hrow heq
      obtain ⟨hreplay, hcurrent⟩ := of_decide_eq_true heq
      exact hfreshVersion row hrow ⟨hreplay, hcurrent.trans hversion.symm⟩

end NewEvaluation

/-- What `evaluate` adds is measured, of the current version and of the replay. -/
theorem evaluated_eq_ok {sources : Sources} {replay : ReplaySession} {now : Datetime}
    {evaluation : ReplayEvaluation} (h : service.evaluated sources replay now = .ok evaluation) :
    evaluation.replaySessionId = replay.replaySessionId ∧
      evaluation.evaluationVersion = evaluationVersion ∧ Measured evaluation.settled := by
  rw [EvaluationService.evaluated] at h
  by_cases hempty : (sources.rows replay.scopeId).isEmpty = true
  · rw [if_pos hempty] at h
    cases h
  rw [if_neg hempty] at h
  obtain ⟨observations, hobservations, h⟩ := Fallible.bind_eq_ok.mp h
  obtain ⟨timeline, -, h⟩ := Fallible.bind_eq_ok.mp h
  have hne : observations ≠ [] := by
    rintro rfl
    have hlength := (Fallible.mapM_eq_ok.mp hobservations).length_eq
    exact hempty (List.isEmpty_iff_length_eq_zero.mpr hlength)
  split at h
  · cases h
  · rename_i positiveFrom _
    rw [← Except.ok.inj h]
    exact ⟨rfl, rfl, observations, positiveFrom, hne, rfl⟩

theorem evaluation?_eq_some {replaySessionId : String} {row : ReplayEvaluationModel}
    (h : s.evaluation? replaySessionId = some row) :
    row.replaySessionId = replaySessionId ∧ row.evaluationVersion = evaluationVersion := by
  rw [EvaluationTables.evaluation?] at h
  simpa using List.find?_some h

/-- What has been read of a replay is what is stored. -/
theorem settledRow_of_grows {replaySessionId : String} {row : ReplayEvaluationModel} (hgrows : Grows s s')
    (hfound : s.evaluation? replaySessionId = some row) : s'.settledRow row = s.settledRow row := by
  have hstored := hgrows.stored replaySessionId _ (Option.map_eq_some_iff.mpr ⟨row, hfound, rfl⟩)
  obtain ⟨row', -, heq⟩ := Option.map_eq_some_iff.mp hstored
  -- the columns of the row that stands there now are those that were read
  have hid : row'.evaluationId = row.evaluationId := congrArg ReplayEvaluation.evaluationId heq
  have hreplay : row'.replaySessionId = row.replaySessionId := congrArg ReplayEvaluation.replaySessionId heq
  have hversion : row'.evaluationVersion = row.evaluationVersion :=
    congrArg ReplayEvaluation.evaluationVersion heq
  have hhash : row'.manifestHash = row.manifestHash := congrArg ReplayEvaluation.manifestHash heq
  have hmetrics : row'.metricsJson = row.metricsJson := congrArg ReplayEvaluation.metrics heq
  have htime : row'.generatedAt = row.generatedAt := congrArg ReplayEvaluation.generatedAt heq
  rw [← heq, EvaluationTables.settledRow, EvaluationTables.settledRow, EvaluationTables.load,
    EvaluationTables.load, hid, hreplay, hversion, hhash, hmetrics, htime]

/-! ## Shadow scores -/

theorem shadowFusionScore_mem (components : OrderedDict String (Option ℚ)) (weights : OrderedDict String ℚ) :
    InUnit (shadowFusionScore components weights) :=
  roundTo_mem_unit ⟨le_max_left 0 _, max_le zero_le_one (min_le_left 1 _)⟩

theorem shadowSound_row (body : ShadowScoreRequest) (champion : ModelScore) (weights : OrderedDict String ℚ)
    (replaySessionId : Option String) (now : Datetime) :
    ShadowSound (shadowRow body champion weights replaySessionId now) where
  id := rfl
  score := shadowFusionScore_mem _ weights
  severity := rfl
  confidence := ⟨le_max_left 0 _, max_le zero_le_one (min_le_left 1 _)⟩
  quiet := rfl

/-- Sound tables with a shadow score added. -/
theorem EvaluationSound.withShadow (h : EvaluationSound s) {row : ShadowScoreModel} (hrow : ShadowSound row)
    (hadd : s.addShadow row = .ok s') :
    Grows s s' ∧ EvaluationSound s' ∧ row ∈ s'.shadowScores := by
  rw [EvaluationTables.addShadow] at hadd
  split_ifs at hadd with hid hkey
  obtain rfl := Except.ok.inj hadd
  refine ⟨⟨fun _ _ hstored => hstored, List.subset_append_left _ _⟩,
    ⟨h.ids, h.versions, h.owned, h.measured, ?_, fun other hother => ?_⟩,
    List.mem_append_right _ List.mem_cons_self⟩
  · rw [List.map_append, List.nodup_append]
    refine ⟨h.shadowKeys, List.nodup_singleton _, fun a ha b hb heq => hkey ?_⟩
    obtain ⟨other, hother, rfl⟩ := List.mem_map.mp ha
    rw [List.mem_singleton.mp hb] at heq
    exact List.any_eq_true.mpr ⟨other, hother, decide_eq_true heq⟩
  · rcases List.mem_append.mp hother with hold | hnew
    · exact h.shadows other hold
    · rw [List.mem_singleton.mp hnew]
      exact hrow

/-! ## The transactions -/

/-- What an answer says of the tables: an evaluation is the one that is stored for the replay, and a shadow
score is the row of its key. -/
def Answered : EvaluationRequest → EvaluationResponse → EvaluationTables → Prop
  | .evaluate replaySessionId _, response, s => ∃ evaluation, response = .evaluation evaluation ∧
      evaluation.replaySessionId = replaySessionId ∧ s.stored replaySessionId = some evaluation.settled
  | .shadowScore body _, response, s =>
      ∃ row, response = .shadow row ∧ row.key = body.key ∧ row ∈ s.shadowScores
  | .setMlflowRun _ _, _, _ => True
  | .upstream _, _, _ => True

theorem lasting_answered {ι : Type} (requests : ι → EvaluationRequest) :
    Lasting Grows EvaluationSound fun i => Answered (requests i) where
  refl := grows_refl
  trans := grows_trans
  kept i response s s' h hgrows _ := by
    cases hrequest : requests i with
    | evaluate replaySessionId now =>
      rw [hrequest] at h
      obtain ⟨evaluation, heq, hreplay, hstored⟩ := h
      exact ⟨evaluation, heq, hreplay, hgrows.stored _ _ hstored⟩
    | shadowScore body now =>
      rw [hrequest] at h
      obtain ⟨row, heq, hkey, hrow⟩ := h
      exact ⟨row, heq, hkey, hgrows.shadowScores hrow⟩
    | setMlflowRun evaluationId runId => trivial
    | upstream change => trivial

/-- What a transaction relies on and guarantees. -/
abbrev Guarantees (request : EvaluationRequest) (s : EvaluationTables) (handler : EvaluationHandler) : Prop :=
  handler.Keeps Grows EvaluationSound (Answered request) s

/-- A transaction that writes nothing. -/
theorem guarantees_read {request : EvaluationRequest} {response : EvaluationResponse}
    (h : ∀ s', Grows s s' → Answered request response s') :
    Guarantees request s (.commit (fun s => .ok s) response) := by
  intro t t' hgrows hsound hwrite
  obtain rfl := Except.ok.inj hwrite
  exact ⟨grows_refl t, hsound, h t hgrows⟩

theorem guarantees_evaluateReplay (replaySessionId : String) (now : Datetime) :
    Guarantees (.evaluate replaySessionId now) s (service.evaluateReplay replaySessionId now) := by
  refine Transaction.keeps_select fun s' _ _ => ?_
  split
  · trivial
  rename_i replay hreplay
  have hid : replay.replaySessionId = replaySessionId := by simpa using List.find?_some hreplay
  refine Transaction.keeps_select fun t _ hsound => ?_
  split
  · rename_i existing hexisting
    have hstored : t.stored replaySessionId = some (t.settledRow existing) :=
      Option.map_eq_some_iff.mpr ⟨existing, hexisting, rfl⟩
    have hmeasured := hsound.measured existing (List.mem_of_find?_eq_some hexisting)
    refine Transaction.keeps_select fun u hgrows _ => guarantees_read fun v hgrows' => ?_
    refine ⟨u.load existing, rfl, (evaluation?_eq_some hexisting).1, ?_⟩
    rw [hgrows'.stored _ _ (hgrows.stored _ _ hstored)]
    have hsame : (u.load existing).settled = (u.settledRow existing).settled := rfl
    rw [hsame, settledRow_of_grows hgrows hexisting, hmeasured.settled_eq]
  · refine Transaction.keeps_select fun u _ _ => ?_
    split
    · trivial
    · rename_i evaluation hevaluated
      obtain ⟨hreplayId, hversion, hmeasured⟩ := evaluated_eq_ok hevaluated
      intro v v' _ hsound' hwrite
      obtain ⟨hgrows, hsound'', hstored⟩ := hsound'.withEvaluation hversion hmeasured hwrite
      rw [hreplayId, hid] at hstored
      exact ⟨hgrows, hsound'', evaluation, rfl, hreplayId.trans hid, hstored⟩

theorem guarantees_setMlflowRun (evaluationId : EvaluationId) (runId : String) :
    Guarantees (.setMlflowRun evaluationId runId) s (setMlflowRun evaluationId runId) := by
  refine Transaction.keeps_select fun s' _ _ => ?_
  split
  · exact guarantees_read fun _ _ => trivial
  · intro t t' _ hsound hwrite
    obtain rfl := Except.ok.inj hwrite
    obtain ⟨hgrows, hsound'⟩ := hsound.putMlflowRun evaluationId _ runId
    exact ⟨hgrows, hsound', trivial⟩

theorem guarantees_shadowScore (body : ShadowScoreRequest) (now : Datetime) :
    Guarantees (.shadowScore body now) s (service.shadowScore body now) := by
  refine Transaction.keeps_select fun s' _ _ => ?_
  split
  · trivial
  refine Transaction.keeps_select fun t _ _ => ?_
  split_ifs
  · trivial
  refine Transaction.keeps_select fun u _ _ => ?_
  split
  · trivial
  refine Transaction.keeps_select fun v _ _ => ?_
  split
  · rename_i existing hexisting
    refine guarantees_read fun w hgrows => ⟨existing, rfl, ?_, ?_⟩
    · simpa using List.find?_some hexisting
    · exact hgrows.shadowScores (List.mem_of_find?_eq_some hexisting)
  · rw [EvaluationService.scoreShadow]
    split
    · trivial
    · refine Transaction.keeps_select fun w _ _ => ?_
      intro x x' _ hsound hwrite
      obtain ⟨hgrows, hsound', hrow⟩ := hsound.withShadow (shadowSound_row body _ _ _ now) hwrite
      exact ⟨hgrows, hsound', _, rfl, rfl, hrow⟩

/-- **Every transaction keeps the tables sound**, whatever others commit between its statements. -/
theorem guarantees_handler (request : EvaluationRequest) :
    Guarantees request s (service.handler request) := by
  cases request with
  | evaluate replaySessionId now => exact guarantees_evaluateReplay replaySessionId now
  | setMlflowRun evaluationId runId => exact guarantees_setMlflowRun evaluationId runId
  | shadowScore body now => exact guarantees_shadowScore body now
  | upstream change =>
    intro t t' _ hsound hwrite
    obtain rfl := Except.ok.inj hwrite
    obtain ⟨hgrows, hsound'⟩ := hsound.withSources (change t.sources)
    exact ⟨hgrows, hsound', trivial⟩

/-! ## Runs -/

/-- No key is locked. -/
def noEvaluationRow (key : Empty) (_ : EvaluationTables) : Option Unit :=
  key.elim

/-- The tables, empty, with a transaction for each request. -/
def evaluations {ι : Type} (service : EvaluationService) (requests : ι → EvaluationRequest) :
    Database ι Empty EvaluationTables PyError EvaluationResponse :=
  initial (fun i => service.handler (requests i)) {}

theorem guaranteed_evaluations {ι : Type} [DecidableEq ι] (service : EvaluationService)
    (requests : ι → EvaluationRequest) (moves : List (Move ι)) :
    Guaranteed Grows EvaluationSound (fun i => Answered (requests i)) {}
      (run (step noEvaluationRow) (evaluations service requests) moves) := by
  have hhandlers : ∀ i, Guarantees (requests i) {} (service.handler (requests i)) :=
    fun i => guarantees_handler (requests i)
  exact guaranteed_run (lasting_answered requests) noEvaluationRow evaluationSound_empty hhandlers moves

/-- A shadow score is stored once. -/
theorem EvaluationSound.shadow_unique (h : EvaluationSound s) {row row' : ShadowScoreModel}
    (hrow : row ∈ s.shadowScores) (hrow' : row' ∈ s.shadowScores) (hkey : row.key = row'.key) : row = row' :=
  List.inj_on_of_nodup_map h.shadowKeys hrow hrow' hkey

/-- **A replay is evaluated once, and so is a shadow score.**  The tables are sound in every run, and two
answers for the same replay are the same evaluation but for its run of MLflow and the order of its ablations;
two for the same shadow key are the same row. -/
theorem evaluated_once {ι : Type} [DecidableEq ι] (service : EvaluationService)
    (requests : ι → EvaluationRequest) (moves : List (Move ι)) :
    let db := run (step noEvaluationRow) (evaluations service requests) moves
    EvaluationSound db.state ∧
      (∀ i response, db.session i = .succeeded response → Answered (requests i) response db.state) ∧
      (∀ i j replaySessionId now now' evaluation evaluation',
        requests i = .evaluate replaySessionId now → requests j = .evaluate replaySessionId now' →
        db.session i = .succeeded (.evaluation evaluation) →
        db.session j = .succeeded (.evaluation evaluation') →
        evaluation.settled = evaluation'.settled ∧ Measured evaluation.settled) ∧
      ∀ i j body body' now now' row row',
        requests i = .shadowScore body now → requests j = .shadowScore body' now' → body.key = body'.key →
        db.session i = .succeeded (.shadow row) → db.session j = .succeeded (.shadow row') → row = row' := by
  intro db
  have hguaranteed : Guaranteed Grows EvaluationSound (fun i => Answered (requests i)) {} db :=
    guaranteed_evaluations service requests moves
  have hevaluation : ∀ {i replaySessionId now evaluation}, requests i = .evaluate replaySessionId now →
      db.session i = .succeeded (.evaluation evaluation) →
      db.state.stored replaySessionId = some evaluation.settled := by
    intro i replaySessionId now evaluation hrequest hsession
    have hanswered := hguaranteed.returned i _ hsession
    rw [hrequest] at hanswered
    obtain ⟨answer, heq, -, hstored⟩ := hanswered
    rwa [EvaluationResponse.evaluation.inj heq]
  have hshadow : ∀ {i body now row}, requests i = .shadowScore body now →
      db.session i = .succeeded (.shadow row) → row.key = body.key ∧ row ∈ db.state.shadowScores := by
    intro i body now row hrequest hsession
    have hanswered := hguaranteed.returned i _ hsession
    rw [hrequest] at hanswered
    obtain ⟨answer, heq, hkey, hrow⟩ := hanswered
    rw [EvaluationResponse.shadow.inj heq]
    exact ⟨hkey, hrow⟩
  refine ⟨hguaranteed.holds, hguaranteed.returned, ?_, ?_⟩
  · intro i j replaySessionId now now' evaluation evaluation' hi hj hsession hsession'
    have hstored := hevaluation hi hsession
    refine ⟨Option.some.inj (hstored.symm.trans (hevaluation hj hsession')), ?_⟩
    obtain ⟨row, hfound, heq⟩ := Option.map_eq_some_iff.mp hstored
    rw [← heq]
    exact hguaranteed.holds.measured row (List.mem_of_find?_eq_some hfound)
  · intro i j body body' now now' row row' hi hj hkeys hsession hsession'
    obtain ⟨hkey, hrow⟩ := hshadow hi hsession
    obtain ⟨hkey', hrow'⟩ := hshadow hj hsession'
    exact hguaranteed.holds.shadow_unique hrow hrow' (by rw [hkey, hkey', hkeys])

end Evaluation
end Scam2Market
