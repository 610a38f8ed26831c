import Mathlib.Data.List.GetD
import Mathlib.Data.String.Basic
import Mathlib.Data.Prod.Lex
import Scam2Market.Evaluation.Service
import Scam2Market.Library.StableSort
import Scam2Market.Python.Statistics

/-!
# The evaluation of a replay

`ReplayEvaluator.evaluate` and `_metrics` of `evaluation/service.py`: the scores of a replay in the order
of their times, measured once with all components and once for each ablation profile.

* `metrics`, `evaluate`: the functions; the fields of an observation that they do not read are left out.
* `scored_order`: the observations are in the order of their times, so the first one that reaches a level is
  the earliest.
* `Coherent`: what the numbers of one measurement say of one another.
* `evaluate_coherent`: every measurement of an evaluation is coherent.
* `evaluate_determined`: the order in which the rows are read does not matter, the last profile measures what
  the evaluation does, and the contributions of the profiles add up to its peak.
-/

namespace Scam2Market
namespace Evaluation

open Intelligence (InUnit RiskLevel)
open Library (OrderedDict)

/-! ## The evaluator -/

/-- The bounds are those that the schema checks. -/
structure ScoreObservation where
  scoreId : String
  eventTime : Datetime
  confidence : ℚ
  components : OrderedDict String (Option ℚ)
  missingOutputCount : ℕ
  dataFreshnessSeconds : Option ℚ
  processingLatencyMs : ℚ
  confidence_mem : InUnit confidence
  latency_nonneg : 0 ≤ processingLatencyMs

structure EvaluationMetrics where
  observationCount : ℕ
  alertCount : ℕ
  watchOrHigherCount : ℕ
  firstWatchAt : Option Datetime
  firstHighAt : Option Datetime
  firstCriticalAt : Option Datetime
  leadTimeSeconds : Option ℚ
  hardNegativePrecisionProxy : ℚ
  falsePositiveRate : ℚ
  meanConfidence : ℚ
  missingOutputRate : ℚ
  p50LatencyMs : ℚ
  p95LatencyMs : ℚ
  meanDataFreshnessSeconds : Option ℚ
  peakScore : ℚ
  deriving DecidableEq

structure AblationResult where
  profile : String
  components : List String
  metrics : EvaluationMetrics
  contributionDelta : ℚ
  deriving DecidableEq

/-- `ABLATION_PROFILES`. -/
def ablationProfiles : List (String × List String) :=
  [("MARKET_ONLY", ["market_score"]),
    ("MARKET_SOCIAL", ["market_score", "social_score"]),
    ("COORDINATION", ["market_score", "social_score", "coordination_score", "temporal_score"]),
    ("GRAPH", ["market_score", "social_score", "coordination_score", "temporal_score", "graph_score"]),
    ("VERIFICATION", ["market_score", "social_score", "coordination_score", "temporal_score",
      "graph_score", "claim_risk", "legitimate_event_score"])]

/-- `_first_time(observations, severities, accepted)`, of the observations with their scores. -/
def firstTime (scored : List (ScoreObservation × ℚ)) (accepted : List RiskLevel) : Option Datetime :=
  (scored.find? fun item => severity item.2 ∈ accepted).map fun item => item.1.eventTime

/-- `_percentile(values, fraction)`. -/
def percentile (values : List ℚ) (fraction : ℚ) : ℚ :=
  if values = [] then 0
  else
    let index := min ((values.length : ℤ) - 1) (roundHalfEven (((values.length : ℚ) - 1) * fraction))
    roundTo 3 (values.getD index.toNat 0)

/-- The level of an alert. -/
def isPositive (score : ℚ) : Bool :=
  severity score ∈ [RiskLevel.high, .critical]

/-- `part / whole if whole else default`. -/
def ratio (part whole : ℕ) (default : ℚ) : ℚ :=
  if whole = 0 then default else (part : ℚ) / whole

/-- The observations before the time from which alerts are right. -/
def negatives (positiveFrom : Datetime) (scored : List (ScoreObservation × ℚ)) :
    List (ScoreObservation × ℚ) :=
  scored.filter fun item => item.1.eventTime < positiveFrom

def truePredictions (positiveFrom : Datetime) (scored : List (ScoreObservation × ℚ)) : ℕ :=
  scored.countP fun item => isPositive item.2 && decide (positiveFrom ≤ item.1.eventTime)

def falsePositives (positiveFrom : Datetime) (scored : List (ScoreObservation × ℚ)) : ℕ :=
  (negatives positiveFrom scored).countP fun item => isPositive item.2

/-- `_metrics(observations, scores, positive_from)`, of the observations with their scores. -/
def metrics (scored : List (ScoreObservation × ℚ)) (positiveFrom : Datetime) : EvaluationMetrics :=
  let observations := scored.map Prod.fst
  let firstWatch := firstTime scored [.watch, .high, .critical]
  let positivePredictions := scored.countP fun item => isPositive item.2
  let latencies := (observations.map ScoreObservation.processingLatencyMs).insertionSort (· ≤ ·)
  let freshness := observations.filterMap ScoreObservation.dataFreshnessSeconds
  { observationCount := observations.length
    alertCount := positivePredictions
    watchOrHigherCount := scored.countP fun item => severity item.2 ≠ .normal
    firstWatchAt := firstWatch
    firstHighAt := firstTime scored [.high, .critical]
    firstCriticalAt := firstTime scored [.critical]
    leadTimeSeconds := firstWatch.map fun first => totalSeconds (positiveFrom - first)
    hardNegativePrecisionProxy :=
      roundTo 6 (ratio (truePredictions positiveFrom scored) positivePredictions 1)
    falsePositiveRate :=
      roundTo 6 (ratio (falsePositives positiveFrom scored) (negatives positiveFrom scored).length 0)
    meanConfidence := roundTo 6
      (if observations = [] then 0 else fmean (observations.map ScoreObservation.confidence))
    missingOutputRate := roundTo 6
      (if observations = [] then 0
        else fmean (observations.map fun item => (item.missingOutputCount : ℚ) / 7))
    p50LatencyMs := percentile latencies 0.50
    p95LatencyMs := percentile latencies 0.95
    meanDataFreshnessSeconds := if freshness = [] then none else some (roundTo 6 (fmean freshness))
    peakScore := maxDefault 0 (scored.map Prod.snd) }

/-- `sorted(observations, key=lambda item: (item.event_time, str(item.score_id)))`. -/
def sortKey (item : ScoreObservation) : Datetime ×ₗ String :=
  toLex (item.eventTime, item.scoreId)

def ordered (observations : List ScoreObservation) : List ScoreObservation :=
  observations.insertionSort fun a b => sortKey a ≤ sortKey b

/-- The observations with the scores of a profile. -/
def profileScored (allowed : Option (List String)) (observations : List ScoreObservation) :
    List (ScoreObservation × ℚ) :=
  observations.map fun item => (item, profileScore item.components allowed)

/-- The loop over the profiles. -/
def ablations (observations : List ScoreObservation) (positiveFrom : Datetime) :
    ℚ → List (String × List String) → List AblationResult
  | _, [] => []
  | previousPeak, (profile, components) :: rest =>
    let profileMetrics := metrics (profileScored (some components) observations) positiveFrom
    { profile := profile
      components := components
      metrics := profileMetrics
      contributionDelta := roundTo 6 (profileMetrics.peakScore - previousPeak) } ::
      ablations observations positiveFrom profileMetrics.peakScore rest

/-- What is measured; `uuid5` of the session, the version and the manifest is the id. -/
structure ReplayEvaluation where
  evaluationId : Uuid (String × String × String)
  replaySessionId : String
  evaluationVersion : String
  manifestHash : String
  metrics : EvaluationMetrics
  ablations : List AblationResult
  generatedAt : Datetime
  mlflowRunId : Option String := none
  deriving DecidableEq

/-- `EVALUATION_VERSION`. -/
def evaluationVersion : String := "replay-evaluation-v1"

/-- `ReplayEvaluator.evaluate(...)`. -/
def evaluate (replaySessionId manifestHash : String) (observations : List ScoreObservation)
    (positiveFrom generatedAt : Datetime) : ReplayEvaluation where
  evaluationId := ⟨(replaySessionId, evaluationVersion, manifestHash)⟩
  replaySessionId := replaySessionId
  evaluationVersion := evaluationVersion
  manifestHash := manifestHash
  metrics := metrics (profileScored none (ordered observations)) positiveFrom
  ablations := ablations (ordered observations) positiveFrom 0 ablationProfiles
  generatedAt := generatedAt

/-! ## Levels and times -/

variable {scored : List (ScoreObservation × ℚ)} {positiveFrom : Datetime}

theorem severity_mem_watch {score : ℚ} :
    severity score ∈ [RiskLevel.watch, .high, .critical] ↔ 0.35 ≤ score := by
  rw [← watch_le_severity_iff]
  cases severity score <;> decide

theorem severity_mem_high {score : ℚ} : severity score ∈ [RiskLevel.high, .critical] ↔ 0.6 ≤ score := by
  rw [← high_le_severity_iff]
  cases severity score <;> decide

theorem severity_mem_critical {score : ℚ} : severity score ∈ [RiskLevel.critical] ↔ 0.8 ≤ score := by
  rw [List.mem_singleton, critical_le_severity_iff]

/-- The time at which a score first reaches a threshold, when there is one. -/
structure FirstAt (scored : List (ScoreObservation × ℚ)) (threshold : ℚ) (first : Option Datetime) :
    Prop where
  reached : first.isSome ↔ ∃ item ∈ scored, threshold ≤ item.2
  attained : ∀ t ∈ first, ∃ item ∈ scored, threshold ≤ item.2 ∧ item.1.eventTime = t
  earliest : ∀ t ∈ first, ∀ item ∈ scored, threshold ≤ item.2 → t ≤ item.1.eventTime

/-- The observations are in the order of their times. -/
def InOrder (scored : List (ScoreObservation × ℚ)) : Prop :=
  scored.Pairwise fun a b => a.1.eventTime ≤ b.1.eventTime

/-- The first that is accepted is the earliest. -/
theorem firstAt_firstTime (h : InOrder scored) {accepted : List RiskLevel} {threshold : ℚ}
    (haccepted : ∀ score, severity score ∈ accepted ↔ threshold ≤ score) :
    FirstAt scored threshold (firstTime scored accepted) where
  reached := by
    rw [firstTime, Option.isSome_map, List.find?_isSome]
    refine exists_congr fun item => and_congr_right fun _ => ?_
    rw [decide_eq_true_iff, haccepted]
  attained t ht := by
    obtain ⟨item, hfound, rfl⟩ := Option.map_eq_some_iff.mp ht
    have haccept := List.find?_some hfound
    rw [decide_eq_true_iff, haccepted] at haccept
    exact ⟨item, List.mem_of_find?_eq_some hfound, haccept, rfl⟩
  earliest t ht item hitem hscore := by
    obtain ⟨first, hfound, rfl⟩ := Option.map_eq_some_iff.mp ht
    obtain ⟨-, before, after, rfl, hnone⟩ := List.find?_eq_some_iff_append.mp hfound
    rcases List.mem_append.mp hitem with hbefore | hafter
    · have hrefused := hnone item hbefore
      rw [Bool.not_eq_true', decide_eq_false_iff_not, haccepted] at hrefused
      exact absurd hscore hrefused
    · rcases List.mem_cons.mp hafter with rfl | hlater
      · exact le_rfl
      · exact (List.pairwise_cons.mp (List.pairwise_append.mp h).2.1).1 item hlater

/-- A higher level is reached no earlier. -/
theorem FirstAt.escalates {low high : ℚ} {firstLow firstHigh : Option Datetime} (hle : low ≤ high)
    (hlow : FirstAt scored low firstLow) (hhigh : FirstAt scored high firstHigh) :
    ∀ t ∈ firstHigh, ∃ t' ∈ firstLow, t' ≤ t := by
  intro t ht
  obtain ⟨item, hitem, hscore, rfl⟩ := hhigh.attained t ht
  have hreached := hlow.reached.mpr ⟨item, hitem, hle.trans hscore⟩
  obtain ⟨t', ht'⟩ := Option.isSome_iff_exists.mp hreached
  exact ⟨t', ht', hlow.earliest t' ht' item hitem (hle.trans hscore)⟩

/-- The peak reaches a threshold when a score does. -/
theorem le_peak_iff {threshold : ℚ} (hpos : 0 < threshold) :
    threshold ≤ maxDefault 0 (scored.map Prod.snd) ↔ ∃ item ∈ scored, threshold ≤ item.2 := by
  constructor
  · intro h
    have hne : scored.map Prod.snd ≠ [] := by
      intro hnil
      rw [hnil] at h
      exact absurd h (not_le.mpr hpos)
    obtain ⟨item, hitem, hscore⟩ := List.mem_map.mp (maxDefault_mem (d := 0) hne)
    exact ⟨item, hitem, by rwa [hscore]⟩
  · rintro ⟨item, hitem, hscore⟩
    exact hscore.trans (le_maxDefault (List.mem_map_of_mem hitem))

/-! ## Counts -/

theorem isPositive_iff {score : ℚ} : isPositive score = true ↔ 0.6 ≤ score := by
  rw [isPositive, decide_eq_true_iff, severity_mem_high]

/-- Each alert is right or a false positive. -/
theorem countP_isPositive (positiveFrom : Datetime) (scored : List (ScoreObservation × ℚ)) :
    (scored.countP fun item => isPositive item.2) =
      truePredictions positiveFrom scored + falsePositives positiveFrom scored := by
  rw [truePredictions, falsePositives, negatives, List.countP_filter]
  induction scored with
  | nil => rfl
  | cons item scored ih =>
    rw [List.countP_cons, List.countP_cons, List.countP_cons, ih]
    by_cases hpositive : isPositive item.2 = true
    · by_cases hlate : positiveFrom ≤ item.1.eventTime
      · simp [hpositive, hlate, not_lt.mpr hlate]
        omega
      · simp [hpositive, hlate, not_le.mp hlate]
        omega
    · simp [hpositive]

theorem ratio_mem {part whole : ℕ} {default : ℚ} (hle : part ≤ whole) (hdefault : InUnit default) :
    InUnit (ratio part whole default) := by
  rw [ratio]
  split_ifs with hzero
  · exact hdefault
  · have hpos : (0 : ℚ) < whole := by exact_mod_cast Nat.pos_of_ne_zero hzero
    refine ⟨by positivity, ?_⟩
    rw [div_le_one hpos]
    exact_mod_cast hle

/-- The mean of numbers of the unit interval. -/
theorem fmean_mem {values : List ℚ} (hne : values ≠ []) (h : ∀ value ∈ values, InUnit value) :
    InUnit (fmean values) := by
  have hsum : 0 ≤ values.sum ∧ values.sum ≤ values.length := by
    clear hne
    induction values with
    | nil => exact ⟨le_rfl, by simp⟩
    | cons value values ih =>
      obtain ⟨hlo, hhi⟩ := ih fun other hother => h other (List.mem_cons_of_mem _ hother)
      obtain ⟨hvalue, hvalue'⟩ := h value List.mem_cons_self
      rw [List.sum_cons, List.length_cons]
      push_cast
      constructor <;> linarith
  have hpos : (0 : ℚ) < values.length := by exact_mod_cast List.length_pos_of_ne_nil hne
  refine ⟨div_nonneg hsum.1 hpos.le, ?_⟩
  rw [fmean, div_le_one hpos]
  exact hsum.2

/-! ## Percentiles -/

/-- A higher percentile of sorted numbers is no smaller. -/
theorem percentile_le {values : List ℚ} (hsorted : values.Pairwise (· ≤ ·)) {low high : ℚ}
    (hlow : 0 ≤ low) (hle : low ≤ high) : percentile values low ≤ percentile values high := by
  rw [percentile, percentile]
  split_ifs with hnil
  · exact le_rfl
  have hlength : 1 ≤ values.length := List.length_pos_of_ne_nil hnil
  have hfactor : (0 : ℚ) ≤ (values.length : ℚ) - 1 := by
    have hcast : (1 : ℚ) ≤ values.length := by exact_mod_cast hlength
    linarith
  have hindex := roundHalfEven_mono (mul_le_mul_of_nonneg_left hle hfactor)
  have hzero : 0 ≤ roundHalfEven (((values.length : ℚ) - 1) * low) := by
    have hmono := roundHalfEven_mono (mul_nonneg hfactor hlow)
    rwa [← Int.cast_zero, roundHalfEven_intCast] at hmono
  refine roundTo_mono ?_
  generalize roundHalfEven (((values.length : ℚ) - 1) * low) = first at *
  generalize roundHalfEven (((values.length : ℚ) - 1) * high) = second at *
  have hfirst : (min ((values.length : ℤ) - 1) first).toNat < values.length := by omega
  have hsecond : (min ((values.length : ℤ) - 1) second).toNat < values.length := by omega
  rw [List.getD_eq_getElem _ _ hfirst, List.getD_eq_getElem _ _ hsecond]
  have hpositions : (min ((values.length : ℤ) - 1) first).toNat ≤
      (min ((values.length : ℤ) - 1) second).toNat := by omega
  rcases hpositions.eq_or_lt with heq | hlt
  · simp only [heq, le_refl]
  · exact List.pairwise_iff_getElem.mp hsorted _ _ hfirst hsecond hlt

/-! ## Measurements -/

/-- What the numbers of a measurement say of one another.  The first times are those at which the scores
reach the levels, none without the peak; every alert is right or a false positive, and there is no false
positive when the first alert is no earlier than the time from which alerts are right. -/
structure Coherent (positiveFrom : Datetime) (scored : List (ScoreObservation × ℚ))
    (measured : EvaluationMetrics) : Prop where
  counted : measured.alertCount ≤ measured.watchOrHigherCount ∧
    measured.watchOrHigherCount ≤ measured.observationCount
  peak : InUnit measured.peakScore
  watch : FirstAt scored 0.35 measured.firstWatchAt
  high : FirstAt scored 0.6 measured.firstHighAt
  critical : FirstAt scored 0.8 measured.firstCriticalAt
  levels : (measured.firstWatchAt.isSome ↔ 0.35 ≤ measured.peakScore) ∧
    (measured.firstHighAt.isSome ↔ 0.6 ≤ measured.peakScore) ∧
    (measured.firstCriticalAt.isSome ↔ 0.8 ≤ measured.peakScore)
  escalates : (∀ t ∈ measured.firstHighAt, ∃ t' ∈ measured.firstWatchAt, t' ≤ t) ∧
    ∀ t ∈ measured.firstCriticalAt, ∃ t' ∈ measured.firstHighAt, t' ≤ t
  predicted : measured.alertCount =
    truePredictions positiveFrom scored + falsePositives positiveFrom scored
  quiet : falsePositives positiveFrom scored = 0 ↔ ∀ t ∈ measured.firstHighAt, positiveFrom ≤ t
  lead : (∃ lead ∈ measured.leadTimeSeconds, 0 < lead) ↔
    ∃ item ∈ negatives positiveFrom scored, 0.35 ≤ item.2
  rates : InUnit measured.hardNegativePrecisionProxy ∧ InUnit measured.falsePositiveRate ∧
    InUnit measured.meanConfidence
  latency : measured.p50LatencyMs ≤ measured.p95LatencyMs

/-- There is no false positive when no alert is early. -/
theorem falsePositives_eq_zero_iff {first : Option Datetime} (hfirst : FirstAt scored 0.6 first) :
    falsePositives positiveFrom scored = 0 ↔ ∀ t ∈ first, positiveFrom ≤ t := by
  rw [falsePositives, List.countP_eq_zero]
  constructor
  · intro hnone t ht
    obtain ⟨item, hitem, hscore, rfl⟩ := hfirst.attained t ht
    by_contra hearly
    refine hnone item (List.mem_filter.mpr ⟨hitem, ?_⟩) (isPositive_iff.mpr hscore)
    exact decide_eq_true (not_le.mp hearly)
  · intro hlate item hitem hpositive
    obtain ⟨hmem, hearly⟩ := List.mem_filter.mp hitem
    have hscore := isPositive_iff.mp hpositive
    obtain ⟨t, ht⟩ := Option.isSome_iff_exists.mp (hfirst.reached.mpr ⟨item, hmem, hscore⟩)
    have hle := (hlate t ht).trans (hfirst.earliest t ht item hmem hscore)
    exact absurd (of_decide_eq_true hearly) (not_lt.mpr hle)

/-- The first warning leads when it comes before the time from which alerts are right. -/
theorem lead_iff {first : Option Datetime} (hfirst : FirstAt scored 0.35 first) :
    (∃ lead ∈ first.map fun t => totalSeconds (positiveFrom - t), 0 < lead) ↔
      ∃ item ∈ negatives positiveFrom scored, 0.35 ≤ item.2 := by
  have hpositive : ∀ t : Datetime, 0 < totalSeconds (positiveFrom - t) ↔ t < positiveFrom := by
    intro t
    rw [totalSeconds, div_pos_iff_of_pos_right (by norm_num), Int.cast_pos]
    exact sub_pos
  constructor
  · rintro ⟨lead, hlead, hpos⟩
    obtain ⟨t, ht, rfl⟩ := Option.map_eq_some_iff.mp hlead
    obtain ⟨item, hitem, hscore, rfl⟩ := hfirst.attained t ht
    exact ⟨item, List.mem_filter.mpr ⟨hitem, decide_eq_true ((hpositive _).mp hpos)⟩, hscore⟩
  · rintro ⟨item, hitem, hscore⟩
    obtain ⟨hmem, hearly⟩ := List.mem_filter.mp hitem
    obtain ⟨t, ht⟩ := Option.isSome_iff_exists.mp (hfirst.reached.mpr ⟨item, hmem, hscore⟩)
    refine ⟨_, Option.map_eq_some_iff.mpr ⟨t, ht, rfl⟩, (hpositive t).mpr ?_⟩
    exact lt_of_le_of_lt (hfirst.earliest t ht item hmem hscore) (of_decide_eq_true hearly)

/-- **A measurement is coherent.** -/
theorem coherent_metrics (horder : InOrder scored) (hscores : ∀ item ∈ scored, InUnit item.2)
    (positiveFrom : Datetime) : Coherent positiveFrom scored (metrics scored positiveFrom) := by
  have hwatch := firstAt_firstTime horder fun score => @severity_mem_watch score
  have hhigh := firstAt_firstTime horder fun score => @severity_mem_high score
  have hcritical := firstAt_firstTime horder fun score => @severity_mem_critical score
  have hcounted : (scored.countP fun item => isPositive item.2) ≤ scored.length :=
    List.countP_le_length
  constructor
  · refine ⟨List.countP_mono_left fun item _ hpositive => decide_eq_true fun hnormal => ?_, ?_⟩
    · rw [isPositive, hnormal] at hpositive
      exact absurd hpositive (by decide)
    · show _ ≤ (scored.map Prod.fst).length
      rw [List.length_map]
      exact List.countP_le_length
  · show InUnit (maxDefault 0 (scored.map Prod.snd))
    by_cases hnil : scored.map Prod.snd = []
    · rw [hnil]
      exact ⟨le_rfl, zero_le_one⟩
    · obtain ⟨item, hitem, hpeak⟩ := List.mem_map.mp (maxDefault_mem (d := 0) hnil)
      rw [← hpeak]
      exact hscores item hitem
  · exact hwatch
  · exact hhigh
  · exact hcritical
  · exact ⟨hwatch.reached.trans (le_peak_iff (by norm_num)).symm,
      hhigh.reached.trans (le_peak_iff (by norm_num)).symm,
      hcritical.reached.trans (le_peak_iff (by norm_num)).symm⟩
  · exact ⟨hwatch.escalates (by norm_num) hhigh, hhigh.escalates (by norm_num) hcritical⟩
  · exact countP_isPositive positiveFrom scored
  · exact falsePositives_eq_zero_iff hhigh
  · exact lead_iff hwatch
  · have hsplit := countP_isPositive positiveFrom scored
    refine ⟨roundTo_mem_unit (ratio_mem ?_ ⟨zero_le_one, le_rfl⟩),
      roundTo_mem_unit (ratio_mem List.countP_le_length ⟨le_rfl, zero_le_one⟩), roundTo_mem_unit ?_⟩
    · rw [hsplit]
      exact Nat.le_add_right _ _
    · split_ifs with hnil
      · exact ⟨le_rfl, zero_le_one⟩
      · refine fmean_mem (fun hmap => hnil (List.map_eq_nil_iff.mp hmap)) fun value hvalue => ?_
        obtain ⟨item, -, rfl⟩ := List.mem_map.mp hvalue
        exact item.confidence_mem
  · exact percentile_le (List.pairwise_insertionSort _ _) (by norm_num) (by norm_num)

/-! ## An evaluation -/

theorem profileScore_mem (components : OrderedDict String (Option ℚ)) (allowed : Option (List String)) :
    InUnit (profileScore components allowed) :=
  roundTo_mem_unit ⟨le_max_left 0 _, max_le zero_le_one (min_le_left 1 _)⟩

theorem scored_mem {allowed : Option (List String)} {observations : List ScoreObservation} :
    ∀ item ∈ profileScored allowed observations, InUnit item.2 := by
  intro item hitem
  obtain ⟨observation, -, rfl⟩ := List.mem_map.mp hitem
  exact profileScore_mem _ allowed

/-- The observations stand in the order of their times. -/
theorem scored_order (allowed : Option (List String)) (observations : List ScoreObservation) :
    InOrder (profileScored allowed (ordered observations)) := by
  rw [InOrder, profileScored, List.pairwise_map]
  refine (List.pairwise_insertionSort _ observations).imp fun {a b} hle => ?_
  rcases (Prod.Lex.le_iff.mp hle) with hlt | ⟨heq, -⟩
  · exact hlt.le
  · exact heq.le

theorem coherent_profileScored (allowed : Option (List String)) (observations : List ScoreObservation)
    (positiveFrom : Datetime) :
    Coherent positiveFrom (profileScored allowed (ordered observations))
      (metrics (profileScored allowed (ordered observations)) positiveFrom) :=
  coherent_metrics (scored_order allowed observations) scored_mem positiveFrom

theorem map_ablations (observations : List ScoreObservation) (positiveFrom : Datetime)
    (previousPeak : ℚ) (profiles : List (String × List String)) :
    (ablations observations positiveFrom previousPeak profiles).map (fun result =>
        (result.profile, result.components, result.metrics)) =
      profiles.map fun (profile, components) =>
        (profile, components, metrics (profileScored (some components) observations) positiveFrom) := by
  induction profiles generalizing previousPeak with
  | nil => rfl
  | cons first profiles ih => rw [ablations, List.map_cons, List.map_cons, ih]

/-- **Every measurement of an evaluation is coherent**, that of all components and that of each profile. -/
theorem evaluate_coherent (replaySessionId manifestHash : String) (observations : List ScoreObservation)
    (positiveFrom generatedAt : Datetime) :
    let evaluation := evaluate replaySessionId manifestHash observations positiveFrom generatedAt
    Coherent positiveFrom (profileScored none (ordered observations)) evaluation.metrics ∧
      evaluation.ablations.map (fun result => (result.profile, result.components)) =
        ablationProfiles ∧
      ∀ result ∈ evaluation.ablations,
        Coherent positiveFrom (profileScored (some result.components) (ordered observations))
          result.metrics := by
  intro evaluation
  have hmap := map_ablations (ordered observations) positiveFrom 0 ablationProfiles
  refine ⟨coherent_profileScored none observations positiveFrom, ?_, fun result hresult => ?_⟩
  · have hnames := congrArg (List.map fun item : String × List String × EvaluationMetrics =>
      (item.1, item.2.1)) hmap
    rw [List.map_map, List.map_map] at hnames
    exact hnames.trans (List.map_id' ablationProfiles)
  · have hfound : result ∈ ablations (ordered observations) positiveFrom 0 ablationProfiles := hresult
    have hmem := List.mem_map_of_mem (f := fun result : AblationResult =>
      (result.profile, result.components, result.metrics)) hfound
    rw [hmap] at hmem
    obtain ⟨⟨profile, components⟩, -, hsame⟩ := List.mem_map.mp hmem
    obtain ⟨-, hcomponents, hmetrics⟩ : profile = result.profile ∧ components = result.components ∧
        metrics (profileScored (some components) (ordered observations)) positiveFrom = result.metrics := by
      simpa using hsame
    rw [← hmetrics, ← hcomponents]
    exact coherent_profileScored (some components) observations positiveFrom

/-! ### Contributions -/

/-- A peak has six digits. -/
theorem exists_peak (allowed : Option (List String)) (observations : List ScoreObservation)
    (positiveFrom : Datetime) :
    ∃ n : ℤ, (metrics (profileScored allowed observations) positiveFrom).peakScore = n / 10 ^ 6 := by
  show ∃ n : ℤ, maxDefault 0 ((profileScored allowed observations).map Prod.snd) = n / 10 ^ 6
  by_cases hnil : (profileScored allowed observations).map Prod.snd = []
  · rw [hnil]
    exact ⟨0, by simp [maxDefault]⟩
  · obtain ⟨item, hitem, hpeak⟩ := List.mem_map.mp (maxDefault_mem (d := 0) hnil)
    obtain ⟨observation, -, rfl⟩ := List.mem_map.mp hitem
    rw [← hpeak]
    exact exists_roundTo 6 _

/-- Contributions are not rounded away, so they add up to the last peak. -/
theorem sum_contributions (observations : List ScoreObservation) (positiveFrom : Datetime)
    (profiles : List (String × List String)) (last : String × List String) (start : ℤ) :
    ((ablations observations positiveFrom (start / 10 ^ 6) (profiles ++ [last])).map
        AblationResult.contributionDelta).sum =
      (metrics (profileScored (some last.2) observations) positiveFrom).peakScore - start / 10 ^ 6 := by
  have hdelta : ∀ (n m : ℤ), roundTo 6 ((n : ℚ) / 10 ^ 6 - m / 10 ^ 6) = n / 10 ^ 6 - m / 10 ^ 6 := by
    intro n m
    have h := roundTo_decimal 6 (n - m)
    push_cast at h
    rwa [sub_div] at h
  induction profiles generalizing start with
  | nil =>
    obtain ⟨n, hpeak⟩ := exists_peak (some last.2) observations positiveFrom
    rw [List.nil_append, ablations, ablations, List.map_singleton, List.sum_singleton, hpeak, hdelta]
  | cons first profiles ih =>
    obtain ⟨n, hpeak⟩ := exists_peak (some first.2) observations positiveFrom
    rw [List.cons_append, ablations, List.map_cons, List.sum_cons, hpeak, ih, hdelta]
    ring

/-- What is measured last. -/
theorem getLast?_ablations (observations : List ScoreObservation) (positiveFrom : Datetime)
    (previousPeak : ℚ) (profiles : List (String × List String)) (last : String × List String) :
    (ablations observations positiveFrom previousPeak (profiles ++ [last])).getLast?.map
        AblationResult.metrics =
      some (metrics (profileScored (some last.2) observations) positiveFrom) := by
  have hlast := congrArg List.getLast?
    (map_ablations observations positiveFrom previousPeak (profiles ++ [last]))
  rw [List.getLast?_map, List.map_append, List.map_singleton, List.getLast?_concat] at hlast
  obtain ⟨result, hresult, hsame⟩ := Option.map_eq_some_iff.mp hlast
  rw [hresult, Option.map_some]
  exact congrArg some (congrArg (fun item => item.2.2) hsame)

/-- The last of the profiles. -/
def verificationProfile : String × List String :=
  ("VERIFICATION", ["market_score", "social_score", "coordination_score", "temporal_score",
    "graph_score", "claim_risk", "legitimate_event_score"])

/-- It has every component. -/
theorem profileScored_all (observations : List ScoreObservation) :
    profileScored (some verificationProfile.2) observations = profileScored none observations :=
  List.map_congr_left fun _ _ => rfl

/-- The order of the rows does not matter when their ids are distinct. -/
theorem ordered_eq_of_perm {observations observations' : List ScoreObservation}
    (hperm : observations.Perm observations') (hids : (observations.map ScoreObservation.scoreId).Nodup) :
    ordered observations = ordered observations' := by
  refine Library.insertionSort_eq_of_perm (fun a b => sortKey a ≤ sortKey b) hperm ?_
  intro a ha b hb hab hba
  have hkeys : sortKey a = sortKey b := le_antisymm hab hba
  exact List.inj_on_of_nodup_map hids ha hb (congrArg (fun key => (ofLex key).2) hkeys)

/-- **An evaluation is determined by its scores.**  The order in which they are read does not matter; the
last profile measures what the whole evaluation does; and the contributions of the profiles add up to the
peak score. -/
theorem evaluate_determined (replaySessionId manifestHash : String) (observations : List ScoreObservation)
    (positiveFrom generatedAt : Datetime) :
    let evaluation := evaluate replaySessionId manifestHash observations positiveFrom generatedAt
    (∀ observations', observations.Perm observations' →
      (observations.map ScoreObservation.scoreId).Nodup →
      evaluate replaySessionId manifestHash observations' positiveFrom generatedAt = evaluation) ∧
    (evaluation.ablations.getLast?.map AblationResult.metrics = some evaluation.metrics) ∧
    (evaluation.ablations.map AblationResult.contributionDelta).sum = evaluation.metrics.peakScore := by
  intro evaluation
  refine ⟨fun observations' hperm hids => ?_, ?_, ?_⟩
  · show evaluate _ _ observations' _ _ = evaluate _ _ observations _ _
    rw [evaluate, evaluate, ordered_eq_of_perm hperm hids]
  · have hlast := getLast?_ablations (ordered observations) positiveFrom 0 ablationProfiles.dropLast
      verificationProfile
    rw [profileScored_all] at hlast
    exact hlast
  · have hsum := sum_contributions (ordered observations) positiveFrom ablationProfiles.dropLast
      verificationProfile 0
    rw [profileScored_all, Int.cast_zero, zero_div, sub_zero] at hsum
    exact hsum

end Evaluation
end Scam2Market
