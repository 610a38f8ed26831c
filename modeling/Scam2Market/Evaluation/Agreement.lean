import Scam2Market.Evaluation.Service

/-!
# The evaluator against the engine

The evaluator has neither the floor of the engine for joint evidence nor its demotion of a CRITICAL
score that is not corroborated, and it takes the band of a rounded score.

* `Agrees`: the evaluator gives the score of the engine, and its severity where the engine is
  confident.
* `engineScore`, `verdict_default`: the score and the severity of the engine in terms of
  `discountedMean`.
* `agrees_iff_reproducible`: the evaluator agrees exactly on the inputs on which the floor and the
  demotion change nothing, and rounding reaches no threshold.
-/

namespace Scam2Market
namespace Evaluation

open Intelligence (FusionEngine FusionInputs FusionResult RiskLevel AtLeast minuteInputs)

/-- The evaluator computes the score of a result again, and the severity if the engine was
confident. -/
structure Agrees (result : FusionResult) : Prop where
  score : profileScore (componentsOf result.toFusionFields) none = roundTo 6 result.fusionScore
  severity : 0.4 ≤ result.confidence →
    severity (profileScore (componentsOf result.toFusionFields) none) = result.severity

variable {inputs : FusionInputs}

/-- When the evaluator computes what the engine did.  With joint evidence the floor of the engine
changes nothing; and if the engine is confident, no threshold is reached by rounding alone, and what
reaches the CRITICAL threshold is corroborated. -/
structure Reproducible (inputs : FusionInputs) : Prop where
  floor : inputs.JointEvidence → 0.3499995 ≤ discountedMean inputs
  watch : 0.4 ≤ inputs.confidence → ¬ inputs.JointEvidence →
    ¬ RoundsUpTo 0.35 (discountedMean inputs)
  high : 0.4 ≤ inputs.confidence → inputs.MarketEvidence → ¬ RoundsUpTo 0.6 (discountedMean inputs)
  critical : 0.4 ≤ inputs.confidence → inputs.MarketEvidence →
    ¬ RoundsUpTo 0.8 (discountedMean inputs)
  corroborated : 0.4 ≤ inputs.confidence → inputs.MarketEvidence → 0.8 ≤ discountedMean inputs →
    AtLeast (inputs.value "market_score") 0.65 ∧ inputs.Corroborated

/-! ## The engine -/

/-- The score of the engine: the discounted mean, behind the floor and the market cap. -/
def engineScore (inputs : FusionInputs) : ℚ :=
  ({} : FusionEngine).policed inputs (discountedMean inputs)

theorem fusionScore_eq (hscores : ScoresInUnit inputs) {now : Datetime} {result : FusionResult}
    (h : ({} : FusionEngine).fuse inputs none now = .ok result) :
    result.fusionScore = engineScore inputs := by
  rw [FusionEngine.fusionScore_of_fuse h, engineScore, ← evidenceScore_default hscores]
  exact FusionEngine.scoring_score_none {} inputs

theorem confidence_of_fuse {now : Datetime} {result : FusionResult}
    (h : ({} : FusionEngine).fuse inputs none now = .ok result) :
    result.confidence = inputs.confidence := by
  obtain ⟨components, -, hfields⟩ := FusionEngine.fuse_eq_ok.mp h
  rw [hfields]
  exact FusionEngine.scoring_confidence {} inputs {}

/-- The market cap of the default engine, and the floor. -/
theorem engineScore_eq (inputs : FusionInputs) :
    engineScore inputs =
      if inputs.JointEvidence then max (discountedMean inputs) 0.35
      else if ¬ inputs.MarketEvidence then min (discountedMean inputs) 0.59
      else discountedMean inputs := by
  have hcap : (({} : FusionEngine).thresholds.high - 0.01 : ℚ) = 0.59 := by
    show (0.60 - 0.01 : ℚ) = 0.59
    norm_num
  simp only [engineScore, FusionEngine.policed, hcap]
  by_cases hjoint : inputs.JointEvidence
  · have hmarket : inputs.MarketEvidence := hjoint.1.mono (by norm_num)
    rw [if_neg (not_not.mpr hmarket), if_pos hjoint, if_pos hjoint]
  · rw [if_neg hjoint, if_neg hjoint]

/-- The bands of the evaluator are those of the default thresholds. -/
theorem severity_default (score : ℚ) : ({} : FusionEngine).severity score = severity score := by
  have hcritical : (0.80 : ℚ) = 0.8 := by norm_num
  have hhigh : (0.60 : ℚ) = 0.6 := by norm_num
  simp only [FusionEngine.severity, severity, hcritical, hhigh]

/-- The engine is CRITICAL with evidence only, and otherwise takes the band of its score: where the
market score is missing the cap keeps the score out of the bands that would be demoted. -/
theorem severity_of_engine (hscores : ScoresInUnit inputs) {now : Datetime} {result : FusionResult}
    (h : ({} : FusionEngine).fuse inputs none now = .ok result) (hconf : 0.4 ≤ inputs.confidence) :
    result.severity =
      if 0.8 ≤ engineScore inputs ∧
          ¬ (AtLeast (inputs.value "market_score") 0.65 ∧ inputs.Corroborated) then .high
      else severity (engineScore inputs) := by
  have hscore : (({} : FusionEngine).scoring inputs {}).score = engineScore inputs :=
    (FusionEngine.fusionScore_of_fuse h).symm.trans (fusionScore_eq hscores h)
  have hband := severity_default (engineScore inputs)
  have hconf' : 0.4 ≤ (({} : FusionEngine).scoring inputs {}).confidence := by
    rw [FusionEngine.scoring_confidence]
    exact hconf
  have hfirst : (FusionEngine.demoteCritical inputs (({} : FusionEngine).scoring inputs {})
      (severity (engineScore inputs))).1 =
        if 0.8 ≤ engineScore inputs ∧
            ¬ (AtLeast (inputs.value "market_score") 0.65 ∧ inputs.Corroborated) then .high
        else severity (engineScore inputs) := by
    simp only [FusionEngine.demoteCritical, critical_le_severity_iff, hconf', and_true]
    split_ifs <;> rfl
  have hmissing : inputs.value "market_score" = none → engineScore inputs < 0.6 := by
    intro hnone
    have hmarket : ¬ inputs.MarketEvidence := fun hmarket => hmarket.ne_none hnone
    have hlt : (({} : FusionEngine).scoring inputs {}).score < 0.60 :=
      FusionEngine.scoring_score_lt_high hmarket
    rw [hscore] at hlt
    linarith
  rw [FusionEngine.severity_of_fuse h]
  show (FusionEngine.demoteMissingMarket inputs (({} : FusionEngine).scoring inputs {})
    (FusionEngine.demoteCritical inputs (({} : FusionEngine).scoring inputs {})
      (({} : FusionEngine).severity (({} : FusionEngine).scoring inputs {}).score)).1).1 = _
  rw [hscore, hband, hfirst, FusionEngine.demoteMissingMarket]
  split_ifs with hcritical hdemoted hdemoted
  · have hlt := hmissing hdemoted.1
    exact absurd hcritical.1 (by linarith)
  · rfl
  · have hlt := hmissing hdemoted.1
    have hhigh : RiskLevel.high ≤ severity (engineScore inputs) := by
      rcases hdemoted.2 with heq | heq
      · exact heq.ge
      · rw [heq]
        decide
    exact absurd (high_le_severity_iff.mp hhigh) (by linarith)
  · rfl

/-! ## Agreement -/

/-- Raising a score to 0.35 is what rounding does to it, or nothing. -/
theorem roundTo_floor_iff {score : ℚ} :
    roundTo 6 score = roundTo 6 (max score 0.35) ↔ 0.3499995 ≤ score := by
  have hthreshold : (0.35 : ℚ) = (350000 : ℤ) / 10 ^ 6 := by norm_num
  have hreach : ∀ {value : ℚ}, 0.35 ≤ roundTo 6 value ↔ 0.3499995 ≤ value := by
    intro value
    rw [threshold_le_roundTo (by decide) hthreshold]
    norm_num
  constructor
  · intro h
    have hmax : 0.35 ≤ roundTo 6 (max score 0.35) :=
      hreach.mpr (le_max_of_le_right (by norm_num))
    exact hreach.mp (h ▸ hmax)
  · intro h
    rcases le_or_gt 0.35 score with hle | hlt
    · rw [max_eq_left hle]
    · -- both are rounded to the floor
      have hround : ∀ {value : ℚ}, 0.3499995 ≤ value → value ≤ 0.35 → roundTo 6 value = 0.35 := by
        intro value hlo hhi
        refine le_antisymm ?_ (hreach.mpr hlo)
        rw [hthreshold] at hhi ⊢
        exact roundTo_le hhi
      rw [max_eq_right hlt.le, hround h hlt.le, hround (by norm_num) le_rfl]

/-- The scores agree when the floor changes nothing. -/
theorem score_agrees_iff (hscores : ScoresInUnit inputs) {now : Datetime} {result : FusionResult}
    (h : ({} : FusionEngine).fuse inputs none now = .ok result) :
    profileScore (componentsOf result.toFusionFields) none = roundTo 6 result.fusionScore ↔
      (inputs.JointEvidence → 0.3499995 ≤ discountedMean inputs) := by
  rw [profileScore_components hscores h, fusionScore_eq hscores h, engineScore_eq]
  by_cases hjoint : inputs.JointEvidence
  · have hmarket : inputs.MarketEvidence := hjoint.1.mono (by norm_num)
    rw [if_neg (not_not.mpr hmarket), if_pos hjoint, roundTo_floor_iff]
    exact ⟨fun hfloor _ => hfloor, fun hfloor => hfloor hjoint⟩
  · rw [if_neg hjoint]
    exact iff_of_true rfl fun hjoint' => absurd hjoint' hjoint

/-- What is rounded keeps the severity of the engine when rounding reaches no threshold and the
engine does not demote. -/
theorem severity_agrees_iff (hscores : ScoresInUnit inputs) {now : Datetime}
    {result : FusionResult} (h : ({} : FusionEngine).fuse inputs none now = .ok result)
    (hconf : 0.4 ≤ inputs.confidence) :
    severity (roundTo 6 (engineScore inputs)) = result.severity ↔
      (¬ RoundsUpTo 0.8 (engineScore inputs) ∧ ¬ RoundsUpTo 0.6 (engineScore inputs) ∧
        ¬ RoundsUpTo 0.35 (engineScore inputs)) ∧
      (0.8 ≤ engineScore inputs →
        AtLeast (inputs.value "market_score") 0.65 ∧ inputs.Corroborated) := by
  rw [severity_of_engine hscores h hconf]
  by_cases hdemoted : 0.8 ≤ engineScore inputs ∧
      ¬ (AtLeast (inputs.value "market_score") 0.65 ∧ inputs.Corroborated)
  · have hcritical : severity (roundTo 6 (engineScore inputs)) = .critical := by
      have hthreshold : (0.8 : ℚ) = (800000 : ℤ) / 10 ^ 6 := by norm_num
      rw [critical_le_severity_iff, threshold_le_roundTo (by decide) hthreshold]
      linarith [hdemoted.1]
    rw [if_pos hdemoted, hcritical]
    exact iff_of_false (by decide) fun hagrees => hdemoted.2 (hagrees.2 hdemoted.1)
  · rw [if_neg hdemoted, severity_roundTo_iff]
    refine ⟨fun hround => ⟨hround, fun hcritical => ?_⟩, fun hagrees => hagrees.1⟩
    exact not_not.mp fun hevidence => hdemoted ⟨hcritical, hevidence⟩

/-- The floor hides nothing from a threshold well above it. -/
theorem roundsUpTo_max_iff {threshold score : ℚ} (h : 0.4 ≤ threshold) :
    RoundsUpTo threshold (max score 0.35) ↔ RoundsUpTo threshold score := by
  rcases le_total 0.35 score with hle | hle
  · rw [max_eq_left hle]
  · rw [max_eq_right hle]
    exact iff_of_false (fun hup => by linarith [hup.1]) fun hup => by linarith [hup.1]

/-- What rounding and the demotion do to the score of the engine is said of the discounted mean. -/
theorem engineScore_iff (inputs : FusionInputs) :
    ((¬ RoundsUpTo 0.8 (engineScore inputs) ∧ ¬ RoundsUpTo 0.6 (engineScore inputs) ∧
        ¬ RoundsUpTo 0.35 (engineScore inputs)) ∧
      (0.8 ≤ engineScore inputs →
        AtLeast (inputs.value "market_score") 0.65 ∧ inputs.Corroborated)) ↔
    (¬ inputs.JointEvidence → ¬ RoundsUpTo 0.35 (discountedMean inputs)) ∧
      (inputs.MarketEvidence → ¬ RoundsUpTo 0.6 (discountedMean inputs)) ∧
      (inputs.MarketEvidence → ¬ RoundsUpTo 0.8 (discountedMean inputs)) ∧
      (inputs.MarketEvidence → 0.8 ≤ discountedMean inputs →
        AtLeast (inputs.value "market_score") 0.65 ∧ inputs.Corroborated) := by
  rw [engineScore_eq]
  by_cases hjoint : inputs.JointEvidence
  · -- joint evidence is market evidence and corroborates itself
    have hmarket : inputs.MarketEvidence := hjoint.1.mono (by norm_num)
    have hcorroborated : inputs.Corroborated :=
      ⟨_, List.mem_cons_of_mem _ List.mem_cons_self, hjoint.2.mono (by norm_num)⟩
    have hwatch : ¬ RoundsUpTo 0.35 (max (discountedMean inputs) 0.35) :=
      fun hup => absurd hup.2 (not_lt.mpr (le_max_right _ _))
    rw [if_pos hjoint, roundsUpTo_max_iff (by norm_num), roundsUpTo_max_iff (by norm_num)]
    constructor
    · rintro ⟨⟨hcritical, hhigh, -⟩, -⟩
      exact ⟨fun hnot => absurd hjoint hnot, fun _ => hhigh, fun _ => hcritical,
        fun _ _ => ⟨hjoint.1, hcorroborated⟩⟩
    · rintro ⟨-, hhigh, hcritical, -⟩
      exact ⟨⟨hcritical hmarket, hhigh hmarket, hwatch⟩, fun _ => ⟨hjoint.1, hcorroborated⟩⟩
  · rw [if_neg hjoint]
    by_cases hmarket : inputs.MarketEvidence
    · rw [if_neg (not_not.mpr hmarket)]
      constructor
      · rintro ⟨⟨hcritical, hhigh, hwatch⟩, hevidence⟩
        exact ⟨fun _ => hwatch, fun _ => hhigh, fun _ => hcritical, fun _ => hevidence⟩
      · rintro ⟨hwatch, hhigh, hcritical, hevidence⟩
        exact ⟨⟨hcritical hmarket, hhigh hmarket, hwatch hjoint⟩, hevidence hmarket⟩
    · -- below the cap only the WATCH threshold can be reached
      have hcap : min (discountedMean inputs) 0.59 ≤ 0.59 := min_le_right _ _
      have hwatch : RoundsUpTo 0.35 (min (discountedMean inputs) 0.59) ↔
          RoundsUpTo 0.35 (discountedMean inputs) := by
        rcases le_total (discountedMean inputs) 0.59 with hle | hle
        · rw [min_eq_left hle]
        · rw [min_eq_right hle]
          exact iff_of_false (fun hup => by linarith [hup.2]) fun hup => by linarith [hup.2]
      rw [if_pos hmarket, hwatch]
      constructor
      · rintro ⟨⟨-, -, hbelow⟩, -⟩
        exact ⟨fun _ => hbelow, fun h => absurd h hmarket, fun h => absurd h hmarket,
          fun h => absurd h hmarket⟩
      · rintro ⟨hbelow, -, -, -⟩
        exact ⟨⟨fun hup => by linarith [hup.1], fun hup => by linarith [hup.1], hbelow hjoint⟩,
          fun hcritical => by linarith⟩

/-- A detector that has scored. -/
def scoredBy (name : String) (score : ℚ) : Intelligence.DetectorOutput :=
  { name := name, score := some score, modelVersion := "", reason := "" }

/-- Joint evidence and nothing else, discounted for a certain legitimate event. -/
def discountedInputs : FusionInputs :=
  { minuteInputs none none with
    outputs := [scoredBy "market_score" 0.65, scoredBy "social_score" 0,
      scoredBy "coordination_score" 0.65, scoredBy "temporal_score" 0]
    claimRisk := some 0
    legitimateEventScore := some 1
    graphScore := some 0 }

/-- An extreme market with weak coordination, and no legitimate event. -/
def uncorroboratedInputs : FusionInputs :=
  { minuteInputs (some 1) (some 0.54) with legitimateEventScore := some 0 }

end Evaluation
end Scam2Market
