import Scam2Market.Intelligence.FusionSteps

/-!
# The severity policy is safe

What the floor, the caps and the demotions of `fuse` guarantee about the severity, whatever the
weights, the calibrator and the threat context are.

* `Demotes`: a demotion lowers a level only by recording it, and never below WATCH.  Both demotions
  are such steps, and so is the verdict (`demotes_verdict`).
* `scoring_score_lt_high`: without market evidence the score stays below the HIGH threshold.
* `watch_le_scoring_score`: with joint evidence the score reaches the WATCH threshold; the two caps
  are applied after the floor, and neither undoes it.
* `severity_policy_safe`: the guarantees about the result.
-/

namespace Scam2Market
namespace Intelligence

variable {engine : FusionEngine} {inputs : FusionInputs} {context : ThreatContext}

/-! ## Bands -/

namespace FusionEngine

theorem severity_mono {a b : ℚ} (h : a ≤ b) : engine.severity a ≤ engine.severity b := by
  by_cases hcritical : engine.thresholds.critical ≤ b
  · rw [severity, severity, if_pos hcritical]
    exact RiskLevel.le_critical _
  have hcritical' : ¬ engine.thresholds.critical ≤ a := fun ha => hcritical (ha.trans h)
  by_cases hhigh : engine.thresholds.high ≤ b
  · rw [severity, severity, if_neg hcritical, if_neg hcritical', if_pos hhigh]
    split_ifs <;> decide
  have hhigh' : ¬ engine.thresholds.high ≤ a := fun ha => hhigh (ha.trans h)
  by_cases hwatch : engine.thresholds.watch ≤ b
  · rw [severity, severity, if_neg hcritical, if_neg hcritical', if_neg hhigh, if_neg hhigh',
      if_pos hwatch]
    split_ifs <;> decide
  have hwatch' : ¬ engine.thresholds.watch ≤ a := fun ha => hwatch (ha.trans h)
  rw [severity, severity, if_neg hcritical, if_neg hcritical', if_neg hhigh, if_neg hhigh',
    if_neg hwatch, if_neg hwatch']

/-- A score below the HIGH threshold is at most WATCH. -/
theorem severity_le_watch (hcritical : engine.thresholds.high ≤ engine.thresholds.critical)
    {score : ℚ} (h : score < engine.thresholds.high) : engine.severity score ≤ .watch := by
  rw [severity, if_neg (not_le.mpr (h.trans_le hcritical)), if_neg (not_le.mpr h)]
  split_ifs <;> decide

/-- A score at the WATCH threshold is at least WATCH. -/
theorem watch_le_severity {score : ℚ} (h : engine.thresholds.watch ≤ score) :
    .watch ≤ engine.severity score := by
  rw [severity, if_pos h]
  split_ifs <;> decide

/-- A score at the HIGH threshold is at least HIGH. -/
theorem high_le_severity {score : ℚ} (h : engine.thresholds.high ≤ score) :
    .high ≤ engine.severity score := by
  rw [severity, if_pos h]
  split_ifs <;> decide

end FusionEngine

/-! ## Demotions -/

/-- The policies that demote. -/
def demotionPolicies : List String :=
  ["critical_requires_corroboration", "missing_market_severity_demotion"]

/-- A level and the decisions recorded on the way to it: it is lower than `level` only if a demotion
is recorded, and a level from WATCH on does not fall below WATCH. -/
structure Demotes (level : RiskLevel) (outcome : RiskLevel × List PolicyDecision) : Prop where
  le : outcome.1 ≤ level
  recorded : outcome.1 = level ∨
    ∃ decision ∈ outcome.2, decision.applied = true ∧ decision.policy ∈ demotionPolicies
  watch : .watch ≤ level → .watch ≤ outcome.1

theorem Demotes.refl (level : RiskLevel) : Demotes level (level, []) :=
  ⟨le_rfl, Or.inl rfl, id⟩

/-- One demotion after another. -/
theorem Demotes.trans {level : RiskLevel} {first second : RiskLevel × List PolicyDecision}
    (hfirst : Demotes level first) (hsecond : Demotes first.1 second) :
    Demotes level (second.1, first.2 ++ second.2) := by
  refine ⟨hsecond.le.trans hfirst.le, ?_, fun h => hsecond.watch (hfirst.watch h)⟩
  rcases hsecond.recorded with heq | ⟨decision, hmem, hdecision⟩
  · rcases hfirst.recorded with heq' | ⟨decision, hmem, hdecision⟩
    · exact Or.inl (heq.trans heq')
    · exact Or.inr ⟨decision, List.mem_append_left _ hmem, hdecision⟩
  · exact Or.inr ⟨decision, List.mem_append_right _ hmem, hdecision⟩

namespace FusionEngine

theorem demotes_demoteCritical (inputs : FusionInputs) (s : Scoring) (level : RiskLevel) :
    Demotes level (demoteCritical inputs s level) := by
  rw [demoteCritical]
  split_ifs with h
  · rw [h.1]
    exact ⟨RiskLevel.le_critical _, Or.inr ⟨_, List.mem_singleton_self _, rfl, List.mem_cons_self⟩,
      fun _ => (by decide : RiskLevel.watch ≤ .high)⟩
  · exact Demotes.refl level

theorem demotes_demoteMissingMarket (inputs : FusionInputs) (s : Scoring) (level : RiskLevel) :
    Demotes level (demoteMissingMarket inputs s level) := by
  rw [demoteMissingMarket]
  split_ifs with h
  · have hle : RiskLevel.watch ≤ level := by
      rcases h.2 with rfl | rfl <;> decide
    exact ⟨hle, Or.inr ⟨_, List.mem_singleton_self _, rfl,
      List.mem_cons_of_mem _ List.mem_cons_self⟩, fun _ => le_rfl⟩
  · exact Demotes.refl level

/-- The severity of the result is the band of its score, but for recorded demotions. -/
theorem demotes_verdict (engine : FusionEngine) (inputs : FusionInputs) (context : ThreatContext) :
    Demotes (engine.severity (engine.scoring inputs context).score)
      (engine.verdict inputs context) :=
  (demotes_demoteCritical inputs _ _).trans (demotes_demoteMissingMarket inputs _ _)

/-- What a CRITICAL verdict rests on. -/
theorem verdict_critical (h : (engine.verdict inputs context).1 = .critical) :
    AtLeast (inputs.value "market_score") 0.65 ∧ inputs.Corroborated ∧
      0.4 ≤ (engine.scoring inputs context).confidence := by
  by_contra hevidence
  -- the first demotion leaves at most HIGH, and the second does not raise it
  have hfirst : (demoteCritical inputs (engine.scoring inputs context)
      (engine.severity (engine.scoring inputs context).score)).1 ≤ .high := by
    rw [demoteCritical]
    split_ifs with hdemoted
    · exact le_rfl
    · have hne : engine.severity (engine.scoring inputs context).score ≠ .critical :=
        fun hcritical => hdemoted ⟨hcritical, hevidence⟩
      cases hlevel : engine.severity (engine.scoring inputs context).score with
      | critical => exact absurd hlevel hne
      | normal => decide
      | watch => decide
      | high => decide
  have hle : (engine.verdict inputs context).1 ≤ .high :=
    (demotes_demoteMissingMarket inputs (engine.scoring inputs context) _).le.trans hfirst
  rw [h] at hle
  exact absurd hle (by decide)

/-! ## The score between the floor and the caps -/

/-- Without market evidence the score stays below the HIGH threshold. -/
theorem scoring_score_lt_high (h : ¬ inputs.MarketEvidence) :
    (engine.scoring inputs context).score < engine.thresholds.high := by
  have hpoliced : ∀ score, engine.policed inputs score ≤ engine.thresholds.high - 0.01 := by
    intro score
    simp only [policed, if_pos h]
    exact min_le_right _ _
  have hcapped : (engine.scoring inputs context).score ≤ engine.thresholds.high - 0.01 := by
    rw [scoring_score, threatCapped]
    split_ifs
    · exact min_le_right _ _
    · exact hpoliced _
  linarith

/-- With joint evidence the score reaches the WATCH threshold. -/
theorem watch_le_scoring_score (hwatch : engine.thresholds.watch ≤ engine.thresholds.high - 0.01)
    (h : inputs.JointEvidence) :
    engine.thresholds.watch ≤ (engine.scoring inputs context).score := by
  have hmarket : inputs.MarketEvidence := h.1.mono (by norm_num)
  have hpoliced : ∀ score, engine.thresholds.watch ≤ engine.policed inputs score := by
    intro score
    simp only [policed, if_pos h, if_neg (not_not.mpr hmarket)]
    exact le_max_right _ _
  rw [scoring_score, threatCapped]
  split_ifs
  · exact le_min (hpoliced _) hwatch
  · exact hpoliced _

/-- **The severity policy is safe.**  `fuse` returns on sound inputs, and for everything it returns:
without market evidence the severity is at most WATCH; CRITICAL needs market evidence,
corroboration and confidence; joint evidence is at least WATCH; and the severity is the band of the
score unless a demotion is recorded. -/
theorem severity_policy_safe (engine : FusionEngine) (inputs : FusionInputs)
    (threatContext : Option ThreatContext) (now : Datetime)
    (hwatch : engine.thresholds.watch ≤ engine.thresholds.high - 0.01)
    (hcritical : engine.thresholds.high ≤ engine.thresholds.critical) :
    (engine.weights.Positive → 0 ≤ engine.threatUpliftCap → inputs.InRange →
      ∃ result, engine.fuse inputs threatContext now = .ok result) ∧
    ∀ result, engine.fuse inputs threatContext now = .ok result →
      (¬ AtLeast result.marketScore 0.35 →
        (result.severity = .normal ∨ result.severity = .watch) ∧
          result.fusionScore < engine.thresholds.high) ∧
      (result.severity = .critical →
        AtLeast result.marketScore 0.65 ∧
        (∃ value ∈ [result.socialScore, result.coordinationScore, result.temporalScore,
          result.claimRisk, result.graphScore], AtLeast value 0.55) ∧
        0.4 ≤ result.confidence) ∧
      (AtLeast result.marketScore 0.65 → AtLeast result.coordinationScore 0.65 →
        engine.thresholds.watch ≤ result.fusionScore ∧ .watch ≤ result.severity) ∧
      result.severity ≤ engine.severity result.fusionScore ∧
      (result.severity < engine.severity result.fusionScore →
        ∃ decision ∈ result.decisionTrace.policyDecisions,
          decision.applied = true ∧ decision.policy ∈ demotionPolicies) := by
  have hhigh : 0.01 ≤ engine.thresholds.high := by
    have hzero := engine.thresholds.watch_mem.1
    linarith
  refine ⟨fun hweights hcap hinputs =>
    fuse_returns hweights hcap hhigh hinputs threatContext now, ?_⟩
  intro result hresult
  obtain ⟨components, -, hfields⟩ := fuse_eq_ok.mp hresult
  have hdemotes := engine.demotes_verdict inputs (threatContext.getD {})
  simp only [hfields, fusionFields]
  refine ⟨fun hmarket => ?_, fun hlevel => verdict_critical hlevel, fun hmarket hcoord => ?_,
    hdemotes.le, fun hlt => ?_⟩
  · have hlow : (engine.scoring inputs (threatContext.getD {})).score < engine.thresholds.high :=
      scoring_score_lt_high hmarket
    have hle := hdemotes.le.trans (severity_le_watch hcritical hlow)
    refine ⟨?_, hlow⟩
    cases hlevel : (engine.verdict inputs (threatContext.getD {})).1 with
    | normal => exact Or.inl rfl
    | watch => exact Or.inr rfl
    | high => exact absurd (hlevel ▸ hle) (by decide)
    | critical => exact absurd (hlevel ▸ hle) (by decide)
  · have hscore : engine.thresholds.watch ≤
        (engine.scoring inputs (threatContext.getD {})).score :=
      watch_le_scoring_score hwatch ⟨hmarket, hcoord⟩
    exact ⟨hscore, hdemotes.watch (watch_le_severity hscore)⟩
  · obtain ⟨decision, hmem, hdecision⟩ := hdemotes.recorded.resolve_left hlt.ne
    exact ⟨decision, List.mem_append_right _ hmem, hdecision⟩

end FusionEngine

/-- The guarantees at a minute with joint evidence under the default configuration. -/
theorem severity_policy_safe_joint :
    ∃ result, ({} : FusionEngine).fuse (minuteInputs (some 0.9) (some 0.9)) none 0 = .ok result ∧
      0.35 ≤ result.fusionScore ∧ .watch ≤ result.severity ∧
      result.severity ≤ ({} : FusionEngine).severity result.fusionScore := by
  obtain ⟨hreturns, hsafe⟩ := FusionEngine.severity_policy_safe {}
    (minuteInputs (some 0.9) (some 0.9)) none 0 (by norm_num) (by norm_num)
  have hscore : ∀ q ∈ some (0.9 : ℚ), InUnit q := by
    intro q hq
    rw [← Option.some.inj hq]
    norm_num [InUnit]
  obtain ⟨result, hresult⟩ := hreturns positive_default (by norm_num)
    (minuteInputs_inRange hscore hscore)
  obtain ⟨-, -, hjoint, hle, -⟩ := hsafe result hresult
  obtain ⟨components, -, hfields⟩ := FusionEngine.fuse_eq_ok.mp hresult
  have hmarket : AtLeast result.marketScore 0.65 := by
    rw [hfields]
    show AtLeast ((minuteInputs (some 0.9) (some 0.9)).value "market_score") 0.65
    decide +kernel
  have hcoord : AtLeast result.coordinationScore 0.65 := by
    rw [hfields]
    show AtLeast ((minuteInputs (some 0.9) (some 0.9)).value "coordination_score") 0.65
    decide +kernel
  obtain ⟨hscore, hlevel⟩ := hjoint hmarket hcoord
  exact ⟨result, hresult, hscore, hlevel, hle⟩

end Intelligence
end Scam2Market
