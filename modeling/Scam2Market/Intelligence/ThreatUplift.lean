import Scam2Market.Intelligence.SeverityPolicy

/-!
# Threat intelligence corroborates

Two runs of `fuse` that differ in the threat context only: without one, and with a match.

The uplift never lowers a score, and the floor and the market cap are a clipping map, so behind them
the two scores are still in order and at most the cap apart.  The cap that keeps a match from lifting
a score to HIGH is different.  It cuts at 0.01 below the threshold whenever the evidence alone is
below the threshold, also when the evidence alone already stands in between: then the match lowers
the score.  `ClearOfThreatCap` says of the inputs that this does not happen, and
`corroborates_iff_clear` that it is exactly what the property needs.
-/

namespace Scam2Market
namespace Intelligence

variable {engine : FusionEngine} {inputs : FusionInputs} {context : ThreatContext}

namespace FusionEngine

/-- What a match may do to a result: raise the score by at most the cap, and the severity not past
the HIGH threshold. -/
structure Corroborates (engine : FusionEngine) (baseline matched : FusionResult) : Prop where
  raises : 0 ≤ matched.fusionScore - baseline.fusionScore
  bounded : matched.fusionScore - baseline.fusionScore ≤ engine.threatUpliftCap
  severity : baseline.severity ≤ matched.severity
  belowHigh : baseline.severity < .high → matched.severity < .high

/-- The evidence alone does not end up in the band just below the HIGH threshold: there is no market
evidence, or it reaches the threshold, or it and the floor it is raised to stay 0.01 below. -/
def ClearOfThreatCap (engine : FusionEngine) (inputs : FusionInputs) : Prop :=
  ¬ inputs.MarketEvidence ∨ engine.thresholds.high ≤ engine.evidenceScore inputs ∨
    (engine.evidenceScore inputs ≤ engine.thresholds.high - 0.01 ∧
      (inputs.JointEvidence → engine.thresholds.watch ≤ engine.thresholds.high - 0.01))

/-! ## The two scores -/

/-- Without a threat context, the score is the evidence score behind the floor and the cap. -/
theorem scoring_score_none (engine : FusionEngine) (inputs : FusionInputs) :
    (engine.scoring inputs {}).score = engine.policed inputs (engine.evidenceScore inputs) := by
  have hstatus : ({} : ThreatContext).status ≠ .matched := by decide
  rw [scoring_score, threatCapped, if_neg fun h => hstatus h.1]
  rfl

/-- The score of the evidence stays 0.01 below the HIGH threshold unless it reaches it. -/
theorem clear_iff (h : engine.evidenceScore inputs < engine.thresholds.high) :
    engine.ClearOfThreatCap inputs ↔
      engine.policed inputs (engine.evidenceScore inputs) ≤ engine.thresholds.high - 0.01 := by
  rw [ClearOfThreatCap]
  simp only [policed]
  by_cases hmarket : inputs.MarketEvidence
  · rw [if_neg (not_not.mpr hmarket)]
    by_cases hjoint : inputs.JointEvidence
    · rw [if_pos hjoint, max_le_iff]
      constructor
      · rintro (hnone | hhigh | ⟨hlow, hwatch⟩)
        · exact absurd hmarket hnone
        · exact absurd h (not_lt.mpr hhigh)
        · exact ⟨hlow, hwatch hjoint⟩
      · rintro ⟨hlow, hwatch⟩
        exact Or.inr (Or.inr ⟨hlow, fun _ => hwatch⟩)
    · rw [if_neg hjoint]
      constructor
      · rintro (hnone | hhigh | ⟨hlow, -⟩)
        · exact absurd hmarket hnone
        · exact absurd h (not_lt.mpr hhigh)
        · exact hlow
      · intro hlow
        exact Or.inr (Or.inr ⟨hlow, fun hjoint' => absurd hjoint' hjoint⟩)
  · rw [if_pos hmarket]
    exact iff_of_true (Or.inl hmarket) (min_le_right _ _)

/-- Below the HIGH threshold a match is cut 0.01 below it. -/
theorem scoring_score_of_lt (hmatched : context.status = .matched)
    (h : engine.evidenceScore inputs < engine.thresholds.high) :
    (engine.scoring inputs context).score =
      min (engine.policed inputs (engine.uplifted context (engine.evidenceScore inputs)))
        (engine.thresholds.high - 0.01) := by
  rw [scoring_score, threatCapped, if_pos ⟨hmatched, h⟩]

/-- From the HIGH threshold on it is not. -/
theorem scoring_score_of_le (h : engine.thresholds.high ≤ engine.evidenceScore inputs) :
    (engine.scoring inputs context).score =
      engine.policed inputs (engine.uplifted context (engine.evidenceScore inputs)) := by
  rw [scoring_score, threatCapped, if_neg fun hcut => absurd hcut.2 (not_lt.mpr h)]

/-- Clear of the cap, a match raises the score by at most the cap of the uplift. -/
theorem score_shift (hcap : 0 ≤ engine.threatUpliftCap) (hmatched : context.status = .matched)
    (hclear : engine.ClearOfThreatCap inputs) :
    0 ≤ (engine.scoring inputs context).score - (engine.scoring inputs {}).score ∧
      (engine.scoring inputs context).score - (engine.scoring inputs {}).score ≤
        engine.threatUpliftCap := by
  obtain ⟨hup, hbound, -⟩ :=
    engine.uplifted_mem context hcap (engine.evidenceScore_mem inputs)
  obtain ⟨hshift, hshift'⟩ := (engine.clipping_policed inputs).shift hup hbound
  rw [scoring_score_none]
  by_cases h : engine.evidenceScore inputs < engine.thresholds.high
  · have hlow := (clear_iff h).mp hclear
    rw [scoring_score_of_lt hmatched h]
    constructor
    · exact sub_nonneg.mpr (le_min (sub_nonneg.mp hshift) hlow)
    · exact (sub_le_sub_right (min_le_left _ _) _).trans hshift'
  · rw [scoring_score_of_le (not_lt.mp h)]
    exact ⟨hshift, hshift'⟩

/-- In the band below the HIGH threshold a match lowers the score. -/
theorem score_lt_of_not_clear (hmatched : context.status = .matched)
    (hclear : ¬ engine.ClearOfThreatCap inputs) :
    (engine.scoring inputs context).score < (engine.scoring inputs {}).score := by
  have h : engine.evidenceScore inputs < engine.thresholds.high :=
    not_le.mp fun hhigh => hclear (Or.inr (Or.inl hhigh))
  have hband := not_le.mp fun hlow => hclear ((clear_iff h).mpr hlow)
  rw [scoring_score_none, scoring_score_of_lt hmatched h]
  exact (min_le_right _ _).trans_lt hband

/-! ## The two severities -/

theorem demoteCritical_mono {s t : Scoring} (hconf : s.confidence = t.confidence)
    {a b : RiskLevel} (h : a ≤ b) :
    (demoteCritical inputs s a).1 ≤ (demoteCritical inputs t b).1 := by
  rw [demoteCritical, demoteCritical, hconf]
  by_cases hevidence : AtLeast (inputs.value "market_score") 0.65 ∧ inputs.Corroborated ∧
      0.4 ≤ t.confidence
  · rw [if_neg fun hdemoted => hdemoted.2 hevidence, if_neg fun hdemoted => hdemoted.2 hevidence]
    exact h
  · cases a <;> cases b <;> simp [hevidence] at h ⊢ <;> revert h <;> decide

theorem demoteMissingMarket_mono {s t : Scoring} {a b : RiskLevel} (h : a ≤ b) :
    (demoteMissingMarket inputs s a).1 ≤ (demoteMissingMarket inputs t b).1 := by
  rw [demoteMissingMarket, demoteMissingMarket]
  by_cases hmarket : inputs.value "market_score" = none
  · cases a <;> cases b <;> simp [hmarket] at h ⊢ <;> revert h <;> decide
  · rw [if_neg fun hdemoted => hmarket hdemoted.1, if_neg fun hdemoted => hmarket hdemoted.1]
    exact h

/-- With the same confidence, the severity follows the score. -/
theorem verdict_mono {context' : ThreatContext}
    (hconf : (engine.scoring inputs context).confidence =
      (engine.scoring inputs context').confidence)
    (h : (engine.scoring inputs context).score ≤ (engine.scoring inputs context').score) :
    (engine.verdict inputs context).1 ≤ (engine.verdict inputs context').1 :=
  demoteMissingMarket_mono (demoteCritical_mono hconf (severity_mono h))

/-- With market evidence a score at the HIGH threshold is not demoted below HIGH. -/
theorem high_le_verdict (hmarket : inputs.MarketEvidence)
    (h : engine.thresholds.high ≤ (engine.scoring inputs context).score) :
    .high ≤ (engine.verdict inputs context).1 := by
  have hfirst : .high ≤ (demoteCritical inputs (engine.scoring inputs context)
      (engine.severity (engine.scoring inputs context).score)).1 := by
    rw [demoteCritical]
    split_ifs
    · exact le_rfl
    · exact high_le_severity h
  show .high ≤ (demoteMissingMarket inputs _ _).1
  rw [demoteMissingMarket, if_neg fun hdemoted => hmarket.ne_none hdemoted.1]
  exact hfirst

/-- A match does not lift a severity to HIGH. -/
theorem verdict_lt_high (hcritical : engine.thresholds.high ≤ engine.thresholds.critical)
    (hmatched : context.status = .matched)
    (h : (engine.verdict inputs {}).1 < .high) : (engine.verdict inputs context).1 < .high := by
  have hlow : (engine.scoring inputs context).score < engine.thresholds.high := by
    by_cases hmarket : inputs.MarketEvidence
    · by_cases hevidence : engine.evidenceScore inputs < engine.thresholds.high
      · rw [scoring_score_of_lt hmatched hevidence]
        exact (min_le_right _ _).trans_lt (by linarith)
      · -- the evidence alone reaches the threshold, and the floor does not lower it
        have hbase : engine.thresholds.high ≤ (engine.scoring inputs {}).score := by
          rw [scoring_score_none]
          simp only [policed, if_neg (not_not.mpr hmarket)]
          split_ifs
          · exact le_max_of_le_left (not_lt.mp hevidence)
          · exact not_lt.mp hevidence
        exact absurd h (not_lt.mpr (high_le_verdict hmarket hbase))
    · exact scoring_score_lt_high hmarket
  have hle := (engine.demotes_verdict inputs context).le.trans (severity_le_watch hcritical hlow)
  exact hle.trans_lt (by decide)

/-! ## The two results -/

theorem fusionScore_of_fuse {threatContext : Option ThreatContext} {now : Datetime}
    {result : FusionResult} (h : engine.fuse inputs threatContext now = .ok result) :
    result.fusionScore = (engine.scoring inputs (threatContext.getD {})).score := by
  obtain ⟨components, -, hfields⟩ := fuse_eq_ok.mp h
  rw [hfields]
  rfl

theorem severity_of_fuse {threatContext : Option ThreatContext} {now : Datetime}
    {result : FusionResult} (h : engine.fuse inputs threatContext now = .ok result) :
    result.severity = (engine.verdict inputs (threatContext.getD {})).1 := by
  obtain ⟨components, -, hfields⟩ := fuse_eq_ok.mp h
  rw [hfields]
  rfl

/-- A match and no threat context leave the same confidence. -/
theorem confidence_eq (hmatched : context.status = .matched) :
    (engine.scoring inputs context).confidence = (engine.scoring inputs {}).confidence := by
  rw [scoring_confidence, scoring_confidence, trusted, trusted, hmatched]
  rfl

theorem scoring_score_le_one (hcap : 0 ≤ engine.threatUpliftCap) :
    (engine.scoring inputs context).score ≤ 1 := by
  obtain ⟨-, -, hone⟩ := engine.uplifted_mem context hcap (engine.evidenceScore_mem inputs)
  have hpoliced : engine.policed inputs
      (engine.uplifted context (engine.evidenceScore inputs)) ≤ 1 := by
    simp only [policed]
    split_ifs
    · exact max_le hone engine.thresholds.watch_mem.2
    · exact hone
    · exact (min_le_left _ _).trans (max_le hone engine.thresholds.watch_mem.2)
    · exact (min_le_left _ _).trans hone
  rw [scoring_score, threatCapped]
  split_ifs
  · exact (min_le_left _ _).trans hpoliced
  · exact hpoliced

/-- If `fuse` returns without a threat context it returns with a match that does not lower the
score. -/
theorem fuse_matched {now : Datetime} (now' : Datetime) {baseline : FusionResult}
    (hcap : 0 ≤ engine.threatUpliftCap) (hmatched : context.status = .matched)
    (hbaseline : engine.fuse inputs none now = .ok baseline)
    (hle : (engine.scoring inputs {}).score ≤ (engine.scoring inputs context).score) :
    ∃ matched, engine.fuse inputs (some context) now' = .ok matched := by
  obtain ⟨components, hcomp, hfields⟩ := fuse_eq_ok.mp hbaseline
  have hvalid := baseline.valid
  rw [hfields] at hvalid
  have hscore : InUnit (engine.scoring inputs context).score :=
    ⟨hvalid.fusionScore.1.trans hle, scoring_score_le_one hcap⟩
  have hconf : InUnit (engine.scoring inputs context).confidence := by
    rw [confidence_eq hmatched]
    exact hvalid.confidence
  have hvalid' : (engine.fusionFields inputs context components now').Valid :=
    { fusionRevision := hvalid.fusionRevision
      marketAnomalyRisk := hvalid.marketAnomalyRisk
      socialCoordinationRisk := hvalid.socialCoordinationRisk
      rawCrossDomainRisk := hvalid.rawCrossDomainRisk
      contextAdjustedRisk := hscore
      fusionScore := hscore
      confidence := hconf
      marketRegimeConfidence := hvalid.marketRegimeConfidence
      liquidityConfidence := hvalid.liquidityConfidence }
  exact ⟨⟨_, hvalid'⟩, fuse_eq_ok.mpr ⟨components, hcomp, rfl⟩⟩

/-- **A match corroborates exactly when the evidence is clear of the cap.**  Whatever the match, it
raises the score by at most the cap of the uplift, does not lower the severity and does not lift it
to HIGH, if and only if the evidence alone does not stand in the band below the HIGH threshold. -/
theorem corroborates_iff_clear (engine : FusionEngine) (inputs : FusionInputs)
    (context : ThreatContext) (now now' : Datetime) (baseline : FusionResult)
    (hcritical : engine.thresholds.high ≤ engine.thresholds.critical)
    (hcap : 0 ≤ engine.threatUpliftCap) (hmatched : context.status = .matched)
    (hbaseline : engine.fuse inputs none now = .ok baseline) :
    (∃ matched, engine.fuse inputs (some context) now' = .ok matched ∧
      engine.Corroborates baseline matched) ↔ engine.ClearOfThreatCap inputs := by
  have hscore : baseline.fusionScore = (engine.scoring inputs {}).score :=
    fusionScore_of_fuse hbaseline
  have hlevel := severity_of_fuse hbaseline
  rw [Option.getD_none] at hlevel
  constructor
  · rintro ⟨matched, hfuse, hcorroborates⟩
    by_contra hclear
    have hscore' : matched.fusionScore = (engine.scoring inputs context).score :=
      fusionScore_of_fuse hfuse
    have hlt := score_lt_of_not_clear hmatched hclear
    have hraises := hcorroborates.raises
    rw [hscore, hscore'] at hraises
    linarith
  · intro hclear
    obtain ⟨hraises, hbounded⟩ := score_shift hcap hmatched hclear
    obtain ⟨matched, hfuse⟩ := fuse_matched now' hcap hmatched hbaseline (sub_nonneg.mp hraises)
    have hscore' : matched.fusionScore = (engine.scoring inputs context).score :=
      fusionScore_of_fuse hfuse
    have hlevel' := severity_of_fuse hfuse
    rw [Option.getD_some] at hlevel'
    refine ⟨matched, hfuse, ?_, ?_, ?_, ?_⟩
    · rw [hscore, hscore']
      exact hraises
    · rw [hscore, hscore']
      exact hbounded
    · rw [hlevel, hlevel']
      exact verdict_mono (confidence_eq hmatched).symm (sub_nonneg.mp hraises)
    · rw [hlevel, hlevel']
      exact verdict_lt_high hcritical hmatched

end FusionEngine

/-- A match at a minute whose evidence is clear of the cap. -/
theorem corroborates_iff_clear_half :
    ∃ matched, ({} : FusionEngine).fuse (minuteInputs (some 0.5) none) (some certainMatch) 0 =
        .ok matched ∧
      ∃ baseline, ({} : FusionEngine).fuse (minuteInputs (some 0.5) none) none 0 = .ok baseline ∧
        ({} : FusionEngine).Corroborates baseline matched := by
  have hinputs : (minuteInputs (some 0.5) none).InRange :=
    minuteInputs_inRange (by norm_num [InUnit]) (by simp)
  obtain ⟨baseline, hbaseline⟩ := FusionEngine.fuse_returns positive_default (by norm_num)
    (by norm_num) hinputs none 0
  obtain ⟨matched, hmatched, hcorroborates⟩ := (FusionEngine.corroborates_iff_clear {}
    (minuteInputs (some 0.5) none) certainMatch 0 0 baseline (by norm_num) (by norm_num) rfl
    hbaseline).mpr (Or.inr (Or.inr ⟨by decide +kernel, by decide +kernel⟩))
  exact ⟨matched, hmatched, baseline, hbaseline, hcorroborates⟩

/-- A certain match lowers the score of a minute whose evidence is worth 0.595. -/
theorem certain_match_lowers_score :
    ∃ baseline matched,
      ({} : FusionEngine).fuse (minuteInputs (some 0.595) none) none 0 = .ok baseline ∧
      ({} : FusionEngine).fuse (minuteInputs (some 0.595) none) (some certainMatch) 0 =
        .ok matched ∧
      baseline.fusionScore = 0.595 ∧ matched.fusionScore = 0.59 ∧
      ¬ 0 ≤ matched.fusionScore - baseline.fusionScore := by
  have hinputs : (minuteInputs (some 0.595) none).InRange :=
    minuteInputs_inRange (by norm_num [InUnit]) (by simp)
  obtain ⟨baseline, hbaseline⟩ := FusionEngine.fuse_returns positive_default (by norm_num)
    (by norm_num) hinputs none 0
  obtain ⟨matched, hmatched⟩ := FusionEngine.fuse_returns positive_default (by norm_num)
    (by norm_num) hinputs (some certainMatch) 0
  have hbefore : baseline.fusionScore = 0.595 := by
    rw [FusionEngine.fusionScore_of_fuse hbaseline]
    decide +kernel
  have hafter : matched.fusionScore = 0.59 := by
    rw [FusionEngine.fusionScore_of_fuse hmatched]
    decide +kernel
  refine ⟨baseline, matched, hbaseline, hmatched, hbefore, hafter, ?_⟩
  rw [hbefore, hafter]
  norm_num

end Intelligence
end Scam2Market
