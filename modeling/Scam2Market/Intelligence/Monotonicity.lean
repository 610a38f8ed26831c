import Mathlib.Order.Monotone.Basic
import Scam2Market.Library.WeightedMean
import Scam2Market.Intelligence.ThreatUplift

/-!
# Riskier inputs are not scored lower

Two runs of `fuse` on one minute, with the same scores available and under one threat context.  The
components of the second are as high or higher, and its legitimate event score is as low or lower.

The components enter a weighted mean and switch policies at 0.35, 0.55 and 0.65.  Each switch goes one
way: a condition that holds of the first run and lets a score through, or lifts it, holds of the second
(`Riskier.marketEvidence`, `Riskier.jointEvidence`, `Riskier.corroborated`).  The cap on matches is
lifted once the evidence alone reaches the HIGH threshold, and lifting it does not lower a score.  So
the order passes from the mean through every adjustment and policy to the score (`scoring_score_le`),
and from there to the severity (`verdict_le`).
-/

namespace Scam2Market
namespace Intelligence

open Library (OrderedDict weightedMean)

/-- Both scores are missing, or both are there and the second is as high or higher. -/
abbrev Raises : Option ℚ → Option ℚ → Prop :=
  Option.Rel (· ≤ ·)

theorem Raises.refl (value : Option ℚ) : Raises value value := by
  cases value with
  | none => exact .none
  | some q => exact .some le_rfl

namespace Raises

variable {value value' : Option ℚ}

theorem eq_none_iff (h : Raises value value') : value = none ↔ value' = none := by
  cases h with
  | none => exact Iff.rfl
  | some _ => exact iff_of_false (Option.some_ne_none _) (Option.some_ne_none _)

theorem atLeast (h : Raises value value') {bound : ℚ} (hvalue : AtLeast value bound) :
    AtLeast value' bound := by
  cases h with
  | none => exact hvalue
  | some hle =>
    obtain ⟨q, hq, hbound⟩ := hvalue
    rw [Option.mem_some_iff] at hq
    exact ⟨_, Option.mem_some_self _, hbound.trans (hq ▸ hle)⟩

theorem getD_le (h : Raises value value') : value.getD 0 ≤ value'.getD 0 := by
  cases h with
  | none => exact le_rfl
  | some hle => exact hle

end Raises

/-- The minute, and which scores it has, are the same; every component is as high or higher and the
legitimate event score is as low or lower. -/
structure FusionInputs.Riskier (inputs inputs' : FusionInputs) : Prop where
  snapshot : inputs'.snapshot = inputs.snapshot
  outputs : List.Forall₂ (fun output output' => output.name = output'.name ∧
    Raises output.score output'.score) inputs.outputs inputs'.outputs
  claimRisk : Raises inputs.claimRisk inputs'.claimRisk
  graphScore : Raises inputs.graphScore inputs'.graphScore
  legitimateEventScore : Raises inputs'.legitimateEventScore inputs.legitimateEventScore
  marketRegime : inputs'.marketRegime = inputs.marketRegime
  liquidityClass : inputs'.liquidityClass = inputs.liquidityClass

namespace FusionInputs.Riskier

variable {inputs inputs' : FusionInputs}

/-! ## The components -/

/-- The component of a name is raised. -/
theorem value (h : inputs.Riskier inputs') (name : String) :
    Raises (inputs.value name) (inputs'.value name) := by
  have houtputs : OrderedDict.Related
      (fun output output' : DetectorOutput => Raises output.score output'.score)
      inputs.detectorOutputs inputs'.detectorOutputs :=
    OrderedDict.related_ofEntries
      (List.forall₂_map_left_iff.mpr (List.forall₂_map_right_iff.mpr h.outputs))
  have hscores : OrderedDict.Related Raises
      (.ofEntries (inputs.detectorOutputs.entries.map fun item => (item.1, item.2.score)))
      (.ofEntries (inputs'.detectorOutputs.entries.map fun item => (item.1, item.2.score))) :=
    OrderedDict.related_ofEntries
      (List.forall₂_map_left_iff.mpr (List.forall₂_map_right_iff.mpr houtputs))
  have hvalues : Option.Rel Raises (inputs.detectorValues.get? name)
      (inputs'.detectorValues.get? name) :=
    ((hscores.set "claim_risk" h.claimRisk).set "graph_score" h.graphScore).get? name
  rw [FusionInputs.value, FusionInputs.value, OrderedDict.getD, OrderedDict.getD]
  generalize inputs.detectorValues.get? name = first at hvalues ⊢
  generalize inputs'.detectorValues.get? name = second at hvalues ⊢
  cases hvalues with
  | none => exact .none
  | some hraises => exact hraises

theorem marketEvidence (h : inputs.Riskier inputs') (hmarket : inputs.MarketEvidence) :
    inputs'.MarketEvidence :=
  (h.value _).atLeast hmarket

theorem jointEvidence (h : inputs.Riskier inputs') (hjoint : inputs.JointEvidence) :
    inputs'.JointEvidence :=
  ⟨(h.value _).atLeast hjoint.1, (h.value _).atLeast hjoint.2⟩

theorem corroborated (h : inputs.Riskier inputs') (hcorroborated : inputs.Corroborated) :
    inputs'.Corroborated := by
  obtain ⟨value, hvalue, hbound⟩ := hcorroborated
  simp only [List.mem_cons, List.not_mem_nil, or_false] at hvalue
  rcases hvalue with rfl | rfl | rfl | rfl | rfl
  · exact ⟨_, by simp, (h.value "social_score").atLeast hbound⟩
  · exact ⟨_, by simp, (h.value "coordination_score").atLeast hbound⟩
  · exact ⟨_, by simp, (h.value "temporal_score").atLeast hbound⟩
  · exact ⟨_, by simp, h.claimRisk.atLeast hbound⟩
  · exact ⟨_, by simp, h.graphScore.atLeast hbound⟩

/-- The same outputs are missing. -/
theorem length_missingOutputs (h : inputs.Riskier inputs') :
    inputs.missingOutputs.length = inputs'.missingOutputs.length := by
  have hvalue : ∀ name, inputs.value name = none ↔ inputs'.value name = none :=
    fun name => (h.value name).eq_none_iff
  simp only [FusionInputs.missingOutputs, List.length_append, List.length_map, hvalue,
    h.claimRisk.eq_none_iff, h.graphScore.eq_none_iff, ← h.legitimateEventScore.eq_none_iff]

theorem baselineConfidence (h : inputs.Riskier inputs') :
    inputs'.baselineConfidence = inputs.baselineConfidence := by
  rw [FusionInputs.baselineConfidence, FusionInputs.baselineConfidence, h.snapshot]

theorem confidence (h : inputs.Riskier inputs') : inputs.confidence = inputs'.confidence := by
  simp only [FusionInputs.confidence, h.baselineConfidence, h.length_missingOutputs, h.snapshot]

theorem legitimateAdjustment (h : inputs.Riskier inputs') :
    inputs.legitimateAdjustment ≤ inputs'.legitimateAdjustment := by
  have hle := clamp_mono h.legitimateEventScore.getD_le
  rw [FusionInputs.legitimateAdjustment, FusionInputs.legitimateAdjustment]
  linarith

end FusionInputs.Riskier

namespace FusionEngine

variable {engine : FusionEngine} {inputs inputs' : FusionInputs} {context : ThreatContext}

/-- The calibrator is absent, or keeps the order of scores. -/
def CalibratesInOrder (engine : FusionEngine) : Prop :=
  ∀ calibrator ∈ engine.calibrator, ∀ marketRegime liquidityClass,
    MonotoneOn (fun score => calibrator score marketRegime liquidityClass) (Set.Icc 0 1)

/-! ## The score -/

/-- The raw score is a weighted mean. -/
theorem rawWeightedScore_eq (engine : FusionEngine) (inputs : FusionInputs) :
    engine.rawWeightedScore inputs = weightedMean (engine.presentComponents inputs) :=
  Library.ite_weightedMean _

theorem rawWeightedScore_le (hweights : ∀ item ∈ engine.weights.items, 0 ≤ item.2)
    (h : inputs.Riskier inputs') :
    engine.rawWeightedScore inputs ≤ engine.rawWeightedScore inputs' := by
  rw [rawWeightedScore_eq, rawWeightedScore_eq]
  refine Library.weightedMean_mono (fun component hcomponent => ?_) ?_
  · obtain ⟨item, hitem, hmap⟩ := List.mem_filterMap.mp hcomponent
    obtain ⟨value, -, rfl⟩ := Option.map_eq_some_iff.mp hmap
    exact hweights item hitem
  · refine List.rel_filterMap (R := Eq) (fun item item' hitem => ?_)
      (List.forall₂_refl engine.weights.items)
    subst hitem
    have hvalue := h.value item.1
    cases hfirst : inputs.value item.1 <;> cases hsecond : inputs'.value item.1 <;>
      rw [hfirst, hsecond] at hvalue <;> cases hvalue
    · exact .none
    · exact .some ⟨rfl, ‹_›⟩

theorem calibratedScore_le (hweights : ∀ item ∈ engine.weights.items, 0 ≤ item.2)
    (hcalibrator : engine.CalibratesInOrder) (h : inputs.Riskier inputs') :
    engine.calibratedScore inputs ≤ engine.calibratedScore inputs' := by
  have hraw := clamp_mono (rawWeightedScore_le hweights h)
  rw [calibratedScore, calibratedScore]
  cases hcal : engine.calibrator with
  | none => exact hraw
  | some calibrator =>
    have hcalibrated : calibrator (clamp (engine.rawWeightedScore inputs)) inputs.marketRegime
          inputs.liquidityClass ≤
        calibrator (clamp (engine.rawWeightedScore inputs')) inputs.marketRegime
          inputs.liquidityClass :=
      hcalibrator calibrator hcal inputs.marketRegime inputs.liquidityClass
        (clamp_mem (engine.rawWeightedScore inputs)) (clamp_mem (engine.rawWeightedScore inputs'))
        hraw
    simp only [h.baselineConfidence, h.marketRegime, h.liquidityClass]
    by_cases hmature : 0.5 ≤ inputs.baselineConfidence
    · rw [if_pos hmature, if_pos hmature]
      exact clamp_mono hcalibrated
    · rw [if_neg hmature, if_neg hmature]
      exact hraw

theorem evidenceScore_le (hweights : ∀ item ∈ engine.weights.items, 0 ≤ item.2)
    (hcalibrator : engine.CalibratesInOrder) (h : inputs.Riskier inputs') :
    engine.evidenceScore inputs ≤ engine.evidenceScore inputs' := by
  have hadjustment : 0 ≤ inputs.legitimateAdjustment := by
    have hlow := (legitimateAdjustment_mem inputs).1
    linarith
  exact mul_le_mul (calibratedScore_le hweights hcalibrator h) h.legitimateAdjustment hadjustment
    (engine.calibratedScore_mem inputs').1

theorem uplifted_mono (context : ThreatContext) {a b : ℚ} (h : a ≤ b) :
    engine.uplifted context a ≤ engine.uplifted context b := by
  rw [uplifted, uplifted]
  cases context.status with
  | matched =>
    cases context.score with
    | none => exact h
    | some threat => exact min_le_min_left 1 (by linarith)
  | disabled => exact h
  | unavailable => exact h
  | stale => exact h
  | noMatch => exact h

/-- The floor is there for the second run when it is for the first, and the cap is there for the first
when it is for the second. -/
theorem policed_le (h : inputs.Riskier inputs') {a b : ℚ} (hab : a ≤ b) :
    engine.policed inputs a ≤ engine.policed inputs' b := by
  have hfloor : (if inputs.JointEvidence then max a engine.thresholds.watch else a) ≤
      if inputs'.JointEvidence then max b engine.thresholds.watch else b := by
    by_cases hjoint : inputs.JointEvidence
    · rw [if_pos hjoint, if_pos (h.jointEvidence hjoint)]
      exact max_le_max_right _ hab
    · rw [if_neg hjoint]
      split_ifs
      · exact hab.trans (le_max_left _ _)
      · exact hab
  simp only [policed]
  by_cases hmarket : inputs.MarketEvidence
  · rw [if_neg (not_not.mpr hmarket), if_neg (not_not.mpr (h.marketEvidence hmarket))]
    exact hfloor
  · rw [if_pos hmarket]
    by_cases hmarket' : inputs'.MarketEvidence
    · rw [if_neg (not_not.mpr hmarket')]
      exact (min_le_left _ _).trans hfloor
    · rw [if_pos hmarket']
      exact min_le_min_right _ hfloor

/-- The cap on matches is not there for the second run alone. -/
theorem threatCapped_le {before before' a b : ℚ} (hbefore : before ≤ before') (hab : a ≤ b) :
    engine.threatCapped context before a ≤ engine.threatCapped context before' b := by
  rw [threatCapped, threatCapped]
  by_cases hcapped : context.status = .matched ∧ before' < engine.thresholds.high
  · rw [if_pos hcapped, if_pos ⟨hcapped.1, hbefore.trans_lt hcapped.2⟩]
    exact min_le_min_right _ hab
  · rw [if_neg hcapped]
    split_ifs
    · exact (min_le_left _ _).trans hab
    · exact hab

theorem scoring_score_le (hweights : ∀ item ∈ engine.weights.items, 0 ≤ item.2)
    (hcalibrator : engine.CalibratesInOrder) (h : inputs.Riskier inputs') :
    (engine.scoring inputs context).score ≤ (engine.scoring inputs' context).score := by
  have hevidence := evidenceScore_le hweights hcalibrator h
  rw [scoring_score, scoring_score]
  exact threatCapped_le hevidence (policed_le h (uplifted_mono context hevidence))

/-! ## The severity -/

theorem demoteCritical_le (h : inputs.Riskier inputs') {s t : Scoring}
    (hconf : s.confidence = t.confidence) {a b : RiskLevel} (hab : a ≤ b) :
    (demoteCritical inputs s a).1 ≤ (demoteCritical inputs' t b).1 := by
  have hlower : (demoteCritical inputs s a).1 ≤ a := (demotes_demoteCritical inputs s a).le
  by_cases hdemoted : b = .critical ∧ ¬ (AtLeast (inputs'.value "market_score") 0.65 ∧
      inputs'.Corroborated ∧ 0.4 ≤ t.confidence)
  · -- what the second run lacks, the first lacks too
    have hlacks : ¬ (AtLeast (inputs.value "market_score") 0.65 ∧ inputs.Corroborated ∧
        0.4 ≤ s.confidence) := fun hevidence =>
      hdemoted.2 ⟨(h.value _).atLeast hevidence.1, h.corroborated hevidence.2.1,
        hconf ▸ hevidence.2.2⟩
    have hhigh : (demoteCritical inputs s a).1 ≤ .high := by
      rw [demoteCritical]
      split_ifs with ha
      · exact le_rfl
      · cases a with
        | critical => exact absurd ⟨rfl, hlacks⟩ ha
        | high => decide
        | watch => decide
        | normal => decide
    rw [demoteCritical.eq_def inputs' t b, if_pos hdemoted]
    exact hhigh
  · refine (hlower.trans hab).trans ?_
    rw [demoteCritical, if_neg hdemoted]

theorem demoteMissingMarket_le (h : inputs.Riskier inputs') {s t : Scoring} {a b : RiskLevel}
    (hab : a ≤ b) :
    (demoteMissingMarket inputs s a).1 ≤ (demoteMissingMarket inputs' t b).1 := by
  have hsame : (demoteMissingMarket inputs' t b).1 = (demoteMissingMarket inputs t b).1 := by
    simp only [demoteMissingMarket, (h.value "market_score").eq_none_iff]
  rw [hsame]
  exact demoteMissingMarket_mono hab

theorem verdict_le (hweights : ∀ item ∈ engine.weights.items, 0 ≤ item.2)
    (hcalibrator : engine.CalibratesInOrder) (h : inputs.Riskier inputs') :
    (engine.verdict inputs context).1 ≤ (engine.verdict inputs' context).1 := by
  have hconf : (engine.scoring inputs context).confidence =
      (engine.scoring inputs' context).confidence := by
    rw [scoring_confidence, scoring_confidence, h.confidence]
  exact demoteMissingMarket_le h
    (demoteCritical_le h hconf (severity_mono (scoring_score_le hweights hcalibrator h)))

/-! ## The results -/

/-- Riskier inputs are not scored lower, in value or in severity. -/
theorem fuse_le_of_riskier (hweights : ∀ item ∈ engine.weights.items, 0 ≤ item.2)
    (hcalibrator : engine.CalibratesInOrder) (h : inputs.Riskier inputs')
    {threatContext : Option ThreatContext} {now now' : Datetime} {result result' : FusionResult}
    (hfuse : engine.fuse inputs threatContext now = .ok result)
    (hfuse' : engine.fuse inputs' threatContext now' = .ok result') :
    result.fusionScore ≤ result'.fusionScore ∧ result.severity ≤ result'.severity := by
  rw [fusionScore_of_fuse hfuse, fusionScore_of_fuse hfuse', severity_of_fuse hfuse,
    severity_of_fuse hfuse']
  exact ⟨scoring_score_le hweights hcalibrator h, verdict_le hweights hcalibrator h⟩

theorem nonneg_default (calibrator : Option (ℚ → String → String → ℚ)) (threatUpliftCap : ℚ) :
    ∀ item ∈ ({ calibrator, threatUpliftCap } : FusionEngine).weights.items, 0 ≤ item.2 :=
  fun item hitem => (positive_default item hitem).le

/-- **The fusion score and the severity follow the scores.**  Under the default weights and thresholds
and a calibrator that keeps the order of scores, or none, raising components never lowers the score or
the severity, and raising the legitimate event score never raises either. -/
theorem fuse_monotone (calibrator : Option (ℚ → String → String → ℚ)) (threatUpliftCap : ℚ)
    (threatContext : Option ThreatContext) (now now' : Datetime)
    (hcalibrator : ({ calibrator, threatUpliftCap } : FusionEngine).CalibratesInOrder) :
    (∀ inputs inputs' result result', inputs.Riskier inputs' →
      ({ calibrator, threatUpliftCap } : FusionEngine).fuse inputs threatContext now = .ok result →
      ({ calibrator, threatUpliftCap } : FusionEngine).fuse inputs' threatContext now' =
        .ok result' →
      result.fusionScore ≤ result'.fusionScore ∧ result.severity ≤ result'.severity) ∧
    (∀ (inputs : FusionInputs) (p q : ℚ) result result', p ≤ q →
      ({ calibrator, threatUpliftCap } : FusionEngine).fuse
        { inputs with legitimateEventScore := some p } threatContext now = .ok result →
      ({ calibrator, threatUpliftCap } : FusionEngine).fuse
        { inputs with legitimateEventScore := some q } threatContext now' = .ok result' →
      result'.fusionScore ≤ result.fusionScore ∧ result'.severity ≤ result.severity) := by
  constructor
  · intro inputs inputs' result result' hriskier hfuse hfuse'
    exact fuse_le_of_riskier (nonneg_default calibrator threatUpliftCap) hcalibrator hriskier hfuse hfuse'
  · intro inputs p q result result' hle hfuse hfuse'
    have hriskier : FusionInputs.Riskier { inputs with legitimateEventScore := some q }
        { inputs with legitimateEventScore := some p } :=
      { snapshot := rfl
        outputs := List.forall₂_same.mpr fun output _ => ⟨rfl, Raises.refl _⟩
        claimRisk := Raises.refl _
        graphScore := Raises.refl _
        legitimateEventScore := .some hle
        marketRegime := rfl
        liquidityClass := rfl }
    exact fuse_le_of_riskier (nonneg_default calibrator threatUpliftCap) hcalibrator hriskier hfuse' hfuse

end FusionEngine

/-- A minute without market evidence and one with joint evidence, and the latter discounted. -/
theorem fuse_monotone_minute :
    ∃ low high discounted,
      ({ calibrator := some fun score _ _ => score } : FusionEngine).fuse
        { minuteInputs (some 0.3) (some 0.6) with legitimateEventScore := some 0 } none 0 =
          .ok low ∧
      ({ calibrator := some fun score _ _ => score } : FusionEngine).fuse
        { minuteInputs (some 0.9) (some 0.7) with legitimateEventScore := some 0 } none 0 =
          .ok high ∧
      ({ calibrator := some fun score _ _ => score } : FusionEngine).fuse
        { minuteInputs (some 0.9) (some 0.7) with legitimateEventScore := some 1 } none 0 =
          .ok discounted ∧
      (low.fusionScore ≤ high.fusionScore ∧ low.severity ≤ high.severity) ∧
      discounted.fusionScore ≤ high.fusionScore ∧ discounted.severity ≤ high.severity := by
  have hcalibrator : ({ calibrator := some fun score _ _ => score } :
      FusionEngine).CalibratesInOrder := by
    intro calibrator hmem _ _ a _ b _ hab
    rw [← Option.some.inj hmem]
    exact hab
  have hreturns : ∀ market coordination legitimate : ℚ, InUnit market → InUnit coordination →
      ∃ result, ({ calibrator := some fun score _ _ => score } : FusionEngine).fuse
        { minuteInputs (some market) (some coordination) with
          legitimateEventScore := some legitimate } none 0 = .ok result := by
    intro market coordination legitimate hmarket hcoordination
    have hinputs : (minuteInputs (some market) (some coordination)).InRange :=
      minuteInputs_inRange (by simpa using hmarket) (by simpa using hcoordination)
    have hweights : ({ calibrator := some fun score _ _ => score } :
        FusionEngine).weights.Positive := positive_default
    refine FusionEngine.fuse_returns ?_ ?_ ?_ ?_ none 0
    · exact hweights
    · norm_num
    · norm_num
    · exact ⟨hinputs.outputs, hinputs.claimRisk, hinputs.graphScore, hinputs.marketRegimeConfidence,
        hinputs.liquidityConfidence⟩
  obtain ⟨low, hlow⟩ := hreturns 0.3 0.6 0 (by norm_num [InUnit]) (by norm_num [InUnit])
  obtain ⟨high, hhigh⟩ := hreturns 0.9 0.7 0 (by norm_num [InUnit]) (by norm_num [InUnit])
  obtain ⟨discounted, hdiscounted⟩ := hreturns 0.9 0.7 1 (by norm_num [InUnit])
    (by norm_num [InUnit])
  have hriskier : FusionInputs.Riskier
      { minuteInputs (some 0.3) (some 0.6) with legitimateEventScore := some 0 }
      { minuteInputs (some 0.9) (some 0.7) with legitimateEventScore := some 0 } :=
    { snapshot := rfl
      outputs := .cons ⟨rfl, .some (by norm_num)⟩ (.cons ⟨rfl, .some (by norm_num)⟩ .nil)
      claimRisk := .none
      graphScore := .none
      legitimateEventScore := .some le_rfl
      marketRegime := rfl
      liquidityClass := rfl }
  have hmonotone := FusionEngine.fuse_monotone (some fun score _ _ => score) 0.10 none 0 0 hcalibrator
  have hraised := hmonotone.1 _ _ low high hriskier hlow hhigh
  have hlegitimate := hmonotone.2 (minuteInputs (some 0.9) (some 0.7)) 0 1 high discounted zero_le_one
    hhigh hdiscounted
  exact ⟨low, high, discounted, hlow, hhigh, hdiscounted, hraised, hlegitimate⟩

end Intelligence
end Scam2Market
