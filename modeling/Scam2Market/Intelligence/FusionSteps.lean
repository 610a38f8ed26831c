import Mathlib.Algebra.Order.BigOperators.Group.List
import Scam2Market.Library.Procedure
import Scam2Market.Intelligence.Fusion

/-!
# What the fusion engine computes

* `fuse_eq_ok`: what `fuse` returns, when it returns.
* `scoring_score` and `scoring_confidence`: the score and the confidence in closed form, as maps of
  the *evidence score*, which is what everything but threat intelligence is worth.  The floor and the
  market cap together are a clipping map (`clipping_policed`).
* `fuse_returns`: with positive weights, a cap that is not negative, and scores in `[0, 1]`, `fuse`
  returns.
-/

namespace Scam2Market
namespace Intelligence

open Library (OrderedDict Clipping)

variable {engine : FusionEngine} {inputs : FusionInputs} {context : ThreatContext}

namespace FusionEngine

/-- `fuse` returns the validated fields, unless the trace of a component raises. -/
theorem fuse_eq_ok {threatContext : Option ThreatContext} {now : Datetime} {result : FusionResult} :
    engine.fuse inputs threatContext now = .ok result ↔
      ∃ components, engine.traceComponents inputs = .ok components ∧
        result.toFusionFields =
          engine.fusionFields inputs (threatContext.getD {}) components now := by
  rw [fuse]
  cases hcomp : engine.traceComponents inputs with
  | error e =>
    constructor
    · intro h
      exact absurd h (by simp [bind, Except.bind])
    · rintro ⟨components, hok, -⟩
      exact absurd hok (by simp)
  | ok components =>
    show FusionFields.validate _ = .ok result ↔ _
    rw [FusionFields.validate_eq_ok]
    constructor
    · intro h
      exact ⟨components, rfl, h⟩
    · rintro ⟨components', hok, h⟩
      rw [Except.ok.inj hok]
      exact h

/-! ## The score in closed form -/

variable (engine inputs context)

/-- The score after calibration. -/
def calibratedScore : ℚ :=
  let raw := clamp (engine.rawWeightedScore inputs)
  match engine.calibrator with
  | some calibrator =>
    if 0.5 ≤ inputs.baselineConfidence then
      clamp (calibrator raw inputs.marketRegime inputs.liquidityClass)
    else raw
  | none => raw

/-- What the evidence is worth without threat intelligence: the calibrated score, discounted. -/
def evidenceScore : ℚ :=
  engine.calibratedScore inputs * inputs.legitimateAdjustment

/-- The uplift of the score. -/
def uplifted (score : ℚ) : ℚ :=
  match context.status, context.score with
  | .matched, some threat => min 1 (score + engine.threatUplift context threat)
  | _, _ => score

/-- The floor and the market cap. -/
def policed (score : ℚ) : ℚ :=
  let floored := if inputs.JointEvidence then max score engine.thresholds.watch else score
  if ¬ inputs.MarketEvidence then min floored (engine.thresholds.high - 0.01) else floored

/-- The cap on scores that a match has touched. -/
def threatCapped (threatBefore score : ℚ) : ℚ :=
  if context.status = .matched ∧ threatBefore < engine.thresholds.high then
    min score (engine.thresholds.high - 0.01)
  else score

/-- The confidence that is left under a threat context. -/
def trusted (confidence : ℚ) : ℚ :=
  if context.status = .unavailable ∨ context.status = .stale then confidence * 0.85
  else confidence

theorem calibratedScoring_score :
    (engine.calibratedScoring inputs).score = engine.calibratedScore inputs := by
  rw [calibratedScoring, calibrate, calibratedScore]
  cases engine.calibrator with
  | none => rfl
  | some calibrator =>
    by_cases h : 0.5 ≤ inputs.baselineConfidence
    · simp only [if_pos h]
    · simp only [if_neg h]

theorem calibratedScoring_confidence :
    (engine.calibratedScoring inputs).confidence = inputs.confidence := by
  rw [calibratedScoring, calibrate]
  cases engine.calibrator with
  | none => rfl
  | some calibrator =>
    by_cases h : 0.5 ≤ inputs.baselineConfidence
    · simp only [if_pos h]
    · simp only [if_neg h]

theorem upliftThreat_score (s : Scoring) :
    (engine.upliftThreat context s).score = engine.uplifted context s.score := by
  rw [upliftThreat, uplifted]
  cases context.status <;> cases context.score <;> rfl

theorem upliftThreat_confidence (s : Scoring) :
    (engine.upliftThreat context s).confidence = trusted context s.confidence := by
  rw [upliftThreat, trusted]
  cases context.status <;> cases context.score <;> simp

theorem floorWatch_score (s : Scoring) :
    (engine.floorWatch inputs s).score =
      if inputs.JointEvidence then max s.score engine.thresholds.watch else s.score := by
  rw [floorWatch]
  split_ifs <;> rfl

theorem floorWatch_confidence (s : Scoring) :
    (engine.floorWatch inputs s).confidence = s.confidence := by
  rw [floorWatch]
  split_ifs <;> rfl

theorem capMarket_score (s : Scoring) :
    (engine.capMarket inputs s).score =
      if ¬ inputs.MarketEvidence then min s.score (engine.thresholds.high - 0.01)
      else s.score := by
  rw [capMarket]
  split_ifs <;> rfl

theorem capMarket_confidence (s : Scoring) :
    (engine.capMarket inputs s).confidence = s.confidence := by
  rw [capMarket]
  split_ifs <;> rfl

theorem capThreat_score (threatBefore : ℚ) (s : Scoring) :
    (engine.capThreat context threatBefore s).score =
      engine.threatCapped context threatBefore s.score := by
  rw [capThreat, threatCapped]
  split_ifs <;> rfl

theorem capThreat_confidence (threatBefore : ℚ) (s : Scoring) :
    (engine.capThreat context threatBefore s).confidence = s.confidence := by
  rw [capThreat]
  split_ifs <;> rfl

/-- The score of `fuse`. -/
theorem scoring_score :
    (engine.scoring inputs context).score =
      engine.threatCapped context (engine.evidenceScore inputs)
        (engine.policed inputs (engine.uplifted context (engine.evidenceScore inputs))) := by
  have hpre : (discountLegitimate inputs (engine.calibratedScoring inputs)).score =
      engine.evidenceScore inputs := by
    rw [evidenceScore, ← calibratedScoring_score]
    rfl
  simp only [scoring, capThreat_score, capMarket_score, floorWatch_score, upliftThreat_score, hpre,
    policed]

/-- The confidence of `fuse`. -/
theorem scoring_confidence :
    (engine.scoring inputs context).confidence = trusted context inputs.confidence := by
  have hpre : (discountLegitimate inputs (engine.calibratedScoring inputs)).confidence =
      inputs.confidence := engine.calibratedScoring_confidence inputs
  simp only [scoring, capThreat_confidence, capMarket_confidence, floorWatch_confidence,
    upliftThreat_confidence, hpre]

/-- The floor and the market cap keep the order of scores and do not enlarge a difference. -/
theorem clipping_policed : Clipping (engine.policed inputs) := by
  have hfloor : Clipping fun score =>
      if inputs.JointEvidence then max score engine.thresholds.watch else score :=
    Clipping.ite _ (fun _ => Clipping.floor _) fun _ => Clipping.id
  have hcap : Clipping fun score =>
      if ¬ inputs.MarketEvidence then min score (engine.thresholds.high - 0.01) else score :=
    Clipping.ite _ (fun _ => Clipping.cap _) fun _ => Clipping.id
  exact hcap.comp hfloor

/-! ## Ranges -/

theorem calibratedScore_mem : InUnit (engine.calibratedScore inputs) := by
  rw [calibratedScore]
  cases engine.calibrator with
  | none => exact clamp_mem _
  | some calibrator =>
    by_cases h : 0.5 ≤ inputs.baselineConfidence
    · simp only [if_pos h]
      exact clamp_mem _
    · simp only [if_neg h]
      exact clamp_mem _

/-- The discount takes at most 35 percent. -/
theorem legitimateAdjustment_mem (inputs : FusionInputs) :
    0.65 ≤ inputs.legitimateAdjustment ∧ inputs.legitimateAdjustment ≤ 1 := by
  obtain ⟨hlo, hhi⟩ := clamp_mem (inputs.legitimateEventScore.getD 0)
  rw [FusionInputs.legitimateAdjustment]
  constructor <;> linarith

theorem evidenceScore_mem : InUnit (engine.evidenceScore inputs) := by
  obtain ⟨hlo, hhi⟩ := engine.calibratedScore_mem inputs
  obtain ⟨hadj, hadj'⟩ := legitimateAdjustment_mem inputs
  have hadj0 : 0 ≤ inputs.legitimateAdjustment := by linarith
  exact ⟨mul_nonneg hlo hadj0, mul_le_one₀ hhi hadj0 hadj'⟩

variable {context}

/-- A threat context lifts by at most the cap, and never lowers. -/
theorem threatUplift_mem (hcap : 0 ≤ engine.threatUpliftCap) {threat : ℚ}
    (hthreat : threat ∈ context.score) :
    0 ≤ engine.threatUplift context threat ∧
      engine.threatUplift context threat ≤ engine.threatUpliftCap := by
  have hscore := context.score_mem threat hthreat
  have hconf : 0 ≤ context.confidence.getD 0 := by
    cases hc : context.confidence with
    | none => exact le_rfl
    | some q => exact (context.confidence_mem q hc).1
  rw [threatUplift]
  exact ⟨le_min hcap (mul_nonneg (mul_nonneg hscore.1 hconf) hcap), min_le_left _ _⟩

variable (context)

/-- The uplift of a score of `[0, 1]` lies between the score and the score plus the cap. -/
theorem uplifted_mem (hcap : 0 ≤ engine.threatUpliftCap) {score : ℚ} (h : InUnit score) :
    score ≤ engine.uplifted context score ∧
      engine.uplifted context score - score ≤ engine.threatUpliftCap ∧
      engine.uplifted context score ≤ 1 := by
  have hsame : score ≤ score ∧ score - score ≤ engine.threatUpliftCap ∧ score ≤ 1 := by
    refine ⟨le_rfl, ?_, h.2⟩
    rw [sub_self]
    exact hcap
  cases hstatus : context.status <;> cases hthreat : context.score <;>
    simp only [uplifted, hstatus, hthreat] <;> try exact hsame
  -- a match with a score is what is left
  rename_i threat
  obtain ⟨hlo, hhi⟩ := engine.threatUplift_mem hcap (Option.mem_def.mpr hthreat)
  refine ⟨le_min h.2 (by linarith), ?_, min_le_left _ _⟩
  have hmin := min_le_right 1 (score + engine.threatUplift context threat)
  linarith

theorem trusted_mem {confidence : ℚ} (h : InUnit confidence) :
    InUnit (trusted context confidence) := by
  obtain ⟨hlo, hhi⟩ := h
  rw [trusted]
  split_ifs
  · constructor <;> linarith
  · exact ⟨hlo, hhi⟩

end FusionEngine

/-! ## Returning -/

/-- Every weight is positive. -/
def FusionWeights.Positive (weights : FusionWeights) : Prop :=
  ∀ item ∈ weights.items, 0 < item.2

/-- The scores and the confidences are in `[0, 1]`. -/
structure FusionInputs.InRange (inputs : FusionInputs) : Prop where
  outputs : ∀ output ∈ inputs.outputs, ∀ q ∈ output.score, InUnit q
  claimRisk : ∀ q ∈ inputs.claimRisk, InUnit q
  graphScore : ∀ q ∈ inputs.graphScore, InUnit q
  marketRegimeConfidence : InUnit inputs.marketRegimeConfidence
  liquidityConfidence : InUnit inputs.liquidityConfidence

/-- A component is the score of an output, the claim risk or the graph score. -/
theorem FusionInputs.InRange.value (h : inputs.InRange) (name : String) :
    ∀ q ∈ inputs.value name, InUnit q := by
  intro q hq
  rw [FusionInputs.value, OrderedDict.getD, FusionInputs.detectorValues, OrderedDict.get?_set,
    OrderedDict.get?_set] at hq
  split_ifs at hq
  · exact h.graphScore q hq
  · exact h.claimRisk q hq
  · cases hget : (OrderedDict.ofEntries (inputs.detectorOutputs.entries.map fun item =>
        (item.1, item.2.score))).get? name with
    | none =>
      rw [hget] at hq
      exact absurd hq (Option.not_mem_none q)
    | some score =>
      rw [hget, Option.getD_some] at hq
      obtain ⟨item, hitem, heq⟩ := List.mem_map.mp (OrderedDict.mem_of_get?_ofEntries hget)
      obtain ⟨output, houtput, hpair⟩ := List.mem_map.mp (OrderedDict.mem_of_get?_ofEntries
        (OrderedDict.mem_entries_iff.mp (show (item.1, item.2) ∈ _ from hitem)))
      have hscore : output.score = score :=
        (congrArg DetectorOutput.score (congrArg Prod.snd hpair)).trans (congrArg Prod.snd heq)
      exact h.outputs output houtput q (hscore ▸ hq)

/-- A weighted mean of scores of `[0, 1]` lies in `[0, 1]`. -/
theorem FusionInputs.InRange.socialCoordinationRisk (h : inputs.InRange) :
    ∀ q ∈ inputs.socialCoordinationRisk, InUnit q := by
  intro q hq
  have hsocial := h.value "social_score"
  have hcoordination := h.value "coordination_score"
  rw [FusionInputs.socialCoordinationRisk] at hq
  cases hs : inputs.value "social_score" with
  | none =>
    cases hc : inputs.value "coordination_score" with
    | none =>
      rw [hs, hc] at hq
      simp at hq
    | some c =>
      obtain ⟨hlo, hhi⟩ := hcoordination c hc
      rw [hs, hc] at hq
      obtain ⟨-, rfl⟩ : (0.70 : ℚ) ≠ 0 ∧ c * 0.70 / 0.70 = q := by
        simpa using hq
      rw [mul_div_assoc, div_self (by norm_num), mul_one]
      exact ⟨hlo, hhi⟩
  | some s =>
    obtain ⟨hslo, hshi⟩ := hsocial s hs
    cases hc : inputs.value "coordination_score" with
    | none =>
      rw [hs, hc] at hq
      obtain ⟨-, rfl⟩ : (0.30 : ℚ) ≠ 0 ∧ s * 0.30 / 0.30 = q := by
        simpa using hq
      rw [mul_div_assoc, div_self (by norm_num), mul_one]
      exact ⟨hslo, hshi⟩
    | some c =>
      obtain ⟨hclo, hchi⟩ := hcoordination c hc
      rw [hs, hc] at hq
      obtain ⟨-, rfl⟩ : (0.30 + 0.70 : ℚ) ≠ 0 ∧ (s * 0.30 + c * 0.70) / (0.30 + 0.70) = q := by
        simpa using hq
      rw [show (0.30 + 0.70 : ℚ) = 1 by norm_num, div_one]
      constructor <;> linarith

namespace FusionEngine

/-- With positive weights nothing is divided by zero. -/
theorem availableWeight_pos (hweights : engine.weights.Positive) {item : String × ℚ}
    (hitem : item ∈ engine.weights.items) {q : ℚ} (hq : inputs.value item.1 = some q) :
    0 < engine.availableWeight inputs := by
  have hpos : ∀ weight ∈ (engine.presentComponents inputs).map Prod.fst, 0 < weight := by
    intro weight hmem
    obtain ⟨pair, hpair, rfl⟩ := List.mem_map.mp hmem
    obtain ⟨item', hitem', hmap⟩ := List.mem_filterMap.mp hpair
    obtain ⟨value, -, rfl⟩ := Option.map_eq_some_iff.mp hmap
    exact hweights item' hitem'
  have hne : (engine.presentComponents inputs).map Prod.fst ≠ [] := by
    have hmem : (item.2, q) ∈ engine.presentComponents inputs :=
      List.mem_filterMap.mpr ⟨item, hitem, by rw [hq]; rfl⟩
    exact List.ne_nil_of_mem (List.mem_map_of_mem hmem)
  exact List.sum_pos _ hpos hne

theorem traceComponents_succeeds (inputs : FusionInputs) (hweights : engine.weights.Positive) :
    ∃ components, engine.traceComponents inputs = .ok components := by
  have hitem : ∀ item ∈ engine.weights.items,
      ∃ component, engine.traceComponent inputs item = .ok component := by
    intro item hmem
    rw [traceComponent]
    cases hvalue : inputs.value item.1 with
    | none => exact ⟨_, rfl⟩
    | some q =>
      have hne := (availableWeight_pos hweights hmem hvalue).ne'
      simp only [if_neg hne]
      exact ⟨_, rfl⟩
  rw [traceComponents]
  exact Library.mapM_succeeds hitem

/-- The score lies in `[0, 1]` when the caps do. -/
theorem scoring_score_mem (hcap : 0 ≤ engine.threatUpliftCap)
    (hhigh : 0.01 ≤ engine.thresholds.high) : InUnit (engine.scoring inputs context).score := by
  obtain ⟨hhlo, hhhi⟩ := engine.thresholds.high_mem
  obtain ⟨hwlo, hwhi⟩ := engine.thresholds.watch_mem
  obtain ⟨helo, hehi⟩ := engine.evidenceScore_mem inputs
  obtain ⟨hup, -, hup1⟩ := engine.uplifted_mem context hcap ⟨helo, hehi⟩
  have hfloor : InUnit (if inputs.JointEvidence then
      max (engine.uplifted context (engine.evidenceScore inputs)) engine.thresholds.watch
      else engine.uplifted context (engine.evidenceScore inputs)) := by
    split_ifs
    · exact ⟨le_max_of_le_right hwlo, max_le hup1 hwhi⟩
    · exact ⟨helo.trans hup, hup1⟩
  have hcut : ∀ {score : ℚ}, InUnit score → InUnit (min score (engine.thresholds.high - 0.01)) := by
    intro score h
    exact ⟨le_min h.1 (by linarith), (min_le_left _ _).trans h.2⟩
  have hpoliced : InUnit (engine.policed inputs
      (engine.uplifted context (engine.evidenceScore inputs))) := by
    simp only [policed]
    by_cases hmarket : inputs.MarketEvidence
    · rw [if_neg (not_not.mpr hmarket)]
      exact hfloor
    · rw [if_pos hmarket]
      exact hcut hfloor
  rw [scoring_score, threatCapped]
  split_ifs
  · exact hcut hpoliced
  · exact hpoliced

/-- What the validator refuses can only be the score. -/
theorem fusionFields_valid_iff (hinputs : inputs.InRange) {components : List TraceComponent}
    {now : Datetime} :
    (engine.fusionFields inputs context components now).Valid ↔
      InUnit (engine.scoring inputs context).score := by
  constructor
  · intro hvalid
    exact hvalid.fusionScore
  · intro hscore
    have hconf : InUnit (engine.scoring inputs context).confidence := by
      rw [scoring_confidence]
      exact trusted_mem _ (clamp_mem _)
    have hraw : InUnit (engine.calibratedScoring inputs).score := by
      rw [calibratedScoring_score]
      exact engine.calibratedScore_mem inputs
    have hrevision : 1 ≤ inputs.enrichment.2 := by
      rw [FusionInputs.enrichment]
      split_ifs <;> decide
    exact ⟨hrevision, hinputs.value "market_score", hinputs.socialCoordinationRisk, hraw, hscore,
      hscore, hconf, hinputs.marketRegimeConfidence, hinputs.liquidityConfidence⟩

/-- **Fusing returns** whenever the configuration is sound and the inputs are scores. -/
theorem fuse_returns (hweights : engine.weights.Positive) (hcap : 0 ≤ engine.threatUpliftCap)
    (hhigh : 0.01 ≤ engine.thresholds.high) (hinputs : inputs.InRange)
    (threatContext : Option ThreatContext) (now : Datetime) :
    ∃ result, engine.fuse inputs threatContext now = .ok result := by
  obtain ⟨components, hcomp⟩ := traceComponents_succeeds inputs hweights
  have hvalid : (engine.fusionFields inputs (threatContext.getD {}) components now).Valid :=
    (fusionFields_valid_iff hinputs).mpr (scoring_score_mem hcap hhigh)
  exact ⟨⟨_, hvalid⟩, fuse_eq_ok.mpr ⟨components, hcomp, rfl⟩⟩

end FusionEngine

theorem minuteInputs_inRange {marketScore coordinationScore : Option ℚ}
    (hmarket : ∀ q ∈ marketScore, InUnit q) (hcoord : ∀ q ∈ coordinationScore, InUnit q) :
    (minuteInputs marketScore coordinationScore).InRange := by
  refine ⟨fun output hmem => ?_, by simp [minuteInputs], by simp [minuteInputs],
    ⟨zero_le_one, le_rfl⟩, ⟨zero_le_one, le_rfl⟩⟩
  simp only [minuteInputs, List.mem_cons, List.not_mem_nil, or_false] at hmem
  rcases hmem with rfl | rfl
  · exact hmarket
  · exact hcoord

theorem positive_default : ({} : FusionEngine).weights.Positive := by
  unfold FusionWeights.Positive
  decide +kernel

end Intelligence
end Scam2Market
