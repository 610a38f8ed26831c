import Scam2Market.Library.Fallible
import Scam2Market.Intelligence.ThreatUplift

/-!
# When fusing raises

`fuse` divides twice by the sum of the weights of the components that are present.  The weighted
mean looks at the sum first, and the trace of a component does not, so weights that are all zero on
what is present raise.  The caps cut at 0.01 below the HIGH threshold, which is negative for a
threshold below 0.01, and the validator refuses a negative score.

* `Weighted`: something that is present has a weight, or nothing is present.
* `CapsFit`: the caps do not cut below zero, or none of them cuts.
* `fuse_total_iff`: these two conditions are what `fuse` needs to return.
-/

namespace Scam2Market
namespace Intelligence

variable {engine : FusionEngine} {inputs : FusionInputs} {context : ThreatContext}

namespace FusionEngine

/-- Some component that is present has a positive weight, unless none is present. -/
def Weighted (engine : FusionEngine) (inputs : FusionInputs) : Prop :=
  (∀ item ∈ engine.weights.items, inputs.value item.1 = none) ∨
    ∃ item ∈ engine.weights.items, inputs.value item.1 ≠ none ∧ 0 < item.2

/-- The HIGH threshold leaves room for the caps, or there is market evidence, which the first cap
asks for, and a match finds the evidence at the threshold, where the second one does not cut. -/
def CapsFit (engine : FusionEngine) (inputs : FusionInputs) (context : ThreatContext) : Prop :=
  0.01 ≤ engine.thresholds.high ∨
    (inputs.MarketEvidence ∧
      (context.status = .matched → engine.thresholds.high ≤ engine.evidenceScore inputs))

/-- A result was returned, and its scores and its confidence are in `[0, 1]`. -/
def Returns (outcome : Except PyError FusionResult) : Prop :=
  ∃ result, outcome = .ok result ∧ InUnit result.rawCrossDomainRisk ∧
    InUnit result.contextAdjustedRisk ∧ InUnit result.fusionScore ∧ InUnit result.confidence

/-! ## The division -/

theorem mem_presentComponents {pair : ℚ × ℚ} :
    pair ∈ engine.presentComponents inputs ↔
      ∃ item ∈ engine.weights.items, inputs.value item.1 = some pair.2 ∧ item.2 = pair.1 := by
  rw [presentComponents, List.mem_filterMap]
  constructor
  · rintro ⟨item, hitem, hmap⟩
    obtain ⟨value, hvalue, rfl⟩ := Option.map_eq_some_iff.mp hmap
    exact ⟨item, hitem, hvalue, rfl⟩
  · rintro ⟨item, hitem, hvalue, hweight⟩
    exact ⟨item, hitem, by rw [hvalue, hweight, Option.map_some]⟩

/-- The weights of what is present sum to zero when each of them is zero. -/
theorem availableWeight_eq_zero_iff (hweights : ∀ item ∈ engine.weights.items, 0 ≤ item.2) :
    engine.availableWeight inputs = 0 ↔
      ∀ item ∈ engine.weights.items, inputs.value item.1 ≠ none → item.2 = 0 := by
  have hnonneg : ∀ weight ∈ (engine.presentComponents inputs).map Prod.fst, 0 ≤ weight := by
    intro weight hmem
    obtain ⟨pair, hpair, rfl⟩ := List.mem_map.mp hmem
    obtain ⟨item, hitem, -, hweight⟩ := mem_presentComponents.mp hpair
    exact hweight ▸ hweights item hitem
  rw [availableWeight]
  constructor
  · intro hzero item hitem hpresent
    obtain ⟨value, hvalue⟩ := Option.ne_none_iff_exists'.mp hpresent
    have hpair : (item.2, value) ∈ engine.presentComponents inputs :=
      mem_presentComponents.mpr ⟨item, hitem, hvalue, rfl⟩
    have hle := List.single_le_sum hnonneg _ (List.mem_map_of_mem hpair)
    exact le_antisymm (hle.trans_eq hzero) (hweights item hitem)
  · intro hall
    refine List.sum_eq_zero fun weight hmem => ?_
    obtain ⟨pair, hpair, rfl⟩ := List.mem_map.mp hmem
    obtain ⟨item, hitem, hvalue, hweight⟩ := mem_presentComponents.mp hpair
    rw [← hweight]
    exact hall item hitem (by rw [hvalue]; exact Option.some_ne_none _)

/-- The trace of a component raises when it is present without a weight to divide by. -/
theorem traceComponent_returns_iff {item : String × ℚ} :
    (∃ component, engine.traceComponent inputs item = .ok component) ↔
      (inputs.value item.1 ≠ none → engine.availableWeight inputs ≠ 0) := by
  rw [traceComponent]
  cases hvalue : inputs.value item.1 with
  | none => exact iff_of_true ⟨_, rfl⟩ fun h => absurd rfl h
  | some value =>
    by_cases hzero : engine.availableWeight inputs = 0
    · simp only [if_pos hzero]
      refine iff_of_false ?_ fun h => h (Option.some_ne_none _) hzero
      rintro ⟨component, hcomponent⟩
      exact absurd hcomponent (by simp)
    · simp only [if_neg hzero]
      exact iff_of_true ⟨_, rfl⟩ fun _ => hzero

/-- The components have their traces exactly when the weights are those of something. -/
theorem traceComponents_returns_iff (hweights : ∀ item ∈ engine.weights.items, 0 ≤ item.2) :
    (∃ components, engine.traceComponents inputs = .ok components) ↔ engine.Weighted inputs := by
  constructor
  · rintro ⟨components, hcomponents⟩
    by_cases hnone : ∀ item ∈ engine.weights.items, inputs.value item.1 = none
    · exact Or.inl hnone
    push Not at hnone
    obtain ⟨item, hitem, hpresent⟩ := hnone
    obtain ⟨component, -, hcomponent⟩ := Library.Fallible.exists_result_of_mem hcomponents hitem
    have hne := traceComponent_returns_iff.mp ⟨component, hcomponent⟩ hpresent
    rw [Ne, availableWeight_eq_zero_iff hweights] at hne
    push Not at hne
    obtain ⟨heavy, hheavy, hpresent', hnonzero⟩ := hne
    exact Or.inr ⟨heavy, hheavy, hpresent', lt_of_le_of_ne (hweights heavy hheavy) hnonzero.symm⟩
  · intro hweighted
    refine Library.mapM_succeeds fun item hitem => traceComponent_returns_iff.mpr fun hpresent => ?_
    rcases hweighted with hnone | ⟨heavy, hheavy, hpresent', hpos⟩
    · exact absurd (hnone item hitem) hpresent
    · rw [Ne, availableWeight_eq_zero_iff hweights]
      intro hall
      exact hpos.ne' (hall heavy hheavy hpresent')

/-! ## The caps -/

/-- Where no cap cuts, the score is at least the evidence score. -/
theorem evidenceScore_le_scoring (hcap : 0 ≤ engine.threatUpliftCap)
    (hmarket : inputs.MarketEvidence)
    (hthreat : context.status = .matched → engine.thresholds.high ≤ engine.evidenceScore inputs) :
    engine.evidenceScore inputs ≤ (engine.scoring inputs context).score := by
  obtain ⟨hup, -, -⟩ := engine.uplifted_mem context hcap (engine.evidenceScore_mem inputs)
  rw [scoring_score, threatCapped,
    if_neg fun hcut => absurd (hthreat hcut.1) (not_le.mpr hcut.2)]
  simp only [policed, if_neg (not_not.mpr hmarket)]
  split_ifs
  · exact le_max_of_le_left hup
  · exact hup

/-- A cap that cuts leaves at most what is 0.01 below the HIGH threshold. -/
theorem scoring_le_cut
    (h : ¬ (inputs.MarketEvidence ∧
      (context.status = .matched → engine.thresholds.high ≤ engine.evidenceScore inputs))) :
    (engine.scoring inputs context).score ≤ engine.thresholds.high - 0.01 := by
  have hpoliced : ¬ inputs.MarketEvidence → ∀ score,
      engine.policed inputs score ≤ engine.thresholds.high - 0.01 := by
    intro hmarket score
    simp only [policed, if_pos hmarket]
    exact min_le_right _ _
  rw [scoring_score, threatCapped]
  split_ifs with hcut
  · exact min_le_right _ _
  · refine hpoliced (fun hmarket => h ⟨hmarket, fun hmatched => ?_⟩) _
    exact not_lt.mp fun hlt => hcut ⟨hmatched, hlt⟩

/-- The score is in `[0, 1]` exactly when the caps fit. -/
theorem scoring_score_mem_iff (hcap : 0 ≤ engine.threatUpliftCap) :
    InUnit (engine.scoring inputs context).score ↔ engine.CapsFit inputs context := by
  constructor
  · rintro ⟨hnonneg, -⟩
    by_cases hsafe : inputs.MarketEvidence ∧
        (context.status = .matched → engine.thresholds.high ≤ engine.evidenceScore inputs)
    · exact Or.inr hsafe
    · have hcut := scoring_le_cut hsafe
      exact Or.inl (by linarith)
  · rintro (hhigh | ⟨hmarket, hthreat⟩)
    · exact scoring_score_mem hcap hhigh
    · have hle := evidenceScore_le_scoring hcap hmarket hthreat
      exact ⟨(engine.evidenceScore_mem inputs).1.trans hle, scoring_score_le_one hcap⟩

/-! ## Returning -/

/-- **Fusing returns exactly when there is a weight to divide by and the caps fit.**  For every
threshold configuration, weights that are not negative, a cap of the uplift in `[0, 1]`, any scores
of `[0, 1]`, any threat context and any calibrator. -/
theorem fuse_total_iff (engine : FusionEngine) (inputs : FusionInputs)
    (threatContext : Option ThreatContext) (now : Datetime)
    (hweights : ∀ item ∈ engine.weights.items, 0 ≤ item.2)
    (hcap : InUnit engine.threatUpliftCap) (hinputs : inputs.InRange) :
    Returns (engine.fuse inputs threatContext now) ↔
      engine.Weighted inputs ∧ engine.CapsFit inputs (threatContext.getD {}) := by
  rw [← traceComponents_returns_iff hweights, ← scoring_score_mem_iff hcap.1]
  constructor
  · rintro ⟨result, hfuse, -⟩
    obtain ⟨components, hcomponents, hfields⟩ := fuse_eq_ok.mp hfuse
    have hvalid := result.valid
    rw [hfields] at hvalid
    exact ⟨⟨components, hcomponents⟩, (fusionFields_valid_iff hinputs).mp hvalid⟩
  · rintro ⟨⟨components, hcomponents⟩, hscore⟩
    have hvalid : (engine.fusionFields inputs (threatContext.getD {}) components now).Valid :=
      (fusionFields_valid_iff hinputs).mpr hscore
    exact ⟨⟨_, hvalid⟩, fuse_eq_ok.mpr ⟨components, hcomponents, rfl⟩, hvalid.rawCrossDomainRisk,
      hvalid.contextAdjustedRisk, hvalid.fusionScore, hvalid.confidence⟩

end FusionEngine

/-- The default configuration, at a minute in which two detectors have scored. -/
theorem fuse_total_iff_default :
    FusionEngine.Returns
      (({} : FusionEngine).fuse (minuteInputs (some 0.5) (some 1)) (some certainMatch) 0) := by
  have hinputs : (minuteInputs (some 0.5) (some 1)).InRange :=
    minuteInputs_inRange (by norm_num [InUnit]) (by norm_num [InUnit])
  refine (FusionEngine.fuse_total_iff {} (minuteInputs (some 0.5) (some 1)) (some certainMatch) 0
    (fun item hitem => (positive_default item hitem).le) (by norm_num [InUnit]) hinputs).mpr
    ⟨Or.inr ⟨("market_score", 0.40), by decide +kernel, by decide +kernel, by norm_num⟩,
      Or.inl (by norm_num)⟩

/-- Weights that are zero on everything. -/
def zeroWeights : FusionWeights where
  marketScore := 0
  socialScore := 0
  coordinationScore := 0
  temporalScore := 0
  claimRisk := 0
  graphScore := 0

/-- Thresholds that the model accepts, the HIGH one at zero. -/
def zeroHigh : ThresholdConfig where
  high := 0

/-- With zero weights a minute of scores divides by zero; with a HIGH threshold at zero a minute
without a market score is refused as negative. -/
theorem zero_configurations_raise :
    (∀ item ∈ zeroWeights.items, 0 ≤ item.2) ∧
    ({ weights := zeroWeights } : FusionEngine).fuse (minuteInputs (some 0.5) (some 1)) none 0 =
      .error .zeroDivisionError ∧
    ¬ FusionEngine.Returns
      (({ thresholds := zeroHigh } : FusionEngine).fuse (minuteInputs none (some 1)) none 0) := by
  refine ⟨by decide +kernel, ?_, ?_⟩
  · have htrace : ({ weights := zeroWeights } : FusionEngine).traceComponents
        (minuteInputs (some 0.5) (some 1)) = .error .zeroDivisionError := by decide +kernel
    rw [FusionEngine.fuse, htrace]
    rfl
  · rintro ⟨result, hfuse, -, -, hscore, -⟩
    rw [FusionEngine.fusionScore_of_fuse hfuse] at hscore
    revert hscore
    decide +kernel

end Intelligence
end Scam2Market
