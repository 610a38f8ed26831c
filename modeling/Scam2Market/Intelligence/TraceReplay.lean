import Scam2Market.Library.Fallible
import Scam2Market.Library.Linked
import Scam2Market.Intelligence.ThreatUplift

/-!
# The decision trace replays the score

The trace of `fuse` is assembled beside the calculation.  `DecisionTrace.Replays` says that the two
agree: the components add up to the raw score, the recorded adjustments and policies lead from the raw
score to the final score without a gap, and the bands with the recorded demotions lead from there to the
severity.

* `Scoring.Traced`: what has been recorded so far leads from the first score to the score reached.  Each
  adjustment and each policy records what it does (`Traced.adjusted`, `Traced.decided`), so the whole
  scoring is traced (`traced_scoring`).
* `sum_contributions`, `sum_effectiveWeights`: the components add up.
* `replayedSeverity_eq`: the recorded demotions are the ones that were made.
* `trace_replays`: the trace of every result replays it.
-/

namespace Scam2Market
namespace Intelligence

open Library (Linked)

/-! ## What a trace says -/

namespace DecisionTrace

/-- The values before and after the adjustments, and then those of the policies. -/
def steps (trace : DecisionTrace) : List (ℚ × ℚ) :=
  trace.adjustments.map (fun adjustment => (adjustment.before, adjustment.after)) ++
    trace.policyDecisions.map fun decision => (decision.before, decision.after)

end DecisionTrace

/-- What a recorded decision does to a level. -/
def PolicyDecision.demote (level : RiskLevel) (decision : PolicyDecision) : RiskLevel :=
  if decision.applied ∧ decision.policy = "critical_requires_corroboration" then min level .high
  else if decision.applied ∧ decision.policy = "missing_market_severity_demotion" then
    min level .watch
  else level

namespace DecisionTrace

/-- The band of the final score under the recorded thresholds, and then the recorded demotions. -/
def replayedSeverity (trace : DecisionTrace) : RiskLevel :=
  trace.policyDecisions.foldl PolicyDecision.demote
    (({ thresholds := trace.thresholds } : FusionEngine).severity trace.finalScore)

/-- The trace explains the result it belongs to. -/
structure Replays (trace : DecisionTrace) (result : FusionFields) : Prop where
  contributions : (trace.components.map TraceComponent.signedWeightedContribution).sum =
    trace.rawWeightedScore
  availableWeights : ((trace.components.filter fun component => !component.missing).map
    TraceComponent.effectiveNormalizedWeight).sum = 1
  missingWeights : ∀ component ∈ trace.components, component.missing = true →
    component.effectiveNormalizedWeight = 0
  nonempty : trace.steps ≠ []
  linked : Linked (clamp trace.rawWeightedScore) trace.steps trace.finalScore
  deltas : ∀ adjustment ∈ trace.adjustments, adjustment.delta = adjustment.after - adjustment.before
  fusionScore : trace.finalScore = result.fusionScore
  contextAdjustedRisk : trace.finalScore = result.contextAdjustedRisk
  applied : ∀ decision ∈ trace.policyDecisions, decision.before ≠ decision.after →
    decision.applied = true
  severity : trace.replayedSeverity = result.severity

end DecisionTrace

/-! ## Recording -/

namespace Scoring

/-- What has been recorded leads from the first score to the score reached, and says what was done. -/
structure Traced (start : ℚ) (s : Scoring) : Prop where
  linked : Linked start
    (s.adjustments.map (fun adjustment => (adjustment.before, adjustment.after)) ++
      s.policies.map fun decision => (decision.before, decision.after)) s.score
  deltas : ∀ adjustment ∈ s.adjustments, adjustment.delta = adjustment.after - adjustment.before
  applied : ∀ decision ∈ s.policies, decision.before ≠ decision.after → decision.applied = true
  scores : ∀ decision ∈ s.policies, decision.policy ∉ demotionPolicies

variable {start : ℚ} {s s' : Scoring}

/-- An adjustment that is recorded; adjustments are made before the policies. -/
theorem Traced.adjusted (h : s.Traced start) (hpolicies : s.policies = [])
    {adjustment : ScoreAdjustment} (hadjustments : s'.adjustments = s.adjustments ++ [adjustment])
    (hpolicies' : s'.policies = s.policies) (hscore : s'.score = adjustment.after)
    (hbefore : adjustment.before = s.score)
    (hdelta : adjustment.delta = adjustment.after - adjustment.before) : s'.Traced start := by
  have hlinked := h.linked
  rw [hpolicies, List.map_nil, List.append_nil] at hlinked
  refine ⟨?_, fun other hother => ?_, hpolicies' ▸ h.applied, hpolicies' ▸ h.scores⟩
  · rw [hadjustments, hpolicies', hpolicies, List.map_nil, List.append_nil, List.map_append,
      List.map_singleton, hbefore, hscore]
    exact hlinked.concat adjustment.after
  · rw [hadjustments] at hother
    rcases List.mem_append.mp hother with hold | hnew
    · exact h.deltas other hold
    · rw [List.mem_singleton.mp hnew]
      exact hdelta

/-- A policy that is recorded. -/
theorem Traced.decided (h : s.Traced start) {decision : PolicyDecision}
    (hpolicies : s'.policies = s.policies ++ [decision])
    (hadjustments : s'.adjustments = s.adjustments) (hscore : s'.score = decision.after)
    (hbefore : decision.before = s.score)
    (happlied : decision.before ≠ decision.after → decision.applied = true)
    (hpolicy : decision.policy ∉ demotionPolicies) : s'.Traced start := by
  have hmem : ∀ other ∈ s'.policies, other ∈ s.policies ∨ other = decision := by
    intro other hother
    rw [hpolicies] at hother
    exact (List.mem_append.mp hother).imp_right List.mem_singleton.mp
  refine ⟨?_, hadjustments ▸ h.deltas, fun other hother => ?_, fun other hother => ?_⟩
  · rw [hadjustments, hpolicies, List.map_append, List.map_singleton, ← List.append_assoc, hbefore,
      hscore]
    exact h.linked.concat decision.after
  · rcases hmem other hother with hold | rfl
    · exact h.applied other hold
    · exact happlied
  · rcases hmem other hother with hold | rfl
    · exact h.scores other hold
    · exact hpolicy

end Scoring

namespace FusionEngine

variable (engine : FusionEngine) (inputs : FusionInputs) (context : ThreatContext)
variable {start : ℚ} {s : Scoring}

theorem traced_calibrate (h : s.Traced start) (hpolicies : s.policies = []) :
    (engine.calibrate inputs s).Traced start ∧ (engine.calibrate inputs s).policies = [] := by
  rw [calibrate]
  cases engine.calibrator with
  | none => exact ⟨h, hpolicies⟩
  | some calibrator =>
    by_cases hmature : 0.5 ≤ inputs.baselineConfidence
    · simp only [if_pos hmature]
      exact ⟨h.adjusted hpolicies rfl rfl rfl rfl rfl, hpolicies⟩
    · simp only [if_neg hmature]
      exact ⟨h, hpolicies⟩

theorem traced_discountLegitimate (h : s.Traced start) (hpolicies : s.policies = []) :
    (discountLegitimate inputs s).Traced start :=
  h.adjusted hpolicies rfl rfl rfl rfl rfl

theorem traced_upliftThreat (h : s.Traced start) (hpolicies : s.policies = []) :
    (engine.upliftThreat context s).Traced start := by
  have hconfidence : ∀ confidence, Scoring.Traced start { s with confidence := confidence } :=
    fun _ => ⟨h.linked, h.deltas, h.applied, h.scores⟩
  rw [upliftThreat]
  cases context.status with
  | matched =>
    cases context.score with
    | none => exact h
    | some threat => exact h.adjusted hpolicies rfl rfl rfl rfl rfl
  | unavailable => exact hconfidence _
  | stale => exact hconfidence _
  | disabled => exact h
  | noMatch => exact h

theorem traced_floorWatch (h : s.Traced start) : (engine.floorWatch inputs s).Traced start := by
  rw [floorWatch]
  split_ifs
  · exact h.decided rfl rfl rfl rfl (fun _ => rfl) (by simp [demotionPolicies])
  · exact h

theorem traced_capMarket (h : s.Traced start) : (engine.capMarket inputs s).Traced start := by
  rw [capMarket]
  by_cases hmarket : inputs.MarketEvidence
  · rw [if_neg (not_not.mpr hmarket)]
    exact h.decided rfl rfl rfl rfl (fun hne => absurd rfl hne) (by simp [demotionPolicies])
  · rw [if_pos hmarket]
    exact h.decided rfl rfl rfl rfl (fun hne => decide_eq_true hne) (by simp [demotionPolicies])

theorem traced_capThreat (threatBefore : ℚ) (h : s.Traced start) :
    (engine.capThreat context threatBefore s).Traced start := by
  rw [capThreat]
  split_ifs
  · exact h.decided rfl rfl rfl rfl (fun hne => decide_eq_true hne) (by simp [demotionPolicies])
  · exact h

/-- **Everything that changes the score is recorded.** -/
theorem traced_scoring :
    (engine.scoring inputs context).Traced (clamp (engine.rawWeightedScore inputs)) := by
  have hfirst : Scoring.Traced (clamp (engine.rawWeightedScore inputs))
      { score := clamp (engine.rawWeightedScore inputs), confidence := inputs.confidence } :=
    ⟨.nil _, fun _ h => absurd h List.not_mem_nil, fun _ h => absurd h List.not_mem_nil,
      fun _ h => absurd h List.not_mem_nil⟩
  obtain ⟨hcalibrated, hpolicies⟩ := engine.traced_calibrate inputs hfirst rfl
  have hdiscounted : (discountLegitimate inputs (engine.calibratedScoring inputs)).Traced _ :=
    traced_discountLegitimate inputs hcalibrated hpolicies
  have huplifted := engine.traced_upliftThreat context hdiscounted hpolicies
  exact engine.traced_capThreat context _
    (engine.traced_capMarket inputs (engine.traced_floorWatch inputs huplifted))

/-- The discount is always recorded. -/
theorem scoring_adjustments_ne_nil : (engine.scoring inputs context).adjustments ≠ [] := by
  have hdiscounted : (discountLegitimate inputs (engine.calibratedScoring inputs)).adjustments ≠ [] :=
    List.append_ne_nil_of_right_ne_nil _ (List.cons_ne_nil _ _)
  have huplifted : ∀ s : Scoring, s.adjustments ≠ [] →
      (engine.upliftThreat context s).adjustments ≠ [] := by
    intro s hne
    rw [upliftThreat]
    cases context.status <;> cases context.score <;> first
      | exact hne
      | exact List.append_ne_nil_of_right_ne_nil _ (List.cons_ne_nil _ _)
  have hpolicies : ∀ (threatBefore : ℚ) (s : Scoring), (engine.capThreat context threatBefore
      (engine.capMarket inputs (engine.floorWatch inputs s))).adjustments = s.adjustments := by
    intro threatBefore s
    have hcap : ∀ s, (engine.capThreat context threatBefore s).adjustments = s.adjustments := by
      intro s
      rw [capThreat]
      split_ifs <;> rfl
    have hmarket : ∀ s, (engine.capMarket inputs s).adjustments = s.adjustments := by
      intro s
      rw [capMarket]
      split_ifs <;> rfl
    rw [hcap, hmarket, floorWatch]
    split_ifs <;> rfl
  rw [scoring, hpolicies]
  exact huplifted _ hdiscounted

/-! ## The components -/

variable {engine inputs}
variable {components : List TraceComponent}

/-- A component that is there has its share of the weights, a missing one has none. -/
theorem traceComponent_eq_ok {item : String × ℚ} {component : TraceComponent}
    (h : engine.traceComponent inputs item = .ok component) :
    (∃ value, inputs.value item.1 = some value ∧ component.missing = false ∧
      component.effectiveNormalizedWeight = item.2 / engine.availableWeight inputs ∧
      component.signedWeightedContribution =
        value * (item.2 / engine.availableWeight inputs)) ∨
    (inputs.value item.1 = none ∧ component.missing = true ∧
      component.effectiveNormalizedWeight = 0 ∧ component.signedWeightedContribution = 0) := by
  rw [traceComponent] at h
  cases hvalue : inputs.value item.1 with
  | none =>
    rw [hvalue] at h
    rw [← Except.ok.inj h]
    exact Or.inr ⟨rfl, rfl, rfl, rfl⟩
  | some value =>
    rw [hvalue] at h
    by_cases hzero : engine.availableWeight inputs = 0
    · simp only [if_pos hzero] at h
      exact absurd h (by simp)
    · simp only [if_neg hzero] at h
      rw [← Except.ok.inj h]
      exact Or.inl ⟨value, rfl, rfl, rfl, rfl⟩

/-- The sums over components are sums over what is present, divided by the available weight. -/
theorem sums_traceComponents {items : List (String × ℚ)}
    (h : List.Forall₂ (fun item component => engine.traceComponent inputs item = .ok component) items
      components) :
    (components.map TraceComponent.signedWeightedContribution).sum =
        ((items.filterMap fun item => (inputs.value item.1).map fun value => (item.2, value)).map
          fun item => item.1 * item.2).sum / engine.availableWeight inputs ∧
      ((components.filter fun component => !component.missing).map
          TraceComponent.effectiveNormalizedWeight).sum =
        ((items.filterMap fun item => (inputs.value item.1).map fun value => (item.2, value)).map
          Prod.fst).sum / engine.availableWeight inputs := by
  induction h with
  | nil => simp
  | @cons item component items components hitem _ ih =>
    obtain ⟨hcontributions, hweights⟩ := ih
    rcases traceComponent_eq_ok hitem with
      ⟨value, hvalue, hmissing, hweight, hcontribution⟩ | ⟨hvalue, hmissing, -, hcontribution⟩
    · have hterm : value * (item.2 / engine.availableWeight inputs) =
          item.2 * value / engine.availableWeight inputs := by ring
      simp only [List.map_cons, List.sum_cons, List.filterMap_cons, hvalue, Option.map_some,
        List.filter_cons, hmissing, Bool.not_false, if_true, hcontribution, hweight, hcontributions,
        hweights, hterm, add_div, and_self]
    · simp only [List.map_cons, List.sum_cons, List.filterMap_cons, hvalue, Option.map_none,
        List.filter_cons, hmissing, Bool.not_true, hcontribution, hcontributions, zero_add, true_and]
      exact hweights

theorem sum_contributions (hne : engine.availableWeight inputs ≠ 0)
    (h : engine.traceComponents inputs = .ok components) :
    (components.map TraceComponent.signedWeightedContribution).sum =
      engine.rawWeightedScore inputs := by
  rw [(sums_traceComponents (Library.Fallible.mapM_eq_ok.mp h)).1, rawWeightedScore, if_neg hne]
  rfl

theorem sum_effectiveWeights (hne : engine.availableWeight inputs ≠ 0)
    (h : engine.traceComponents inputs = .ok components) :
    ((components.filter fun component => !component.missing).map
      TraceComponent.effectiveNormalizedWeight).sum = 1 := by
  rw [(sums_traceComponents (Library.Fallible.mapM_eq_ok.mp h)).2]
  exact div_self hne

theorem effectiveWeight_of_missing (h : engine.traceComponents inputs = .ok components)
    {component : TraceComponent} (hmem : component ∈ components)
    (hmissing : component.missing = true) : component.effectiveNormalizedWeight = 0 := by
  obtain ⟨item, -, hitem⟩ := Library.Fallible.exists_of_mem_mapM h hmem
  rcases traceComponent_eq_ok hitem with ⟨value, -, hpresent, -, -⟩ | ⟨-, -, hweight, -⟩
  · rw [hpresent] at hmissing
    exact absurd hmissing (by simp)
  · exact hweight

/-- Weights that are not negative, and a component of positive weight, have a positive sum. -/
theorem availableWeight_ne_zero (hweights : ∀ item ∈ engine.weights.items, 0 ≤ item.2)
    {item : String × ℚ} (hitem : item ∈ engine.weights.items) (hpositive : 0 < item.2)
    (hvalue : inputs.value item.1 ≠ none) : engine.availableWeight inputs ≠ 0 := by
  obtain ⟨value, hsome⟩ := Option.ne_none_iff_exists'.mp hvalue
  have hmem : item.2 ∈ (engine.presentComponents inputs).map Prod.fst :=
    List.mem_map.mpr ⟨(item.2, value), List.mem_filterMap.mpr ⟨item, hitem, by rw [hsome]; rfl⟩, rfl⟩
  have hnonneg : ∀ weight ∈ (engine.presentComponents inputs).map Prod.fst, 0 ≤ weight := by
    intro weight hweight
    obtain ⟨component, hcomponent, rfl⟩ := List.mem_map.mp hweight
    obtain ⟨other, hother, hmap⟩ := List.mem_filterMap.mp hcomponent
    obtain ⟨_, -, rfl⟩ := Option.map_eq_some_iff.mp hmap
    exact hweights other hother
  exact (hpositive.trans_le (List.single_le_sum hnonneg _ hmem)).ne'

/-! ## The severity -/

variable (engine inputs)

/-- A policy on scores does not demote. -/
theorem foldl_demote_of_scores {policies : List PolicyDecision}
    (h : ∀ decision ∈ policies, decision.policy ∉ demotionPolicies) (level : RiskLevel) :
    policies.foldl PolicyDecision.demote level = level := by
  induction policies with
  | nil => rfl
  | cons decision policies ih =>
    have hpolicy := h decision List.mem_cons_self
    simp only [demotionPolicies, List.mem_cons, List.not_mem_nil, or_false, not_or] at hpolicy
    rw [List.foldl_cons, PolicyDecision.demote, if_neg fun hdemotes => hpolicy.1 hdemotes.2,
      if_neg fun hdemotes => hpolicy.2 hdemotes.2]
    exact ih fun other hother => h other (List.mem_cons_of_mem _ hother)

theorem foldl_demote_demoteCritical (s : Scoring) (level : RiskLevel) :
    (demoteCritical inputs s level).2.foldl PolicyDecision.demote level =
      (demoteCritical inputs s level).1 := by
  rw [demoteCritical]
  split_ifs with h
  · rw [h.1]
    rfl
  · rfl

theorem foldl_demote_demoteMissingMarket (s : Scoring) (level : RiskLevel) :
    (demoteMissingMarket inputs s level).2.foldl PolicyDecision.demote level =
      (demoteMissingMarket inputs s level).1 := by
  rw [demoteMissingMarket]
  split_ifs with h
  · rcases h.2 with rfl | rfl <;> rfl
  · rfl

/-- The recorded demotions lead from the band of the score to the verdict. -/
theorem foldl_demote_verdict :
    ((engine.scoring inputs context).policies ++ (engine.verdict inputs context).2).foldl
        PolicyDecision.demote (engine.severity (engine.scoring inputs context).score) =
      (engine.verdict inputs context).1 := by
  rw [List.foldl_append, foldl_demote_of_scores (engine.traced_scoring inputs context).scores]
  show (_ ++ _ : List PolicyDecision).foldl PolicyDecision.demote _ = _
  rw [List.foldl_append, foldl_demote_demoteCritical, foldl_demote_demoteMissingMarket]
  rfl

/-- A demotion leaves the score and is marked as applied. -/
theorem of_mem_verdict {decision : PolicyDecision} (h : decision ∈ (engine.verdict inputs context).2) :
    decision.before = (engine.scoring inputs context).score ∧
      decision.after = (engine.scoring inputs context).score ∧ decision.applied = true := by
  rcases List.mem_append.mp h with hcritical | hmissing
  · rw [demoteCritical] at hcritical
    split_ifs at hcritical
    · rw [List.mem_singleton.mp hcritical]
      exact ⟨rfl, rfl, rfl⟩
    · exact absurd hcritical List.not_mem_nil
  · rw [demoteMissingMarket] at hmissing
    split_ifs at hmissing
    · rw [List.mem_singleton.mp hmissing]
      exact ⟨rfl, rfl, rfl⟩
    · exact absurd hmissing List.not_mem_nil

/-- **The decision trace replays the score.**  Under weights that are not negative and with a component of
positive weight, the trace of every result of `fuse` explains it. -/
theorem trace_replays (engine : FusionEngine) (inputs : FusionInputs)
    (threatContext : Option ThreatContext) (now : Datetime) (result : FusionResult)
    (hweights : ∀ item ∈ engine.weights.items, 0 ≤ item.2)
    (havailable : ∃ item ∈ engine.weights.items, 0 < item.2 ∧ inputs.value item.1 ≠ none)
    (hfuse : engine.fuse inputs threatContext now = .ok result) :
    result.decisionTrace.Replays result.toFusionFields := by
  obtain ⟨item, hitem, hpositive, hvalue⟩ := havailable
  have hne := availableWeight_ne_zero hweights hitem hpositive hvalue
  obtain ⟨components, hcomponents, hfields⟩ := fuse_eq_ok.mp hfuse
  have htraced := engine.traced_scoring inputs (threatContext.getD {})
  have hlinked : Linked (clamp (engine.rawWeightedScore inputs))
      (((engine.scoring inputs (threatContext.getD {})).adjustments.map
          (fun adjustment => (adjustment.before, adjustment.after)) ++
        (engine.scoring inputs (threatContext.getD {})).policies.map
          (fun decision => (decision.before, decision.after))) ++
        (engine.verdict inputs (threatContext.getD {})).2.map
          fun decision => (decision.before, decision.after))
      (engine.scoring inputs (threatContext.getD {})).score := by
    refine htraced.linked.append_idle fun step hstep => ?_
    obtain ⟨decision, hdecision, rfl⟩ := List.mem_map.mp hstep
    obtain ⟨hbefore, hafter, -⟩ := engine.of_mem_verdict inputs (threatContext.getD {}) hdecision
    rw [hbefore, hafter]
  rw [List.append_assoc, ← List.map_append] at hlinked
  rw [hfields]
  exact
    { contributions := sum_contributions hne hcomponents
      availableWeights := sum_effectiveWeights hne hcomponents
      missingWeights := fun component => effectiveWeight_of_missing hcomponents
      nonempty := List.append_ne_nil_of_left_ne_nil (mt List.map_eq_nil_iff.mp
        (engine.scoring_adjustments_ne_nil inputs (threatContext.getD {}))) _
      linked := hlinked
      deltas := htraced.deltas
      fusionScore := rfl
      contextAdjustedRisk := rfl
      applied := fun decision hdecision hne => by
        rcases List.mem_append.mp hdecision with hscores | hdemotion
        · exact htraced.applied decision hscores hne
        · exact (engine.of_mem_verdict inputs (threatContext.getD {}) hdemotion).2.2
      severity := engine.foldl_demote_verdict inputs (threatContext.getD {}) }

end FusionEngine

/-- The trace of a minute whose market score is missing, under a certain match. -/
theorem trace_replays_missing_market :
    ∃ result, ({} : FusionEngine).fuse (minuteInputs none (some 0.9)) (some certainMatch) 0 =
        .ok result ∧ result.decisionTrace.Replays result.toFusionFields := by
  have hinputs : (minuteInputs none (some 0.9)).InRange :=
    minuteInputs_inRange (by simp) (by norm_num [InUnit])
  obtain ⟨result, hresult⟩ := FusionEngine.fuse_returns positive_default (by norm_num)
    (by norm_num) hinputs (some certainMatch) 0
  refine ⟨result, hresult, FusionEngine.trace_replays {} (minuteInputs none (some 0.9))
    (some certainMatch) 0 result (fun item hitem => (positive_default item hitem).le)
    ⟨("coordination_score", 0.18), ?_, by norm_num, ?_⟩ hresult⟩
  · decide +kernel
  · decide +kernel

end Intelligence
end Scam2Market
