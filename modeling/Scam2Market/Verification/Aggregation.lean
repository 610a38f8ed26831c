import Scam2Market.Library.Lists
import Scam2Market.Verification.Hindsight
import Scam2Market.Verification.NarrativeService

/-!
# What a narrative is credited with

The summary of a narrative takes the result of its verifications that takes precedence, their highest risk
and their highest legitimate event score.

* `assigned_risk_le`: the risk of a summary is at least that of its result.
* `summary_result_iff`, `legitimateEventScore_pos_iff`: when the result is that all is supported, and when
  there is a score.
* `credited_iff_supported`: only a supported narrative has a score exactly when a claim that has one comes
  with claims that are all supported.
* `half_true_narrative`: a narrative with a claim that is supported and one that is contradicted.
-/

namespace Scam2Market
namespace Verification

open Library (foldl_attained foldl_dominates)

/-! ## The aggregations -/

section Aggregations

variable {first item : ClaimVerification} {rest : List ClaimVerification}

theorem aggregateResult_attained (first : ClaimVerification) (rest : List ClaimVerification) :
    ∃ item ∈ first :: rest, aggregateResult first rest = item.result := by
  have hstep : ∀ (result : VerificationResult) (item : ClaimVerification),
      (if precedence result < precedence item.result then item.result else result) = result ∨
        (if precedence result < precedence item.result then item.result else result) = item.result := by
    intro result item
    split_ifs
    · exact Or.inr rfl
    · exact Or.inl rfl
  rcases foldl_attained hstep rest first.result with hfirst | ⟨item, hitem, hresult⟩
  · exact ⟨first, List.mem_cons_self, hfirst⟩
  · exact ⟨item, List.mem_cons_of_mem first hitem, hresult⟩

theorem precedence_le_aggregateResult (hitem : item ∈ first :: rest) :
    precedence item.result ≤ precedence (aggregateResult first rest) := by
  have hstep : ∀ (result : VerificationResult) (item : ClaimVerification),
      precedence result ≤ precedence
          (if precedence result < precedence item.result then item.result else result) ∧
        precedence item.result ≤ precedence
          (if precedence result < precedence item.result then item.result else result) := by
    intro result item
    split_ifs with hlt
    · exact ⟨hlt.le, le_rfl⟩
    · exact ⟨le_rfl, not_lt.mp hlt⟩
  obtain ⟨hfirst, hrest⟩ := foldl_dominates (fun result result' => precedence result ≤ precedence result')
    ClaimVerification.result (fun _ => le_rfl) (fun _ _ _ => le_trans) hstep rest first.result
  rcases List.mem_cons.mp hitem with rfl | hitem
  · exact hfirst
  · exact hrest item hitem

/-- The result with the least precedence is that of all verifications. -/
theorem aggregateResult_eq_supportedBeforeAlert_iff :
    aggregateResult first rest = .supportedBeforeAlert ↔
      ∀ item ∈ first :: rest, item.result = .supportedBeforeAlert := by
  have hleast : ∀ result : VerificationResult, precedence result ≤ 1 → result = .supportedBeforeAlert := by
    intro result
    cases result <;> decide
  constructor
  · intro h item hitem
    have hle := precedence_le_aggregateResult hitem
    rw [h] at hle
    exact hleast _ hle
  · intro h
    obtain ⟨item, hitem, hresult⟩ := aggregateResult_attained first rest
    exact hresult.trans (h item hitem)

theorem highest_attained (quantity : ClaimVerification → ℚ) (first : ClaimVerification)
    (rest : List ClaimVerification) :
    ∃ item ∈ first :: rest, highest quantity first rest = quantity item := by
  rcases foldl_attained (fun value item => max_choice value (quantity item)) rest (quantity first) with
    hfirst | ⟨item, hitem, hvalue⟩
  · exact ⟨first, List.mem_cons_self, hfirst⟩
  · exact ⟨item, List.mem_cons_of_mem first hitem, hvalue⟩

theorem le_highest (quantity : ClaimVerification → ℚ) (hitem : item ∈ first :: rest) :
    quantity item ≤ highest quantity first rest := by
  obtain ⟨hfirst, hrest⟩ := foldl_dominates (fun value value' => value ≤ value') quantity
    (fun _ => le_rfl) (fun _ _ _ => le_trans)
    (fun value item => ⟨le_max_left value (quantity item), le_max_right value (quantity item)⟩)
    rest (quantity first)
  rcases List.mem_cons.mp hitem with rfl | hitem
  · exact hfirst
  · exact hrest item hitem

end Aggregations

/-! ## The risk of a result -/

/-- Verdicts with one result have one risk. -/
theorem claimRisk_eq_of_result_eq {support conflict future : List Scored} {complete : Bool}
    {candidates : List DisclosureCandidate} {support' conflict' future' : List Scored} {complete' : Bool}
    {candidates' : List DisclosureCandidate}
    (h : (verdictOf support conflict future complete candidates).result =
      (verdictOf support' conflict' future' complete' candidates').result) :
    (verdictOf support conflict future complete candidates).claimRisk =
      (verdictOf support' conflict' future' complete' candidates').claimRisk := by
  have hrisk : ∀ support conflict future complete candidates,
      (verdictOf support conflict future complete candidates).claimRisk =
        match (verdictOf support conflict future complete candidates).result with
        | .conflicting => 1
        | .supportedBeforeAlert => 0.15
        | .supportedAfterAlert => 0.75
        | .unknown => 0.50
        | .unsupported => 0.90 := by
    intro support conflict future complete candidates
    unfold verdictOf
    split_ifs <;> rfl
  rw [hrisk, hrisk, h]

/-- The risk of a summary is at least the one that the verifier assigns to its result. -/
def CoversRisk (summary : VerificationSummary) : Prop :=
  ∀ support conflict future complete candidates,
    (verdictOf support conflict future complete candidates).result = summary.result →
      (verdictOf support conflict future complete candidates).claimRisk ≤ summary.claimRisk

/-- Only a narrative that is supported has a legitimate event score. -/
def CreditsOnlySupport (summary : VerificationSummary) : Prop :=
  0 < summary.legitimateEventScore → summary.result = .supportedBeforeAlert

/-! ## Claims that are supported -/

namespace TimeBoundedClaimVerifier

variable (verifier : TimeBoundedClaimVerifier) (claim : Claim) (alertTime : Datetime)

/-- The candidate reaches the threshold and was available at the alert. -/
def IsEligible (candidate : DisclosureCandidate) : Prop :=
  verifier.Reaches claim candidate ∧ candidate.availableAt ≤ alertTime

/-- An eligible candidate does not conflict with the claim. -/
def IsSupport (candidate : DisclosureCandidate) : Prop :=
  verifier.IsEligible claim alertTime candidate ∧ conflictReasons claim candidate = []

/-- An eligible candidate conflicts with the claim. -/
def IsConflict (candidate : DisclosureCandidate) : Prop :=
  verifier.IsEligible claim alertTime candidate ∧ conflictReasons claim candidate ≠ []

instance (candidate : DisclosureCandidate) : Decidable (verifier.IsSupport claim alertTime candidate) :=
  inferInstanceAs (Decidable ((_ ∧ _) ∧ _))

instance (candidate : DisclosureCandidate) :
    Decidable (verifier.IsConflict claim alertTime candidate) :=
  inferInstanceAs (Decidable ((_ ∧ _) ∧ _ ≠ _))

/-- A candidate supports the claim, and none conflicts with it. -/
def IsSupported (candidates : List DisclosureCandidate) : Prop :=
  (∃ candidate ∈ candidates, verifier.IsSupport claim alertTime candidate) ∧
    ∀ candidate ∈ candidates, ¬verifier.IsConflict claim alertTime candidate

/-- A candidate that has any reliability supports the claim, and none conflicts with it. -/
def IsCredited (candidates : List DisclosureCandidate) : Prop :=
  (∃ candidate ∈ candidates,
    verifier.IsSupport claim alertTime candidate ∧ 0 < candidate.reliability) ∧
    ∀ candidate ∈ candidates, ¬verifier.IsConflict claim alertTime candidate

instance (candidates : List DisclosureCandidate) :
    Decidable (verifier.IsSupported claim alertTime candidates) :=
  inferInstanceAs (Decidable ((∃ candidate ∈ candidates, _) ∧ ∀ candidate ∈ candidates, _))

instance (candidates : List DisclosureCandidate) :
    Decidable (verifier.IsCredited claim alertTime candidates) :=
  inferInstanceAs (Decidable ((∃ candidate ∈ candidates, _) ∧ ∀ candidate ∈ candidates, _))

variable {verifier claim alertTime} {candidates : List DisclosureCandidate}

theorem mem_before {scored : Scored} :
    scored ∈ verifier.before claim alertTime candidates ↔
      scored.1 ∈ candidates ∧ verifier.IsEligible claim alertTime scored.1 ∧
        scored.2 = structuredSimilarity claim scored.1 := by
  simp only [before, matching, List.mem_filter, List.mem_map, decide_eq_true_eq, IsEligible]
  constructor
  · rintro ⟨⟨candidate, ⟨hmem, hreaches⟩, rfl⟩, havailable⟩
    exact ⟨hmem, ⟨hreaches, havailable⟩, rfl⟩
  · rintro ⟨hmem, ⟨hreaches, havailable⟩, hscore⟩
    exact ⟨⟨scored.1, ⟨hmem, hreaches⟩, Prod.ext rfl hscore.symm⟩, havailable⟩

theorem conflict_eq_nil_iff_forall :
    verifier.conflict claim alertTime candidates = [] ↔
      ∀ candidate ∈ candidates, ¬verifier.IsConflict claim alertTime candidate := by
  rw [conflict, List.filter_eq_nil_iff]
  constructor
  · rintro h candidate hcandidate ⟨heligible, hreasons⟩
    have hscored : (candidate, structuredSimilarity claim candidate) ∈
        verifier.before claim alertTime candidates := mem_before.mpr ⟨hcandidate, heligible, rfl⟩
    have hnot := h _ hscored
    rw [decide_eq_true_iff] at hnot
    exact hnot hreasons
  · intro h scored hscored hreasons
    obtain ⟨hmem, heligible, -⟩ := mem_before.mp hscored
    rw [decide_eq_true_iff] at hreasons
    exact h scored.1 hmem ⟨heligible, hreasons⟩

theorem mem_support {scored : Scored} :
    scored ∈ verifier.support claim alertTime candidates ↔
      scored.1 ∈ candidates ∧ verifier.IsSupport claim alertTime scored.1 ∧
        scored.2 = structuredSimilarity claim scored.1 := by
  rw [support, List.mem_filter, mem_before, decide_eq_true_eq, IsSupport]
  tauto

theorem support_ne_nil_iff :
    verifier.support claim alertTime candidates ≠ [] ↔
      ∃ candidate ∈ candidates, verifier.IsSupport claim alertTime candidate := by
  constructor
  · intro hne
    obtain ⟨scored, hscored⟩ := List.exists_mem_of_ne_nil _ hne
    obtain ⟨hmem, hsupport, -⟩ := mem_support.mp hscored
    exact ⟨scored.1, hmem, hsupport⟩
  · rintro ⟨candidate, hmem, hsupport⟩
    have hscored : (candidate, structuredSimilarity claim candidate) ∈
        verifier.support claim alertTime candidates := mem_support.mpr ⟨hmem, hsupport, rfl⟩
    exact List.ne_nil_of_mem hscored

theorem bestReliability_pos_iff {items : List Scored} :
    0 < bestReliability items ↔ ∃ item ∈ items, 0 < item.1.reliability := by
  induction items with
  | nil => simp [bestReliability]
  | cons item items ih =>
    have hstep : bestReliability (item :: items) = max item.1.reliability (bestReliability items) := rfl
    rw [hstep, lt_max_iff, ih, List.exists_mem_cons_iff]

theorem result_judge_iff {text : ChunkId → String} {coverage : JsonObject} {now : Datetime} :
    (verifier.judge text claim alertTime candidates coverage now).result = .supportedBeforeAlert ↔
      verifier.IsSupported claim alertTime candidates := by
  show (verdictOf _ _ _ _ _).result = _ ↔ _
  rw [result_eq_supportedBeforeAlert_iff, conflict_eq_nil_iff_forall, support_ne_nil_iff, and_comm]
  rfl

theorem legitimateEventScore_judge_pos_iff {text : ChunkId → String} {coverage : JsonObject}
    {now : Datetime} :
    0 < (verifier.judge text claim alertTime candidates coverage now).legitimateEventScore ↔
      verifier.IsCredited claim alertTime candidates := by
  show 0 < (verdictOf _ _ _ _ _).legitimateEventScore ↔ _
  have hbest : 0 < bestReliability (verifier.support claim alertTime candidates) ↔
      ∃ candidate ∈ candidates,
        verifier.IsSupport claim alertTime candidate ∧ 0 < candidate.reliability := by
    rw [bestReliability_pos_iff]
    constructor
    · rintro ⟨scored, hscored, hpos⟩
      obtain ⟨hmem, hsupport, -⟩ := mem_support.mp hscored
      exact ⟨scored.1, hmem, hsupport, hpos⟩
    · rintro ⟨candidate, hmem, hsupport, hpos⟩
      exact ⟨(candidate, structuredSimilarity claim candidate), mem_support.mpr ⟨hmem, hsupport, rfl⟩,
        hpos⟩
  rw [legitimateEventScore_eq, IsCredited, ← conflict_eq_nil_iff_forall, ← hbest]
  split_ifs with hconflict
  · rw [and_iff_left hconflict]
  · exact iff_of_false (lt_irrefl 0) fun h => hconflict h.2

end TimeBoundedClaimVerifier

/-! ## The summary of a narrative -/

namespace NarrativeVerificationService

variable (service : NarrativeVerificationService) (surroundings : Surroundings) (event : NarrativeEvent)

/-- The candidates that are fetched for a claim. -/
def retrieved (claim : Claim) : List DisclosureCandidate :=
  surroundings.disclosures.candidates claim.assetId event.eventTime service.verifier.lookbackDays
    service.verifier.futureDays

/-- The claim is supported at the time of the event. -/
def IsSupported (claim : Claim) : Prop :=
  service.verifier.IsSupported claim event.eventTime (service.retrieved surroundings event claim)

/-- The claim earns a legitimate event score. -/
def IsCredited (claim : Claim) : Prop :=
  service.verifier.IsCredited claim event.eventTime (service.retrieved surroundings event claim)

instance (claim : Claim) : Decidable (service.IsSupported surroundings event claim) :=
  inferInstanceAs (Decidable (service.verifier.IsSupported _ _ _))

instance (claim : Claim) : Decidable (service.IsCredited surroundings event claim) :=
  inferInstanceAs (Decidable (service.verifier.IsCredited _ _ _))

/-- A narrative with a claim that earns a score has no claim that is not supported. -/
def SupportedThroughout : Prop :=
  (∃ claim ∈ service.claims event, service.IsCredited surroundings event claim) →
    ∀ claim ∈ service.claims event, service.IsSupported surroundings event claim

variable {service surroundings event} {first : ClaimVerification} {rest : List ClaimVerification}

theorem assigned_risk_le (h : service.verifications surroundings event = first :: rest) :
    CoversRisk (service.summary event first rest) := by
  intro support conflict future complete candidates hresult
  obtain ⟨item, hitem, haggregate⟩ := aggregateResult_attained first rest
  have hjudged : item ∈ service.verifications surroundings event := h ▸ hitem
  obtain ⟨claim, -, rfl⟩ := List.mem_map.mp hjudged
  have hrisk : (verdictOf support conflict future complete candidates).claimRisk =
      (service.verify surroundings event claim).claimRisk :=
    claimRisk_eq_of_result_eq (hresult.trans haggregate)
  rw [hrisk]
  exact le_highest ClaimVerification.claimRisk hitem

theorem summary_result_iff (h : service.verifications surroundings event = first :: rest) :
    (service.summary event first rest).result = .supportedBeforeAlert ↔
      ∀ claim ∈ service.claims event, service.IsSupported surroundings event claim := by
  show aggregateResult first rest = _ ↔ _
  rw [aggregateResult_eq_supportedBeforeAlert_iff, ← h, verifications, List.forall_mem_map]
  exact forall₂_congr fun claim _ => TimeBoundedClaimVerifier.result_judge_iff

theorem legitimateEventScore_pos_iff (h : service.verifications surroundings event = first :: rest) :
    0 < (service.summary event first rest).legitimateEventScore ↔
      ∃ claim ∈ service.claims event, service.IsCredited surroundings event claim := by
  show 0 < highest ClaimVerification.legitimateEventScore first rest ↔ _
  constructor
  · intro hpos
    obtain ⟨item, hitem, hvalue⟩ := highest_attained ClaimVerification.legitimateEventScore first rest
    rw [hvalue] at hpos
    rw [← h] at hitem
    obtain ⟨claim, hclaim, rfl⟩ := List.mem_map.mp hitem
    exact ⟨claim, hclaim, TimeBoundedClaimVerifier.legitimateEventScore_judge_pos_iff.mp hpos⟩
  · rintro ⟨claim, hclaim, hcredited⟩
    have hitem : service.verify surroundings event claim ∈ first :: rest :=
      h ▸ List.mem_map_of_mem hclaim
    exact (TimeBoundedClaimVerifier.legitimateEventScore_judge_pos_iff.mpr hcredited).trans_le
      (le_highest ClaimVerification.legitimateEventScore hitem)

/-- **Only a supported narrative is credited**, and its risk is at least that of its result, exactly when a
claim that earns a score comes with claims that are all supported. -/
theorem credited_iff_supported (service : NarrativeVerificationService) (surroundings : Surroundings)
    (event : NarrativeEvent) {first : ClaimVerification} {rest : List ClaimVerification}
    (h : service.verifications surroundings event = first :: rest) :
    (CreditsOnlySupport (service.summary event first rest) ∧
        CoversRisk (service.summary event first rest)) ↔
      service.SupportedThroughout surroundings event := by
  rw [and_iff_left (assigned_risk_le h), CreditsOnlySupport, legitimateEventScore_pos_iff h,
    summary_result_iff h]
  rfl

/-! ## A true claim beside a false one -/

/-- A service with the default settings; the hash of a claim is its tokens and polarity. -/
def plainService : NarrativeVerificationService where
  verifier := {}
  extractor := { sha256 := fun canonical =>
    " ".intercalate (canonical.polarity :: canonical.contentTokens) }
  text := fun _ => ""

/-- The announcement, an hour before the alert, is stored. -/
def announced : Surroundings where
  disclosures := {
    disclosures := (DisclosureTables.rowOf { priorListing.2.1 with
      firstObservedAt := some (timedeltaSeconds (-3600))
      ingestedAt := some (timedeltaSeconds (-3600)) }).toOption.toList
    chunks := priorListing.2.2 }
  coverage := fun _ _ => .empty
  now := 0

/-- A narrative with a claim that the announcement supports, and one that it contradicts. -/
def halfTrue : NarrativeEvent where
  eventType := "narrative.clustered"
  eventTime := 0
  narrative := {
    narrativeId := "narrative", narrativeRevisionId := "revision", scopeId := "LIVE"
    assetId := "S2MUSDT"
    summary := "S2M exchange listing partnership announced today. " ++
      "S2M exchange listing partnership was denied today." }
  featureSnapshot := .null
  graphFeatures := .empty

theorem credited_iff_supported_halfTrue :
    ∃ first rest, plainService.verifications announced halfTrue = first :: rest ∧
      ((CreditsOnlySupport (plainService.summary halfTrue first rest) ∧
          CoversRisk (plainService.summary halfTrue first rest)) ↔
        plainService.SupportedThroughout announced halfTrue) :=
  ⟨_, _, rfl, credited_iff_supported plainService announced halfTrue rfl⟩

/-- The narrative is conflicting, and it is credited with the announcement. -/
theorem half_true_narrative :
    ¬∀ (service : NarrativeVerificationService) (surroundings : Surroundings) (event : NarrativeEvent)
        (first : ClaimVerification) (rest : List ClaimVerification),
      service.verifications surroundings event = first :: rest →
      CreditsOnlySupport (service.summary event first rest) ∧
        CoversRisk (service.summary event first rest) := by
  intro h
  obtain ⟨first, rest, hverifications⟩ :
      ∃ first rest, plainService.verifications announced halfTrue = first :: rest := ⟨_, _, rfl⟩
  have hpos := (legitimateEventScore_pos_iff hverifications).mpr (by decide +kernel)
  have hresult := (h plainService announced halfTrue first rest hverifications).1 hpos
  exact absurd ((summary_result_iff hverifications).mp hresult) (by decide +kernel)

end NarrativeVerificationService

end Verification
end Scam2Market
