import Scam2Market.Verification.Hindsight

/-!
# Documents that come too late and do not support the claim

The verifier has no use for a document that becomes available after the alert and has no chunk that
reaches the threshold (`Ignorable`).  It still takes the presence of such a document for the presence of
sources.

* `filter_retrieve_eq`: apart from ignorable documents two stores retrieve the same, in the same order.
* `Unnoticed`: the sources are incomplete, or another document is retrieved, or both stores or none have
  an ignorable document within the horizon.
* `unchanged_iff`: the verification is unchanged if and only if the difference goes unnoticed.
-/

namespace Scam2Market
namespace Verification

open Library (group groupOf ties)

section Irrelevance

variable (verifier : TimeBoundedClaimVerifier) (text : ChunkId → String) (claim : Claim)
  (alertTime : Datetime)

/-- The document comes after the alert, and none of its chunks reaches the threshold. -/
def Ignorable (item : StoredDocument) : Prop :=
  Late alertTime item ∧ ∀ chunk ∈ item.2, ¬verifier.Reaches claim (candidateOf item.1 chunk)

instance (item : StoredDocument) : Decidable (Ignorable verifier claim alertTime item) :=
  inferInstanceAs (Decidable (_ ∧ _))

/-- A document has chunks, is about the asset and published within the horizon. -/
def Retrievable (item : StoredDocument) : Prop :=
  item.2 ≠ [] ∧ InScope claim.assetId (alertTime - timedeltaSeconds (86400 * verifier.lookbackDays))
    (alertTime + timedeltaSeconds (86400 * verifier.futureDays)) item.1

/-- The documents of two chunks with one id are versions of one document. -/
def ChunksKeyed (text : ChunkId → String) (repository : InMemoryVerificationRepository) : Prop :=
  ∀ item ∈ repository.stored, ∀ item' ∈ repository.stored, ∀ chunk ∈ item.2, ∀ chunk' ∈ item'.2,
    text chunk.chunkId = text chunk'.chunkId → item.1.groupKey = item'.1.groupKey

/-- A document that is not ignorable, and that is looked at, is retrievable. -/
def RetrievesOther (repository : InMemoryVerificationRepository) : Prop :=
  ∃ k, ∃ item ∈ versionsOf alertTime k
    (repository.stored.filter fun item => ¬Ignorable verifier claim alertTime item),
      Retrievable verifier claim alertTime item

/-- An ignorable document is retrievable. -/
def RetrievesIgnorable (repository : InMemoryVerificationRepository) : Prop :=
  ∃ item ∈ repository.stored, Ignorable verifier claim alertTime item ∧
    Retrievable verifier claim alertTime item

/-- The sources are incomplete, or a document that both stores have is retrieved, or both or none of the
stores have an ignorable document that is. -/
def Unnoticed (repository repository' : InMemoryVerificationRepository) : Prop :=
  ((repository.sourceCoverage claim.assetId).getD "complete" (.bool true)).truthy = false ∨
    RetrievesOther verifier claim alertTime repository ∨
    (RetrievesIgnorable verifier claim alertTime repository ↔
      RetrievesIgnorable verifier claim alertTime repository')

/-- The outputs that the verdict and the evidence consist of. -/
def Unchanged (verification verification' : ClaimVerification) : Prop :=
  verification.result = verification'.result ∧
    verification.claimRisk = verification'.claimRisk ∧
    verification.legitimateEventScore = verification'.legitimateEventScore ∧
    verification.evidence = verification'.evidence

variable {verifier text claim alertTime} {repository repository' : InMemoryVerificationRepository}
  {item : StoredDocument} {candidate : DisclosureCandidate}

/-! ## What is retrieved -/

theorem listedAt_of_ignorable (item : StoredDocument) (h : Ignorable verifier claim alertTime item) :
    alertTime < item.1.listedAt :=
  listedAt_of_late h.1

theorem mem_of_mem_versionsOf {k : String × String} {rows : List StoredDocument}
    (h : item ∈ versionsOf alertTime k rows) : item ∈ rows ∧ item.1.groupKey = k := by
  have hgroup : item ∈ groupOf (fun item => item.1.groupKey) k rows := by
    rcases List.mem_append.mp h with h | h
    · exact List.mem_of_mem_filter (List.argmax_mem (Option.mem_toList.mp h))
    · exact List.mem_of_mem_filter h
  obtain ⟨hrows, hk⟩ := List.mem_filter.mp hgroup
  exact ⟨hrows, of_decide_eq_true hk⟩

/-- A document that has something to select is one that both stores have. -/
theorem kept_of_selected {q : DisclosureCandidate → Bool}
    (hreaches : ∀ candidate, q candidate = true → verifier.Reaches claim candidate)
    {earliest latest : Datetime} (hmem : candidate ∈ candidatesOf claim.assetId earliest latest item)
    (hq : q candidate = true) :
    ¬Ignorable verifier claim alertTime item ∧
      ∃ chunk ∈ item.2, candidate = candidateOf item.1 chunk := by
  obtain ⟨chunk, hchunk, rfl⟩ := mem_candidatesOf hmem
  exact ⟨fun hignorable => hignorable.2 chunk hchunk (hreaches _ hq), chunk, hchunk, rfl⟩

/-- What reaches the threshold and is selected by the id of a chunk is retrieved from both stores, in the
same order. -/
theorem filter_retrieve_eq
    (h : AgreeApartFrom (Ignorable verifier claim alertTime) repository repository')
    (hkeyed : ChunksKeyed text repository) {q : DisclosureCandidate → Bool} {s : String}
    (hreaches : ∀ candidate, q candidate = true → verifier.Reaches claim candidate)
    (hkey : ∀ candidate, q candidate = true → text candidate.chunkId = s) :
    (verifier.retrieve text claim alertTime repository).filter q =
      (verifier.retrieve text claim alertTime repository').filter q := by
  have hshared : ∀ {store}, store = repository ∨ store = repository' → ∀ item ∈ store.stored,
      ¬Ignorable verifier claim alertTime item → item ∈ repository.stored := by
    rintro store (rfl | rfl) item hitem hnot
    · exact hitem
    · have hfilter : item ∈ store.stored.filter fun item => ¬Ignorable verifier claim alertTime item :=
        List.mem_filter.mpr ⟨hitem, decide_eq_true hnot⟩
      rw [← h] at hfilter
      exact List.mem_of_mem_filter hfilter
  obtain ⟨k, hk⟩ : ∃ k, ∀ item ∈ repository.stored, ∀ chunk ∈ item.2,
      q (candidateOf item.1 chunk) = true → item.1.groupKey = k := by
    by_cases hex : ∃ item ∈ repository.stored, ∃ chunk ∈ item.2, q (candidateOf item.1 chunk) = true
    · obtain ⟨item, hitem, chunk, hchunk, hq⟩ := hex
      refine ⟨item.1.groupKey, fun item' hitem' chunk' hchunk' hq' => ?_⟩
      exact hkeyed item' hitem' item hitem chunk' hchunk' chunk hchunk
        ((hkey _ hq').trans (hkey _ hq).symm)
    · exact ⟨("", ""), fun item hitem chunk hchunk hq => absurd ⟨item, hitem, chunk, hchunk, hq⟩ hex⟩
  -- only the versions of that document have something to select
  have hselected : ∀ store, store = repository ∨ store = repository' →
      (verifier.retrieve text claim alertTime store).filter q =
        ((((versionsOf alertTime k store.stored).filter fun item =>
          ¬Ignorable verifier claim alertTime item).flatMap (horizonOf claim.assetId alertTime
            verifier.lookbackDays verifier.futureDays)).filter q).insertionSort
              fun a b => candidateKey text a ≤ candidateKey text b := by
    intro store hstore
    unfold TimeBoundedClaimVerifier.retrieve InMemoryVerificationRepository.candidates
    dsimp only
    rw [Library.filter_insertionSort, List.flatMap_assoc]
    congr 1
    refine (Library.filter_flatMap_group (fun rows => (selectVersions alertTime rows).flatMap
      (horizonOf claim.assetId alertTime verifier.lookbackDays verifier.futureDays)) rfl
        (k := k) ?_).trans ?_
    · intro k' hne candidate hcandidate
      refine Bool.eq_false_iff.mpr fun hq => ?_
      obtain ⟨item, hitem, hcandidate⟩ := List.mem_flatMap.mp hcandidate
      obtain ⟨hstored, hk'⟩ := mem_of_mem_versionsOf hitem
      obtain ⟨hkept, chunk, hchunk, rfl⟩ := kept_of_selected hreaches hcandidate hq
      exact hne (hk'.symm.trans (hk item (hshared hstore item hstored hkept) chunk hchunk hq))
    · refine Library.filter_flatMap_filter fun item _ hignored candidate hcandidate => ?_
      refine Bool.eq_false_iff.mpr fun hq => ?_
      exact of_decide_eq_false hignored (kept_of_selected hreaches hcandidate hq).1
  rw [hselected repository (Or.inl rfl), hselected repository' (Or.inr rfl),
    h.versionsOf_eq listedAt_of_ignorable]

/-- What reaches the threshold is ranked alike. -/
theorem ranked_eq (h : AgreeApartFrom (Ignorable verifier claim alertTime) repository repository')
    (hkeyed : ChunksKeyed text repository) :
    ranked text (verifier.matching claim (verifier.retrieve text claim alertTime repository)) =
      ranked text (verifier.matching claim (verifier.retrieve text claim alertTime repository')) := by
  refine Library.insertionSort_eq_of_ties _ fun scored => ?_
  rw [Library.ties_byKey (rankKey text), Library.ties_byKey (rankKey text)]
  unfold TimeBoundedClaimVerifier.matching
  rw [List.filter_map, List.filter_map, List.filter_filter, List.filter_filter]
  congr 1
  have hreaches : ∀ candidate, (decide (rankKey text (candidate, structuredSimilarity claim candidate) =
      rankKey text scored) && decide (verifier.Reaches claim candidate)) = true →
        verifier.Reaches claim candidate := fun candidate hq =>
    of_decide_eq_true (Bool.and_eq_true_iff.mp hq).2
  have hchunk : ∀ candidate, (decide (rankKey text (candidate, structuredSimilarity claim candidate) =
      rankKey text scored) && decide (verifier.Reaches claim candidate)) = true →
        text candidate.chunkId = text scored.1.chunkId := fun candidate hq =>
    (Prod.mk.inj (toLex_inj.mp (of_decide_eq_true (Bool.and_eq_true_iff.mp hq).1))).2
  exact filter_retrieve_eq h hkeyed hreaches hchunk

/-! ## The verdict -/

/-- What reaches the threshold in one store does so in the other. -/
theorem matching_subset (h : AgreeApartFrom (Ignorable verifier claim alertTime) repository repository') :
    verifier.matching claim (verifier.retrieve text claim alertTime repository) ⊆
      verifier.matching claim (verifier.retrieve text claim alertTime repository') := by
  intro scored hscored
  obtain ⟨candidate, hcandidate, rfl⟩ := List.mem_map.mp hscored
  obtain ⟨hmem, hreaches⟩ := List.mem_filter.mp hcandidate
  refine List.mem_map.mpr ⟨candidate, List.mem_filter.mpr ⟨?_, hreaches⟩, rfl⟩
  refine h.mem_candidates listedAt_of_ignorable hmem fun item hignorable chunk hchunk heq => ?_
  exact hignorable.2 chunk hchunk (heq ▸ of_decide_eq_true hreaches)

theorem horizonOf_ne_nil_iff : horizonOf claim.assetId alertTime verifier.lookbackDays
    verifier.futureDays item ≠ [] ↔ Retrievable verifier claim alertTime item := by
  unfold horizonOf candidatesOf Retrievable
  split_ifs with hscope
  · simp [hscope]
  · simp [hscope]

variable (verifier text claim alertTime) in
/-- A store yields a candidate by a document of the common part or by an ignorable one. -/
theorem retrieve_ne_nil_iff (repository : InMemoryVerificationRepository) :
    verifier.retrieve text claim alertTime repository ≠ [] ↔
      RetrievesOther verifier claim alertTime repository ∨
        RetrievesIgnorable verifier claim alertTime repository := by
  have hversions : ∀ k, versionsOf alertTime k
      (repository.stored.filter fun item => ¬Ignorable verifier claim alertTime item) =
        (versionsOf alertTime k repository.stored).filter fun item =>
          ¬Ignorable verifier claim alertTime item := fun k => by
    rw [versionsOf, versionsOf, filter_selectVersions listedAt_of_ignorable, filter_groupOf]
  have hexists : verifier.retrieve text claim alertTime repository ≠ [] ↔
      ∃ k, ∃ item ∈ versionsOf alertTime k repository.stored,
        Retrievable verifier claim alertTime item := by
    rw [ne_eq, List.eq_nil_iff_forall_not_mem, not_forall]
    simp only [not_not, TimeBoundedClaimVerifier.retrieve, mem_candidates, ← horizonOf_ne_nil_iff,
      ne_eq, List.eq_nil_iff_forall_not_mem, not_forall]
    constructor
    · rintro ⟨c, k, item, hitem, hc⟩
      exact ⟨k, item, hitem, c, hc⟩
    · rintro ⟨k, item, hitem, c, hc⟩
      exact ⟨c, k, item, hitem, hc⟩
  rw [hexists]
  constructor
  · rintro ⟨k, item, hitem, hretrievable⟩
    by_cases hignorable : Ignorable verifier claim alertTime item
    · exact Or.inr ⟨item, (mem_of_mem_versionsOf hitem).1, hignorable, hretrievable⟩
    · refine Or.inl ⟨k, item, ?_, hretrievable⟩
      rw [hversions]
      exact List.mem_filter.mpr ⟨hitem, decide_eq_true hignorable⟩
  · rintro (⟨k, item, hitem, hretrievable⟩ | ⟨item, hitem, hignorable, hretrievable⟩)
    · rw [hversions] at hitem
      exact ⟨k, item, List.mem_of_mem_filter hitem, hretrievable⟩
    · refine ⟨item.1.groupKey, item, List.mem_append_right _ ?_, hretrievable⟩
      exact List.mem_filter.mpr ⟨List.mem_filter.mpr ⟨hitem, decide_eq_true rfl⟩,
        decide_eq_true (listedAt_of_ignorable item hignorable)⟩

variable (alertTime) in
theorem matching_eq_nil_iff (candidates : List DisclosureCandidate) :
    verifier.matching claim candidates = [] ↔ verifier.conflict claim alertTime candidates = [] ∧
      verifier.support claim alertTime candidates = [] ∧
      verifier.future claim alertTime candidates = [] := by
  unfold TimeBoundedClaimVerifier.conflict TimeBoundedClaimVerifier.support
    TimeBoundedClaimVerifier.future TimeBoundedClaimVerifier.before
  constructor
  · intro hnil
    rw [hnil]
    exact ⟨rfl, rfl, rfl⟩
  · rintro ⟨hconflict, hsupport, hfuture⟩
    refine List.eq_nil_iff_forall_not_mem.mpr fun scored hscored => ?_
    by_cases havailable : scored.1.availableAt ≤ alertTime
    · have hbefore : scored ∈ (verifier.matching claim candidates).filter fun item =>
          item.1.availableAt ≤ alertTime := List.mem_filter.mpr ⟨hscored, decide_eq_true havailable⟩
      by_cases hreasons : conflictReasons claim scored.1 = []
      · exact List.filter_eq_nil_iff.mp hsupport scored hbefore (decide_eq_true hreasons)
      · exact List.filter_eq_nil_iff.mp hconflict scored hbefore (decide_eq_true hreasons)
    · exact List.filter_eq_nil_iff.mp hfuture scored hscored
        (decide_eq_true (not_le.mp havailable))

variable (alertTime) in
/-- Verdicts on candidates of which the same reach the threshold. -/
theorem verdict_agree_iff {candidates candidates' : List DisclosureCandidate} (coverage : JsonObject)
    (hsub : verifier.matching claim candidates ⊆ verifier.matching claim candidates')
    (hsub' : verifier.matching claim candidates' ⊆ verifier.matching claim candidates) :
    ((verifier.verdict claim alertTime candidates coverage).result =
        (verifier.verdict claim alertTime candidates' coverage).result ∧
      (verifier.verdict claim alertTime candidates coverage).claimRisk =
        (verifier.verdict claim alertTime candidates' coverage).claimRisk ∧
      (verifier.verdict claim alertTime candidates coverage).legitimateEventScore =
        (verifier.verdict claim alertTime candidates' coverage).legitimateEventScore) ↔
      verifier.matching claim candidates ≠ [] ∨
        (coverage.getD "complete" (.bool true)).truthy = false ∨
        (candidates = [] ↔ candidates' = []) := by
  have hbefore : verifier.before claim alertTime candidates ⊆
      verifier.before claim alertTime candidates' := List.filter_subset _ hsub
  have hbefore' : verifier.before claim alertTime candidates' ⊆
      verifier.before claim alertTime candidates := List.filter_subset _ hsub'
  refine (verdict_eq_iff ?_ ?_ ?_ ?_).trans ?_
  · exact eq_nil_iff_of_subset (List.filter_subset _ hbefore) (List.filter_subset _ hbefore')
  · exact eq_nil_iff_of_subset (List.filter_subset _ hbefore) (List.filter_subset _ hbefore')
  · exact eq_nil_iff_of_subset (List.filter_subset _ hsub) (List.filter_subset _ hsub')
  · exact le_antisymm (bestReliability_mono (List.filter_subset _ hbefore))
      (bestReliability_mono (List.filter_subset _ hbefore'))
  · rw [ne_eq (verifier.matching claim candidates), matching_eq_nil_iff alertTime,
      not_and_or, not_and_or, or_assoc, or_assoc]

/-- **When late documents without support change nothing.** -/
theorem unchanged_iff (verifier : TimeBoundedClaimVerifier) (text : ChunkId → String) (claim : Claim)
    (alertTime now now' : Datetime)
    (h : AgreeApartFrom (Ignorable verifier claim alertTime) repository repository')
    (hcoverage : repository.sourceCoverage claim.assetId = repository'.sourceCoverage claim.assetId)
    (hkeyed : ChunksKeyed text repository) :
    Unchanged (verifier.verify text claim alertTime repository now)
        (verifier.verify text claim alertTime repository' now') ↔
      Unnoticed verifier claim alertTime repository repository' := by
  have hverdict : Unchanged (verifier.verify text claim alertTime repository now)
      (verifier.verify text claim alertTime repository' now') ↔
        verifier.matching claim (verifier.retrieve text claim alertTime repository) ≠ [] ∨
          ((repository.sourceCoverage claim.assetId).getD "complete" (.bool true)).truthy = false ∨
          (verifier.retrieve text claim alertTime repository = [] ↔
            verifier.retrieve text claim alertTime repository' = []) := by
    have hevidence : (verifier.verify text claim alertTime repository now).evidence =
        (verifier.verify text claim alertTime repository' now').evidence := by
      show verificationEvidence _ _ _ _ = verificationEvidence _ _ _ _
      rw [verificationEvidence, ranked_eq h hkeyed, ← verificationEvidence]
    refine Iff.trans ?_ (verdict_agree_iff alertTime (repository.sourceCoverage claim.assetId)
      (matching_subset h) (matching_subset h.symm))
    unfold Unchanged TimeBoundedClaimVerifier.verify at *
    rw [← hcoverage] at hevidence ⊢
    exact ⟨fun ⟨hresult, hrisk, hscore, _⟩ => ⟨hresult, hrisk, hscore⟩,
      fun ⟨hresult, hrisk, hscore⟩ => ⟨hresult, hrisk, hscore, hevidence⟩⟩
  have hpresent := retrieve_ne_nil_iff verifier text claim alertTime repository
  have hpresent' := retrieve_ne_nil_iff verifier text claim alertTime repository'
  rw [RetrievesOther, ← h, ← RetrievesOther] at hpresent'
  rw [hverdict, Unnoticed]
  -- what reaches the threshold is of a document that both stores have
  have hother : verifier.matching claim (verifier.retrieve text claim alertTime repository) ≠ [] →
      RetrievesOther verifier claim alertTime repository := by
    intro hmatching
    obtain ⟨scored, hscored⟩ := List.exists_mem_of_ne_nil _ hmatching
    obtain ⟨candidate, hcandidate, rfl⟩ := List.mem_map.mp hscored
    obtain ⟨hmem, hreaches⟩ := List.mem_filter.mp hcandidate
    obtain ⟨k, item, hitem, hhorizon⟩ := mem_candidates.mp hmem
    obtain ⟨chunk, hchunk, rfl⟩ := mem_candidatesOf hhorizon
    have hkept : ¬Ignorable verifier claim alertTime item := fun hignorable =>
      hignorable.2 chunk hchunk (of_decide_eq_true hreaches)
    refine ⟨k, item, ?_, horizonOf_ne_nil_iff.mp (List.ne_nil_of_mem hhorizon)⟩
    rw [versionsOf, ← filter_groupOf, ← filter_selectVersions listedAt_of_ignorable]
    exact List.mem_filter.mpr ⟨hitem, decide_eq_true hkept⟩
  by_cases hcommon : RetrievesOther verifier claim alertTime repository
  · refine iff_of_true (Or.inr (Or.inr ?_)) (Or.inr (Or.inl hcommon))
    exact iff_of_false (hpresent.mpr (Or.inl hcommon)) (hpresent'.mpr (Or.inl hcommon))
  · have hignorable := hpresent.trans (or_iff_right hcommon)
    have hignorable' := hpresent'.trans (or_iff_right hcommon)
    rw [or_iff_right (fun hmatching => hcommon (hother hmatching)), or_iff_right hcommon, ← hignorable,
      ← hignorable', ne_eq, ne_eq, not_iff_not]

end Irrelevance

/-! ## Routine maintenance -/

/-- A notice that says nothing about the claim, two hours after the alert. -/
def maintenanceNotice : String × StoredDocument :=
  ("maintenance", listingDisclosure "maintenance"
    "The exchange scheduled routine wallet maintenance for another token" (timedeltaSeconds 7200))

theorem ignorable_maintenance : Ignorable {} listingClaim 0 maintenanceNotice.2 := by
  decide +kernel

theorem filter_maintenance :
    [maintenanceNotice.2].filter (fun item => ¬Ignorable {} listingClaim 0 item) = [] := by
  rw [List.filter_cons_of_neg (by simp [ignorable_maintenance]), List.filter_nil]

/-- Beside the announcement the notice goes unnoticed. -/
theorem unchanged_iff_announced :
    Unchanged (({} : TimeBoundedClaimVerifier).verify (fun _ => "") listingClaim 0
          (listingStore [priorListing]) 0)
        (({} : TimeBoundedClaimVerifier).verify (fun _ => "") listingClaim 0
          (listingStore [priorListing, maintenanceNotice]) 0) ↔
      Unnoticed {} listingClaim 0 (listingStore [priorListing])
        (listingStore [priorListing, maintenanceNotice]) := by
  refine unchanged_iff {} _ listingClaim 0 0 0 ?_ rfl ?_
  · show _ = ([priorListing.2] ++ [maintenanceNotice.2]).filter _
    rw [List.filter_append, filter_maintenance, List.append_nil]
    rfl
  · intro item hitem item' hitem' chunk _ chunk' _ _
    obtain rfl : item = priorListing.2 := List.mem_singleton.mp hitem
    obtain rfl : item' = priorListing.2 := List.mem_singleton.mp hitem'
    rfl

/-- Without a document the claim is unknown, and with a notice that comes too late and does not support
it the claim is unsupported. -/
theorem late_notice_changes_result :
    ¬∀ (verifier : TimeBoundedClaimVerifier) (text : ChunkId → String) (claim : Claim)
        (alertTime now now' : Datetime) (repository repository' : InMemoryVerificationRepository),
      AgreeApartFrom (Ignorable verifier claim alertTime) repository repository' →
      repository.sourceCoverage claim.assetId = repository'.sourceCoverage claim.assetId →
      Unchanged (verifier.verify text claim alertTime repository now)
        (verifier.verify text claim alertTime repository' now') := by
  intro h
  have hagree : AgreeApartFrom (Ignorable {} listingClaim 0) (listingStore [])
      (listingStore [maintenanceNotice]) := filter_maintenance.symm
  have hresult := (h {} (fun _ => "") listingClaim 0 0 0 _ _ hagree rfl).1
  exact absurd hresult (by decide +kernel)

end Verification
end Scam2Market
