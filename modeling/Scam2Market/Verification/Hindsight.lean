import Scam2Market.Verification.Service

/-!
# What a verification sees of the future

Two stores that differ in documents of a kind (`AgreeApartFrom`), and what the verifier makes of them.

* `mem_candidates`: where a candidate comes from.
* `verify_of_late`: documents that become available after the alert do not change the legitimate event
  score, nor whether the claim is supported or contradicted before the alert.
* `unchanged_iff`: when such documents that do not support the claim change nothing at all.
-/

namespace Scam2Market
namespace Verification

open Library (group groupOf)

/-! ## Stores that differ in documents of a kind -/

/-- The stores have the same documents, apart from those of a kind. -/
def AgreeApartFrom (kind : StoredDocument → Prop) [DecidablePred kind]
    (repository repository' : InMemoryVerificationRepository) : Prop :=
  repository.stored.filter (fun item => ¬kind item) =
    repository'.stored.filter fun item => ¬kind item

/-- The document becomes available after the alert. -/
def Late (alertTime : Datetime) (item : StoredDocument) : Prop :=
  ∃ time ∈ item.1.availableAt, alertTime < time

instance (alertTime : Datetime) (item : StoredDocument) : Decidable (Late alertTime item) :=
  inferInstanceAs (Decidable (∃ time ∈ item.1.availableAt, alertTime < time))

variable {alertTime : Datetime} {item : StoredDocument} {rows : List StoredDocument}
  {kind : StoredDocument → Prop} [DecidablePred kind]
  {repository repository' : InMemoryVerificationRepository}

theorem listedAt_of_late (h : Late alertTime item) : alertTime < item.1.listedAt := by
  obtain ⟨time, htime, hlt⟩ := h
  rw [DisclosureDocument.listedAt, Option.mem_def.mp htime]
  exact hlt

theorem availableAt_of_late (h : Late alertTime item) (chunk : DisclosureChunk) :
    alertTime < (candidateOf item.1 chunk).availableAt := by
  obtain ⟨time, htime, hlt⟩ := h
  show alertTime < item.1.availableAt.getD _
  rw [Option.mem_def.mp htime]
  exact hlt

/-- Documents that are listed after the alert do not change which of the others are looked at. -/
theorem filter_selectVersions (hkind : ∀ item, kind item → alertTime < item.1.listedAt)
    (rows : List StoredDocument) :
    (selectVersions alertTime rows).filter (fun item => ¬kind item) =
      selectVersions alertTime (rows.filter fun item => ¬kind item) := by
  have heligible : rows.filter (fun item => item.1.listedAt ≤ alertTime) =
      (rows.filter fun item => ¬kind item).filter fun item => item.1.listedAt ≤ alertTime := by
    rw [List.filter_filter]
    refine List.filter_congr fun item _ => ?_
    by_cases hlisted : item.1.listedAt ≤ alertTime
    · have hnot : ¬kind item := fun hitem => absurd (hkind item hitem) (not_lt.mpr hlisted)
      simp [hlisted, hnot]
    · simp [hlisted]
  rw [selectVersions, selectVersions, List.filter_append, heligible]
  congr 1
  · refine List.filter_eq_self.mpr fun item hitem => ?_
    have hmem := List.mem_of_mem_filter (List.argmax_mem (Option.mem_toList.mp hitem))
    exact (List.mem_filter.mp hmem).2
  · rw [List.filter_filter, List.filter_filter]
    exact List.filter_congr fun item _ => Bool.and_comm _ _

theorem filter_groupOf (k : String × String) (rows : List StoredDocument) :
    (groupOf (fun item => item.1.groupKey) k rows).filter (fun item => ¬kind item) =
      groupOf (fun item => item.1.groupKey) k (rows.filter fun item => ¬kind item) := by
  rw [groupOf, groupOf, List.filter_filter, List.filter_filter]
  exact List.filter_congr fun item _ => Bool.and_comm _ _

/-- The versions of a document that are looked at. -/
def versionsOf (alertTime : Datetime) (k : String × String) (rows : List StoredDocument) :
    List StoredDocument :=
  selectVersions alertTime (groupOf (fun item => item.1.groupKey) k rows)

/-- Apart from the kind the two stores are looked at alike. -/
theorem AgreeApartFrom.versionsOf_eq (h : AgreeApartFrom kind repository repository')
    (hkind : ∀ item, kind item → alertTime < item.1.listedAt) (k : String × String) :
    (versionsOf alertTime k repository.stored).filter (fun item => ¬kind item) =
      (versionsOf alertTime k repository'.stored).filter fun item => ¬kind item := by
  rw [versionsOf, versionsOf, filter_selectVersions hkind, filter_selectVersions hkind,
    filter_groupOf, filter_groupOf, h]

/-! ## Candidates -/

variable {verifier : TimeBoundedClaimVerifier} {text : ChunkId → String} {claim : Claim}
  {assetId : String} {lookbackDays futureDays : ℤ} {candidate : DisclosureCandidate}

/-- The candidates of a version within the horizon of the alert. -/
def horizonOf (assetId : String) (alertTime : Datetime) (lookbackDays futureDays : ℤ)
    (item : StoredDocument) : List DisclosureCandidate :=
  candidatesOf assetId (alertTime - timedeltaSeconds (86400 * lookbackDays))
    (alertTime + timedeltaSeconds (86400 * futureDays)) item

/-- A candidate is a chunk of a version that is looked at. -/
theorem mem_candidates :
    candidate ∈ repository.candidates text assetId alertTime lookbackDays futureDays ↔
      ∃ k, ∃ item ∈ versionsOf alertTime k repository.stored,
        candidate ∈ horizonOf assetId alertTime lookbackDays futureDays item := by
  unfold InMemoryVerificationRepository.candidates
  rw [List.mem_insertionSort, List.mem_flatMap]
  constructor
  · rintro ⟨item, hitem, hcandidate⟩
    obtain ⟨k, hk⟩ := (Library.mem_flatMap_group (selectVersions alertTime) rfl).mp hitem
    exact ⟨k, item, hk, hcandidate⟩
  · rintro ⟨k, item, hitem, hcandidate⟩
    exact ⟨item, (Library.mem_flatMap_group (selectVersions alertTime) rfl).mpr ⟨k, hitem⟩, hcandidate⟩

theorem mem_candidatesOf {earliest latest : Datetime}
    (h : candidate ∈ candidatesOf assetId earliest latest item) :
    ∃ chunk ∈ item.2, candidate = candidateOf item.1 chunk := by
  unfold candidatesOf at h
  split_ifs at h
  · obtain ⟨chunk, hchunk, rfl⟩ := List.mem_map.mp h
    exact ⟨chunk, hchunk, rfl⟩
  · exact absurd h List.not_mem_nil

/-- A candidate of one store that is of no document of the kind is a candidate of the other. -/
theorem AgreeApartFrom.mem_candidates (h : AgreeApartFrom kind repository repository')
    (hkind : ∀ item, kind item → alertTime < item.1.listedAt)
    (hcandidate : candidate ∈ repository.candidates text assetId alertTime lookbackDays futureDays)
    (hnot : ∀ item, kind item → ∀ chunk ∈ item.2, candidate ≠ candidateOf item.1 chunk) :
    candidate ∈ repository'.candidates text assetId alertTime lookbackDays futureDays := by
  obtain ⟨k, item, hitem, hmem⟩ := Verification.mem_candidates.mp hcandidate
  obtain ⟨chunk, hchunk, rfl⟩ := mem_candidatesOf hmem
  have hkept : ¬kind item := fun hitem' => hnot item hitem' chunk hchunk rfl
  have hfilter : item ∈ (versionsOf alertTime k repository.stored).filter fun item => ¬kind item :=
    List.mem_filter.mpr ⟨hitem, decide_eq_true hkept⟩
  rw [h.versionsOf_eq hkind] at hfilter
  exact Verification.mem_candidates.mpr ⟨k, item, List.mem_of_mem_filter hfilter, hmem⟩

/-! ## Blindness -/

theorem AgreeApartFrom.symm (h : AgreeApartFrom kind repository repository') :
    AgreeApartFrom kind repository' repository :=
  Eq.symm h

theorem eq_nil_iff_of_subset {α : Type*} {l l' : List α} (h : l ⊆ l') (h' : l' ⊆ l) :
    l = [] ↔ l' = [] :=
  ⟨fun hl => List.subset_nil.mp (hl ▸ h'), fun hl => List.subset_nil.mp (hl ▸ h)⟩

theorem bestReliability_mono {support support' : List Scored} (h : support ⊆ support') :
    bestReliability support ≤ bestReliability support' := by
  have hle : ∀ {items : List Scored} {item : Scored}, item ∈ items →
      item.1.reliability ≤ bestReliability items := by
    intro items
    induction items with
    | nil => exact fun hitem => absurd hitem List.not_mem_nil
    | cons head items ih =>
      intro item hitem
      rcases List.mem_cons.mp hitem with rfl | hitem
      · exact le_max_left _ _
      · exact (ih hitem).trans (le_max_right _ _)
  induction support with
  | nil => exact (bestReliability_mem support').1
  | cons item support ih =>
    obtain ⟨hitem, hrest⟩ := List.cons_subset.mp h
    exact max_le (hle hitem) (ih hrest)

section Blindness

variable (verifier : TimeBoundedClaimVerifier) (text : ChunkId → String) (claim : Claim)

/-- What was available before the alert is the same in both stores. -/
theorem before_subset (h : AgreeApartFrom (Late alertTime) repository repository') :
    verifier.before claim alertTime (verifier.retrieve text claim alertTime repository) ⊆
      verifier.before claim alertTime (verifier.retrieve text claim alertTime repository') := by
  intro scored hscored
  obtain ⟨hmatching, havailable⟩ := List.mem_filter.mp hscored
  obtain ⟨candidate, hcandidate, rfl⟩ := List.mem_map.mp hmatching
  obtain ⟨hmem, hreaches⟩ := List.mem_filter.mp hcandidate
  refine List.mem_filter.mpr ⟨List.mem_map.mpr ⟨candidate, List.mem_filter.mpr ⟨?_, hreaches⟩, rfl⟩,
    havailable⟩
  refine h.mem_candidates (fun item => listedAt_of_late) hmem fun item hlate chunk _ heq => ?_
  have hafter := availableAt_of_late hlate chunk
  rw [← heq] at hafter
  exact absurd (of_decide_eq_true havailable) (not_le.mpr hafter)

theorem support_subset (h : AgreeApartFrom (Late alertTime) repository repository') :
    verifier.support claim alertTime (verifier.retrieve text claim alertTime repository) ⊆
      verifier.support claim alertTime (verifier.retrieve text claim alertTime repository') := by
  intro scored hscored
  obtain ⟨hbefore, hreasons⟩ := List.mem_filter.mp hscored
  exact List.mem_filter.mpr ⟨before_subset verifier text claim h hbefore, hreasons⟩

theorem conflict_subset (h : AgreeApartFrom (Late alertTime) repository repository') :
    verifier.conflict claim alertTime (verifier.retrieve text claim alertTime repository) ⊆
      verifier.conflict claim alertTime (verifier.retrieve text claim alertTime repository') := by
  intro scored hscored
  obtain ⟨hbefore, hreasons⟩ := List.mem_filter.mp hscored
  exact List.mem_filter.mpr ⟨before_subset verifier text claim h hbefore, hreasons⟩

theorem conflict_eq_nil_iff (h : AgreeApartFrom (Late alertTime) repository repository') :
    verifier.conflict claim alertTime (verifier.retrieve text claim alertTime repository) = [] ↔
      verifier.conflict claim alertTime (verifier.retrieve text claim alertTime repository') = [] :=
  eq_nil_iff_of_subset (conflict_subset verifier text claim h) (conflict_subset verifier text claim h.symm)

theorem support_eq_nil_iff (h : AgreeApartFrom (Late alertTime) repository repository') :
    verifier.support claim alertTime (verifier.retrieve text claim alertTime repository) = [] ↔
      verifier.support claim alertTime (verifier.retrieve text claim alertTime repository') = [] :=
  eq_nil_iff_of_subset (support_subset verifier text claim h) (support_subset verifier text claim h.symm)

theorem bestReliability_eq (h : AgreeApartFrom (Late alertTime) repository repository') :
    bestReliability (verifier.support claim alertTime
        (verifier.retrieve text claim alertTime repository)) =
      bestReliability (verifier.support claim alertTime
        (verifier.retrieve text claim alertTime repository')) :=
  le_antisymm (bestReliability_mono (support_subset verifier text claim h))
    (bestReliability_mono (support_subset verifier text claim h.symm))

/-- **Blindness.**  Documents that become available after the alert do not change the legitimate event
score, nor whether the claim was supported or contradicted. -/
theorem verify_of_late (now now' : Datetime)
    (h : AgreeApartFrom (Late alertTime) repository repository') :
    let verification := verifier.verify text claim alertTime repository now
    let verification' := verifier.verify text claim alertTime repository' now'
    verification.legitimateEventScore = verification'.legitimateEventScore ∧
      (verification.result = .supportedBeforeAlert ↔ verification'.result = .supportedBeforeAlert) ∧
      (verification.result = .conflicting ↔ verification'.result = .conflicting) := by
  have hconflict := conflict_eq_nil_iff verifier text claim h
  have hsupport := support_eq_nil_iff verifier text claim h
  refine ⟨?_, ?_, ?_⟩
  · show (verdictOf _ _ _ _ _).legitimateEventScore = (verdictOf _ _ _ _ _).legitimateEventScore
    rw [legitimateEventScore_eq, legitimateEventScore_eq, bestReliability_eq verifier text claim h]
    simp only [hconflict]
  · show (verdictOf _ _ _ _ _).result = _ ↔ (verdictOf _ _ _ _ _).result = _
    rw [result_eq_supportedBeforeAlert_iff, result_eq_supportedBeforeAlert_iff, hconflict, ne_eq,
      ne_eq, hsupport]
  · show (verdictOf _ _ _ _ _).result = _ ↔ (verdictOf _ _ _ _ _).result = _
    rw [result_eq_conflicting_iff, result_eq_conflicting_iff, ne_eq, ne_eq, hconflict]

end Blindness

/-! ## A claim about a listing -/

def listingClaim : Claim where
  claimId := "claim"
  narrativeId := "narrative"
  assetId := "S2MUSDT"
  claimText := "S2M exchange listing partnership announced today"
  claimHash := "claim-hash"
  extractedAt := 0
  extractorVersion := "claim-extractor-v1"

/-- A disclosure with one chunk, available when it is published. -/
def listingDisclosure (documentId body : String) (publishedAt : Datetime) : StoredDocument :=
  ({ disclosureId := .given documentId
     source := "official-exchange"
     sourceDocumentId := documentId
     assetId := some "S2MUSDT"
     title := "S2M exchange listing partnership"
     body := body
     publishedAt := publishedAt
     retrievedAt := publishedAt
     availableAt := some publishedAt
     contentHash := body },
    [⟨⟨(.given documentId, 0)⟩, .given documentId, 0, body⟩])

/-- A store with some disclosures. -/
def listingStore (items : List (String × StoredDocument)) : InMemoryVerificationRepository where
  documents := .ofEntries items

/-- The announcement, an hour before the alert. -/
def priorListing : String × StoredDocument :=
  ("prior", listingDisclosure "prior" "S2M exchange listing partnership announced today"
    (timedeltaSeconds (-3600)))

/-- The announcement, two hours after the alert. -/
def futureListing : String × StoredDocument :=
  ("future", listingDisclosure "future" "S2M exchange listing partnership announced today"
    (timedeltaSeconds 7200))

theorem verify_of_late_listing :
    (({} : TimeBoundedClaimVerifier).verify (fun id => toString (repr id)) listingClaim 0
        (listingStore [priorListing]) 0).legitimateEventScore =
      (({} : TimeBoundedClaimVerifier).verify (fun id => toString (repr id)) listingClaim 0
        (listingStore [priorListing, futureListing]) 0).legitimateEventScore :=
  (verify_of_late {} _ listingClaim 0 0 (by rfl)).1

end Verification
end Scam2Market
