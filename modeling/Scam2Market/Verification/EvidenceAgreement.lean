import Scam2Market.Library.KeepFirst
import Scam2Market.Verification.Aggregation

/-!
# The verdict and the evidence

The result of a verification comes from the candidates that support a claim, conflict with it or come too
late; the records of the evidence come from one pass over all of them.

* `verificationEvidence_eq`: the records are those of the first candidate, in the order of the ranks, of each
  disclosure and relation.
* `mem_keys`: the disclosures and relations of the records are those of the matching candidates.
* `evidence_agrees`: the result, the documents and the records agree.
-/

namespace Scam2Market
namespace Verification

open Library (keepFirst keepFirst_sublist nodup_map_keepFirst mem_of_mem_keepFirst exists_mem_keepFirst
  clampTo)

section Records

variable {text : ChunkId → String} {claim : Claim} {alertTime : Datetime} {matching : List Scored}

/-! ## The records of the evidence -/

/-- What there is one record for. -/
def keyOf (claim : Claim) (alertTime : Datetime) (item : Scored) : DisclosureId × EvidenceRelation :=
  (item.1.disclosureId, relationOf claim alertTime item.1)

def VerificationEvidence.key (record : VerificationEvidence) : DisclosureId × EvidenceRelation :=
  (record.disclosureId, record.relation)

/-- The candidates that have a record. -/
def recorded (text : ChunkId → String) (claim : Claim) (alertTime : Datetime) (matching : List Scored) :
    List Scored :=
  keepFirst (keyOf claim alertTime) [] (ranked text matching)

/-- The records, by what has been seen and what has been written. -/
theorem foldl_addRecord (items : List Scored)
    (acc : List (DisclosureId × EvidenceRelation) × List VerificationEvidence) :
    (items.foldl (addRecord claim alertTime) acc).2 =
      acc.2 ++ (keepFirst (keyOf claim alertTime) acc.1 items).mapIdx fun rank item =>
        evidenceRecord claim alertTime item (acc.2.length + rank) := by
  induction items generalizing acc with
  | nil => exact (List.append_nil _).symm
  | cons item items ih =>
    rw [List.foldl_cons, ih, keepFirst]
    have hstep : addRecord claim alertTime acc item =
        if keyOf claim alertTime item ∈ acc.1 then acc
        else (keyOf claim alertTime item :: acc.1,
          acc.2 ++ [evidenceRecord claim alertTime item acc.2.length]) := rfl
    rw [hstep]
    split_ifs with hseen
    · rfl
    · rw [List.mapIdx_cons, List.append_assoc, List.singleton_append, List.length_append]
      simp only [List.length_singleton, Nat.add_zero, Nat.add_assoc, Nat.add_comm 1]

theorem verificationEvidence_eq (matching : List Scored) :
    verificationEvidence text claim alertTime matching =
      (recorded text claim alertTime matching).mapIdx fun rank item =>
        evidenceRecord claim alertTime item rank := by
  rw [verificationEvidence, foldl_addRecord]
  simp only [List.nil_append, List.length_nil, Nat.zero_add]
  rfl

theorem map_key_verificationEvidence (matching : List Scored) :
    (verificationEvidence text claim alertTime matching).map VerificationEvidence.key =
      (recorded text claim alertTime matching).map (keyOf claim alertTime) := by
  rw [verificationEvidence_eq, List.mapIdx_eq_zipIdx_map, List.map_map]
  conv_rhs => rw [← List.zipIdx_map_fst 0 (recorded text claim alertTime matching), List.map_map]
  rfl

/-- The disclosures and relations of the records are those of the candidates that match. -/
theorem mem_keys {key : DisclosureId × EvidenceRelation} :
    key ∈ (verificationEvidence text claim alertTime matching).map VerificationEvidence.key ↔
      key ∈ matching.map (keyOf claim alertTime) := by
  rw [map_key_verificationEvidence]
  have hranked {item : Scored} : item ∈ ranked text matching ↔ item ∈ matching :=
    List.mem_insertionSort _
  constructor
  · intro h
    obtain ⟨item, hitem, rfl⟩ := List.mem_map.mp h
    exact List.mem_map_of_mem (hranked.mp (mem_of_mem_keepFirst hitem))
  · intro h
    obtain ⟨item, hitem, rfl⟩ := List.mem_map.mp h
    have hkept : ∃ first ∈ recorded text claim alertTime matching,
        keyOf claim alertTime first = keyOf claim alertTime item :=
      exists_mem_keepFirst (hranked.mpr hitem) List.not_mem_nil
    obtain ⟨first, hfirst, hkey⟩ := hkept
    exact hkey ▸ List.mem_map_of_mem hfirst

theorem exists_record_iff {relation : EvidenceRelation} :
    (∃ record ∈ verificationEvidence text claim alertTime matching, record.relation = relation) ↔
      ∃ item ∈ matching, relationOf claim alertTime item.1 = relation := by
  have hkeys (id : DisclosureId) :
      (id, relation) ∈ (verificationEvidence text claim alertTime matching).map VerificationEvidence.key ↔
        (id, relation) ∈ matching.map (keyOf claim alertTime) := mem_keys
  constructor
  · rintro ⟨record, hrecord, rfl⟩
    obtain ⟨item, hitem, hkey⟩ := List.mem_map.mp ((hkeys _).mp (List.mem_map_of_mem hrecord))
    exact ⟨item, hitem, (Prod.mk.inj hkey).2⟩
  · rintro ⟨item, hitem, rfl⟩
    obtain ⟨record, hrecord, hkey⟩ := List.mem_map.mp ((hkeys item.1.disclosureId).mpr
      (List.mem_map_of_mem hitem))
    exact ⟨record, hrecord, (Prod.mk.inj hkey).2⟩

/-- A record agrees with the candidate it is of. -/
structure IsRecordOf (claim : Claim) (alertTime : Datetime) (record : VerificationEvidence)
    (candidate : DisclosureCandidate) : Prop where
  document : record.disclosureId = candidate.disclosureId
  score : record.score = clampTo 0 1 (structuredSimilarity claim candidate * candidate.reliability)
  eligible : record.temporalEligible = true ↔ candidate.availableAt ≤ alertTime
  relation : record.relation = .retrospective ↔ ¬candidate.availableAt ≤ alertTime
  conflict : record.relation = .conflicting ↔
    candidate.availableAt ≤ alertTime ∧ conflictReasons claim candidate ≠ []

theorem isRecordOf_evidenceRecord {item : Scored} (h : item.2 = structuredSimilarity claim item.1)
    (rank : ℕ) : IsRecordOf claim alertTime (evidenceRecord claim alertTime item rank) item.1 where
  document := rfl
  score := by rw [← h]; rfl
  eligible := decide_eq_true_iff
  relation := by
    show relationOf claim alertTime item.1 = _ ↔ _
    rw [relationOf, not_le]
    split_ifs with hlate hconflict <;> simp [hlate]
  conflict := by
    show relationOf claim alertTime item.1 = _ ↔ _
    rw [relationOf, ← not_lt]
    by_cases hlate : alertTime < item.1.availableAt
    · simp [hlate]
    · by_cases hreasons : conflictReasons claim item.1 = []
      · simp [hlate, hreasons]
      · simp [hlate, hreasons]

theorem forall₂_mapIdx {α β γ : Type*} {R : β → γ → Prop} {g : α → γ} {l : List α} :
    ∀ {f : ℕ → α → β}, (∀ index, ∀ a ∈ l, R (f index a) (g a)) →
      List.Forall₂ R (l.mapIdx f) (l.map g) := by
  induction l with
  | nil => exact fun _ => .nil
  | cons a l ih =>
    intro f h
    rw [List.mapIdx_cons, List.map_cons]
    exact .cons (h 0 a List.mem_cons_self)
      (ih fun index b hb => h (index + 1) b (List.mem_cons_of_mem a hb))

/-- The ranks count the records. -/
theorem map_rank_verificationEvidence (matching : List Scored) :
    (verificationEvidence text claim alertTime matching).map VerificationEvidence.rank =
      List.range' 1 (verificationEvidence text claim alertTime matching).length := by
  rw [verificationEvidence_eq]
  refine List.ext_getElem (by simp) fun index hindex hindex' => ?_
  simp [evidenceRecord, Nat.add_comm]

/-- The candidates that have a record, the most similar first. -/
theorem pairwise_recorded (matching : List Scored) :
    (recorded text claim alertTime matching).Pairwise fun item next => next.2 ≤ item.2 := by
  have hranked : (ranked text matching).Pairwise fun item next => rankKey text item ≤ rankKey text next :=
    List.pairwise_insertionSort _ _
  refine (hranked.sublist (keepFirst_sublist _ _ _)).imp fun {item next} hle => ?_
  rcases Prod.Lex.toLex_le_toLex.mp hle with hlt | ⟨heq, -⟩
  · exact (neg_lt_neg_iff.mp hlt).le
  · exact (neg_inj.mp heq).ge

end Records

/-! ## The result -/

section Result

variable {support conflict future : List Scored} {complete : Bool} {candidates : List DisclosureCandidate}

theorem result_eq_supportedAfterAlert_iff :
    (verdictOf support conflict future complete candidates).result = .supportedAfterAlert ↔
      conflict = [] ∧ support = [] ∧ future ≠ [] := by
  unfold verdictOf
  split_ifs with hconflict hsupport hfuture <;> simp_all

/-- The result of a claim for which there is no evidence. -/
def HasNoEvidence (result : VerificationResult) : Prop :=
  result = .unsupported ∨ result = .unknown

theorem hasNoEvidence_iff :
    HasNoEvidence (verdictOf support conflict future complete candidates).result ↔
      conflict = [] ∧ support = [] ∧ future = [] := by
  unfold verdictOf HasNoEvidence
  split_ifs with hconflict hsupport hfuture <;> simp_all

/-- The evidence of a verdict is all there is. -/
theorem mem_evidence_verdictOf {item : Scored} :
    item ∈ (verdictOf support conflict future complete candidates).evidence ↔
      item ∈ support ∨ item ∈ conflict ∨ item ∈ future := by
  unfold verdictOf
  split_ifs with hconflict hsupport hfuture <;> simp_all

end Result

namespace TimeBoundedClaimVerifier

variable {verifier : TimeBoundedClaimVerifier} {claim : Claim} {alertTime : Datetime}
  {candidates : List DisclosureCandidate} {item : Scored}

theorem mem_conflict_iff :
    item ∈ verifier.conflict claim alertTime candidates ↔
      item ∈ verifier.matching claim candidates ∧ relationOf claim alertTime item.1 = .conflicting := by
  simp only [conflict, before, List.mem_filter, decide_eq_true_eq, relationOf, ← not_lt, and_assoc]
  split_ifs <;> simp_all

theorem mem_support_iff :
    item ∈ verifier.support claim alertTime candidates ↔
      item ∈ verifier.matching claim candidates ∧ relationOf claim alertTime item.1 = .supporting := by
  simp only [support, before, List.mem_filter, decide_eq_true_eq, relationOf, ← not_lt, and_assoc]
  split_ifs <;> simp_all

theorem mem_future_iff :
    item ∈ verifier.future claim alertTime candidates ↔
      item ∈ verifier.matching claim candidates ∧ relationOf claim alertTime item.1 = .retrospective := by
  simp only [future, List.mem_filter, decide_eq_true_eq, relationOf]
  split_ifs <;> simp_all

/-- A matching candidate supports the claim, conflicts with it, or comes too late. -/
theorem mem_matching_iff :
    item ∈ verifier.matching claim candidates ↔
      item ∈ verifier.support claim alertTime candidates ∨
        item ∈ verifier.conflict claim alertTime candidates ∨
          item ∈ verifier.future claim alertTime candidates := by
  rw [mem_support_iff, mem_conflict_iff, mem_future_iff, ← and_or_left, ← and_or_left]
  refine (and_iff_left ?_).symm
  rw [relationOf]
  split_ifs
  · exact Or.inr (Or.inr rfl)
  · exact Or.inr (Or.inl rfl)
  · exact Or.inl rfl

/-! ## The agreement -/

/-- The result and the documents of a verification agree with its records, and these with the candidates. -/
structure EvidenceAgrees (claim : Claim) (alertTime : Datetime) (candidates : List DisclosureCandidate)
    (verification : ClaimVerification) : Prop where
  conflicting : verification.result = .conflicting ↔
    ∃ record ∈ verification.evidence, record.relation = .conflicting
  supportedBefore : verification.result = .supportedBeforeAlert ↔
    (∃ record ∈ verification.evidence, record.relation = .supporting) ∧
      ¬∃ record ∈ verification.evidence, record.relation = .conflicting
  supportedAfter : verification.result = .supportedAfterAlert ↔
    verification.evidence ≠ [] ∧ ∀ record ∈ verification.evidence, record.relation = .retrospective
  without : HasNoEvidence verification.result ↔ verification.evidence = []
  documents : verification.evidenceDocumentIds =
    (verification.evidence.map VerificationEvidence.disclosureId).toFinset
  distinct : (verification.evidence.map fun record => (record.disclosureId, record.relation)).Nodup
  ranks : verification.evidence.map VerificationEvidence.rank = List.range' 1 verification.evidence.length
  eligible : ∀ record ∈ verification.evidence,
    record.temporalEligible = true ↔ record.relation ≠ .retrospective
  sources : ∃ sources : List DisclosureCandidate, sources ⊆ candidates ∧
    List.Forall₂ (IsRecordOf claim alertTime) verification.evidence sources ∧
    sources.Pairwise fun candidate next =>
      structuredSimilarity claim next ≤ structuredSimilarity claim candidate

variable {text : ChunkId → String} {coverage : JsonObject} {now : Datetime}

/-- Whether there are records of a relation. -/
theorem exists_relation_iff {relation : EvidenceRelation} {items : List Scored}
    (hitems : ∀ {item : Scored}, item ∈ items ↔
      item ∈ verifier.matching claim candidates ∧ relationOf claim alertTime item.1 = relation) :
    (∃ record ∈ verificationEvidence text claim alertTime (verifier.matching claim candidates),
      record.relation = relation) ↔ items ≠ [] := by
  rw [exists_record_iff]
  constructor
  · rintro ⟨item, hitem, hrelation⟩
    exact List.ne_nil_of_mem (hitems.mpr ⟨hitem, hrelation⟩)
  · intro hne
    obtain ⟨item, hitem⟩ := List.exists_mem_of_ne_nil _ hne
    exact ⟨item, hitems.mp hitem⟩

theorem relation_cases {record : VerificationEvidence} {matching : List Scored}
    (h : record ∈ verificationEvidence text claim alertTime matching) :
    record.relation = .supporting ∨ record.relation = .conflicting ∨
      record.relation = .retrospective := by
  rw [verificationEvidence_eq, List.mem_mapIdx] at h
  obtain ⟨rank, hrank, rfl⟩ := h
  show relationOf claim alertTime _ = _ ∨ relationOf claim alertTime _ = _ ∨
    relationOf claim alertTime _ = _
  rw [relationOf]
  split_ifs
  · exact Or.inr (Or.inr rfl)
  · exact Or.inr (Or.inl rfl)
  · exact Or.inl rfl

/-- The documents of the evidence are those of the records. -/
theorem mem_documents_iff {id : DisclosureId} :
    id ∈ (verificationEvidence text claim alertTime (verifier.matching claim candidates)).map
        VerificationEvidence.disclosureId ↔
      id ∈ (verifier.verdict claim alertTime candidates coverage).evidence.map
        fun item => item.1.disclosureId := by
  constructor
  · intro h
    obtain ⟨record, hrecord, rfl⟩ := List.mem_map.mp h
    obtain ⟨item, hitem, hkey⟩ := List.mem_map.mp (mem_keys.mp (List.mem_map_of_mem hrecord))
    have hevidence : item ∈ (verifier.verdict claim alertTime candidates coverage).evidence :=
      mem_evidence_verdictOf.mpr (mem_matching_iff.mp hitem)
    exact List.mem_map.mpr ⟨item, hevidence, (Prod.mk.inj hkey).1⟩
  · intro h
    obtain ⟨item, hitem, rfl⟩ := List.mem_map.mp h
    have hmatching : item ∈ verifier.matching claim candidates :=
      mem_matching_iff.mpr (mem_evidence_verdictOf.mp hitem)
    have hkey : keyOf claim alertTime item ∈ (verificationEvidence text claim alertTime
        (verifier.matching claim candidates)).map VerificationEvidence.key :=
      mem_keys.mpr (List.mem_map_of_mem hmatching)
    obtain ⟨record, hrecord, hsame⟩ := List.mem_map.mp hkey
    exact List.mem_map.mpr ⟨record, hrecord, (Prod.mk.inj hsame).1⟩

/-- A record is of a candidate that matches. -/
theorem isRecordOf_of_mem_recorded {item : Scored}
    (hitem : item ∈ recorded text claim alertTime (verifier.matching claim candidates)) :
    item.1 ∈ candidates ∧ item.2 = structuredSimilarity claim item.1 ∧
      ∀ rank, IsRecordOf claim alertTime (evidenceRecord claim alertTime item rank) item.1 := by
  have hmatching := (List.mem_insertionSort _).mp (mem_of_mem_keepFirst hitem)
  obtain ⟨candidate, hcandidate, rfl⟩ := List.mem_map.mp hmatching
  exact ⟨List.mem_of_mem_filter hcandidate, rfl, isRecordOf_evidenceRecord rfl⟩

/-- **The verdict and the evidence agree.** -/
theorem evidence_agrees (verifier : TimeBoundedClaimVerifier) (text : ChunkId → String) (claim : Claim)
    (alertTime : Datetime) (candidates : List DisclosureCandidate) (coverage : JsonObject)
    (now : Datetime) :
    EvidenceAgrees claim alertTime candidates
      (verifier.judge text claim alertTime candidates coverage now) := by
  have hconflict : (∃ record ∈ verificationEvidence text claim alertTime
      (verifier.matching claim candidates), record.relation = .conflicting) ↔
        verifier.conflict claim alertTime candidates ≠ [] := exists_relation_iff mem_conflict_iff
  have hsupport : (∃ record ∈ verificationEvidence text claim alertTime
      (verifier.matching claim candidates), record.relation = .supporting) ↔
        verifier.support claim alertTime candidates ≠ [] := exists_relation_iff mem_support_iff
  have hfuture : (∃ record ∈ verificationEvidence text claim alertTime
      (verifier.matching claim candidates), record.relation = .retrospective) ↔
        verifier.future claim alertTime candidates ≠ [] := exists_relation_iff mem_future_iff
  refine ⟨?_, ?_, ?_, ?_, ?_, ?_, ?_, ?_, ?_⟩
  · show (verdictOf _ _ _ _ _).result = _ ↔ _
    rw [result_eq_conflicting_iff]
    exact hconflict.symm
  · show (verdictOf _ _ _ _ _).result = _ ↔ _
    rw [result_eq_supportedBeforeAlert_iff, and_comm]
    exact and_congr hsupport.symm (not_not.symm.trans (not_congr hconflict.symm))
  · show (verdictOf _ _ _ _ _).result = _ ↔ _
    rw [result_eq_supportedAfterAlert_iff]
    constructor
    · rintro ⟨hnoConflict, hnoSupport, hlate⟩
      obtain ⟨record, hrecord, -⟩ := hfuture.mpr hlate
      refine ⟨List.ne_nil_of_mem hrecord, fun record hrecord => ?_⟩
      rcases relation_cases hrecord with hrelation | hrelation | hrelation
      · exact absurd hnoSupport (hsupport.mp ⟨record, hrecord, hrelation⟩)
      · exact absurd hnoConflict (hconflict.mp ⟨record, hrecord, hrelation⟩)
      · exact hrelation
    · rintro ⟨hne, hall⟩
      have hnone {relation : EvidenceRelation} (hrelation : relation ≠ .retrospective) :
          ¬∃ record ∈ verificationEvidence text claim alertTime (verifier.matching claim candidates),
            record.relation = relation := by
        rintro ⟨record, hrecord, rfl⟩
        exact hrelation (hall record hrecord)
      obtain ⟨record, hrecord⟩ := List.exists_mem_of_ne_nil _ hne
      exact ⟨not_not.mp (mt hconflict.mpr (hnone (by decide))),
        not_not.mp (mt hsupport.mpr (hnone (by decide))), hfuture.mp ⟨record, hrecord, hall record hrecord⟩⟩
  · show HasNoEvidence (verdictOf _ _ _ _ _).result ↔ _
    rw [hasNoEvidence_iff]
    constructor
    · rintro ⟨hnoConflict, hnoSupport, hnoFuture⟩
      by_contra hne
      obtain ⟨record, hrecord⟩ := List.exists_mem_of_ne_nil _ hne
      rcases relation_cases hrecord with hrelation | hrelation | hrelation
      · exact hsupport.mp ⟨record, hrecord, hrelation⟩ hnoSupport
      · exact hconflict.mp ⟨record, hrecord, hrelation⟩ hnoConflict
      · exact hfuture.mp ⟨record, hrecord, hrelation⟩ hnoFuture
    · intro hempty
      have hnone {relation : EvidenceRelation} :
          ¬∃ record ∈ verificationEvidence text claim alertTime (verifier.matching claim candidates),
            record.relation = relation := by
        rintro ⟨record, hrecord, -⟩
        exact List.ne_nil_of_mem hrecord hempty
      exact ⟨not_not.mp (mt hconflict.mpr hnone), not_not.mp (mt hsupport.mpr hnone),
        not_not.mp (mt hfuture.mpr hnone)⟩
  · ext id
    rw [List.mem_toFinset]
    exact (List.mem_toFinset.trans mem_documents_iff.symm)
  · show ((verificationEvidence text claim alertTime (verifier.matching claim candidates)).map
      VerificationEvidence.key).Nodup
    rw [map_key_verificationEvidence]
    exact nodup_map_keepFirst _ _ _
  · exact map_rank_verificationEvidence _
  · intro record hrecord
    change record ∈ verificationEvidence text claim alertTime (verifier.matching claim candidates) at hrecord
    rw [verificationEvidence_eq, List.mem_mapIdx] at hrecord
    obtain ⟨rank, hrank, rfl⟩ := hrecord
    have hrecordOf := (isRecordOf_of_mem_recorded (List.getElem_mem hrank)).2.2 rank
    rw [hrecordOf.eligible, ne_eq, hrecordOf.relation, not_not]
  · refine ⟨(recorded text claim alertTime (verifier.matching claim candidates)).map Prod.fst, ?_, ?_, ?_⟩
    · intro candidate hcandidate
      obtain ⟨item, hitem, rfl⟩ := List.mem_map.mp hcandidate
      exact (isRecordOf_of_mem_recorded hitem).1
    · show List.Forall₂ _ (verificationEvidence text claim alertTime (verifier.matching claim candidates)) _
      rw [verificationEvidence_eq]
      exact forall₂_mapIdx fun rank item hitem => (isRecordOf_of_mem_recorded hitem).2.2 rank
    · rw [List.pairwise_map]
      refine (pairwise_recorded _).imp_of_mem fun {item next} hitem hnext hle => ?_
      rwa [(isRecordOf_of_mem_recorded hitem).2.1, (isRecordOf_of_mem_recorded hnext).2.1] at hle

end TimeBoundedClaimVerifier

end Verification
end Scam2Market
