import Scam2Market.Library.Runs
import Scam2Market.Verification.NarrativeService

/-!
# One snapshot for each revision

Runs of `process`, each event any number of times and with any disclosures stored.

* `VerifiedOnce`: no constraint was violated, and every event that was processed has its summary in the
  outbox once.
* `Careful`: an event that comes first shares no claim with an event of its time before it; one that comes
  again finds its first claim verified.
* `verifiedOnce_iff`: the property holds throughout a run exactly when all its events are careful.
* `second_revision_dropped`: two revisions with the same first claim.
-/

namespace Scam2Market
namespace Verification

open Library
open NarrativeVerificationService (snapshotId)

/-! ## Runs -/

/-- The tables, the events that were processed, and the constraints that were violated. -/
structure SnapshotStore where
  tables : VerificationTables := {}
  processed : List NarrativeEvent := []
  violations : List String := []

/-- A delivery of a narrative event. -/
structure NarrativeDelivery where
  event : NarrativeEvent
  surroundings : Surroundings
  isNarrative : event.eventType = "narrative.clustered"

/-- The snapshots of the summaries in the outbox. -/
def VerificationTables.snapshots (t : VerificationTables) : List SnapshotId :=
  (t.outbox.filter fun row => row.topic = verificationTopic).map fun row =>
    row.event.summary.verificationSnapshotId

/-- No constraint was violated, and every event has its summary in the outbox once. -/
def VerifiedOnce (s : SnapshotStore) : Prop :=
  s.violations = [] ∧ ∀ event ∈ s.processed, s.tables.snapshots.count (snapshotId event) = 1

namespace NarrativeVerificationService

variable (service : NarrativeVerificationService)

/-- A violated constraint is recorded; another error stores nothing either. -/
def step (s : SnapshotStore) (delivery : NarrativeDelivery) : SnapshotStore :=
  let processed := s.processed ++ [delivery.event]
  match service.process delivery.surroundings delivery.event s.tables with
  | .ok (_, tables) => { s with tables, processed }
  | .error (.integrityError key) => { s with processed, violations := s.violations ++ [key] }
  | .error _ => { s with processed }

/-- The ids of the verifications of an event. -/
def verificationIds (event : NarrativeEvent) : List (Uuid (String × Datetime × String)) :=
  (service.claims event).map fun claim =>
    ⟨(claim.claimId, event.eventTime, TimeBoundedClaimVerifier.version)⟩

/-- The first event of its revision and time: it has a claim, and none of its claims has been verified at
its time. -/
structure IsFirst (s : SnapshotStore) (event : NarrativeEvent) : Prop where
  verifiable : service.claims event ≠ []
  snapshot : ∀ other ∈ s.processed, snapshotId other ≠ snapshotId event
  claims : ∀ id ∈ service.verificationIds event,
    id ∉ s.tables.verifications.map ClaimVerification.verificationId

/-- An event of a revision and time that were processed before: its first claim has been verified at its
time. -/
structure IsRepeated (s : SnapshotStore) (event : NarrativeEvent) : Prop where
  snapshot : ∃ other ∈ s.processed, snapshotId other = snapshotId event
  first : ∀ id, (service.verificationIds event).head? = some id →
    id ∈ s.tables.verifications.map ClaimVerification.verificationId

def Careful (s : SnapshotStore) (delivery : NarrativeDelivery) : Prop :=
  service.IsFirst s delivery.event ∨ service.IsRepeated s delivery.event

end NarrativeVerificationService

/-! ## The records of the evidence -/

section Evidence

variable {text : ChunkId → String} {claim : Claim} {alertTime : Datetime}
  {acc : List (DisclosureId × EvidenceRelation) × List VerificationEvidence}

/-- The keys that have been seen are those of the records, which are distinct. -/
structure KeysSeen (acc : List (DisclosureId × EvidenceRelation) × List VerificationEvidence) :
    Prop where
  seen : ∀ record ∈ acc.2, (record.disclosureId, record.relation) ∈ acc.1
  distinct : (acc.2.map fun record => (record.disclosureId, record.relation)).Nodup

theorem KeysSeen.addRecord (h : KeysSeen acc) (item : Scored) :
    KeysSeen (addRecord claim alertTime acc item) := by
  unfold Verification.addRecord
  dsimp only
  split_ifs with hkey
  · exact h
  · refine ⟨fun record hrecord => ?_, ?_⟩
    · rcases List.mem_append.mp hrecord with hold | hnew
      · exact List.mem_cons_of_mem _ (h.seen record hold)
      · rw [List.mem_singleton.mp hnew]
        exact List.mem_cons_self
    · rw [List.map_append, List.map_singleton, ← List.concat_eq_append]
      refine h.distinct.concat fun hmem => hkey ?_
      obtain ⟨record, hrecord, heq⟩ := List.mem_map.mp hmem
      exact heq ▸ h.seen record hrecord

/-- One record for each disclosure and relation. -/
theorem nodup_verificationEvidence (matching : List Scored) :
    ((verificationEvidence text claim alertTime matching).map fun record =>
      (record.disclosureId, record.relation)).Nodup := by
  have hfold : ∀ (items : List Scored) (acc), KeysSeen acc →
      KeysSeen (items.foldl (addRecord claim alertTime) acc) := by
    intro items
    induction items with
    | nil => exact fun _ h => h
    | cons item items ih => exact fun acc h => ih _ (h.addRecord item)
  exact (hfold _ ([], []) ⟨fun _ h => (List.not_mem_nil h).elim, List.nodup_nil⟩).distinct

/-- A record is of a disclosure that matches. -/
theorem exists_of_mem_verificationEvidence {matching : List Scored} {record : VerificationEvidence}
    (h : record ∈ verificationEvidence text claim alertTime matching) :
    ∃ item ∈ matching, record.disclosureId = item.1.disclosureId := by
  have hfold : ∀ (items : List Scored) (acc),
      record ∈ (items.foldl (addRecord claim alertTime) acc).2 →
        record ∈ acc.2 ∨ ∃ item ∈ items, record.disclosureId = item.1.disclosureId := by
    intro items
    induction items with
    | nil => exact fun _ h => .inl h
    | cons item items ih =>
      intro acc hmem
      rcases ih _ hmem with hacc | ⟨other, hother, hid⟩
      · unfold Verification.addRecord at hacc
        dsimp only at hacc
        split_ifs at hacc
        · exact .inl hacc
        · rcases List.mem_append.mp hacc with hold | hnew
          · exact .inl hold
          · refine .inr ⟨item, List.mem_cons_self, ?_⟩
            rw [List.mem_singleton.mp hnew]
            rfl
      · exact .inr ⟨other, List.mem_cons_of_mem item hother, hid⟩
  rcases hfold _ ([], []) h with hnil | ⟨item, hitem, hid⟩
  · exact (List.not_mem_nil hnil).elim
  · exact ⟨item, (List.mem_insertionSort _).mp hitem, hid⟩

/-- A candidate is of a stored disclosure. -/
theorem disclosureId_of_mem_candidates {t : DisclosureTables} {assetId : String}
    {lookbackDays futureDays : ℤ} {candidate : DisclosureCandidate}
    (h : candidate ∈ t.candidates assetId alertTime lookbackDays futureDays) :
    candidate.disclosureId ∈ t.disclosures.map DisclosureModel.disclosureId := by
  obtain ⟨⟨chunk, row⟩, hpair, rfl⟩ := List.mem_map.mp h
  have hjoined := (List.mem_insertionSort _).mp (List.mem_of_mem_take hpair)
  obtain ⟨chunk', -, hrows⟩ := List.mem_flatMap.mp hjoined
  obtain ⟨row', hrow', heq⟩ := List.mem_map.mp hrows
  obtain ⟨-, rfl⟩ := Prod.ext_iff.mp heq
  exact List.mem_map_of_mem (List.mem_of_mem_filter hrow')

end Evidence

/-! ## What holds between the deliveries -/

namespace NarrativeVerificationService

variable {service : NarrativeVerificationService} {surroundings : Surroundings}
  {event : NarrativeEvent} {s : SnapshotStore}

/-- The tables belong to the events that were processed. -/
structure Sound (s : SnapshotStore) : Prop where
  violations : s.violations = []
  ids : (s.tables.verifications.map ClaimVerification.verificationId).Nodup
  named : ∀ item ∈ s.tables.verifications,
    item.verificationId = ⟨(item.claimId, item.alertTime, item.verifierVersion)⟩
  claimIds : (s.tables.claims.map Claim.claimId).Nodup
  claimsNamed : ∀ claim ∈ s.tables.claims,
    claim.claimId = DeterministicClaimExtractor.claimIdOf claim.narrativeId claim.claimHash
  evidence : (s.tables.evidence.map evidenceKey).Nodup
  evidenceOf : ∀ record ∈ s.tables.evidence,
    record.1 ∈ s.tables.verifications.map ClaimVerification.verificationId
  rows : ∀ row ∈ s.tables.outbox, row.topic = verificationTopic ∧
    row.event.eventId = ⟨row.event.summary.verificationSnapshotId⟩
  snapshots : ∀ id, id ∈ s.tables.snapshots ↔ ∃ event ∈ s.processed, snapshotId event = id
  distinct : s.tables.snapshots.Nodup

theorem sound_empty : Sound {} where
  violations := rfl
  ids := List.nodup_nil
  named _ h := (List.not_mem_nil h).elim
  claimIds := List.nodup_nil
  claimsNamed _ h := (List.not_mem_nil h).elim
  evidence := List.nodup_nil
  evidenceOf _ h := (List.not_mem_nil h).elim
  rows _ h := (List.not_mem_nil h).elim
  snapshots _ := iff_of_false List.not_mem_nil fun ⟨_, h, _⟩ => List.not_mem_nil h
  distinct := List.nodup_nil

theorem Sound.verifiedOnce (h : Sound s) : VerifiedOnce s :=
  ⟨h.violations, fun event hevent =>
    List.count_eq_one_of_mem h.distinct ((h.snapshots _).mpr ⟨event, hevent, rfl⟩)⟩

/-! ### The verifications of an event -/

theorem map_verificationId (surroundings : Surroundings) (event : NarrativeEvent) :
    (service.verifications surroundings event).map ClaimVerification.verificationId =
      service.verificationIds event := by
  rw [verifications, List.map_map]
  rfl

theorem nodup_verificationIds (event : NarrativeEvent) : (service.verificationIds event).Nodup := by
  refine List.Nodup.of_map (fun id => id.name.1) ?_
  rw [verificationIds, List.map_map]
  exact DeterministicClaimExtractor.nodup_claimId_extract

theorem named_of_mem_verifications {item : ClaimVerification}
    (h : item ∈ service.verifications surroundings event) :
    item.verificationId = ⟨(item.claimId, item.alertTime, item.verifierVersion)⟩ := by
  obtain ⟨claim, -, rfl⟩ := List.mem_map.mp h
  rfl

/-- The evidence of an event is distinct, is of its verifications and of stored disclosures. -/
theorem nodup_evidenceOf (surroundings : Surroundings) (event : NarrativeEvent) :
    ((evidenceOf (service.verifications surroundings event)).map evidenceKey).Nodup := by
  rw [evidenceOf, List.map_flatMap, List.nodup_flatMap]
  refine ⟨fun item hitem => ?_, ?_⟩
  · obtain ⟨claim, -, rfl⟩ := List.mem_map.mp hitem
    refine List.Nodup.of_map Prod.snd ?_
    rw [List.map_map, List.map_map]
    exact nodup_verificationEvidence _
  · have hids : (service.verifications surroundings event).Pairwise fun item other =>
        item.verificationId ≠ other.verificationId :=
      List.pairwise_map.mp (map_verificationId surroundings event ▸
        nodup_verificationIds event)
    refine hids.imp fun {item other} hne key hkey hkey' => hne ?_
    obtain ⟨record, hrecord, rfl⟩ := List.mem_map.mp hkey
    obtain ⟨record', hrecord', heq⟩ := List.mem_map.mp hkey'
    obtain ⟨evidence, -, rfl⟩ := List.mem_map.mp hrecord
    obtain ⟨evidence', -, rfl⟩ := List.mem_map.mp hrecord'
    exact (congrArg Prod.fst heq).symm

theorem id_of_mem_evidenceOf {verifications : List ClaimVerification}
    {record : Uuid (String × Datetime × String) × VerificationEvidence}
    (h : record ∈ evidenceOf verifications) :
    record.1 ∈ verifications.map ClaimVerification.verificationId := by
  obtain ⟨item, hitem, hrecord⟩ := List.mem_flatMap.mp h
  obtain ⟨evidence, -, rfl⟩ := List.mem_map.mp hrecord
  exact List.mem_map_of_mem hitem

theorem document_of_mem_evidenceOf
    {record : Uuid (String × Datetime × String) × VerificationEvidence}
    (h : record ∈ evidenceOf (service.verifications surroundings event)) :
    record.2.disclosureId ∈
      surroundings.disclosures.disclosures.map DisclosureModel.disclosureId := by
  obtain ⟨item, hitem, hrecord⟩ := List.mem_flatMap.mp h
  obtain ⟨evidence, hevidence, rfl⟩ := List.mem_map.mp hrecord
  obtain ⟨claim, -, rfl⟩ := List.mem_map.mp hitem
  obtain ⟨scored, hscored, hid⟩ := exists_of_mem_verificationEvidence hevidence
  obtain ⟨candidate, hcandidate, rfl⟩ := List.mem_map.mp hscored
  rw [hid]
  exact disclosureId_of_mem_candidates (List.mem_of_mem_filter hcandidate)

/-! ### The first event of a revision -/

theorem Sound.snapshots_eq (h : Sound s) :
    s.tables.snapshots = s.tables.outbox.map fun row => row.event.summary.verificationSnapshotId := by
  unfold VerificationTables.snapshots
  rw [List.filter_eq_self.mpr fun row hrow => decide_eq_true (h.rows row hrow).1]

theorem Sound.nodup_outbox (h : Sound s) :
    (s.tables.outbox.map fun row => (row.event.eventId, row.topic)).Nodup := by
  refine List.Nodup.of_map (fun pair => pair.1.name) ?_
  rw [List.map_map]
  have hdistinct := h.distinct
  rw [h.snapshots_eq] at hdistinct
  refine (List.map_congr_left fun row hrow => ?_) ▸ hdistinct
  rw [Function.comp_apply, (h.rows row hrow).2]

/-- The claims of an event join those that are stored, each once. -/
theorem Sound.nodup_claims (h : Sound s) (event : NarrativeEvent) :
    ((s.tables.claims ++ s.tables.newClaims (service.claims event)).map Claim.claimId).Nodup := by
  rw [List.map_append]
  refine h.claimIds.append ?_ fun id hold hnew => ?_
  · exact DeterministicClaimExtractor.nodup_claimId_extract.sublist (List.filter_sublist.map _)
  · obtain ⟨claim, hclaim, rfl⟩ := List.mem_map.mp hnew
    exact of_decide_eq_true (List.mem_filter.mp hclaim).2 hold

theorem Sound.claims_named (h : Sound s) (event : NarrativeEvent) :
    ∀ claim ∈ s.tables.claims ++ s.tables.newClaims (service.claims event),
      claim.claimId = DeterministicClaimExtractor.claimIdOf claim.narrativeId claim.claimHash := by
  intro claim hclaim
  rcases List.mem_append.mp hclaim with hold | hnew
  · exact h.claimsNamed claim hold
  · exact (DeterministicClaimExtractor.claimId_of_mem_extract (List.mem_of_mem_filter hnew)).1

/-- Every claim of an event is stored with it, if it was not before. -/
theorem claimId_mem_stored (t : VerificationTables) {claims : List Claim} {claim : Claim}
    (h : claim ∈ claims) : claim.claimId ∈ (t.claims ++ t.newClaims claims).map Claim.claimId := by
  by_cases hstored : claim.claimId ∈ t.claims.map Claim.claimId
  · rw [List.map_append]
    exact List.mem_append_left _ hstored
  · exact List.mem_map_of_mem
      (List.mem_append_right _ (List.mem_filter.mpr ⟨h, decide_eq_true hstored⟩))

/-- The first event of a revision violates no constraint. -/
theorem IsFirst.stores (hfirst : service.IsFirst s event) (h : Sound s)
    {output : SummaryEvent} (houtput : output.eventId = ⟨snapshotId event⟩) :
    s.tables.Stores (surroundings.disclosures.disclosures.map DisclosureModel.disclosureId)
      (service.claims event) (service.verifications surroundings event) output := by
  have hids : ((s.tables.verifications ++ service.verifications surroundings event).map
      ClaimVerification.verificationId).Nodup := by
    rw [List.map_append, map_verificationId]
    exact h.ids.append (nodup_verificationIds event) fun id hold hid =>
      hfirst.claims id hid hold
  constructor
  · exact h.nodup_claims event
  · -- an id is made of the narrative and the hash
    refine List.Nodup.of_map (fun pair : String × String =>
      DeterministicClaimExtractor.claimIdOf pair.1 pair.2) ?_
    rw [List.map_map]
    exact (List.map_congr_left fun claim hclaim => h.claims_named event claim hclaim) ▸
      h.nodup_claims event
  · exact hids
  · refine List.Nodup.of_map (fun cutoff => (⟨cutoff⟩ : Uuid (String × Datetime × String))) ?_
    rw [List.map_map]
    refine (List.map_congr_left fun item hitem => ?_) ▸ hids
    rcases List.mem_append.mp hitem with hold | hmem
    · exact h.named item hold
    · exact named_of_mem_verifications hmem
  · intro item hitem
    obtain ⟨claim, hclaim, rfl⟩ := List.mem_map.mp hitem
    exact claimId_mem_stored s.tables hclaim
  · show ((s.tables.evidence ++ evidenceOf _).map evidenceKey).Nodup
    rw [List.map_append]
    refine h.evidence.append (nodup_evidenceOf surroundings event) fun key hold hmem => ?_
    obtain ⟨record, hrecord, rfl⟩ := List.mem_map.mp hold
    obtain ⟨record', hrecord', heq⟩ := List.mem_map.mp hmem
    have hid := id_of_mem_evidenceOf hrecord'
    have hsame : record'.1 = record.1 := (Prod.ext_iff.mp heq).1
    rw [map_verificationId, hsame] at hid
    exact hfirst.claims _ hid (h.evidenceOf record hrecord)
  · exact fun record hrecord => document_of_mem_evidenceOf hrecord
  · show ((s.tables.outbox ++ [_]).map _).Nodup
    rw [List.map_append, List.map_singleton, ← List.concat_eq_append]
    refine List.Nodup.concat (fun hmem => ?_) h.nodup_outbox
    obtain ⟨row, hrow, heq⟩ := List.mem_map.mp hmem
    have hid : row.event.summary.verificationSnapshotId = snapshotId event := by
      have hevent := (Prod.ext_iff.mp heq).1
      rw [(h.rows row hrow).2, houtput] at hevent
      exact congrArg Uuid.name hevent
    obtain ⟨other, hother, hsame⟩ := (h.snapshots _).mp (h.snapshots_eq ▸ List.mem_map_of_mem hrow)
    exact hfirst.snapshot other hother (hsame.trans hid)

/-! ### Deliveries -/

variable {delivery : NarrativeDelivery}

theorem processed_step (s : SnapshotStore) (delivery : NarrativeDelivery) :
    (service.step s delivery).processed = s.processed ++ [delivery.event] := by
  unfold step
  dsimp only
  split <;> rfl

/-- Without a claim nothing is stored. -/
theorem step_of_claims_eq_nil (h : service.claims delivery.event = []) :
    service.step s delivery = { s with processed := s.processed ++ [delivery.event] } := by
  unfold step process
  rw [if_neg (not_not_intro delivery.isNarrative), verifications, h]
  rfl

/-- What a delivery with claims does is what the transaction does. -/
theorem step_of_claims (h : service.claims delivery.event ≠ []) :
    ∃ (first : ClaimVerification) (output : SummaryEvent),
      (service.verifications delivery.surroundings delivery.event).head? = some first ∧
      (service.verificationIds delivery.event).head? = some first.verificationId ∧
      output.eventId = ⟨snapshotId delivery.event⟩ ∧
      output.summary.verificationSnapshotId = snapshotId delivery.event ∧
      service.step s delivery =
        match s.tables.persistVerifications
          (delivery.surroundings.disclosures.disclosures.map DisclosureModel.disclosureId)
          (service.claims delivery.event)
          (service.verifications delivery.surroundings delivery.event) output with
        | .ok (_, tables) => { s with tables, processed := s.processed ++ [delivery.event] }
        | .error (.integrityError key) =>
          { s with
            processed := s.processed ++ [delivery.event]
            violations := s.violations ++ [key] }
        | .error _ => { s with processed := s.processed ++ [delivery.event] } := by
  rcases hverifications : service.verifications delivery.surroundings delivery.event with
    _ | ⟨first, rest⟩
  · exact absurd (List.map_eq_nil_iff.mp hverifications) h
  refine ⟨first, output delivery.surroundings delivery.event
    (service.summary delivery.event first rest), rfl, ?_, rfl, rfl, ?_⟩
  · rw [← map_verificationId delivery.surroundings, hverifications]
    rfl
  · unfold step process
    rw [if_neg (not_not_intro delivery.isNarrative), hverifications]
    dsimp only
    generalize s.tables.persistVerifications _ _ _ _ = result
    rcases result with error | ⟨isStored, tables⟩
    · cases error <;> rfl
    · rfl

/-- The first event of a revision is stored. -/
theorem IsFirst.step_eq (hfirst : service.IsFirst s delivery.event) (h : Sound s) :
    ∃ output : SummaryEvent, output.eventId = ⟨snapshotId delivery.event⟩ ∧
      output.summary.verificationSnapshotId = snapshotId delivery.event ∧
      service.step s delivery = { s with
        tables := s.tables.stored (service.claims delivery.event)
          (service.verifications delivery.surroundings delivery.event) output
        processed := s.processed ++ [delivery.event] } := by
  obtain ⟨first, output, hhead, hid, houtput, hsummary, hstep⟩ :=
    step_of_claims (s := s) hfirst.verifiable
  have hnew := hfirst.claims _ (List.mem_of_mem_head? hid)
  refine ⟨output, houtput, hsummary, ?_⟩
  rw [hstep, VerificationTables.persistVerifications_of_stores hhead hnew (hfirst.stores h houtput)]

/-- An event whose first claim is verified stores nothing. -/
theorem step_of_mem {id : Uuid (String × Datetime × String)}
    (hid : (service.verificationIds delivery.event).head? = some id)
    (hmem : id ∈ s.tables.verifications.map ClaimVerification.verificationId) :
    service.step s delivery = { s with processed := s.processed ++ [delivery.event] } := by
  have hclaims : service.claims delivery.event ≠ [] := by
    intro hnil
    rw [verificationIds, hnil] at hid
    cases hid
  obtain ⟨first, output, hhead, hid', -, -, hstep⟩ := step_of_claims (s := s) hclaims
  obtain rfl : id = first.verificationId := Option.some.inj (hid.symm.trans hid')
  rw [hstep, VerificationTables.persistVerifications_of_mem hhead hmem]

theorem IsRepeated.step_eq (h : service.IsRepeated s delivery.event) :
    service.step s delivery = { s with processed := s.processed ++ [delivery.event] } := by
  rcases hids : (service.verificationIds delivery.event).head? with _ | id
  · exact step_of_claims_eq_nil (List.map_eq_nil_iff.mp (List.head?_eq_none_iff.mp hids))
  · exact step_of_mem hids (h.first id hids)

/-- A delivery whose first claim is not verified, and that may not be stored, violates a constraint. -/
theorem violations_step {id : Uuid (String × Datetime × String)}
    (hid : (service.verificationIds delivery.event).head? = some id)
    (hnew : id ∉ s.tables.verifications.map ClaimVerification.verificationId)
    (hnot : ∀ output : SummaryEvent, output.eventId = ⟨snapshotId delivery.event⟩ →
      ¬ s.tables.Stores
        (delivery.surroundings.disclosures.disclosures.map DisclosureModel.disclosureId)
        (service.claims delivery.event)
        (service.verifications delivery.surroundings delivery.event) output) :
    (service.step s delivery).violations ≠ [] := by
  have hclaims : service.claims delivery.event ≠ [] := by
    intro hnil
    rw [verificationIds, hnil] at hid
    cases hid
  obtain ⟨first, output, hhead, hid', houtput, -, hstep⟩ := step_of_claims (s := s) hclaims
  obtain rfl : id = first.verificationId := Option.some.inj (hid.symm.trans hid')
  obtain ⟨key, hpersist⟩ :=
    VerificationTables.persistVerifications_of_not_stores hhead hnew (hnot output houtput)
  rw [hstep, hpersist]
  exact List.append_ne_nil_of_right_ne_nil _ (List.cons_ne_nil _ _)

theorem snapshots_stored (t : VerificationTables) (claims : List Claim)
    (verifications : List ClaimVerification) (output : SummaryEvent) :
    (t.stored claims verifications output).snapshots =
      t.snapshots ++ [output.summary.verificationSnapshotId] := by
  unfold VerificationTables.snapshots VerificationTables.stored
  rw [List.filter_append, List.map_append]
  rfl

/-- A careful delivery keeps the tables with the events. -/
theorem sound_step (h : Sound s) (hcareful : service.Careful s delivery) :
    Sound (service.step s delivery) := by
  rcases hcareful with hfirst | hrepeated
  · obtain ⟨output, houtput, hsummary, hstep⟩ := hfirst.step_eq h
    have hstores : s.tables.Stores
        (delivery.surroundings.disclosures.disclosures.map DisclosureModel.disclosureId)
        (service.claims delivery.event)
        (service.verifications delivery.surroundings delivery.event) output :=
      hfirst.stores h houtput
    have hfresh : snapshotId delivery.event ∉ s.tables.snapshots := by
      intro hmem
      obtain ⟨other, hother, hsame⟩ := (h.snapshots _).mp hmem
      exact hfirst.snapshot other hother hsame
    rw [hstep]
    constructor
    · exact h.violations
    · exact hstores.ids
    · intro item hitem
      rcases List.mem_append.mp hitem with hold | hnew
      · exact h.named item hold
      · exact named_of_mem_verifications hnew
    · exact hstores.claimIds
    · exact h.claims_named delivery.event
    · exact hstores.evidence
    · intro record hrecord
      show record.1 ∈ (s.tables.verifications ++ _).map _
      rw [List.map_append]
      rcases List.mem_append.mp hrecord with hold | hnew
      · exact List.mem_append_left _ (h.evidenceOf record hold)
      · exact List.mem_append_right _ (id_of_mem_evidenceOf hnew)
    · intro row hrow
      rcases List.mem_append.mp hrow with hold | hnew
      · exact h.rows row hold
      · rw [List.mem_singleton.mp hnew]
        exact ⟨rfl, houtput.trans (congrArg Uuid.mk hsummary.symm)⟩
    · intro id
      rw [snapshots_stored, hsummary, List.mem_append, List.mem_singleton, h.snapshots id]
      simp [or_and_right, exists_or, eq_comm]
    · rw [snapshots_stored, hsummary, ← List.concat_eq_append]
      exact h.distinct.concat hfresh
  · rw [hrepeated.step_eq]
    refine ⟨h.violations, h.ids, h.named, h.claimIds, h.claimsNamed, h.evidence, h.evidenceOf,
      h.rows, fun id => ?_, h.distinct⟩
    -- the revision and time have been processed before
    rw [h.snapshots id]
    constructor
    · rintro ⟨event, hevent, hid⟩
      exact ⟨event, List.mem_append_left _ hevent, hid⟩
    · rintro ⟨event, hevent, rfl⟩
      rcases List.mem_append.mp hevent with hold | hnew
      · exact ⟨event, hold, rfl⟩
      · rw [List.mem_singleton.mp hnew]
        exact hrepeated.snapshot

/-- Any other delivery violates a constraint, or leaves its event without a summary. -/
theorem not_verifiedOnce_step (h : Sound s) (hcareful : ¬ service.Careful s delivery) :
    ¬ VerifiedOnce (service.step s delivery) := by
  rintro ⟨hviolations, hanswered⟩
  obtain ⟨hfirst, hrepeated⟩ := not_or.mp hcareful
  by_cases hseen : ∃ other ∈ s.processed, snapshotId other = snapshotId delivery.event
  · -- the summary is in the outbox already
    rcases hids : (service.verificationIds delivery.event).head? with _ | id
    · exact hrepeated ⟨hseen, fun id hid => (nomatch hids.symm.trans hid)⟩
    by_cases hmem : id ∈ s.tables.verifications.map ClaimVerification.verificationId
    · exact hrepeated ⟨hseen, fun id' hid' => Option.some.inj (hids.symm.trans hid') ▸ hmem⟩
    refine violations_step hids hmem (fun output houtput hstores => ?_) hviolations
    have hstored : snapshotId delivery.event ∈ s.tables.snapshots := (h.snapshots _).mpr hseen
    rw [h.snapshots_eq] at hstored
    obtain ⟨row, hrow, hsnapshot⟩ := List.mem_map.mp hstored
    have hdistinct : ((s.tables.outbox ++ [(⟨verificationTopic, output⟩ : EventOutboxModel)]).map
        fun row => (row.event.eventId, row.topic)).Nodup := hstores.outbox
    rw [List.map_append, List.map_singleton] at hdistinct
    refine (List.nodup_append.mp hdistinct).2.2 _ (List.mem_map_of_mem hrow) _
      (List.mem_singleton_self _) (Prod.ext ?_ (h.rows row hrow).1)
    rw [(h.rows row hrow).2, hsnapshot]
    exact houtput.symm
  · -- there is no summary yet
    have hnone : s.tables.snapshots.count (snapshotId delivery.event) = 0 :=
      List.count_eq_zero.mpr fun hmem => hseen ((h.snapshots _).mp hmem)
    have hsame : service.step s delivery ≠
        { s with processed := s.processed ++ [delivery.event] } := by
      intro hstep
      have hone := hanswered delivery.event (processed_step s delivery ▸
        List.mem_append_right _ (List.mem_singleton_self _))
      rw [hstep, hnone] at hone
      exact zero_ne_one hone
    rcases hids : (service.verificationIds delivery.event).head? with _ | id
    · exact hsame (step_of_claims_eq_nil (List.map_eq_nil_iff.mp (List.head?_eq_none_iff.mp hids)))
    by_cases hmem : id ∈ s.tables.verifications.map ClaimVerification.verificationId
    · exact hsame (step_of_mem hids hmem)
    refine violations_step hids hmem (fun output houtput hstores => hfirst ⟨?_, ?_, ?_⟩) hviolations
    · intro hnil
      rw [verificationIds, hnil] at hids
      cases hids
    · exact fun other hother hsame => hseen ⟨other, hother, hsame⟩
    · intro id hid hstored
      have hdistinct : ((s.tables.verifications ++ service.verifications delivery.surroundings
          delivery.event).map ClaimVerification.verificationId).Nodup := hstores.ids
      rw [List.map_append, map_verificationId] at hdistinct
      exact (List.nodup_append.mp hdistinct).2.2 id hstored id hid rfl

/-- **Every revision is verified once** in every state of a run exactly when all its deliveries are
careful. -/
theorem verifiedOnce_iff (service : NarrativeVerificationService)
    (deliveries : List NarrativeDelivery) :
    Always service.step VerifiedOnce {} deliveries ↔
      Throughout service.step service.Careful {} deliveries :=
  always_iff_throughout (I := Sound) (fun _ _ => sound_step) (fun _ h => h.verifiedOnce)
    (fun _ _ => not_verifiedOnce_step) sound_empty deliveries

end NarrativeVerificationService

/-! ## Two revisions of a narrative -/

/-- A delivery of a revision, with no disclosure stored. -/
def revisionDelivery (revisionId summary : String) : NarrativeDelivery where
  event := {
    eventType := "narrative.clustered"
    eventTime := 100
    narrative := {
      narrativeId := "n1", narrativeRevisionId := revisionId, scopeId := "LIVE"
      assetId := "AAPL", summary := summary }
    featureSnapshot := .null
    graphFeatures := .empty }
  surroundings := { disclosures := {}, coverage := fun _ _ => .empty, now := 200 }
  isNarrative := rfl

/-- The hash of a canonical claim: its tokens. -/
def tokenExtractor : DeterministicClaimExtractor where
  sha256 canonical := " ".intercalate canonical.contentTokens

/-- The second revision begins with the claim of the first: it is dropped. -/
theorem second_revision_dropped :
    ¬ ∀ (service : NarrativeVerificationService) (deliveries : List NarrativeDelivery),
      Always service.step VerifiedOnce {} deliveries := by
  intro h
  have hfinal := (h ⟨{}, tokenExtractor, fun _ => ""⟩
    [revisionDelivery "r1" "shares will double soon",
      revisionDelivery "r2" "shares will double soon; insiders keep buying"]).final
  have hcount := hfinal.2 (revisionDelivery "r2" "shares will double soon; insiders keep buying").event
    (by
      rw [run_cons, run_cons, run_nil, NarrativeVerificationService.processed_step]
      exact List.mem_append_right _ (List.mem_singleton_self _))
  revert hcount
  decide +kernel

-- with that claim in another place the transaction fails
example :
    let service : NarrativeVerificationService := ⟨{}, tokenExtractor, fun _ => ""⟩
    (run service.step {} [revisionDelivery "r1" "shares will double soon",
      revisionDelivery "r2" "insiders keep buying; shares will double soon"]).violations =
        ["claim_verifications_pkey"] := by
  decide +kernel

end Verification
end Scam2Market
