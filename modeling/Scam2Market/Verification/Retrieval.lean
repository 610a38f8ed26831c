import Mathlib.Data.Finset.Card
import Scam2Market.Verification.Hindsight
import Scam2Market.Verification.Versions

/-!
# The two retrievals

`candidates` of `SqlVerificationRepository` and of `InMemoryVerificationRepository` on the same stored
documents.

* `mem_versionsOf`, `isSelected_iff`: both look at the versions that are not available yet and at the
  newest that is.
* `candidates_agree`: the candidates in memory are the rows that the query joins; the query returns the
  first 500 of them.
* `candidates_limit`: a document with 501 chunks.
-/

namespace Scam2Market
namespace Verification

open Library
open DisclosureTables (RowOf rowOf)

/-! ## The same documents -/

/-- The chunk, the disclosure, its version and the time it became available. -/
def DisclosureCandidate.identity (candidate : DisclosureCandidate) :
    ChunkId × DisclosureId × ℕ × Datetime :=
  (candidate.chunkId, candidate.disclosureId, candidate.documentVersion, candidate.availableAt)

/-- The keys of the tables are unique. -/
structure DisclosureTables.Keyed (t : DisclosureTables) : Prop where
  ids : (t.disclosures.map DisclosureModel.disclosureId).Nodup
  versions : (t.disclosures.map fun row => (row.groupKey, row.documentVersion)).Nodup
  chunkIds : (t.chunks.map DisclosureChunk.chunkId).Nodup

/-- Both stores have the same documents, with their chunks. -/
structure SameDocuments (t : DisclosureTables) (repository : InMemoryVerificationRepository) :
    Prop where
  keyed : t.Keyed
  disclosures : (repository.stored.map fun item => rowOf item.1).Perm (t.disclosures.map .ok)
  chunks : t.chunks.Perm (repository.stored.flatMap Prod.snd)
  references : ∀ item ∈ repository.stored, ∀ chunk ∈ item.2,
    chunk.disclosureId = item.1.disclosureId

namespace SameDocuments

variable {t : DisclosureTables} {repository : InMemoryVerificationRepository}
  {item other : StoredDocument} {row : DisclosureModel}

theorem row_of_item (h : SameDocuments t repository) (hitem : item ∈ repository.stored) :
    ∃ row ∈ t.disclosures, RowOf item.1 row := by
  have hmem := h.disclosures.mem_iff.mp (List.mem_map_of_mem hitem)
  obtain ⟨row, hrow, heq⟩ := List.mem_map.mp hmem
  exact ⟨row, hrow, DisclosureTables.rowOf_eq_ok heq.symm⟩

theorem item_of_row (h : SameDocuments t repository) (hrow : row ∈ t.disclosures) :
    ∃ item ∈ repository.stored, RowOf item.1 row := by
  have hmem := h.disclosures.mem_iff.mpr (List.mem_map_of_mem hrow)
  obtain ⟨item, hitem, heq⟩ := List.mem_map.mp hmem
  exact ⟨item, hitem, DisclosureTables.rowOf_eq_ok heq⟩

/-- A stored document is told by its key and its version. -/
theorem eq_of_version (h : SameDocuments t repository) (hitem : item ∈ repository.stored)
    (hother : other ∈ repository.stored) (hkey : item.1.groupKey = other.1.groupKey)
    (hversion : item.1.documentVersion = other.1.documentVersion) : item = other := by
  have hok : Function.Injective (Except.ok : DisclosureModel → Except PyError DisclosureModel) :=
    fun _ _ heq => Except.ok.inj heq
  have hnodup : (repository.stored.map fun item => rowOf item.1).Nodup :=
    h.disclosures.nodup_iff.mpr (h.keyed.ids.of_map.map hok)
  have hmem := h.disclosures.mem_iff.mp (List.mem_map_of_mem hitem)
  have hmem' := h.disclosures.mem_iff.mp (List.mem_map_of_mem hother)
  obtain ⟨row, hrow, heq⟩ := List.mem_map.mp hmem
  obtain ⟨row', hrow', heq'⟩ := List.mem_map.mp hmem'
  have hvalues := DisclosureTables.rowOf_eq_ok heq.symm
  have hvalues' := DisclosureTables.rowOf_eq_ok heq'.symm
  have hrows : row = row' := by
    refine eq_of_key_eq h.keyed.versions hrow hrow' (Prod.ext ?_ ?_)
    · exact hvalues.groupKey.trans (hkey.trans hvalues'.groupKey.symm)
    · exact hvalues.documentVersion.trans (hversion.trans hvalues'.documentVersion.symm)
  exact List.inj_on_of_nodup_map hnodup hitem hother (heq.symm.trans (hrows ▸ heq'))

end SameDocuments

/-! ## The versions that are looked at -/

section Selection

variable {alertTime : Datetime} {item : StoredDocument} {rows : List StoredDocument}
  {k : String × String}

/-- In memory: the versions that are not available yet, and the newest that is. -/
theorem mem_versionsOf (hunique : ∀ item ∈ rows, ∀ other ∈ rows,
      item.1.groupKey = other.1.groupKey → item.1.documentVersion = other.1.documentVersion →
        item = other) :
    item ∈ versionsOf alertTime k rows ↔ item ∈ rows ∧ item.1.groupKey = k ∧
      (alertTime < item.1.listedAt ∨ ∀ other ∈ rows, other.1.groupKey = k →
        other.1.listedAt ≤ alertTime → other.1.documentVersion ≤ item.1.documentVersion) := by
  have hgroup : ∀ {item}, item ∈ groupOf (fun item : StoredDocument => item.1.groupKey) k rows ↔
      item ∈ rows ∧ item.1.groupKey = k := by
    simp [groupOf]
  have heligible : ∀ {item}, item ∈ (groupOf (fun item : StoredDocument => item.1.groupKey) k
      rows).filter (fun item => item.1.listedAt ≤ alertTime) ↔
      (item ∈ rows ∧ item.1.groupKey = k) ∧ item.1.listedAt ≤ alertTime := by
    intro item
    rw [List.mem_filter, hgroup, decide_eq_true_iff]
  unfold versionsOf selectVersions
  rw [List.mem_append, List.mem_filter, hgroup, decide_eq_true_iff, Option.mem_toList]
  constructor
  · rintro (hnewest | ⟨⟨hrows, hk⟩, hlate⟩)
    · obtain ⟨⟨hrows, hk⟩, -⟩ := heligible.mp (List.argmax_mem hnewest)
      refine ⟨hrows, hk, .inr fun other hother hk' havailable => ?_⟩
      exact List.le_of_mem_argmax (f := fun item : StoredDocument => item.1.documentVersion)
        (heligible.mpr ⟨⟨hother, hk'⟩, havailable⟩) hnewest
    · exact ⟨hrows, hk, .inl hlate⟩
  · rintro ⟨hrows, hk, hlooked⟩
    by_cases hlate : alertTime < item.1.listedAt
    · exact .inr ⟨⟨hrows, hk⟩, hlate⟩
    · have hmem := heligible.mpr ⟨⟨hrows, hk⟩, not_lt.mp hlate⟩
      refine .inl (argmax_eq_some_of_unique hmem (fun other hother => ?_) fun other hother => ?_)
      · obtain ⟨⟨hother, hk'⟩, havailable⟩ := heligible.mp hother
        exact hlooked.resolve_left hlate other hother hk' havailable
      · obtain ⟨⟨hother, hk'⟩, -⟩ := heligible.mp hother
        exact hunique other hother item hrows (hk'.trans hk.symm)

end Selection

namespace DisclosureTables

variable {t : DisclosureTables} {row : DisclosureModel} {assetId : String}
  {alertTime earliest latest : Datetime}

theorem temporalGroup_eq (havailable : row.availableAt ≤ alertTime) (other : DisclosureModel) :
    temporalGroup alertTime other = temporalGroup alertTime row ↔
      other.availableAt ≤ alertTime := by
  unfold temporalGroup
  rw [if_pos havailable]
  split_ifs with hother
  · exact iff_of_true rfl hother
  · exact iff_of_false not_false hother

/-- In the database, likewise. -/
theorem isSelected_iff : t.IsSelected assetId alertTime earliest latest row ↔
    (row.assetId = some assetId ∨ row.assetId = none) ∧
      (earliest ≤ row.publishedAt ∧ row.publishedAt ≤ latest) ∧
      (alertTime < row.availableAt ∨ ∀ other ∈ t.disclosures, other.groupKey = row.groupKey →
        other.availableAt ≤ alertTime → other.documentVersion ≤ row.documentVersion) := by
  have hrank : ¬ alertTime < row.availableAt → (t.versionRank alertTime row = 1 ↔
      ∀ other ∈ t.disclosures, other.groupKey = row.groupKey →
        other.availableAt ≤ alertTime → other.documentVersion ≤ row.documentVersion) := by
    intro havailable
    rw [not_lt] at havailable
    unfold versionRank
    rw [Nat.add_eq_right, List.countP_eq_zero]
    simp only [mem_versions, Bool.and_eq_true, decide_eq_true_iff, temporalGroup_eq havailable,
      not_and, not_lt, and_imp]
  unfold IsSelected
  rw [and_assoc]
  refine and_congr_right fun _ => and_congr_right fun _ => and_congr_right fun _ => ?_
  by_cases hlate : alertTime < row.availableAt
  · exact iff_of_true (.inl hlate) (.inl hlate)
  · rw [hrank hlate]

end DisclosureTables

/-! ## The candidates -/

/-- The rows that the query joins within the horizon of the alert. -/
def DisclosureTables.horizonRows (t : DisclosureTables) (assetId : String) (alertTime : Datetime)
    (lookbackDays futureDays : ℤ) : List (DisclosureChunk × DisclosureModel) :=
  t.joined assetId alertTime (alertTime - timedeltaSeconds (86400 * lookbackDays))
    (alertTime + timedeltaSeconds (86400 * futureDays))

section Candidates

variable {t : DisclosureTables} {repository : InMemoryVerificationRepository}
  {item : StoredDocument} {row : DisclosureModel} {chunk : DisclosureChunk}
  {pair : DisclosureChunk × DisclosureModel} {candidate : DisclosureCandidate}
  {text : ChunkId → String} {assetId : String} {alertTime : Datetime} {lookbackDays futureDays : ℤ}

theorem listedAt_of_rowOf (h : RowOf item.1 row) : item.1.listedAt = row.availableAt := by
  unfold DisclosureDocument.listedAt
  rw [h.availableAt]
  rfl

/-- A document is looked at in memory when its row is selected. -/
theorem SameDocuments.looked_iff (h : SameDocuments t repository)
    (hitem : item ∈ repository.stored) (hvalues : RowOf item.1 row) (earliest latest : Datetime) :
    InScope assetId earliest latest item.1 ∧
        item ∈ versionsOf alertTime item.1.groupKey repository.stored ↔
      t.IsSelected assetId alertTime earliest latest row := by
  rw [mem_versionsOf fun item hitem other hother => h.eq_of_version hitem hother,
    DisclosureTables.isSelected_iff, listedAt_of_rowOf hvalues, hvalues.assetId,
    hvalues.publishedAt, hvalues.groupKey, hvalues.documentVersion]
  have hnewest : (∀ other ∈ repository.stored, other.1.groupKey = item.1.groupKey →
        other.1.listedAt ≤ alertTime → other.1.documentVersion ≤ item.1.documentVersion) ↔
      ∀ other ∈ t.disclosures, other.groupKey = item.1.groupKey →
        other.availableAt ≤ alertTime → other.documentVersion ≤ item.1.documentVersion := by
    constructor
    · intro hnewest other hother hkey havailable
      obtain ⟨source, hsource, hvalues⟩ := h.item_of_row hother
      rw [hvalues.documentVersion]
      rw [hvalues.groupKey] at hkey
      rw [← listedAt_of_rowOf hvalues] at havailable
      exact hnewest source hsource hkey havailable
    · intro hnewest other hother hkey havailable
      obtain ⟨row, hrow, hvalues⟩ := h.row_of_item hother
      rw [listedAt_of_rowOf hvalues] at havailable
      rw [← hvalues.groupKey] at hkey
      rw [← hvalues.documentVersion]
      exact hnewest row hrow hkey havailable
  rw [hnewest]
  unfold InScope
  constructor
  · rintro ⟨⟨hasset, hhorizon⟩, -, -, hlooked⟩
    exact ⟨hasset.symm, hhorizon, hlooked⟩
  · rintro ⟨hasset, hhorizon, hlooked⟩
    exact ⟨⟨hasset.symm, hhorizon⟩, hitem, rfl, hlooked⟩

theorem mem_horizonRows :
    pair ∈ t.horizonRows assetId alertTime lookbackDays futureDays ↔
      pair.1 ∈ t.chunks ∧ pair.2 ∈ t.disclosures ∧ pair.2.disclosureId = pair.1.disclosureId ∧
        t.IsSelected assetId alertTime (alertTime - timedeltaSeconds (86400 * lookbackDays))
          (alertTime + timedeltaSeconds (86400 * futureDays)) pair.2 := by
  obtain ⟨chunk, row⟩ := pair
  simp [DisclosureTables.horizonRows, DisclosureTables.joined]

/-- A row and its document make the same candidate of a chunk. -/
theorem identity_candidateRow (hvalues : RowOf item.1 row) (chunk : DisclosureChunk) :
    (t.candidateRow row chunk).identity = (candidateOf item.1 chunk).identity := by
  show (chunk.chunkId, row.disclosureId, row.documentVersion, row.availableAt) =
    (chunk.chunkId, item.1.disclosureId, item.1.documentVersion, item.1.availableAt.getD _)
  rw [hvalues.disclosureId, hvalues.documentVersion, hvalues.availableAt]
  rfl

theorem mem_horizonOf :
    candidate ∈ horizonOf assetId alertTime lookbackDays futureDays item ↔
      InScope assetId (alertTime - timedeltaSeconds (86400 * lookbackDays))
        (alertTime + timedeltaSeconds (86400 * futureDays)) item.1 ∧
      ∃ chunk ∈ item.2, candidateOf item.1 chunk = candidate := by
  unfold horizonOf candidatesOf
  split_ifs with hscope
  · rw [List.mem_map]
    exact (and_iff_right hscope).symm
  · exact iff_of_false List.not_mem_nil fun h => hscope h.1

/-- A row that the query joins is a candidate in memory. -/
theorem SameDocuments.candidate_of_pair (h : SameDocuments t repository)
    (hpair : pair ∈ t.horizonRows assetId alertTime lookbackDays futureDays) :
    ∃ candidate ∈ repository.candidates text assetId alertTime lookbackDays futureDays,
      candidate.identity = (t.candidateRow pair.2 pair.1).identity := by
  obtain ⟨hchunk, hrow, hid, hselected⟩ := mem_horizonRows.mp hpair
  obtain ⟨item, hitem, hmem⟩ := List.mem_flatMap.mp (h.chunks.mem_iff.mp hchunk)
  obtain ⟨row, hrow', hvalues⟩ := h.row_of_item hitem
  -- the row of the document that the chunk belongs to is the one it is joined with
  obtain rfl : row = pair.2 := eq_of_key_eq h.keyed.ids hrow' hrow
    (hvalues.disclosureId.trans ((h.references item hitem pair.1 hmem).symm.trans hid.symm))
  obtain ⟨hscope, hlooked⟩ := (h.looked_iff hitem hvalues _ _).mpr hselected
  exact ⟨candidateOf item.1 pair.1, mem_candidates.mpr ⟨_, item, hlooked,
    mem_horizonOf.mpr ⟨hscope, pair.1, hmem, rfl⟩⟩, (identity_candidateRow hvalues pair.1).symm⟩

/-- A candidate in memory is a row that the query joins. -/
theorem SameDocuments.pair_of_candidate (h : SameDocuments t repository)
    (hcandidate : candidate ∈ repository.candidates text assetId alertTime lookbackDays futureDays) :
    ∃ pair ∈ t.horizonRows assetId alertTime lookbackDays futureDays,
      (t.candidateRow pair.2 pair.1).identity = candidate.identity ∧
        pair.2.publishedAt = candidate.publishedAt := by
  obtain ⟨k, item, hlooked, hmem⟩ := mem_candidates.mp hcandidate
  obtain ⟨hscope, chunk, hchunk, rfl⟩ := mem_horizonOf.mp hmem
  have hunique : ∀ item ∈ repository.stored, ∀ other ∈ repository.stored, _ :=
    fun item hitem other hother => h.eq_of_version hitem hother
  obtain ⟨hitem, rfl, -⟩ := (mem_versionsOf hunique).mp hlooked
  obtain ⟨row, hrow, hvalues⟩ := h.row_of_item hitem
  refine ⟨(chunk, row), mem_horizonRows.mpr ⟨?_, hrow, ?_, ?_⟩, ?_, hvalues.publishedAt⟩
  · exact h.chunks.mem_iff.mpr (List.mem_flatMap.mpr ⟨item, hitem, hchunk⟩)
  · exact hvalues.disclosureId.trans (h.references item hitem chunk hchunk).symm
  · exact (h.looked_iff hitem hvalues _ _).mp ⟨hscope, hlooked⟩
  · exact identity_candidateRow hvalues chunk

/-- The candidate of a joined row. -/
def identityOf (t : DisclosureTables) (pair : DisclosureChunk × DisclosureModel) :
    ChunkId × DisclosureId × ℕ × Datetime :=
  (t.candidateRow pair.2 pair.1).identity

/-- A chunk is joined with one row at most. -/
theorem DisclosureTables.Keyed.nodup_horizonRows (h : t.Keyed) :
    ((t.horizonRows assetId alertTime lookbackDays futureDays).map (identityOf t)).Nodup := by
  have hchunks : ((t.horizonRows assetId alertTime lookbackDays futureDays).map
      fun pair => pair.1.chunkId).Nodup := by
    refine h.chunkIds.sublist ?_
    unfold horizonRows joined
    rw [List.map_flatMap]
    refine flatMap_sublist_map fun chunk _ => ?_
    have hone := length_filter_key_le_one h.ids chunk.disclosureId
    have hle : (t.disclosures.filter fun row => row.disclosureId = chunk.disclosureId ∧
        t.IsSelected assetId alertTime (alertTime - timedeltaSeconds (86400 * lookbackDays))
          (alertTime + timedeltaSeconds (86400 * futureDays)) row).length ≤ 1 := by
      refine (List.Sublist.length_le (List.monotone_filter_right _ fun row hrow => ?_)).trans hone
      exact decide_eq_true (of_decide_eq_true hrow).1
    rw [List.map_map]
    show ((t.disclosures.filter _).map fun _ => chunk.chunkId).Sublist _
    rw [List.map_const']
    exact (List.replicate_sublist_replicate _).mpr hle
  refine List.Nodup.of_map Prod.fst ?_
  rw [List.map_map]
  exact hchunks

/-- The candidates in memory are the rows that the query joins. -/
theorem SameDocuments.identities_eq (h : SameDocuments t repository) :
    ((repository.candidates text assetId alertTime lookbackDays futureDays).map
        DisclosureCandidate.identity).toFinset =
      ((t.horizonRows assetId alertTime lookbackDays futureDays).map (identityOf t)).toFinset := by
  ext identity
  rw [List.mem_toFinset, List.mem_toFinset, List.mem_map, List.mem_map]
  constructor
  · rintro ⟨candidate, hcandidate, rfl⟩
    obtain ⟨pair, hpair, heq, -⟩ := h.pair_of_candidate hcandidate
    exact ⟨pair, hpair, heq⟩
  · rintro ⟨pair, hpair, rfl⟩
    exact h.candidate_of_pair hpair

end Candidates

/-! ## The limit -/

section Limit

variable {t : DisclosureTables} {repository : InMemoryVerificationRepository}
  {pair other : DisclosureChunk × DisclosureModel}

instance : Std.Total DisclosureTables.joinOrder :=
  ⟨fun _ _ => le_total (toLex _) (toLex _)⟩

instance : IsTrans (DisclosureChunk × DisclosureModel) DisclosureTables.joinOrder :=
  ⟨fun _ _ _ => le_trans⟩

theorem publishedAt_le_of_joinOrder (h : DisclosureTables.joinOrder pair other) :
    pair.2.publishedAt ≤ other.2.publishedAt := by
  rcases Prod.Lex.le_iff.mp h with hlt | ⟨heq, -⟩
  · exact hlt.le
  · exact heq.le

/-- **The retrievals agree up to the limit of the query.**  What the query returns is among the candidates
in memory.  It is all of them if they are no more than 500; else it is 500 of them, and none that it
leaves out was published before one that it returns. -/
theorem candidates_agree (h : SameDocuments t repository) (text : ChunkId → String)
    (assetId : String) (alertTime : Datetime) (lookbackDays futureDays : ℤ) :
    let returned := t.candidates assetId alertTime lookbackDays futureDays
    let inMemory := repository.candidates text assetId alertTime lookbackDays futureDays
    let identities := fun candidates : List DisclosureCandidate =>
      (candidates.map DisclosureCandidate.identity).toFinset
    identities returned ⊆ identities inMemory ∧
    ((identities inMemory).card ≤ 500 → identities returned = identities inMemory) ∧
    (500 < (identities inMemory).card → (identities returned).card = 500 ∧
      ∀ candidate ∈ returned, ∀ other ∈ inMemory, other.identity ∉ identities returned →
        candidate.publishedAt ≤ other.publishedAt) := by
  intro returned inMemory identities
  set rows := t.horizonRows assetId alertTime lookbackDays futureDays with hrows
  set sorted := rows.insertionSort DisclosureTables.joinOrder with hsorted
  have hperm : sorted.Perm rows := List.perm_insertionSort _ rows
  have hmemory : identities inMemory = (rows.map (identityOf t)).toFinset := h.identities_eq
  have hreturned : identities returned = ((sorted.take 500).map (identityOf t)).toFinset := by
    show ((List.map _ (sorted.take 500)).map _).toFinset = _
    rw [List.map_map]
    rfl
  have hnodup : (rows.map (identityOf t)).Nodup := h.keyed.nodup_horizonRows
  have hnodup' : ((sorted.take 500).map (identityOf t)).Nodup :=
    ((hperm.map _).nodup_iff.mpr hnodup).sublist ((List.take_sublist 500 sorted).map _)
  have hcard : (identities inMemory).card = rows.length := by
    rw [hmemory, List.toFinset_card_of_nodup hnodup, List.length_map]
  have hcard' : (identities returned).card = min 500 rows.length := by
    rw [hreturned, List.toFinset_card_of_nodup hnodup', List.length_map, List.length_take,
      hperm.length_eq]
  have hsubset : identities returned ⊆ identities inMemory := by
    rw [hmemory, hreturned]
    intro identity hidentity
    obtain ⟨pair, hpair, rfl⟩ := List.mem_map.mp (List.mem_toFinset.mp hidentity)
    exact List.mem_toFinset.mpr
      (List.mem_map_of_mem (hperm.mem_iff.mp (List.mem_of_mem_take hpair)))
  refine ⟨hsubset, fun hle => Finset.eq_of_subset_of_card_le hsubset (by omega),
    fun hlt => ⟨by omega, ?_⟩⟩
  intro candidate hcandidate other hother hout
  obtain ⟨pair, hpair, rfl⟩ := List.mem_map.mp hcandidate
  obtain ⟨pair', hpair', hidentity, htime⟩ := h.pair_of_candidate hother
  have hdrop : pair' ∈ sorted.drop 500 := by
    have hmem : pair' ∈ sorted := hperm.mem_iff.mpr hpair'
    rw [← List.take_append_drop 500 sorted] at hmem
    refine (List.mem_append.mp hmem).resolve_left fun htake => hout ?_
    rw [hreturned]
    exact List.mem_toFinset.mpr (List.mem_map.mpr ⟨pair', htake, hidentity⟩)
  rw [← htime]
  exact publishedAt_le_of_joinOrder
    (rel_of_mem_take_of_mem_drop (List.pairwise_insertionSort _ rows) hpair hdrop)

end Limit

/-! ## A long report -/

/-- The stored filing. -/
def storedFiling : DisclosureDocument :=
  { filing "a" with firstObservedAt := some 10, ingestedAt := some 10, availableAt := some 10 }

def filingChunks (n : ℕ) : List DisclosureChunk :=
  (List.range n).map fun index =>
    { chunkId := ⟨(storedFiling.disclosureId, index)⟩
      disclosureId := storedFiling.disclosureId
      chunkIndex := index
      text := "Revenue rose." }

/-- The filing in `n` chunks, in the database and in memory. -/
def filingTables (n : ℕ) : DisclosureTables where
  disclosures := (rowOf storedFiling).toOption.toList
  chunks := filingChunks n

def filingRepository (n : ℕ) : InMemoryVerificationRepository where
  documents := OrderedDict.empty.set "exchange:10-K:1" (storedFiling, filingChunks n)

theorem sameDocuments_filing (n : ℕ) : SameDocuments (filingTables n) (filingRepository n) where
  keyed := {
    ids := List.nodup_singleton _
    versions := List.nodup_singleton _
    chunkIds := by
      show ((filingChunks n).map _).Nodup
      rw [filingChunks, List.map_map]
      refine List.nodup_range.map fun index index' h => ?_
      injection h with h
      exact (Prod.ext_iff.mp h).2 }
  disclosures := List.Perm.refl _
  chunks := by
    show (filingChunks n).Perm (filingChunks n ++ [])
    rw [List.append_nil]
  references item hitem chunk hchunk := by
    obtain rfl : item = (storedFiling, filingChunks n) := List.mem_singleton.mp hitem
    obtain ⟨index, -, rfl⟩ := List.mem_map.mp hchunk
    rfl

theorem candidates_agree_filing :
    (((filingTables 2).candidates "AAPL" 100 30 7).map DisclosureCandidate.identity).toFinset =
      (((filingRepository 2).candidates (fun _ => "") "AAPL" 100 30 7).map
        DisclosureCandidate.identity).toFinset :=
  (candidates_agree (sameDocuments_filing 2) (fun _ => "") "AAPL" 100 30 7).2.1 (by decide +kernel)

/-- A filing in 501 chunks: the query leaves one out. -/
theorem candidates_limit :
    ¬ ∀ (t : DisclosureTables) (repository : InMemoryVerificationRepository),
      SameDocuments t repository →
      ∀ (text : ChunkId → String) (assetId : String) (alertTime : Datetime)
        (lookbackDays futureDays : ℤ),
        ((t.candidates assetId alertTime lookbackDays futureDays).map
          DisclosureCandidate.identity).toFinset =
        ((repository.candidates text assetId alertTime lookbackDays futureDays).map
          DisclosureCandidate.identity).toFinset := by
  intro h
  have hsame := sameDocuments_filing 501
  have heq := h _ _ hsame (fun _ => "") "AAPL" 100 30 7
  have hmemory : (((filingRepository 501).candidates (fun _ => "") "AAPL" 100 30 7).map
      DisclosureCandidate.identity).toFinset = (((filingTables 501).horizonRows "AAPL" 100 30 7).map
        (identityOf (filingTables 501))).toFinset := hsame.identities_eq
  have hrows : ((filingTables 501).horizonRows "AAPL" 100 30 7).length = 501 := by decide +kernel
  have hcard : (((filingTables 501).candidates "AAPL" 100 30 7).map
      DisclosureCandidate.identity).toFinset.card ≤ 500 := by
    refine (List.toFinset_card_le _).trans ?_
    rw [List.length_map]
    exact (List.length_map ..).le.trans (List.length_take_le 500 _)
  rw [heq, hmemory, List.toFinset_card_of_nodup hsame.keyed.nodup_horizonRows, List.length_map,
    hrows] at hcard
  omega

end Verification
end Scam2Market
