import Scam2Market.Library.Runs
import Scam2Market.Verification.SqlRepository

/-!
# The versions of a document

* `VersionStore`: calls of `persist_versioned_disclosure` side by side.  A call takes the advisory lock of
  its document and reads the latest version; then it returns, writes the next version and commits, or is
  rolled back.
* `VersionChain`: the versions of one document.
* `VersionChain.append`: the next version continues the chain.
* `commit_call`: a call that is not disturbed is `persist_versioned_disclosure`.
* `versioned_store`: what holds of every document in every state.
-/

namespace Scam2Market
namespace Verification

open Library

/-! ## Calls side by side -/

/-- A call that holds the lock and has read the latest version. -/
structure PendingVersion where
  document : DisclosureDocument
  preserveTimestamps : Bool
  chunksFor : DisclosureDocument → List DisclosureChunk
  latest : Option DisclosureModel

/-- The tables, the transactions that are open, and what the calls returned. -/
structure VersionStore where
  tables : DisclosureTables := {}
  pending : List PendingVersion := []
  returned : List (Option DisclosureDocument) := []

inductive VersionMove where
  | call (document : DisclosureDocument) (preserveTimestamps : Bool)
    (chunksFor : DisclosureDocument → List DisclosureChunk)
  | commit (index : ℕ) (now : Datetime)
  | abort (index : ℕ)

namespace VersionStore

/-- The lock is taken, if it is free, and the latest version is read; `hash` is `hashtextextended`. -/
def call (hash : String → ℤ) (s : VersionStore) (document : DisclosureDocument)
    (preserveTimestamps : Bool) (chunksFor : DisclosureDocument → List DisclosureChunk) :
    VersionStore :=
  if ∀ other ∈ s.pending, hash (lockKey other.document) ≠ hash (lockKey document) then
    let latest := s.tables.latest? document.groupKey
    if latest.any fun row => row.contentHash = document.contentHash then
      { s with returned := s.returned ++ [none] }
    else
      { s with pending := s.pending ++ [⟨document, preserveTimestamps, chunksFor, latest⟩] }
  else s

/-- The next version is written; a violated constraint rolls the transaction back. -/
def commit (s : VersionStore) (index : ℕ) (now : Datetime) : VersionStore :=
  match s.pending[index]? with
  | none => s
  | some call =>
    let rest := s.pending.eraseIdx index
    match prepare call.preserveTimestamps now call.document call.latest with
    | none => { s with pending := rest, returned := s.returned ++ [none] }
    | some prepared =>
      match s.tables.writeVersion call.latest prepared (call.chunksFor prepared) with
      | .ok tables =>
        { tables := tables, pending := rest, returned := s.returned ++ [some prepared] }
      | .error _ => { s with pending := rest }

def step (hash : String → ℤ) (s : VersionStore) : VersionMove → VersionStore
  | .call document preserveTimestamps chunksFor => s.call hash document preserveTimestamps chunksFor
  | .commit index now => s.commit index now
  | .abort index => { s with pending := s.pending.eraseIdx index }

end VersionStore

/-! ## Chains of versions -/

/-- The versions of a document are numbered from 1.  The first supersedes none, every other one the one
before it, whose content is different; the highest is current, all others are superseded. -/
structure VersionChain (rows : List DisclosureModel) : Prop where
  versions : rows.map DisclosureModel.documentVersion = List.range' 1 rows.length
  first : ∀ row ∈ rows, row.documentVersion = 1 → row.supersedesDisclosureId = none
  next : ∀ row ∈ rows, ∀ previous ∈ rows, row.documentVersion = previous.documentVersion + 1 →
    row.supersedesDisclosureId = some previous.disclosureId ∧
      row.contentHash ≠ previous.contentHash
  status : ∀ row ∈ rows,
    row.versionStatus = if row.documentVersion = rows.length then "CURRENT" else "SUPERSEDED"

/-- The latest version, superseded. -/
def supersede (latest : Option DisclosureModel) (row : DisclosureModel) : DisclosureModel :=
  if latest.any fun other => row.disclosureId = other.disclosureId then
    { row with versionStatus := "SUPERSEDED" }
  else row

section Chains

variable {rows : List DisclosureModel} {latest : Option DisclosureModel}
  {row : DisclosureModel}

theorem versionChain_nil : VersionChain [] where
  versions := rfl
  first _ h := (List.not_mem_nil h).elim
  next _ h := (List.not_mem_nil h).elim
  status _ h := (List.not_mem_nil h).elim

theorem VersionChain.le_length (h : VersionChain rows) (hrow : row ∈ rows) :
    row.documentVersion ≤ rows.length := by
  have hmem : row.documentVersion ∈ List.range' 1 rows.length :=
    h.versions ▸ List.mem_map_of_mem hrow
  rw [List.mem_range'_1] at hmem
  omega

/-- The versions of a chain are told apart by their numbers. -/
theorem VersionChain.eq_of_version (h : VersionChain rows) {other : DisclosureModel}
    (hrow : row ∈ rows) (hother : other ∈ rows)
    (hversion : row.documentVersion = other.documentVersion) : row = other :=
  eq_of_key_eq (h.versions ▸ List.nodup_range' ..) hrow hother hversion

/-- The latest version of a chain is the highest. -/
theorem VersionChain.latest_version (h : VersionChain rows)
    (hlatest : rows.argmax DisclosureModel.documentVersion = some row) :
    row.documentVersion = rows.length := by
  have hrow : row ∈ rows := List.argmax_mem hlatest
  refine le_antisymm (h.le_length hrow) ?_
  have hpos : 0 < rows.length := List.length_pos_of_mem hrow
  have hmem : rows.length ∈ rows.map DisclosureModel.documentVersion := by
    rw [h.versions, List.mem_range'_1]
    omega
  obtain ⟨last, hlast, hversion⟩ := List.mem_map.mp hmem
  exact hversion ▸ List.le_of_mem_argmax hlast hlatest

@[simp] theorem supersede_documentVersion (latest : Option DisclosureModel)
    (row : DisclosureModel) : (supersede latest row).documentVersion = row.documentVersion := by
  unfold supersede
  split_ifs <;> rfl

@[simp] theorem supersede_disclosureId (latest : Option DisclosureModel) (row : DisclosureModel) :
    (supersede latest row).disclosureId = row.disclosureId := by
  unfold supersede
  split_ifs <;> rfl

@[simp] theorem supersede_supersedes (latest : Option DisclosureModel) (row : DisclosureModel) :
    (supersede latest row).supersedesDisclosureId = row.supersedesDisclosureId := by
  unfold supersede
  split_ifs <;> rfl

@[simp] theorem supersede_contentHash (latest : Option DisclosureModel) (row : DisclosureModel) :
    (supersede latest row).contentHash = row.contentHash := by
  unfold supersede
  split_ifs <;> rfl

@[simp] theorem supersede_groupKey (latest : Option DisclosureModel) (row : DisclosureModel) :
    (supersede latest row).groupKey = row.groupKey := by
  unfold supersede
  split_ifs <;> rfl

/-- No other version is superseded. -/
theorem supersede_of_ne (h : ∀ last, latest = some last → row.disclosureId ≠ last.disclosureId) :
    supersede latest row = row := by
  refine if_neg fun hsame => ?_
  obtain ⟨last, hlast, hid⟩ := (Option.any_eq_true _ _).mp hsame
  exact h last hlast (of_decide_eq_true hid)

/-- After the latest version is superseded, no version of its document is current. -/
theorem VersionChain.supersede_status (h : VersionChain rows)
    (hlatest : rows.argmax DisclosureModel.documentVersion = latest) (hrow : row ∈ rows) :
    (supersede latest row).versionStatus = "SUPERSEDED" := by
  unfold supersede
  split_ifs with hsame
  · rfl
  · rw [h.status row hrow, if_neg]
    intro hhighest
    -- the highest version is the latest one
    rcases latest with _ | last
    · rw [List.argmax_eq_none.mp hlatest] at hrow
      exact List.not_mem_nil hrow
    · have heq : row = last := h.eq_of_version hrow (List.argmax_mem hlatest)
        (hhighest.trans (h.latest_version hlatest).symm)
      exact hsame (by simp [heq])

/-- **The next version continues the chain.** -/
theorem VersionChain.append (h : VersionChain rows)
    (hlatest : rows.argmax DisclosureModel.documentVersion = latest) {new : DisclosureModel}
    (hversion : new.documentVersion = rows.length + 1)
    (hsupersedes : new.supersedesDisclosureId = latest.map DisclosureModel.disclosureId)
    (hhash : ∀ last, latest = some last → last.contentHash ≠ new.contentHash)
    (hstatus : new.versionStatus = "CURRENT") :
    VersionChain (rows.map (supersede latest) ++ [new]) := by
  have hlength : (rows.map (supersede latest) ++ [new]).length = rows.length + 1 := by
    rw [List.length_append, List.length_map, List.length_singleton]
  have hcases : ∀ {row}, row ∈ rows.map (supersede latest) ++ [new] →
      (∃ before ∈ rows, supersede latest before = row) ∨ row = new := fun hrow => by
    simpa using hrow
  constructor
  · rw [List.map_append, List.map_map, List.map_singleton, hlength, List.range'_1_concat, hversion,
      Nat.add_comm 1, ← h.versions]
    congr 1
    exact List.map_congr_left fun row _ => supersede_documentVersion latest row
  · intro row hrow hone
    rcases hcases hrow with ⟨before, hbefore, rfl⟩ | rfl
    · rw [supersede_supersedes]
      exact h.first before hbefore (by simpa using hone)
    · have hnone : rows = [] := List.length_eq_zero_iff.mp (by omega)
      rw [hsupersedes, ← hlatest, hnone]
      rfl
  · intro row hrow previous hprevious hnext
    rcases hcases hrow with ⟨before, hbefore, rfl⟩ | rfl
    · rcases hcases hprevious with ⟨before', hbefore', rfl⟩ | rfl
      · simpa using h.next before hbefore before' hbefore' (by simpa using hnext)
      · have hle := h.le_length hbefore
        rw [supersede_documentVersion] at hnext
        omega
    · rcases hcases hprevious with ⟨before, hbefore, rfl⟩ | rfl
      · -- the version before the new one is the latest
        rw [supersede_documentVersion] at hnext
        rcases hlast : latest with _ | last
        · rw [List.argmax_eq_none.mp (hlatest.trans hlast)] at hbefore
          exact (List.not_mem_nil hbefore).elim
        · obtain rfl : before = last := h.eq_of_version hbefore
            (List.argmax_mem (hlatest.trans hlast)) (by
              rw [h.latest_version (hlatest.trans hlast)]
              omega)
          rw [hsupersedes, hlast, supersede_disclosureId, supersede_contentHash]
          exact ⟨rfl, (hhash before hlast).symm⟩
      · omega
  · intro row hrow
    rw [hlength]
    rcases hcases hrow with ⟨before, hbefore, rfl⟩ | rfl
    · have hle := h.le_length hbefore
      rw [h.supersede_status hlatest hbefore, supersede_documentVersion, if_neg (by omega)]
    · rw [hstatus, if_pos hversion]

end Chains

/-! ## Transactions -/

namespace DisclosureTables

variable {t t' : DisclosureTables} {document : DisclosureDocument} {chunks : List DisclosureChunk}

/-- The row of a document has its values. -/
structure RowOf (document : DisclosureDocument) (row : DisclosureModel) : Prop where
  disclosureId : row.disclosureId = document.disclosureId
  groupKey : row.groupKey = document.groupKey
  documentVersion : row.documentVersion = document.documentVersion
  supersedes : row.supersedesDisclosureId = document.supersedesDisclosureId
  contentHash : row.contentHash = document.contentHash
  versionStatus : row.versionStatus = document.versionStatus
  assetId : row.assetId = document.assetId
  publishedAt : row.publishedAt = document.publishedAt
  availableAt : document.availableAt = some row.availableAt

theorem rowOf_eq_ok {row : DisclosureModel} (h : rowOf document = .ok row) :
    RowOf document row := by
  unfold rowOf at h
  split at h
  · rename_i havailable
    obtain rfl := Except.ok.inj h
    exact ⟨rfl, rfl, rfl, rfl, rfl, rfl, rfl, rfl, havailable⟩
  · cases h
  · cases h

/-- A document and its chunks violate no constraint. -/
structure Accepts (t : DisclosureTables) (document : DisclosureDocument)
    (chunks : List DisclosureChunk) : Prop where
  fresh : document.disclosureId ∉ t.disclosures.map DisclosureModel.disclosureId
  unversioned : ∀ other ∈ t.disclosures, other.groupKey = document.groupKey →
    other.documentVersion ≠ document.documentVersion
  supersedes : ∀ id, document.supersedesDisclosureId = some id →
    id ∈ t.disclosures.map DisclosureModel.disclosureId ∨ id = document.disclosureId
  references : ∀ chunk ∈ chunks,
    chunk.disclosureId ∈ t.disclosures.map DisclosureModel.disclosureId ∨
      chunk.disclosureId = document.disclosureId
  chunkIds : ((t.chunks ++ chunks).map DisclosureChunk.chunkId).Nodup

/-- A row and chunks are added exactly when they violate no constraint. -/
theorem addDisclosure_eq_ok_iff {row : DisclosureModel} (hrow : rowOf document = .ok row) :
    t.addDisclosure document chunks = .ok t' ↔ t.Accepts document chunks ∧
      t' = { t with disclosures := t.disclosures ++ [row], chunks := t.chunks ++ chunks } := by
  have hvalues := rowOf_eq_ok hrow
  have hmem : ∀ id, id ∈ (t.disclosures ++ [row]).map DisclosureModel.disclosureId ↔
      id ∈ t.disclosures.map DisclosureModel.disclosureId ∨ id = document.disclosureId := by
    intro id
    rw [List.map_append, List.mem_append, List.map_singleton, List.mem_singleton,
      hvalues.disclosureId]
  unfold addDisclosure
  rw [hrow]
  simp only [bind, Except.bind, pure, Except.pure, throw, throwThe, MonadExceptOf.throw,
    hvalues.disclosureId, hvalues.groupKey, hvalues.documentVersion, hvalues.supersedes, hmem]
  split_ifs with hfresh hversion hsupersedes hchunks hnodup
  · exact ⟨fun h => (nomatch h), fun h => absurd hfresh h.1.fresh⟩
  · refine ⟨fun h => (nomatch h), fun h => ?_⟩
    obtain ⟨other, hother, hsame⟩ := List.any_eq_true.mp hversion
    rw [Bool.and_eq_true, decide_eq_true_iff, decide_eq_true_iff] at hsame
    exact absurd hsame.2 (h.1.unversioned other hother hsame.1)
  · refine ⟨fun h => (nomatch h), fun h => ?_⟩
    obtain ⟨id, hid, hdangling⟩ := (Option.any_eq_true _ _).mp hsupersedes
    exact absurd (h.1.supersedes id hid) (of_decide_eq_true hdangling)
  · refine ⟨fun h => (nomatch h), fun h => ?_⟩
    obtain ⟨chunk, hchunk, hdangling⟩ := List.any_eq_true.mp hchunks
    exact absurd (h.1.references chunk hchunk) (of_decide_eq_true hdangling)
  · refine ⟨fun h => ⟨⟨hfresh, ?_, ?_, ?_, hnodup⟩, (Except.ok.inj h).symm⟩, fun h => h.2 ▸ rfl⟩
    · simpa using hversion
    · intro id hid
      by_contra hdangling
      exact hsupersedes ((Option.any_eq_true _ _).mpr ⟨id, hid, decide_eq_true hdangling⟩)
    · intro chunk hchunk
      by_contra hdangling
      exact hchunks (List.any_eq_true.mpr ⟨chunk, hchunk, decide_eq_true hdangling⟩)
  · exact ⟨fun h => (nomatch h), fun h => absurd h.1.chunkIds hnodup⟩

/-- What is added is a row with the values of the document. -/
theorem addDisclosure_eq_ok (h : t.addDisclosure document chunks = .ok t') :
    t.Accepts document chunks ∧ ∃ row, RowOf document row ∧
      t' = { t with disclosures := t.disclosures ++ [row], chunks := t.chunks ++ chunks } := by
  rcases hrow : rowOf document with error | row
  · unfold addDisclosure at h
    rw [hrow] at h
    cases h
  · obtain ⟨haccepts, rfl⟩ := (addDisclosure_eq_ok_iff hrow).mp h
    exact ⟨haccepts, row, rowOf_eq_ok hrow, rfl⟩

/-- The rows keep their documents when one of them is superseded. -/
theorem versions_supersede (latest : Option DisclosureModel) (key : String × String) :
    { t with disclosures := t.disclosures.map (supersede latest) }.versions key =
      (t.versions key).map (supersede latest) := by
  show (t.disclosures.map (supersede latest)).filter _ = (t.disclosures.filter _).map _
  rw [List.filter_map]
  congr 2
  funext row
  simp

theorem mem_versions {key : String × String} {row : DisclosureModel} :
    row ∈ t.versions key ↔ row ∈ t.disclosures ∧ row.groupKey = key := by
  simp [versions]

end DisclosureTables

/-- What the next version of a document is. -/
structure Prepared (document : DisclosureDocument) (latest : Option DisclosureModel)
    (prepared : DisclosureDocument) : Prop where
  changed : ∀ row, latest = some row → row.contentHash ≠ document.contentHash
  groupKey : prepared.groupKey = document.groupKey
  contentHash : prepared.contentHash = document.contentHash
  documentVersion : prepared.documentVersion = (latest.elim 0 DisclosureModel.documentVersion) + 1
  supersedes : prepared.supersedesDisclosureId = latest.map DisclosureModel.disclosureId
  versionStatus : prepared.versionStatus = "CURRENT"

/-- A default that has been taken is taken again. -/
theorem orText_some_orText (first : Option String) (second : String) :
    orText (some (orText first second)) second = orText first second := by
  unfold orText
  rcases first with _ | value
  · exact ite_self second
  · by_cases hvalue : value = "" <;> simp [hvalue]

theorem prepare_eq_some {preserveTimestamps : Bool} {now : Datetime}
    {document prepared : DisclosureDocument} {latest : Option DisclosureModel}
    (h : prepare preserveTimestamps now document latest = some prepared) :
    Prepared document latest prepared := by
  unfold prepare at h
  split_ifs at h with hsame
  obtain rfl := Option.some.inj h
  refine ⟨?_, ?_, rfl, ?_, rfl, rfl⟩
  · rintro row rfl hhash
    exact hsame (decide_eq_true hhash)
  · exact Prod.ext (orText_some_orText _ _) (orText_some_orText _ _)
  · cases latest <;> rfl

/-! ## The store -/

namespace DisclosureTables

/-- What holds of the tables: ids are unique, every document has a chain of versions, and chunks refer to
stored versions. -/
structure Consistent (t : DisclosureTables) : Prop where
  ids : (t.disclosures.map DisclosureModel.disclosureId).Nodup
  chains : ∀ key, VersionChain (t.versions key)
  chunks : ∀ chunk ∈ t.chunks, chunk.disclosureId ∈ t.disclosures.map DisclosureModel.disclosureId

variable {t t' : DisclosureTables}

theorem consistent_empty : Consistent {} where
  ids := List.nodup_nil
  chains _ := versionChain_nil
  chunks _ h := (List.not_mem_nil h).elim

/-- Superseding the latest version of a document leaves the other documents alone. -/
theorem supersede_other (hids : (t.disclosures.map DisclosureModel.disclosureId).Nodup) {key key' : String × String}
    (hne : key' ≠ key) : (t.versions key').map (supersede (t.latest? key)) = t.versions key' := by
  refine (List.map_congr_left fun row hrow => ?_).trans (List.map_id _)
  refine supersede_of_ne fun last hlast hid => hne ?_
  have hmem : last ∈ t.versions key := List.argmax_mem hlast
  rw [mem_versions] at hrow hmem
  rw [← hrow.2, ← hmem.2, eq_of_key_eq hids hrow.1 hmem.1 hid]

/-- What the tables are after the next version is written. -/
structure Written (t : DisclosureTables) (latest : Option DisclosureModel)
    (prepared : DisclosureDocument) (row : DisclosureModel) (t' : DisclosureTables) : Prop where
  values : RowOf prepared row
  disclosures : t'.disclosures = t.disclosures.map (supersede latest) ++ [row]
  fresh : row.disclosureId ∉ t.disclosures.map DisclosureModel.disclosureId
  chunks : ∀ chunk ∈ t'.chunks, chunk ∈ t.chunks ∨
    chunk.disclosureId ∈ t'.disclosures.map DisclosureModel.disclosureId

/-- Superseding a version keeps the ids. -/
theorem map_supersede_disclosureId (latest : Option DisclosureModel)
    (rows : List DisclosureModel) :
    (rows.map (supersede latest)).map DisclosureModel.disclosureId =
      rows.map DisclosureModel.disclosureId := by
  rw [List.map_map]
  exact List.map_congr_left fun row _ => supersede_disclosureId latest row

theorem writeVersion_eq_ok {latest : Option DisclosureModel} {prepared : DisclosureDocument}
    {chunks : List DisclosureChunk} (h : t.writeVersion latest prepared chunks = .ok t') :
    ∃ row, Written t latest prepared row t' := by
  obtain ⟨haccepts, row, hrow, rfl⟩ := addDisclosure_eq_ok h
  refine ⟨row, hrow, rfl, ?_, fun chunk hchunk => ?_⟩
  · rw [← map_supersede_disclosureId latest t.disclosures, hrow.disclosureId]
    exact haccepts.fresh
  · refine (List.mem_append.mp hchunk).imp_right fun hnew => ?_
    rw [List.map_append, List.mem_append, List.map_singleton, List.mem_singleton,
      hrow.disclosureId]
    exact haccepts.references chunk hnew

/-- The versions of a document after its next version is written, or that of another document. -/
theorem Written.versions {latest : Option DisclosureModel} {prepared : DisclosureDocument}
    {row : DisclosureModel} (h : Written t latest prepared row t') (key : String × String) :
    t'.versions key =
      (t.versions key).map (supersede latest) ++ if prepared.groupKey = key then [row] else [] := by
  show t'.disclosures.filter _ = _
  rw [h.disclosures, List.filter_append, List.filter_singleton, ← versions_supersede,
    h.values.groupKey]
  congr 1
  by_cases hkey : prepared.groupKey = key <;> simp [hkey]

theorem Written.ids {latest : Option DisclosureModel} {prepared : DisclosureDocument}
    {row : DisclosureModel} (h : Written t latest prepared row t') :
    t'.disclosures.map DisclosureModel.disclosureId =
      t.disclosures.map DisclosureModel.disclosureId ++ [row.disclosureId] := by
  rw [h.disclosures, List.map_append, map_supersede_disclosureId]
  rfl

/-- **Writing the next version of a document keeps the tables consistent.** -/
theorem Consistent.written (h : t.Consistent) {document prepared : DisclosureDocument}
    {row : DisclosureModel} (hprepared : Prepared document (t.latest? document.groupKey) prepared)
    (hwritten : Written t (t.latest? document.groupKey) prepared row t') :
    t'.Consistent ∧ ∀ key ≠ document.groupKey, t'.versions key = t.versions key := by
  have hother : ∀ key ≠ document.groupKey, t'.versions key = t.versions key := by
    intro key hkey
    rw [hwritten.versions, supersede_other h.ids hkey, hprepared.groupKey, if_neg (Ne.symm hkey),
      List.append_nil]
  refine ⟨⟨?_, fun key => ?_, fun chunk hchunk => ?_⟩, hother⟩
  · rw [hwritten.ids]
    exact List.concat_eq_append ▸ h.ids.concat hwritten.fresh
  · by_cases hkey : key = document.groupKey
    · subst hkey
      rw [hwritten.versions, hprepared.groupKey, if_pos rfl]
      refine (h.chains _).append rfl ?_ ?_ ?_ ?_
      · rw [hwritten.values.documentVersion, hprepared.documentVersion]
        congr 1
        rcases hlatest : t.latest? document.groupKey with _ | last
        · rw [List.argmax_eq_none.mp hlatest]
          rfl
        · exact (h.chains _).latest_version hlatest
      · rw [hwritten.values.supersedes, hprepared.supersedes]
        rfl
      · rw [hwritten.values.contentHash, hprepared.contentHash]
        exact hprepared.changed
      · rw [hwritten.values.versionStatus, hprepared.versionStatus]
    · rw [hother key hkey]
      exact h.chains key
  · rcases hwritten.chunks chunk hchunk with hold | hnew
    · rw [hwritten.ids]
      exact List.mem_append_left _ (h.chunks chunk hold)
    · exact hnew

end DisclosureTables

namespace VersionStore

variable {hash : String → ℤ} {s : VersionStore}

/-- What holds between the steps: no two calls hold one lock, and what a call has read is still so. -/
structure Sound (hash : String → ℤ) (s : VersionStore) : Prop where
  tables : s.tables.Consistent
  locks : s.pending.Pairwise fun call other =>
    hash (lockKey call.document) ≠ hash (lockKey other.document)
  latest : ∀ call ∈ s.pending, call.latest = s.tables.latest? call.document.groupKey

theorem sound_empty : Sound hash {} where
  tables := DisclosureTables.consistent_empty
  locks := List.Pairwise.nil
  latest _ h := (List.not_mem_nil h).elim

theorem Sound.call (h : Sound hash s) (document : DisclosureDocument) (preserveTimestamps : Bool)
    (chunksFor : DisclosureDocument → List DisclosureChunk) :
    Sound hash (s.call hash document preserveTimestamps chunksFor) := by
  unfold VersionStore.call
  dsimp only
  split_ifs with hfree
  · exact ⟨h.tables, h.locks, h.latest⟩
  · refine ⟨h.tables, ?_, fun call hcall => ?_⟩
    · exact List.pairwise_append.mpr ⟨h.locks, List.pairwise_singleton _ _,
        fun call hcall other hother => List.mem_singleton.mp hother ▸ hfree call hcall⟩
    · rcases List.mem_append.mp hcall with hold | hnew
      · exact h.latest call hold
      · rw [List.mem_singleton.mp hnew]
  · exact h

theorem Sound.erase (h : Sound hash s) (index : ℕ) :
    Sound hash { s with pending := s.pending.eraseIdx index } where
  tables := h.tables
  locks := h.locks.sublist (List.eraseIdx_sublist _ index)
  latest call hcall := h.latest call ((List.eraseIdx_sublist _ index).subset hcall)

/-- Two calls for one document compete for one lock. -/
theorem lockKey_congr {document other : DisclosureDocument}
    (h : document.groupKey = other.groupKey) : lockKey document = lockKey other := by
  unfold lockKey
  rw [h]

/-- The calls that stay have other documents than the one that commits. -/
theorem Sound.groupKey_ne (h : Sound hash s) {index : ℕ} {call other : PendingVersion}
    (hcall : s.pending[index]? = some call) (hother : other ∈ s.pending.eraseIdx index) :
    other.document.groupKey ≠ call.document.groupKey := by
  intro hkey
  obtain ⟨index', hne, hget⟩ := List.mem_eraseIdx_iff_getElem?.mp hother
  have hpairwise := List.pairwise_iff_getElem.mp h.locks
  obtain ⟨hindex, rfl⟩ := List.getElem?_eq_some_iff.mp hcall
  obtain ⟨hindex', rfl⟩ := List.getElem?_eq_some_iff.mp hget
  rcases Nat.lt_or_gt_of_ne hne with hlt | hgt
  · exact hpairwise index' index hindex' hindex hlt (congrArg hash (lockKey_congr hkey))
  · exact hpairwise index index' hindex hindex' hgt (congrArg hash (lockKey_congr hkey.symm))

theorem Sound.commit (h : Sound hash s) (index : ℕ) (now : Datetime) :
    Sound hash (s.commit index now) := by
  unfold VersionStore.commit
  rcases hcall : s.pending[index]? with _ | call
  · exact h
  have herase := h.erase index
  rcases hprepare : prepare call.preserveTimestamps now call.document call.latest with _ | prepared
  · simp only [hprepare]
    exact ⟨herase.tables, herase.locks, herase.latest⟩
  rcases hwrite : s.tables.writeVersion call.latest prepared (call.chunksFor prepared) with
    error | tables
  · simpa only [hprepare, hwrite] using herase
  · simp only [hprepare, hwrite]
    have hlatest := h.latest call (List.mem_of_getElem? hcall)
    obtain ⟨row, hwritten⟩ := DisclosureTables.writeVersion_eq_ok hwrite
    rw [hlatest] at hprepare hwritten
    obtain ⟨hconsistent, hother⟩ := h.tables.written (prepare_eq_some hprepare) hwritten
    refine ⟨hconsistent, herase.locks, fun other hmem => ?_⟩
    -- the version that was read is of another document
    rw [herase.latest other hmem]
    unfold DisclosureTables.latest?
    rw [hother _ (h.groupKey_ne hcall hmem)]

theorem Sound.step (h : Sound hash s) (move : VersionMove) : Sound hash (s.step hash move) := by
  cases move with
  | call document preserveTimestamps chunksFor => exact h.call document preserveTimestamps chunksFor
  | commit index now => exact h.commit index now
  | abort index => exact h.erase index

theorem sound_run (moves : List VersionMove) :
    Sound hash (run (VersionStore.step hash) {} moves) :=
  run_invariant (I := Sound hash) (fun _ move h => h.step move) sound_empty moves

/-- A call with the content of the highest version returns none and changes nothing. -/
theorem Sound.call_same (h : Sound hash s) {document : DisclosureDocument}
    {row : DisclosureModel} (hrow : row ∈ s.tables.versions document.groupKey)
    (hhighest : ∀ other ∈ s.tables.versions document.groupKey,
      other.documentVersion ≤ row.documentVersion)
    (hsame : row.contentHash = document.contentHash)
    (hfree : ∀ other ∈ s.pending, hash (lockKey other.document) ≠ hash (lockKey document))
    (preserveTimestamps : Bool) (chunksFor : DisclosureDocument → List DisclosureChunk) :
    s.call hash document preserveTimestamps chunksFor =
      { s with returned := s.returned ++ [none] } := by
  have hlatest : s.tables.latest? document.groupKey = some row :=
    argmax_eq_some_of_unique hrow hhighest fun other hother =>
      (h.tables.chains _).eq_of_version hother hrow
  unfold VersionStore.call
  simp only [if_pos hfree, hlatest, Option.any_some, hsame, decide_true, if_true]

/-- A call that gets the lock and commits is `persist_versioned_disclosure`. -/
theorem commit_call {document : DisclosureDocument}
    (hfree : ∀ other ∈ s.pending, hash (lockKey other.document) ≠ hash (lockKey document))
    (preserveTimestamps : Bool) (now : Datetime)
    (chunksFor : DisclosureDocument → List DisclosureChunk) :
    (s.call hash document preserveTimestamps chunksFor).commit s.pending.length now =
      match s.tables.persistVersionedDisclosure preserveTimestamps now document chunksFor with
      | .ok (result, tables) => { s with tables, returned := s.returned ++ [result] }
      | .error _ => s := by
  unfold call DisclosureTables.persistVersionedDisclosure
  simp only [if_pos hfree]
  split_ifs with hsame
  · simp [commit, prepare, hsame, pure, Except.pure]
  · have hprepare : ∃ prepared, prepare preserveTimestamps now document
        (s.tables.latest? document.groupKey) = some prepared := by
      simp [prepare, hsame]
    obtain ⟨prepared, hprepared⟩ := hprepare
    have herase : ∀ call, (s.pending ++ [call]).eraseIdx s.pending.length = s.pending := by
      intro call
      rw [List.eraseIdx_append_of_length_le le_rfl]
      simp
    simp only [commit, List.getElem?_concat_length, hprepared, herase]
    rcases s.tables.writeVersion (s.tables.latest? document.groupKey) prepared (chunksFor prepared)
      with error | tables
    · rfl
    · rfl

end VersionStore

/-- **The versioned store.**  After any interleaving of calls every document has a chain of versions, and
every chunk belongs to a stored version.  A call with the content of the highest version of its document,
when it gets the lock, returns none and changes nothing. -/
theorem versioned_store (hash : String → ℤ) (moves : List VersionMove) :
    let s := run (VersionStore.step hash) {} moves
    (∀ key, VersionChain (s.tables.versions key)) ∧
    (∀ chunk ∈ s.tables.chunks,
      chunk.disclosureId ∈ s.tables.disclosures.map DisclosureModel.disclosureId) ∧
    ∀ (document : DisclosureDocument) (row : DisclosureModel) (preserveTimestamps : Bool)
      (chunksFor : DisclosureDocument → List DisclosureChunk),
      row ∈ s.tables.versions document.groupKey →
      (∀ other ∈ s.tables.versions document.groupKey,
        other.documentVersion ≤ row.documentVersion) →
      row.contentHash = document.contentHash →
      (∀ other ∈ s.pending, hash (lockKey other.document) ≠ hash (lockKey document)) →
      s.call hash document preserveTimestamps chunksFor =
        { s with returned := s.returned ++ [none] } := by
  intro s
  have hs : s.Sound hash := VersionStore.sound_run moves
  refine ⟨hs.tables.chains, hs.tables.chunks, ?_⟩
  intro document row preserveTimestamps chunksFor hrow hhighest hsame hfree
  exact hs.call_same hrow hhighest hsame hfree preserveTimestamps chunksFor

/-- A filing of an issuer, with the hash of its content. -/
def filing (contentHash : String) : DisclosureDocument where
  disclosureId := .given "filing"
  source := "exchange"
  sourceDocumentId := "10-K"
  title := "Annual report"
  body := "Revenue rose."
  publishedAt := 0
  retrievedAt := 10
  contentHash := contentHash

/-- The content flips back to that of the first version; then it is the same as that of the third. -/
theorem versioned_store_filing :
    let moves := ["a", "b", "a"].flatMap fun contentHash =>
      [.call (filing contentHash) true fun _ => [], .commit 0 20]
    let s := run (VersionStore.step fun _ => 0) {} moves
    s.call (fun _ => 0) (filing "a") true (fun _ => []) =
      { s with returned := s.returned ++ [none] } := by
  intro moves s
  refine (versioned_store (fun _ => 0) moves).2.2 (filing "a") (s.tables.disclosures.get ⟨2, ?_⟩)
    true (fun _ => []) (DisclosureTables.mem_versions.mpr ⟨List.get_mem _ _, ?_⟩) ?_ ?_ ?_
  all_goals decide +kernel

end Verification
end Scam2Market
