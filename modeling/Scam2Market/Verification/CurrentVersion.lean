import Scam2Market.Verification.Versions

/-!
# The current version of a document

`DisclosureIngestionService.ingest` writes disclosures in two ways: the next version of an official
document, or a version that a disclosure event brings along.

* `AtMostOneCurrent`: no document has two current versions, and a current version is the highest.
* `Careful`: an event is stored only when its document has no version yet.
* `atMostOneCurrent_iff`: the property holds throughout a run exactly when all its calls are careful.
* `second_event_current`: two events of one document.
-/

namespace Scam2Market
namespace Verification

open Library

/-- With the timestamps of its availability. -/
def DisclosureDocument.normalized (document : DisclosureDocument) : DisclosureDocument :=
  { document with
    firstObservedAt := some document.observedAt
    ingestedAt := some document.storedAt
    availableAt := some (max document.observedAt document.storedAt) }

/-- The service, as far as the tables go; `chunks` is its `_chunks`. -/
structure DisclosureIngestionService where
  chunks : DisclosureDocument → List DisclosureChunk

/-- `ingest(document, assign_version=..., preserve_timestamps=...)`. -/
def DisclosureIngestionService.ingest (service : DisclosureIngestionService) (t : DisclosureTables)
    (now : Datetime) (document : DisclosureDocument) (assignVersion preserveTimestamps : Bool) :
    Except PyError (Bool × DisclosureTables) :=
  if assignVersion then do
    let (persisted, t) ← t.persistVersionedDisclosure preserveTimestamps now document service.chunks
    return (persisted.isSome, t)
  else if preserveTimestamps then
    t.persistDisclosure document.normalized (service.chunks document.normalized)
  else
    throw (.valueError "live timestamp assignment requires atomic versioned persistence")

/-! ## Runs of calls -/

/-- A call; a document that brings its version along is current. -/
structure IngestCall where
  document : DisclosureDocument
  assignVersion : Bool
  preserveTimestamps : Bool
  now : Datetime
  isCurrent : assignVersion = false → document.versionStatus = "CURRENT"

namespace DisclosureIngestionService

variable (service : DisclosureIngestionService)

/-- A call that raises is rolled back. -/
def step (t : DisclosureTables) (call : IngestCall) : DisclosureTables :=
  match service.ingest t call.now call.document call.assignVersion call.preserveTimestamps with
  | .ok (_, t') => t'
  | .error _ => t

/-- The call stores the version of an event. -/
structure StoresEvent (t : DisclosureTables) (call : IngestCall) : Prop where
  assignVersion : call.assignVersion = false
  preserveTimestamps : call.preserveTimestamps = true
  accepts : t.Accepts call.document.normalized (service.chunks call.document.normalized)

/-- An event is stored only when its document has no version yet. -/
def Careful (t : DisclosureTables) (call : IngestCall) : Prop :=
  service.StoresEvent t call → t.versions call.document.groupKey = []

end DisclosureIngestionService

/-- No document has two current versions, and a current version is the highest of its document. -/
def AtMostOneCurrent (t : DisclosureTables) : Prop :=
  ∀ key, (t.versions key).countP (fun row => row.versionStatus = "CURRENT") ≤ 1 ∧
    ∀ row ∈ t.versions key, row.versionStatus = "CURRENT" →
      ∀ other ∈ t.versions key, other.documentVersion ≤ row.documentVersion

/-! ## The highest version is current -/

/-- The versions of a document have different numbers, and exactly the highest is current. -/
structure HighestCurrent (rows : List DisclosureModel) : Prop where
  distinct : (rows.map DisclosureModel.documentVersion).Nodup
  current : ∀ row ∈ rows, row.versionStatus = "CURRENT" ↔
    ∀ other ∈ rows, other.documentVersion ≤ row.documentVersion

section Rows

variable {rows : List DisclosureModel} {latest : Option DisclosureModel} {row : DisclosureModel}

theorem highestCurrent_nil : HighestCurrent [] where
  distinct := List.nodup_nil
  current _ h := (List.not_mem_nil h).elim

theorem highestCurrent_singleton (hstatus : row.versionStatus = "CURRENT") :
    HighestCurrent [row] where
  distinct := List.nodup_singleton _
  current other hother := by
    obtain rfl := List.mem_singleton.mp hother
    simp [hstatus]

/-- Two current versions have the same number, so they are one. -/
theorem HighestCurrent.eq_of_current (h : HighestCurrent rows) {other : DisclosureModel}
    (hrow : row ∈ rows) (hother : other ∈ rows) (hcurrent : row.versionStatus = "CURRENT")
    (hcurrent' : other.versionStatus = "CURRENT") : row = other :=
  eq_of_key_eq h.distinct hrow hother
    (le_antisymm ((h.current other hother).mp hcurrent' row hrow)
      ((h.current row hrow).mp hcurrent other hother))

theorem HighestCurrent.countP_le (h : HighestCurrent rows) :
    rows.countP (fun row => row.versionStatus = "CURRENT") ≤ 1 := by
  have hmem : ∀ row ∈ rows.filter fun row => row.versionStatus = "CURRENT",
      row ∈ rows ∧ row.versionStatus = "CURRENT" := fun row hrow => by
    simpa using hrow
  rw [List.countP_eq_length_filter]
  refine length_le_one (h.distinct.of_map.filter _) fun row hrow other hother => ?_
  exact h.eq_of_current (hmem row hrow).1 (hmem other hother).1 (hmem row hrow).2
    (hmem other hother).2

/-- After the latest version is superseded, no version of its document is current. -/
theorem HighestCurrent.supersede_ne (h : HighestCurrent rows)
    (hlatest : rows.argmax DisclosureModel.documentVersion = latest) (hrow : row ∈ rows) :
    (supersede latest row).versionStatus ≠ "CURRENT" := by
  unfold supersede
  split_ifs with hsame
  · show "SUPERSEDED" ≠ "CURRENT"
    decide
  · intro hcurrent
    -- a current version is the highest, which is the latest one
    rcases hlast : latest with _ | last
    · rw [List.argmax_eq_none.mp (hlatest.trans hlast)] at hrow
      exact List.not_mem_nil hrow
    · have hmem : last ∈ rows := List.argmax_mem (hlatest.trans hlast)
      have heq : row = last := eq_of_key_eq h.distinct hrow hmem
        (le_antisymm (List.le_of_mem_argmax hrow (hlatest.trans hlast))
          ((h.current row hrow).mp hcurrent last hmem))
      exact hsame (by simp [hlast, heq])

/-- **The next version is the highest, and the only current one.** -/
theorem HighestCurrent.append (h : HighestCurrent rows)
    (hlatest : rows.argmax DisclosureModel.documentVersion = latest) {new : DisclosureModel}
    (hversion : new.documentVersion = latest.elim 0 DisclosureModel.documentVersion + 1)
    (hstatus : new.versionStatus = "CURRENT") :
    HighestCurrent (rows.map (supersede latest) ++ [new]) := by
  have hlt : ∀ row ∈ rows, row.documentVersion < new.documentVersion := fun row hrow => by
    rcases hlast : latest with _ | last
    · rw [List.argmax_eq_none.mp (hlatest.trans hlast)] at hrow
      exact (List.not_mem_nil hrow).elim
    · rw [hversion, hlast]
      exact Nat.lt_succ_of_le (List.le_of_mem_argmax hrow (hlatest.trans hlast))
  have hversions : (rows.map (supersede latest)).map DisclosureModel.documentVersion =
      rows.map DisclosureModel.documentVersion := by
    rw [List.map_map]
    exact List.map_congr_left fun row _ => supersede_documentVersion latest row
  constructor
  · rw [List.map_append, hversions, List.map_singleton, ← List.concat_eq_append]
    refine List.Nodup.concat (fun hmem => ?_) h.distinct
    obtain ⟨row, hrow, heq⟩ := List.mem_map.mp hmem
    exact (hlt row hrow).ne heq
  · intro row hrow
    rcases List.mem_append.mp hrow with hold | hnew
    · obtain ⟨before, hbefore, rfl⟩ := List.mem_map.mp hold
      refine iff_of_false (h.supersede_ne hlatest hbefore) fun hhighest => ?_
      have hle := hhighest new (List.mem_append_right _ (List.mem_singleton_self new))
      rw [supersede_documentVersion] at hle
      exact absurd (hlt before hbefore) (by omega)
    · obtain rfl := List.mem_singleton.mp hnew
      refine iff_of_true hstatus fun other hother => ?_
      rcases List.mem_append.mp hother with hold | hnew
      · obtain ⟨before, hbefore, rfl⟩ := List.mem_map.mp hold
        rw [supersede_documentVersion]
        exact (hlt before hbefore).le
      · rw [List.mem_singleton.mp hnew]

end Rows

/-! ## Steps -/

/-- What holds of the tables: ids are unique, and of every document exactly the highest version is
current. -/
structure CurrentTables (t : DisclosureTables) : Prop where
  ids : (t.disclosures.map DisclosureModel.disclosureId).Nodup
  highest : ∀ key, HighestCurrent (t.versions key)

section Steps

variable {t t' : DisclosureTables}

theorem currentTables_empty : CurrentTables {} where
  ids := List.nodup_nil
  highest _ := highestCurrent_nil

theorem CurrentTables.atMostOneCurrent (h : CurrentTables t) : AtMostOneCurrent t := fun key =>
  ⟨(h.highest key).countP_le, fun row hrow => ((h.highest key).current row hrow).mp⟩

/-- The next version of a document. -/
theorem CurrentTables.written (h : CurrentTables t) {document prepared : DisclosureDocument}
    {row : DisclosureModel} (hprepared : Prepared document (t.latest? document.groupKey) prepared)
    (hwritten : DisclosureTables.Written t (t.latest? document.groupKey) prepared row t') :
    CurrentTables t' := by
  refine ⟨?_, fun key => ?_⟩
  · rw [hwritten.ids, ← List.concat_eq_append]
    exact h.ids.concat hwritten.fresh
  · rw [hwritten.versions, hprepared.groupKey]
    by_cases hkey : key = document.groupKey
    · subst hkey
      rw [if_pos rfl]
      refine (h.highest _).append rfl ?_ ?_
      · rw [hwritten.values.documentVersion, hprepared.documentVersion]
        rfl
      · rw [hwritten.values.versionStatus, hprepared.versionStatus]
    · rw [DisclosureTables.supersede_other h.ids hkey, if_neg (Ne.symm hkey), List.append_nil]
      exact h.highest key

theorem persistVersionedDisclosure_eq_ok {preserveTimestamps : Bool} {now : Datetime}
    {document : DisclosureDocument} {chunksFor : DisclosureDocument → List DisclosureChunk}
    {result : Option DisclosureDocument}
    (h : t.persistVersionedDisclosure preserveTimestamps now document chunksFor =
      .ok (result, t')) :
    t' = t ∨ ∃ prepared row, Prepared document (t.latest? document.groupKey) prepared ∧
      DisclosureTables.Written t (t.latest? document.groupKey) prepared row t' := by
  unfold DisclosureTables.persistVersionedDisclosure at h
  rcases hprepare : prepare preserveTimestamps now document (t.latest? document.groupKey) with
    _ | prepared
  · simp only [hprepare, pure, Except.pure] at h
    exact .inl (Prod.ext_iff.mp (Except.ok.inj h)).2.symm
  · rcases hwrite : t.writeVersion (t.latest? document.groupKey) prepared (chunksFor prepared) with
      error | tables
    · simp [hprepare, hwrite, bind, Except.bind] at h
    · simp only [hprepare, hwrite, bind, Except.bind, pure, Except.pure] at h
      obtain ⟨-, rfl⟩ := Prod.ext_iff.mp (Except.ok.inj h)
      obtain ⟨row, hwritten⟩ := DisclosureTables.writeVersion_eq_ok hwrite
      exact .inr ⟨prepared, row, prepare_eq_some hprepare, hwritten⟩

theorem rowOf_normalized (document : DisclosureDocument) :
    ∃ row, DisclosureTables.rowOf document.normalized = .ok row :=
  ⟨_, rfl⟩

/-- An event is stored as a row when it violates no constraint. -/
theorem persistDisclosure_normalized {document : DisclosureDocument}
    {chunks : List DisclosureChunk} (h : t.Accepts document.normalized chunks) :
    ∃ row, DisclosureTables.RowOf document.normalized row ∧
      t.persistDisclosure document.normalized chunks = .ok (true,
        { t with disclosures := t.disclosures ++ [row], chunks := t.chunks ++ chunks }) := by
  obtain ⟨row, hrow⟩ := rowOf_normalized document
  refine ⟨row, DisclosureTables.rowOf_eq_ok hrow, ?_⟩
  have hnew : ¬ (t.disclosures.any fun row => row.groupKey = document.normalized.groupKey &&
      row.documentVersion = document.normalized.documentVersion) := by
    simpa using h.unversioned
  unfold DisclosureTables.persistDisclosure
  rw [if_neg hnew, (DisclosureTables.addDisclosure_eq_ok_iff hrow).mpr ⟨h, rfl⟩]
  rfl

/-- An event that violates a constraint leaves the tables alone. -/
theorem persistDisclosure_eq_ok {document : DisclosureDocument} {chunks : List DisclosureChunk}
    {stored : Bool} (h : t.persistDisclosure document chunks = .ok (stored, t')) :
    t' = t ∨ t.Accepts document chunks := by
  unfold DisclosureTables.persistDisclosure at h
  split_ifs at h with hversion
  · exact .inl (Prod.ext_iff.mp (Except.ok.inj h)).2.symm
  · rcases hadd : t.addDisclosure document chunks with error | tables
    · simp [hadd, bind, Except.bind] at h
    · exact .inr (DisclosureTables.addDisclosure_eq_ok hadd).1

end Steps

namespace DisclosureIngestionService

variable {service : DisclosureIngestionService} {t : DisclosureTables} {call : IngestCall}

/-- The event of a document is added to its versions. -/
theorem StoresEvent.versions_step (h : service.StoresEvent t call) :
    ∃ row, row.versionStatus = "CURRENT" ∧
      (service.step t call).disclosures = t.disclosures ++ [row] ∧
      row.disclosureId ∉ t.disclosures.map DisclosureModel.disclosureId ∧
      ∀ key, (service.step t call).versions key =
        t.versions key ++ if call.document.groupKey = key then [row] else [] := by
  obtain ⟨row, hrow, hpersist⟩ := persistDisclosure_normalized h.accepts
  have hstep : service.step t call = { t with
      disclosures := t.disclosures ++ [row]
      chunks := t.chunks ++ service.chunks call.document.normalized } := by
    simp [step, ingest, h.assignVersion, h.preserveTimestamps, hpersist]
  refine ⟨row, ?_, by rw [hstep], ?_, fun key => ?_⟩
  · exact hrow.versionStatus.trans (call.isCurrent h.assignVersion)
  · rw [hrow.disclosureId]
    exact h.accepts.fresh
  · have hkey : row.groupKey = call.document.groupKey := hrow.groupKey
    rw [hstep]
    show (t.disclosures ++ [row]).filter _ = _
    rw [List.filter_append, List.filter_singleton, hkey]
    congr 1
    by_cases hsame : call.document.groupKey = key <;> simp [hsame]

/-- Any other call leaves the tables alone, or writes the next version. -/
theorem step_of_not_storesEvent (h : ¬ service.StoresEvent t call) :
    service.step t call = t ∨ ∃ prepared row,
      Prepared call.document (t.latest? call.document.groupKey) prepared ∧
      DisclosureTables.Written t (t.latest? call.document.groupKey) prepared row
        (service.step t call) := by
  unfold step
  rcases hingest : service.ingest t call.now call.document call.assignVersion
    call.preserveTimestamps with error | ⟨stored, t'⟩
  · exact .inl rfl
  show t' = t ∨ _
  unfold ingest at hingest
  split_ifs at hingest with hassign hpreserve
  · rcases hpersist : t.persistVersionedDisclosure call.preserveTimestamps call.now call.document
      service.chunks with error | ⟨result, tables⟩
    · simp [hpersist, bind, Except.bind] at hingest
    · simp only [hpersist, bind, Except.bind, pure, Except.pure] at hingest
      obtain ⟨-, rfl⟩ := Prod.ext_iff.mp (Except.ok.inj hingest)
      exact persistVersionedDisclosure_eq_ok hpersist
  · refine .inl ((persistDisclosure_eq_ok hingest).resolve_right fun haccepts => h ?_)
    exact ⟨Bool.eq_false_iff.mpr hassign, hpreserve, haccepts⟩

/-- A careful call keeps exactly the highest versions current. -/
theorem currentTables_step (h : CurrentTables t) (hcareful : service.Careful t call) :
    CurrentTables (service.step t call) := by
  by_cases hstores : service.StoresEvent t call
  · obtain ⟨row, hstatus, hrows, hfresh, hversions⟩ := hstores.versions_step
    refine ⟨?_, fun key => ?_⟩
    · rw [hrows, List.map_append, List.map_singleton, ← List.concat_eq_append]
      exact h.ids.concat hfresh
    · rw [hversions]
      by_cases hkey : call.document.groupKey = key
      · rw [if_pos hkey, ← hkey, hcareful hstores]
        exact highestCurrent_singleton hstatus
      · rw [if_neg hkey, List.append_nil]
        exact h.highest key
  · rcases step_of_not_storesEvent hstores with hsame | ⟨prepared, row, hprepared, hwritten⟩
    · rw [hsame]
      exact h
    · exact h.written hprepared hwritten

/-- An event of a document that has a version makes a second current one. -/
theorem not_atMostOneCurrent_step (h : CurrentTables t) (hcareful : ¬ service.Careful t call) :
    ¬ AtMostOneCurrent (service.step t call) := by
  obtain ⟨hstores, hne⟩ := Classical.not_imp.mp hcareful
  obtain ⟨row, hstatus, -, -, hversions⟩ := hstores.versions_step
  intro hone
  have hcount := (hone call.document.groupKey).1
  rw [hversions, if_pos rfl, List.countP_append] at hcount
  -- the highest version that was there is current
  obtain ⟨latest, hlatest⟩ : ∃ latest, (t.versions call.document.groupKey).argmax
      DisclosureModel.documentVersion = some latest :=
    Option.ne_none_iff_exists'.mp (mt List.argmax_eq_none.mp hne)
  have hmem := List.argmax_mem hlatest
  have hcurrent : latest.versionStatus = "CURRENT" :=
    ((h.highest _).current latest hmem).mpr fun other hother =>
      List.le_of_mem_argmax hother hlatest
  have hold : 0 < (t.versions call.document.groupKey).countP
      fun row => row.versionStatus = "CURRENT" :=
    List.countP_pos_iff.mpr ⟨latest, hmem, decide_eq_true hcurrent⟩
  have hnew : [row].countP (fun row => row.versionStatus = "CURRENT") = 1 := by
    simp [hstatus]
  omega

/-- **No document has two current versions** in any state of a run exactly when every event that is stored
is the first version of its document. -/
theorem atMostOneCurrent_iff (service : DisclosureIngestionService) (calls : List IngestCall) :
    Always service.step AtMostOneCurrent {} calls ↔ Throughout service.step service.Careful {} calls :=
  always_iff_throughout (I := CurrentTables) (fun _ _ => currentTables_step)
    (fun _ h => h.atMostOneCurrent) (fun _ _ => not_atMostOneCurrent_step) currentTables_empty calls

end DisclosureIngestionService

/-- A disclosure event with a version of a filing. -/
def filingEvent (documentVersion : ℕ) (hversion : 1 ≤ documentVersion) : IngestCall where
  document := { filing "a" with
    disclosureId := .disclosure "exchange" "10-K" documentVersion "a"
    body := ""
    documentVersion := documentVersion
    documentVersion_pos := hversion }
  assignVersion := false
  preserveTimestamps := true
  now := 30
  isCurrent _ := rfl

/-- Two versions of a filing by events: the second does not supersede the first. -/
theorem second_event_current :
    ¬ ∀ (service : DisclosureIngestionService) (calls : List IngestCall),
      Always service.step AtMostOneCurrent {} calls := by
  intro h
  have hfinal := (h ⟨fun _ => []⟩ [filingEvent 1 le_rfl, filingEvent 2 one_le_two]).final
  have hcount := (hfinal ("exchange", "10-K")).1
  revert hcount
  decide +kernel

end Verification
end Scam2Market
