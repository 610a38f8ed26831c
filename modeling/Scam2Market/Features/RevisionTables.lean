import Scam2Market.Features.History
import Scam2Market.Features.Tables

/-!
# Tables that hold a history

`Holds`: the rows of the revisions of a window are the first revisions of its history, as many as the row of
the window says.

* `persist_of_mem`: to persist the next revision of a history writes its row, and to persist one that is
  held already writes nothing; the tables hold the history after either.
* `Holds.mono`: they hold every history that goes on from it.
-/

namespace Scam2Market
namespace Features

open Library
open Library.Procedure

variable {cfg : EngineConfig} {logs logs' : String → String → List FeatureSignal}
  {tables : FeatureTables} {key : WindowKey} {snapshot : FeatureSnapshot}

/-- The current revision of a window, or zero. -/
def FeatureTables.current (tables : FeatureTables) (key : WindowKey) : ℕ :=
  ((tables.windows.get? ⟨key⟩).map FeatureWindowModel.currentRevision).getD 0

/-- The history of a window, when there is a log for each scope and asset. -/
abbrev pairHistory (cfg : EngineConfig) (logs : String → String → List FeatureSignal) (key : WindowKey) :
    List FeatureSnapshot :=
  historyOf cfg (logs key.scopeId key.assetId) key

/-- The row of a window. -/
structure IsWindowOf (key : WindowKey) (row : FeatureWindowModel) : Prop where
  featureWindowId : row.featureWindowId = ⟨key⟩
  scopeId : row.scopeId = key.scopeId
  assetId : row.assetId = key.assetId
  windowStart : row.windowStart = key.windowStart
  intervalSeconds : row.intervalSeconds = key.interval

structure Holds (cfg : EngineConfig) (logs : String → String → List FeatureSignal)
    (tables : FeatureTables) : Prop where
  windows : ∀ key row, tables.windows.get? ⟨key⟩ = some row → IsWindowOf key row
  bounded : ∀ key, tables.current key ≤ (pairHistory cfg logs key).length
  stored : ∀ key, ∀ snapshot ∈ pairHistory cfg logs key, snapshot.revision ≤ tables.current key →
    tables.revisions.get? (⟨key⟩, snapshot.revision) = some (revisionRow snapshot)
  absent : ∀ key revision, tables.current key < revision →
    tables.revisions.get? (⟨key⟩, revision) = none

theorem holds_empty (cfg : EngineConfig) (logs : String → String → List FeatureSignal) :
    Holds cfg logs .empty where
  windows _ _ h := (nomatch h)
  bounded _ := Nat.zero_le _
  stored _ _ hmem hle := (Nat.not_succ_le_zero 0 (le_trans (getElem?_historyOf hmem).1 hle)).elim
  absent _ _ _ := rfl

/-- **Tables that hold a history hold every one that goes on from it.** -/
theorem Holds.mono (h : Holds cfg logs tables)
    (hlogs : ∀ scopeId assetId, logs scopeId assetId <+: logs' scopeId assetId) :
    Holds cfg logs' tables where
  windows := h.windows
  bounded key := le_trans (h.bounded key) (isPrefix_historyOf cfg (hlogs _ _) key).length_le
  stored key snapshot hmem hle := by
    obtain ⟨added, hgrown⟩ : pairHistory cfg logs key <+: pairHistory cfg logs' key :=
      isPrefix_historyOf cfg (hlogs _ _) key
    obtain ⟨hpos, hat⟩ : 1 ≤ snapshot.revision ∧
        (pairHistory cfg logs' key)[snapshot.revision - 1]? = some snapshot := getElem?_historyOf hmem
    -- the revision lies in the part that is held
    have hlt : snapshot.revision - 1 < (pairHistory cfg logs key).length := by
      have hbounded := h.bounded key
      omega
    refine h.stored key snapshot (List.mem_of_getElem? (i := snapshot.revision - 1) ?_) hle
    rw [← hgrown, List.getElem?_append_left hlt] at hat
    exact hat
  absent := h.absent

theorem current_set {windows : OrderedDict (Uuid WindowKey) FeatureWindowModel}
    {revisions : OrderedDict (Uuid WindowKey × ℕ) FeatureRevisionModel} {row : FeatureWindowModel}
    (key' : WindowKey) :
    (FeatureTables.mk (windows.set ⟨key⟩ row) revisions).current key' =
      if key' = key then row.currentRevision
      else (FeatureTables.mk windows revisions).current key' := by
  unfold FeatureTables.current
  rw [OrderedDict.get?_set]
  by_cases hkey : key' = key
  · rw [if_pos hkey, if_pos (congrArg Uuid.mk hkey)]
    rfl
  · rw [if_neg hkey, if_neg fun h => hkey (congrArg Uuid.name h)]

/-- The row of a window is found. -/
theorem Holds.selectWindow (h : Holds cfg logs tables) (hrevision : IsRevisionOf key snapshot) :
    tables.selectWindow snapshot = tables.windows.get? ⟨key⟩ := by
  refine OrderedDict.find?_values_eq fun id row hrow => ?_
  have hwindow := h.windows id.name row hrow
  rw [decide_eq_true_iff, hwindow.scopeId, hwindow.assetId, hwindow.windowStart, hwindow.intervalSeconds,
    hrevision.scopeId, hrevision.assetId, hrevision.windowStart, hrevision.intervalSeconds]
  constructor
  · rintro ⟨hscope, hasset, hstart, hinterval⟩
    obtain ⟨_, _, _, _⟩ := id
    obtain ⟨_, _, _, _⟩ := key
    dsimp only at *
    rw [hscope, hasset, hstart, hinterval]
  · rintro rfl
    exact ⟨rfl, rfl, rfl, rfl⟩

/-- The next revision is written, with the row of its window. -/
theorem Holds.addRevision (h : Holds cfg logs tables) (hmem : snapshot ∈ pairHistory cfg logs key)
    (hnext : snapshot.revision = tables.current key + 1) (row : FeatureWindowModel)
    (hrow : IsWindowOf key row) (hcurrent : row.currentRevision = snapshot.revision) :
    ∃ tables', tables.addRevision snapshot row = .ok tables' ∧ Holds cfg logs tables' ∧
      snapshot.revision ≤ tables'.current key ∧
      ∀ key', tables.current key' ≤ tables'.current key' := by
  have habsent := h.absent key snapshot.revision (by omega)
  refine ⟨⟨tables.windows.set ⟨key⟩ row, tables.revisions.set (⟨key⟩, snapshot.revision)
    (revisionRow snapshot)⟩, ?_, ?_, ?_, fun key' => ?_⟩
  · unfold FeatureTables.addRevision
    rw [hrow.featureWindowId, (isRevisionOf_of_mem hmem).featureWindowId]
    dsimp only
    rw [OrderedDict.get?_set_self, habsent]
    rfl
  · refine ⟨fun key' row' hrow' => ?_, fun key' => ?_, fun key' snapshot' hmem' hle' => ?_,
      fun key' revision hlt => ?_⟩
    · rw [OrderedDict.get?_set] at hrow'
      split_ifs at hrow' with hkey
      · obtain rfl : key' = key := congrArg Uuid.name hkey
        rw [← Option.some.inj hrow']
        exact hrow
      · exact h.windows key' row' hrow'
    · rw [current_set]
      split_ifs with hkey
      · rw [hkey, hcurrent]
        exact revision_le_length hmem
      · exact h.bounded key'
    · rw [current_set] at hle'
      rw [OrderedDict.get?_set]
      by_cases hkey : key' = key
      · rw [if_pos hkey, hcurrent] at hle'
        subst hkey
        by_cases hsame : snapshot'.revision = snapshot.revision
        · rw [if_pos (by rw [hsame]), eq_of_revision_eq hmem' hmem hsame]
        · rw [if_neg fun heq => hsame (congrArg Prod.snd heq)]
          exact h.stored key' snapshot' hmem' (by omega)
      · rw [if_neg hkey] at hle'
        rw [if_neg fun heq => hkey (congrArg Uuid.name (congrArg Prod.fst heq))]
        exact h.stored key' snapshot' hmem' hle'
    · rw [current_set] at hlt
      rw [OrderedDict.get?_set]
      by_cases hkey : key' = key
      · rw [if_pos hkey, hcurrent] at hlt
        subst hkey
        have hne : revision ≠ snapshot.revision := by omega
        rw [if_neg fun heq => hne (congrArg Prod.snd heq)]
        exact h.absent key' revision (by omega)
      · rw [if_neg hkey] at hlt
        rw [if_neg fun heq => hkey (congrArg Uuid.name (congrArg Prod.fst heq))]
        exact h.absent key' revision hlt
  · rw [current_set, if_pos rfl, hcurrent]
  · rw [current_set]
    split_ifs with hkey
    · rw [hkey, hcurrent]
      omega
    · exact le_refl _

/-- **To persist a revision of the history**: the next one is written, and one that is held is not. -/
theorem persist_of_mem (h : Holds cfg logs tables) (hmem : snapshot ∈ pairHistory cfg logs key)
    (hnext : snapshot.revision ≤ tables.current key + 1) :
    ∃ persisted tables', persist snapshot tables = (.ok persisted, tables') ∧
      Holds cfg logs tables' ∧ snapshot.revision ≤ tables'.current key ∧
      ∀ key', tables.current key' ≤ tables'.current key' := by
  have hrevision := isRevisionOf_of_mem hmem
  unfold persist
  rw [reading_bind]
  unfold FeatureTables.insertRevision
  rw [h.selectWindow hrevision]
  rcases hwindow : tables.windows.get? ⟨key⟩ with _ | row
  · have hzero : tables.current key = 0 := by
      unfold FeatureTables.current
      rw [hwindow]
      rfl
    have hpos := snapshot.revision_pos
    obtain ⟨tables', hadd, hrest⟩ := h.addRevision hmem (by omega) (windowRow snapshot)
      ⟨hrevision.featureWindowId, hrevision.scopeId, hrevision.assetId, hrevision.windowStart,
        hrevision.intervalSeconds⟩ rfl
    dsimp only
    rw [hrevision.featureWindowId, hwindow, hadd]
    exact ⟨true, tables', rfl, hrest⟩
  · have hcurrent : tables.current key = row.currentRevision := by
      unfold FeatureTables.current
      rw [hwindow]
      rfl
    dsimp only
    split_ifs with hold
    · exact ⟨false, tables, rfl, h, hcurrent ▸ hold, fun _ => le_refl _⟩
    · have hrow := h.windows key row hwindow
      obtain ⟨tables', hadd, hrest⟩ := h.addRevision hmem (by omega) (row.revised snapshot)
        ⟨hrow.featureWindowId, hrow.scopeId, hrow.assetId, hrow.windowStart, hrow.intervalSeconds⟩ rfl
      rw [hadd]
      exact ⟨true, tables', rfl, hrest⟩

end Features
end Scam2Market
