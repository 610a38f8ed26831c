import Scam2Market.Library.Rows
import Scam2Market.Library.Runs
import Scam2Market.Narratives.Identity

/-!
# The head of a narrative

The row of a narrative has the contents of one of its revisions, and points to one.  Runs of `persist`, for
the revisions of one window in any order.

* `narrative?_persist`, `revision?_persist`: the rows after the clusters of a revision are written.
* `IsHead`: the row has the contents of the revision it points to, which is the newest.
* `Careful`: a cluster that is older than the head of its narrative has its contents, and one that is not
  has those of the row of its revision, if there is one.
* `heads_newest_iff`: the heads are the newest revisions throughout a run exactly when all its calls are
  careful.
-/

namespace Scam2Market
namespace Narratives

open Features (WindowKey)
open Library
open Library.Fallible (bind_eq_ok)

variable {𝕜 : Type}

/-! ## Contents -/

/-- What both the row of a narrative and the rows of its revisions have. -/
structure Content (𝕜 : Type) where
  label : String
  summary : String
  postCount : ℕ
  centroid : List 𝕜
  memberHash : Digest String

def NarrativeModel.content (row : NarrativeModel 𝕜) : Content 𝕜 :=
  ⟨row.label, row.summary, row.postCount, row.centroidJson, row.memberHash⟩

def NarrativeRevisionModel.content (row : NarrativeRevisionModel 𝕜) : Content 𝕜 :=
  ⟨row.label, row.summary, row.postCount, row.centroidJson, row.memberHash⟩

def NarrativeCluster.content (cluster : NarrativeCluster 𝕜) : Content 𝕜 :=
  ⟨cluster.label, cluster.summary, cluster.postIds.length, cluster.centroid, cluster.memberHash⟩

namespace Tables

variable (t : Tables 𝕜)

/-- `session.get(NarrativeModel, id)`. -/
def narrative? (id : Uuid String) : Option (NarrativeModel 𝕜) :=
  lookupBy NarrativeModel.narrativeId id t.narratives

/-- `session.get(NarrativeRevisionModel, id)`. -/
def revision? (id : NarrativeRevisionId) : Option (NarrativeRevisionModel 𝕜) :=
  lookupBy NarrativeRevisionModel.narrativeRevisionId id t.revisions

variable {t} {t' : Tables 𝕜} {cluster : NarrativeCluster 𝕜}

theorem narrative?_writeNarrative (h : t.writeNarrative cluster = .ok t') (id : Uuid String) :
    t'.narrative? id = if id = cluster.narrativeId then
      some ((t.narrative? id).elim cluster.narrativeRow cluster.updateNarrative) else t.narrative? id := by
  rw [writeNarrative] at h
  split_ifs at h with hfound
  · obtain rfl := Except.ok.inj h
    have hkeeps : ∀ row, (cluster.updateNarrative row).narrativeId = row.narrativeId := fun _ => rfl
    refine (lookupBy_update hkeeps id).trans ?_
    split_ifs with hid
    · subst hid
      cases hrow : t.narrative? cluster.narrativeId with
      | none =>
        obtain ⟨row, hmem, heq⟩ := hfound
        exact absurd heq (lookupBy_eq_none_iff.mp hrow row hmem)
      | some row =>
        rw [narrative?] at hrow
        rw [hrow]
        rfl
    · rfl
  · obtain rfl := Except.ok.inj h
    have hnew : ∀ row ∈ t.narratives, row.narrativeId ≠ cluster.narrativeRow.narrativeId :=
      fun row hrow heq => hfound ⟨row, hrow, heq⟩
    refine (lookupBy_append hnew id).trans ?_
    split_ifs with hid hid' hid'
    · have hnone : t.narrative? id = none :=
        lookupBy_eq_none_iff.mpr fun row hrow heq => hnew row hrow (heq.trans hid)
      rw [hnone]
      rfl
    · exact absurd hid hid'
    · exact absurd hid' hid
    · rfl

theorem revision?_writeRevision [Zero 𝕜] (h : t.writeRevision cluster = .ok t') (id : NarrativeRevisionId) :
    t'.revision? id = if id = cluster.narrativeRevisionId then
      some ((t.revision? id).getD cluster.revisionRow) else t.revision? id := by
  rw [writeRevision] at h
  split_ifs at h with hfound
  · obtain rfl := Except.ok.inj h
    split_ifs with hid
    · subst hid
      cases hrow : t.revision? cluster.narrativeRevisionId with
      | none =>
        obtain ⟨row, hmem, heq⟩ := hfound
        exact absurd heq (lookupBy_eq_none_iff.mp hrow row hmem)
      | some row => rfl
    · rfl
  · obtain rfl := Except.ok.inj h
    have hnew : ∀ row ∈ t.revisions, row.narrativeRevisionId ≠ cluster.revisionRow.narrativeRevisionId :=
      fun row hrow heq => hfound ⟨row, hrow, heq⟩
    refine (lookupBy_append hnew id).trans ?_
    split_ifs with hid hid' hid'
    · have hnone : t.revision? id = none :=
        lookupBy_eq_none_iff.mpr fun row hrow heq => hnew row hrow (heq.trans hid)
      rw [hnone]
      rfl
    · exact absurd hid hid'
    · exact absurd hid' hid
    · rfl

theorem writeNarrative_revisions (h : t.writeNarrative cluster = .ok t') :
    t'.revisions = t.revisions ∧ t'.graphSnapshots = t.graphSnapshots := by
  rw [writeNarrative] at h
  split_ifs at h
  all_goals
    obtain rfl := Except.ok.inj h
    exact ⟨rfl, rfl⟩

theorem writeRevision_narratives [Zero 𝕜] (h : t.writeRevision cluster = .ok t') :
    t'.narratives = t.narratives ∧ t'.graphSnapshots = t.graphSnapshots := by
  rw [writeRevision] at h
  split_ifs at h
  all_goals
    obtain rfl := Except.ok.inj h
    exact ⟨rfl, rfl⟩

/-- The rows after a cluster is written. -/
theorem lookups_persistCluster [Zero 𝕜] (h : t.persistCluster cluster = .ok t') :
    (∀ id, t'.narrative? id = if id = cluster.narrativeId then
      some ((t.narrative? id).elim cluster.narrativeRow cluster.updateNarrative) else t.narrative? id) ∧
    (∀ id, t'.revision? id = if id = cluster.narrativeRevisionId then
      some ((t.revision? id).getD cluster.revisionRow) else t.revision? id) := by
  obtain ⟨written, hwritten, h⟩ := bind_eq_ok.mp h
  refine ⟨fun id => ?_, fun id => ?_⟩
  · rw [narrative?, (writeRevision_narratives h).1]
    exact narrative?_writeNarrative hwritten id
  · rw [revision?_writeRevision h, revision?, (writeNarrative_revisions hwritten).1]
    rfl

/-- The row of a narrative after clusters of different narratives are written. -/
theorem narrative?_persist [Zero 𝕜] {clusters : List (NarrativeCluster 𝕜)}
    (hdistinct : clusters.Pairwise fun a b => a.narrativeId ≠ b.narrativeId)
    (h : clusters.foldlM (fun tables cluster => tables.persistCluster cluster) t = .ok t') :
    (∀ cluster ∈ clusters, t'.narrative? cluster.narrativeId =
      some ((t.narrative? cluster.narrativeId).elim cluster.narrativeRow cluster.updateNarrative)) ∧
    ∀ id, (∀ cluster ∈ clusters, cluster.narrativeId ≠ id) → t'.narrative? id = t.narrative? id := by
  induction clusters generalizing t with
  | nil =>
    obtain rfl := Except.ok.inj h
    exact ⟨fun _ h => absurd h List.not_mem_nil, fun _ _ => rfl⟩
  | cons first rest ih =>
    rw [List.foldlM_cons] at h
    obtain ⟨written, hwritten, h⟩ := bind_eq_ok.mp h
    obtain ⟨hfirst, hrest⟩ := List.pairwise_cons.mp hdistinct
    obtain ⟨hmem, hother⟩ := ih hrest h
    have hrow := (lookups_persistCluster hwritten).1
    refine ⟨fun cluster hcluster => ?_, fun id hid => ?_⟩
    · rcases List.mem_cons.mp hcluster with rfl | hcluster
      · rw [hother _ fun other hmem => (hfirst other hmem).symm, hrow, if_pos rfl]
      · rw [hmem cluster hcluster, hrow, if_neg (hfirst cluster hcluster).symm]
    · rw [hother id fun cluster hcluster => hid cluster (List.mem_cons_of_mem first hcluster), hrow,
        if_neg (hid first List.mem_cons_self).symm]

/-- The row of a revision after clusters of different narratives are written. -/
theorem revision?_persist [Zero 𝕜] {clusters : List (NarrativeCluster 𝕜)}
    (hidentified : ∀ cluster ∈ clusters, Identified cluster)
    (hdistinct : clusters.Pairwise fun a b => a.narrativeId ≠ b.narrativeId)
    (h : clusters.foldlM (fun tables cluster => tables.persistCluster cluster) t = .ok t') :
    (∀ cluster ∈ clusters, t'.revision? cluster.narrativeRevisionId =
      some ((t.revision? cluster.narrativeRevisionId).getD cluster.revisionRow)) ∧
    ∀ id row, t.revision? id = some row → t'.revision? id = some row := by
  induction clusters generalizing t with
  | nil =>
    obtain rfl := Except.ok.inj h
    exact ⟨fun _ h => absurd h List.not_mem_nil, fun _ _ h => h⟩
  | cons first rest ih =>
    rw [List.foldlM_cons] at h
    obtain ⟨written, hwritten, h⟩ := bind_eq_ok.mp h
    obtain ⟨hfirst, hrest⟩ := List.pairwise_cons.mp hdistinct
    obtain ⟨hmem, hother⟩ := ih (fun cluster hcluster =>
      hidentified cluster (List.mem_cons_of_mem first hcluster)) hrest h
    have hrow := (lookups_persistCluster hwritten).2
    refine ⟨fun cluster hcluster => ?_, fun id row hfound => ?_⟩
    · rcases List.mem_cons.mp hcluster with rfl | hcluster
      · exact hother _ _ ((hrow _).trans (if_pos rfl))
      · -- a revision has the name of its narrative
        have hne : cluster.narrativeRevisionId ≠ first.narrativeRevisionId := by
          rw [(hidentified cluster (List.mem_cons_of_mem first hcluster)).narrativeRevisionId,
            (hidentified first List.mem_cons_self).narrativeRevisionId]
          exact fun heq => hfirst cluster hcluster (Prod.mk.inj (Uuid.mk.inj heq)).1.symm
        rw [hmem cluster hcluster, hrow, if_neg hne]
    · refine hother id row ((hrow id).trans ?_)
      split_ifs with hid
      · rw [hfound]
        rfl
      · exact hfound

end Tables

/-! ## Runs -/

/-- A call of `persist` for a revision of the window: clusters of different narratives, which are named by
their members. -/
structure PersistCall (𝕜 : Type) where
  revision : ℤ
  clusters : List (NarrativeCluster 𝕜)
  identified : ∀ cluster ∈ clusters, Identified cluster
  keyed : ∀ cluster ∈ clusters, cluster.clusterKey = cluster.memberHash
  distinct : clusters.Pairwise fun a b => a.narrativeId ≠ b.narrativeId
  numbered : ∀ cluster ∈ clusters, cluster.revision = revision

/-- The tables, and the clusters that have been written. -/
structure NarrativeStore (𝕜 : Type) where
  tables : Tables 𝕜 := {}
  processed : List (NarrativeCluster 𝕜) := []

/-- `graph_snapshot_id` of a revision of a window. -/
def snapshotOf (key : WindowKey) (revision : ℤ) : GraphSnapshotId :=
  ⟨key.scopeId, ⟨key⟩, revision⟩

/-- The row has the contents of a stored revision: the one it points to. -/
def Carries (t : Tables 𝕜) (row : NarrativeModel 𝕜) : Prop :=
  ∃ revision, t.revision? row.currentRevisionId = some revision ∧ row.content = revision.content ∧
    row.clusterKey = revision.memberHash

/-- The row points to the revision of the cluster with the highest number, of those of its narrative. -/
def PointsToNewest (processed : List (NarrativeCluster 𝕜)) (row : NarrativeModel 𝕜) : Prop :=
  ∃ cluster ∈ processed, cluster.narrativeId = row.narrativeId ∧
    cluster.narrativeRevisionId = row.currentRevisionId ∧
    ∀ other ∈ processed, other.narrativeId = row.narrativeId → other.revision ≤ cluster.revision

/-- The cluster does not take from its narrative what it points to: it is not older than the head and
agrees with the row of its revision, if there is one, or it has the contents of the head. -/
def FitsHead (t : Tables 𝕜) (cluster : NarrativeCluster 𝕜) : Prop :=
  ∀ row, t.narrative? cluster.narrativeId = some row →
    (row.currentRevision ≤ cluster.revision ∧
      ∀ revision, t.revision? cluster.narrativeRevisionId = some revision →
        revision.content = cluster.content) ∨
    (cluster.revision < row.currentRevision ∧ row.content = cluster.content)

namespace NarrativeStore

variable [Field 𝕜] [LinearOrder 𝕜] (key : WindowKey)

/-- `persist(snapshot, clusters, graph, events)`; a call that raises writes nothing. -/
def step (s : NarrativeStore 𝕜) (call : PersistCall 𝕜) : NarrativeStore 𝕜 :=
  if snapshotOf key call.revision ∈ s.tables.graphSnapshots then s
  else
    match s.tables.persist call.clusters (snapshotOf key call.revision) with
    | .ok tables => { tables, processed := s.processed ++ call.clusters }
    | .error _ => s

/-- Every narrative has the contents of the revision it points to, which is the newest. -/
def HeadsNewest (s : NarrativeStore 𝕜) : Prop :=
  ∀ id row, s.tables.narrative? id = some row →
    Carries s.tables row ∧ PointsToNewest s.processed row

/-- The revision has been processed, or its clusters fit. -/
def Careful (s : NarrativeStore 𝕜) (call : PersistCall 𝕜) : Prop :=
  snapshotOf key call.revision ∈ s.tables.graphSnapshots ∨
    ∀ cluster ∈ call.clusters, FitsHead s.tables cluster

/-! ## What holds between the calls -/

variable {key} {s : NarrativeStore 𝕜} {call : PersistCall 𝕜} {t' : Tables 𝕜}
  {cluster : NarrativeCluster 𝕜}

/-- The rows are those of the clusters that have been written, and a head has the highest number of its
narrative. -/
structure Sound (key : WindowKey) (s : NarrativeStore 𝕜) : Prop where
  written : WrittenFrom (fun cluster => cluster ∈ s.processed) s.tables
  identified : ∀ cluster ∈ s.processed, Identified cluster
  snapshots : ∀ cluster ∈ s.processed, snapshotOf key cluster.revision ∈ s.tables.graphSnapshots
  keyed : ∀ id row, s.tables.narrative? id = some row → row.clusterKey = row.memberHash
  heads : ∀ id row, s.tables.narrative? id = some row → ∃ cluster ∈ s.processed,
    cluster.narrativeId = id ∧ cluster.narrativeRevisionId = row.currentRevisionId ∧
      cluster.revision = row.currentRevision ∧
      ∀ other ∈ s.processed, other.narrativeId = id → other.revision ≤ row.currentRevision
  narratives : ∀ cluster ∈ s.processed, ∃ row, s.tables.narrative? cluster.narrativeId = some row
  revisions : ∀ cluster ∈ s.processed, ∃ row, s.tables.revision? cluster.narrativeRevisionId = some row

omit [Field 𝕜] [LinearOrder 𝕜] in
theorem sound_empty : Sound key ({} : NarrativeStore 𝕜) where
  written := ⟨fun _ h => absurd h List.not_mem_nil, fun _ h => absurd h List.not_mem_nil⟩
  identified := fun _ h => absurd h List.not_mem_nil
  snapshots := fun _ h => absurd h List.not_mem_nil
  keyed := fun _ _ h => nomatch h
  heads := fun _ _ h => nomatch h
  narratives := fun _ h => absurd h List.not_mem_nil
  revisions := fun _ h => absurd h List.not_mem_nil

/-- The tables after a call that writes. -/
structure Persisted (key : WindowKey) (s : NarrativeStore 𝕜) (call : PersistCall 𝕜) (t' : Tables 𝕜) :
    Prop where
  step_eq : s.step key call = ⟨t', s.processed ++ call.clusters⟩
  written : WrittenFrom (fun cluster => cluster ∈ s.processed ++ call.clusters) t'
  snapshots : t'.graphSnapshots = s.tables.graphSnapshots ++ [snapshotOf key call.revision]
  row : ∀ cluster ∈ call.clusters, t'.narrative? cluster.narrativeId =
    some ((s.tables.narrative? cluster.narrativeId).elim cluster.narrativeRow cluster.updateNarrative)
  otherRow : ∀ id, (∀ cluster ∈ call.clusters, cluster.narrativeId ≠ id) →
    t'.narrative? id = s.tables.narrative? id
  revision : ∀ cluster ∈ call.clusters, t'.revision? cluster.narrativeRevisionId =
    some ((s.tables.revision? cluster.narrativeRevisionId).getD cluster.revisionRow)
  keptRevision : ∀ id row, s.tables.revision? id = some row → t'.revision? id = some row

/-- A revision that has not been processed is written. -/
theorem exists_persisted (hs : Sound key s)
    (hnew : snapshotOf key call.revision ∉ s.tables.graphSnapshots) : ∃ t', Persisted key s call t' := by
  have hfresh : ∀ cluster ∈ call.clusters, ∀ earlier ∈ s.processed,
      earlier.narrativeId = cluster.narrativeId → earlier.revision ≠ cluster.revision := by
    intro cluster hcluster earlier hearlier _ hrevision
    rw [call.numbered cluster hcluster] at hrevision
    exact hnew (hrevision ▸ hs.snapshots earlier hearlier)
  obtain ⟨t', hpersist, hwritten, hgraph⟩ := Tables.persist_ok hs.written hnew call.identified
    call.distinct hs.identified hfresh
  have hstep : s.step key call = ⟨t', s.processed ++ call.clusters⟩ := by
    rw [step, if_neg hnew, hpersist]
  rw [Tables.persist, if_neg hnew] at hpersist
  obtain ⟨written, hfold, hreturn⟩ := bind_eq_ok.mp hpersist
  obtain rfl := Except.ok.inj hreturn
  obtain ⟨hrow, hother⟩ := Tables.narrative?_persist call.distinct hfold
  obtain ⟨hrevision, hkept⟩ := Tables.revision?_persist call.identified call.distinct hfold
  exact ⟨_, hstep, hwritten.mono fun cluster hcluster => List.mem_append.mpr hcluster, hgraph, hrow, hother,
    hrevision, hkept⟩

omit [Field 𝕜] [LinearOrder 𝕜] in
/-- The revision of a narrative that has no row has none either. -/
theorem Sound.revision?_eq_none (hs : Sound key s) (hcluster : Identified cluster)
    (hrow : s.tables.narrative? cluster.narrativeId = none) :
    s.tables.revision? cluster.narrativeRevisionId = none := by
  cases hrevision : s.tables.revision? cluster.narrativeRevisionId with
  | none => rfl
  | some revision =>
    obtain ⟨hmem, hid⟩ := of_lookupBy hrevision
    obtain ⟨earlier, hearlier, rfl⟩ := hs.written.revisions revision hmem
    have hsame : earlier.narrativeRevisionId = cluster.narrativeRevisionId := hid
    rw [(hs.identified earlier hearlier).narrativeRevisionId, hcluster.narrativeRevisionId] at hsame
    obtain ⟨row, hfound⟩ := hs.narratives earlier hearlier
    rw [(Prod.mk.inj (Uuid.mk.inj hsame)).1, hrow] at hfound
    exact nomatch hfound

omit [Field 𝕜] [LinearOrder 𝕜] in
theorem carries_iff {t : Tables 𝕜} {row : NarrativeModel 𝕜} {revision : NarrativeRevisionModel 𝕜}
    (hrevision : t.revision? row.currentRevisionId = some revision)
    (hkeyed : row.clusterKey = row.memberHash) : Carries t row ↔ row.content = revision.content := by
  constructor
  · rintro ⟨found, hfound, hcontent, -⟩
    rw [hrevision] at hfound
    rw [hcontent, Option.some.inj hfound]
  · intro hcontent
    have hhash : row.memberHash = revision.memberHash := congrArg Content.memberHash hcontent
    exact ⟨revision, hrevision, hcontent, hkeyed.trans hhash⟩

theorem forall_eq_some_iff {α : Type} {a : α} {P : α → Prop} : (∀ b, some a = some b → P b) ↔ P a :=
  ⟨fun h => h a rfl, fun h _ heq => Option.some.inj heq ▸ h⟩

omit [LinearOrder 𝕜] in
/-- **When a row that is written has the contents of the revision it points to.** -/
theorem Persisted.carries_iff_fitsHead (h : Persisted key s call t') (hs : Sound key s)
    (hheads : HeadsNewest s) (hcluster : cluster ∈ call.clusters) :
    (∀ row, t'.narrative? cluster.narrativeId = some row → Carries t' row) ↔
      FitsHead s.tables cluster := by
  have hkeyed := call.keyed cluster hcluster
  rw [h.row cluster hcluster, FitsHead]
  rw [forall_eq_some_iff]
  have hrevision := h.revision cluster hcluster
  cases hrow : s.tables.narrative? cluster.narrativeId with
  | none =>
    rw [hs.revision?_eq_none (call.identified cluster hcluster) hrow] at hrevision
    exact iff_of_true ((carries_iff hrevision hkeyed).mpr rfl) fun _ h => nomatch h
  | some row =>
    rw [forall_eq_some_iff]
    obtain ⟨⟨head, hhead, hcontent, -⟩, -⟩ := hheads _ row hrow
    by_cases hle : row.currentRevision ≤ cluster.revision
    · have hpointer : (cluster.updateNarrative row).currentRevisionId = cluster.narrativeRevisionId :=
        if_pos hle
      have hcarries : Carries t' (cluster.updateNarrative row) ↔ cluster.content =
          ((s.tables.revision? cluster.narrativeRevisionId).getD cluster.revisionRow).content :=
        carries_iff (by rw [hpointer]; exact hrevision) hkeyed
      refine hcarries.trans ?_
      rw [or_iff_left fun hlt => absurd hle (not_le.mpr hlt.1), and_iff_right hle]
      cases hfound : s.tables.revision? cluster.narrativeRevisionId with
      | none => exact iff_of_true rfl fun _ h => nomatch h
      | some revision =>
        rw [forall_eq_some_iff]
        exact eq_comm
    · have hpointer : (cluster.updateNarrative row).currentRevisionId = row.currentRevisionId :=
        if_neg hle
      have hkept := h.keptRevision _ head hhead
      have hcarries : Carries t' (cluster.updateNarrative row) ↔ cluster.content = head.content :=
        carries_iff (by rw [hpointer]; exact hkept) hkeyed
      refine hcarries.trans ?_
      rw [or_iff_right fun hnot => hle hnot.1, and_iff_right (not_le.mp hle), hcontent]
      exact eq_comm

omit [LinearOrder 𝕜] in
/-- A call that writes keeps what holds between the calls. -/
theorem Persisted.sound (h : Persisted key s call t') (hs : Sound key s) : Sound key (s.step key call) := by
  rw [h.step_eq]
  have hrows : ∀ id row', t'.narrative? id = some row' →
      s.tables.narrative? id = some row' ∧ (∀ cluster ∈ call.clusters, cluster.narrativeId ≠ id) ∨
        ∃ cluster ∈ call.clusters, cluster.narrativeId = id ∧ row' =
          (s.tables.narrative? cluster.narrativeId).elim cluster.narrativeRow cluster.updateNarrative := by
    intro id row' hrow'
    by_cases hid : ∃ cluster ∈ call.clusters, cluster.narrativeId = id
    · obtain ⟨cluster, hcluster, rfl⟩ := hid
      rw [h.row cluster hcluster] at hrow'
      exact Or.inr ⟨cluster, hcluster, rfl, (Option.some.inj hrow').symm⟩
    · have hother : ∀ cluster ∈ call.clusters, cluster.narrativeId ≠ id :=
        fun cluster hcluster heq => hid ⟨cluster, hcluster, heq⟩
      rw [h.otherRow id hother] at hrow'
      exact Or.inl ⟨hrow', hother⟩
  -- the clusters of a call are of different narratives
  have hsame : ∀ cluster ∈ call.clusters, ∀ other ∈ call.clusters,
      other.narrativeId = cluster.narrativeId → other.revision = cluster.revision :=
    fun cluster hcluster other hother _ =>
      (call.numbered other hother).trans (call.numbered cluster hcluster).symm
  refine ⟨h.written, fun cluster hcluster => ?_, fun cluster hcluster => ?_, fun id row' hrow' => ?_,
    fun id row' hrow' => ?_, fun cluster hcluster => ?_, fun cluster hcluster => ?_⟩
  · exact (List.mem_append.mp hcluster).elim (hs.identified cluster) (call.identified cluster)
  · rw [h.snapshots]
    rcases List.mem_append.mp hcluster with hold | hnew
    · exact List.mem_append_left _ (hs.snapshots cluster hold)
    · rw [call.numbered cluster hnew]
      exact List.mem_append_right _ (List.mem_singleton_self _)
  · rcases hrows id row' hrow' with ⟨hold, -⟩ | ⟨cluster, hcluster, -, rfl⟩
    · exact hs.keyed id row' hold
    · cases s.tables.narrative? cluster.narrativeId with
      | none => exact call.keyed cluster hcluster
      | some row => exact call.keyed cluster hcluster
  · rcases hrows id row' hrow' with ⟨hold, hother⟩ | ⟨cluster, hcluster, rfl, rfl⟩
    · obtain ⟨head, hhead, hid, hpointer, hnumber, hmax⟩ := hs.heads id row' hold
      refine ⟨head, List.mem_append_left _ hhead, hid, hpointer, hnumber, fun other hmem heq => ?_⟩
      rcases List.mem_append.mp hmem with hmem | hmem
      · exact hmax other hmem heq
      · exact absurd heq (hother other hmem)
    · cases hrow : s.tables.narrative? cluster.narrativeId with
      | none =>
        refine ⟨cluster, List.mem_append_right _ hcluster, rfl, rfl, rfl, fun other hmem heq => ?_⟩
        rcases List.mem_append.mp hmem with hmem | hmem
        · obtain ⟨row, hfound⟩ := hs.narratives other hmem
          rw [heq, hrow] at hfound
          exact nomatch hfound
        · exact (hsame cluster hcluster other hmem heq).le
      | some row =>
        obtain ⟨head, hhead, hid, hpointer, hnumber, hmax⟩ := hs.heads _ row hrow
        by_cases hle : row.currentRevision ≤ cluster.revision
        · have hnumber' : (cluster.updateNarrative row).currentRevision = cluster.revision := if_pos hle
          refine ⟨cluster, List.mem_append_right _ hcluster, rfl, (if_pos hle).symm, hnumber'.symm,
            fun other hmem heq => ?_⟩
          show other.revision ≤ (cluster.updateNarrative row).currentRevision
          rw [hnumber']
          rcases List.mem_append.mp hmem with hmem | hmem
          · exact (hmax other hmem heq).trans hle
          · exact (hsame cluster hcluster other hmem heq).le
        · have hnumber' : (cluster.updateNarrative row).currentRevision = row.currentRevision :=
            if_neg hle
          refine ⟨head, List.mem_append_left _ hhead, hid, hpointer.trans (if_neg hle).symm,
            hnumber.trans hnumber'.symm, fun other hmem heq => ?_⟩
          show other.revision ≤ (cluster.updateNarrative row).currentRevision
          rw [hnumber']
          rcases List.mem_append.mp hmem with hmem | hmem
          · exact hmax other hmem heq
          · rw [hsame cluster hcluster other hmem heq]
            exact (not_le.mp hle).le
  · by_cases hid : ∃ other ∈ call.clusters, other.narrativeId = cluster.narrativeId
    · obtain ⟨other, hother, hid⟩ := hid
      exact ⟨_, hid ▸ h.row other hother⟩
    · have hother : ∀ other ∈ call.clusters, other.narrativeId ≠ cluster.narrativeId :=
        fun other hmem heq => hid ⟨other, hmem, heq⟩
      rcases List.mem_append.mp hcluster with hold | hnew
      · obtain ⟨row, hrow⟩ := hs.narratives cluster hold
        exact ⟨row, (h.otherRow _ hother).trans hrow⟩
      · exact absurd rfl (hother cluster hnew)
  · rcases List.mem_append.mp hcluster with hold | hnew
    · obtain ⟨row, hrow⟩ := hs.revisions cluster hold
      exact ⟨row, h.keptRevision _ row hrow⟩
    · exact ⟨_, h.revision cluster hnew⟩

omit [Field 𝕜] [LinearOrder 𝕜] in
theorem Sound.pointsToNewest (hs : Sound key s) {id : Uuid String} {row : NarrativeModel 𝕜}
    (hrow : s.tables.narrative? id = some row) : PointsToNewest s.processed row := by
  obtain ⟨head, hhead, hid, hpointer, hnumber, hmax⟩ := hs.heads id row hrow
  have hname : row.narrativeId = id := (of_lookupBy hrow).2
  refine ⟨head, hhead, hid.trans hname.symm, hpointer, fun other hother heq => ?_⟩
  rw [hnumber]
  exact hmax other hother (heq.trans hname)

omit [LinearOrder 𝕜] in
/-- **The heads after a call that writes** are the newest revisions exactly when its clusters fit. -/
theorem Persisted.headsNewest_iff (h : Persisted key s call t') (hs : Sound key s)
    (hheads : HeadsNewest s) :
    HeadsNewest (s.step key call) ↔ ∀ cluster ∈ call.clusters, FitsHead s.tables cluster := by
  have hs' := h.sound hs
  rw [h.step_eq] at hs' ⊢
  constructor
  · intro hheads' cluster hcluster
    exact (h.carries_iff_fitsHead hs hheads hcluster).mp fun row hrow => (hheads' _ row hrow).1
  · intro hfits id row hrow
    refine ⟨?_, hs'.pointsToNewest hrow⟩
    by_cases hid : ∃ cluster ∈ call.clusters, cluster.narrativeId = id
    · obtain ⟨cluster, hcluster, rfl⟩ := hid
      exact (h.carries_iff_fitsHead hs hheads hcluster).mpr (hfits cluster hcluster) row hrow
    · have hold : s.tables.narrative? id = some row :=
        (h.otherRow id fun cluster hcluster heq => hid ⟨cluster, hcluster, heq⟩).symm.trans hrow
      obtain ⟨revision, hrevision, hcontent⟩ := (hheads id row hold).1
      exact ⟨revision, h.keptRevision _ revision hrevision, hcontent⟩

/-- **The head is the newest revision** after every call of a run, in any order of the revisions, exactly
when all calls are careful. -/
theorem heads_newest_iff (key : WindowKey) (calls : List (PersistCall 𝕜)) :
    Always (step key) HeadsNewest ({} : NarrativeStore 𝕜) calls ↔
      Throughout (step key) (Careful key) {} calls := by
  refine always_iff_throughout (I := fun s => Sound key s ∧ HeadsNewest s) ?_ (fun _ h => h.2) ?_
    ⟨sound_empty, fun _ _ h => nomatch h⟩ calls
  · rintro s call ⟨hs, hheads⟩ hcareful
    by_cases hold : snapshotOf key call.revision ∈ s.tables.graphSnapshots
    · have hstep : s.step key call = s := if_pos hold
      rw [hstep]
      exact ⟨hs, hheads⟩
    · obtain ⟨t', h⟩ := exists_persisted hs hold
      exact ⟨h.sound hs, (h.headsNewest_iff hs hheads).mpr (hcareful.resolve_left hold)⟩
  · rintro s call ⟨hs, hheads⟩ hcareless
    obtain ⟨hold, hfits⟩ := not_or.mp hcareless
    obtain ⟨t', h⟩ := exists_persisted hs hold
    exact mt (h.headsNewest_iff hs hheads).mp hfits

end NarrativeStore

/-! ## The calls of the service -/

namespace NarrativeService

variable [Field 𝕜] [LinearOrder 𝕜] (service : NarrativeService 𝕜) (w : WindowRevision)

theorem clusterKey_of_materialize {rt : Runtime 𝕜} {window : ClusterWindow}
    {group : List (NarrativePost 𝕜)} {cluster : NarrativeCluster 𝕜}
    (h : materialize rt window group = .ok cluster) : cluster.clusterKey = cluster.memberHash := by
  obtain ⟨first, -, h⟩ := bind_eq_ok.mp h
  obtain ⟨similarities, -, h⟩ := bind_eq_ok.mp h
  obtain rfl := Except.ok.inj h
  rfl

theorem clusterKey_of_mem_clusters {clusters : List (NarrativeCluster 𝕜)}
    (h : service.clusters w = .ok clusters) :
    ∀ cluster ∈ clusters, cluster.clusterKey = cluster.memberHash := by
  intro cluster hcluster
  obtain ⟨found, hfound, hreturn⟩ := bind_eq_ok.mp h
  obtain rfl := Except.ok.inj hreturn
  obtain ⟨original, horiginal, rfl⟩ := List.mem_map.mp hcluster
  obtain ⟨groups, -, hfound⟩ := bind_eq_ok.mp hfound
  obtain ⟨made, hmade, hsorted⟩ := bind_eq_ok.mp hfound
  obtain rfl := Except.ok.inj hsorted
  obtain ⟨group, -, hgroup⟩ :=
    Library.Fallible.exists_of_mem_mapM hmade ((List.mem_insertionSort _).mp horiginal)
  have hkey : original.clusterKey = original.memberHash := clusterKey_of_materialize hgroup
  exact hkey

/-- The call of `persist` that the service makes for a revision of a window. -/
def call : PersistCall 𝕜 where
  revision := w.revision
  clusters := (service.clusters w).toOption.getD []
  identified := by
    obtain ⟨clusters, hclusters, hdescribes, -⟩ := clusters_ok service w
    rw [hclusters]
    exact fun cluster hcluster => (hdescribes cluster hcluster).elim fun _ h => h.identified
  keyed := by
    obtain ⟨clusters, hclusters, -⟩ := clusters_ok service w
    rw [hclusters]
    exact clusterKey_of_mem_clusters service w hclusters
  distinct := by
    obtain ⟨clusters, hclusters, -, hdistinct, -⟩ := clusters_ok service w
    rw [hclusters]
    exact hdistinct
  numbered := by
    obtain ⟨clusters, hclusters, hdescribes, -⟩ := clusters_ok service w
    rw [hclusters]
    exact fun cluster hcluster => (hdescribes cluster hcluster).elim fun _ h => h.revision

/-- A step is what `process` does to the tables. -/
theorem tables_step_call (s : NarrativeStore 𝕜) (hposts : service.postsForWindow w.key ≠ []) :
    (s.step w.key (service.call w)).tables = (service.process s.tables w).toOption.getD s.tables := by
  obtain ⟨clusters, hclusters, -⟩ := clusters_ok service w
  have hcall : (service.call w).clusters = clusters := by
    show (service.clusters w).toOption.getD [] = clusters
    rw [hclusters]
    rfl
  have hprocess : service.process s.tables w = s.tables.persist clusters (snapshotOf w.key w.revision) := by
    rw [process, if_neg hposts, hclusters]
    rfl
  rw [hprocess, NarrativeStore.step, hcall]
  show (if snapshotOf w.key w.revision ∈ s.tables.graphSnapshots then s else _).tables = _
  split_ifs with hold
  · rw [Tables.persist, if_pos hold]
    rfl
  · show (match s.tables.persist clusters (snapshotOf w.key w.revision) with
      | .ok tables => _
      | .error _ => s).tables = _
    cases s.tables.persist clusters (snapshotOf w.key w.revision) with
    | error error => rfl
    | ok tables => rfl

/-! ## The first revision after the second -/

theorem representable_first : Representable (timedeltaSeconds (60 * 0)) := by decide +kernel

/-- A window of one minute, and its revisions. -/
def minuteRevision (revision : ℤ) : WindowRevision :=
  { windowAt 0 60 representable_first with revision := revision }

/-- The post at ten seconds is there. -/
def onePost : NarrativeService ℚ :=
  alikeService [{ assetPost "p" "a" [] with eventTime := 10000000 }] (by decide)

/-- Another post has come. -/
def twoPosts : NarrativeService ℚ :=
  alikeService [{ assetPost "p" "a" [] with eventTime := 10000000 },
    { assetPost "q" "a" [] with eventTime := 20000000 }] (by decide)

/-- The narrative points to its second revision, which has one post, and has the count of the first, which
has two. -/
theorem late_first_revision :
    ¬Always (NarrativeStore.step (minuteRevision 1).key) NarrativeStore.HeadsNewest {}
      [onePost.call (minuteRevision 2), twoPosts.call (minuteRevision 1)] := by
  intro h
  obtain ⟨s, hs⟩ : ∃ s, s = run (NarrativeStore.step (minuteRevision 1).key) {}
      [onePost.call (minuteRevision 2), twoPosts.call (minuteRevision 1)] := ⟨_, rfl⟩
  have hhead : (s.tables.narratives.map fun row => row.postCount) = [2] ∧
      s.tables.narratives.map (fun row =>
        (s.tables.revision? row.currentRevisionId).map NarrativeRevisionModel.postCount) = [some 1] := by
    rw [hs]
    decide +kernel
  have hheads : s.HeadsNewest := hs ▸ h.final
  obtain ⟨row, hrows, hcount⟩ := List.map_eq_singleton_iff.mp hhead.1
  have hrow : s.tables.narrative? row.narrativeId = some row := by
    rw [Tables.narrative?, hrows, lookupBy_cons, if_pos rfl]
  obtain ⟨⟨revision, hrevision, hcontent, -⟩, -⟩ := hheads _ row hrow
  have hpointed := hhead.2
  rw [hrows, List.map_singleton, hrevision, List.singleton_inj] at hpointed
  have hposts : row.postCount = revision.postCount := congrArg Content.postCount hcontent
  rw [hcount, Option.some.inj hpointed] at hposts
  exact absurd hposts (by decide)

end NarrativeService

end Narratives
end Scam2Market
