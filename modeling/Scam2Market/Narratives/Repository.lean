import Scam2Market.Narratives.Clustering
import Scam2Market.Python.Isoformat

/-!
# The narratives of the windows

`SqlNarrativeRepository.persist` of `narratives/repository.py` on the tables of narratives and their
revisions, and `NarrativeIntelligenceService.process` of `narratives/service.py` up to what it persists.

* `Tables`: the rows, and the identifiers of the graph snapshots.  Of the graph snapshot, what is
  persisted besides its identifier is left out, as are the campaign, the graph features and the outbox.
* `persistCluster` is the body of the loop over the clusters; a row that violates a unique key raises.
* `persist` commits all of its rows or none.
-/

namespace Scam2Market
namespace Narratives

open Features (WindowKey)

variable {𝕜 : Type}

/-- A row of `narratives`. -/
structure NarrativeModel (𝕜 : Type) where
  narrativeId : Uuid String
  scopeId : String
  assetId : String
  windowStart : Datetime
  windowEnd : Datetime
  clusterKey : Digest String
  stableKey : String
  currentRevisionId : NarrativeRevisionId
  currentRevision : ℤ
  memberHash : Digest String
  firstSeen : Datetime
  lastSeen : Datetime
  label : String
  summary : String
  postCount : ℕ
  uniqueAuthorCount : ℕ
  centroidJson : List 𝕜
  embeddingVersion : String

/-- A row of `narrative_revisions`. -/
structure NarrativeRevisionModel (𝕜 : Type) where
  narrativeRevisionId : NarrativeRevisionId
  narrativeId : Uuid String
  revision : ℤ
  memberHash : Digest String
  windowStart : Datetime
  cutoffEventTime : Datetime
  label : String
  summary : String
  centroidJson : List 𝕜
  postCount : ℕ

/-- A row of `narrative_posts`. -/
structure NarrativePostModel (𝕜 : Type) where
  narrativeRevisionId : NarrativeRevisionId
  narrativeId : Uuid String
  postId : String
  similarity : 𝕜

/-- `uuid5` of the scope, the window and the revision. -/
abbrev GraphSnapshotId := Uuid (String × Uuid WindowKey × ℤ)

instance : LawfulBEq GraphSnapshotId :=
  inferInstance

structure Tables (𝕜 : Type) where
  narratives : List (NarrativeModel 𝕜) := []
  revisions : List (NarrativeRevisionModel 𝕜) := []
  posts : List (NarrativePostModel 𝕜) := []
  graphSnapshots : List GraphSnapshotId := []

namespace NarrativeCluster

variable (cluster : NarrativeCluster 𝕜)

/-- `NarrativeModel(...)`. -/
def narrativeRow : NarrativeModel 𝕜 where
  narrativeId := cluster.narrativeId
  scopeId := cluster.scopeId
  assetId := cluster.assetId
  windowStart := cluster.windowStart
  windowEnd := cluster.windowEnd
  clusterKey := cluster.clusterKey
  stableKey := cluster.stableKey
  currentRevisionId := cluster.narrativeRevisionId
  currentRevision := cluster.revision
  memberHash := cluster.memberHash
  firstSeen := cluster.firstSeen
  lastSeen := cluster.lastSeen
  label := cluster.label
  summary := cluster.summary
  postCount := cluster.postIds.length
  uniqueAuthorCount := cluster.uniqueAuthorCount
  centroidJson := cluster.centroid
  embeddingVersion := cluster.embeddingVersion

/-- The changes to a narrative that is there. -/
def updateNarrative (row : NarrativeModel 𝕜) : NarrativeModel 𝕜 :=
  { row with
    label := cluster.label
    summary := cluster.summary
    postCount := cluster.postIds.length
    uniqueAuthorCount := cluster.uniqueAuthorCount
    centroidJson := cluster.centroid
    embeddingVersion := cluster.embeddingVersion
    clusterKey := cluster.clusterKey
    memberHash := cluster.memberHash
    lastSeen := max row.lastSeen cluster.lastSeen
    currentRevision :=
      if row.currentRevision ≤ cluster.revision then cluster.revision else row.currentRevision
    currentRevisionId :=
      if row.currentRevision ≤ cluster.revision then cluster.narrativeRevisionId
      else row.currentRevisionId }

/-- `NarrativeRevisionModel(...)`. -/
def revisionRow : NarrativeRevisionModel 𝕜 where
  narrativeRevisionId := cluster.narrativeRevisionId
  narrativeId := cluster.narrativeId
  revision := cluster.revision
  memberHash := cluster.memberHash
  windowStart := cluster.windowStart
  cutoffEventTime := cluster.windowEnd
  label := cluster.label
  summary := cluster.summary
  centroidJson := cluster.centroid
  postCount := cluster.postIds.length

/-- `NarrativePostModel(...)` of every member; the similarities have every member as a key. -/
def postRows [Zero 𝕜] : List (NarrativePostModel 𝕜) :=
  cluster.postIds.map fun postId =>
    { narrativeRevisionId := cluster.narrativeRevisionId
      narrativeId := cluster.narrativeId
      postId := postId
      similarity := cluster.similarities.getD postId 0 }

end NarrativeCluster

namespace Tables

variable (t : Tables 𝕜)

/-- The narrative of the cluster is inserted, or updated. -/
def writeNarrative (cluster : NarrativeCluster 𝕜) : Except PyError (Tables 𝕜) :=
  if ∃ row ∈ t.narratives, row.narrativeId = cluster.narrativeId then
    .ok { t with narratives := t.narratives.map fun row =>
      if row.narrativeId = cluster.narrativeId then cluster.updateNarrative row else row }
  else if ∃ row ∈ t.narratives, row.scopeId = cluster.scopeId ∧ row.assetId = cluster.assetId ∧
      row.stableKey = cluster.stableKey then
    .error (.integrityError "uq_narrative_stable_key")
  else .ok { t with narratives := t.narratives ++ [cluster.narrativeRow] }

/-- The revision of the cluster is inserted with its members, unless it is there. -/
def writeRevision [Zero 𝕜] (cluster : NarrativeCluster 𝕜) : Except PyError (Tables 𝕜) :=
  if ∃ row ∈ t.revisions, row.narrativeRevisionId = cluster.narrativeRevisionId then .ok t
  else if ∃ row ∈ t.revisions, row.narrativeId = cluster.narrativeId ∧
      row.revision = cluster.revision then
    .error (.integrityError "uq_narrative_revision_number")
  else if ∃ row ∈ t.revisions, row.narrativeId = cluster.narrativeId ∧
      row.memberHash = cluster.memberHash then
    .error (.integrityError "uq_narrative_revision_members")
  else .ok
    { t with
      revisions := t.revisions ++ [cluster.revisionRow]
      posts := t.posts ++ cluster.postRows }

/-- The body of the loop of `persist` over the clusters. -/
def persistCluster [Zero 𝕜] (cluster : NarrativeCluster 𝕜) : Except PyError (Tables 𝕜) := do
  let written ← t.writeNarrative cluster
  written.writeRevision cluster

/-- `persist(snapshot, clusters, graph, events)`. -/
def persist [Zero 𝕜] (clusters : List (NarrativeCluster 𝕜)) (graphSnapshotId : GraphSnapshotId) :
    Except PyError (Tables 𝕜) :=
  if graphSnapshotId ∈ t.graphSnapshots then .ok t
  else do
    let written ← clusters.foldlM (fun tables cluster => tables.persistCluster cluster) t
    return { written with graphSnapshots := written.graphSnapshots ++ [graphSnapshotId] }

end Tables

/-! ## The service -/

/-- A finalised or corrected revision of a window: the fields of a snapshot that the service reads. -/
structure WindowRevision where
  key : WindowKey
  revision : ℤ
  representable : Representable key.windowStart
  deriving DecidableEq

/-- The service: the clusterer, the embedding, whose vectors have one dimension, and the posts of the
repository, without vectors. -/
structure NarrativeService (𝕜 : Type) where
  clusterer : Clusterer 𝕜
  sqrt : 𝕜 → 𝕜
  str : Uuid String → String
  embed : String → List 𝕜
  embeddingVersion : String
  dimensions : ℕ
  posts : List (NarrativePost 𝕜)
  embed_length : ∀ text, (embed text).length = dimensions
  posts_nodup : (posts.map NarrativePost.postId).Nodup

namespace NarrativeService

variable [Field 𝕜] [LinearOrder 𝕜] (service : NarrativeService 𝕜)

/-- The standard library. -/
def runtime : Runtime 𝕜 where
  sqrt := service.sqrt
  isoformat := isoformat
  str := service.str

/-- `posts_for_window(snapshot)`, in the order of time and id. -/
def postsForWindow (key : WindowKey) : List (NarrativePost 𝕜) :=
  (service.posts.filter fun post =>
    post.scopeId = key.scopeId ∧ post.assetId = key.assetId ∧
      key.windowStart ≤ post.eventTime ∧ post.eventTime < key.windowEnd).insertionSort
    fun a b => a.key ≤ b.key

/-- The posts of the window, with their vectors. -/
def embedded (key : WindowKey) : List (NarrativePost 𝕜) :=
  (service.postsForWindow key).map fun post => { post with vector := service.embed post.text }

/-- The clusters of the window; they have the revision of the window. -/
def clusters (window : WindowRevision) : Except PyError (List (NarrativeCluster 𝕜)) := do
  let clusters ← service.clusterer.cluster service.runtime
    ⟨window.key.windowStart, window.key.windowEnd, service.embeddingVersion⟩
    (service.embedded window.key)
  return clusters.map fun cluster => { cluster with revision := window.revision }

/-- `graph_snapshot_id`. -/
def graphSnapshotId (window : WindowRevision) : GraphSnapshotId :=
  ⟨window.key.scopeId, ⟨window.key⟩, window.revision⟩

/-- `process(snapshot)`; a window without posts is passed over. -/
def process (t : Tables 𝕜) (window : WindowRevision) : Except PyError (Tables 𝕜) :=
  if service.postsForWindow window.key = [] then .ok t
  else do
    let clusters ← service.clusters window
    t.persist clusters (graphSnapshotId window)

end NarrativeService
end Narratives
end Scam2Market
