import Scam2Market.Narratives.ClusteringLaw
import Scam2Market.Narratives.Repository

/-!
# The identity of narratives

The name of a narrative has the start of its window and its first post, and nothing of the end of the
window.

* `windowStart_eq_of_narrativeId`: a name determines the start and the first post, since no text of an
  instant begins with another.
* `clusters_ok`: what the clusters of a window show of it (`Describes`).
* `persistCluster_ok` and `process_ok`: writing succeeds as long as windows have no names in common.
* `unique_iff_separated`: names are unique, and everything is written, exactly when windows with one
  start share no post (`nested_windows_collide` for two that do).
-/

namespace Scam2Market
namespace Narratives

open Features (WindowKey)
open Library (Grouped)
open Library.Fallible (bind_eq_ok exists_of_mem_mapM foldlM_succeeds)

variable {𝕜 : Type} [Field 𝕜] [LinearOrder 𝕜]

/-! ## Names -/

/-- The name of a narrative with a stable key. -/
def nameOf (scopeId assetId stableKey : String) : Uuid String :=
  ⟨"narrative:" ++ scopeId ++ ":" ++ assetId ++ ":" ++ stableKey⟩

/-- Posts of one scope and asset that give windows the same name are one post, and the windows start
at one time. -/
theorem windowStart_eq_of_narrativeId {rt : Runtime 𝕜} {start start' : Datetime}
    {first first' : NarrativePost 𝕜}
    (hpre : ∀ a ∈ [start, start'], ∀ b ∈ [start, start'],
      (rt.isoformat a).toList <+: (rt.isoformat b).toList → a = b)
    (hscope : first.scopeId = first'.scopeId) (hasset : first.assetId = first'.assetId)
    (h : narrativeIdOf rt start first = narrativeIdOf rt start' first') :
    start = start' ∧ first.postId = first'.postId := by
  have hname := congrArg (fun id => id.name.toList) h
  simp only [narrativeIdOf, stableKeyOf, hscope, hasset, String.toList_append,
    List.append_assoc] at hname
  have hkey := List.append_cancel_left (List.append_cancel_left (List.append_cancel_left
    (List.append_cancel_left (List.append_cancel_left hname))))
  have hstart : start = start' := by
    rcases List.prefix_or_prefix_of_prefix ⟨_, rfl⟩ ⟨_, hkey.symm⟩ with hle | hle
    · exact hpre start (by simp) start' (by simp) hle
    · exact (hpre start' (by simp) start (by simp) hle).symm
  subst hstart
  exact ⟨rfl, postId_eq_of_narrativeId hscope hasset h⟩

/-- The name of a cluster is made of its scope, its asset and its stable key. -/
theorem named_of_materialize {rt : Runtime 𝕜} {window : ClusterWindow}
    {group : List (NarrativePost 𝕜)} {cluster : NarrativeCluster 𝕜}
    (h : materialize rt window group = .ok cluster) :
    cluster.narrativeId = nameOf cluster.scopeId cluster.assetId cluster.stableKey := by
  obtain ⟨first, -, h⟩ := bind_eq_ok.mp h
  obtain ⟨similarities, -, h⟩ := bind_eq_ok.mp h
  obtain rfl := Except.ok.inj h
  rfl

/-! ## The clusters of a window -/

namespace NarrativeService

variable {service : NarrativeService 𝕜} {w : WindowRevision}

theorem mem_postsForWindow {key : WindowKey} {post : NarrativePost 𝕜} :
    post ∈ service.postsForWindow key ↔ post ∈ service.posts ∧ post.scopeId = key.scopeId ∧
      post.assetId = key.assetId ∧ key.windowStart ≤ post.eventTime ∧
      post.eventTime < key.windowEnd := by
  rw [postsForWindow, List.mem_insertionSort, List.mem_filter, decide_eq_true_iff]

theorem embedded_ids (key : WindowKey) :
    (service.embedded key).map NarrativePost.postId =
      (service.postsForWindow key).map NarrativePost.postId := by
  rw [embedded, List.map_map]
  rfl

theorem postsForWindow_ids_nodup (key : WindowKey) :
    ((service.postsForWindow key).map NarrativePost.postId).Nodup := by
  have hperm := (List.perm_insertionSort (fun a b : NarrativePost 𝕜 => a.key ≤ b.key)
    (service.posts.filter fun post => post.scopeId = key.scopeId ∧ post.assetId = key.assetId ∧
      key.windowStart ≤ post.eventTime ∧ post.eventTime < key.windowEnd)).map NarrativePost.postId
  exact hperm.nodup_iff.mpr ((List.filter_sublist.map _).nodup service.posts_nodup)

theorem embedded_hasDimensions (key : WindowKey) :
    HasDimensions service.dimensions (service.embedded key) := by
  intro post hpost
  obtain ⟨original, -, rfl⟩ := List.mem_map.mp hpost
  exact service.embed_length original.text

/-- What a cluster of a window shows of it. -/
structure Describes (service : NarrativeService 𝕜) (w : WindowRevision)
    (cluster : NarrativeCluster 𝕜) (first : NarrativePost 𝕜) : Prop where
  first_mem : first ∈ service.postsForWindow w.key
  first_le : ∀ post ∈ service.postsForWindow w.key, post.postId ∈ cluster.postIds →
    first.key ≤ post.key
  scopeId : cluster.scopeId = w.key.scopeId
  assetId : cluster.assetId = w.key.assetId
  narrativeId : cluster.narrativeId = narrativeIdOf service.runtime w.key.windowStart first
  named : cluster.narrativeId = nameOf cluster.scopeId cluster.assetId cluster.stableKey
  narrativeRevisionId : cluster.narrativeRevisionId = ⟨cluster.narrativeId, cluster.memberHash⟩
  revision : cluster.revision = w.revision

/-- The cluster of a group of posts of the window describes the window. -/
theorem describes_of_materialize {window : ClusterWindow} {group : List (NarrativePost 𝕜)}
    {cluster : NarrativeCluster 𝕜} (hstart : window.windowStart = w.key.windowStart)
    (hgroup : ∀ post ∈ group, post ∈ service.embedded w.key)
    (h : materialize service.runtime window group = .ok cluster) :
    ∃ first, Describes service w { cluster with revision := w.revision } first := by
  obtain ⟨embeddedFirst, hshown⟩ := clusterOf_of_materialize h
  obtain ⟨first, hfirst, rfl⟩ := List.mem_map.mp (hgroup embeddedFirst hshown.first_mem)
  obtain ⟨-, hscope, hasset, -⟩ := mem_postsForWindow.mp hfirst
  have hnamed : cluster.narrativeId = nameOf cluster.scopeId cluster.assetId cluster.stableKey :=
    named_of_materialize h
  refine ⟨first, hfirst, fun post hpost hin => ?_, hshown.scopeId.trans hscope,
    hshown.assetId.trans hasset, ?_, hnamed, hshown.narrativeRevisionId, rfl⟩
  · -- the member of the group with the id of the post is the post
    obtain ⟨member, hmember, hid⟩ := mem_postIdsOf.mp (hshown.postIds ▸ hin)
    obtain ⟨original, horiginal, rfl⟩ := List.mem_map.mp (hgroup member hmember)
    obtain rfl : original = post :=
      List.inj_on_of_nodup_map (postsForWindow_ids_nodup w.key) horiginal hpost hid
    have hle := hshown.first_le _ hmember
    exact hle
  · rw [← hstart]
    exact hshown.narrativeId

/-- **The clusters of a window.**  They describe the window, have names of their own, and every post is
in one of them. -/
theorem clusters_ok (service : NarrativeService 𝕜) (w : WindowRevision) :
    ∃ clusters, service.clusters w = .ok clusters ∧
      (∀ cluster ∈ clusters, ∃ first, Describes service w cluster first) ∧
      clusters.Pairwise (fun a b => a.narrativeId ≠ b.narrativeId) ∧
      ∀ post ∈ service.postsForWindow w.key, ∃ cluster ∈ clusters, post.postId ∈ cluster.postIds := by
  have hids : ((service.embedded w.key).map NarrativePost.postId).Nodup := by
    rw [embedded_ids]
    exact postsForWindow_ids_nodup w.key
  obtain ⟨groups, clusters, hgrouped, hclusters, hcluster⟩ : ∃ groups clusters,
      Grouped (Fits service.clusterer service.runtime)
        ((service.embedded w.key).insertionSort fun a b => a.key ≤ b.key) groups ∧
      groups.mapM (materialize service.runtime
        ⟨w.key.windowStart, w.key.windowEnd, service.embeddingVersion⟩) = .ok clusters ∧
      service.clusterer.cluster service.runtime
        ⟨w.key.windowStart, w.key.windowEnd, service.embeddingVersion⟩ (service.embedded w.key) =
        .ok (clusters.insertionSort fun a b =>
          service.runtime.str a.narrativeId ≤ service.runtime.str b.narrativeId) :=
    cluster_ok (embedded_hasDimensions w.key)
  have hflatten : groups.flatten.Perm (service.embedded w.key) :=
    hgrouped.flatten_perm.trans (List.perm_insertionSort _ _)
  have hdescribes : ∀ cluster ∈ clusters,
      ∃ first, Describes service w { cluster with revision := w.revision } first := by
    intro cluster hmem
    obtain ⟨group, hgroup, hmade⟩ := exists_of_mem_mapM hclusters hmem
    exact describes_of_materialize rfl (fun post hpost =>
      hflatten.mem_iff.mp (List.mem_flatten.mpr ⟨group, hgroup, hpost⟩)) hmade
  have hsorted := List.perm_insertionSort
    (fun a b : NarrativeCluster 𝕜 => service.runtime.str a.narrativeId ≤ service.runtime.str b.narrativeId)
    clusters
  refine ⟨_, bind_eq_ok.mpr ⟨_, hcluster, rfl⟩, fun cluster hmem => ?_, ?_, fun post hpost => ?_⟩
  · obtain ⟨original, horiginal, rfl⟩ := List.mem_map.mp hmem
    exact hdescribes original (hsorted.mem_iff.mp horiginal)
  · have hflatids : (groups.flatten.map NarrativePost.postId).Nodup :=
      (hflatten.map NarrativePost.postId).nodup_iff.mpr hids
    have hdistinct : clusters.Pairwise fun a b => a.narrativeId ≠ b.narrativeId := by
      refine (pairwise_narrativeId hflatids hclusters).imp_of_mem fun {a b} ha hb hab => ?_
      obtain ⟨_, hfirst⟩ := hdescribes a ha
      obtain ⟨_, hfirst'⟩ := hdescribes b hb
      exact (hab (hfirst.scopeId.trans hfirst'.scopeId.symm)
        (hfirst.assetId.trans hfirst'.assetId.symm)).1
    rw [List.pairwise_map]
    exact (hsorted.pairwise_iff fun {a b} hab => hab.symm).mpr hdistinct
  · have hid : post.postId ∈ (service.embedded w.key).map NarrativePost.postId := by
      rw [embedded_ids]
      exact List.mem_map_of_mem hpost
    obtain ⟨cluster, hmem, hin⟩ :=
      List.mem_flatMap.mp ((postIds_perm hflatten hclusters).mem_iff.mpr hid)
    exact ⟨_, List.mem_map_of_mem (hsorted.mem_iff.mpr hmem), hin⟩

end NarrativeService

/-! ## Writing -/

/-- The rows of the tables are those of some clusters. -/
structure WrittenFrom (Source : NarrativeCluster 𝕜 → Prop) (t : Tables 𝕜) : Prop where
  named : ∀ row ∈ t.narratives, row.narrativeId = nameOf row.scopeId row.assetId row.stableKey
  revisions : ∀ row ∈ t.revisions, ∃ cluster, Source cluster ∧ row = cluster.revisionRow

theorem WrittenFrom.mono {Source Source' : NarrativeCluster 𝕜 → Prop} {t : Tables 𝕜}
    (h : WrittenFrom Source t) (hle : ∀ cluster, Source cluster → Source' cluster) :
    WrittenFrom Source' t :=
  ⟨h.named, fun row hrow => (h.revisions row hrow).imp fun _ hsource => hsource.imp_left (hle _)⟩

/-- A cluster of which names and revisions are read. -/
structure Identified (cluster : NarrativeCluster 𝕜) : Prop where
  named : cluster.narrativeId = nameOf cluster.scopeId cluster.assetId cluster.stableKey
  narrativeRevisionId : cluster.narrativeRevisionId = ⟨cluster.narrativeId, cluster.memberHash⟩

namespace Tables

variable {t : Tables 𝕜} {cluster : NarrativeCluster 𝕜} {Source : NarrativeCluster 𝕜 → Prop}

/-- A narrative can be written: a row with its stable key has its name. -/
theorem writeNarrative_ok (ht : WrittenFrom Source t) (hcluster : Identified cluster) :
    ∃ t', t.writeNarrative cluster = .ok t' ∧ WrittenFrom Source t' ∧
      t'.revisions = t.revisions ∧ t'.graphSnapshots = t.graphSnapshots := by
  rw [writeNarrative]
  split_ifs with hfound hkey
  · refine ⟨_, rfl, ⟨fun row hrow => ?_, ht.revisions⟩, rfl, rfl⟩
    obtain ⟨original, horiginal, rfl⟩ := List.mem_map.mp hrow
    split_ifs
    · exact ht.named original horiginal
    · exact ht.named original horiginal
  · obtain ⟨row, hrow, hscope, hasset, hstable⟩ := hkey
    refine absurd ⟨row, hrow, ?_⟩ hfound
    rw [ht.named row hrow, hcluster.named, hscope, hasset, hstable]
  · refine ⟨_, rfl, ⟨fun row hrow => ?_, ht.revisions⟩, rfl, rfl⟩
    rcases List.mem_append.mp hrow with hold | hnew
    · exact ht.named row hold
    · rw [List.mem_singleton.mp hnew]
      exact hcluster.named

/-- A revision can be written when no row has its name and its number. -/
theorem writeRevision_ok (ht : WrittenFrom Source t) (hcluster : Identified cluster)
    (hsource : ∀ earlier, Source earlier → Identified earlier)
    (hfresh : ∀ earlier, Source earlier → earlier.narrativeId = cluster.narrativeId →
      earlier.revision ≠ cluster.revision) :
    ∃ t', t.writeRevision cluster = .ok t' ∧
      WrittenFrom (fun other => Source other ∨ other = cluster) t' ∧
      t'.graphSnapshots = t.graphSnapshots := by
  rw [writeRevision]
  split_ifs with hfound hnumber hmembers
  · exact ⟨t, rfl, ht.mono fun _ => Or.inl, rfl⟩
  · obtain ⟨row, hrow, hid, hrevision⟩ := hnumber
    obtain ⟨earlier, hearlier, rfl⟩ := ht.revisions row hrow
    exact absurd hrevision (hfresh earlier hearlier hid)
  · -- the members and the name make the identifier of the revision
    obtain ⟨row, hrow, hid, hhash⟩ := hmembers
    refine absurd ⟨row, hrow, ?_⟩ hfound
    obtain ⟨earlier, hearlier, rfl⟩ := ht.revisions row hrow
    have hid' : earlier.narrativeId = cluster.narrativeId := hid
    have hhash' : earlier.memberHash = cluster.memberHash := hhash
    calc earlier.narrativeRevisionId
        = ⟨earlier.narrativeId, earlier.memberHash⟩ := (hsource earlier hearlier).narrativeRevisionId
      _ = ⟨cluster.narrativeId, cluster.memberHash⟩ := by rw [hid', hhash']
      _ = cluster.narrativeRevisionId := hcluster.narrativeRevisionId.symm
  · refine ⟨_, rfl, ⟨ht.named, fun row hrow => ?_⟩, rfl⟩
    rcases List.mem_append.mp hrow with hold | hnew
    · exact (ht.revisions row hold).imp fun _ hsource => hsource.imp_left Or.inl
    · exact ⟨cluster, Or.inr rfl, List.mem_singleton.mp hnew⟩

/-- **The body of the loop succeeds** on a cluster that no row has the name and the number of. -/
theorem persistCluster_ok (ht : WrittenFrom Source t) (hcluster : Identified cluster)
    (hsource : ∀ earlier, Source earlier → Identified earlier)
    (hfresh : ∀ earlier, Source earlier → earlier.narrativeId = cluster.narrativeId →
      earlier.revision ≠ cluster.revision) :
    ∃ t', t.persistCluster cluster = .ok t' ∧
      WrittenFrom (fun other => Source other ∨ other = cluster) t' ∧
      t'.graphSnapshots = t.graphSnapshots := by
  obtain ⟨t₁, hnarrative, ht₁, -, hgraph₁⟩ := writeNarrative_ok ht hcluster
  obtain ⟨t₂, hrevision, ht₂, hgraph₂⟩ := writeRevision_ok ht₁ hcluster hsource hfresh
  exact ⟨t₂, bind_eq_ok.mpr ⟨t₁, hnarrative, hrevision⟩, ht₂, hgraph₂.trans hgraph₁⟩

/-- **The loop succeeds** on clusters with names of their own, none of which a row has with the number
of the cluster. -/
theorem persist_ok {clusters : List (NarrativeCluster 𝕜)} {graphSnapshotId : GraphSnapshotId}
    (ht : WrittenFrom Source t) (hnew : graphSnapshotId ∉ t.graphSnapshots)
    (hclusters : ∀ cluster ∈ clusters, Identified cluster)
    (hdistinct : clusters.Pairwise fun a b => a.narrativeId ≠ b.narrativeId)
    (hsource : ∀ earlier, Source earlier → Identified earlier)
    (hfresh : ∀ cluster ∈ clusters, ∀ earlier, Source earlier →
      earlier.narrativeId = cluster.narrativeId → earlier.revision ≠ cluster.revision) :
    ∃ t', t.persist clusters graphSnapshotId = .ok t' ∧
      WrittenFrom (fun other => Source other ∨ other ∈ clusters) t' ∧
      t'.graphSnapshots = t.graphSnapshots ++ [graphSnapshotId] := by
  have hstart : WrittenFrom (fun other => Source other ∨ other ∈ []) t :=
    ht.mono fun _ => Or.inl
  have hstep : ∀ done cluster (tables : Tables 𝕜), done ++ [cluster] <+: clusters →
      WrittenFrom (fun other => Source other ∨ other ∈ done) tables ∧
        tables.graphSnapshots = t.graphSnapshots →
      ∃ t', tables.persistCluster cluster = .ok t' ∧
        WrittenFrom (fun other => Source other ∨ other ∈ done ++ [cluster]) t' ∧
          t'.graphSnapshots = t.graphSnapshots := by
    rintro done cluster tables hpre ⟨htables, hgraph⟩
    have hmem : ∀ other ∈ done ++ [cluster], other ∈ clusters := fun other h => hpre.subset h
    have hcluster : cluster ∈ clusters := hmem cluster (by simp)
    have hdone : ∀ other ∈ done, other.narrativeId ≠ cluster.narrativeId := fun other hother =>
      (List.pairwise_append.mp (hdistinct.sublist hpre.sublist)).2.2 other hother cluster
        List.mem_cons_self
    obtain ⟨t', hpersist, ht', hgraph'⟩ := persistCluster_ok htables (hclusters cluster hcluster)
      (fun earlier hearlier => hearlier.elim (hsource earlier) fun hother =>
        hclusters earlier (hmem earlier (List.mem_append_left _ hother)))
      fun earlier hearlier hid => hearlier.elim
        (fun hold => hfresh cluster hcluster earlier hold hid)
        fun hother => absurd hid (hdone earlier hother)
    refine ⟨t', hpersist, ht'.mono fun other hother => ?_, hgraph'.trans hgraph⟩
    rcases hother with (hold | hother) | rfl
    · exact Or.inl hold
    · exact Or.inr (List.mem_append_left _ hother)
    · exact Or.inr (List.mem_append_right _ List.mem_cons_self)
  obtain ⟨t', hfold, ht', hgraph'⟩ := foldlM_succeeds
    (I := fun done tables => WrittenFrom (fun other => Source other ∨ other ∈ done) tables ∧
      tables.graphSnapshots = t.graphSnapshots) ⟨hstart, rfl⟩ hstep
  refine ⟨{ t' with graphSnapshots := t'.graphSnapshots ++ [graphSnapshotId] }, ?_,
    ⟨ht'.named, ht'.revisions⟩, by rw [hgraph']⟩
  rw [persist, if_neg hnew]
  exact bind_eq_ok.mpr ⟨t', hfold, rfl⟩

end Tables

namespace NarrativeService

variable {service : NarrativeService 𝕜} {w w' : WindowRevision} {ws : List WindowRevision}

/-- A cluster of one of the windows. -/
def ClusterOfOne (service : NarrativeService 𝕜) (ws : List WindowRevision)
    (cluster : NarrativeCluster 𝕜) : Prop :=
  ∃ w ∈ ws, ∃ clusters, service.clusters w = .ok clusters ∧ cluster ∈ clusters

/-- No cluster of one window has the name of a cluster of the other. -/
def NamedApart (service : NarrativeService 𝕜) (w w' : WindowRevision) : Prop :=
  ∀ clusters clusters', service.clusters w = .ok clusters → service.clusters w' = .ok clusters' →
    ∀ cluster ∈ clusters, ∀ cluster' ∈ clusters', cluster.narrativeId ≠ cluster'.narrativeId

/-- What the tables hold once some windows are processed. -/
structure Stored (service : NarrativeService 𝕜) (done : List WindowRevision) (t : Tables 𝕜) : Prop where
  written : WrittenFrom (ClusterOfOne service done) t
  snapshots : ∀ w ∈ done, service.postsForWindow w.key ≠ [] →
    graphSnapshotId w ∈ t.graphSnapshots

theorem describes_of_mem {clusters : List (NarrativeCluster 𝕜)} {cluster : NarrativeCluster 𝕜}
    (hclusters : service.clusters w = .ok clusters) (hmem : cluster ∈ clusters) :
    ∃ first, Describes service w cluster first := by
  obtain ⟨clusters', hclusters', hdescribes, -⟩ := clusters_ok service w
  rw [hclusters] at hclusters'
  obtain rfl := Except.ok.inj hclusters'
  exact hdescribes cluster hmem

theorem Describes.identified {cluster : NarrativeCluster 𝕜} {first : NarrativePost 𝕜}
    (h : Describes service w cluster first) : Identified cluster :=
  ⟨h.named, h.narrativeRevisionId⟩

theorem ClusterOfOne.identified {cluster : NarrativeCluster 𝕜} (h : ClusterOfOne service ws cluster) :
    Identified cluster := by
  obtain ⟨w, -, clusters, hclusters, hmem⟩ := h
  obtain ⟨_, hdescribes⟩ := describes_of_mem hclusters hmem
  exact hdescribes.identified

/-- **A window is processed**: no cluster of the windows before has the name of one of its clusters,
unless it is of the same window. -/
theorem process_ok {done : List WindowRevision} {t : Tables 𝕜} (ht : Stored service done t)
    (hapart : ∀ earlier ∈ done, earlier.key ≠ w.key → NamedApart service earlier w) :
    ∃ t', service.process t w = .ok t' ∧ Stored service (done ++ [w]) t' := by
  have hgrows : ∀ cluster, ClusterOfOne service done cluster →
      ClusterOfOne service (done ++ [w]) cluster :=
    fun cluster ⟨earlier, hearlier, hcluster⟩ => ⟨earlier, List.mem_append_left _ hearlier, hcluster⟩
  rw [process]
  split_ifs with hempty
  · refine ⟨t, rfl, ht.written.mono hgrows, fun earlier hearlier hposts => ?_⟩
    rcases List.mem_append.mp hearlier with hold | hnew
    · exact ht.snapshots earlier hold hposts
    · exact absurd (List.mem_singleton.mp hnew ▸ hempty) hposts
  obtain ⟨clusters, hclusters, hdescribes, hdistinct, -⟩ := clusters_ok service w
  by_cases hstored : graphSnapshotId w ∈ t.graphSnapshots
  · refine ⟨t, bind_eq_ok.mpr ⟨clusters, hclusters, if_pos hstored⟩, ht.written.mono hgrows,
      fun earlier hearlier hposts => ?_⟩
    rcases List.mem_append.mp hearlier with hold | hnew
    · exact ht.snapshots earlier hold hposts
    · exact List.mem_singleton.mp hnew ▸ hstored
  -- an earlier cluster with the name and the number is of the same revision of the same window
  have hfresh : ∀ cluster ∈ clusters, ∀ earlier, ClusterOfOne service done earlier →
      earlier.narrativeId = cluster.narrativeId → earlier.revision ≠ cluster.revision := by
    rintro cluster hmem earlier ⟨w₀, hw₀, clusters₀, hclusters₀, hmem₀⟩ hid hrevision
    obtain ⟨first, hfirst⟩ := hdescribes cluster hmem
    obtain ⟨first₀, hfirst₀⟩ := describes_of_mem hclusters₀ hmem₀
    have hkey : w₀.key = w.key := by
      by_contra hne
      exact hapart w₀ hw₀ hne clusters₀ clusters hclusters₀ hclusters earlier hmem₀ cluster hmem hid
    have hnumber : w₀.revision = w.revision :=
      hfirst₀.revision.symm.trans (hrevision.trans hfirst.revision)
    have hsame : graphSnapshotId w₀ = graphSnapshotId w := by
      rw [graphSnapshotId, graphSnapshotId, hkey, hnumber]
    exact hstored (hsame ▸ ht.snapshots w₀ hw₀ (List.ne_nil_of_mem hfirst₀.first_mem))
  obtain ⟨t', hpersist, hwritten, hgraph⟩ := Tables.persist_ok ht.written hstored
    (fun cluster hmem => (hdescribes cluster hmem).elim fun _ hfirst => hfirst.identified) hdistinct
    (fun earlier hearlier => hearlier.identified) hfresh
  refine ⟨t', bind_eq_ok.mpr ⟨clusters, hclusters, hpersist⟩, hwritten.mono fun cluster hcluster => ?_,
    fun earlier hearlier hposts => ?_⟩
  · rcases hcluster with hold | hnew
    · exact hgrows cluster hold
    · exact ⟨w, List.mem_append_right _ List.mem_cons_self, clusters, hclusters, hnew⟩
  · rw [hgraph]
    rcases List.mem_append.mp hearlier with hold | hnew
    · exact List.mem_append_left _ (ht.snapshots earlier hold hposts)
    · rw [List.mem_singleton.mp hnew]
      exact List.mem_append_right _ List.mem_cons_self

/-- Windows whose clusters have no names in common are all processed. -/
theorem run_ok (hapart : ∀ w ∈ ws, ∀ w' ∈ ws, w.key ≠ w'.key → NamedApart service w w') :
    ∃ t, ws.foldlM service.process {} = .ok t := by
  have hstart : Stored service [] {} :=
    ⟨⟨fun _ h => absurd h List.not_mem_nil, fun _ h => absurd h List.not_mem_nil⟩,
      fun _ h => absurd h List.not_mem_nil⟩
  obtain ⟨t, ht, -⟩ := foldlM_succeeds (I := Stored service) hstart fun done w t hpre ht =>
    process_ok ht fun earlier hearlier => hapart earlier
      (hpre.subset (List.mem_append_left _ hearlier)) w
      (hpre.subset (List.mem_append_right _ List.mem_cons_self))
  exact ⟨t, ht⟩

/-! ## Windows with one start -/

/-- The windows have narratives of their own, and all of them are written. -/
def Unique (service : NarrativeService 𝕜) (ws : List WindowRevision) : Prop :=
  (∀ w ∈ ws, ∀ w' ∈ ws, w.key ≠ w'.key → NamedApart service w w') ∧
    ∃ t, ws.foldlM service.process {} = .ok t

/-- Windows with one start share no post. -/
def Separated (service : NarrativeService 𝕜) (ws : List WindowRevision) : Prop :=
  ∀ w ∈ ws, ∀ w' ∈ ws, w.key ≠ w'.key → w.key.windowStart = w'.key.windowStart →
    ∀ post ∈ service.postsForWindow w.key, post ∉ service.postsForWindow w'.key

/-- The first post of a window gives its name to a narrative of it. -/
theorem exists_named_after {post : NarrativePost 𝕜} (hpost : post ∈ service.postsForWindow w.key)
    (hfirst : ∀ other ∈ service.postsForWindow w.key, post.key ≤ other.key) :
    ∃ clusters, service.clusters w = .ok clusters ∧ ∃ cluster ∈ clusters,
      cluster.narrativeId = narrativeIdOf service.runtime w.key.windowStart post := by
  obtain ⟨clusters, hclusters, hdescribes, -, hcovered⟩ := clusters_ok service w
  obtain ⟨cluster, hmem, hin⟩ := hcovered post hpost
  obtain ⟨first, hshown⟩ := hdescribes cluster hmem
  have hkey : first.key = post.key :=
    le_antisymm (hshown.first_le post hpost hin) (hfirst first hshown.first_mem)
  obtain rfl : first = post := List.inj_on_of_nodup_map (postsForWindow_ids_nodup w.key)
    hshown.first_mem hpost (congrArg (fun key => (ofLex key).2) hkey)
  exact ⟨clusters, hclusters, cluster, hmem, hshown.narrativeId⟩

/-- The longer of two windows with one start and a common post begins with the posts of the shorter, so
both have a narrative with the name of the first of them. -/
theorem not_namedApart_of_shared (hstart : w.key.windowStart = w'.key.windowStart)
    (hend : w.key.windowEnd ≤ w'.key.windowEnd) {post : NarrativePost 𝕜}
    (hpost : post ∈ service.postsForWindow w.key) (hpost' : post ∈ service.postsForWindow w'.key) :
    ¬ NamedApart service w w' := by
  obtain ⟨first, hfirstOf⟩ := firstOf_ok (List.ne_nil_of_mem hpost)
  obtain ⟨hfirst, hle⟩ := mem_of_firstOf hfirstOf
  obtain ⟨-, hscope, hasset, -⟩ := mem_postsForWindow.mp hpost
  obtain ⟨-, hscope', hasset', -⟩ := mem_postsForWindow.mp hpost'
  obtain ⟨hin, hfirstScope, hfirstAsset, hafter, hbefore⟩ := mem_postsForWindow.mp hfirst
  have hfirst' : first ∈ service.postsForWindow w'.key :=
    mem_postsForWindow.mpr ⟨hin, hfirstScope.trans (hscope.symm.trans hscope'),
      hfirstAsset.trans (hasset.symm.trans hasset'), hstart ▸ hafter, hbefore.trans_le hend⟩
  have hle' : ∀ other ∈ service.postsForWindow w'.key, first.key ≤ other.key := by
    intro other hother
    obtain ⟨hin', hotherScope, hotherAsset, hafter', -⟩ := mem_postsForWindow.mp hother
    rcases lt_or_ge other.eventTime w.key.windowEnd with hlt | hge
    · exact hle other (mem_postsForWindow.mpr ⟨hin', hotherScope.trans (hscope'.symm.trans hscope),
        hotherAsset.trans (hasset'.symm.trans hasset), hstart ▸ hafter', hlt⟩)
    · exact (Prod.Lex.toLex_lt_toLex.mpr (Or.inl (hbefore.trans_le hge))).le
  obtain ⟨clusters, hclusters, cluster, hmem, hname⟩ := exists_named_after hfirst hle
  obtain ⟨clusters', hclusters', cluster', hmem', hname'⟩ := exists_named_after hfirst' hle'
  intro hapart
  refine hapart clusters clusters' hclusters hclusters' cluster hmem cluster' hmem' ?_
  rw [hname, hname', hstart]

/-- Clusters with one name, of posts of one scope and asset, are of windows that start at one time and
share a post. -/
theorem namedApart_of_separated {scopeId assetId : String}
    (hposts : ∀ post ∈ service.posts, post.scopeId = scopeId ∧ post.assetId = assetId)
    (hshared : w.key.windowStart = w'.key.windowStart →
      ∀ post ∈ service.postsForWindow w.key, post ∉ service.postsForWindow w'.key) :
    NamedApart service w w' := by
  intro clusters clusters' hclusters hclusters' cluster hmem cluster' hmem' hname
  obtain ⟨first, hfirst⟩ := describes_of_mem hclusters hmem
  obtain ⟨first', hfirst'⟩ := describes_of_mem hclusters' hmem'
  have hin : first ∈ service.posts := (mem_postsForWindow.mp hfirst.first_mem).1
  have hin' : first' ∈ service.posts := (mem_postsForWindow.mp hfirst'.first_mem).1
  have hpre : ∀ a ∈ [w.key.windowStart, w'.key.windowStart],
      ∀ b ∈ [w.key.windowStart, w'.key.windowStart],
        (service.runtime.isoformat a).toList <+: (service.runtime.isoformat b).toList → a = b := by
    have hrepresentable : ∀ a ∈ [w.key.windowStart, w'.key.windowStart], Representable a := by
      simp only [List.forall_mem_cons, List.not_mem_nil, false_implies, implies_true, and_true]
      exact ⟨w.representable, w'.representable⟩
    exact fun a ha b hb => isoformat_isPrefix (hrepresentable a ha) (hrepresentable b hb)
  obtain ⟨hstart, hid⟩ := windowStart_eq_of_narrativeId hpre
    ((hposts first hin).1.trans (hposts first' hin').1.symm)
    ((hposts first hin).2.trans (hposts first' hin').2.symm)
    (hfirst.narrativeId.symm.trans (hname.trans hfirst'.narrativeId))
  obtain rfl : first = first' := List.inj_on_of_nodup_map service.posts_nodup hin hin' hid
  exact hshared hstart first hfirst.first_mem hfirst'.first_mem

/-- **Names are unique and all narratives are written exactly when windows with one start share no
post**, for posts of one scope and asset. -/
theorem unique_iff_separated (service : NarrativeService 𝕜) (scopeId assetId : String)
    (hposts : ∀ post ∈ service.posts, post.scopeId = scopeId ∧ post.assetId = assetId)
    (ws : List WindowRevision) : Unique service ws ↔ Separated service ws := by
  constructor
  · rintro ⟨hapart, -⟩ w hw w' hw' hkey hstart post hpost hpost'
    rcases le_total w.key.windowEnd w'.key.windowEnd with hend | hend
    · exact not_namedApart_of_shared hstart hend hpost hpost' (hapart w hw w' hw' hkey)
    · exact not_namedApart_of_shared hstart.symm hend hpost' hpost (hapart w' hw' w hw hkey.symm)
  · intro hseparated
    have hapart : ∀ w ∈ ws, ∀ w' ∈ ws, w.key ≠ w'.key → NamedApart service w w' :=
      fun w hw w' hw' hkey => namedApart_of_separated hposts (hseparated w hw w' hw' hkey)
    exact ⟨hapart, run_ok hapart⟩

/-- A service with posts of one asset that are all alike. -/
def alikeService (posts : List (NarrativePost ℚ))
    (posts_nodup : (posts.map NarrativePost.postId).Nodup) : NarrativeService ℚ where
  clusterer := defaultClusterer
  sqrt value := value
  str id := id.name
  embed _ := [1, 0]
  embeddingVersion := "test"
  dimensions := 2
  posts := posts
  embed_length _ := rfl
  posts_nodup := posts_nodup

/-- A post at ten seconds, and one at a hundred. -/
def earlyAndLate : NarrativeService ℚ :=
  alikeService [{ assetPost "p" "a" [] with eventTime := 10000000 },
    { assetPost "q" "a" [] with eventTime := 100000000 }] (by decide)

/-- The first revision of a window that starts at the epoch, or some minutes after it. -/
def windowAt (minutes : ℤ) (interval : ℕ) (h : Representable (timedeltaSeconds (60 * minutes))) :
    WindowRevision :=
  ⟨⟨"LIVE", "a", timedeltaSeconds (60 * minutes), interval⟩, 1, h⟩

/-- The windows of the first two minutes have narratives of their own. -/
theorem unique_minutes : Unique earlyAndLate
    [windowAt 0 60 (by decide +kernel), windowAt 1 60 (by decide +kernel)] :=
  (unique_iff_separated earlyAndLate "LIVE" "a" (by decide) _).mpr (by
    unfold Separated
    decide +kernel)

/-- **The first minute and the first five minutes**: the posts are alike, and the windows have one
narrative, with two members in one and one in the other.  The second cannot be written. -/
theorem nested_windows_collide :
    (∀ post ∈ earlyAndLate.posts, post.scopeId = "LIVE" ∧ post.assetId = "a") ∧
      (earlyAndLate.clusters (windowAt 0 60 (by decide +kernel))).map
          (fun clusters => clusters.map fun cluster => (cluster.narrativeId, cluster.postIds)) =
        .ok [(⟨"narrative:LIVE:a:1970-01-01T00:00:00+00:00:p:" ++ clustererVersion⟩, ["p"])] ∧
      (earlyAndLate.clusters (windowAt 0 300 (by decide +kernel))).map
          (fun clusters => clusters.map fun cluster => (cluster.narrativeId, cluster.postIds)) =
        .ok [(⟨"narrative:LIVE:a:1970-01-01T00:00:00+00:00:p:" ++ clustererVersion⟩, ["p", "q"])] ∧
      ([windowAt 0 60 (by decide +kernel), windowAt 0 300 (by decide +kernel)].foldlM
          earlyAndLate.process {}).map (fun _ => ()) =
        .error (.integrityError "uq_narrative_revision_number") ∧
      ¬ Unique earlyAndLate
        [windowAt 0 60 (by decide +kernel), windowAt 0 300 (by decide +kernel)] := by
  have hrun : ([windowAt 0 60 (by decide +kernel), windowAt 0 300 (by decide +kernel)].foldlM
      earlyAndLate.process {}).map (fun _ => ()) =
      .error (.integrityError "uq_narrative_revision_number") := by
    decide +kernel
  refine ⟨by decide, by decide +kernel, by decide +kernel, hrun, fun hunique => ?_⟩
  obtain ⟨t, ht⟩ := hunique.2
  rw [ht] at hrun
  cases hrun

end NarrativeService
end Narratives
end Scam2Market
