import Mathlib.Data.List.ReduceOption
import Scam2Market.Library.Fallible
import Scam2Market.Library.Procedure
import Scam2Market.Narratives.Clustering

/-!
# The law of clustering

* `cosine_comm`, `cosine_mem`: the similarity of vectors is symmetric and lies in `[0, 1]`.
* `place_ok`: a step of the loop places a post, so that the groups are greedy groups of the posts
  (`groups_ok`).
* `clustering_law`: the clusters are a partition of the posts into coherent groups, whatever the order
  in which the posts come.  The identifier of a narrative is a text in which the scope, the asset and
  the first post are only set apart by colons, so it is unique among the posts of one scope and asset
  (`narrative_ids_collide`).
-/

namespace Scam2Market
namespace Narratives

open Library (OrderedDict Placed Grouped)
open Library.Fallible (bind_eq_ok mapM_eq_ok mapM_of_forall exists_of_mem_mapM eq_map_of_mapM
  pairwise_of_mapM flatMap_perm_of_mapM foldlM_succeeds)

variable {𝕜 : Type} [Field 𝕜] [LinearOrder 𝕜] {rt : Runtime 𝕜} {c : Clusterer 𝕜}
  {window : ClusterWindow}

/-! ## Similarities -/

theorem cosine_comm (left right : List 𝕜) : cosine rt left right = cosine rt right left := by
  simp only [cosine]
  by_cases hzero : rt.sqrt (left.map fun value => value * value).sum = 0 ∨
      rt.sqrt (right.map fun value => value * value).sum = 0
  · rw [if_pos hzero, if_pos hzero.symm]
  · rw [if_neg hzero, if_neg fun h => hzero h.symm, List.zipWith_comm_of_comm mul_comm,
      mul_comm (rt.sqrt (left.map fun value => value * value).sum)]

theorem cosineSimilarity_ok {left right : List 𝕜} (h : left.length = right.length) :
    cosineSimilarity rt left right = .ok (cosine rt left right) :=
  if_neg (not_not.mpr h)

/-- A similarity lies in `[0, 1]`. -/
theorem cosine_mem [IsStrictOrderedRing 𝕜] (left right : List 𝕜) :
    0 ≤ cosine rt left right ∧ cosine rt left right ≤ 1 := by
  simp only [cosine]
  split_ifs
  · exact ⟨le_rfl, zero_le_one⟩
  · exact ⟨le_max_left _ _, max_le zero_le_one (min_le_left _ _)⟩

/-- Every post has a vector of the given dimensions. -/
def HasDimensions (dimensions : ℕ) (posts : List (NarrativePost 𝕜)) : Prop :=
  ∀ post ∈ posts, post.vector.length = dimensions

variable {dimensions : ℕ} {posts : List (NarrativePost 𝕜)}

theorem length_centroid (hdim : HasDimensions dimensions posts) (hne : posts ≠ []) :
    (centroid rt posts).length = dimensions := by
  obtain ⟨post, rest, rfl⟩ := List.exists_cons_of_ne_nil hne
  have hlength : post.vector.length = dimensions := hdim post List.mem_cons_self
  simp only [centroid]
  split_ifs <;> simp [hlength]

/-! ## The first post -/

theorem firstOf_ok (hne : posts ≠ []) : ∃ first, firstOf posts = .ok first := by
  cases hhead : (posts.insertionSort fun a b => a.key ≤ b.key).head? with
  | none =>
    have hnil : posts.insertionSort (fun a b => a.key ≤ b.key) = [] := List.head?_eq_none_iff.mp hhead
    have hperm := List.perm_insertionSort (fun a b : NarrativePost 𝕜 => a.key ≤ b.key) posts
    rw [hnil] at hperm
    exact absurd hperm.symm.eq_nil hne
  | some first => exact ⟨first, by rw [firstOf, hhead]⟩

/-- The first post is a post before all others. -/
theorem mem_of_firstOf {first : NarrativePost 𝕜} (h : firstOf posts = .ok first) :
    first ∈ posts ∧ ∀ post ∈ posts, first.key ≤ post.key := by
  rw [firstOf] at h
  cases hsorted : posts.insertionSort fun a b => a.key ≤ b.key with
  | nil =>
    rw [hsorted] at h
    cases h
  | cons head rest =>
    rw [hsorted] at h
    obtain rfl := Except.ok.inj h
    have hmem : ∀ post, post ∈ posts ↔ post ∈ head :: rest := by
      intro post
      rw [← hsorted]
      exact (List.mem_insertionSort _).symm
    have hpairwise := List.pairwise_insertionSort
      (fun a b : NarrativePost 𝕜 => a.key ≤ b.key) posts
    rw [hsorted] at hpairwise
    refine ⟨(hmem head).mpr List.mem_cons_self, fun post hpost => ?_⟩
    rcases List.mem_cons.mp ((hmem post).mp hpost) with rfl | hrest
    · exact le_rfl
    · exact (List.pairwise_cons.mp hpairwise).1 post hrest

/-! ## Placing a post -/

theorem foldl_min_le (values : List 𝕜) (value : 𝕜) :
    values.foldl min value ≤ value ∧ ∀ other ∈ values, values.foldl min value ≤ other := by
  induction values generalizing value with
  | nil => exact ⟨le_rfl, fun _ h => absurd h List.not_mem_nil⟩
  | cons head values ih =>
    obtain ⟨hstart, hrest⟩ := ih (min value head)
    refine ⟨hstart.trans (min_le_left _ _), fun other hother => ?_⟩
    rcases List.mem_cons.mp hother with rfl | hother
    · exact hstart.trans (min_le_right _ _)
    · exact hrest other hother

/-- The least value is below every value. -/
theorem minimumOf_le {values : List 𝕜} {minimum : 𝕜} (h : minimumOf values = .ok minimum) :
    ∀ value ∈ values, minimum ≤ value := by
  cases values with
  | nil => cases h
  | cons head values =>
    obtain rfl := Except.ok.inj h
    intro value hvalue
    rcases List.mem_cons.mp hvalue with rfl | hvalue
    · exact (foldl_min_le values _).1
    · exact (foldl_min_le values _).2 value hvalue

theorem minimumOf_ok {values : List 𝕜} (h : values ≠ []) :
    ∃ minimum, minimumOf values = .ok minimum := by
  obtain ⟨head, rest, rfl⟩ := List.exists_cons_of_ne_nil h
  exact ⟨_, rfl⟩

/-- The post is near enough to every member of the group. -/
def Fits (c : Clusterer 𝕜) (rt : Runtime 𝕜) (group : List (NarrativePost 𝕜))
    (post : NarrativePost 𝕜) : Prop :=
  ∀ member ∈ group, c.minimumExemplarSimilarity ≤ cosine rt member.vector post.vector

/-- Whether a group is a candidate can be decided, and a candidate is a group that the post fits. -/
theorem candidate_ok {post : NarrativePost 𝕜} {group : List (NarrativePost 𝕜)} {index : ℕ}
    (hne : group ≠ []) (hdim : HasDimensions dimensions group)
    (hpost : post.vector.length = dimensions) :
    ∃ found, c.candidate rt post (group, index) = .ok found ∧
      ∀ candidate ∈ found, candidate.2.2 = index ∧ Fits c rt group post := by
  have hcentroid : post.vector.length = (centroid rt group).length :=
    hpost.trans (length_centroid hdim hne).symm
  have hmembers : (group.mapM fun member => cosineSimilarity rt post.vector member.vector) =
      .ok (group.map fun member => cosine rt post.vector member.vector) :=
    mapM_of_forall fun member hmember =>
      cosineSimilarity_ok (hpost.trans (hdim member hmember).symm)
  have hsimilarities : (group.map fun member => cosine rt post.vector member.vector) ≠ [] :=
    fun hnil => hne (List.map_eq_nil_iff.mp hnil)
  obtain ⟨minimum, hminimum⟩ := minimumOf_ok hsimilarities
  obtain ⟨seed, hseed⟩ := firstOf_ok hne
  by_cases hnear : c.similarityThreshold ≤ cosine rt post.vector (centroid rt group) ∧
      c.minimumExemplarSimilarity ≤ minimum
  · refine ⟨some (cosine rt post.vector (centroid rt group), seed.postId, index), ?_, ?_⟩
    · refine bind_eq_ok.mpr ⟨_, cosineSimilarity_ok hcentroid, bind_eq_ok.mpr ⟨_, hmembers,
        bind_eq_ok.mpr ⟨_, hminimum, ?_⟩⟩⟩
      rw [if_pos hnear]
      exact bind_eq_ok.mpr ⟨seed, hseed, rfl⟩
    · intro candidate hcandidate
      rw [← Option.some.inj hcandidate]
      refine ⟨rfl, fun member hmember => ?_⟩
      rw [cosine_comm]
      exact hnear.2.trans (minimumOf_le hminimum _ (List.mem_map_of_mem hmember))
  · refine ⟨none, ?_, fun candidate hcandidate => absurd hcandidate (Option.not_mem_none candidate)⟩
    refine bind_eq_ok.mpr ⟨_, cosineSimilarity_ok hcentroid, bind_eq_ok.mpr ⟨_, hmembers,
      bind_eq_ok.mpr ⟨_, hminimum, ?_⟩⟩⟩
    rw [if_neg hnear]
    rfl

/-- **A step of the loop places the post**: it joins a group that it fits, or opens a group. -/
theorem place_ok {groups : List (List (NarrativePost 𝕜))} {post : NarrativePost 𝕜}
    (hne : ∀ group ∈ groups, group ≠ []) (hdim : ∀ group ∈ groups, HasDimensions dimensions group)
    (hpost : post.vector.length = dimensions) :
    ∃ groups', c.place rt groups post = .ok groups' ∧ Placed (Fits c rt) groups post groups' := by
  have hcandidates : ∀ item ∈ groups.zipIdx, ∃ found, c.candidate rt post item = .ok found ∧
      ∀ candidate ∈ found, candidate.2.2 = item.2 ∧ Fits c rt item.1 post := by
    rintro ⟨group, index⟩ hitem
    have hgroup : group ∈ groups :=
      List.mem_of_getElem? (List.mk_mem_zipIdx_iff_getElem?.mp hitem)
    exact candidate_ok (hne group hgroup) (hdim group hgroup) hpost
  obtain ⟨found, hfound⟩ := Library.mapM_succeeds fun item hitem =>
    (hcandidates item hitem).imp fun _ h => h.1
  cases hselected : (found.reduceOption.insertionSort
      fun a b => a.preference ≤ b.preference).head? with
  | none =>
    refine ⟨groups ++ [[post]], bind_eq_ok.mpr ⟨found, hfound, ?_⟩, .opens⟩
    simp only [hselected]
    rfl
  | some candidate =>
    -- what is selected is a candidate of one of the groups
    have hmem : some candidate ∈ found := by
      have hhead := List.mem_of_mem_head? (Option.mem_def.mpr hselected)
      exact List.reduceOption_mem_iff.mp ((List.mem_insertionSort _).mp hhead)
    obtain ⟨⟨group, index⟩, hitem, hcandidate⟩ := exists_of_mem_mapM hfound hmem
    obtain ⟨found', hfound', hfits⟩ := hcandidates (group, index) hitem
    rw [hcandidate] at hfound'
    obtain ⟨hindex, hfit⟩ := hfits candidate (Except.ok.inj hfound' ▸ rfl)
    obtain ⟨hlt, hget⟩ := List.getElem?_eq_some_iff.mp (List.mk_mem_zipIdx_iff_getElem?.mp hitem)
    have hsplit : groups = groups.take index ++ group :: groups.drop (index + 1) := by
      rw [← hget, List.cons_getElem_drop_succ, List.take_append_drop]
    refine ⟨groups.take index ++ (group ++ [post]) :: groups.drop (index + 1), ?_, ?_⟩
    · refine bind_eq_ok.mpr ⟨found, hfound, ?_⟩
      obtain ⟨similarity, seed, selected⟩ := candidate
      obtain rfl : selected = index := hindex
      simp only [hselected, List.modify_eq_take_cons_drop hlt, hget]
      rfl
    · have hplaced : Placed (Fits c rt) (groups.take index ++ group :: groups.drop (index + 1)) post
          (groups.take index ++ (group ++ [post]) :: groups.drop (index + 1)) := .joins hfit
      rwa [← hsplit] at hplaced

/-- The groups of the loop are greedy groups of the posts. -/
theorem groups_ok (hdim : HasDimensions dimensions posts) :
    ∃ groups, posts.foldlM (c.place rt) [] = .ok groups ∧ Grouped (Fits c rt) posts groups := by
  have hstep : ∀ done post groups, done ++ [post] <+: posts →
      Grouped (Fits c rt) done groups ∧ HasDimensions dimensions done →
      ∃ groups', c.place rt groups post = .ok groups' ∧
        Grouped (Fits c rt) (done ++ [post]) groups' ∧ HasDimensions dimensions (done ++ [post]) := by
    rintro done post groups hpre ⟨hgrouped, hdone⟩
    have hpost : post ∈ posts := hpre.subset (List.mem_append_right done List.mem_cons_self)
    have hgroupsdim : ∀ group ∈ groups, HasDimensions dimensions group := by
      intro group hgroup member hmember
      exact hdone member (hgrouped.flatten_perm.mem_iff.mp
        (List.mem_flatten.mpr ⟨group, hgroup, hmember⟩))
    obtain ⟨groups', hplace, hplaced⟩ : ∃ groups', c.place rt groups post = .ok groups' ∧
        Placed (Fits c rt) groups post groups' :=
      place_ok (fun group hgroup => hgrouped.ne_nil hgroup) hgroupsdim (hdim post hpost)
    refine ⟨groups', hplace, hgrouped.concat hplaced, fun member hmember => ?_⟩
    rcases List.mem_append.mp hmember with hold | hnew
    · exact hdone member hold
    · rw [List.mem_singleton.mp hnew]
      exact hdim post hpost
  obtain ⟨groups, hgroups, hgrouped, -⟩ := foldlM_succeeds
    (I := fun done groups => Grouped (Fits c rt) done groups ∧ HasDimensions dimensions done)
    ⟨.nil, fun _ h => absurd h List.not_mem_nil⟩ hstep
  exact ⟨groups, hgroups, hgrouped⟩

/-! ## Materialising a group -/

/-- What the cluster of a group shows of it. -/
structure ClusterOf (rt : Runtime 𝕜) (window : ClusterWindow) (group : List (NarrativePost 𝕜))
    (cluster : NarrativeCluster 𝕜) (first : NarrativePost 𝕜) : Prop where
  first_mem : first ∈ group
  first_le : ∀ post ∈ group, first.key ≤ post.key
  narrativeId : cluster.narrativeId = narrativeIdOf rt window.windowStart first
  narrativeRevisionId : cluster.narrativeRevisionId = ⟨cluster.narrativeId, cluster.memberHash⟩
  memberHash : cluster.memberHash = memberHashOf group
  scopeId : cluster.scopeId = first.scopeId
  assetId : cluster.assetId = first.assetId
  postIds : cluster.postIds = postIdsOf group
  similarities : cluster.similarities = .ofEntries
    (group.map fun post => (post.postId, cosine rt post.vector (centroid rt group)))

/-- A cluster that is made of a group shows it. -/
theorem clusterOf_of_materialize {group : List (NarrativePost 𝕜)} {cluster : NarrativeCluster 𝕜}
    (h : materialize rt window group = .ok cluster) :
    ∃ first, ClusterOf rt window group cluster first := by
  obtain ⟨first, hfirst, h⟩ := bind_eq_ok.mp h
  obtain ⟨similarities, hsimilarities, h⟩ := bind_eq_ok.mp h
  obtain ⟨hmem, hle⟩ := mem_of_firstOf hfirst
  have hvalues : similarities =
      group.map fun post => (post.postId, cosine rt post.vector (centroid rt group)) := by
    refine eq_map_of_mapM (fun post value hvalue => ?_) hsimilarities
    rw [cosineSimilarity] at hvalue
    split_ifs at hvalue
    · cases hvalue
    · exact (Except.ok.inj hvalue).symm
  rw [← Except.ok.inj h]
  exact ⟨first, hmem, hle, rfl, rfl, rfl, rfl, rfl, rfl, congrArg _ hvalues⟩

/-- A group of posts with vectors of one dimension makes a cluster. -/
theorem materialize_ok {group : List (NarrativePost 𝕜)} (hne : group ≠ [])
    (hdim : HasDimensions dimensions group) :
    ∃ cluster, materialize rt window group = .ok cluster := by
  obtain ⟨first, hfirst⟩ := firstOf_ok hne
  have hsimilarities : (group.mapM fun post =>
      (cosineSimilarity rt post.vector (centroid rt group)).map fun value =>
        (post.postId, value)) =
      .ok (group.map fun post => (post.postId, cosine rt post.vector (centroid rt group))) := by
    refine mapM_of_forall fun post hpost => ?_
    rw [cosineSimilarity_ok ((hdim post hpost).trans (length_centroid hdim hne).symm)]
    rfl
  exact ⟨_, bind_eq_ok.mpr ⟨first, hfirst, bind_eq_ok.mpr ⟨_, hsimilarities, rfl⟩⟩⟩

theorem mem_postIdsOf {group : List (NarrativePost 𝕜)} {postId : String} :
    postId ∈ postIdsOf group ↔ ∃ post ∈ group, post.postId = postId := by
  rw [postIdsOf, List.mem_insertionSort, List.mem_map]

/-- The loop, and the clusters before they are sorted. -/
theorem cluster_ok (hdim : HasDimensions dimensions posts) :
    ∃ groups clusters,
      Grouped (Fits c rt) (posts.insertionSort fun a b => a.key ≤ b.key) groups ∧
      groups.mapM (materialize rt window) = .ok clusters ∧
      c.cluster rt window posts =
        .ok (clusters.insertionSort fun a b => rt.str a.narrativeId ≤ rt.str b.narrativeId) := by
  have hdim' : HasDimensions dimensions (posts.insertionSort fun a b => a.key ≤ b.key) :=
    fun post hpost => hdim post ((List.mem_insertionSort _).mp hpost)
  obtain ⟨groups, hgroups, hgrouped⟩ : ∃ groups,
      (posts.insertionSort fun a b => a.key ≤ b.key).foldlM (c.place rt) [] = .ok groups ∧
        Grouped (Fits c rt) (posts.insertionSort fun a b => a.key ≤ b.key) groups :=
    groups_ok hdim'
  obtain ⟨clusters, hclusters⟩ : ∃ clusters, groups.mapM (materialize rt window) = .ok clusters := by
    refine Library.mapM_succeeds fun group hgroup => ?_
    have hgroupdim : HasDimensions dimensions group := fun member hmember =>
      hdim' member (hgrouped.flatten_perm.mem_iff.mp
        (List.mem_flatten.mpr ⟨group, hgroup, hmember⟩))
    exact materialize_ok (hgrouped.ne_nil hgroup) hgroupdim
  exact ⟨groups, clusters, hgrouped, hclusters,
    bind_eq_ok.mpr ⟨groups, hgroups, bind_eq_ok.mpr ⟨clusters, hclusters, rfl⟩⟩⟩

/-! ## The law -/

/-- What the clusters of posts satisfy.  Clusters that are named after posts of one scope and asset have
identifiers of their own. -/
structure Lawful (c : Clusterer 𝕜) (rt : Runtime 𝕜) (posts : List (NarrativePost 𝕜))
    (clusters : List (NarrativeCluster 𝕜)) : Prop where
  partition : (clusters.flatMap NarrativeCluster.postIds).Perm (posts.map NarrativePost.postId)
  nonempty : ∀ cluster ∈ clusters, cluster.postIds ≠ []
  coherent : ∀ cluster ∈ clusters, ∀ post ∈ posts, ∀ other ∈ posts,
    post.postId ∈ cluster.postIds → other.postId ∈ cluster.postIds → post ≠ other →
      c.minimumExemplarSimilarity ≤ cosine rt post.vector other.vector
  identified : clusters.Pairwise fun a b => a.scopeId = b.scopeId → a.assetId = b.assetId →
    a.narrativeId ≠ b.narrativeId ∧ a.narrativeRevisionId ≠ b.narrativeRevisionId
  similarities : ∀ cluster ∈ clusters, cluster.similarities.keys.Perm cluster.postIds ∧
    ∀ item ∈ cluster.similarities.entries, 0 ≤ item.2 ∧ item.2 ≤ 1

/-- Posts of one scope and asset give their names to one narrative each. -/
theorem postId_eq_of_narrativeId {windowStart : Datetime} {first first' : NarrativePost 𝕜}
    (hscope : first.scopeId = first'.scopeId) (hasset : first.assetId = first'.assetId)
    (h : narrativeIdOf rt windowStart first = narrativeIdOf rt windowStart first') :
    first.postId = first'.postId := by
  have hname := congrArg Uuid.name h
  simp only [narrativeIdOf, stableKeyOf, hscope, hasset] at hname
  have hlist := congrArg String.toList hname
  simp only [String.toList_append, List.append_assoc] at hlist
  have hrest := List.append_cancel_left (List.append_cancel_left (List.append_cancel_left
    (List.append_cancel_left (List.append_cancel_left (List.append_cancel_left
      (List.append_cancel_left hlist))))))
  exact String.toList_injective (List.append_cancel_right hrest)

/-- Groups of posts with distinct ids share no id. -/
theorem pairwise_ids {groups : List (List (NarrativePost 𝕜))}
    (h : (groups.flatten.map NarrativePost.postId).Nodup) :
    groups.Pairwise fun group group' =>
      ∀ post ∈ group, ∀ post' ∈ group', post.postId ≠ post'.postId := by
  rw [List.map_flatten, List.nodup_flatten, List.pairwise_map] at h
  refine h.2.imp fun {group group'} hdisjoint post hpost post' hpost' heq => ?_
  exact hdisjoint (List.mem_map_of_mem hpost) (heq ▸ List.mem_map_of_mem hpost')

section Groups

variable {groups : List (List (NarrativePost 𝕜))} {clusters : List (NarrativeCluster 𝕜)}

/-- The ids of the clusters are those of their groups. -/
theorem postIds_perm (hflatten : groups.flatten.Perm posts)
    (hclusters : groups.mapM (materialize rt window) = .ok clusters) :
    (clusters.flatMap NarrativeCluster.postIds).Perm (posts.map NarrativePost.postId) := by
  have hperm : (clusters.flatMap NarrativeCluster.postIds).Perm
      (groups.flatMap fun group => group.map NarrativePost.postId) := by
    refine flatMap_perm_of_mapM (fun group cluster hmaterialize => ?_) hclusters
    obtain ⟨first, hshown⟩ := clusterOf_of_materialize hmaterialize
    rw [hshown.postIds]
    exact List.perm_insertionSort _ _
  have hflat : (groups.flatMap fun group => group.map NarrativePost.postId) =
      groups.flatten.map NarrativePost.postId := by
    rw [List.map_flatten]
    rfl
  exact hperm.trans (hflat ▸ hflatten.map _)

/-- Clusters of groups that share no post have identifiers of their own. -/
theorem pairwise_narrativeId (hids : (groups.flatten.map NarrativePost.postId).Nodup)
    (hclusters : groups.mapM (materialize rt window) = .ok clusters) :
    clusters.Pairwise fun a b => a.scopeId = b.scopeId → a.assetId = b.assetId →
      a.narrativeId ≠ b.narrativeId ∧ a.narrativeRevisionId ≠ b.narrativeRevisionId := by
  refine pairwise_of_mapM (fun group cluster group' cluster' hdisjoint hmade hmade' => ?_)
    (pairwise_ids hids) hclusters
  obtain ⟨first, hshown⟩ := clusterOf_of_materialize hmade
  obtain ⟨first', hshown'⟩ := clusterOf_of_materialize hmade'
  intro hscope hasset
  have hne : cluster.narrativeId ≠ cluster'.narrativeId := by
    rw [hshown.narrativeId, hshown'.narrativeId]
    rw [hshown.scopeId, hshown'.scopeId] at hscope
    rw [hshown.assetId, hshown'.assetId] at hasset
    exact fun heq => hdisjoint first hshown.first_mem first' hshown'.first_mem
      (postId_eq_of_narrativeId hscope hasset heq)
  refine ⟨hne, fun heq => hne ?_⟩
  rw [hshown.narrativeRevisionId, hshown'.narrativeRevisionId] at heq
  exact congrArg (fun id => id.name.1) heq

/-- The similarities of a cluster are those of its members, and fractions. -/
theorem ClusterOf.similarities_keys [IsStrictOrderedRing 𝕜] {group : List (NarrativePost 𝕜)}
    {cluster : NarrativeCluster 𝕜} {first : NarrativePost 𝕜}
    (h : ClusterOf rt window group cluster first)
    (hids : (group.map NarrativePost.postId).Nodup) :
    cluster.similarities.keys.Perm cluster.postIds ∧
      ∀ item ∈ cluster.similarities.entries, 0 ≤ item.2 ∧ item.2 ≤ 1 := by
  have hkeys : (group.map fun post =>
      (post.postId, cosine rt post.vector (centroid rt group))).map Prod.fst =
      group.map NarrativePost.postId := by
    rw [List.map_map]
    rfl
  have hentries := OrderedDict.entries_ofEntries (hkeys ▸ hids)
  rw [h.similarities, h.postIds]
  constructor
  · rw [OrderedDict.keys, hentries, hkeys]
    exact (List.perm_insertionSort _ _).symm
  · intro item hitem
    rw [hentries] at hitem
    obtain ⟨post, -, rfl⟩ := List.mem_map.mp hitem
    exact cosine_mem _ _

/-- The clusters of the groups of the loop are lawful, in whatever order they stand. -/
theorem lawful_of_groups [IsStrictOrderedRing 𝕜] {sorted : List (NarrativeCluster 𝕜)}
    (hids : (posts.map NarrativePost.postId).Nodup)
    (hgrouped : Grouped (Fits c rt) (posts.insertionSort fun a b => a.key ≤ b.key) groups)
    (hclusters : groups.mapM (materialize rt window) = .ok clusters)
    (hsorted : sorted.Perm clusters) : Lawful c rt posts sorted := by
  have hflatten : groups.flatten.Perm posts :=
    hgrouped.flatten_perm.trans (List.perm_insertionSort _ posts)
  have hflatids : (groups.flatten.map NarrativePost.postId).Nodup :=
    (hflatten.map NarrativePost.postId).nodup_iff.mpr hids
  have hcluster : ∀ cluster ∈ sorted, ∃ group ∈ groups,
      ∃ first, ClusterOf rt window group cluster first := by
    intro cluster hmem
    obtain ⟨group, hgroup, hmaterialize⟩ :=
      exists_of_mem_mapM hclusters (hsorted.mem_iff.mp hmem)
    exact ⟨group, hgroup, clusterOf_of_materialize hmaterialize⟩
  have hmemposts : ∀ group ∈ groups, ∀ member ∈ group, member ∈ posts :=
    fun group hgroup member hmember =>
      hflatten.mem_iff.mp (List.mem_flatten.mpr ⟨group, hgroup, hmember⟩)
  refine ⟨(hsorted.flatMap_right _).trans (postIds_perm hflatten hclusters), fun cluster hmem => ?_,
    fun cluster hmem post hpost other hother hin hin' hne => ?_, ?_, fun cluster hmem => ?_⟩
  · obtain ⟨group, -, first, hshown⟩ := hcluster cluster hmem
    rw [hshown.postIds]
    exact List.ne_nil_of_mem (mem_postIdsOf.mpr ⟨first, hshown.first_mem, rfl⟩)
  · -- a post with an id of the cluster is a member of its group
    obtain ⟨group, hgroup, first, hshown⟩ := hcluster cluster hmem
    rw [hshown.postIds] at hin hin'
    obtain ⟨member, hmember, hid⟩ := mem_postIdsOf.mp hin
    obtain ⟨member', hmember', hid'⟩ := mem_postIdsOf.mp hin'
    obtain rfl := List.inj_on_of_nodup_map hids (hmemposts group hgroup member hmember) hpost hid
    obtain rfl :=
      List.inj_on_of_nodup_map hids (hmemposts group hgroup member' hmember') hother hid'
    have hcoherent : group.Pairwise fun a b =>
        c.minimumExemplarSimilarity ≤ cosine rt a.vector b.vector :=
      hgrouped.pairwise (fun _ _ hfits => hfits) hgroup
    have hsymm : Std.Symm fun a b : NarrativePost 𝕜 =>
        c.minimumExemplarSimilarity ≤ cosine rt a.vector b.vector :=
      ⟨fun a b hab => cosine_comm a.vector b.vector ▸ hab⟩
    exact hcoherent.forall hmember hmember' hne
  · refine (hsorted.pairwise_iff fun {a b} hab hscope hasset => ?_).mpr
      (pairwise_narrativeId hflatids hclusters)
    obtain ⟨hid, hrevision⟩ := hab hscope.symm hasset.symm
    exact ⟨hid.symm, hrevision.symm⟩
  · obtain ⟨group, hgroup, first, hshown⟩ := hcluster cluster hmem
    rw [List.map_flatten, List.nodup_flatten] at hflatids
    exact hshown.similarities_keys (hflatids.1 _ (List.mem_map_of_mem hgroup))

end Groups

/-- Posts with distinct ids are sorted in one way. -/
theorem sorted_eq_of_perm {posts' : List (NarrativePost 𝕜)}
    (hids : (posts.map NarrativePost.postId).Nodup) (hperm : posts.Perm posts') :
    (posts.insertionSort fun a b => a.key ≤ b.key) =
      posts'.insertionSort fun a b => a.key ≤ b.key := by
  refine Library.insertionSort_eq_of_perm _ hperm fun post hpost other hother hle hge => ?_
  have hkey : post.key = other.key := le_antisymm hle hge
  exact List.inj_on_of_nodup_map hids hpost hother (congrArg (fun key => (ofLex key).2) hkey)

/-- **The law of clustering.**  For posts with distinct ids and vectors of one dimension, and any
thresholds: clustering succeeds, the clusters are a partition of the posts, the members of a cluster are
as near to each other as the threshold for exemplars asks, clusters named after posts of one scope and
asset have identifiers of their own, the similarities of a cluster are fractions, one for each member,
and the order in which the posts come does not matter. -/
theorem clustering_law [IsStrictOrderedRing 𝕜] (c : Clusterer 𝕜) (rt : Runtime 𝕜)
    (window : ClusterWindow) (posts : List (NarrativePost 𝕜)) (dimensions : ℕ)
    (hids : (posts.map NarrativePost.postId).Nodup) (hdim : HasDimensions dimensions posts) :
    ∃ clusters, c.cluster rt window posts = .ok clusters ∧ Lawful c rt posts clusters ∧
      ∀ posts', posts.Perm posts' → c.cluster rt window posts' = .ok clusters := by
  obtain ⟨groups, clusters, hgrouped, hclusters, hcluster⟩ :
      ∃ groups clusters,
        Grouped (Fits c rt) (posts.insertionSort fun a b => a.key ≤ b.key) groups ∧
        groups.mapM (materialize rt window) = .ok clusters ∧
        c.cluster rt window posts =
          .ok (clusters.insertionSort fun a b => rt.str a.narrativeId ≤ rt.str b.narrativeId) :=
    cluster_ok hdim
  refine ⟨_, hcluster, lawful_of_groups hids hgrouped hclusters (List.perm_insertionSort _ clusters),
    fun posts' hperm => ?_⟩
  rw [← hcluster, Clusterer.cluster, Clusterer.cluster, sorted_eq_of_perm hids hperm]

/-- A square root that is exact at zero and one, and one instant. -/
def unitRuntime : Runtime ℚ where
  sqrt value := value
  isoformat _ := "2026-01-01T00:00:00+00:00"
  str id := id.name

/-- The default thresholds. -/
def defaultClusterer : Clusterer ℚ :=
  ⟨0.76, 0.68⟩

/-- A minute. -/
def minuteWindow : ClusterWindow :=
  ⟨0, 60000000, "test"⟩

/-- A post about an asset. -/
def assetPost (postId assetId : String) (vector : List ℚ) : NarrativePost ℚ :=
  { postId := postId, scopeId := "LIVE", assetId := assetId, authorId := "author", eventTime := 0,
    text := "", vector := vector }

/-- The law at two posts that have nothing in common. -/
theorem clustering_law_orthogonal :
    ∃ clusters, defaultClusterer.cluster unitRuntime minuteWindow
        [assetPost "p" "a" [1, 0], assetPost "q" "a" [0, 1]] = .ok clusters ∧
      Lawful defaultClusterer unitRuntime
        [assetPost "p" "a" [1, 0], assetPost "q" "a" [0, 1]] clusters := by
  obtain ⟨clusters, hclusters, hlawful, -⟩ := clustering_law defaultClusterer unitRuntime minuteWindow
    [assetPost "p" "a" [1, 0], assetPost "q" "a" [0, 1]] 2 (by decide)
    (by unfold HasDimensions; decide)
  exact ⟨clusters, hclusters, hlawful⟩

/-- Two posts of different assets whose narratives have one name. -/
def collidingPosts : List (NarrativePost ℚ) :=
  [assetPost "p:2026-01-01T00:00:00+00:00:q" "a" [1, 0],
    assetPost "q" "a:2026-01-01T00:00:00+00:00:p" [0, 1]]

/-- The posts are in clusters of their own, and the clusters have one identifier. -/
theorem narrative_ids_collide :
    (collidingPosts.map NarrativePost.postId).Nodup ∧ HasDimensions 2 collidingPosts ∧
      ∃ clusters, defaultClusterer.cluster unitRuntime minuteWindow collidingPosts = .ok clusters ∧
        ¬ clusters.Pairwise fun a b => a.narrativeId ≠ b.narrativeId := by
  have hrun : (defaultClusterer.cluster unitRuntime minuteWindow collidingPosts).map
      (fun clusters => clusters.map NarrativeCluster.narrativeId) =
      .ok [⟨"narrative:LIVE:a:2026-01-01T00:00:00+00:00:p:2026-01-01T00:00:00+00:00:q:" ++
          clustererVersion⟩,
        ⟨"narrative:LIVE:a:2026-01-01T00:00:00+00:00:p:2026-01-01T00:00:00+00:00:q:" ++
          clustererVersion⟩] := by
    decide +kernel
  refine ⟨by decide, by unfold HasDimensions; decide, ?_⟩
  cases hclusters : defaultClusterer.cluster unitRuntime minuteWindow collidingPosts with
  | error e =>
    rw [hclusters] at hrun
    cases hrun
  | ok clusters =>
    rw [hclusters] at hrun
    refine ⟨clusters, rfl, fun hdistinct => ?_⟩
    have hnames : clusters.map NarrativeCluster.narrativeId = _ := Except.ok.inj hrun
    have hids := List.pairwise_map.mpr hdistinct
    rw [hnames] at hids
    exact (List.pairwise_cons.mp hids).1 _ List.mem_cons_self rfl

end Narratives
end Scam2Market
