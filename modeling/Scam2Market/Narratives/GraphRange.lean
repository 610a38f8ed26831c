import Scam2Market.Library.Entropy
import Scam2Market.Narratives.ClusteringLaw
import Scam2Market.Narratives.Graph

/-!
# The ranges of the graph features

* `maxCount_le_iff`: the largest count, against a bound.
* The shares of authors, the neighbours in time, the spread and the similarities are fractions, whatever
  the posts are; the normalised entropy is one by `IsDistribution.entropy_le_log`.
* `overlap_le_one_iff`: the overlap is a fraction unless a URL or a hashtag occurs more often than there
  are posts.  Nothing else is ever refused (`inRange_featureFields`).
-/

namespace Scam2Market
namespace Narratives

open Library (IsDistribution isDistribution_div shannonEntropy)
open Library.Fallible (bind_eq_ok exists_of_mem_mapM)

/-! ## Counts -/

section Counts

variable {values : List String} {n : ℕ}

theorem pos_of_mem_counts (h : n ∈ counts values) : 0 < n := by
  obtain ⟨value, hvalue, rfl⟩ := List.mem_map.mp h
  exact List.count_pos_iff.mpr (List.mem_dedup.mp hvalue)

theorem sum_counts (values : List String) : (counts values).sum = values.length :=
  List.sum_map_count_dedup_eq_length values

/-- **The largest count** is at most a bound exactly when every count is. -/
theorem maxCount_le_iff : maxCount values ≤ n ↔ ∀ value, values.count value ≤ n := by
  constructor
  · intro h value
    by_cases hvalue : value ∈ values
    · exact (le_maxDefault (List.mem_map_of_mem (List.mem_dedup.mpr hvalue))).trans h
    · rw [List.count_eq_zero.mpr hvalue]
      exact Nat.zero_le n
  · intro h
    refine maxDefault_le (Nat.zero_le n) fun count hcount => ?_
    obtain ⟨value, -, rfl⟩ := List.mem_map.mp hcount
    exact h value

end Counts

/-! ## Fractions -/

/-- The value lies in `[0, 1]`. -/
def IsFraction {𝕜 : Type} [Field 𝕜] [LinearOrder 𝕜] (value : 𝕜) : Prop :=
  0 ≤ value ∧ value ≤ 1

section Fractions

variable {𝕜 : Type} [Field 𝕜] [LinearOrder 𝕜] [IsStrictOrderedRing 𝕜] {posts : List (GraphPost 𝕜)}

theorem isFraction_zero : IsFraction (0 : 𝕜) :=
  ⟨le_rfl, zero_le_one⟩

theorem isFraction_div {m n : ℕ} (h : m ≤ n) : IsFraction ((m : 𝕜) / n) :=
  ⟨div_nonneg (Nat.cast_nonneg m) (Nat.cast_nonneg n),
    div_le_one_of_le₀ (Nat.cast_le.mpr h) (Nat.cast_nonneg n)⟩

theorem isFraction_min_one {value : 𝕜} (h : 0 ≤ value) : IsFraction (min 1 value) :=
  ⟨le_min zero_le_one h, min_le_left 1 value⟩

theorem isFraction_concentration (posts : List (GraphPost 𝕜)) : IsFraction (concentration posts) := by
  refine isFraction_div (maxCount_le_iff.mpr fun author => ?_)
  exact List.count_le_length.trans (List.length_map _).le

theorem isFraction_synchronized (posts : List (GraphPost 𝕜)) : IsFraction (synchronized posts) := by
  unfold synchronized
  simp only
  split_ifs
  · refine isFraction_div (List.countP_le_length.trans ?_)
    rw [List.length_zip, List.length_tail]
    exact min_le_right _ _
  · exact isFraction_zero

theorem isFraction_spread (posts : List (GraphPost 𝕜)) : IsFraction (spread posts) :=
  isFraction_min_one
    (div_nonneg (Nat.cast_nonneg _) (zero_le_one.trans (le_max_left _ _)))

/-- The mean of fractions is a fraction. -/
theorem isFraction_mean {values : List 𝕜} (h : ∀ value ∈ values, IsFraction value) :
    IsFraction (values.sum / values.length) := by
  have hle : values.sum ≤ values.length := by
    have hcard := List.sum_le_card_nsmul values 1 fun value hvalue => (h value hvalue).2
    rwa [nsmul_eq_mul, mul_one] at hcard
  exact ⟨div_nonneg (List.sum_nonneg fun value hvalue => (h value hvalue).1) (Nat.cast_nonneg _),
    div_le_one_of_le₀ hle (Nat.cast_nonneg _)⟩

/-- The similarities of the clusters are fractions. -/
theorem isFraction_of_mem_similarityValues {c : Clusterer 𝕜} {rt : Runtime 𝕜}
    {window : ClusterWindow} {clustered : List (NarrativePost 𝕜)}
    {clusters : List (NarrativeCluster 𝕜)}
    (h : c.cluster rt window clustered = .ok clusters) {value : 𝕜}
    (hvalue : value ∈ similarityValues clusters) : IsFraction value := by
  obtain ⟨groups, -, h⟩ := bind_eq_ok.mp h
  obtain ⟨made, hmade, h⟩ := bind_eq_ok.mp h
  rw [← Except.ok.inj h] at hvalue
  obtain ⟨cluster, hcluster, hmem⟩ := List.mem_flatMap.mp hvalue
  obtain ⟨group, -, hgroup⟩ := exists_of_mem_mapM hmade ((List.mem_insertionSort _).mp hcluster)
  obtain ⟨first, hshown⟩ := clusterOf_of_materialize hgroup
  obtain ⟨⟨postId, value'⟩, hentry, rfl⟩ := List.mem_map.mp hmem
  have hget := Library.OrderedDict.mem_entries_iff.mp hentry
  rw [hshown.similarities] at hget
  obtain ⟨post, -, heq⟩ := List.mem_map.mp (Library.OrderedDict.mem_of_get?_ofEntries hget)
  rw [← (Prod.mk_inj.mp heq).2]
  exact cosine_mem _ _

theorem isFraction_nodeSimilarity {clusters : List (NarrativeCluster 𝕜)}
    (h : ∀ value ∈ similarityValues clusters, IsFraction value) :
    IsFraction (nodeSimilarity clusters) := by
  rw [nodeSimilarity]
  split_ifs
  · exact isFraction_mean h
  · exact isFraction_zero

/-! ## The overlap -/

/-- No URL and no hashtag, in lower case, occurs more often than there are posts. -/
def RepeatsFit (tools : GraphTools 𝕜) (posts : List (GraphPost 𝕜)) : Prop :=
  ∀ value, (allUrls posts).count value ≤ posts.length ∧
    (allHashtags tools posts).count value ≤ posts.length

theorem overlap_nonneg (tools : GraphTools 𝕜) (posts : List (GraphPost 𝕜)) :
    0 ≤ overlap tools posts :=
  div_nonneg (Nat.cast_nonneg _) (Nat.cast_nonneg _)

/-- **The overlap is a fraction** exactly when the repeats fit. -/
theorem overlap_le_one_iff {tools : GraphTools 𝕜} (hne : posts ≠ []) :
    overlap tools posts ≤ 1 ↔ RepeatsFit tools posts := by
  have hlength : (0 : 𝕜) < posts.length := Nat.cast_pos.mpr (List.length_pos_iff.mpr hne)
  rw [overlap, div_le_one hlength, Nat.cast_le, max_le_iff, maxCount_le_iff, maxCount_le_iff,
    RepeatsFit, ← forall_and]

end Fractions

/-! ## Times -/

section Times

variable {𝕜 : Type} {posts : List (GraphPost 𝕜)}

theorem eventTime_le_of_key_le {a b : NarrativePost 𝕜} (h : a.key ≤ b.key) :
    a.eventTime ≤ b.eventTime :=
  (Prod.Lex.toLex_le_toLex.mp h).elim le_of_lt fun heq => heq.1.le

theorem secondsTo_nonneg {target : ℕ} {start : Datetime} {firstSeen : List String}
    (h : ∀ post ∈ posts, start ≤ post.eventTime) :
    ∀ seconds ∈ secondsTo target start firstSeen posts, 0 ≤ seconds := by
  induction posts generalizing firstSeen with
  | nil => exact fun seconds hseconds => absurd hseconds (Option.not_mem_none seconds)
  | cons post posts ih =>
    intro seconds hseconds
    rw [secondsTo] at hseconds
    generalize (if post.authorId ∈ firstSeen then firstSeen else post.authorId :: firstSeen) = seen
      at hseconds
    split_ifs at hseconds
    · rw [← Option.mem_some.mp hseconds]
      have hstart : start ≤ post.eventTime := h post List.mem_cons_self
      exact div_nonneg (Int.cast_nonneg (sub_nonneg.mpr hstart)) (by norm_num)
    · exact ih (fun other hother => h other (List.mem_cons_of_mem post hother)) seconds hseconds

/-- The posts are counted from the first one on. -/
theorem timeToAuthorCount_nonneg (posts : List (GraphPost 𝕜)) (target : ℕ) :
    ∀ seconds ∈ timeToAuthorCount posts target, 0 ≤ seconds := by
  have hsorted := List.pairwise_insertionSort (fun a b : GraphPost 𝕜 => a.key ≤ b.key) posts
  rw [timeToAuthorCount]
  cases hordered : posts.insertionSort fun a b => a.key ≤ b.key with
  | nil => exact fun seconds hseconds => absurd hseconds (Option.not_mem_none seconds)
  | cons first rest =>
    rw [hordered] at hsorted
    refine secondsTo_nonneg fun post hpost => ?_
    rcases List.mem_cons.mp hpost with rfl | hrest
    · exact le_rfl
    · exact eventTime_le_of_key_le ((List.pairwise_cons.mp hsorted).1 post hrest)

end Times

/-! ## Over the real numbers -/

section Real

variable {posts : List (GraphPost ℝ)} {lower : String → String}

/-- `math.log` and `str.lower`. -/
noncomputable def realTools (lower : String → String) : GraphTools ℝ where
  log := Real.log
  lower := lower

/-- **The normalised entropy is a fraction.** -/
theorem isFraction_normalizedEntropy (hne : posts ≠ []) :
    IsFraction (normalizedEntropy (realTools lower) posts) := by
  rw [normalizedEntropy]
  split_ifs with hauthors
  · have hshares : IsDistribution ((counts (posts.map fun post => post.authorId)).map
        fun count : ℕ => (count / posts.length : ℝ)) :=
      isDistribution_div (fun _ hcount => pos_of_mem_counts hcount)
        ((sum_counts _).trans (List.length_map _)) (List.length_pos_iff.mpr hne)
    have hentropy : entropy (realTools lower) posts =
        shannonEntropy ((counts (posts.map fun post => post.authorId)).map
          fun count : ℕ => (count / posts.length : ℝ)) := by
      rw [entropy, shannonEntropy, List.map_map]
      rfl
    have hlog : (0 : ℝ) < Real.log (authorTotal posts) := Real.log_pos (Nat.one_lt_cast.mpr hauthors)
    have hle := hshares.entropy_le_log
    rw [List.length_map] at hle
    rw [hentropy]
    exact ⟨div_nonneg hshares.entropy_nonneg hlog.le, div_le_one_of_le₀ hle hlog.le⟩
  · exact isFraction_zero

/-- A weighted sum of fractions is not negative. -/
theorem isFraction_graphScore {clusters : List (NarrativeCluster ℝ)} (hne : posts ≠ [])
    (hclusters : ∀ value ∈ similarityValues clusters, IsFraction value) :
    IsFraction (graphScore (realTools lower) posts clusters) := by
  have hconcentration := (isFraction_concentration posts).1
  have hsynchronized := (isFraction_synchronized posts).1
  have hoverlap := overlap_nonneg (realTools lower) posts
  have hdepth : (0 : ℝ) ≤ min 1 ((propagationDepth (posts.map GraphPost.link) : ℝ) / 5) :=
    (isFraction_min_one (by positivity)).1
  have hsimilarity := (isFraction_nodeSimilarity hclusters).1
  have hentropy : IsFraction (normalizedEntropy (realTools lower) posts) :=
    isFraction_normalizedEntropy hne
  have hrest : 0 ≤ 1 - normalizedEntropy (realTools lower) posts := sub_nonneg.mpr hentropy.2
  refine isFraction_min_one ?_
  positivity

/-- **All features but one are in their ranges**, and that one if the repeats fit. -/
theorem inRange_featureFields {clusters : List (NarrativeCluster ℝ)} (hne : posts ≠ [])
    (hclusters : ∀ value ∈ similarityValues clusters, IsFraction value) :
    (featureFields (realTools lower) posts clusters).InRange ↔ RepeatsFit (realTools lower) posts := by
  constructor
  · exact fun h => (overlap_le_one_iff hne).mp h.repeatedAmplifierOverlap.2
  · intro h
    exact {
      communityConcentration := isFraction_concentration posts
      synchronizedPosting := isFraction_synchronized posts
      repeatedAmplifierOverlap := ⟨overlap_nonneg _ posts, (overlap_le_one_iff hne).mpr h⟩
      communityEntropy := isFraction_normalizedEntropy hne
      timeTo10AuthorsSeconds := timeToAuthorCount_nonneg posts 10
      timeTo100AuthorsSeconds := timeToAuthorCount_nonneg posts 100
      crossCommunitySpread := isFraction_spread posts
      nodeSimilarity := isFraction_nodeSimilarity hclusters
      graphScore := fun _ hscore => Option.mem_some.mp hscore ▸ isFraction_graphScore hne hclusters }

theorem inRange_emptyFields : (emptyFields : GraphFeatureFields ℝ).InRange where
  communityConcentration := isFraction_zero
  synchronizedPosting := isFraction_zero
  repeatedAmplifierOverlap := isFraction_zero
  communityEntropy := isFraction_zero
  timeTo10AuthorsSeconds := fun seconds h => absurd h (Option.not_mem_none seconds)
  timeTo100AuthorsSeconds := fun seconds h => absurd h (Option.not_mem_none seconds)
  crossCommunitySpread := isFraction_zero
  nodeSimilarity := isFraction_zero
  graphScore := fun score h => absurd h (Option.not_mem_none score)

/-- The features are returned exactly when the repeats fit, given clusters whose similarities are
fractions. -/
theorem exists_compute_of_fractions {clusters : List (NarrativeCluster ℝ)}
    (hclusters : ∀ value ∈ similarityValues clusters, IsFraction value) (posts : List (GraphPost ℝ))
    (cutoff : Datetime) :
    (∃ features, compute (realTools lower) posts clusters cutoff = .ok features) ↔
      RepeatsFit (realTools lower) (upTo posts cutoff) := by
  rw [compute]
  by_cases hempty : upTo posts cutoff = []
  · rw [if_pos (List.isEmpty_iff.mpr hempty), GraphFeatureFields.exists_validate_iff, hempty]
    exact iff_of_true inRange_emptyFields fun value => ⟨le_rfl, le_rfl⟩
  · rw [if_neg fun h => hempty (List.isEmpty_iff.mp h), GraphFeatureFields.exists_validate_iff]
    exact inRange_featureFields hempty hclusters

/-- **When the features are returned.**  With clusters of the clusterer, `compute` returns features,
each in its range, exactly when no URL and no hashtag, in lower case, occurs more often in the posts up to
the cutoff than there are such posts. -/
theorem exists_compute_iff (lower : String → String) (c : Clusterer ℝ) (rt : Runtime ℝ)
    (window : ClusterWindow) (clustered : List (NarrativePost ℝ))
    {clusters : List (NarrativeCluster ℝ)}
    (hclusters : c.cluster rt window clustered = .ok clusters) (posts : List (GraphPost ℝ))
    (cutoff : Datetime) :
    (∃ features, compute (realTools lower) posts clusters cutoff = .ok features) ↔
      RepeatsFit (realTools lower) (upTo posts cutoff) :=
  exists_compute_of_fractions (fun _ => isFraction_of_mem_similarityValues hclusters) posts cutoff

/-! ## A post with its hashtag twice -/

/-- `str.lower()` of an ASCII text. -/
def asciiLower (text : String) : String :=
  String.ofList (text.toList.map Char.toLower)

/-- The square root of the real numbers, and one instant. -/
noncomputable def realRuntime : Runtime ℝ where
  sqrt := Real.sqrt
  isoformat _ := "2026-01-01T00:00:00+00:00"
  str id := id.name

noncomputable def realClusterer : Clusterer ℝ :=
  ⟨0.76, 0.68⟩

/-- The post that the parser makes of a text, with a vector. -/
noncomputable def parsedPost (text : String) : GraphPost ℝ :=
  { graphPost ℝ "S2MUSDT"
      ((Ingestion.SocialParser.parseSocialPost
        ⟨Ingestion.asciiLetters, fun id => id.name, fun platform author => platform ++ ":" ++ author, 1⟩
        { sourcePostId := "post-1", platform := "synthetic", rawAuthorId := "actor-0", eventTime := 0,
          text := text } "synthetic-social-v1" "LIVE").row "LIVE") with
    vector := [1] }

theorem cluster_parsedPost (text : String) :
    ∃ clusters, realClusterer.cluster realRuntime minuteWindow [(parsedPost text).toNarrativePost] =
      .ok clusters := by
  have hdim : HasDimensions 1 [(parsedPost text).toNarrativePost] :=
    List.forall_mem_singleton.mpr rfl
  obtain ⟨-, clusters, -, -, hclusters⟩ := cluster_ok hdim
  exact ⟨_, hclusters⟩

/-- A hashtag that is repeated in the one post of the window is refused. -/
theorem repeated_hashtag_refused : ∃ clusters,
    realClusterer.cluster realRuntime minuteWindow [(parsedPost "#S2M #S2M").toNarrativePost] =
      .ok clusters ∧
    ¬ ∃ features, compute (realTools asciiLower) [parsedPost "#S2M #S2M"] clusters 0 = .ok features := by
  obtain ⟨clusters, hclusters⟩ := cluster_parsedPost "#S2M #S2M"
  refine ⟨clusters, hclusters, fun hreturns => ?_⟩
  have hfit := (exists_compute_of_fractions (fun _ => isFraction_of_mem_similarityValues hclusters)
    [parsedPost "#S2M #S2M"] 0).mp hreturns "s2m"
  have hcount : (allHashtags (realTools asciiLower) (upTo [parsedPost "#S2M #S2M"] 0)).count "s2m" = 2 := by
    decide +kernel
  have hlength : (upTo [parsedPost "#S2M #S2M"] 0).length = 1 := by decide +kernel
  rw [hcount, hlength] at hfit
  exact absurd hfit.2 (by decide)

/-- Different tags and a URL. -/
theorem exists_compute_iff_distinct : ∃ clusters features,
    realClusterer.cluster realRuntime minuteWindow
      [(parsedPost "#S2M #pump https://promo.example/s2m").toNarrativePost] = .ok clusters ∧
    compute (realTools asciiLower) [parsedPost "#S2M #pump https://promo.example/s2m"] clusters 0 =
      .ok features := by
  obtain ⟨clusters, hclusters⟩ := cluster_parsedPost "#S2M #pump https://promo.example/s2m"
  have hreturns := (exists_compute_iff asciiLower realClusterer realRuntime minuteWindow _ hclusters
    [parsedPost "#S2M #pump https://promo.example/s2m"] 0).mpr ?_
  · exact hreturns.elim fun features h => ⟨clusters, features, hclusters, h⟩
  · have hlength : (upTo [parsedPost "#S2M #pump https://promo.example/s2m"] 0).length = 1 := by
      decide +kernel
    have hurls : (allUrls (upTo [parsedPost "#S2M #pump https://promo.example/s2m"] 0)).Nodup := by
      decide +kernel
    have hhashtags : (allHashtags (realTools asciiLower)
        (upTo [parsedPost "#S2M #pump https://promo.example/s2m"] 0)).Nodup := by decide +kernel
    intro value
    rw [hlength]
    exact ⟨List.nodup_iff_count_le_one.mp hurls value, List.nodup_iff_count_le_one.mp hhashtags value⟩

end Real

end Narratives
end Scam2Market
