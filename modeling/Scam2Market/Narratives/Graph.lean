import Scam2Market.Library.Following
import Scam2Market.Ingestion.SocialTables
import Scam2Market.Narratives.Clustering
import Scam2Market.Python.Statistics

/-!
# The graph features of a window

`GraphFeatureExtractor.compute` of `narratives/graph.py`, `GraphFeatures` of `narratives/schemas.py`, and
`posts_for_window` of `narratives/repository.py` on the tables of posts.

* `GraphFeatureFields`: the arguments of `GraphFeatures`; `validate` reports every field that is out of
  range.
* Numbers are those of an ordered field, and the logarithm is given.  Times are rational.
-/

namespace Scam2Market
namespace Narratives

open Features (WindowKey)
open Ingestion (SocialPostModel SocialTables)
open Library (OrderedDict follow)

variable {𝕜 : Type} [Field 𝕜] [LinearOrder 𝕜]

/-- A post, with the fields that the extractor reads. -/
structure GraphPost (𝕜 : Type) extends NarrativePost 𝕜 where
  hashtags : List String
  urls : List String
  replyTo : Option String
  repostOf : Option String

/-! ## The posts of a window -/

/-- `NarrativePost(...)` of a row; it has no vector yet. -/
def graphPost (𝕜 : Type) (assetId : String) (row : SocialPostModel) : GraphPost 𝕜 where
  postId := row.postId
  scopeId := row.scopeId
  assetId := assetId
  authorId := row.pseudonymousAuthorId
  eventTime := row.eventTime
  text := row.text
  vector := []
  hashtags := row.hashtagsJson
  urls := row.urlsJson
  replyTo := row.replyTo
  repostOf := row.repostOf

/-- `posts_for_window(snapshot)`. -/
def postsForWindow (𝕜 : Type) (t : SocialTables) (key : WindowKey) : List (GraphPost 𝕜) :=
  ((t.posts.filter fun row =>
      row.scopeId = key.scopeId ∧ ⟨row.postId, some key.assetId⟩ ∈ t.mentions ∧
        key.windowStart ≤ row.eventTime ∧ row.eventTime < key.windowEnd).insertionSort
    fun a b => toLex (a.eventTime, a.postId) ≤ toLex (b.eventTime, b.postId)).map
      (graphPost 𝕜 key.assetId)

/-! ## `GraphFeatures` -/

/-- The arguments of `GraphFeatures(...)`. -/
structure GraphFeatureFields (𝕜 : Type) where
  communityConcentration : 𝕜
  synchronizedPosting : 𝕜
  repeatedAmplifierOverlap : 𝕜
  propagationDepth : ℕ
  communityEntropy : 𝕜
  timeTo10AuthorsSeconds : Option ℚ := none
  authors10ThresholdReached : Bool := false
  timeTo100AuthorsSeconds : Option ℚ := none
  authors100ThresholdReached : Bool := false
  crossCommunitySpread : 𝕜
  nodeSimilarity : 𝕜
  graphScore : Option 𝕜

/-- `Field(ge=0, le=1)`. -/
def unitRefusal (name : String) (value : 𝕜) : List (String × String) :=
  if value < 0 then [(name, "Input should be greater than or equal to 0")]
  else if 1 < value then [(name, "Input should be less than or equal to 1")]
  else []

/-- `Field(default=None, ge=0)`. -/
def timeRefusal (name : String) (value : Option ℚ) : List (String × String) :=
  if ∀ seconds ∈ value, 0 ≤ seconds then []
  else [(name, "Input should be greater than or equal to 0")]

namespace GraphFeatureFields

variable (fields : GraphFeatureFields 𝕜)

/-- The fields that are refused. -/
def refused : List (String × String) :=
  unitRefusal "community_concentration" fields.communityConcentration ++
  unitRefusal "synchronized_posting" fields.synchronizedPosting ++
  unitRefusal "repeated_amplifier_overlap" fields.repeatedAmplifierOverlap ++
  unitRefusal "community_entropy" fields.communityEntropy ++
  timeRefusal "time_to_10_authors_seconds" fields.timeTo10AuthorsSeconds ++
  timeRefusal "time_to_100_authors_seconds" fields.timeTo100AuthorsSeconds ++
  unitRefusal "cross_community_spread" fields.crossCommunitySpread ++
  unitRefusal "node_similarity" fields.nodeSimilarity ++
  fields.graphScore.toList.flatMap (unitRefusal "graph_score")

/-- The constraints of the fields. -/
structure InRange : Prop where
  communityConcentration : 0 ≤ fields.communityConcentration ∧ fields.communityConcentration ≤ 1
  synchronizedPosting : 0 ≤ fields.synchronizedPosting ∧ fields.synchronizedPosting ≤ 1
  repeatedAmplifierOverlap :
    0 ≤ fields.repeatedAmplifierOverlap ∧ fields.repeatedAmplifierOverlap ≤ 1
  communityEntropy : 0 ≤ fields.communityEntropy ∧ fields.communityEntropy ≤ 1
  timeTo10AuthorsSeconds : ∀ seconds ∈ fields.timeTo10AuthorsSeconds, 0 ≤ seconds
  timeTo100AuthorsSeconds : ∀ seconds ∈ fields.timeTo100AuthorsSeconds, 0 ≤ seconds
  crossCommunitySpread : 0 ≤ fields.crossCommunitySpread ∧ fields.crossCommunitySpread ≤ 1
  nodeSimilarity : 0 ≤ fields.nodeSimilarity ∧ fields.nodeSimilarity ≤ 1
  graphScore : ∀ score ∈ fields.graphScore, 0 ≤ score ∧ score ≤ 1

end GraphFeatureFields

/-- The features of a graph, in their ranges. -/
structure GraphFeatures (𝕜 : Type) [Field 𝕜] [LinearOrder 𝕜] extends GraphFeatureFields 𝕜 where
  inRange : toGraphFeatureFields.InRange

theorem unitRefusal_eq_nil {name : String} {value : 𝕜} :
    unitRefusal name value = [] ↔ 0 ≤ value ∧ value ≤ 1 := by
  unfold unitRefusal
  by_cases hneg : value < 0
  · rw [if_pos hneg]
    exact iff_of_false (List.cons_ne_nil _ _) fun h => absurd hneg (not_lt.mpr h.1)
  · rw [if_neg hneg]
    by_cases hlarge : 1 < value
    · rw [if_pos hlarge]
      exact iff_of_false (List.cons_ne_nil _ _) fun h => absurd hlarge (not_lt.mpr h.2)
    · rw [if_neg hlarge]
      exact iff_of_true rfl ⟨not_lt.mp hneg, not_lt.mp hlarge⟩

theorem timeRefusal_eq_nil {name : String} {value : Option ℚ} :
    timeRefusal name value = [] ↔ ∀ seconds ∈ value, 0 ≤ seconds := by
  unfold timeRefusal
  by_cases h : ∀ seconds ∈ value, 0 ≤ seconds
  · rw [if_pos h]
    exact iff_of_true rfl h
  · rw [if_neg h]
    exact iff_of_false (List.cons_ne_nil _ _) h

/-- **Nothing is refused** exactly when every field is in its range. -/
theorem GraphFeatureFields.refused_eq_nil {fields : GraphFeatureFields 𝕜} :
    fields.refused = [] ↔ fields.InRange := by
  have hscore : fields.graphScore.toList.flatMap (unitRefusal "graph_score") = [] ↔
      ∀ score ∈ fields.graphScore, 0 ≤ score ∧ score ≤ 1 := by
    rw [List.flatMap_eq_nil_iff]
    simp only [Option.mem_toList, unitRefusal_eq_nil, Option.mem_def]
  simp only [refused, List.append_eq_nil_iff, unitRefusal_eq_nil, timeRefusal_eq_nil, hscore]
  constructor
  · rintro ⟨⟨⟨⟨⟨⟨⟨⟨h₁, h₂⟩, h₃⟩, h₄⟩, h₅⟩, h₆⟩, h₇⟩, h₈⟩, h₉⟩
    exact ⟨h₁, h₂, h₃, h₄, h₅, h₆, h₇, h₈, h₉⟩
  · rintro ⟨h₁, h₂, h₃, h₄, h₅, h₆, h₇, h₈, h₉⟩
    exact ⟨⟨⟨⟨⟨⟨⟨⟨h₁, h₂⟩, h₃⟩, h₄⟩, h₅⟩, h₆⟩, h₇⟩, h₈⟩, h₉⟩

/-- `GraphFeatures(...)`. -/
def GraphFeatureFields.validate (fields : GraphFeatureFields 𝕜) :
    Except PyError (GraphFeatures 𝕜) :=
  if h : fields.refused = [] then .ok ⟨fields, refused_eq_nil.mp h⟩
  else .error (.validationError fields.refused)

namespace GraphFeatureFields

variable {fields : GraphFeatureFields 𝕜} {features : GraphFeatures 𝕜}

theorem validate_of_inRange (h : fields.InRange) : fields.validate = .ok ⟨fields, h⟩ :=
  dif_pos (refused_eq_nil.mpr h)

/-- What is returned are the fields as they were given. -/
theorem eq_of_validate (h : fields.validate = .ok features) :
    features.toGraphFeatureFields = fields := by
  rw [validate] at h
  split_ifs at h
  rw [← Except.ok.inj h]

/-- **The features are returned** exactly when every field is in its range. -/
theorem exists_validate_iff : (∃ features, fields.validate = .ok features) ↔ fields.InRange := by
  constructor
  · rintro ⟨features, h⟩
    exact eq_of_validate h ▸ features.inRange
  · exact fun h => ⟨_, validate_of_inRange h⟩

end GraphFeatureFields

/-! ## The features -/

/-- What the extractor takes from the standard library. -/
structure GraphTools (𝕜 : Type) where
  log : 𝕜 → 𝕜
  /-- `tag.lower()` -/
  lower : String → String

/-- `Counter(values).values()`. -/
def counts (values : List String) : List ℕ :=
  values.dedup.map values.count

/-- `max(Counter(values).values(), default=0)`. -/
def maxCount (values : List String) : ℕ :=
  maxDefault 0 (counts values)

/-- `reply_to or repost_of`. -/
def parentOf (replyTo repostOf : Option String) : Option String :=
  match replyTo with
  | some parent => if parent = "" then repostOf else some parent
  | none => repostOf

/-- The parent of a post, if it is a post. -/
def parentIn (parents : OrderedDict String (Option String)) (postId : String) : Option String :=
  (parents.getD postId none).filter fun parent => parent ∈ parents.keys

/-- `_propagation_depth(posts)`, given each post's identifier and parent. -/
def propagationDepth (links : List (String × Option String)) : ℕ :=
  maxDefault 0 (links.map fun link =>
    follow (parentIn (.ofEntries links)) links.length link.1 [link.1])

namespace GraphPost

/-- The identifier of a post and its parent. -/
def link (post : GraphPost 𝕜) : String × Option String :=
  (post.postId, parentOf post.replyTo post.repostOf)

end GraphPost

/-- The loop of `_time_to_author_count`, over the posts that are left. -/
def secondsTo (target : ℕ) (start : Datetime) (firstSeen : List String) :
    List (GraphPost 𝕜) → Option ℚ
  | [] => none
  | post :: posts =>
    let firstSeen := if post.authorId ∈ firstSeen then firstSeen else post.authorId :: firstSeen
    if target ≤ firstSeen.length then some (totalSeconds (post.eventTime - start))
    else secondsTo target start firstSeen posts

/-- `_time_to_author_count(posts, target)`. -/
def timeToAuthorCount (posts : List (GraphPost 𝕜)) (target : ℕ) : Option ℚ :=
  let ordered := posts.insertionSort fun a b => a.key ≤ b.key
  match ordered with
  | first :: _ => secondsTo target first.eventTime [] ordered
  | [] => none

/-- The pairs of neighbours that are at most five seconds apart. -/
def closeNeighbours (times : List Datetime) : ℕ :=
  (times.zip times.tail).countP fun pair => totalSeconds (pair.2 - pair.1) ≤ 5

section Fields

variable (tools : GraphTools 𝕜) (posts : List (GraphPost 𝕜)) (clusters : List (NarrativeCluster 𝕜))

/-- `concentration`. -/
def concentration : 𝕜 :=
  maxCount (posts.map fun post => post.authorId) / posts.length

/-- `entropy`. -/
def entropy : 𝕜 :=
  -((counts (posts.map fun post => post.authorId)).map fun count : ℕ =>
    (count / posts.length : 𝕜) * tools.log (count / posts.length)).sum

/-- `author_total`. -/
def authorTotal : ℕ :=
  (counts (posts.map fun post => post.authorId)).length

/-- `normalized_entropy`. -/
def normalizedEntropy : 𝕜 :=
  if 1 < authorTotal posts then entropy tools posts / tools.log (authorTotal posts) else 0

/-- `synchronized`. -/
def synchronized : 𝕜 :=
  let times := (posts.map fun post => post.eventTime).insertionSort (· ≤ ·)
  if 1 < times.length then closeNeighbours times / ((times.length - 1 : ℕ) : 𝕜) else 0

/-- The URLs of the posts. -/
def allUrls : List String :=
  posts.flatMap GraphPost.urls

/-- The hashtags of the posts, in lower case. -/
def allHashtags : List String :=
  posts.flatMap fun post => post.hashtags.map tools.lower

/-- `overlap`. -/
def overlap : 𝕜 :=
  (max (maxCount (allUrls posts)) (maxCount (allHashtags tools posts)) : ℕ) / posts.length

/-- `spread`. -/
def spread : 𝕜 :=
  min 1 (authorTotal posts / max 1 (posts.length : 𝕜))

/-- `similarity_values`. -/
def similarityValues : List 𝕜 :=
  clusters.flatMap fun cluster => cluster.similarities.entries.map Prod.snd

/-- `node_similarity`. -/
def nodeSimilarity : 𝕜 :=
  if similarityValues clusters ≠ [] then
    (similarityValues clusters).sum / (similarityValues clusters).length
  else 0

/-- `graph_score`. -/
def graphScore : 𝕜 :=
  min 1 (22 / 100 * concentration posts + 20 / 100 * synchronized posts +
    18 / 100 * overlap tools posts +
    15 / 100 * min 1 ((propagationDepth (posts.map GraphPost.link) : 𝕜) / 5) +
    15 / 100 * nodeSimilarity clusters + 10 / 100 * (1 - normalizedEntropy tools posts))

/-- The features of some posts. -/
def featureFields : GraphFeatureFields 𝕜 where
  communityConcentration := concentration posts
  synchronizedPosting := synchronized posts
  repeatedAmplifierOverlap := overlap tools posts
  propagationDepth := propagationDepth (posts.map GraphPost.link)
  communityEntropy := normalizedEntropy tools posts
  timeTo10AuthorsSeconds := timeToAuthorCount posts 10
  authors10ThresholdReached := (timeToAuthorCount posts 10).isSome
  timeTo100AuthorsSeconds := timeToAuthorCount posts 100
  authors100ThresholdReached := (timeToAuthorCount posts 100).isSome
  crossCommunitySpread := spread posts
  nodeSimilarity := nodeSimilarity clusters
  graphScore := some (graphScore tools posts clusters)

/-- The features of no posts. -/
def emptyFields : GraphFeatureFields 𝕜 where
  communityConcentration := 0
  synchronizedPosting := 0
  repeatedAmplifierOverlap := 0
  propagationDepth := 0
  communityEntropy := 0
  crossCommunitySpread := 0
  nodeSimilarity := 0
  graphScore := none

/-- The posts up to a cutoff. -/
def upTo (cutoffEventTime : Datetime) : List (GraphPost 𝕜) :=
  posts.filter fun post => post.eventTime ≤ cutoffEventTime

/-- `compute(posts, clusters, cutoff_event_time=...)`. -/
def compute (cutoffEventTime : Datetime) : Except PyError (GraphFeatures 𝕜) :=
  if (upTo posts cutoffEventTime).isEmpty then emptyFields.validate
  else (featureFields tools (upTo posts cutoffEventTime) clusters).validate

end Fields

/-- The depth that is returned is that of the posts up to the cutoff. -/
theorem propagationDepth_of_compute {tools : GraphTools 𝕜} {posts : List (GraphPost 𝕜)}
    {clusters : List (NarrativeCluster 𝕜)} {cutoffEventTime : Datetime} {features : GraphFeatures 𝕜}
    (h : compute tools posts clusters cutoffEventTime = .ok features) :
    features.propagationDepth =
      propagationDepth ((upTo posts cutoffEventTime).map GraphPost.link) := by
  rw [compute] at h
  split_ifs at h with hempty
  · rw [GraphFeatureFields.eq_of_validate h, List.isEmpty_iff.mp hempty]
    rfl
  · rw [GraphFeatureFields.eq_of_validate h]
    rfl

end Narratives
end Scam2Market
