import Mathlib.Data.Prod.Lex
import Scam2Market.Library.StableSort
import Scam2Market.Library.GreedyGroups
import Scam2Market.Verification.Similarity

/-!
# Narrative clusters

`DeterministicNarrativeClusterer` of `narratives/clustering.py` and `cosine_similarity` of
`narratives/embeddings.py`.  The posts of a window are taken in the order of their times and ids; each
joins the group whose centroid is nearest, among those it is near enough to, or opens a group.

* Numbers are those of an ordered field: the program computes with floats, and nothing here depends on
  more than the field operations and the order.
* `Runtime`: the square root, and the texts of instants and of identifiers.  The identifier of a
  narrative is the text that `uuid5` is given.
-/

namespace Scam2Market
namespace Narratives

open Library (OrderedDict)
open Verification (tokens)

variable {𝕜 : Type} [Field 𝕜] [LinearOrder 𝕜]

/-- What the clusterer takes from the standard library: `math.sqrt`, `datetime.isoformat` and `str` of a
UUID. -/
structure Runtime (𝕜 : Type) where
  sqrt : 𝕜 → 𝕜
  isoformat : Datetime → String
  str : Uuid String → String

/-- The fields of a post that the clusterer reads. -/
structure NarrativePost (𝕜 : Type) where
  postId : String
  scopeId : String
  assetId : String
  authorId : String
  eventTime : Datetime
  text : String
  vector : List 𝕜
  deriving DecidableEq

/-- `uuid5` of the narrative and the hash of its members. -/
abbrev NarrativeRevisionId := Uuid (Uuid String × Digest String)

structure NarrativeCluster (𝕜 : Type) where
  narrativeId : Uuid String
  narrativeRevisionId : NarrativeRevisionId
  revision : ℤ := 1
  clusterKey : Digest String
  stableKey : String
  memberHash : Digest String
  scopeId : String
  assetId : String
  windowStart : Datetime
  windowEnd : Datetime
  firstSeen : Datetime
  lastSeen : Datetime
  label : String
  summary : String
  postIds : List String
  similarities : OrderedDict String 𝕜
  uniqueAuthorCount : ℕ
  centroid : List 𝕜
  embeddingVersion : String

/-! ## Vectors -/

/-- The cosine of the angle between two vectors, cut to `[0, 1]`. -/
def cosine (rt : Runtime 𝕜) (left right : List 𝕜) : 𝕜 :=
  let leftNorm := rt.sqrt (left.map fun value => value * value).sum
  let rightNorm := rt.sqrt (right.map fun value => value * value).sum
  if leftNorm = 0 ∨ rightNorm = 0 then 0
  else max 0 (min 1 ((List.zipWith (· * ·) left right).sum / (leftNorm * rightNorm)))

/-- `cosine_similarity(left, right)`. -/
def cosineSimilarity (rt : Runtime 𝕜) (left right : List 𝕜) : Except PyError 𝕜 :=
  if left.length ≠ right.length then .error (.valueError "embedding dimensions do not match")
  else .ok (cosine rt left right)

/-- `_centroid(posts)`, of a group, whose vectors all have the dimensions of the first. -/
def centroid (rt : Runtime 𝕜) (posts : List (NarrativePost 𝕜)) : List 𝕜 :=
  let dimensions := (posts.head?.map fun post => post.vector.length).getD 0
  let mean := (List.range dimensions).map fun index =>
    (posts.map fun post => post.vector.getD index 0).sum / posts.length
  let norm := rt.sqrt (mean.map fun value => value * value).sum
  if norm = 0 then mean else mean.map fun value => value / norm

/-! ## The order of posts -/

/-- `(item.event_time, item.post_id)`. -/
def NarrativePost.key (post : NarrativePost 𝕜) : Lex (Datetime × String) :=
  toLex (post.eventTime, post.postId)

/-- `min(posts, key=lambda item: (item.event_time, item.post_id))`. -/
def firstOf (posts : List (NarrativePost 𝕜)) : Except PyError (NarrativePost 𝕜) :=
  match (posts.insertionSort fun a b => a.key ≤ b.key).head? with
  | some first => .ok first
  | none => .error (.valueError "min() iterable argument is empty")

/-- `min(values)`. -/
def minimumOf (values : List 𝕜) : Except PyError 𝕜 :=
  match values with
  | value :: values => .ok (values.foldl min value)
  | [] => .error (.valueError "min() iterable argument is empty")

/-! ## Groups -/

/-- `DeterministicNarrativeClusterer(similarity_threshold, minimum_exemplar_similarity)`. -/
structure Clusterer (𝕜 : Type) where
  similarityThreshold : 𝕜
  minimumExemplarSimilarity : 𝕜

/-- `DeterministicNarrativeClusterer.version`. -/
def clustererVersion : String :=
  "narrative-cluster-v2-centroid-coherent"

/-- What `candidates` holds of a group: how near its centroid is, the id of its first post, and its
index. -/
abbrev Candidate (𝕜 : Type) := 𝕜 × String × ℕ

/-- `(-item[0], item[1])`. -/
def Candidate.preference (candidate : Candidate 𝕜) : Lex (𝕜 × String) :=
  toLex (-candidate.1, candidate.2.1)

namespace Clusterer

variable (c : Clusterer 𝕜) (rt : Runtime 𝕜)

/-- The group as a candidate for the post, if it is one. -/
def candidate (post : NarrativePost 𝕜) (item : List (NarrativePost 𝕜) × ℕ) :
    Except PyError (Option (Candidate 𝕜)) := do
  let centroidSimilarity ← cosineSimilarity rt post.vector (centroid rt item.1)
  let similarities ← item.1.mapM fun member => cosineSimilarity rt post.vector member.vector
  let minimumSimilarity ← minimumOf similarities
  if c.similarityThreshold ≤ centroidSimilarity ∧
      c.minimumExemplarSimilarity ≤ minimumSimilarity then do
    let seed ← firstOf item.1
    return some (centroidSimilarity, seed.postId, item.2)
  else return none

/-- The step of the loop over the posts. -/
def place (groups : List (List (NarrativePost 𝕜))) (post : NarrativePost 𝕜) :
    Except PyError (List (List (NarrativePost 𝕜))) := do
  let found ← groups.zipIdx.mapM (c.candidate rt post)
  let candidates := found.reduceOption
  match (candidates.insertionSort fun a b => a.preference ≤ b.preference).head? with
  | some (_, _, selected) => return groups.modify selected fun group => group ++ [post]
  | none => return groups ++ [[post]]

end Clusterer

/-! ## Clusters -/

/-- `value.strip()`. -/
def strip (value : String) : String :=
  String.ofList (((value.toList.dropWhile isSpace).reverse.dropWhile isSpace).reverse)

/-- `_STOPWORDS`. -/
def stopwords : List String :=
  ["about", "after", "again", "asset", "from", "have", "into", "just", "more", "that", "this", "with",
    "will"]

/-- The words that are counted. -/
def countedWords (posts : List (NarrativePost 𝕜)) : List String :=
  posts.flatMap fun post => (tokens post.text).filter fun token =>
    3 < token.length ∧ token ∉ stopwords

/-- `label_terms`: the four most frequent words, in the order of the alphabet among equals. -/
def labelTerms (posts : List (NarrativePost 𝕜)) : List String :=
  let words := countedWords posts
  (words.dedup.insertionSort fun a b =>
    toLex (-(words.count a : ℤ), a) ≤ toLex (-(words.count b : ℤ), b)).take 4

/-- `label`. -/
def labelOf (posts : List (NarrativePost 𝕜)) (first : NarrativePost 𝕜) : String :=
  if labelTerms posts ≠ [] then " / ".intercalate (labelTerms posts)
  else first.assetId ++ " discussion"

/-- `summary`. -/
def summaryOf (posts : List (NarrativePost 𝕜)) : String :=
  let parts := ((posts.insertionSort fun a b => a.postId ≤ b.postId).take 3).map fun post =>
    strip post.text
  String.ofList ((" ".intercalate parts).toList.take 1000)

/-- `stable_key`. -/
def stableKeyOf (rt : Runtime 𝕜) (windowStart : Datetime) (first : NarrativePost 𝕜) : String :=
  rt.isoformat windowStart ++ ":" ++ first.postId ++ ":" ++ clustererVersion

/-- `narrative_id`. -/
def narrativeIdOf (rt : Runtime 𝕜) (windowStart : Datetime) (first : NarrativePost 𝕜) : Uuid String :=
  ⟨"narrative:" ++ first.scopeId ++ ":" ++ first.assetId ++ ":" ++ stableKeyOf rt windowStart first⟩

/-- `post_ids`. -/
def postIdsOf (posts : List (NarrativePost 𝕜)) : List String :=
  (posts.map NarrativePost.postId).insertionSort (· ≤ ·)

/-- `member_hash`. -/
def memberHashOf (posts : List (NarrativePost 𝕜)) : Digest String :=
  ⟨"|".intercalate (postIdsOf posts)⟩

/-- The window of the posts and the version of their vectors. -/
structure ClusterWindow where
  windowStart : Datetime
  windowEnd : Datetime
  embeddingVersion : String

/-- `_materialize(posts, ...)`. -/
def materialize (rt : Runtime 𝕜) (window : ClusterWindow) (posts : List (NarrativePost 𝕜)) :
    Except PyError (NarrativeCluster 𝕜) := do
  let first ← firstOf posts
  let similarities ← posts.mapM fun post =>
    (cosineSimilarity rt post.vector (centroid rt posts)).map fun value => (post.postId, value)
  return {
    narrativeId := narrativeIdOf rt window.windowStart first
    narrativeRevisionId := ⟨narrativeIdOf rt window.windowStart first, memberHashOf posts⟩
    clusterKey := memberHashOf posts
    stableKey := stableKeyOf rt window.windowStart first
    memberHash := memberHashOf posts
    scopeId := first.scopeId
    assetId := first.assetId
    windowStart := window.windowStart
    windowEnd := window.windowEnd
    firstSeen := (posts.map NarrativePost.eventTime).foldl min first.eventTime
    lastSeen := (posts.map NarrativePost.eventTime).foldl max first.eventTime
    label := labelOf posts first
    summary := summaryOf posts
    postIds := postIdsOf posts
    similarities := .ofEntries similarities
    uniqueAuthorCount := (posts.map NarrativePost.authorId).dedup.length
    centroid := centroid rt posts
    embeddingVersion := window.embeddingVersion }

/-- `cluster(posts, ...)`. -/
def Clusterer.cluster (c : Clusterer 𝕜) (rt : Runtime 𝕜) (window : ClusterWindow)
    (posts : List (NarrativePost 𝕜)) : Except PyError (List (NarrativeCluster 𝕜)) := do
  let ordered := posts.insertionSort fun a b => a.key ≤ b.key
  let groups ← ordered.foldlM (c.place rt) []
  let clusters ← groups.mapM (materialize rt window)
  return clusters.insertionSort fun a b => rt.str a.narrativeId ≤ rt.str b.narrativeId

end Narratives
end Scam2Market
