import Scam2Market.Narratives.ReplyLinks

/-!
# How deep a conversation goes

The inner function of `_propagation_depth` follows the parents from a post on, with the set of the posts
that it has come through.

* `Calls`: one call of the function inside another.  The set grows by a post of the list each time, so that
  there is no infinite chain of calls, whatever the parents are.
* `Depth`: what a call returns.
* `ancestors`: the other posts that the parents of a post lead to.  A path may run into a cycle at any
  post; what it has gone through then are the ancestors.
-/

namespace Scam2Market
namespace Narratives

open Library (OrderedDict Reaches ahead follow follow_eq_ncard follow_map follow_of_mem follow_of_none
  follow_of_notMem unseen_of_cons)

/-! ## The recursion -/

/-- `depth(post_id, seen)` calls `depth(parent, seen | {parent})`; the calls are given by their
arguments. -/
def Calls (parents : OrderedDict String (Option String)) (callee caller : String × Finset String) : Prop :=
  parents.getD caller.1 none = some callee.1 ∧ callee.1 ∈ parents.keys ∧ callee.1 ∉ caller.2 ∧
    callee.2 = insert callee.1 caller.2

/-- `depth(post_id, seen)` returns a number. -/
inductive Depth (parents : OrderedDict String (Option String)) : String → Finset String → ℕ → Prop
  | last {postId : String} {seen : Finset String}
      (h : ∀ parent, parents.getD postId none = some parent → parent ∈ parents.keys → parent ∈ seen) :
      Depth parents postId seen 0
  | next {postId parent : String} {seen : Finset String} {n : ℕ}
      (hparent : parents.getD postId none = some parent) (hkey : parent ∈ parents.keys)
      (hnew : parent ∉ seen) (hdepth : Depth parents parent (insert parent seen) n) :
      Depth parents postId seen (1 + n)

section Recursion

variable {parents : OrderedDict String (Option String)} {postId : String} {seen : List String} {n m : ℕ}

/-- **No infinite recursion**: a call has fewer posts that it has not seen. -/
theorem wellFounded_calls (parents : OrderedDict String (Option String)) :
    WellFounded (Calls parents) := by
  refine Subrelation.wf (r := InvImage (· < ·) fun call : String × Finset String =>
    (parents.keys.toFinset \ call.2).card) ?_ (InvImage.wf _ Nat.lt_wfRel.wf)
  rintro ⟨callee, seen'⟩ ⟨caller, seen⟩ ⟨-, hkey, hnew, hseen⟩
  obtain rfl : seen' = insert callee seen := hseen
  refine Finset.card_lt_card (Finset.ssubset_iff_subset_ne.mpr ⟨?_, fun heq => ?_⟩)
  · exact Finset.sdiff_subset_sdiff subset_rfl (Finset.subset_insert callee seen)
  · have hmem : callee ∈ parents.keys.toFinset \ seen :=
      Finset.mem_sdiff.mpr ⟨List.mem_toFinset.mpr hkey, hnew⟩
    rw [← heq] at hmem
    exact (Finset.mem_sdiff.mp hmem).2 (Finset.mem_insert_self callee seen)

theorem Depth.unique {seen : Finset String} (h : Depth parents postId seen n)
    (h' : Depth parents postId seen m) : n = m := by
  induction h generalizing m with
  | last hlast =>
    cases h' with
    | last => rfl
    | next hparent hkey hnew _ => exact absurd (hlast _ hparent hkey) hnew
  | next hparent hkey hnew _ ih =>
    cases h' with
    | last hlast => exact absurd (hlast _ hparent hkey) hnew
    | next hparent' _ _ hdepth' =>
      obtain rfl := Option.some.inj (hparent.symm.trans hparent')
      rw [ih hdepth']

theorem parentIn_eq_some {parent : String} : parentIn parents postId = some parent ↔
    parents.getD postId none = some parent ∧ parent ∈ parents.keys := by
  rw [parentIn, Option.filter_eq_some_iff, decide_eq_true_iff]

/-- With fuel for the posts that were not seen, the recursion returns what `follow` counts. -/
theorem depth_follow {fuel : ℕ} (hfuel : (parents.keys.toFinset \ seen.toFinset).card ≤ fuel) :
    Depth parents postId seen.toFinset (follow (parentIn parents) fuel postId seen) := by
  induction fuel generalizing postId seen with
  | zero =>
    refine .last fun parent _ hkey => ?_
    by_contra hnew
    have hmem := Finset.mem_sdiff.mpr ⟨List.mem_toFinset.mpr hkey, hnew⟩
    rw [Finset.card_eq_zero.mp (Nat.le_zero.mp hfuel)] at hmem
    exact absurd hmem (Finset.notMem_empty parent)
  | succ fuel ih =>
    cases hnext : parentIn parents postId with
    | none =>
      rw [follow_of_none hnext]
      refine .last fun parent hparent hkey => ?_
      rw [parentIn_eq_some.mpr ⟨hparent, hkey⟩] at hnext
      exact nomatch hnext
    | some parent =>
      obtain ⟨hparent, hkey⟩ := parentIn_eq_some.mp hnext
      by_cases hseen : parent ∈ seen
      · rw [follow_of_mem hnext hseen]
        refine .last fun parent' hparent' _ => ?_
        obtain rfl := Option.some.inj (hparent.symm.trans hparent')
        exact List.mem_toFinset.mpr hseen
      · rw [follow_of_notMem hnext hseen]
        refine .next hparent hkey (fun h => hseen (List.mem_toFinset.mp h)) ?_
        rw [← List.toFinset_cons]
        exact ih (unseen_of_cons (List.mem_toFinset.mpr hkey) hseen hfuel)

end Recursion

/-! ## The posts that the parents lead to -/

variable {𝕜 : Type} {posts : List (GraphPost 𝕜)} {post parent : GraphPost 𝕜}

/-- A post of the list is the parent of a post. -/
def IsParent (posts : List (GraphPost 𝕜)) (post parent : GraphPost 𝕜) : Prop :=
  parent ∈ posts ∧ parentOf post.replyTo post.repostOf = some parent.postId

/-- The other posts of the list that the parents lead to. -/
def ancestors (posts : List (GraphPost 𝕜)) (post : GraphPost 𝕜) : Set (GraphPost 𝕜) :=
  {other | Relation.ReflTransGen (IsParent posts) post other ∧ other ≠ post}

/-- `parents`. -/
def parentsOf (posts : List (GraphPost 𝕜)) : OrderedDict String (Option String) :=
  .ofEntries (posts.map GraphPost.link)

/-- The parent of a post, as a post. -/
def parentPost (posts : List (GraphPost 𝕜)) (post : GraphPost 𝕜) : Option (GraphPost 𝕜) :=
  posts.find? fun parent => parentOf post.replyTo post.repostOf = some parent.postId

theorem map_fst_link (posts : List (GraphPost 𝕜)) :
    (posts.map GraphPost.link).map Prod.fst = posts.map (·.postId) := by
  rw [List.map_map]
  rfl

section Distinct

variable (hnodup : (posts.map (·.postId)).Nodup)
include hnodup

theorem post_eq_of_postId (hpost : post ∈ posts) (hparent : parent ∈ posts)
    (h : post.postId = parent.postId) : post = parent :=
  List.inj_on_of_nodup_map hnodup hpost hparent h

theorem parentPost_eq_some_iff : parentPost posts post = some parent ↔ IsParent posts post parent := by
  constructor
  · intro h
    exact ⟨List.mem_of_find?_eq_some h, by simpa using List.find?_some h⟩
  · rintro ⟨hparent, hlink⟩
    cases hfound : parentPost posts post with
    | none => exact absurd (decide_eq_true hlink) (List.find?_eq_none.mp hfound parent hparent)
    | some other =>
      have hother : parentOf post.replyTo post.repostOf = some other.postId := by
        simpa using List.find?_some hfound
      rw [post_eq_of_postId hnodup (List.mem_of_find?_eq_some hfound) hparent
        (Option.some.inj (hother.symm.trans hlink))]

/-- **What the recursion counts from a post on are its ancestors.** -/
theorem follow_parentsOf (hpost : post ∈ posts) :
    follow (parentIn (parentsOf posts)) posts.length post.postId [post.postId] =
      (ancestors posts post).ncard := by
  classical
  have hids : ((posts.map GraphPost.link).map Prod.fst).Nodup := (map_fst_link posts) ▸ hnodup
  have hlink : ∀ {x : GraphPost 𝕜} {z : String}, x ∈ posts →
      (parentIn (parentsOf posts) x.postId = some z ↔
        parentOf x.replyTo x.repostOf = some z ∧ ∃ y ∈ posts, y.postId = z) := by
    intro x z hx
    refine (parentIn_eq_some_iff hids).trans (and_congr ⟨fun h => ?_, fun h => ?_⟩ ?_)
    · obtain ⟨x', hx', heq⟩ := List.mem_map.mp h
      rw [← post_eq_of_postId hnodup hx' hx (congrArg Prod.fst heq)]
      exact congrArg Prod.snd heq
    · exact List.mem_map.mpr ⟨x, hx, by rw [GraphPost.link, h]⟩
    · rw [map_fst_link]
      exact List.mem_map
  have hposts : ∀ x y, parentPost posts x = some y → y ∈ posts := fun _ _ => List.mem_of_find?_eq_some
  have hcount : follow (parentIn (parentsOf posts)) posts.length post.postId [post.postId] =
      follow (parentPost posts) posts.length post [post] := by
    refine follow_map (f := fun post : GraphPost 𝕜 => post.postId) (p := fun post => post ∈ posts)
      (fun x y hx hy => post_eq_of_postId hnodup hx hy) (fun x y _ => hposts x y) ?_ ?_
      (List.forall_mem_singleton.mpr hpost) (List.mem_singleton_self post)
    · intro x y hx hnext _
      obtain ⟨hy, hparent⟩ := (parentPost_eq_some_iff hnodup).mp hnext
      exact (hlink hx).mpr ⟨hparent, y, hy, rfl⟩
    · intro x z hx hnext _
      obtain ⟨hparent, y, hy, rfl⟩ := (hlink hx).mp hnext
      exact ⟨y, (parentPost_eq_some_iff hnodup).mpr ⟨hy, hparent⟩, rfl⟩
  have hset : ahead (parentPost posts) post [post] = ancestors posts post := by
    have hrel : (fun x y => parentPost posts x = some y) = IsParent posts :=
      funext fun x => funext fun y => propext (parentPost_eq_some_iff hnodup)
    ext other
    rw [Library.mem_ahead, Reaches, hrel, List.mem_singleton]
    rfl
  rw [hcount, ← hset]
  have hnodes : ∀ x y, parentPost posts x = some y → y ∈ posts.toFinset :=
    fun x y h => List.mem_toFinset.mpr (hposts x y h)
  refine follow_eq_ncard hnodes ?_ (List.mem_singleton_self post)
    fun z hz hne => absurd (List.mem_singleton.mp hz) hne
  exact (Finset.card_le_card Finset.sdiff_subset).trans posts.toFinset_card_le

end Distinct

/-- **The depth is that of the longest path.**  For posts with distinct identifiers, the recursion ends
whatever the posts reply to; from a post on it returns the number of the ancestors, and the depth is the
largest of these. -/
theorem propagationDepth_eq_longest (hnodup : (posts.map (·.postId)).Nodup) :
    WellFounded (Calls (parentsOf posts)) ∧
      (∀ post ∈ posts, ∀ n, Depth (parentsOf posts) post.postId {post.postId} n ↔
        n = (ancestors posts post).ncard) ∧
      propagationDepth (posts.map GraphPost.link) =
        maxDefault 0 (posts.map fun post => (ancestors posts post).ncard) := by
  refine ⟨wellFounded_calls _, fun post hpost n => ?_, ?_⟩
  · have hfuel : ((parentsOf posts).keys.toFinset \ [post.postId].toFinset).card ≤ posts.length := by
      have hkeys : (parentsOf posts).keys = posts.map (·.postId) := by
        rw [OrderedDict.keys, parentsOf, OrderedDict.entries_ofEntries ((map_fst_link posts) ▸ hnodup),
          map_fst_link]
      rw [hkeys]
      exact (Finset.card_le_card Finset.sdiff_subset).trans
        ((List.toFinset_card_le _).trans (List.length_map _).le)
    have hdepth : Depth (parentsOf posts) post.postId {post.postId} (ancestors posts post).ncard := by
      rw [← follow_parentsOf hnodup hpost]
      exact depth_follow hfuel
    exact ⟨fun h => h.unique hdepth, fun h => h ▸ hdepth⟩
  · rw [propagationDepth, List.map_map, List.length_map]
    exact congrArg (maxDefault 0) (List.map_congr_left fun post hpost => follow_parentsOf hnodup hpost)

/-! ## A conversation that runs into a cycle -/

/-- A post that replies to another. -/
def replyPost (postId : String) (replyTo : Option String) : GraphPost ℚ where
  postId := postId
  scopeId := "default"
  assetId := "crypto:BTC-USD"
  authorId := "author"
  eventTime := 0
  text := ""
  vector := []
  hashtags := []
  urls := []
  replyTo := replyTo
  repostOf := none

/-- Two posts that reply to each other, one that replies to the first of them, and one that replies to
itself. -/
def cyclePosts : List (GraphPost ℚ) :=
  [replyPost "a" (some "b"), replyPost "b" (some "a"), replyPost "c" (some "a"), replyPost "d" (some "d")]

theorem propagationDepth_cyclePosts :
    propagationDepth (cyclePosts.map GraphPost.link) = 2 ∧
      maxDefault 0 (cyclePosts.map fun post => (ancestors cyclePosts post).ncard) = 2 := by
  have hdepth : propagationDepth (cyclePosts.map GraphPost.link) = 2 := by decide
  have hnodup : (cyclePosts.map (·.postId)).Nodup := by decide
  exact ⟨hdepth, (propagationDepth_eq_longest hnodup).2.2 ▸ hdepth⟩

end Narratives
end Scam2Market
