import Scam2Market.Ingestion.AssetMentions
import Scam2Market.Narratives.Graph

/-!
# Replies and reposts after normalisation

A raw post names the post that it replies to, or reposts, by the identifier at the provider.  The
normalised post has a derived identifier, and the name of the other post as it was.

* `Intake`: what a raw post goes through on its way to the tables.
* `parentIn_eq_some_iff`, `propagationDepth_eq_zero_iff`, `propagationDepth_map`: the depth is that of the
  graph whose links are the pairs of a post and its parent.
* `posts_perm`: the posts of a window are the raw ones of the window, each normalised.
-/

namespace Scam2Market
namespace Narratives

open Features (WindowKey)
open Ingestion (AssetMentionResolver RawThreadPost SocialParser SocialPostModel SocialTables)
open Library (OrderedDict follow follow_map follow_of_le follow_pos_iff)

/-! ## The depth of a graph -/

section Depth

variable {links links' : List (String × Option String)} {x y : String}

theorem parentOf_eq_some {replyTo repostOf : Option String}
    (h : parentOf replyTo repostOf = some x) : replyTo = some x ∨ repostOf = some x := by
  unfold parentOf at h
  cases replyTo with
  | none => exact Or.inr h
  | some parent =>
    by_cases hempty : parent = ""
    · exact Or.inr (by simpa [hempty] using h)
    · exact Or.inl (by simpa [hempty] using h)

/-- **The parent of a post**, if the identifiers are distinct. -/
theorem parentIn_eq_some_iff (hnodup : (links.map Prod.fst).Nodup) :
    parentIn (.ofEntries links) x = some y ↔ (x, some y) ∈ links ∧ y ∈ links.map Prod.fst := by
  have hkeys : (OrderedDict.ofEntries links).keys = links.map Prod.fst := by
    rw [OrderedDict.keys, OrderedDict.entries_ofEntries hnodup]
  have hget : (OrderedDict.ofEntries links).getD x none = some y ↔ (x, some y) ∈ links := by
    rw [← OrderedDict.entries_ofEntries hnodup, OrderedDict.mem_entries_iff,
      OrderedDict.entries_ofEntries hnodup, OrderedDict.getD]
    cases (OrderedDict.ofEntries links).get? x <;> simp
  rw [parentIn, Option.filter_eq_some_iff, hget, hkeys, decide_eq_true_iff]

/-- More fuel than there are posts changes nothing. -/
theorem follow_parentIn_of_le (hnodup : (links.map Prod.fst).Nodup) (more : ℕ) :
    follow (parentIn (.ofEntries links)) (links.length + more) x [x] =
      follow (parentIn (.ofEntries links)) links.length x [x] := by
  have hnodes : ∀ z y, parentIn (.ofEntries links) z = some y → y ∈ (links.map Prod.fst).toFinset :=
    fun z y h => List.mem_toFinset.mpr ((parentIn_eq_some_iff hnodup).mp h).2
  refine follow_of_le hnodes ((Finset.card_le_card Finset.sdiff_subset).trans ?_) more
  rw [List.toFinset_card_of_nodup hnodup, List.length_map]

theorem propagationDepth_eq :
    propagationDepth links = maxDefault 0 ((links.map Prod.fst).map fun x =>
      follow (parentIn (.ofEntries links)) links.length x [x]) := by
  rw [propagationDepth, List.map_map]
  rfl

/-- **No depth**: a parent that is a post is the post itself. -/
theorem propagationDepth_eq_zero_iff (hnodup : (links.map Prod.fst).Nodup) :
    propagationDepth links = 0 ↔
      ∀ x y, (x, some y) ∈ links → y ∈ links.map Prod.fst → y = x := by
  have hpos : ∀ {x}, x ∈ links.map Prod.fst →
      (0 < follow (parentIn (.ofEntries links)) links.length x [x] ↔
        ∃ y, ((x, some y) ∈ links ∧ y ∈ links.map Prod.fst) ∧ y ≠ x) := by
    intro x hx
    obtain ⟨n, hn⟩ := Nat.exists_eq_succ_of_ne_zero
      (List.length_pos_iff.mpr (List.ne_nil_of_mem (List.mem_map.mp hx).choose_spec.1)).ne'
    rw [hn, follow_pos_iff]
    simp only [parentIn_eq_some_iff hnodup, List.mem_singleton]
  rw [propagationDepth_eq]
  constructor
  · intro h x y hlink hy
    by_contra hne
    have hx : x ∈ links.map Prod.fst := List.mem_map_of_mem (f := Prod.fst) hlink
    have hle := le_maxDefault (d := 0) (List.mem_map_of_mem
      (f := fun x => follow (parentIn (.ofEntries links)) links.length x [x]) hx)
    rw [h] at hle
    exact absurd ((hpos hx).mpr ⟨y, ⟨hlink, hy⟩, hne⟩) (not_lt.mpr hle)
  · intro h
    refine Nat.le_zero.mp (maxDefault_le le_rfl fun n hn => ?_)
    obtain ⟨x, hx, rfl⟩ := List.mem_map.mp hn
    by_contra hdeep
    obtain ⟨y, ⟨hlink, hy⟩, hne⟩ := (hpos hx).mp (not_le.mp hdeep)
    exact hne (h x y hlink hy)

/-- **Graphs with the same links**, under a renaming of the posts, have the same depth. -/
theorem propagationDepth_map {f : String → String} (hf : Function.Injective f)
    (hnodup : (links.map Prod.fst).Nodup)
    (hperm : (links'.map Prod.fst).Perm ((links.map Prod.fst).map f))
    (hforth : ∀ x y, (x, some y) ∈ links → y ∈ links.map Prod.fst → y ≠ x →
      (f x, some (f y)) ∈ links')
    (hback : ∀ x y, x ∈ links.map Prod.fst → y ∈ links.map Prod.fst → y ≠ x →
      (f x, some (f y)) ∈ links' → (x, some y) ∈ links) :
    propagationDepth links' = propagationDepth links := by
  have hnodup' : (links'.map Prod.fst).Nodup := hperm.nodup_iff.mpr (hnodup.map hf)
  have hlength : links'.length = links.length := by
    simpa using hperm.length_eq
  rw [propagationDepth_eq, maxDefault_perm (hperm.map _), List.map_map, propagationDepth_eq, hlength]
  congr 1
  refine List.map_congr_left fun x hx => ?_
  refine follow_map (p := fun x => x ∈ links.map Prod.fst) (fun _ _ _ _ heq => hf heq)
    ?_ ?_ ?_ (List.forall_mem_singleton.mpr hx) (List.mem_singleton_self x)
  · exact fun x y _ hnext => ((parentIn_eq_some_iff hnodup).mp hnext).2
  · intro x y hx hnext hne
    obtain ⟨hlink, hy⟩ := (parentIn_eq_some_iff hnodup).mp hnext
    exact (parentIn_eq_some_iff hnodup').mpr ⟨hforth x y hlink hy hne,
      hperm.mem_iff.mpr (List.mem_map_of_mem hy)⟩
  · intro x z hx hnext hne
    obtain ⟨hlink, hz⟩ := (parentIn_eq_some_iff hnodup').mp hnext
    obtain ⟨y, hy, rfl⟩ := List.mem_map.mp (hperm.mem_iff.mp hz)
    exact ⟨y, (parentIn_eq_some_iff hnodup).mpr
      ⟨hback x y hx hy (fun heq => hne (heq ▸ rfl)) hlink, hy⟩, rfl⟩

end Depth

/-! ## The way to the tables -/

/-- What a raw post goes through: the normaliser, the resolver of mentions, and where it is stored. -/
structure Intake where
  parser : SocialParser
  resolver : AssetMentionResolver
  source : String
  scopeId : String

namespace Intake

variable (intake : Intake)

/-- The identifier of the normalised post. -/
def postId (sourcePostId : String) : String :=
  intake.parser.postId intake.source intake.scopeId sourcePostId

/-- `post`, of `SocialIngestionService.ingest`. -/
def post (raw : RawThreadPost) : Ingestion.ParsedPost :=
  intake.parser.parseSocialPost raw intake.source intake.scopeId

/-- `mentions`, of `SocialIngestionService.ingest`. -/
def mentions (raw : RawThreadPost) : List Streaming.AssetMention :=
  (intake.resolver.resolve intake.parser.unicode (intake.post raw).postId (intake.post raw).text).map
    Ingestion.ResolvedMention.toAssetMention

/-- The tables after a post. -/
def store (t : SocialTables) (raw : RawThreadPost) : SocialTables :=
  (t.persistPair (intake.post raw) intake.scopeId (intake.mentions raw)).2

/-- The tables after some posts. -/
def stored (raws : List RawThreadPost) : SocialTables :=
  raws.foldl intake.store {}

/-- The rows of some posts. -/
def tables (raws : List RawThreadPost) : SocialTables where
  posts := raws.map fun raw => (intake.post raw).row intake.scopeId
  mentions := raws.flatMap fun raw => (intake.mentions raw).map Ingestion.mentionRow

variable {intake}

theorem postId_injective (hstr : Function.Injective intake.parser.str) :
    Function.Injective intake.postId := by
  intro sid sid' heq
  have hname := congrArg (fun name : Uuid String => name.name) (hstr heq)
  exact (String.append_right_inj _).mp hname

/-- A post that is not there yet is stored. -/
theorem store_tables (hstr : Function.Injective intake.parser.str) {raws : List RawThreadPost}
    {raw : RawThreadPost} (hnew : raw.sourcePostId ∉ raws.map fun raw => raw.sourcePostId) :
    intake.store (intake.tables raws) raw = intake.tables (raws ++ [raw]) := by
  have hfree : ¬ (intake.tables raws).Holds ((intake.post raw).row intake.scopeId) := by
    rintro ⟨row, hrow, htaken⟩
    obtain ⟨other, hother, rfl⟩ := List.mem_map.mp hrow
    refine hnew (List.mem_map.mpr ⟨other, hother, ?_⟩)
    rcases htaken with hid | ⟨-, -, hsource⟩
    · exact postId_injective hstr hid
    · exact hsource
  rw [store, SocialTables.persistPair, if_neg hfree]
  simp only [tables, List.map_append, List.map_cons, List.map_nil, List.flatMap_append,
    List.flatMap_cons, List.flatMap_nil, List.append_nil]

/-- **Posts with distinct identifiers are all stored.** -/
theorem stored_eq (hstr : Function.Injective intake.parser.str) {raws : List RawThreadPost}
    (hdistinct : (raws.map fun raw => raw.sourcePostId).Nodup) :
    intake.stored raws = intake.tables raws := by
  induction raws using List.reverseRecOn with
  | nil => rfl
  | append_singleton raws raw ih =>
    rw [List.map_append, List.nodup_append] at hdistinct
    have hnew : raw.sourcePostId ∉ raws.map fun raw => raw.sourcePostId := fun hmem =>
      hdistinct.2.2 _ hmem _ (List.mem_singleton_self _) rfl
    rw [stored, List.foldl_append, List.foldl_cons, List.foldl_nil]
    exact (congrArg (fun t => intake.store t raw) (ih hdistinct.1)).trans (store_tables hstr hnew)

/-! ## The posts of a window -/

variable (intake) in
/-- The raw post is about the asset of the window, and in it up to the cutoff. -/
def InWindow (key : WindowKey) (cutoff : Datetime) (raw : RawThreadPost) : Prop :=
  intake.scopeId = key.scopeId ∧
    (∃ mention ∈ intake.mentions raw, mention.assetId = some key.assetId) ∧
      key.windowStart ≤ raw.eventTime ∧ raw.eventTime < key.windowEnd ∧ raw.eventTime ≤ cutoff

instance (key : WindowKey) (cutoff : Datetime) : DecidablePred (intake.InWindow key cutoff) :=
  fun _ => inferInstanceAs (Decidable (_ ∧ _))

variable (intake) in
/-- The raw posts of the window. -/
def window (raws : List RawThreadPost) (key : WindowKey) (cutoff : Datetime) : List RawThreadPost :=
  raws.filter fun raw => intake.InWindow key cutoff raw

section Posts

variable (𝕜 : Type)

variable (intake) in
/-- The normalised post, as the extractor reads it. -/
def graphPost (key : WindowKey) (raw : RawThreadPost) : GraphPost 𝕜 :=
  Narratives.graphPost 𝕜 key.assetId ((intake.post raw).row intake.scopeId)

variable (intake) in
/-- The posts that the features are computed from. -/
def posts (raws : List RawThreadPost) (key : WindowKey) (cutoff : Datetime) : List (GraphPost 𝕜) :=
  upTo (postsForWindow 𝕜 (intake.stored raws) key) cutoff

theorem postId_of_mem_mentions {raw : RawThreadPost} {mention : Streaming.AssetMention}
    (h : mention ∈ intake.mentions raw) : mention.postId = intake.postId raw.sourcePostId := by
  obtain ⟨resolved, hresolved, rfl⟩ := List.mem_map.mp h
  obtain ⟨item, -, rfl⟩ := List.mem_map.mp hresolved
  rfl

/-- The mentions of a post in the tables are its own. -/
theorem mem_mentions_tables (hstr : Function.Injective intake.parser.str)
    {raws : List RawThreadPost} (hdistinct : (raws.map fun raw => raw.sourcePostId).Nodup)
    {raw : RawThreadPost} (hraw : raw ∈ raws) {assetId : String} :
    ⟨(intake.post raw).postId, some assetId⟩ ∈ (intake.tables raws).mentions ↔
      ∃ mention ∈ intake.mentions raw, mention.assetId = some assetId := by
  constructor
  · intro h
    obtain ⟨other, hother, hmem⟩ := List.mem_flatMap.mp h
    obtain ⟨mention, hmention, hrow⟩ := List.mem_map.mp hmem
    have hid : mention.postId = intake.postId raw.sourcePostId :=
      congrArg (fun row => row.postId) hrow
    rw [postId_of_mem_mentions hmention] at hid
    obtain rfl : other = raw :=
      List.inj_on_of_nodup_map hdistinct hother hraw (postId_injective hstr hid)
    exact ⟨mention, hmention, congrArg (fun row => row.assetId) hrow⟩
  · rintro ⟨mention, hmention, hasset⟩
    refine List.mem_flatMap.mpr ⟨raw, hraw, List.mem_map.mpr ⟨mention, hmention, ?_⟩⟩
    rw [Ingestion.mentionRow, postId_of_mem_mentions hmention, hasset]
    rfl

/-- **The posts of a window** are the raw posts of the window, each normalised. -/
theorem posts_perm (hstr : Function.Injective intake.parser.str) {raws : List RawThreadPost}
    (hdistinct : (raws.map fun raw => raw.sourcePostId).Nodup) (key : WindowKey)
    (cutoff : Datetime) :
    (intake.posts 𝕜 raws key cutoff).Perm
      ((intake.window raws key cutoff).map (intake.graphPost 𝕜 key)) := by
  rw [posts, upTo, postsForWindow, stored_eq hstr hdistinct]
  refine (((List.perm_insertionSort _ _).map _).filter _).trans (List.Perm.of_eq ?_)
  rw [List.filter_map, tables, List.filter_map, List.filter_map, List.filter_filter, List.map_map,
    window]
  refine congrArg _ (List.filter_congr fun raw hraw => ?_)
  have hmentions : ⟨(intake.post raw).postId, some key.assetId⟩ ∈ (intake.tables raws).mentions ↔
      ∃ mention ∈ intake.mentions raw, mention.assetId = some key.assetId :=
    mem_mentions_tables hstr hdistinct hraw
  rw [Bool.eq_iff_iff]
  simp only [Function.comp_apply, Bool.and_eq_true, decide_eq_true_iff]
  constructor
  · rintro ⟨hcutoff, hscope, hmention, hstart, hend⟩
    exact ⟨hscope, hmentions.mp hmention, hstart, hend, hcutoff⟩
  · rintro ⟨hscope, hmention, hstart, hend, hcutoff⟩
    exact ⟨hcutoff, hscope, hmentions.mpr hmention, hstart, hend⟩

end Posts

end Intake

/-! ## Which links survive -/

/-- A raw post and its parent, by the identifiers at the provider. -/
def rawLink (raw : RawThreadPost) : String × Option String :=
  (raw.sourcePostId, parentOf raw.replyTo raw.repostOf)

namespace Intake

/-- The depth is that of the raw posts, and a link between two of them is one between the normalised
posts. -/
structure LinksSurvive (𝕜 : Type) (intake : Intake) (raws : List RawThreadPost) (key : WindowKey)
    (cutoff : Datetime) : Prop where
  depth : propagationDepth ((intake.posts 𝕜 raws key cutoff).map GraphPost.link) =
    propagationDepth ((intake.window raws key cutoff).map rawLink)
  links : ∀ raw ∈ intake.window raws key cutoff, ∀ other ∈ intake.window raws key cutoff,
    raw.sourcePostId ≠ other.sourcePostId →
      (raw.replyTo = some other.sourcePostId →
        (intake.graphPost 𝕜 key raw).replyTo = some (intake.graphPost 𝕜 key other).postId) ∧
      (raw.repostOf = some other.sourcePostId →
        (intake.graphPost 𝕜 key raw).repostOf = some (intake.graphPost 𝕜 key other).postId)

/-- No post of the window replies to another one or reposts it, and none names the derived identifier of
another one instead; only an identifier that is derived from itself may be named. -/
def NamesNoOther (intake : Intake) (raws : List RawThreadPost) (key : WindowKey)
    (cutoff : Datetime) : Prop :=
  ∀ raw ∈ intake.window raws key cutoff, ∀ other ∈ intake.window raws key cutoff,
    raw.sourcePostId ≠ other.sourcePostId →
      (raw.replyTo = some other.sourcePostId ∨ raw.repostOf = some other.sourcePostId ∨
        parentOf raw.replyTo raw.repostOf = some (intake.postId other.sourcePostId)) →
      intake.postId other.sourcePostId = other.sourcePostId

section Links

variable {𝕜 : Type} {intake : Intake} {raws : List RawThreadPost} {key : WindowKey}
  {cutoff : Datetime}

theorem nodup_window (hdistinct : (raws.map fun raw => raw.sourcePostId).Nodup) :
    (((intake.window raws key cutoff).map rawLink).map Prod.fst).Nodup := by
  rw [List.map_map]
  exact hdistinct.sublist (List.filter_sublist.map _)

/-- The links of the normalised posts. -/
theorem links_perm (hstr : Function.Injective intake.parser.str)
    (hdistinct : (raws.map fun raw => raw.sourcePostId).Nodup) :
    ((intake.posts 𝕜 raws key cutoff).map GraphPost.link).Perm
      ((intake.window raws key cutoff).map fun raw =>
        (intake.postId raw.sourcePostId, parentOf raw.replyTo raw.repostOf)) := by
  have hperm := (posts_perm 𝕜 hstr hdistinct key cutoff).map GraphPost.link
  rw [List.map_map] at hperm
  exact hperm

theorem keys_perm (hstr : Function.Injective intake.parser.str)
    (hdistinct : (raws.map fun raw => raw.sourcePostId).Nodup) :
    (((intake.posts 𝕜 raws key cutoff).map GraphPost.link).map Prod.fst).Perm
      ((((intake.window raws key cutoff).map rawLink).map Prod.fst).map intake.postId) := by
  refine ((links_perm hstr hdistinct).map Prod.fst).trans (List.Perm.of_eq ?_)
  rw [List.map_map, List.map_map, List.map_map]
  rfl

/-- A link of the raw posts. -/
theorem mem_rawLinks {x y : String} :
    (x, some y) ∈ (intake.window raws key cutoff).map rawLink ↔
      ∃ raw ∈ intake.window raws key cutoff, raw.sourcePostId = x ∧
        parentOf raw.replyTo raw.repostOf = some y := by
  rw [List.mem_map]
  exact exists_congr fun raw => and_congr_right fun _ => Prod.mk_inj

/-- The normalised posts have the derived identifiers, and the parents of the raw ones. -/
theorem mem_links (hstr : Function.Injective intake.parser.str)
    (hdistinct : (raws.map fun raw => raw.sourcePostId).Nodup) {x y : String} :
    (intake.postId x, some y) ∈ (intake.posts 𝕜 raws key cutoff).map GraphPost.link ↔
      (x, some y) ∈ (intake.window raws key cutoff).map rawLink := by
  rw [(links_perm hstr hdistinct).mem_iff, List.mem_map, mem_rawLinks]
  refine exists_congr fun raw => and_congr_right fun _ => Prod.mk_inj.trans ?_
  exact and_congr_left' (postId_injective hstr).eq_iff

/-- A parent in the window is one that is excluded, or its identifier is derived from itself. -/
theorem NamesNoOther.postId_eq (h : intake.NamesNoOther raws key cutoff) {x y z : String}
    (hlink : (x, some z) ∈ (intake.window raws key cutoff).map rawLink)
    (hy : y ∈ ((intake.window raws key cutoff).map rawLink).map Prod.fst) (hne : y ≠ x)
    (hz : z = y ∨ z = intake.postId y) : intake.postId y = y := by
  obtain ⟨raw, hraw, rfl, hparent⟩ := mem_rawLinks.mp hlink
  rw [List.map_map] at hy
  obtain ⟨other, hother, rfl⟩ := List.mem_map.mp hy
  refine h raw hraw other hother (Ne.symm hne) ?_
  rcases hz with rfl | rfl
  · rcases parentOf_eq_some hparent with hreply | hrepost
    · exact Or.inl hreply
    · exact Or.inr (Or.inl hrepost)
  · exact Or.inr (Or.inr hparent)

/-- **Where nothing is named, the depth is right.** -/
theorem NamesNoOther.depth (hstr : Function.Injective intake.parser.str)
    (hdistinct : (raws.map fun raw => raw.sourcePostId).Nodup)
    (h : intake.NamesNoOther raws key cutoff) :
    propagationDepth ((intake.posts 𝕜 raws key cutoff).map GraphPost.link) =
      propagationDepth ((intake.window raws key cutoff).map rawLink) := by
  refine propagationDepth_map (postId_injective hstr) (nodup_window hdistinct)
    (keys_perm hstr hdistinct) (fun x y hlink hy hne => ?_) fun x y _ hy hne hlink => ?_
  · rw [mem_links hstr hdistinct, h.postId_eq hlink hy hne (Or.inl rfl)]
    exact hlink
  · rw [mem_links hstr hdistinct] at hlink
    rw [h.postId_eq hlink hy hne (Or.inr rfl)] at hlink
    exact hlink

/-- **Where a derived identifier is never the identifier itself, nothing else is right.** -/
theorem LinksSurvive.namesNoOther (hstr : Function.Injective intake.parser.str)
    (hdistinct : (raws.map fun raw => raw.sourcePostId).Nodup)
    (hderived : ∀ raw ∈ intake.window raws key cutoff,
      intake.postId raw.sourcePostId ≠ raw.sourcePostId)
    (h : intake.LinksSurvive 𝕜 raws key cutoff) : intake.NamesNoOther raws key cutoff := by
  have hunnamed : ∀ raw ∈ intake.window raws key cutoff, ∀ other ∈ intake.window raws key cutoff,
      raw.sourcePostId ≠ other.sourcePostId →
        raw.replyTo ≠ some other.sourcePostId ∧ raw.repostOf ≠ some other.sourcePostId := by
    intro raw hraw other hother hne
    obtain ⟨hreply, hrepost⟩ := h.links raw hraw other hother hne
    exact ⟨fun heq => hderived other hother (Option.some.inj ((hreply heq).symm.trans heq)),
      fun heq => hderived other hother (Option.some.inj ((hrepost heq).symm.trans heq))⟩
  -- So no raw post has a parent in the window, and no normalised post may have one.
  have hflat : propagationDepth ((intake.window raws key cutoff).map rawLink) = 0 := by
    refine (propagationDepth_eq_zero_iff (nodup_window hdistinct)).mpr fun x y hlink hy => ?_
    obtain ⟨raw, hraw, rfl, hparent⟩ := mem_rawLinks.mp hlink
    rw [List.map_map] at hy
    obtain ⟨other, hother, rfl⟩ := List.mem_map.mp hy
    by_contra hne
    obtain ⟨hreply, hrepost⟩ := hunnamed raw hraw other hother (Ne.symm hne)
    exact (parentOf_eq_some hparent).elim hreply hrepost
  have hkeys : (((intake.posts 𝕜 raws key cutoff).map GraphPost.link).map Prod.fst).Perm
      ((((intake.window raws key cutoff).map rawLink).map Prod.fst).map intake.postId) :=
    keys_perm hstr hdistinct
  have hnodup := hkeys.nodup_iff.mpr ((nodup_window hdistinct).map (postId_injective hstr))
  have hzero := (propagationDepth_eq_zero_iff hnodup).mp (h.depth.trans hflat)
  intro raw hraw other hother hne hnamed
  obtain ⟨hreply, hrepost⟩ := hunnamed raw hraw other hother hne
  rcases hnamed with heq | heq | heq
  · exact absurd heq hreply
  · exact absurd heq hrepost
  · have hlink := (mem_links (𝕜 := 𝕜) hstr hdistinct).mpr
      (mem_rawLinks.mpr ⟨raw, hraw, rfl, heq⟩)
    have hmem : intake.postId other.sourcePostId ∈
        ((intake.posts 𝕜 raws key cutoff).map GraphPost.link).map Prod.fst := by
      refine hkeys.mem_iff.mpr (List.mem_map_of_mem ?_)
      exact List.mem_map_of_mem (f := Prod.fst) (List.mem_map_of_mem (f := rawLink) hother)
    exact absurd (postId_injective hstr (hzero _ _ hlink hmem)) (Ne.symm hne)

/-- **Which links survive.**  It is enough that no post of the window names another one; and that is
needed, unless an identifier is derived from itself. -/
theorem linksSurvive_iff (𝕜 : Type) (intake : Intake) (raws : List RawThreadPost) (key : WindowKey)
    (cutoff : Datetime) (hstr : Function.Injective intake.parser.str)
    (hdistinct : (raws.map fun raw => raw.sourcePostId).Nodup) :
    (intake.NamesNoOther raws key cutoff → intake.LinksSurvive 𝕜 raws key cutoff) ∧
      ((∀ raw ∈ intake.window raws key cutoff,
          intake.postId raw.sourcePostId ≠ raw.sourcePostId) →
        intake.LinksSurvive 𝕜 raws key cutoff → intake.NamesNoOther raws key cutoff) := by
  refine ⟨fun h => ⟨h.depth hstr hdistinct, fun raw hraw other hother hne => ?_⟩,
    fun hderived h => h.namesNoOther hstr hdistinct hderived⟩
  constructor
  · intro heq
    exact heq.trans (congrArg some (h raw hraw other hother hne (Or.inl heq)).symm)
  · intro heq
    exact heq.trans (congrArg some (h raw hraw other hother hne (Or.inr (Or.inl heq))).symm)

end Links

end Intake

/-- The demo asset, and posts of the synthetic provider. -/
def demoIntake : Intake where
  parser :=
    { unicode := Ingestion.asciiLetters
      str := fun id => id.name
      pseudonymize := fun platform author => platform ++ ":" ++ author }
  resolver :=
    ⟨.ofAssets Ingestion.asciiLetters [⟨"S2MUSDT", "S2M", "Scam2Market Demo Asset"⟩],
      "asset-resolver-v1"⟩
  source := "synthetic-social-v1"
  scopeId := "LIVE"

theorem demoIntake_str : Function.Injective demoIntake.parser.str := by
  rintro ⟨name⟩ ⟨name'⟩ heq
  exact congrArg Uuid.mk heq

/-- A post about the demo asset, of the first half minute. -/
def demoPost (sourcePostId : String) (repostOf : Option String) : RawThreadPost where
  sourcePostId := sourcePostId
  platform := "synthetic"
  rawAuthorId := "actor-0"
  eventTime := 30000000
  text := "$S2M breakout incoming"
  repostOf := repostOf

/-- A repost of the first post. -/
def demoThread : List RawThreadPost :=
  [demoPost "synthetic-post-000" none, demoPost "synthetic-post-001" (some "synthetic-post-000")]

/-- The first minute. -/
def demoWindow : WindowKey :=
  ⟨"LIVE", "S2MUSDT", 0, 60⟩

/-- The repost is lost: the raw posts have depth one, the normalised ones none. -/
theorem repost_lost : (demoThread.map fun raw => raw.sourcePostId).Nodup ∧
    ¬ demoIntake.LinksSurvive ℚ demoThread demoWindow 60000000 := by
  refine ⟨by decide +kernel, fun h => ?_⟩
  have hstored : propagationDepth ((demoIntake.posts ℚ demoThread demoWindow 60000000).map
      GraphPost.link) = 0 := by decide +kernel
  have hraw : propagationDepth ((demoIntake.window demoThread demoWindow 60000000).map rawLink) = 1 := by
    decide +kernel
  exact absurd (hstored.symm.trans (h.depth.trans hraw)) Nat.zero_ne_one

/-- Posts that do not name one another. -/
theorem linksSurvive_iff_unnamed : demoIntake.LinksSurvive ℚ
    [demoPost "synthetic-post-000" none, demoPost "synthetic-post-001" (some "elsewhere")] demoWindow
      60000000 := by
  refine (Intake.linksSurvive_iff ℚ demoIntake _ demoWindow 60000000 demoIntake_str
    (by decide +kernel)).1 ?_
  unfold Intake.NamesNoOther
  decide +kernel

end Narratives
end Scam2Market
