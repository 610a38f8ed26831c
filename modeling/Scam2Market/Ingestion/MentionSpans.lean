import Mathlib.Data.List.Pairwise
import Scam2Market.Features.Signals
import Scam2Market.Ingestion.AssetMentions

/-!
# Where the mentions of a post stand

The matches of the patterns are merged by their spans, and by nothing else.

* The matches of one pattern are apart (`not_overlaps_of_spansOf`), and so are cashtags and hashtags
  (`not_overlaps_of_tags`): no mark is a character of a tag.
* The mentions are the matches of all patterns, one for each span (`mem_keys_matchesIn`).
* So two mentions overlap exactly if a match of an alias overlaps another match: `wellPlaced_iff`.
-/

namespace Scam2Market
namespace Ingestion

open Intelligence (isAlnum)
open Library (Matcher OrderedDict lastOr mem_scanFrom pairwise_scanFrom scan)
open Streaming (MentionEvent SocialPost)

/-- Two spans have a place in common. -/
def Overlaps (a b : Span) : Prop :=
  max a.1 b.1 < min a.2 b.2

instance (a b : Span) : Decidable (Overlaps a b) :=
  inferInstanceAs (Decidable (_ < _))

theorem Overlaps.symm {a b : Span} (h : Overlaps a b) : Overlaps b a := by
  rw [Overlaps, max_comm, min_comm]
  exact h

instance : Std.Symm fun a b => ¬ Overlaps a b :=
  ⟨fun _ _ h hba => h hba.symm⟩

/-- The pattern matches the text at the span. -/
def MatchesAt (m : Matcher Char) (text : List Char) (span : Span) : Prop :=
  ∃ front back n, text = front ++ back ∧ span = (front.length, front.length + n) ∧
    m (lastOr none front) back = some n

theorem matchesAt_of_mem_spansOf {m : Matcher Char} {text : List Char} {span : Span}
    (h : span ∈ spansOf m text) : MatchesAt m text span := by
  obtain ⟨⟨i, n⟩, hmem, rfl⟩ := List.mem_map.mp h
  obtain ⟨front, back, hsplit, hi, -, hmatch⟩ := mem_scanFrom hmem
  rw [Nat.zero_add] at hi
  exact ⟨front, back, n, hsplit, by rw [hi], hmatch⟩

/-! ## Matches that are apart -/

/-- **The matches of one pattern are apart.** -/
theorem not_overlaps_of_spansOf {m : Matcher Char} {text : List Char} {a b : Span}
    (ha : a ∈ spansOf m text) (hb : b ∈ spansOf m text) (hne : a ≠ b) : ¬ Overlaps a b := by
  have hpairwise : (spansOf m text).Pairwise fun a b => ¬ Overlaps a b := by
    refine List.pairwise_map.mpr ((pairwise_scanFrom m 0 none 0 text).imp ?_)
    rintro ⟨i, n⟩ ⟨j, k⟩ ⟨-, hle⟩ hover
    have hplace : max i j < min (i + n) (j + k) := hover
    have hend : i + n ≤ j := hle
    omega
  exact hpairwise.forall ha hb hne

variable {u : UnicodeData}

/-- What a tag looks like: its mark, and no other character but those of the tag. -/
theorem getElem?_of_tagAt {mark : Char} {first rest : Char → Bool} {most n : ℕ} {prev : Option Char}
    {text : List Char} (h : u.tagAt mark first rest most prev text = some n) :
    text[0]? = some mark ∧
      ∀ k c, 0 < k → k < n → text[k]? = some c → first c = true ∨ rest c = true := by
  match text, h with
  | c :: d :: text, h =>
    simp only [UnicodeData.tagAt] at h
    obtain ⟨⟨-, rfl, hfirst⟩, hn⟩ := Option.ite_none_right_eq_some.mp h
    rw [Option.some.injEq] at hn
    refine ⟨rfl, fun k e hk hkn he => ?_⟩
    obtain ⟨k, rfl⟩ := Nat.exists_eq_succ_of_ne_zero hk.ne'
    cases k with
    | zero =>
      have hde : d = e := Option.some.inj he
      exact Or.inl (hde ▸ hfirst)
    | succ k =>
      have hprefix : (text.takeWhile rest).take most <+: text :=
        (List.take_prefix _ _).trans (List.takeWhile_prefix _)
      have hlt : k < ((text.takeWhile rest).take most).length := by omega
      have hmem : e ∈ (text.takeWhile rest).take most := by
        have hget : text[k]? = some e := he
        rw [List.prefix_iff_getElem?.mp hprefix k hlt, Option.some.injEq] at hget
        exact hget ▸ List.getElem_mem hlt
      exact Or.inr (List.mem_takeWhile_imp (List.mem_of_mem_take hmem))

/-- A mark does not stand within another tag. -/
theorem not_lt_of_tagAt {text front front' back back' : List Char} {mark mark' : Char}
    {first rest first' rest' : Char → Bool} {most most' n n' : ℕ}
    (hsplit : text = front ++ back) (hsplit' : text = front' ++ back')
    (h : u.tagAt mark first rest most (lastOr none front) back = some n)
    (h' : u.tagAt mark' first' rest' most' (lastOr none front') back' = some n')
    (hmark : first mark' = false ∧ rest mark' = false) (hlt : front.length < front'.length) :
    front.length + n ≤ front'.length := by
  by_contra hin
  have hplace : text[front'.length]? = some mark' := by
    rw [hsplit', List.getElem?_append_right le_rfl, Nat.sub_self]
    exact (getElem?_of_tagAt h').1
  rw [hsplit, List.getElem?_append_right hlt.le] at hplace
  rcases (getElem?_of_tagAt h).2 _ mark' (by omega) (by omega) hplace with hc | hc
  · exact absurd hc (by rw [hmark.1]; exact Bool.false_ne_true)
  · exact absurd hc (by rw [hmark.2]; exact Bool.false_ne_true)

/-- **A cashtag and a hashtag are apart.** -/
theorem not_overlaps_of_tags {text : List Char} {a b : Span} (ha : a ∈ spansOf u.cashtagAt text)
    (hb : b ∈ spansOf u.hashtagAt text) : ¬ Overlaps a b := by
  obtain ⟨front, back, n, hsplit, rfl, h⟩ := matchesAt_of_mem_spansOf ha
  obtain ⟨front', back', n', hsplit', rfl, h'⟩ := matchesAt_of_mem_spansOf hb
  intro hover
  have hplace : max front.length front'.length < min (front.length + n) (front'.length + n') := hover
  rcases Nat.lt_trichotomy front.length front'.length with hlt | heq | hlt
  · have hle := not_lt_of_tagAt hsplit hsplit' h h' (by decide) hlt
    omega
  · obtain ⟨-, rfl⟩ := List.append_inj (hsplit.symm.trans hsplit') heq
    have hmarks : some '$' = some '#' :=
      (getElem?_of_tagAt h).1.symm.trans (getElem?_of_tagAt h').1
    exact absurd hmarks (by decide)
  · have hle := not_lt_of_tagAt hsplit' hsplit h' h (by decide) hlt
    omega

/-! ## The mentions -/

section Keys

variable {text : List Char} {span : Span}

/-- What a loop adds to the keys. -/
theorem mem_keys_foldl {α β γ : Type*} (f : OrderedDict β γ → α → OrderedDict β γ)
    (adds : α → β → Prop) (hf : ∀ d a k, k ∈ (f d a).keys ↔ k ∈ d.keys ∨ adds a k) (l : List α)
    (d : OrderedDict β γ) (k : β) :
    k ∈ (l.foldl f d).keys ↔ k ∈ d.keys ∨ ∃ a ∈ l, adds a k := by
  induction l generalizing d with
  | nil => simp
  | cons a l ih =>
    rw [List.foldl_cons, ih, hf, or_assoc, List.exists_mem_cons_iff]

theorem mem_keys_addTags {found : Matches} {pattern : Matcher Char × MatchKind} :
    span ∈ (addTags text found pattern).keys ↔ span ∈ found.keys ∨ span ∈ spansOf pattern.1 text := by
  refine (mem_keys_foldl _ (fun a k => k = a) (fun d a k => OrderedDict.mem_keys_set) _ found
    span).trans ?_
  exact or_congr_right ⟨fun ⟨_, hmem, heq⟩ => heq ▸ hmem, fun hmem => ⟨span, hmem, rfl⟩⟩

theorem mem_keys_addBare {found : Matches} {other : Span} :
    span ∈ (addBare text found other).keys ↔ span ∈ found.keys ∨ span = other := by
  rw [addBare]
  split_ifs with hmem
  · exact ⟨Or.inl, fun h => h.elim id fun heq => heq ▸ hmem⟩
  · exact OrderedDict.mem_keys_set

/-- The patterns of a registry. -/
inductive Names (u : UnicodeData) (registry : AssetRegistry) : Matcher Char → Prop
  | tag {pattern : Matcher Char × MatchKind} (h : pattern ∈ u.tagPatterns) :
    Names u registry pattern.1
  | ofAlias {name : String} (h : name ∈ registry.aliases.keys) : Names u registry (aliasAt u name)

/-- **The spans of the mentions** are those of the matches of all patterns. -/
theorem mem_keys_matchesIn {registry : AssetRegistry} :
    span ∈ (u.matchesIn registry text).keys ↔ ∃ m, Names u registry m ∧ span ∈ spansOf m text := by
  have hbare : ∀ (d : Matches) name k,
      k ∈ ((spansOf (aliasAt u name) text).foldl (addBare text) d).keys ↔
        k ∈ d.keys ∨ k ∈ spansOf (aliasAt u name) text := by
    intro d name k
    refine (mem_keys_foldl _ (fun a k => k = a) (fun d a k => mem_keys_addBare) _ d k).trans ?_
    exact or_congr_right ⟨fun ⟨_, hmem, heq⟩ => heq ▸ hmem, fun hmem => ⟨k, hmem, rfl⟩⟩
  rw [UnicodeData.matchesIn, mem_keys_foldl _ _ hbare,
    mem_keys_foldl (addTags text) (fun pattern k => k ∈ spansOf pattern.1 text)
      fun d pattern k => mem_keys_addTags]
  simp only [OrderedDict.keys_empty, List.not_mem_nil, false_or, UnicodeData.sortedAliases,
    List.mem_insertionSort]
  constructor
  · rintro (⟨pattern, hpattern, hmem⟩ | ⟨name, hname, hmem⟩)
    · exact ⟨_, .tag hpattern, hmem⟩
    · exact ⟨_, .ofAlias hname, hmem⟩
  · rintro ⟨m, hm, hmem⟩
    cases hm with
    | tag hpattern => exact Or.inl ⟨_, hpattern, hmem⟩
    | ofAlias hname => exact Or.inr ⟨_, hname, hmem⟩

end Keys

/-- The mentions have the spans of the matches. -/
theorem map_span_resolve (resolver : AssetMentionResolver) (u : UnicodeData) (postId text : String) :
    ((resolver.resolve u postId text).map ResolvedMention.span).Perm
      (u.matchesIn resolver.registry (u.normalize text).toList).keys := by
  rw [AssetMentionResolver.resolve, List.map_map]
  exact (List.perm_insertionSort _ _).map Prod.fst

theorem mem_map_span_resolve {resolver : AssetMentionResolver} {u : UnicodeData}
    {postId text : String} {span : Span} (hnormal : u.normalize text = text) :
    span ∈ (resolver.resolve u postId text).map ResolvedMention.span ↔
      ∃ m, Names u resolver.registry m ∧ span ∈ spansOf m text.toList := by
  rw [(map_span_resolve resolver u postId text).mem_iff, hnormal, mem_keys_matchesIn]

theorem length_of_mem_spansOf_aliasAt {u : UnicodeData} {name : String} {text : List Char}
    {span : Span} (h : span ∈ spansOf (aliasAt u name) text) : span.2 = span.1 + name.length := by
  obtain ⟨front, back, n, -, rfl, hmatch⟩ := matchesAt_of_mem_spansOf h
  obtain ⟨-, hn⟩ := Option.ite_none_right_eq_some.mp hmatch
  rw [← Option.some.inj hn]

/-! ## Mentions that do not overlap -/

/-- No match of an alias overlaps a tag or a match of another alias, except with the same span. -/
def AliasesApart (u : UnicodeData) (registry : AssetRegistry) (text : List Char) : Prop :=
  ∀ name ∈ registry.aliases.keys, ∀ span ∈ spansOf (aliasAt u name) text,
    (∀ pattern ∈ u.tagPatterns, ∀ other ∈ spansOf pattern.1 text, span ≠ other →
      ¬ Overlaps span other) ∧
    ∀ name' ∈ registry.aliases.keys, name ≠ name' → ∀ other ∈ spansOf (aliasAt u name') text,
      span ≠ other → ¬ Overlaps span other

section Apart

variable {registry : AssetRegistry} {text : List Char} {m m' : Matcher Char} {a b : Span}

theorem not_overlaps_of_tagPatterns {pattern pattern' : Matcher Char × MatchKind}
    (h : pattern ∈ u.tagPatterns) (h' : pattern' ∈ u.tagPatterns) (ha : a ∈ spansOf pattern.1 text)
    (hb : b ∈ spansOf pattern'.1 text) (hne : a ≠ b) : ¬ Overlaps a b := by
  simp only [UnicodeData.tagPatterns, List.mem_cons, List.not_mem_nil, or_false] at h h'
  rcases h with rfl | rfl <;> rcases h' with rfl | rfl
  · exact not_overlaps_of_spansOf ha hb hne
  · exact not_overlaps_of_tags ha hb
  · exact fun hover => not_overlaps_of_tags hb ha hover.symm
  · exact not_overlaps_of_spansOf ha hb hne

/-- Matches of whatever patterns are apart, if those of the aliases are. -/
theorem AliasesApart.not_overlaps (h : AliasesApart u registry text) (hm : Names u registry m)
    (hm' : Names u registry m') (ha : a ∈ spansOf m text) (hb : b ∈ spansOf m' text) (hne : a ≠ b) :
    ¬ Overlaps a b := by
  cases hm with
  | tag hpattern =>
    cases hm' with
    | tag hpattern' => exact not_overlaps_of_tagPatterns hpattern hpattern' ha hb hne
    | ofAlias hname' =>
      exact fun hover => (h _ hname' b hb).1 _ hpattern a ha hne.symm hover.symm
  | @ofAlias name hname =>
    cases hm' with
    | tag hpattern' => exact (h _ hname a ha).1 _ hpattern' b hb hne
    | @ofAlias name' hname' =>
      by_cases heq : name = name'
      · subst heq
        exact not_overlaps_of_spansOf ha hb hne
      · exact (h _ hname a ha).2 _ hname' heq b hb hne

end Apart

/-! ## The signals about the mentions -/

section Signals

open Features (FeatureSignal assetSignals mentionSignal mentionedAssets postSignal socialSignals)

variable (event : MentionEvent) (post : SocialPost) (mentions : List Streaming.AssetMention)

/-- A signal about a mention of the asset. -/
def IsMentionOf (assetId : String) (signal : FeatureSignal) : Prop :=
  signal.kind = .assetMention ∧ signal.assetId = assetId

instance (assetId : String) : DecidablePred (IsMentionOf assetId) :=
  fun _ => inferInstanceAs (Decidable (_ ∧ _))

theorem countP_assetSignals_self (assetId : String) :
    (assetSignals event post mentions assetId).countP (fun signal => IsMentionOf assetId signal) =
      mentions.countP fun mention => mention.assetId = some assetId := by
  have hpost : ¬ IsMentionOf assetId (postSignal event post assetId) := fun h =>
    nomatch h.1
  rw [assetSignals, List.countP_cons_of_neg (by simpa using hpost), List.countP_map,
    List.countP_eq_length_filter (p := fun mention : Streaming.AssetMention => _),
    ← List.length_zipIdx (i := 1)]
  exact List.countP_eq_length.mpr fun item _ => decide_eq_true ⟨rfl, rfl⟩

theorem countP_assetSignals_of_ne {assetId assetId' : String} (hne : assetId' ≠ assetId) :
    (assetSignals event post mentions assetId').countP (fun signal => IsMentionOf assetId signal) =
      0 := by
  refine List.countP_eq_zero.mpr fun signal hmem => ?_
  have hasset : signal.assetId = assetId' := by
    rcases List.mem_cons.mp hmem with rfl | hmention
    · rfl
    · obtain ⟨item, -, rfl⟩ := List.mem_map.mp hmention
      rfl
  have hnot : ¬ IsMentionOf assetId signal := fun h => hne (hasset.symm.trans h.2)
  simpa using hnot

/-- **One signal for each mention of an asset.** -/
theorem countP_socialSignals (assetId : String) :
    (socialSignals event post mentions).countP (fun signal => IsMentionOf assetId signal) =
      mentions.countP fun mention => mention.assetId = some assetId := by
  have hsum := List.sum_map_eq_nsmul_single (l := mentionedAssets mentions) assetId
    (fun other => (assetSignals event post mentions other).countP fun signal =>
      IsMentionOf assetId signal)
    fun other hne _ => countP_assetSignals_of_ne event post mentions hne
  rw [socialSignals, List.countP_flatMap]
  refine hsum.trans ?_
  rw [countP_assetSignals_self]
  have hnodup : (mentionedAssets mentions).Nodup :=
    (List.perm_insertionSort _ _).nodup_iff.mpr (List.nodup_dedup _)
  by_cases hmem : assetId ∈ mentionedAssets mentions
  · rw [List.count_eq_one_of_mem hnodup hmem, one_nsmul]
  · rw [List.count_eq_zero.mpr hmem, zero_nsmul]
    refine (List.countP_eq_zero.mpr fun mention hmention heq => hmem ?_).symm
    rw [mentionedAssets, List.mem_insertionSort, List.mem_dedup, List.mem_filterMap]
    exact ⟨mention, hmention, of_decide_eq_true heq⟩

end Signals

/-! ## Which texts are resolved well -/

/-- The mentions stand apart, each where one of the patterns matches; the longer one of two aliases that
overlap is kept, and not the shorter one; an asset has a signal for each of its mentions. -/
structure WellPlaced (u : UnicodeData) (registry : AssetRegistry) (text : List Char)
    (mentions : List ResolvedMention) : Prop where
  apart : mentions.Pairwise fun mention other => ¬ Overlaps mention.span other.span
  placed : ∀ mention ∈ mentions, ∃ m, Names u registry m ∧ MatchesAt m text mention.span
  longest : ∀ name ∈ registry.aliases.keys, ∀ name' ∈ registry.aliases.keys,
    name'.length < name.length → ∀ span ∈ spansOf (aliasAt u name) text,
      ∀ other ∈ spansOf (aliasAt u name') text, Overlaps span other →
        span ∈ mentions.map ResolvedMention.span ∧ other ∉ mentions.map ResolvedMention.span
  counted : ∀ (event : MentionEvent) (post : SocialPost) (assetId : String),
    (Features.socialSignals event post (mentions.map ResolvedMention.toAssetMention)).countP
        (fun signal => IsMentionOf assetId signal) =
      mentions.countP fun mention => mention.assetId = some assetId

/-- **The mentions are apart exactly if the matches of the aliases are.** -/
theorem wellPlaced_iff (u : UnicodeData) (resolver : AssetMentionResolver) (postId text : String)
    (hnormal : u.normalize text = text) :
    WellPlaced u resolver.registry text.toList (resolver.resolve u postId text) ↔
      AliasesApart u resolver.registry text.toList := by
  constructor
  · intro h name hname span hspan
    have hpairwise : ((resolver.resolve u postId text).map ResolvedMention.span).Pairwise
        fun a b => ¬ Overlaps a b := List.pairwise_map.mpr h.apart
    have hkept : ∀ {m other}, Names u resolver.registry m → other ∈ spansOf m text.toList →
        other ∈ (resolver.resolve u postId text).map ResolvedMention.span := fun hm hother =>
      (mem_map_span_resolve hnormal).mpr ⟨_, hm, hother⟩
    have hmem := hkept (.ofAlias hname) hspan
    exact ⟨fun pattern hpattern other hother hne =>
        hpairwise.forall hmem (hkept (.tag hpattern) hother) hne,
      fun name' hname' _ other hother hne =>
        hpairwise.forall hmem (hkept (.ofAlias hname') hother) hne⟩
  · intro h
    refine ⟨?_, ?_, ?_, ?_⟩
    · have hperm := map_span_resolve resolver u postId text
      have hspans : ((resolver.resolve u postId text).map ResolvedMention.span).Pairwise
          fun a b => ¬ Overlaps a b := by
        refine (hperm.nodup_iff.mpr (OrderedDict.nodup_keys _)).imp_of_mem fun {a b} ha hb hne => ?_
        obtain ⟨m, hm, hspan⟩ := (mem_map_span_resolve hnormal).mp ha
        obtain ⟨m', hm', hspan'⟩ := (mem_map_span_resolve hnormal).mp hb
        exact h.not_overlaps hm hm' hspan hspan' hne
      exact List.pairwise_map.mp hspans
    · intro mention hmention
      obtain ⟨m, hm, hspan⟩ :=
        (mem_map_span_resolve hnormal).mp (List.mem_map_of_mem (f := ResolvedMention.span) hmention)
      exact ⟨m, hm, matchesAt_of_mem_spansOf hspan⟩
    · intro name hname name' hname' hlength span hspan other hother hover
      -- Matches of different lengths have different spans, so the overlap is one that is excluded.
      refine absurd hover ((h name hname span hspan).2 name' hname' ?_ other hother ?_)
      · rintro rfl
        exact lt_irrefl _ hlength
      · rintro rfl
        have hend := length_of_mem_spansOf_aliasAt hspan
        have hend' := length_of_mem_spansOf_aliasAt hother
        omega
    · intro event post assetId
      rw [countP_socialSignals, List.countP_map]
      rfl

/-- The asset of the tests: its name begins with its symbol. -/
def namedAsset : AssetMentionResolver where
  registry := .ofAssets asciiLetters [⟨"S2MUSDT", "S2M", "S2M asset"⟩]

/-- The name is two mentions. -/
theorem name_mentioned_twice : ¬ ∀ (u : UnicodeData) (assets : List Asset) (ambiguous : List String)
    (postId text : String), u.normalize text = text →
      WellPlaced u (AssetRegistry.ofAssets u assets ambiguous) text.toList
        (AssetMentionResolver.resolve ⟨.ofAssets u assets ambiguous, "asset-resolver-v1"⟩ u postId
          text) := by
  intro hclaim
  have hspans : (namedAsset.resolve asciiLetters "post-1" "S2M asset is moving").map
      ResolvedMention.span = [(0, 3), (0, 9)] := by decide +kernel
  have hwell : WellPlaced asciiLetters namedAsset.registry "S2M asset is moving".toList
      (namedAsset.resolve asciiLetters "post-1" "S2M asset is moving") :=
    hclaim asciiLetters [⟨"S2MUSDT", "S2M", "S2M asset"⟩] [] "post-1" "S2M asset is moving"
      (by decide +kernel)
  have hpairwise : ((namedAsset.resolve asciiLetters "post-1" "S2M asset is moving").map
      ResolvedMention.span).Pairwise fun a b => ¬ Overlaps a b := List.pairwise_map.mpr hwell.apart
  rw [hspans] at hpairwise
  exact absurd hpairwise (by decide)

/-- Tags and an alias that stand apart. -/
theorem wellPlaced_iff_tags : WellPlaced asciiLetters namedAsset.registry
    "buy $S2M, #S2M or s2m today".toList
    (namedAsset.resolve asciiLetters "post-1" "buy $S2M, #S2M or s2m today") := by
  refine (wellPlaced_iff asciiLetters namedAsset "post-1" "buy $S2M, #S2M or s2m today"
    (by decide +kernel)).mpr ?_
  unfold AliasesApart
  decide +kernel

end Ingestion
end Scam2Market
