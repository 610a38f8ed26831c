import Scam2Market.Features.Engine
import Scam2Market.Library.Lists
import Scam2Market.Streaming.MarketEvents

/-!
# The signals of an event

`features/signals.py`: `market_signal` makes one signal of a market event, and `social_signals` makes,
for every asset that is mentioned in a post, one signal about the post and one about each mention.  The
feature worker adds signals about the health of the source.

The ids of the signals of a mention event start with its id.

* `nodup_socialSignals`: the signals of a post have distinct ids.
* `eventId_eq_of_mem_socialSignals`: a signal belongs to one mention event only.
* `eventId_ne_of_mem_qualitySignals`: it is not one about the health of a source.
-/

namespace Scam2Market
namespace Features

open Streaming (AssetMention MarketDatum MarketEvent MentionEvent OrderBookUpdate SocialPost UuidText)

/-! ## Ids -/

/-- `f"{event.event_id}:{suffix}"`. -/
def signalId (eventId : UuidText) (suffix : String) : String :=
  eventId.text ++ ":" ++ suffix

/-- The text of an id says which event it belongs to. -/
theorem signalId_inj {eventId eventId' : UuidText} {suffix suffix' : String}
    (h : signalId eventId suffix = signalId eventId' suffix') :
    eventId = eventId' ∧ suffix = suffix' := by
  have hlist := congrArg String.toList h
  simp only [signalId, String.toList_append] at hlist
  have hsplit : eventId.text.toList ++ ':' :: suffix.toList =
      eventId'.text.toList ++ ':' :: suffix'.toList := by
    simpa using hlist
  obtain ⟨hid, hsuffix⟩ :=
    Library.append_cons_inj_of_notMem_left eventId.plain eventId'.plain hsplit
  exact ⟨UuidText.ext (String.toList_injective hid), String.toList_injective hsuffix⟩

/-- `f"post:{asset_id}"`. -/
def postSuffix (assetId : String) : String :=
  "post:" ++ assetId

/-- `f"mention:{asset_id}:{index}"`. -/
def mentionSuffix (assetId : String) (index : ℕ) : String :=
  "mention:" ++ (assetId ++ ":" ++ index.repr)

/-- `f"quality:{asset_id}"`. -/
def qualitySuffix (assetId : String) : String :=
  "quality:" ++ assetId

theorem repr_injective {m n : ℕ} (h : m.repr = n.repr) : m = n := by
  have hdigits := congrArg String.toList h
  rw [Nat.toList_repr, Nat.toList_repr] at hdigits
  rw [← Nat.ofDigitChars_ten_toDigits (n := m), hdigits, Nat.ofDigitChars_ten_toDigits]

/-- A number is written without a colon. -/
theorem colon_notMem_repr (n : ℕ) : ':' ∉ n.repr.toList := by
  intro h
  rw [Nat.toList_repr] at h
  exact absurd (Nat.isDigit_of_mem_toDigits (by decide) (by decide) h) (by decide)

theorem postSuffix_inj {assetId assetId' : String} (h : postSuffix assetId = postSuffix assetId') :
    assetId = assetId' := by
  have hlist := congrArg String.toList h
  simp only [postSuffix, String.toList_append, List.append_cancel_left_eq] at hlist
  exact String.toList_injective hlist

/-- The index stands after the last colon. -/
theorem mentionSuffix_inj {assetId assetId' : String} {index index' : ℕ}
    (h : mentionSuffix assetId index = mentionSuffix assetId' index') :
    assetId = assetId' ∧ index = index' := by
  have hlist := congrArg String.toList h
  simp only [mentionSuffix, String.toList_append, List.append_cancel_left_eq] at hlist
  have hsplit : assetId.toList ++ ':' :: index.repr.toList =
      assetId'.toList ++ ':' :: index'.repr.toList := by
    simpa using hlist
  obtain ⟨hasset, hindex⟩ := Library.append_cons_inj_of_notMem_right (colon_notMem_repr index)
    (colon_notMem_repr index') hsplit
  exact ⟨String.toList_injective hasset, repr_injective (String.toList_injective hindex)⟩

theorem postSuffix_ne_mentionSuffix (assetId assetId' : String) (index : ℕ) :
    postSuffix assetId ≠ mentionSuffix assetId' index := by
  intro h
  have hlist := congrArg String.toList h
  simp only [postSuffix, mentionSuffix, String.toList_append] at hlist
  exact absurd hlist (by simp)

theorem postSuffix_ne_qualitySuffix (assetId assetId' : String) :
    postSuffix assetId ≠ qualitySuffix assetId' := by
  intro h
  have hlist := congrArg String.toList h
  simp only [postSuffix, qualitySuffix, String.toList_append] at hlist
  exact absurd hlist (by simp)

theorem mentionSuffix_ne_qualitySuffix (assetId assetId' : String) (index : ℕ) :
    mentionSuffix assetId index ≠ qualitySuffix assetId' := by
  intro h
  have hlist := congrArg String.toList h
  simp only [mentionSuffix, qualitySuffix, String.toList_append] at hlist
  exact absurd hlist (by simp)

/-! ## Market signals -/

/-- `value`, or null. -/
def optionalText (value : Option String) : Json :=
  match value with
  | some text => .str text
  | none => .null

/-- `value`, or null. -/
def optionalNumber (value : Option ℚ) : Json :=
  match value with
  | some number => .float number
  | none => .null

/-- `stored or sum(quantity for _, quantity in levels[:5])`. -/
def storedDepth (stored : Option ℚ) (levels : List (ℚ × ℚ)) : ℚ :=
  match stored with
  | some depth => if depth ≠ 0 then depth else Streaming.topDepth levels
  | none => Streaming.topDepth levels

/-- What is reported about an order book. -/
def bookValues (quality : JsonObject) (book : OrderBookUpdate) : JsonObject :=
  let bookValid := (quality.getD "book_valid" (.bool true)).truthy
  let bidDepth := storedDepth book.topBidDepth book.bids
  let askDepth := storedDepth book.topAskDepth book.asks
  let totalDepth := bidDepth + askDepth
  .ofFields [("spread", if bookValid then optionalNumber book.spread else .null),
    ("top_n_depth", if bookValid ∧ totalDepth ≠ 0 then .float totalDepth else .null),
    ("imbalance", if bookValid ∧ totalDepth ≠ 0 then .float ((bidDepth - askDepth) / totalDepth)
      else .null),
    ("book_valid", .bool bookValid)]

/-- `market_signal(event, datum)`. -/
def marketSignal (event : MarketEvent) (datum : MarketDatum) : FeatureSignal where
  eventId := event.eventId.text
  scopeId := event.scopeId
  assetId := event.assetId
  eventTime := event.eventTime
  ingestedAt := event.ingestedAt
  kind := match datum with
    | .trade _ => .marketTrade
    | .candle _ => .marketCandle
    | .book _ => .orderbook
  sourceDomain := .market
  values := match datum with
    | .trade trade => .ofFields [("price", .float trade.price), ("quantity", .float trade.quantity),
        ("side", optionalText trade.side)]
    | .candle candle => .ofFields [("open", .float candle.openPrice), ("high", .float candle.high),
        ("low", .float candle.low), ("close", .float candle.close), ("volume", .float candle.volume)]
    | .book book => bookValues event.quality book

/-! ## Social signals -/

/-- The signal about the post. -/
def postSignal (event : MentionEvent) (post : SocialPost) (assetId : String) : FeatureSignal where
  eventId := signalId event.eventId (postSuffix assetId)
  scopeId := event.scopeId
  assetId := assetId
  eventTime := post.eventTime
  ingestedAt := event.ingestedAt
  kind := .socialPost
  sourceDomain := .social
  values := .ofFields [("author_id", .str post.authorId), ("hashtags", .list (post.hashtags.map .str)),
    ("cashtags", .list (post.cashtags.map .str)), ("urls", .list (post.urls.map .str)),
    ("reply_to", optionalText post.replyTo), ("repost_of", optionalText post.repostOf)]

/-- The signal about a mention; `index` counts the mentions of the asset from one. -/
def mentionSignal (event : MentionEvent) (post : SocialPost) (assetId : String) (index : ℕ)
    (mention : AssetMention) : FeatureSignal where
  eventId := signalId event.eventId (mentionSuffix assetId index)
  scopeId := event.scopeId
  assetId := assetId
  eventTime := post.eventTime
  ingestedAt := event.ingestedAt
  kind := .assetMention
  sourceDomain := .social
  values := .ofFields [("confidence", .float mention.confidence),
    ("resolver_version", .str mention.resolverVersion)]

/-- The assets that are mentioned, in order. -/
def mentionedAssets (mentions : List AssetMention) : List String :=
  (mentions.filterMap AssetMention.assetId).dedup.insertionSort (· ≤ ·)

/-- The signals about an asset. -/
def assetSignals (event : MentionEvent) (post : SocialPost) (mentions : List AssetMention)
    (assetId : String) : List FeatureSignal :=
  postSignal event post assetId ::
    ((mentions.filter fun mention => mention.assetId = some assetId).zipIdx 1).map fun item =>
      mentionSignal event post assetId item.2 item.1

/-- `social_signals(event, post, mentions)`. -/
def socialSignals (event : MentionEvent) (post : SocialPost) (mentions : List AssetMention) :
    List FeatureSignal :=
  (mentionedAssets mentions).flatMap (assetSignals event post mentions)

/-! ## Signals about the health of a source -/

/-- What is reported about the health of a source. -/
def qualityValues (domain : String) (health : JsonObject) : JsonObject :=
  .ofFields [("domain", .str domain),
    ("source_gap_count", health.getD "sequence_gap_count" (.int 0)),
    ("status", health.getD "status" .null),
    ("source_active", health.getD "source_active" (.bool true)),
    ("source_idle", health.getD "source_idle" (.bool false)),
    ("source_degraded", health.getD "source_degraded" (.bool false))]

/-- The signal about the source of a market event. -/
def marketQualitySignal (event : MarketEvent) (health : JsonObject) : FeatureSignal where
  eventId := signalId event.eventId "quality"
  scopeId := event.scopeId
  assetId := event.assetId
  eventTime := event.eventTime
  ingestedAt := event.ingestedAt
  kind := .dataQuality
  sourceDomain := .market
  values := qualityValues "market" health

/-- The signal about the source of a mention event, for an asset. -/
def socialQualitySignal (event : MentionEvent) (health : JsonObject) (assetId : String) :
    FeatureSignal where
  eventId := signalId event.eventId (qualitySuffix assetId)
  scopeId := event.scopeId
  assetId := assetId
  eventTime := event.eventTime
  ingestedAt := event.ingestedAt
  kind := .dataQuality
  sourceDomain := .social
  values := qualityValues "social" health

/-- One for each asset of the signals, in order. -/
def socialQualitySignals (event : MentionEvent) (signals : List FeatureSignal) (health : JsonObject) :
    List FeatureSignal :=
  ((signals.map FeatureSignal.assetId).dedup.insertionSort (· ≤ ·)).map
    (socialQualitySignal event health)

/-! ## Which ids the signals have -/

/-- The id of a signal about an asset. -/
theorem eventId_of_mem_assetSignals {event : MentionEvent} {post : SocialPost}
    {mentions : List AssetMention} {assetId : String} {signal : FeatureSignal}
    (h : signal ∈ assetSignals event post mentions assetId) :
    signal.eventId = signalId event.eventId (postSuffix assetId) ∨
      ∃ index, signal.eventId = signalId event.eventId (mentionSuffix assetId index) := by
  rcases List.mem_cons.mp h with rfl | h
  · exact Or.inl rfl
  · obtain ⟨item, -, rfl⟩ := List.mem_map.mp h
    exact Or.inr ⟨item.2, rfl⟩

/-- The signals about an asset have distinct ids. -/
theorem nodup_assetSignals (event : MentionEvent) (post : SocialPost) (mentions : List AssetMention)
    (assetId : String) :
    ((assetSignals event post mentions assetId).map FeatureSignal.eventId).Nodup := by
  let own := mentions.filter fun mention => mention.assetId = some assetId
  have hmap : (assetSignals event post mentions assetId).map FeatureSignal.eventId =
      signalId event.eventId (postSuffix assetId) ::
        (((own.zipIdx 1).map Prod.snd).map fun index =>
          signalId event.eventId (mentionSuffix assetId index)) := by
    rw [assetSignals, List.map_cons, List.map_map, List.map_map]
    rfl
  rw [hmap, List.zipIdx_map_snd, List.nodup_cons]
  constructor
  · intro hmem
    obtain ⟨index, -, heq⟩ := List.mem_map.mp hmem
    exact postSuffix_ne_mentionSuffix assetId assetId index (signalId_inj heq).2.symm
  · refine List.Nodup.map (fun index index' heq => ?_) List.nodup_range'
    exact (mentionSuffix_inj (signalId_inj heq).2).2

/-- Signals about different assets have different ids. -/
theorem assetId_eq_of_eventId_eq {event : MentionEvent} {post : SocialPost}
    {mentions : List AssetMention} {assetId assetId' : String} {signal signal' : FeatureSignal}
    (h : signal ∈ assetSignals event post mentions assetId)
    (h' : signal' ∈ assetSignals event post mentions assetId')
    (heq : signal.eventId = signal'.eventId) : assetId = assetId' := by
  rcases eventId_of_mem_assetSignals h with hid | ⟨index, hid⟩
  · rcases eventId_of_mem_assetSignals h' with hid' | ⟨index', hid'⟩
    · exact postSuffix_inj (signalId_inj (hid.symm.trans (heq.trans hid'))).2
    · exact absurd (signalId_inj (hid.symm.trans (heq.trans hid'))).2
        (postSuffix_ne_mentionSuffix assetId assetId' index')
  · rcases eventId_of_mem_assetSignals h' with hid' | ⟨index', hid'⟩
    · exact absurd (signalId_inj (hid.symm.trans (heq.trans hid'))).2.symm
        (postSuffix_ne_mentionSuffix assetId' assetId index)
    · exact (mentionSuffix_inj (signalId_inj (hid.symm.trans (heq.trans hid'))).2).1

/-- **The signals of a post have distinct ids.** -/
theorem nodup_socialSignals (event : MentionEvent) (post : SocialPost)
    (mentions : List AssetMention) :
    ((socialSignals event post mentions).map FeatureSignal.eventId).Nodup := by
  have hassets : (mentionedAssets mentions).Nodup :=
    (List.perm_insertionSort _ _).nodup_iff.mpr (List.nodup_dedup _)
  rw [socialSignals, List.map_flatMap, List.nodup_flatMap]
  refine ⟨fun assetId _ => nodup_assetSignals event post mentions assetId, ?_⟩
  refine hassets.imp fun {assetId assetId'} hne => ?_
  intro id hid hid'
  obtain ⟨signal, hsignal, rfl⟩ := List.mem_map.mp hid
  obtain ⟨signal', hsignal', heq⟩ := List.mem_map.mp hid'
  exact hne (assetId_eq_of_eventId_eq hsignal hsignal' heq.symm)

/-- A signal of a mention event has an id of the event. -/
theorem eventId_of_mem_socialSignals {event : MentionEvent} {post : SocialPost}
    {mentions : List AssetMention} {signal : FeatureSignal}
    (h : signal ∈ socialSignals event post mentions) :
    ∃ suffix, signal.eventId = signalId event.eventId suffix ∧
      ∀ assetId, suffix ≠ qualitySuffix assetId := by
  obtain ⟨assetId, -, hmem⟩ := List.mem_flatMap.mp h
  rcases eventId_of_mem_assetSignals hmem with hid | ⟨index, hid⟩
  · exact ⟨_, hid, postSuffix_ne_qualitySuffix assetId⟩
  · exact ⟨_, hid, fun assetId' => mentionSuffix_ne_qualitySuffix assetId assetId' index⟩

/-- **A signal belongs to one mention event.** -/
theorem eventId_eq_of_mem_socialSignals {event event' : MentionEvent} {post post' : SocialPost}
    {mentions mentions' : List AssetMention} {signal signal' : FeatureSignal}
    (h : signal ∈ socialSignals event post mentions)
    (h' : signal' ∈ socialSignals event' post' mentions')
    (heq : signal.eventId = signal'.eventId) : event.eventId = event'.eventId := by
  obtain ⟨suffix, hid, -⟩ := eventId_of_mem_socialSignals h
  obtain ⟨suffix', hid', -⟩ := eventId_of_mem_socialSignals h'
  exact (signalId_inj (hid.symm.trans (heq.trans hid'))).1

/-- A signal about a post is none about the health of a source. -/
theorem eventId_ne_of_mem_qualitySignals {event event' : MentionEvent} {post : SocialPost}
    {mentions : List AssetMention} {signals : List FeatureSignal} {health : JsonObject}
    {signal signal' : FeatureSignal} (h : signal ∈ socialSignals event post mentions)
    (h' : signal' ∈ socialQualitySignals event' signals health) :
    signal.eventId ≠ signal'.eventId := by
  intro heq
  obtain ⟨suffix, hid, hsuffix⟩ := eventId_of_mem_socialSignals h
  obtain ⟨assetId, -, rfl⟩ := List.mem_map.mp h'
  exact hsuffix assetId (signalId_inj (hid.symm.trans heq)).2

/-- A signal of a mention event is of its scope. -/
theorem scopeId_of_mem_socialSignals {event : MentionEvent} {post : SocialPost}
    {mentions : List AssetMention} {signal : FeatureSignal}
    (h : signal ∈ socialSignals event post mentions) : signal.scopeId = event.scopeId := by
  obtain ⟨assetId, -, hmem⟩ := List.mem_flatMap.mp h
  rcases List.mem_cons.mp hmem with rfl | hmem
  · rfl
  · obtain ⟨item, -, rfl⟩ := List.mem_map.mp hmem
    rfl

end Features
end Scam2Market
