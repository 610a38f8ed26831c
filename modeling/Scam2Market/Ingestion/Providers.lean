import Scam2Market.Library.StableSort
import Scam2Market.Ingestion.SequenceGaps
import Scam2Market.Ingestion.Services
import Mathlib.Data.Prod.Lex
import Mathlib.Data.String.Basic

/-!
# The sequence numbers of the providers

`ReplayProvider` of `ingestion/market.py`, `SocialReplayProvider` of `ingestion/social.py`, and
`RssSocialProvider` and `BinanceMarketProvider` of `ingestion/live_providers.py`: the events they emit, with
the numbers they put on them, and what the ingestion makes of these numbers.

* `Feed.numbered`: the assets or platforms in the order of emission, each with its number;
  `Feed.observed`: the observations of a service that ingests every event.
* `Feed.showsLoss_iff_scoped`: when a complete feed shows no gap and every gap shows what was lost,
  provider by provider.
* `twoAssets`: a replay of two assets, complete, with a gap.
-/

namespace Scam2Market
namespace Ingestion

open Library
open Streaming

/-! ## Events -/

/-- A trade, a candle or a book, with the id of its kind. -/
structure MarketRecord where
  datumId : String
  assetId : String
  eventTime : Datetime
  datum : MarketDatum

/-- A record of a replay; a bare record has no number of its own. -/
structure MarketProviderItem where
  datum : MarketRecord
  sourceSequence : Option ℤ := none

/-- What a provider emits. -/
structure ProviderEvent (π : Type) where
  eventId : Uuid String
  originEventId : String
  source : String
  sourceEventId : String
  sourceSequence : Option ℤ
  partitionKey : String
  eventTime : Datetime
  ingestedAt : Datetime
  replaySessionId : Option String := none
  payload : π

/-- `isinstance(datum, OrderBookUpdate)`. -/
def isOrderbook : MarketDatum → Bool
  | .book _ => true
  | _ => false

/-- What `MarketIngestionService.ingest` tells the tracker about an accepted event. -/
def ProviderEvent.observedMarket (event : ProviderEvent MarketRecord) : Observed where
  source := event.source
  assetId := event.payload.assetId
  eventTime := event.eventTime
  ingestedAt := event.ingestedAt
  sequence := event.sourceSequence
  isOrderbook := isOrderbook event.payload.datum

/-- What `SocialIngestionService.ingest` tells the tracker about an accepted event. -/
def ProviderEvent.observedSocial (event : ProviderEvent RawSocialPost) : Observed where
  source := event.source
  assetId := event.payload.platform
  eventTime := event.payload.eventTime
  ingestedAt := event.ingestedAt
  sequence := event.sourceSequence

/-- `replay_session_id or "standalone"`. -/
def sessionId : Option String → String
  | some session => if session = "" then "standalone" else session
  | none => "standalone"

/-- An event of a replay; `now` is what the clock reads. -/
def replayEvent {π : Type} (source : String) (session : Option String) (now : Datetime)
    (sourceEventId partitionKey : String) (eventTime : Datetime) (sequence : ℤ) (payload : π) :
    ProviderEvent π where
  eventId := ⟨s!"{source}:{sessionId session}:{sourceEventId}"⟩
  originEventId := s!"{source}:{sourceEventId}"
  source := source
  sourceEventId := sourceEventId
  sourceSequence := some sequence
  partitionKey := partitionKey
  eventTime := eventTime
  ingestedAt := if session.isSome then eventTime else now
  replaySessionId := session
  payload := payload

/-- An event of a live provider, `_market_event` and `_social_event`. -/
def liveEvent {π : Type} (source : String) (now : Datetime) (sourceEventId partitionKey : String)
    (eventTime : Datetime) (sequence : ℤ) (payload : π) : ProviderEvent π where
  eventId := ⟨s!"{source}:{sourceEventId}"⟩
  originEventId := s!"{source}:{sourceEventId}"
  source := source
  sourceEventId := sourceEventId
  sourceSequence := some sequence
  partitionKey := partitionKey
  eventTime := eventTime
  ingestedAt := now
  payload := payload

/-! ## Replays -/

/-- `sorted(items, key=...)`. -/
def sortItems (items : List MarketProviderItem) : List MarketProviderItem :=
  items.insertionSort fun a b =>
    toLex (a.datum.eventTime, toLex (a.datum.assetId, a.datum.datumId)) ≤
      toLex (b.datum.eventTime, toLex (b.datum.assetId, b.datum.datumId))

structure ReplayProvider where
  source : String := "market-replay"
  items : List MarketProviderItem

/-- `ReplayProvider(records)` on records without numbers. -/
def ReplayProvider.ofRecords (source : String) (records : List MarketRecord) : ReplayProvider where
  source := source
  items := sortItems (records.map fun record => { datum := record })

/-- `item.source_sequence or position`: zero is falsy. -/
def MarketProviderItem.sequence (item : MarketProviderItem) (position : ℕ) : ℤ :=
  match item.sourceSequence with
  | some sequence => if sequence = 0 then position else sequence
  | none => position

/-- The data of the replay and their numbers. -/
def ReplayProvider.numbered (provider : ReplayProvider) : List (MarketRecord × ℤ) :=
  (provider.items.zipIdx 1).map fun entry => (entry.1.datum, entry.1.sequence entry.2)

/-- `ReplayProvider.stream(session)`; `clock` is what the clock reads at each event. -/
def ReplayProvider.stream (provider : ReplayProvider) (session : Option String)
    (clock : ℕ → Datetime) : List (ProviderEvent MarketRecord) :=
  provider.numbered.zipIdx.map fun entry =>
    let record := entry.1.1
    replayEvent provider.source session (clock entry.2) record.datumId record.assetId
      record.eventTime entry.1.2 record

/-- `sorted(records, key=...)`. -/
def sortPosts (posts : List RawSocialPost) : List RawSocialPost :=
  posts.insertionSort fun a b =>
    toLex (a.eventTime, a.sourcePostId) ≤ toLex (b.eventTime, b.sourcePostId)

structure SocialReplayProvider where
  source : String := "social-replay"
  records : List RawSocialPost

/-- `SocialReplayProvider(records)`. -/
def SocialReplayProvider.ofRecords (source : String) (records : List RawSocialPost) :
    SocialReplayProvider where
  source := source
  records := sortPosts records

def SocialReplayProvider.numbered (provider : SocialReplayProvider) : List (RawSocialPost × ℤ) :=
  (provider.records.zipIdx 1).map fun entry => (entry.1, entry.2)

/-- `SocialReplayProvider.stream(session)`. -/
def SocialReplayProvider.stream (provider : SocialReplayProvider) (session : Option String)
    (clock : ℕ → Datetime) : List (ProviderEvent RawSocialPost) :=
  provider.numbered.zipIdx.map fun entry =>
    let post := entry.1.1
    replayEvent provider.source session (clock entry.2) post.sourcePostId post.platform
      post.eventTime entry.1.2 post

/-! ## Live providers -/

/-- An item of a feed, as `_parse_rss` reads it. -/
structure RssItem where
  sourcePostId : String
  eventTime : Datetime
  text : String

/-- `_parse_rss(payload, url)`. -/
def parseRss (url : String) (items : List RssItem) : List RawSocialPost :=
  sortPosts (items.map fun item =>
    { sourcePostId := item.sourcePostId, platform := "rss", rawAuthorId := url
      eventTime := item.eventTime, text := item.text })

/-- The responses of all polls; `hexNumber` is the number that the first twelve hexadecimal digits of the
SHA-256 of a text form. -/
structure RssSocialProvider where
  source : String := "rss-live-v1"
  hexNumber : String → ℕ
  responses : List (String × List RssItem)

/-- `for post in ...: if post.source_post_id in self._seen: continue`. -/
def newPosts (seen : List String) : List RawSocialPost → List RawSocialPost
  | [] => []
  | post :: posts =>
    if post.sourcePostId ∈ seen then newPosts seen posts
    else post :: newPosts (post.sourcePostId :: seen) posts

/-- The posts that are emitted, in their order. -/
def RssSocialProvider.emitted (provider : RssSocialProvider) : List RawSocialPost :=
  newPosts [] (provider.responses.flatMap fun response => parseRss response.1 response.2)

def RssSocialProvider.numbered (provider : RssSocialProvider) : List (RawSocialPost × ℤ) :=
  provider.emitted.map fun post => (post, (provider.hexNumber post.sourcePostId : ℤ))

/-- `RssSocialProvider.stream()`. -/
def RssSocialProvider.stream (provider : RssSocialProvider) (clock : ℕ → Datetime) :
    List (ProviderEvent RawSocialPost) :=
  provider.numbered.zipIdx.map fun entry =>
    let post := entry.1.1
    liveEvent provider.source (clock entry.2) post.sourcePostId post.platform post.eventTime
      entry.1.2 post

/-- What the provider makes of a response about a symbol. -/
structure BinanceDatum where
  datumId : String
  eventTime : Datetime
  datum : MarketDatum

/-- The data are of the symbol that was asked for. -/
def BinanceDatum.record (symbol : String) (datum : BinanceDatum) : MarketRecord where
  datumId := datum.datumId
  assetId := symbol
  eventTime := datum.eventTime
  datum := datum.datum

/-- `sorted(results, key=...)`, what `_fetch_symbol` returns. -/
def fetchSymbol (symbol : String) (results : List BinanceDatum) : List MarketRecord :=
  (results.insertionSort fun a b =>
    toLex (a.eventTime, a.datumId) ≤ toLex (b.eventTime, b.datumId)).map (BinanceDatum.record symbol)

/-- The fetches of all polls, with what is new in each. -/
structure BinanceMarketProvider where
  source : String
  fetches : List (String × List BinanceDatum)

/-- `self._emission_sequence`: each symbol counts its own events. -/
def numberPerSymbol (emissionSequence : OrderedDict String ℤ) :
    List MarketRecord → List (MarketRecord × ℤ)
  | [] => []
  | record :: records =>
    let sequence := emissionSequence.getD record.assetId 0 + 1
    (record, sequence) :: numberPerSymbol (emissionSequence.set record.assetId sequence) records

def BinanceMarketProvider.numbered (provider : BinanceMarketProvider) : List (MarketRecord × ℤ) :=
  numberPerSymbol .empty (provider.fetches.flatMap fun fetch => fetchSymbol fetch.1 fetch.2)

/-- `BinanceMarketProvider.stream()`. -/
def BinanceMarketProvider.stream (provider : BinanceMarketProvider) (clock : ℕ → Datetime) :
    List (ProviderEvent MarketRecord) :=
  provider.numbered.zipIdx.map fun entry =>
    let record := entry.1.1
    liveEvent provider.source (clock entry.2) record.datumId record.assetId record.eventTime
      entry.1.2 record

/-! ## Feeds -/

/-- A provider and what it has to emit. -/
inductive Feed where
  | replay (source : String) (records : List MarketRecord) (session : Option String)
  | social (source : String) (records : List RawSocialPost) (session : Option String)
  | rss (provider : RssSocialProvider)
  | binance (provider : BinanceMarketProvider)

namespace Feed

/-- What the tracker is told when every event is ingested, in the order of emission. -/
def observed (clock : ℕ → Datetime) : Feed → List Observed
  | replay source records session =>
    ((ReplayProvider.ofRecords source records).stream session clock).map ProviderEvent.observedMarket
  | social source records session =>
    ((SocialReplayProvider.ofRecords source records).stream session clock).map
      ProviderEvent.observedSocial
  | rss provider => (provider.stream clock).map ProviderEvent.observedSocial
  | binance provider => (provider.stream clock).map ProviderEvent.observedMarket

def source : Feed → String
  | replay source _ _ => source
  | social source _ _ => source
  | rss provider => provider.source
  | binance provider => provider.source

/-- The assets or platforms in the order of emission, with the numbers. -/
def numbered : Feed → List (String × ℤ)
  | replay source records _ =>
    (ReplayProvider.ofRecords source records).numbered.map fun entry => (entry.1.assetId, entry.2)
  | social source records _ =>
    (SocialReplayProvider.ofRecords source records).numbered.map fun entry =>
      (entry.1.platform, entry.2)
  | rss provider => provider.numbered.map fun entry => (entry.1.platform, entry.2)
  | binance provider => provider.numbered.map fun entry => (entry.1.assetId, entry.2)

/-- The provider's numbers are those of an asset or a platform. -/
def Scoped : Feed → Prop
  | replay _ records _ =>
    ∀ assetId, Together (fun item => decide (item.datum.assetId = assetId))
      (sortItems (records.map fun record => { datum := record }))
  | social _ records _ =>
    ∀ platform, Together (fun post => decide (post.platform = platform)) (sortPosts records)
  | rss provider => Consecutive (provider.emitted.map fun post => (provider.hexNumber post.sourcePostId : ℤ))
  | binance _ => True

/-! ## The numbers of an asset -/

/-- The observation is what the tracker is told about a numbered datum. -/
structure Tells (source : String) (entry : String × ℤ) (observed : Observed) : Prop where
  source : observed.source = source
  assetId : observed.assetId = entry.1
  sequence : observed.sequence = some entry.2

theorem forall₂_zipIdx {π : Type} {source : String} (key : π → String)
    {observe : (π × ℤ) × ℕ → Observed}
    (hobserve : ∀ entry, Tells source (key entry.1.1, entry.1.2) (observe entry))
    (data : List (π × ℤ)) (n : ℕ) :
    List.Forall₂ (Tells source) (data.map fun entry => (key entry.1, entry.2))
      ((data.zipIdx n).map observe) := by
  induction data generalizing n with
  | nil => exact .nil
  | cons datum data ih => exact .cons (hobserve (datum, n)) (ih (n + 1))

/-- What the tracker is told, observation by observation. -/
theorem tells_observed (clock : ℕ → Datetime) (feed : Feed) :
    List.Forall₂ (Tells feed.source) feed.numbered (feed.observed clock) := by
  cases feed with
  | replay source records session =>
    rw [observed, ReplayProvider.stream, List.map_map]
    refine forall₂_zipIdx MarketRecord.assetId ?_ _ 0
    exact fun _ => ⟨rfl, rfl, rfl⟩
  | social source records session =>
    rw [observed, SocialReplayProvider.stream, List.map_map]
    refine forall₂_zipIdx RawSocialPost.platform ?_ _ 0
    exact fun _ => ⟨rfl, rfl, rfl⟩
  | rss provider =>
    rw [observed, RssSocialProvider.stream, List.map_map]
    refine forall₂_zipIdx RawSocialPost.platform ?_ _ 0
    exact fun _ => ⟨rfl, rfl, rfl⟩
  | binance provider =>
    rw [observed, BinanceMarketProvider.stream, List.map_map]
    refine forall₂_zipIdx MarketRecord.assetId ?_ _ 0
    exact fun _ => ⟨rfl, rfl, rfl⟩

theorem numbered_of_tells {source : String} {data : List (String × ℤ)} {observations : List Observed}
    (h : List.Forall₂ (Tells source) data observations) : Numbered observations := by
  induction h with
  | nil => exact fun _ h => nomatch h
  | @cons entry observed _ _ htells _ ih =>
    exact List.forall_mem_cons.mpr ⟨⟨entry.2, htells.sequence⟩, ih⟩

/-- The numbers of an asset are those the provider put on its data. -/
theorem numbersOf_of_tells {source : String} {data : List (String × ℤ)}
    {observations : List Observed} (h : List.Forall₂ (Tells source) data observations)
    (source' assetId : String) :
    numbersOf source' assetId observations =
      (data.filter fun entry => decide ((source, entry.1) = (source', assetId))).map Prod.snd := by
  induction h with
  | nil => rfl
  | @cons entry observed data observations htells _ ih =>
    have hof : Observed.isOf source' assetId observed =
        decide ((source, entry.1) = (source', assetId)) := by
      rw [Observed.isOf, htells.source, htells.assetId]
    rw [numbersOf, List.filter_cons, List.filter_cons, hof]
    split_ifs with hown
    · rw [numbers_cons htells.sequence, List.map_cons, ← ih]
      rfl
    · exact ih

/-- The numbers of an asset or a platform. -/
def numbersOfKey (feed : Feed) (key : String) : List ℤ :=
  (feed.numbered.filter fun entry => decide (entry.1 = key)).map Prod.snd

/-- What the tracker reads is what the provider numbered. -/
theorem numbersOf_observed (clock : ℕ → Datetime) (feed : Feed) (source assetId : String) :
    numbersOf source assetId (feed.observed clock) =
      if feed.source = source then feed.numbersOfKey assetId else [] := by
  rw [numbersOf_of_tells (feed.tells_observed clock)]
  split_ifs with hsource
  · subst hsource
    rw [numbersOfKey]
    refine congrArg (List.map Prod.snd) (List.filter_congr fun entry _ => ?_)
    exact decide_eq_decide.mpr ⟨fun h => (Prod.mk.inj h).2, fun h => h ▸ rfl⟩
  · rw [List.filter_eq_nil_iff.mpr fun entry _ h =>
      hsource (Prod.mk.inj (of_decide_eq_true h)).1]
    rfl

theorem map_snd_filter_map {π : Type} (data : List (π × ℤ)) (key : π → String) (assetId : String) :
    (((data.map fun entry => (key entry.1, entry.2)).filter fun entry =>
      decide (entry.1 = assetId)).map Prod.snd) =
      (data.filter fun entry => decide (key entry.1 = assetId)).map Prod.snd := by
  rw [List.filter_map, List.map_map]
  rfl

/-- The numbers of a replay are positions. -/
theorem map_snd_filter_zipIdx {π : Type} (data : List π) (p : π → Bool) (n : ℕ) :
    (((data.zipIdx n).map fun entry => (entry.1, (entry.2 : ℤ))).filter fun entry =>
      p entry.1).map Prod.snd = positions p n data := by
  induction data generalizing n with
  | nil => rfl
  | cons datum data ih =>
    rw [List.zipIdx_cons, List.map_cons, List.filter_cons]
    have hrest := ih (n + 1)
    push_cast at hrest
    rcases hp : p datum with _ | _
    · rw [positions_cons_of_neg data hp, ← hrest]
      rfl
    · rw [positions_cons_of_pos data hp, ← hrest]
      rfl

/-- The items of a replay of records have no numbers of their own. -/
theorem sourceSequence_of_mem {records : List MarketRecord} {item : MarketProviderItem}
    (hitem : item ∈ sortItems (records.map fun record => { datum := record })) :
    item.sourceSequence = none := by
  obtain ⟨record, -, rfl⟩ := List.mem_map.mp ((List.mem_insertionSort _).mp hitem)
  rfl

theorem numbersOfKey_replay (source : String) (records : List MarketRecord) (session : Option String)
    (assetId : String) :
    (replay source records session).numbersOfKey assetId =
      positions (fun item => decide (item.datum.assetId = assetId)) 1
        (sortItems (records.map fun record => { datum := record })) := by
  rw [numbersOfKey, numbered, map_snd_filter_map _ MarketRecord.assetId]
  have hitems : ∀ item ∈ (ReplayProvider.ofRecords source records).items,
      item.sourceSequence = none := fun item => sourceSequence_of_mem
  have hnumbered : (ReplayProvider.ofRecords source records).numbered =
      (((ReplayProvider.ofRecords source records).items.zipIdx 1).map fun entry =>
        (entry.1, (entry.2 : ℤ))).map fun entry => (entry.1.datum, entry.2) := by
    rw [ReplayProvider.numbered, List.map_map]
    refine List.map_congr_left fun entry hentry => ?_
    have hnone := hitems entry.1 (List.fst_mem_of_mem_zipIdx hentry)
    show (entry.1.datum, entry.1.sequence entry.2) = (entry.1.datum, (entry.2 : ℤ))
    rw [MarketProviderItem.sequence, hnone]
  rw [hnumbered, List.filter_map, List.map_map]
  exact map_snd_filter_zipIdx _ (fun item : MarketProviderItem => decide (item.datum.assetId = assetId)) 1

theorem numbersOfKey_social (source : String) (records : List RawSocialPost)
    (session : Option String) (platform : String) :
    (social source records session).numbersOfKey platform =
      positions (fun post => decide (post.platform = platform)) 1 (sortPosts records) := by
  rw [numbersOfKey, numbered, map_snd_filter_map _ RawSocialPost.platform]
  exact map_snd_filter_zipIdx _ (fun post : RawSocialPost => decide (post.platform = platform)) 1

/-- Every post of a feed is of one platform. -/
theorem platform_emitted {provider : RssSocialProvider} {post : RawSocialPost}
    (hpost : post ∈ provider.emitted) : post.platform = "rss" := by
  have hnew : ∀ (posts : List RawSocialPost) (seen : List String),
      ∀ post ∈ newPosts seen posts, post ∈ posts := by
    intro posts
    induction posts with
    | nil => exact fun _ _ h => h
    | cons first posts ih =>
      intro seen post hpost
      rw [newPosts] at hpost
      split_ifs at hpost
      · exact List.mem_cons_of_mem _ (ih _ _ hpost)
      · rcases List.mem_cons.mp hpost with rfl | hpost
        · exact List.mem_cons_self
        · exact List.mem_cons_of_mem _ (ih _ _ hpost)
  obtain ⟨response, -, hresponse⟩ := List.mem_flatMap.mp (hnew _ _ _ hpost)
  obtain ⟨item, -, rfl⟩ := List.mem_map.mp ((List.mem_insertionSort _).mp hresponse)
  rfl

/-- Every number of a symbol is one more than the one before it. -/
theorem consecutive_numberPerSymbol (records : List MarketRecord)
    (emissionSequence : OrderedDict String ℤ) (symbol : String) :
    Consecutive (emissionSequence.getD symbol 0 ::
      ((numberPerSymbol emissionSequence records).filter fun entry =>
        decide (entry.1.assetId = symbol)).map Prod.snd) := by
  induction records generalizing emissionSequence with
  | nil => exact List.isChain_singleton _
  | cons record records ih =>
    have hrest := ih (emissionSequence.set record.assetId
      (emissionSequence.getD record.assetId 0 + 1))
    rw [numberPerSymbol, List.filter_cons]
    split_ifs with hsymbol
    · obtain rfl : record.assetId = symbol := of_decide_eq_true hsymbol
      rw [OrderedDict.getD_set_self] at hrest
      exact List.isChain_cons_cons.mpr ⟨rfl, hrest⟩
    · have hother : symbol ≠ record.assetId := fun h => hsymbol (decide_eq_true h.symm)
      rwa [OrderedDict.getD_set_of_ne _ _ _ hother] at hrest

/-- **The scope of the numbers.** -/
theorem consecutive_iff_scoped (feed : Feed) :
    (∀ key, Consecutive (feed.numbersOfKey key)) ↔ feed.Scoped := by
  cases feed with
  | replay source records session =>
    simp only [numbersOfKey_replay, consecutive_positions_iff]
    exact Iff.rfl
  | social source records session =>
    simp only [numbersOfKey_social, consecutive_positions_iff]
    exact Iff.rfl
  | rss provider =>
    have hkey : ∀ key, (rss provider).numbersOfKey key =
        if "rss" = key then provider.emitted.map fun post => (provider.hexNumber post.sourcePostId : ℤ)
        else [] := by
      intro key
      rw [numbersOfKey, numbered, map_snd_filter_map _ RawSocialPost.platform,
        RssSocialProvider.numbered, List.filter_map, List.map_map]
      show (provider.emitted.filter fun post => decide (post.platform = key)).map _ = _
      split_ifs with hrss
      · rw [List.filter_eq_self.mpr fun post hpost =>
          decide_eq_true ((platform_emitted hpost).trans hrss)]
        rfl
      · rw [List.filter_eq_nil_iff.mpr fun post hpost hplatform =>
          hrss ((platform_emitted hpost).symm.trans (of_decide_eq_true hplatform))]
        rfl
    simp only [hkey]
    constructor
    · intro h
      have hrss := h "rss"
      rwa [if_pos rfl] at hrss
    · intro h key
      split_ifs
      · exact h
      · exact List.isChain_nil
  | binance provider =>
    refine iff_of_true (fun key => ?_) trivial
    rw [numbersOfKey, numbered, map_snd_filter_map _ MarketRecord.assetId]
    exact (List.isChain_cons.mp (consecutive_numberPerSymbol _ .empty key)).2

/-- **When a complete feed shows no gap.**  For every provider and all its data, ingested in the order of
emission: the counts are zero, and the gap count of an asset or a platform is what was lost of it in a row,
exactly when the provider's numbers are those of that asset or platform.  A replay numbers the whole list,
so its assets (or platforms) have to stand together; the numbers of RSS posts are hashes; the numbers of a
Binance symbol are its own. -/
theorem showsLoss_iff_scoped (threshold : ℤ) (clock : ℕ → Datetime) (feed : Feed) :
    ShowsLoss threshold (feed.observed clock) ↔ feed.Scoped := by
  rw [showsLoss_iff threshold (numbered_of_tells (feed.tells_observed clock)),
    ← consecutive_iff_scoped]
  simp only [numbersOf_observed]
  constructor
  · intro h key
    have hkey := h feed.source key
    rwa [if_pos rfl] at hkey
  · intro h source key
    split_ifs
    · exact h key
    · exact List.isChain_nil

/-- Two trades of an asset, and one of another between them. -/
def twoAssets : List MarketRecord :=
  [⟨"t-1", "S2MUSDT", 0, .trade { price := 1, quantity := 100 }⟩,
    ⟨"t-2", "OTHER", 1, .trade { price := 5, quantity := 10 }⟩,
    ⟨"t-3", "S2MUSDT", 2, .trade { price := 1, quantity := 95 }⟩]

/-- **A complete replay of two assets has a gap.** -/
theorem gapInCompleteReplay :
    ¬ ∀ feed : Feed, ShowsLoss 30 (feed.observed fun _ => 0) := by
  intro h
  obtain ⟨hgap, -⟩ := (h (.replay "market-replay" twoAssets none)).complete "market-replay" "S2MUSDT"
    (SourceQuality.ofObservations 30 "market-replay" "S2MUSDT"
      [⟨"market-replay", "S2MUSDT", 0, 0, some 1, false⟩, ⟨"market-replay", "S2MUSDT", 2, 0, some 3, false⟩])
    (by decide +kernel)
  exact absurd hgap (by decide +kernel)

end Feed

end Ingestion
end Scam2Market
