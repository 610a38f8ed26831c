import Scam2Market.Ingestion.Dedupe
import Scam2Market.Streaming.MarketEvents

/-!
# The ingestion services

`MarketIngestionService.ingest` of `ingestion/market.py` and `SocialIngestionService.ingest` of
`ingestion/social.py`.

* The guardrails are predicates of the services.  What the quality tracker says about an event is part of
  the delivery: any quality, or what it raises.
* Parsing a post and resolving its mentions are functions of the social service.
* `ingestion_atLeastOnce`: no delivery may be left between its claim and its publish.
* `cancelled_before_publish`: a market delivery that is, and the next one, which is taken for a duplicate.
-/

namespace Scam2Market
namespace Ingestion

open Library
open Streaming

/-! ## Events and messages -/

structure RawSocialPost where
  sourcePostId : String
  platform : String
  rawAuthorId : String
  eventTime : Datetime
  text : String

/-- `social.post.received`; `payload` is what `RawSocialPost.model_validate` makes of the payload. -/
structure RawPostEvent extends SocialEvent (Except PyError RawSocialPost) where
  eventType : String := "social.post.received"

/-- A raw post without its author. -/
structure SanitizedPost where
  sourcePostId : String
  platform : String
  eventTime : Datetime
  text : String
  pseudonymousAuthorId : String
  pseudonymKeyVersion : ℕ

/-- What is given to the publisher, with the topic. -/
inductive Message where
  | market (topic : String) (event : MarketEvent)
  | rawPost (topic : String) (event : SocialEvent SanitizedPost)
  | post (topic : String) (event : PostEvent)
  | mentions (topic : String) (event : MentionEvent)

/-- What the quality tracker says about an event. -/
abbrev Observation := Except PyError JsonObject

/-- The key of an event in the store. -/
def dedupeKey (eventId : UuidText) : String :=
  s!"dedupe:{eventId.text}"

/-! ## Market events -/

/-- `_topic(datum)`. -/
def topicOf : MarketDatum → String
  | .trade _ => "market.trades.v1"
  | .candle _ => "market.candles.v1"
  | .book _ => "market.orderbook.v1"

structure MarketIngestionService where
  accepts : MarketEvent → Datetime → Bool

/-- `MarketIngestionService.ingest(event)`. -/
def MarketIngestionService.ingest (service : MarketIngestionService) (event : MarketEvent)
    (observed : Observation) (now : Datetime) : Program Message :=
  if service.accepts event now then
    match normalizeMarketEvent event with
    | .error error => .done (.error error)
    | .ok datum =>
      let key := dedupeKey event.eventId
      .claim key fun isClaimed =>
        if isClaimed then
          match observed with
          | .error error => .releaseAndRaise key error
          | .ok quality =>
            .publish [.market (topicOf datum) { event with quality := quality }]
              (.setJson s!"latest:market:{event.assetId}"
                (.setJson s!"source-health:market:{event.source}:{event.assetId}"
                  (.done (.ok true))
                  (.releaseAndRaise key))
                (.releaseAndRaise key))
              (.releaseAndRaise key)
        else .done (.ok false)
  else .done (.ok false)

/-! ## Social posts -/

structure SocialIngestionService where
  accepts : RawPostEvent → Datetime → Bool
  uuid5 : String → UuidText
  parseSocialPost : RawSocialPost → (source scopeId : String) → SocialPost
  resolve : SocialPost → List AssetMention
  keyVersion : ℕ := 1

namespace SocialIngestionService

variable (service : SocialIngestionService) (event : RawPostEvent) (raw : RawSocialPost)

/-- `raw.model_dump(exclude={"raw_author_id"})`, with the pseudonym. -/
def sanitized (post : SocialPost) : SanitizedPost where
  sourcePostId := raw.sourcePostId
  platform := raw.platform
  eventTime := raw.eventTime
  text := raw.text
  pseudonymousAuthorId := post.authorId
  pseudonymKeyVersion := service.keyVersion

def post : SocialPost :=
  service.parseSocialPost raw event.source (sessionScope event.replaySessionId)

/-- `published_events`. -/
def publishedEvents : List Message :=
  let post := service.post event raw
  [.rawPost "social.posts.raw.v1" {
      eventId := event.eventId, source := event.source, eventTime := event.eventTime
      ingestedAt := event.ingestedAt, replaySessionId := event.replaySessionId
      payload := service.sanitized raw post },
    .post "social.posts.normalized.v1" {
      eventId := service.uuid5 s!"{event.eventId.text}:normalized", source := event.source
      eventTime := event.eventTime, ingestedAt := event.ingestedAt
      replaySessionId := event.replaySessionId, payload := post },
    .mentions "social.mentions.v1" {
      eventId := service.uuid5 s!"{event.eventId.text}:mentions", source := event.source
      eventTime := event.eventTime, ingestedAt := event.ingestedAt
      replaySessionId := event.replaySessionId
      payload := { postId := post.postId, mentions := service.resolve post } }]

/-- `SocialIngestionService.ingest(event)`. -/
def ingest (observed : Observation) (now : Datetime) : Program Message :=
  if event.eventType ≠ "social.post.received" then
    .done (.error (.valueError s!"unsupported social event type: {event.eventType}"))
  else if service.accepts event now then
    match event.payload with
    | .error error => .done (.error error)
    | .ok raw =>
      let key := dedupeKey event.eventId
      let platform := (service.post event raw).platform
      .claim key fun isClaimed =>
        if isClaimed then
          .publish (service.publishedEvents event raw)
            (match observed with
              | .error error => .releaseAndRaise key error
              | .ok _ =>
                .setJson s!"latest:social:{platform}"
                  (.setJson s!"source-health:social:{event.source}:{platform}"
                    (.done (.ok true))
                    (.releaseAndRaise key))
                  (.releaseAndRaise key))
            (.releaseAndRaise key)
        else .done (.ok false)
  else .done (.ok false)

end SocialIngestionService

/-! ## Both services -/

/-- A service, and the event that is delivered to it. -/
inductive IngestionService where
  | market (service : MarketIngestionService) (event : MarketEvent)
  | social (service : SocialIngestionService) (event : RawPostEvent)

namespace IngestionService

def ingest : IngestionService → Observation → Datetime → Program Message
  | market service event => service.ingest event
  | social service event => service.ingest event

/-- The event passes the guardrails. -/
def Passes : IngestionService → Prop
  | market service event => ∀ now, service.accepts event now = true
  | social service event => ∀ now, service.accepts event now = true

def key : IngestionService → String
  | market _ event => dedupeKey event.eventId
  | social _ event => dedupeKey event.eventId

/-- The messages of the event. -/
def IsBatch : IngestionService → List Message → Prop
  | market _ event, messages => ∃ datum quality, normalizeMarketEvent event = .ok datum ∧
    messages = [.market (topicOf datum) { event with quality := quality }]
  | social service event, messages => ∃ raw, event.payload = .ok raw ∧
    messages = service.publishedEvents event raw

theorem claimsFirst_market (service : MarketIngestionService) (event : MarketEvent)
    (hpasses : Passes (.market service event)) (observed : Observation) (now : Datetime) :
    ClaimsFirst (dedupeKey event.eventId) (IsBatch (.market service event))
      (service.ingest event observed now) := by
  rw [MarketIngestionService.ingest, if_pos (hpasses now)]
  rcases hdatum : normalizeMarketEvent event with error | datum
  · exact .refused error
  · refine .claim rfl ?_
    rcases observed with error | quality
    · exact .raised error
    · exact .publish ⟨datum, quality, hdatum, rfl⟩ (.setJson _ (.setJson _ .done))

theorem claimsFirst_social (service : SocialIngestionService) (event : RawPostEvent)
    (hpasses : Passes (.social service event)) (observed : Observation) (now : Datetime) :
    ClaimsFirst (dedupeKey event.eventId) (IsBatch (.social service event))
      (service.ingest event observed now) := by
  rw [SocialIngestionService.ingest]
  split_ifs with htype haccepts
  · exact .refused _
  · rcases hraw : event.payload with error | raw
    · exact .refused error
    · refine .claim rfl (.publish ⟨raw, hraw, rfl⟩ ?_)
      rcases observed with error | quality
      · exact .raised error
      · exact .setJson _ (.setJson _ .done)
  · exact absurd (hpasses now) haccepts

theorem claimsFirst (service : IngestionService) (hpasses : service.Passes)
    (observed : Observation) (now : Datetime) :
    ClaimsFirst service.key service.IsBatch (service.ingest observed now) := by
  cases service with
  | market service event => exact claimsFirst_market service event hpasses observed now
  | social service event => exact claimsFirst_social service event hpasses observed now

/-- A market service that refuses nothing, and a trade. -/
def aTrade : IngestionService :=
  .market ⟨fun _ _ => true⟩ {
    eventId := ⟨"9b2f", by decide⟩, source := "market-replay", assetId := "S2MUSDT", eventTime := 0
    ingestedAt := 0, payload := .ok (.trade { price := 1, quantity := 100 }) }

/-- A publish that raises, the release, and the next delivery, which publishes. -/
def failedPublish : List (IngestionMove Observation) :=
  [.deliver (.ok .empty), .apply, .answer, .raise (.timeoutError "KafkaTimeoutError"), .apply, .answer,
    .deliver (.ok .empty), .apply, .answer, .answer, .answer, .answer,
    .deliver (.ok .empty), .apply, .answer]

/-- A delivery that is cancelled before its publish, and the next one. -/
def cancelledDelivery : List (IngestionMove Observation) :=
  [.deliver (.ok .empty), .apply, .answer, .stop, .deliver (.ok .empty), .apply, .answer]

end IngestionService

end Ingestion
end Scam2Market
