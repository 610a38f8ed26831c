import Scam2Market.Streaming.SocialEvents

/-!
# Market events

`MarketTrade`, `MarketCandle` and `OrderBookUpdate` of `schemas/domain.py`, the events that the
ingestion publishes for them, and `normalize_market_event` of `ingestion/market.py`.

The asset and the time of a datum are those of its event.
-/

namespace Scam2Market
namespace Streaming

structure MarketTrade where
  price : ℚ
  quantity : ℚ
  side : Option String := none

structure MarketCandle where
  openPrice : ℚ
  high : ℚ
  low : ℚ
  close : ℚ
  volume : ℚ

structure OrderBookUpdate where
  bestBid : Option ℚ := none
  bestAsk : Option ℚ := none
  spread : Option ℚ := none
  topBidDepth : Option ℚ := none
  topAskDepth : Option ℚ := none
  bids : List (ℚ × ℚ) := []
  asks : List (ℚ × ℚ) := []

inductive MarketDatum where
  | trade (trade : MarketTrade)
  | candle (candle : MarketCandle)
  | book (book : OrderBookUpdate)

/-- An event about an asset; `payload` is what the model of its type makes of the payload, and
`quality` what stands in it under `_quality`. -/
structure MarketEvent where
  eventId : UuidText
  source : String
  assetId : String
  eventTime : Datetime
  ingestedAt : Datetime
  replaySessionId : Option String := none
  payload : Except PyError MarketDatum
  quality : JsonObject := .empty

/-- `event.replay.replay_session_id or "LIVE"`. -/
def MarketEvent.scopeId (event : MarketEvent) : String :=
  sessionScope event.replaySessionId

/-- `sum(quantity for _, quantity in levels[:5])`. -/
def topDepth (levels : List (ℚ × ℚ)) : ℚ :=
  ((levels.take 5).map Prod.snd).sum

/-- `best_ask - best_bid`, if there are both. -/
def bookSpread (book : OrderBookUpdate) : Option ℚ :=
  match book.bestAsk, book.bestBid with
  | some ask, some bid => some (ask - bid)
  | _, _ => none

/-- `depth or stored`. -/
def depthOr (depth : ℚ) (stored : Option ℚ) : Option ℚ :=
  if depth ≠ 0 then some depth else stored

/-- `normalize_market_event(event)`. -/
def normalizeMarketEvent (event : MarketEvent) : Except PyError MarketDatum := do
  match ← event.payload with
  | .book book =>
    return .book { book with
      spread := bookSpread book
      topBidDepth := depthOr (topDepth book.bids) book.topBidDepth
      topAskDepth := depthOr (topDepth book.asks) book.topAskDepth }
  | datum => return datum

end Streaming
end Scam2Market
