import Scam2Market.Security.Guardrails

/-!
# Market data behind the guardrails

`MarketTrade`, `MarketCandle` and `OrderBookUpdate` of `schemas/domain.py` with the validation of their
fields, and `normalize_market_event` and `MarketIngestionService.ingest` of `ingestion/market.py`, on
decoded payloads.

* `Pydantic`: the validation of single values.  A number is taken as it is, and only a number or a text
  can be one; which texts are, and of what, is left open.
* `ingest`: what the store says of the key, and what comes of delivering the event, is given.
-/

namespace Scam2Market
namespace Security

/-! ## Validation -/

/-- The validation of values, in the lax mode.  A value that is refused is refused with a message. -/
structure Pydantic where
  float : Value → Except String PyFloat
  int : Value → Except String ℤ
  str : Value → Except String String
  float_number : ∀ value number, asFloat value = .ok (some number) → float value = .ok number
  float_other : ∀ value, asFloat value = .ok none → (∀ text, value ≠ .str text) →
    ∃ message, float value = .error message

/-- A result of validation, or the fields that were refused. -/
abbrev Checked (α : Type) := Except (List (String × String)) α

/-- Both results, or the fields that were refused in either. -/
def Checked.both {α β : Type} (a : Checked α) (b : Checked β) : Checked (α × β) :=
  match a, b with
  | .ok a, .ok b => .ok (a, b)
  | .ok _, .error errors => .error errors
  | .error errors, .ok _ => .error errors
  | .error errors, .error errors' => .error (errors ++ errors')

section Fields

variable {α : Type} (payload : Payload) (key : String) (validate : Value → Except String α)

/-- The value of a field is validated. -/
def checkedValue (value : Value) : Checked α :=
  (validate value).mapError fun message => [(key, message)]

/-- A field without a default. -/
def required : Checked α :=
  match payload.get? key with
  | some value => checkedValue key validate value
  | none => .error [(key, "Field required")]

/-- A field that is `None` by default. -/
def optional : Checked (Option α) :=
  match payload.get? key with
  | some .null => .ok none
  | some value => (checkedValue key validate value).map some
  | none => .ok none

/-- A field that is an empty list by default. -/
def listed (validate : Value → Except String (List α)) : Checked (List α) :=
  match payload.get? key with
  | some value => checkedValue key validate value
  | none => .ok []

end Fields

/-- `tuple[float, float]`. -/
def Pydantic.level (p : Pydantic) : Value → Except String (PyFloat × PyFloat)
  | .list [price, quantity] => do return (← p.float price, ← p.float quantity)
  | _ => .error "Input should be a valid tuple"

/-- `list[tuple[float, float]]`. -/
def Pydantic.levels (p : Pydantic) : Value → Except String (List (PyFloat × PyFloat))
  | .list items => items.mapM p.level
  | _ => .error "Input should be a valid list"

/-! ## Market data -/

structure MarketTrade where
  tradeId : String
  assetId : String
  eventTime : Datetime
  price : PyFloat
  quantity : PyFloat
  side : Option String
  source : String

structure MarketCandle where
  candleId : String
  assetId : String
  eventTime : Datetime
  intervalSeconds : ℤ
  openPrice : PyFloat
  high : PyFloat
  low : PyFloat
  close : PyFloat
  volume : PyFloat
  source : String

structure OrderBookUpdate where
  updateId : String
  assetId : String
  eventTime : Datetime
  bestBid : Option PyFloat
  bestAsk : Option PyFloat
  spread : Option PyFloat
  topBidDepth : Option PyFloat
  topAskDepth : Option PyFloat
  bids : List (PyFloat × PyFloat)
  asks : List (PyFloat × PyFloat)
  source : String

inductive MarketDatum where
  | trade (trade : MarketTrade)
  | candle (candle : MarketCandle)
  | book (book : OrderBookUpdate)

/-- `event.event_type`, of which three are those of market data. -/
inductive MarketEventType where
  | marketTradeReceived
  | marketCandleClosed
  | marketOrderbookUpdated
  | other (value : String)

/-- The fields of a canonical event that the ingestion of market data reads. -/
structure CanonicalEvent where
  eventType : MarketEventType
  source : String
  assetId : Option String
  eventTime : Datetime
  payload : Payload

namespace CanonicalEvent

variable (p : Pydantic) (event : CanonicalEvent)

/-- `asset_id`, which is written over that of the payload. -/
def checkedAssetId : Checked String :=
  match event.assetId with
  | some assetId => .ok assetId
  | none => .error [("asset_id", "Input should be a valid string")]

/-- `MarketTrade.model_validate(payload)`. -/
def validateTrade : Checked MarketTrade :=
  ((required event.payload "trade_id" p.str).both (event.checkedAssetId.both
    ((required event.payload "price" p.float).both ((required event.payload "quantity" p.float).both
      (optional event.payload "side" p.str))))).map
    fun (tradeId, assetId, price, quantity, side) =>
      { tradeId := tradeId, assetId := assetId, eventTime := event.eventTime, price := price
        quantity := quantity, side := side, source := event.source }

/-- `MarketCandle.model_validate(payload)`. -/
def validateCandle : Checked MarketCandle :=
  ((required event.payload "candle_id" p.str).both (event.checkedAssetId.both
    ((required event.payload "interval_seconds" p.int).both
      ((required event.payload "open" p.float).both ((required event.payload "high" p.float).both
        ((required event.payload "low" p.float).both ((required event.payload "close" p.float).both
          (required event.payload "volume" p.float)))))))).map
    fun (candleId, assetId, intervalSeconds, openPrice, high, low, close, volume) =>
      { candleId := candleId, assetId := assetId, eventTime := event.eventTime
        intervalSeconds := intervalSeconds, openPrice := openPrice, high := high, low := low
        close := close, volume := volume, source := event.source }

/-- `OrderBookUpdate.model_validate(payload)`. -/
def validateBook : Checked OrderBookUpdate :=
  ((required event.payload "update_id" p.str).both (event.checkedAssetId.both
    ((optional event.payload "best_bid" p.float).both
      ((optional event.payload "best_ask" p.float).both ((optional event.payload "spread" p.float).both
        ((optional event.payload "top_bid_depth" p.float).both
          ((optional event.payload "top_ask_depth" p.float).both
            ((listed event.payload "bids" p.levels).both
              (listed event.payload "asks" p.levels))))))))).map
    fun (updateId, assetId, bestBid, bestAsk, spread, topBidDepth, topAskDepth, bids, asks) =>
      { updateId := updateId, assetId := assetId, eventTime := event.eventTime, bestBid := bestBid
        bestAsk := bestAsk, spread := spread, topBidDepth := topBidDepth, topAskDepth := topAskDepth
        bids := bids, asks := asks, source := event.source }

end CanonicalEvent

/-- What `model_validate` raises when fields are refused. -/
def Checked.validated {α : Type} (checked : Checked α) : Except PyError α :=
  checked.mapError .validationError

/-- `sum(quantity for _, quantity in levels[:5])`. -/
def topDepth (levels : List (PyFloat × PyFloat)) : PyFloat :=
  pySum ((levels.take 5).map Prod.snd)

/-- `depth or stored`. -/
def depthOr (depth : PyFloat) (stored : Option PyFloat) : Option PyFloat :=
  if depth = .zero then stored else some depth

/-- `spread`. -/
def spreadOf (book : OrderBookUpdate) : Option PyFloat :=
  match book.bestAsk, book.bestBid with
  | some ask, some bid => some (ask.sub bid)
  | _, _ => none

/-- `book.model_copy(update=...)`. -/
def normalizedBook (book : OrderBookUpdate) : OrderBookUpdate :=
  { book with
    spread := spreadOf book
    topBidDepth := depthOr (topDepth book.bids) book.topBidDepth
    topAskDepth := depthOr (topDepth book.asks) book.topAskDepth }

/-- `normalize_market_event(event)`. -/
def normalizeMarketEvent (p : Pydantic) (event : CanonicalEvent) : Except PyError MarketDatum :=
  match event.eventType with
  | .marketTradeReceived => (event.validateTrade p).validated.map .trade
  | .marketCandleClosed => (event.validateCandle p).validated.map .candle
  | .marketOrderbookUpdated =>
    (event.validateBook p).validated.map fun book => .book (normalizedBook book)
  | .other value => .error (.valueError s!"unsupported market event type: {value}")

/-! ## The service -/

/-- The service: the length of the text of a payload, and the validation. -/
structure MarketIngestionService where
  length : Payload → ℕ
  pydantic : Pydantic

/-- `MarketIngestionService.ingest(event)`, where `isClaimed` is what the store says of the key, and
`delivered` what comes of observing and publishing the event and writing the state. -/
def MarketIngestionService.ingest (service : MarketIngestionService) (event : CanonicalEvent)
    (now : Datetime) (isClaimed : Bool) (delivered : Except PyError Unit) : Except PyError Bool := do
  let payloadDecision :=
    inspectIngestionPayload (service.length event.payload) event.eventTime 1 now
  let marketDecision ← inspectMarketPayload event.payload
  if ¬ payloadDecision.accepted ∨ ¬ marketDecision.accepted then return false
  else do
    let _ ← normalizeMarketEvent service.pydantic event
    if ¬ isClaimed then return false
    else do
      delivered
      return true

end Security
end Scam2Market
