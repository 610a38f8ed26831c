import Scam2Market.Features.Schemas
import Scam2Market.Python.Statistics

/-!
# The feature formulas

The formulas of `_compute_features`, under the names the engine gives their values.  They are split
by what they read:

* `WindowInputs` is what the market, timing and baseline formulas read: the bounds of the window,
  its signals in order, the raw volumes of the earlier windows and how many earlier windows there
  are.  `WindowInputs.feature` collects the fifteen of them (`intrinsicNames`).
* `socialUrls` and `hashtagCount` walk through values of any shape, so they may raise.
-/

namespace Scam2Market
namespace Features

/-- `_floor_window`: the start of the window of an instant. -/
def floorWindow (value : Datetime) (intervalSeconds : ℕ) : Datetime :=
  let epochSeconds := value.tdiv 1000000
  let floored := epochSeconds - epochSeconds % intervalSeconds
  timedeltaSeconds floored

/-- `_safe_float`: the number a value is, booleans excluded; a missing value is `None`. -/
def safeFloat (value : Option Json) (default : ℚ := 0) : ℚ :=
  match value with
  | some (.int n) => n
  | some (.float q) => q
  | _ => default

/-- `_concentration`: the share of the most frequent value. -/
def concentration (values : List String) : ℚ :=
  if values.isEmpty then 0
  else maxDefault 0 (values.map fun value => (values.count value : ℚ)) / values.length

/-- `int(value)`, which rounds towards zero. -/
def truncate (value : ℚ) : ℤ :=
  value.num.tdiv value.den

/-- The signals of a kind. -/
def ofKind (kind : SignalKind) (events : List FeatureSignal) : List FeatureSignal :=
  events.filter fun event => event.kind = kind

/-- A number reported by a signal. -/
def FeatureSignal.number (event : FeatureSignal) (name : String) (default : ℚ := 0) : ℚ :=
  safeFloat (event.values.get? name) default

/-- `event.values.get(name) == text`. -/
def FeatureSignal.textIs (event : FeatureSignal) (name text : String) : Bool :=
  match event.values.get? name with
  | some (.str s) => s = text
  | _ => false

/-- `bool(event.values.get(name, default))`. -/
def FeatureSignal.flag (event : FeatureSignal) (name : String) (default : Bool) : Bool :=
  (event.values.getD name (.bool default)).truthy

/-- The author a signal names, if it names one. -/
def FeatureSignal.author? (event : FeatureSignal) : Option String :=
  (event.values.get? "author_id").bind Json.asStr?

/-! ## Volumes -/

def tradeVolume (events : List FeatureSignal) : ℚ :=
  ((ofKind .marketTrade events).map fun event =>
    event.number "quantity" * event.number "price" 1).sum

def candleVolume (events : List FeatureSignal) : ℚ :=
  ((ofKind .marketCandle events).map fun event => event.number "volume").sum

/-- `_raw_volume`: the traded volume, or that of the candles when nothing was traded. -/
def rawVolume (events : List FeatureSignal) : ℚ :=
  if tradeVolume events ≠ 0 then tradeVolume events else candleVolume events

/-- A volume does not depend on the order of the signals. -/
theorem rawVolume_perm {events events' : List FeatureSignal} (h : events.Perm events') :
    rawVolume events = rawVolume events' := by
  have htrade : tradeVolume events = tradeVolume events' :=
    ((h.filter _).map _).sum_eq
  have hcandle : candleVolume events = candleVolume events' :=
    ((h.filter _).map _).sum_eq
  rw [rawVolume, rawVolume, htrade, hcandle]

/-! ## The formulas of one window -/

/-- What the market, timing and baseline formulas read. -/
structure WindowInputs where
  windowStart : Datetime
  windowEnd : Datetime
  events : List FeatureSignal
  trailingVolumes : List ℚ
  priorWindowCount : ℕ

namespace WindowInputs

variable (w : WindowInputs)

def trades : List FeatureSignal := ofKind .marketTrade w.events

def candles : List FeatureSignal := ofKind .marketCandle w.events

def books : List FeatureSignal := ofKind .orderbook w.events

def validBooks : List FeatureSignal := w.books.filter fun event => event.flag "book_valid" true

def social : List FeatureSignal := ofKind .socialPost w.events

def mentions : List FeatureSignal := ofKind .assetMention w.events

def quality : List FeatureSignal := ofKind .dataQuality w.events

/-- The prices of the trades, or the closing prices of the candles when there is no trade. -/
def prices : List ℚ :=
  if w.trades.isEmpty then w.candles.map fun event => event.number "close"
  else w.trades.map fun event => event.number "price"

def priceReturn : ℚ :=
  match w.prices with
  | first :: second :: rest =>
    if first ≠ 0 then (second :: rest).getLastD 0 / first - 1 else 0
  | _ => 0

def returns : List ℚ :=
  (w.prices.zip w.prices.tail).filterMap fun pair =>
    if pair.1 ≠ 0 then some (pair.2 / pair.1 - 1) else none

def volatility : ℚ :=
  if 1 < w.returns.length then pstdev w.returns else 0

def volume : ℚ := rawVolume w.events

def baselineVolumeValues : List ℚ :=
  (w.events.map fun event => event.number "baseline_volume").filter fun value => 0 < value

def baselineVolume : ℚ :=
  let trailing := w.trailingVolumes.filter fun value => 0 < value
  if w.baselineVolumeValues ≠ [] then fmean w.baselineVolumeValues
  else if trailing ≠ [] then fmean trailing
  else w.volume

def relativeVolume : ℚ :=
  if w.baselineVolume ≠ 0 then w.volume / w.baselineVolume else 0

/-- The mean over the valid books of a number they report, if there is a valid book. -/
def bookMean (name : String) : Option ℚ :=
  if w.validBooks ≠ [] then some (fmean (w.validBooks.map fun event => event.number name))
  else none

def spread : Option ℚ := w.bookMean "spread"

def topNDepth : Option ℚ := w.bookMean "top_n_depth"

def orderbookImbalance : Option ℚ := w.bookMean "imbalance"

def orderbookValid : Option ℚ :=
  if w.books ≠ [] then some (if w.validBooks ≠ [] then 1 else 0) else none

/-- The quantity traded on one side. -/
def sideQuantity (side : String) : ℚ :=
  ((w.trades.filter fun event => event.textIs "side" side).map fun event =>
    event.number "quantity").sum

def pressure : ℚ :=
  let buys := w.sideQuantity "BUY"
  let sells := w.sideQuantity "SELL"
  if buys + sells ≠ 0 then (buys - sells) / (buys + sells) else 0

def sourceGapCount : ℤ :=
  truncate (maxDefault 0 (w.quality.map fun event => event.number "source_gap_count"))

def marketTimes : List Datetime :=
  (w.trades ++ w.candles ++ w.books).map FeatureSignal.eventTime

def socialTimes : List Datetime :=
  (w.social ++ w.mentions).map FeatureSignal.eventTime

def marketFreshness : ℚ :=
  if w.marketTimes ≠ [] then max 0 (totalSeconds (w.windowEnd - maxDefault 0 w.marketTimes))
  else totalSeconds (w.windowEnd - w.windowStart)

def socialFreshness : Option ℚ :=
  if w.socialTimes ≠ [] then
    some (max 0 (totalSeconds (w.windowEnd - maxDefault 0 w.socialTimes)))
  else none

def socialLead : Option ℚ :=
  if w.marketTimes ≠ [] ∧ w.socialTimes ≠ [] then
    some (totalSeconds (minDefault 0 w.marketTimes - minDefault 0 w.socialTimes))
  else none

def baselineConfidence : ℚ :=
  min 1 (w.priorWindowCount / 20)

/-- The features that depend on the signals of the scope and asset only, not on the state the
sources are in when they are computed. -/
def feature : FeatureName → Option ℚ
  | .priceReturn => some w.priceReturn
  | .volume => some w.volume
  | .relativeVolume => some w.relativeVolume
  | .volatility => some w.volatility
  | .spread => w.spread
  | .topNDepth => w.topNDepth
  | .orderbookImbalance => w.orderbookImbalance
  | .orderbookValid => w.orderbookValid
  | .tradeCount => some w.trades.length
  | .buySellPressure => some w.pressure
  | .marketDataFreshnessSeconds => some w.marketFreshness
  | .socialDataFreshnessSeconds => w.socialFreshness
  | .socialLeadSeconds => w.socialLead
  | .sourceGapCount => some w.sourceGapCount
  | .baselineConfidence => some w.baselineConfidence
  | _ => none

end WindowInputs

/-- The features `WindowInputs.feature` computes. -/
def intrinsicNames : List FeatureName :=
  [.priceReturn, .volume, .relativeVolume, .volatility, .spread, .topNDepth, .orderbookImbalance,
    .orderbookValid, .tradeCount, .buySellPressure, .marketDataFreshnessSeconds,
    .socialDataFreshnessSeconds, .socialLeadSeconds, .sourceGapCount, .baselineConfidence]

/-! ## The social formulas -/

/-- The authors of the posts. -/
def authors (social : List FeatureSignal) : List String :=
  social.filterMap FeatureSignal.author?

/-- The urls of the posts: whatever can be iterated over is, and what is not a string is dropped. -/
def socialUrls (social : List FeatureSignal) : Except PyError (List String) := do
  let items ← social.mapM fun event => (event.values.getD "urls" (.list [])).iter
  return items.flatten.filterMap Json.asStr?

/-- The number of hashtags and cashtags of the posts. -/
def hashtagCount (social : List FeatureSignal) : Except PyError ℕ := do
  let counts ← social.mapM fun event => do
    let hashtags ← (event.values.getD "hashtags" (.list [])).len
    let cashtags ← (event.values.getD "cashtags" (.list [])).len
    return hashtags + cashtags
  return counts.sum

/-- The number of posts that repost or reply to another. -/
def repostReplyCount (social : List FeatureSignal) : ℕ :=
  social.countP fun event =>
    (event.values.getD "repost_of" .null).truthy || (event.values.getD "reply_to" .null).truthy

end Features
end Scam2Market
