import Scam2Market.Ingestion.Providers
import Scam2Market.Library.Cursors
import Scam2Market.Library.Runs

/-!
# Polls that fail

`BinanceMarketProvider._fetch_symbol` and `stream` of `ingestion/live_providers.py` for one symbol: the
cursors, the three responses of a poll, any of which may be malformed, and what is emitted.

* `fetch`: the cursors are moved while the responses are read, and the data are handed over at the end.
* `Complete`: the trades that were emitted are consecutive and the candles in order, and the cursors stand at
  the last of them.
* `Orderly`: a poll that comes to a new trade or candle reads everything, and sorts nothing out of order.
* `losesNothing_iff`: the exact condition, for every sequence of polls.
* `malformed_depth_loses`: two trades, and a depth response without its number.
-/

namespace Scam2Market
namespace Ingestion

open Library
open Streaming

/-! ## Responses -/

/-- An aggregate trade, and what the conversion of each of its fields gives; `T` is the time of the
milliseconds. -/
structure RawTrade where
  a : Except PyError ℤ
  T : Except PyError Datetime
  p : Except PyError ℚ
  q : Except PyError ℚ
  m : Except PyError Bool

/-- The order book. -/
structure RawDepth where
  lastUpdateId : Except PyError ℤ
  bids : Except PyError (List (ℚ × ℚ))
  asks : Except PyError (List (ℚ × ℚ))

/-- A candle. -/
structure RawCandle where
  openTime : Except PyError ℤ
  closeTime : Except PyError Datetime
  openPrice : Except PyError ℚ
  high : Except PyError ℚ
  low : Except PyError ℚ
  close : Except PyError ℚ
  volume : Except PyError ℚ

/-- The bodies of the three responses. -/
structure Responses where
  trades : Except PyError (List RawTrade)
  depth : Except PyError RawDepth
  candles : Except PyError (List RawCandle)

/-- The clock, and what `gather` and `raise_for_status` leave of the responses. -/
structure Poll where
  now : Datetime
  responses : Except PyError Responses

/-- The number and the `MarketTrade`. -/
def RawTrade.entry (symbol : String) (raw : RawTrade) : CursorEntry PyError BinanceDatum where
  number := raw.a
  content := do
    let tradeId ← raw.a
    let eventTime ← raw.T
    let price ← raw.p
    let quantity ← raw.q
    let isBuyerMaker ← raw.m
    return {
      datumId := s!"binance:{symbol}:{tradeId}"
      eventTime
      datum := .trade { price, quantity, side := some (if isBuyerMaker then "SELL" else "BUY") } }

/-- The number and the `OrderBookUpdate`. -/
def RawDepth.book (symbol : String) (now : Datetime) (raw : RawDepth) : Except PyError (ℤ × BinanceDatum) := do
  let depthSequence ← raw.lastUpdateId
  let bids ← raw.bids
  let asks ← raw.asks
  return (depthSequence, {
    datumId := s!"binance:{symbol}:depth:{depthSequence}"
    eventTime := now
    datum := .book { bestBid := bids.head?.map Prod.fst, bestAsk := asks.head?.map Prod.fst, bids, asks } })

/-- The open time and the `MarketCandle`. -/
def RawCandle.entry (symbol : String) (raw : RawCandle) : CursorEntry PyError BinanceDatum where
  number := raw.openTime
  content := do
    let openTime ← raw.openTime
    let eventTime ← raw.closeTime
    let openPrice ← raw.openPrice
    let high ← raw.high
    let low ← raw.low
    let close ← raw.close
    let volume ← raw.volume
    return {
      datumId := s!"binance:{symbol}:1m:{openTime}"
      eventTime
      datum := .candle { openPrice, high, low, close, volume } }

/-! ## The provider -/

/-- `_last_trade_id` and `_last_candle_open` of the symbol. -/
structure Cursors where
  lastTradeId : Option ℤ := none
  lastCandleOpen : Option ℤ := none
  deriving DecidableEq

/-- The key of `sorted`. -/
def sortKey (item : ℤ × BinanceDatum) : Datetime ×ₗ String :=
  toLex (item.2.eventTime, item.2.datumId)

def sortResults (results : List (ℤ × BinanceDatum)) : List (ℤ × BinanceDatum) :=
  results.insertionSort fun a b => sortKey a ≤ sortKey b

/-- `self._last_trade_id.get(symbol, -1)`. -/
def Cursors.trade (cursors : Cursors) : ℤ :=
  cursors.lastTradeId.getD (-1)

/-- `self._last_candle_open.get(symbol, -1)`. -/
def Cursors.candle (cursors : Cursors) : ℤ :=
  cursors.lastCandleOpen.getD (-1)

/-- `_fetch_symbol(client, symbol)`: what it returns, and the cursors. -/
def fetch (symbol : String) (cursors : Cursors) (poll : Poll) :
    Except PyError (List (ℤ × BinanceDatum)) × Cursors :=
  match poll.responses with
  | .error error => (.error error, cursors)
  | .ok responses =>
    match responses.trades with
    | .error error => (.error error, cursors)
    | .ok trades =>
      let read := readNew (-1) cursors.lastTradeId (trades.map (RawTrade.entry symbol))
      let cursors := { cursors with lastTradeId := read.2 }
      let rest : Except PyError (List (ℤ × BinanceDatum) × (ℤ × BinanceDatum) × List RawCandle) := do
        let trades ← read.1
        let depth ← responses.depth
        let book ← depth.book symbol poll.now
        let candles ← responses.candles
        return (trades, book, candles)
      match rest with
      | .error error => (.error error, cursors)
      | .ok (trades, book, candles) =>
        let read := readNew (-1) cursors.lastCandleOpen (candles.dropLast.map (RawCandle.entry symbol))
        (read.1.map fun candles => sortResults (trades ++ book :: candles),
          { cursors with lastCandleOpen := read.2 })

/-- The open times of the closed candles that a poll shows. -/
def Poll.closedCandles (poll : Poll) : List ℤ :=
  match poll.responses with
  | .error _ => []
  | .ok responses =>
    match responses.candles with
    | .error _ => []
    | .ok candles => candles.dropLast.filterMap fun raw => raw.openTime.toOption

/-- The provider: its cursors, what it has emitted, and the closed candles that the polls showed that
returned. -/
structure Poller where
  cursors : Cursors := {}
  emitted : List (ℤ × BinanceDatum) := []
  shown : List ℤ := []

/-- A poll of `stream`, which is resumed when `_fetch_symbol` raises. -/
def Poller.step (symbol : String) (s : Poller) (poll : Poll) : Poller :=
  match fetch symbol s.cursors poll with
  | (.ok results, cursors) =>
    { cursors, emitted := s.emitted ++ results, shown := s.shown ++ poll.closedCandles }
  | (.error _, cursors) => { s with cursors }

/-- What is emitted is what the feed of the symbol sorts. -/
theorem records_sortResults (symbol : String) (results : List (ℤ × BinanceDatum)) :
    (sortResults results).map (fun item => item.2.record symbol) =
      fetchSymbol symbol (results.map Prod.snd) := by
  rw [fetchSymbol, ← List.map_insertionSort (fun a b : ℤ × BinanceDatum => sortKey a ≤ sortKey b) _ Prod.snd
    results fun _ _ _ _ => Iff.rfl, List.map_map]
  rfl

/-! ## What a poll does -/

/-- `"fromId"`, if it is asked for. -/
def Cursors.fromId (cursors : Cursors) : Option ℤ :=
  cursors.lastTradeId.map (· + 1)

namespace Responses

def tradeEntries (symbol : String) (responses : Responses) : List (CursorEntry PyError BinanceDatum) :=
  match responses.trades with
  | .error _ => []
  | .ok trades => trades.map (RawTrade.entry symbol)

/-- The entries of the closed candles. -/
def candleEntries (symbol : String) (responses : Responses) : List (CursorEntry PyError BinanceDatum) :=
  match responses.candles with
  | .error _ => []
  | .ok candles => candles.dropLast.map (RawCandle.entry symbol)

/-- The book of the depth response. -/
def book (symbol : String) (now : Datetime) (responses : Responses) : Except PyError (ℤ × BinanceDatum) := do
  let depth ← responses.depth
  depth.book symbol now

/-- No trade that is read is malformed, and neither is the depth response. -/
def ReachesCandles (symbol : String) (cursors : Cursors) (now : Datetime) (responses : Responses) : Prop :=
  (∃ trades, responses.trades = .ok trades) ∧
    CursorEntry.Whole cursors.trade (responses.tradeEntries symbol) ∧
    ∃ book, responses.book symbol now = .ok book

/-- Nothing that is read is malformed. -/
def Readable (symbol : String) (cursors : Cursors) (now : Datetime) (responses : Responses) : Prop :=
  responses.ReachesCandles symbol cursors now ∧ (∃ candles, responses.candles = .ok candles) ∧
    CursorEntry.Whole cursors.candle (responses.candleEntries symbol)

/-- A new trade stands before the first malformed one, or a new candle is come to. -/
def Moves (symbol : String) (cursors : Cursors) (now : Datetime) (responses : Responses) : Prop :=
  CursorEntry.Advances cursors.trade (responses.tradeEntries symbol) ∨
    responses.ReachesCandles symbol cursors now ∧
      CursorEntry.Advances cursors.candle (responses.candleEntries symbol)

/-- The new trades of the response. -/
def newTrades (symbol : String) (cursors : Cursors) (responses : Responses) : List (ℤ × BinanceDatum) :=
  (responses.tradeEntries symbol).filterMap (CursorEntry.newer? cursors.trade)

/-- The new candles of the response. -/
def newCandles (symbol : String) (cursors : Cursors) (responses : Responses) : List (ℤ × BinanceDatum) :=
  (responses.candleEntries symbol).filterMap (CursorEntry.newer? cursors.candle)

end Responses

section Fetch

open CursorEntry Responses

variable {symbol : String} {cursors : Cursors} {poll : Poll} {responses : Responses}

/-- The first part of a fetch: the trades and the depth. -/
theorem fetch_of_not_reachesCandles (hpoll : poll.responses = .ok responses)
    (hrising : Rising (responses.tradeEntries symbol))
    (hnot : ¬ responses.ReachesCandles symbol cursors poll.now) :
    ∃ error, fetch symbol cursors poll = (.error error,
      { cursors with
        lastTradeId := (readNew (-1) cursors.lastTradeId (responses.tradeEntries symbol)).2 }) := by
  rcases htrades : responses.trades with error | trades
  · refine ⟨error, ?_⟩
    simp only [fetch, tradeEntries, hpoll, htrades]
    rfl
  have hentries : responses.tradeEntries symbol = trades.map (RawTrade.entry symbol) := by
    rw [tradeEntries, htrades]
  by_cases hwhole : Whole cursors.trade (responses.tradeEntries symbol)
  · have hread := readNew_of_whole hrising hwhole
    rcases hdepth : responses.depth with error | depth
    · exact ⟨error, by simp only [fetch, hpoll, htrades, ← hentries, hread, hdepth, bind, Except.bind]⟩
    rcases hbook : depth.book symbol poll.now with error | book
    · exact ⟨error, by simp only [fetch, hpoll, htrades, ← hentries, hread, hdepth, hbook, bind, Except.bind]⟩
    · refine absurd ⟨⟨trades, htrades⟩, hwhole, book, ?_⟩ hnot
      rw [Responses.book, hdepth]
      exact hbook
  · obtain ⟨error, herror⟩ := readNew_of_not_whole hrising hwhole
    exact ⟨error, by simp only [fetch, hpoll, htrades, ← hentries, herror, bind, Except.bind]⟩

/-- The second part: the candles. -/
theorem fetch_of_reachesCandles (hpoll : poll.responses = .ok responses)
    (hrising : Rising (responses.tradeEntries symbol)) {book : ℤ × BinanceDatum}
    (hbook : responses.book symbol poll.now = .ok book)
    (hreaches : responses.ReachesCandles symbol cursors poll.now) :
    fetch symbol cursors poll =
      ((do
        let _ ← responses.candles
        let candles ← (readNew (-1) cursors.lastCandleOpen (responses.candleEntries symbol)).1
        return sortResults (responses.newTrades symbol cursors ++ book :: candles)),
      { lastTradeId := (readNew (-1) cursors.lastTradeId (responses.tradeEntries symbol)).2
        lastCandleOpen :=
          (readNew (-1) cursors.lastCandleOpen (responses.candleEntries symbol)).2 }) := by
  obtain ⟨⟨trades, htrades⟩, hwhole, -⟩ := hreaches
  have hentries : responses.tradeEntries symbol = trades.map (RawTrade.entry symbol) := by
    rw [tradeEntries, htrades]
  have hread := readNew_of_whole hrising hwhole
  obtain ⟨depth, hdepth, hdepth'⟩ : ∃ depth, responses.depth = .ok depth ∧
      depth.book symbol poll.now = .ok book := by
    rw [Responses.book] at hbook
    rcases hdepth : responses.depth with error | depth
    · rw [hdepth] at hbook
      cases hbook
    · rw [hdepth] at hbook
      exact ⟨depth, rfl, hbook⟩
  rcases hcandles : responses.candles with error | candles
  · simp only [fetch, hpoll, htrades, ← hentries, hread, hdepth, hdepth', hcandles, candleEntries, bind,
      Except.bind]
    rfl
  · simp only [fetch, hpoll, htrades, ← hentries, hread, hdepth, hdepth', hcandles, candleEntries, bind,
      Except.bind, pure, Except.pure]
    rcases readNew (-1) cursors.lastCandleOpen (candles.dropLast.map (RawCandle.entry symbol)) with
      ⟨error | candles, lastCandleOpen⟩
    · rfl
    · rfl

/-- **The cursors stay** exactly when the poll does not come to a new trade or candle. -/
theorem cursors_fetch_iff (hpoll : poll.responses = .ok responses)
    (hrising : Rising (responses.tradeEntries symbol)) :
    (fetch symbol cursors poll).2 = cursors ↔ ¬ responses.Moves symbol cursors poll.now := by
  have htrade : (readNew (-1) cursors.lastTradeId (responses.tradeEntries symbol)).2 = cursors.lastTradeId ↔
      ¬ Advances cursors.trade (responses.tradeEntries symbol) := cursor_readNew_iff
  by_cases hreaches : responses.ReachesCandles symbol cursors poll.now
  · obtain ⟨book, hbook⟩ := hreaches.2.2
    have hcandle : (readNew (-1) cursors.lastCandleOpen (responses.candleEntries symbol)).2 =
        cursors.lastCandleOpen ↔ ¬ Advances cursors.candle (responses.candleEntries symbol) :=
      cursor_readNew_iff
    rw [fetch_of_reachesCandles hpoll hrising hbook hreaches, Moves, and_iff_right hreaches, not_or, ← htrade,
      ← hcandle]
    exact (Cursors.mk.injEq ..).to_iff
  · obtain ⟨error, heq⟩ := fetch_of_not_reachesCandles hpoll hrising hreaches
    rw [heq, Moves, or_iff_left fun h => hreaches h.1, ← htrade]
    exact (Cursors.mk.injEq ..).to_iff.trans (and_iff_left rfl)

/-- A poll in which something that is read is malformed raises. -/
theorem fetch_of_not_readable (hpoll : poll.responses = .ok responses)
    (htrades : Rising (responses.tradeEntries symbol)) (hcandles : Rising (responses.candleEntries symbol))
    (hnot : ¬ responses.Readable symbol cursors poll.now) :
    ∃ error, (fetch symbol cursors poll).1 = .error error := by
  by_cases hreaches : responses.ReachesCandles symbol cursors poll.now
  · obtain ⟨book, hbook⟩ := hreaches.2.2
    rw [fetch_of_reachesCandles hpoll htrades hbook hreaches]
    rcases hbody : responses.candles with error | candles
    · exact ⟨error, rfl⟩
    · have hread : ∃ error, (readNew (-1) cursors.lastCandleOpen (responses.candleEntries symbol)).1 =
          .error error :=
        readNew_of_not_whole hcandles fun hwhole => hnot ⟨hreaches, ⟨candles, hbody⟩, hwhole⟩
      obtain ⟨error, herror⟩ := hread
      rw [herror]
      exact ⟨error, rfl⟩
  · obtain ⟨error, heq⟩ := fetch_of_not_reachesCandles hpoll htrades hreaches
    exact ⟨error, by rw [heq]⟩

/-- What a poll hands over, and the cursors after it. -/
theorem fetch_of_readable (hpoll : poll.responses = .ok responses)
    (htrades : Rising (responses.tradeEntries symbol)) (hcandles : Rising (responses.candleEntries symbol))
    (hreads : responses.Readable symbol cursors poll.now) :
    ∃ book, responses.book symbol poll.now = .ok book ∧ fetch symbol cursors poll =
      (.ok (sortResults (responses.newTrades symbol cursors ++ book :: responses.newCandles symbol cursors)),
        { lastTradeId := ((responses.newTrades symbol cursors).getLast?.map Prod.fst).or cursors.lastTradeId
          lastCandleOpen :=
            ((responses.newCandles symbol cursors).getLast?.map Prod.fst).or cursors.lastCandleOpen }) := by
  obtain ⟨hreaches, ⟨candles, hbody⟩, hwhole⟩ := hreads
  obtain ⟨book, hbook⟩ := hreaches.2.2
  refine ⟨book, hbook, ?_⟩
  have htrade := readNew_of_whole htrades hreaches.2.1
  have hcandle := readNew_of_whole hcandles hwhole
  rw [fetch_of_reachesCandles hpoll htrades hbook hreaches, hbody, htrade, hcandle]
  rfl

end Fetch

/-! ## What is emitted -/

def isTrade : MarketDatum → Bool
  | .trade _ => true
  | _ => false

def isCandle : MarketDatum → Bool
  | .candle _ => true
  | _ => false

/-- The ids of the trades, in the order of emission. -/
def tradeIds (items : List (ℤ × BinanceDatum)) : List ℤ :=
  (items.filter fun item => isTrade item.2.datum).map Prod.fst

/-- The open times of the candles. -/
def candleOpens (items : List (ℤ × BinanceDatum)) : List ℤ :=
  (items.filter fun item => isCandle item.2.datum).map Prod.fst

/-- Nothing is lost: the trades were emitted one after the other, and the candles in order; the cursors stand
at the last of them, and every closed candle that was shown was emitted. -/
structure Complete (s : Poller) : Prop where
  trades : Consecutive (tradeIds s.emitted)
  tradeCursor : (tradeIds s.emitted).getLast? = s.cursors.lastTradeId
  candles : (candleOpens s.emitted).IsChain (· < ·)
  candleCursor : (candleOpens s.emitted).getLast? = s.cursors.lastCandleOpen
  closed : ∀ openTime ∈ s.shown, openTime ∈ candleOpens s.emitted

/-- A poll that raises leaves the cursors as they were. -/
def KeepsCursors (symbol : String) (s : Poller) (poll : Poll) : Prop :=
  ∀ error, (fetch symbol s.cursors poll).1 = .error error → (fetch symbol s.cursors poll).2 = s.cursors

/-- What the endpoints promise.  The trades have consecutive ids, from the one that was asked for on; the open
times of the closed candles rise, and a candle that is shown for the first time is newer than those that were
shown before. -/
def Served (symbol : String) (s : Poller) (poll : Poll) : Prop :=
  ∀ responses, poll.responses = .ok responses →
    (∃ first, (∀ fromId, s.cursors.fromId = some fromId → first = fromId) ∧
      CursorEntry.NumberedFrom first (responses.tradeEntries symbol)) ∧
    CursorEntry.Rising (responses.candleEntries symbol) ∧
    ∀ openTime ∈ poll.closedCandles, 0 ≤ openTime ∧
      (openTime ∈ s.shown ∨ ∀ openTime' ∈ s.shown, openTime' < openTime)

/-- The key of `sorted` puts one datum before another, or on a par. -/
def Precedes (a b : ℤ × BinanceDatum) : Prop :=
  sortKey a ≤ sortKey b

instance : DecidableRel Precedes :=
  fun a b => inferInstanceAs (Decidable (sortKey a ≤ sortKey b))

/-- The condition on a poll.  If it comes to a new trade or a new closed candle, nothing that is read is
malformed; and then the new trades, and the new candles, are in the order of their times and of the text of
their ids. -/
def Orderly (symbol : String) (s : Poller) (poll : Poll) : Prop :=
  ∀ responses, poll.responses = .ok responses →
    (responses.Moves symbol s.cursors poll.now → responses.Readable symbol s.cursors poll.now) ∧
    (responses.Readable symbol s.cursors poll.now →
      (responses.newTrades symbol s.cursors).Pairwise Precedes ∧
        (responses.newCandles symbol s.cursors).Pairwise Precedes)

section Emission

open CursorEntry Responses

variable {symbol : String} {cursors : Cursors} {poll : Poll} {responses : Responses}

theorem isTrade_of_content {raw : RawTrade} {datum : BinanceDatum}
    (h : (raw.entry symbol).content = .ok datum) : isTrade datum.datum = true := by
  obtain ⟨_ | a, _ | T, _ | p, _ | q, _ | m⟩ := raw <;> cases h
  rfl

theorem isCandle_of_content {raw : RawCandle} {datum : BinanceDatum}
    (h : (raw.entry symbol).content = .ok datum) : isCandle datum.datum = true := by
  obtain ⟨_ | openTime, _ | closeTime, _ | openPrice, _ | high, _ | low, _ | close, _ | volume⟩ := raw <;>
    cases h
  rfl

theorem isTrade_of_mem_newTrades {item : ℤ × BinanceDatum} (h : item ∈ responses.newTrades symbol cursors) :
    isTrade item.2.datum = true := by
  obtain ⟨entry, hentry, hnewer⟩ := List.mem_filterMap.mp h
  obtain ⟨-, hcontent, -⟩ := newer?_eq_some_iff.mp hnewer
  rw [tradeEntries] at hentry
  split at hentry
  · cases hentry
  · obtain ⟨raw, -, rfl⟩ := List.mem_map.mp hentry
    exact isTrade_of_content hcontent

theorem isCandle_of_mem_newCandles {item : ℤ × BinanceDatum}
    (h : item ∈ responses.newCandles symbol cursors) : isCandle item.2.datum = true := by
  obtain ⟨entry, hentry, hnewer⟩ := List.mem_filterMap.mp h
  obtain ⟨-, hcontent, -⟩ := newer?_eq_some_iff.mp hnewer
  rw [candleEntries] at hentry
  split at hentry
  · cases hentry
  · obtain ⟨raw, -, rfl⟩ := List.mem_map.mp hentry
    exact isCandle_of_content hcontent

/-- The book is neither a trade nor a candle. -/
theorem not_isTrade_book {now : Datetime} {book : ℤ × BinanceDatum} (h : responses.book symbol now = .ok book) :
    isTrade book.2.datum = false ∧ isCandle book.2.datum = false := by
  obtain ⟨trades, _ | ⟨_ | depthSequence, _ | bids, _ | asks⟩, candles⟩ := responses <;> cases h
  exact ⟨rfl, rfl⟩

/-- The trades and the candles among what is emitted. -/
theorem filter_sortResults (cursors : Cursors) {book : ℤ × BinanceDatum}
    (hbook : responses.book symbol poll.now = .ok book) :
    tradeIds (sortResults (responses.newTrades symbol cursors ++ book :: responses.newCandles symbol cursors)) =
        (sortResults (responses.newTrades symbol cursors)).map Prod.fst ∧
      candleOpens
          (sortResults (responses.newTrades symbol cursors ++ book :: responses.newCandles symbol cursors)) =
        (sortResults (responses.newCandles symbol cursors)).map Prod.fst := by
  have hkinds : ∀ datum, ¬ (isTrade datum = true ∧ isCandle datum = true) := by
    rintro (_ | _ | _) ⟨htrade, hcandle⟩
    · cases hcandle
    · cases htrade
    · cases htrade
  obtain ⟨htrade, hcandle⟩ := not_isTrade_book hbook
  rw [tradeIds, candleOpens, sortResults, filter_insertionSort, filter_insertionSort]
  have htrades : (responses.newTrades symbol cursors ++ book :: responses.newCandles symbol cursors).filter
      (fun item => isTrade item.2.datum) = responses.newTrades symbol cursors := by
    rw [List.filter_append, List.filter_eq_self.mpr fun item => isTrade_of_mem_newTrades,
      List.filter_eq_nil_iff.mpr, List.append_nil]
    refine List.forall_mem_cons.mpr ⟨by simp [htrade], fun item hitem hisTrade => ?_⟩
    exact hkinds _ ⟨hisTrade, isCandle_of_mem_newCandles hitem⟩
  have hcandles : (responses.newTrades symbol cursors ++ book :: responses.newCandles symbol cursors).filter
      (fun item => isCandle item.2.datum) = responses.newCandles symbol cursors := by
    rw [List.filter_append, List.filter_eq_nil_iff.mpr, List.nil_append,
      List.filter_cons_of_neg (by simp [hcandle]),
      List.filter_eq_self.mpr fun item => isCandle_of_mem_newCandles]
    exact fun item hitem hisCandle => hkinds _ ⟨isTrade_of_mem_newTrades hitem, hisCandle⟩
  rw [htrades, hcandles]
  exact ⟨rfl, rfl⟩

/-- **Sorting keeps the numbers in order** exactly when the data are in the order of the key. -/
theorem isChain_sortResults_iff {results : List (ℤ × BinanceDatum)}
    (hrising : (results.map Prod.fst).IsChain (· < ·)) :
    ((sortResults results).map Prod.fst).IsChain (· < ·) ↔ results.Pairwise Precedes := by
  rw [List.isChain_iff_pairwise, List.pairwise_map] at hrising ⊢
  exact pairwise_insertionSort_iff _ (fun a b hab => lt_asymm hab) hrising

theorem sortResults_eq {results : List (ℤ × BinanceDatum)} (h : results.Pairwise Precedes) :
    sortResults results = results :=
  List.Pairwise.insertionSort_eq (r := fun a b => sortKey a ≤ sortKey b) h

end Emission

/-! ## Runs of polls -/

/-- Nothing is lost, and the candles that were emitted were shown. -/
structure Poller.Sound (s : Poller) : Prop extends Complete s where
  known : ∀ openTime ∈ candleOpens s.emitted, openTime ∈ s.shown

theorem Poller.sound_initial : Sound {} where
  trades := List.isChain_nil
  tradeCursor := rfl
  candles := List.isChain_nil
  candleCursor := rfl
  closed := fun _ h => (List.not_mem_nil h).elim
  known := fun _ h => (List.not_mem_nil h).elim

section Step

open CursorEntry Responses

variable {symbol : String} {s : Poller} {poll : Poll} {responses : Responses}

theorem step_of_error {error : PyError} (h : (fetch symbol s.cursors poll).1 = .error error) :
    s.step symbol poll = { s with cursors := (fetch symbol s.cursors poll).2 } := by
  rw [Poller.step]
  rcases hfetch : fetch symbol s.cursors poll with ⟨_ | results, cursors⟩
  · rfl
  · rw [hfetch] at h
    cases h

theorem step_of_ok {results : List (ℤ × BinanceDatum)} {cursors : Cursors}
    (h : fetch symbol s.cursors poll = (.ok results, cursors)) :
    s.step symbol poll =
      { cursors, emitted := s.emitted ++ results, shown := s.shown ++ poll.closedCandles } := by
  rw [Poller.step, h]

/-- A poll that raises and leaves the cursors loses nothing. -/
theorem step_of_kept {error : PyError} (h : (fetch symbol s.cursors poll).1 = .error error)
    (hkept : (fetch symbol s.cursors poll).2 = s.cursors) : s.step symbol poll = s := by
  rw [step_of_error h, hkept]

theorem Served.rising (h : Served symbol s poll) (hpoll : poll.responses = .ok responses) :
    Rising (responses.tradeEntries symbol) ∧ Rising (responses.candleEntries symbol) := by
  obtain ⟨⟨first, -, hnumbered⟩, hcandles, -⟩ := h responses hpoll
  exact ⟨hnumbered.rising, hcandles⟩

/-- A poll that raises left the cursors, when it was orderly. -/
theorem Orderly.keepsCursors (hserved : Served symbol s poll) (h : Orderly symbol s poll) :
    KeepsCursors symbol s poll := by
  intro error herror
  rcases hpoll : poll.responses with _ | responses
  · rw [fetch, hpoll]
  · obtain ⟨htrades, hcandles⟩ := hserved.rising hpoll
    refine (cursors_fetch_iff hpoll htrades).mpr fun hmoves => ?_
    obtain ⟨book, -, hfetch⟩ := fetch_of_readable hpoll htrades hcandles ((h responses hpoll).1 hmoves)
    rw [hfetch] at herror
    cases herror

/-- The numbers of the new trades go on from the cursor. -/
theorem Served.consecutive (h : Served symbol s poll) (hpoll : poll.responses = .ok responses)
    (hwhole : Whole s.cursors.trade (responses.tradeEntries symbol)) :
    Consecutive ((responses.newTrades symbol s.cursors).map Prod.fst) ∧
      ∀ last, s.cursors.lastTradeId = some last →
        Consecutive (last :: (responses.newTrades symbol s.cursors).map Prod.fst) := by
  obtain ⟨⟨first, hfirst, hnumbered⟩, -, -⟩ := h responses hpoll
  obtain ⟨hchain, hchain'⟩ := consecutive_newer hnumbered hwhole
  refine ⟨hchain, fun last hlast => ?_⟩
  have hmark : s.cursors.trade = last := by rw [Cursors.trade, hlast]; rfl
  have heq : first = last + 1 := hfirst (last + 1) (by rw [Cursors.fromId, hlast]; rfl)
  have hgoes := hchain' (by rw [hmark, heq]; exact lt_add_one last)
  rwa [heq, add_sub_cancel_right] at hgoes

/-- The new candles are newer than the cursor. -/
theorem Served.isChain (h : Served symbol s poll) (hpoll : poll.responses = .ok responses) :
    ((responses.newCandles symbol s.cursors).map Prod.fst).IsChain (· < ·) ∧
      ∀ last, s.cursors.lastCandleOpen = some last →
        (last :: (responses.newCandles symbol s.cursors).map Prod.fst).IsChain (· < ·) := by
  have hchain : (s.cursors.candle :: (responses.newCandles symbol s.cursors).map Prod.fst).IsChain
      (· < ·) := isChain_newer (h.rising hpoll).2
  refine ⟨hchain.tail, fun last hlast => ?_⟩
  have hmark : s.cursors.candle = last := by rw [Cursors.candle, hlast]; rfl
  exact hmark ▸ hchain

theorem mem_closedCandles_iff (symbol : String) (hpoll : poll.responses = .ok responses) {openTime : ℤ} :
    openTime ∈ poll.closedCandles ↔
      ∃ entry ∈ responses.candleEntries symbol, entry.number = .ok openTime := by
  rcases hcandles : responses.candles with error | candles
  · simp [Poll.closedCandles, candleEntries, hpoll, hcandles]
  · have hopen : ∀ raw : RawCandle, raw.openTime.toOption = some openTime ↔
        (raw.entry symbol).number = .ok openTime := by
      intro raw
      rw [RawCandle.entry]
      cases raw.openTime <;> simp [Except.toOption]
    simp [Poll.closedCandles, candleEntries, hpoll, hcandles, hopen, -List.map_dropLast]

theorem tradeIds_append (items items' : List (ℤ × BinanceDatum)) :
    tradeIds (items ++ items') = tradeIds items ++ tradeIds items' := by
  rw [tradeIds, List.filter_append, List.map_append]
  rfl

theorem candleOpens_append (items items' : List (ℤ × BinanceDatum)) :
    candleOpens (items ++ items') = candleOpens items ++ candleOpens items' := by
  rw [candleOpens, List.filter_append, List.map_append]
  rfl

/-- A closed candle that is not newer than the cursor was shown before. -/
theorem Served.mem_shown (hserved : Served symbol s poll) (h : s.Sound) (hpoll : poll.responses = .ok responses)
    {openTime : ℤ} (hclosed : openTime ∈ poll.closedCandles) {entry : CursorEntry PyError BinanceDatum}
    (hnumber : entry.number = .ok openTime) (hold : entry.Old s.cursors.candle) : openTime ∈ s.shown := by
  obtain ⟨-, -, hshown⟩ := hserved responses hpoll
  obtain ⟨hnonneg, hshown⟩ := hshown openTime hclosed
  refine hshown.resolve_right fun hnewer => ?_
  obtain ⟨number, hnumber', hle⟩ := hold
  obtain rfl : openTime = number := Except.ok.inj (hnumber.symm.trans hnumber')
  rcases hcursor : s.cursors.lastCandleOpen with _ | last
  · rw [Cursors.candle, hcursor] at hle
    exact absurd (hnonneg.trans hle) (by decide)
  · have hlast : last ∈ s.shown := by
      rw [← h.candleCursor] at hcursor
      exact h.known last (List.mem_of_getLast? hcursor)
    rw [Cursors.candle, hcursor] at hle
    exact absurd (hnewer last hlast) (not_lt_of_ge hle)

/-- A poll that reads everything, in order. -/
theorem Poller.Sound.of_readable (h : s.Sound) (hserved : Served symbol s poll)
    (hpoll : poll.responses = .ok responses) (hreads : responses.Readable symbol s.cursors poll.now)
    (htrades : (responses.newTrades symbol s.cursors).Pairwise Precedes)
    (hcandles : (responses.newCandles symbol s.cursors).Pairwise Precedes) : (s.step symbol poll).Sound := by
  obtain ⟨hrisingTrades, hrisingCandles⟩ := hserved.rising hpoll
  obtain ⟨book, hbook, hfetch⟩ := fetch_of_readable hpoll hrisingTrades hrisingCandles hreads
  obtain ⟨hids, hopens⟩ := filter_sortResults s.cursors hbook
  rw [sortResults_eq htrades] at hids
  rw [sortResults_eq hcandles] at hopens
  obtain ⟨hconsecutive, hnextTrade⟩ := hserved.consecutive hpoll hreads.1.2.1
  obtain ⟨hchain, hnextCandle⟩ := hserved.isChain hpoll
  rw [step_of_ok hfetch]
  have hemitted : tradeIds (s.emitted ++ sortResults (responses.newTrades symbol s.cursors ++
      book :: responses.newCandles symbol s.cursors)) =
        tradeIds s.emitted ++ (responses.newTrades symbol s.cursors).map Prod.fst := by
    rw [tradeIds_append, hids]
  have hemittedCandles : candleOpens (s.emitted ++ sortResults (responses.newTrades symbol s.cursors ++
      book :: responses.newCandles symbol s.cursors)) =
        candleOpens s.emitted ++ (responses.newCandles symbol s.cursors).map Prod.fst := by
    rw [candleOpens_append, hopens]
  have hlast : ∀ (numbers : List ℤ) (items : List (ℤ × BinanceDatum)) (cursor : Option ℤ),
      numbers.getLast? = cursor →
        (numbers ++ items.map Prod.fst).getLast? = (items.getLast?.map Prod.fst).or cursor := by
    rintro numbers items _ rfl
    rw [List.getLast?_append, List.getLast?_map]
  refine ⟨⟨?_, ?_, ?_, ?_, fun openTime hopen => ?_⟩, fun openTime hopen => ?_⟩
  · rw [hemitted]
    exact isChain_append_of_cursor h.trades h.tradeCursor hconsecutive hnextTrade
  · rw [hemitted]
    exact hlast _ _ _ h.tradeCursor
  · rw [hemittedCandles]
    exact isChain_append_of_cursor h.candles h.candleCursor hchain hnextCandle
  · rw [hemittedCandles]
    exact hlast _ _ _ h.candleCursor
  · rw [hemittedCandles, List.mem_append]
    rcases List.mem_append.mp hopen with hshown | hclosed
    · exact Or.inl (h.closed openTime hshown)
    obtain ⟨entry, hentry, hnumber⟩ := (mem_closedCandles_iff symbol hpoll).mp hclosed
    rcases hreads.2.2 entry hentry with hold | hnew
    · exact Or.inl (h.closed openTime (hserved.mem_shown h hpoll hclosed hnumber hold))
    · obtain ⟨item, hitem⟩ := Option.isSome_iff_exists.mp hnew
      have heq : item.1 = openTime := by
        have hitem' := (newer?_eq_some_iff.mp hitem).1
        rw [hnumber] at hitem'
        exact (Except.ok.inj hitem').symm
      exact Or.inr (List.mem_map.mpr ⟨item, List.mem_filterMap.mpr ⟨entry, hentry, hitem⟩, heq⟩)
  · rw [hemittedCandles] at hopen
    refine List.mem_append.mpr ((List.mem_append.mp hopen).imp (h.known openTime) fun hnew => ?_)
    obtain ⟨item, hitem, rfl⟩ := List.mem_map.mp hnew
    obtain ⟨entry, hentry, hnewer⟩ := List.mem_filterMap.mp hitem
    exact (mem_closedCandles_iff symbol hpoll).mpr ⟨entry, hentry, (newer?_eq_some_iff.mp hnewer).1⟩

theorem Poller.Sound.step (h : s.Sound) (hserved : Served symbol s poll) (horderly : Orderly symbol s poll) :
    (s.step symbol poll).Sound := by
  rcases hresult : (fetch symbol s.cursors poll).1 with error | results
  · rw [step_of_kept hresult (horderly.keepsCursors hserved error hresult)]
    exact h
  rcases hpoll : poll.responses with error | responses
  · rw [fetch, hpoll] at hresult
    cases hresult
  have hreads : responses.Readable symbol s.cursors poll.now := by
    by_contra hnot
    obtain ⟨htrades, hcandles⟩ := hserved.rising hpoll
    obtain ⟨error, herror⟩ := fetch_of_not_readable hpoll htrades hcandles hnot
    rw [herror] at hresult
    cases hresult
  obtain ⟨htrades, hcandles⟩ := (horderly responses hpoll).2 hreads
  exact h.of_readable hserved hpoll hreads htrades hcandles

/-- A poll that is not orderly loses something, or puts it out of order. -/
theorem Poller.Sound.not_complete_step (h : s.Sound) (hserved : Served symbol s poll)
    (hnot : ¬ Orderly symbol s poll) : ¬ Complete (s.step symbol poll) := by
  intro hcomplete
  refine hnot fun responses hpoll => ?_
  obtain ⟨htrades, hcandles⟩ := hserved.rising hpoll
  constructor
  · intro hmoves
    by_contra hreads
    obtain ⟨error, herror⟩ := fetch_of_not_readable hpoll htrades hcandles hreads
    rw [step_of_error herror] at hcomplete
    -- the cursors were moved, and nothing was emitted
    have hkept : (fetch symbol s.cursors poll).2 = s.cursors :=
      (Cursors.mk.injEq ..).mpr ⟨hcomplete.tradeCursor.symm.trans h.tradeCursor,
        hcomplete.candleCursor.symm.trans h.candleCursor⟩
    exact (cursors_fetch_iff hpoll htrades).mp hkept hmoves
  · intro hreads
    obtain ⟨book, hbook, hfetch⟩ := fetch_of_readable hpoll htrades hcandles hreads
    obtain ⟨hids, hopens⟩ := filter_sortResults s.cursors hbook
    rw [step_of_ok hfetch] at hcomplete
    have hchain := hcomplete.trades
    have hchain' := hcomplete.candles
    rw [tradeIds_append, hids] at hchain
    rw [candleOpens_append, hopens] at hchain'
    have hrising := (hserved.consecutive hpoll hreads.1.2.1).1
    constructor
    · have hlt : ∀ number next : ℤ, next = number + 1 → number < next := fun number _ hnext =>
        hnext.symm ▸ lt_add_one number
      exact (isChain_sortResults_iff (hrising.imp hlt)).mp ((List.isChain_append.mp hchain).2.1.imp hlt)
    · exact (isChain_sortResults_iff (hserved.isChain hpoll).1).mp (List.isChain_append.mp hchain').2.1

/-- **What a failed poll loses.**  For every sequence of polls of a symbol whose endpoints keep their promises:
the trades are emitted one after the other and the closed candles in order, each once, and a poll that raises
leaves the cursors, exactly when every poll that comes to a new trade or candle reads everything, and has no
data out of the order of their times and ids as texts. -/
theorem losesNothing_iff (symbol : String) (polls : List Poll)
    (hserved : Throughout (Poller.step symbol) (Served symbol) {} polls) :
    (Always (Poller.step symbol) Complete {} polls ∧
        Throughout (Poller.step symbol) (KeepsCursors symbol) {} polls) ↔
      Throughout (Poller.step symbol) (Orderly symbol) {} polls := by
  have hiff : Always (Poller.step symbol) Complete {} polls ↔
      Throughout (Poller.step symbol) (Orderly symbol) {} polls :=
    always_iff_throughout_of (I := Poller.Sound)
      (fun _ _ hsound hserves horderly => hsound.step hserves horderly)
      (fun _ hsound => hsound.toComplete)
      (fun _ _ hsound hserves hnot => hsound.not_complete_step hserves hnot) Poller.sound_initial hserved
  refine ⟨fun h => hiff.mp h.1, fun h => ⟨hiff.mpr h, ?_⟩⟩
  exact (throughout_and.mpr ⟨hserved, h⟩).imp fun _ _ hboth => hboth.2.keepsCursors hboth.1

/-! ## Three polls -/

/-- A poll with one trade, one closed candle, and the book that the depth response gives. -/
def pollOf (tradeId : ℤ) (depthSequence : Except PyError ℤ) : Poll where
  now := tradeId
  responses := .ok {
    trades := .ok [{ a := .ok tradeId, T := .ok tradeId, p := .ok 1, q := .ok 1, m := .ok false }]
    depth := .ok { lastUpdateId := depthSequence, bids := .ok [], asks := .ok [] }
    candles := .ok [
      { openTime := .ok 0, closeTime := .ok 0, openPrice := .ok 1, high := .ok 1, low := .ok 1
        close := .ok 1, volume := .ok 1 },
      { openTime := .ok 60000, closeTime := .ok 60000, openPrice := .ok 1, high := .ok 1, low := .ok 1
        close := .ok 1, volume := .ok 1 }] }

/-- The poll shows the trade that was asked for, and a candle that is the first, or was shown before. -/
theorem served_pollOf {tradeId : ℤ} {depthSequence : Except PyError ℤ}
    (hfrom : ∀ fromId, s.cursors.fromId = some fromId → tradeId = fromId)
    (hshown : 0 ∈ s.shown ∨ s.shown = []) : Served symbol s (pollOf tradeId depthSequence) := by
  rintro _ ⟨⟩
  refine ⟨⟨tradeId, hfrom, ?_, trivial⟩, List.pairwise_singleton _ _, ?_⟩
  · exact fun _ hnumber => (Except.ok.inj hnumber).symm
  · intro openTime hopen
    obtain rfl : openTime = 0 := List.mem_singleton.mp hopen
    refine ⟨le_refl 0, hshown.imp_right fun hnil => ?_⟩
    rw [hnil]
    exact fun _ hmem => (List.not_mem_nil hmem).elim

/-- The poll reads everything, and has one trade and one candle at most. -/
theorem orderly_pollOf {tradeId depthSequence : ℤ} (hnew : s.cursors.trade < tradeId)
    (hcandle : s.cursors.lastCandleOpen = none ∨ s.cursors.lastCandleOpen = some 0) :
    Orderly symbol s (pollOf tradeId (.ok depthSequence)) := by
  rintro _ ⟨⟩
  refine ⟨fun _ => ⟨⟨⟨_, rfl⟩, ?_, _, rfl⟩, ⟨_, rfl⟩, ?_⟩, fun _ => ⟨?_, ?_⟩⟩
  · exact List.forall_mem_singleton.mpr (Or.inr (isSome_newer?_iff.mpr ⟨tradeId, _, rfl, rfl, hnew⟩))
  · refine List.forall_mem_singleton.mpr (hcandle.symm.imp (fun hshown => ?_) fun hnone => ?_)
    · rw [Cursors.candle, hshown]
      exact ⟨0, rfl, le_refl 0⟩
    · rw [Cursors.candle, hnone]
      exact isSome_newer?_iff.mpr ⟨0, _, rfl, rfl, by decide⟩
  · exact List.pairwise_filterMap.mpr (List.pairwise_singleton _ _)
  · exact List.pairwise_filterMap.mpr (List.pairwise_singleton _ _)

/-- A poll, a second one that times out, and a third one. -/
def timeoutBetween : List Poll :=
  [pollOf 9 (.ok 1), { now := 10, responses := .error (.timeoutError "ReadTimeout") }, pollOf 10 (.ok 2)]

theorem losesNothing_timeoutBetween :
    Always (Poller.step "BTCUSDT") Complete {} timeoutBetween ∧
      Throughout (Poller.step "BTCUSDT") (KeepsCursors "BTCUSDT") {} timeoutBetween := by
  have hserved : Throughout (Poller.step "BTCUSDT") (Served "BTCUSDT") {} timeoutBetween := by
    refine ⟨served_pollOf (fun _ h => nomatch h) (Or.inr rfl), (fun _ h => nomatch h),
      served_pollOf ?_ (Or.inl ?_), trivial⟩
    · decide +kernel
    · decide +kernel
  refine (losesNothing_iff "BTCUSDT" timeoutBetween hserved).mpr
    ⟨orderly_pollOf (by decide) (Or.inl rfl), (fun _ h => nomatch h), orderly_pollOf ?_ (Or.inr ?_),
      trivial⟩
  · decide +kernel
  · decide +kernel

/-- The second poll reads the trade 10, and a depth response without its number. -/
def malformedBetween : List Poll :=
  [pollOf 9 (.ok 1), pollOf 10 (.error (.keyError "lastUpdateId")), pollOf 11 (.ok 3)]

/-- The trade 10 is never emitted. -/
theorem malformed_depth_loses :
    ¬ ∀ (symbol : String) (polls : List Poll), Throughout (Poller.step symbol) (Served symbol) {} polls →
      Always (Poller.step symbol) Complete {} polls ∧
        Throughout (Poller.step symbol) (KeepsCursors symbol) {} polls := by
  intro hclaim
  have hserved : Throughout (Poller.step "BTCUSDT") (Served "BTCUSDT") {} malformedBetween := by
    refine ⟨served_pollOf (fun _ h => nomatch h) (Or.inr rfl), served_pollOf ?_ (Or.inl ?_),
      served_pollOf ?_ (Or.inl ?_), trivial⟩
    · decide +kernel
    · decide +kernel
    · decide +kernel
    · decide +kernel
  have htrades := ((hclaim "BTCUSDT" malformedBetween hserved).1.final).trades
  revert htrades
  unfold Consecutive
  decide +kernel

end Step

end Ingestion
end Scam2Market
