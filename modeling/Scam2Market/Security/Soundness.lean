import Scam2Market.Library.Fallible
import Scam2Market.Security.MarketData

/-!
# What the guardrails guarantee

The guardrails look at numbers, and at the first fifty levels of a side; the models also read texts as
numbers, and all levels.

* `guarded_of_accepted`: what is known of an accepted payload (`Guarded`), and `fair_iff_fairText` and
  `fair_rows_iff`: what is left to know of its fields and of its levels.
* `sound_iff_plain`: accepted market data is sound exactly when the texts that are read as numbers and
  the levels behind the fiftieth are (`unsound_accepted` for data that is not).
-/

namespace Scam2Market
namespace Security

open Library.Fallible (bind_eq_ok mapM_eq_ok exists_of_mem_mapM exists_result_of_mem map_eq_of_mapM)

variable {p : Pydantic} {payload : Payload} {key : String} {value : Value} {number : PyFloat}

/-! ## Sound data and plain payloads -/

/-- The book of an update: finite numbers that are not negative, and not crossed. -/
structure OrderBookUpdate.Sound (book : OrderBookUpdate) : Prop where
  bestBid : ∀ bid ∈ book.bestBid, bid.Fair
  bestAsk : ∀ ask ∈ book.bestAsk, ask.Fair
  uncrossed : ∀ bid ∈ book.bestBid, ∀ ask ∈ book.bestAsk, ask.lt bid = false
  spread : ∀ spread ∈ book.spread, spread.Fair
  bids : ∀ level ∈ book.bids, level.1.Fair ∧ level.2.Fair
  asks : ∀ level ∈ book.asks, level.1.Fair ∧ level.2.Fair
  topBidDepth : ∀ depth ∈ book.topBidDepth, depth.Fair
  topAskDepth : ∀ depth ∈ book.topAskDepth, depth.Fair

/-- The numbers of market data are finite and not negative, and a book is not crossed. -/
def MarketDatum.Sound : MarketDatum → Prop
  | .trade datum => datum.price.Fair ∧ datum.quantity.Fair
  | .candle datum =>
    datum.openPrice.Fair ∧ datum.high.Fair ∧ datum.low.Fair ∧ datum.close.Fair ∧ datum.volume.Fair
  | .book datum => datum.Sound

/-- A value that is a text, if it is read as a number, is read as a fair one. -/
def FairText (p : Pydantic) (value : Option Value) : Prop :=
  ∀ text, value = some (.str text) → ∀ number, p.float (.str text) = .ok number → number.Fair

/-- The price and the quantity of a level are read as fair numbers. -/
def FairLevel (p : Pydantic) (level : Value) : Prop :=
  ∀ price quantity, level = .list [price, quantity] →
    (∀ number, p.float price = .ok number → number.Fair) ∧
      ∀ number, p.float quantity = .ok number → number.Fair

/-- The levels of a side. -/
def rowsOf (payload : Payload) (side : String) : List Value :=
  match payload.get? side with
  | some (.list items) => items
  | _ => []

/-- The quantity of a level. -/
def quantityOf (p : Pydantic) : Value → ℚ
  | .list [_, quantity] =>
    match p.float quantity with
    | .ok number => number.toRat
    | .error _ => 0
  | _ => 0

/-- The exact depth of the first five levels of a side. -/
def exactDepth (p : Pydantic) (payload : Payload) (side : String) : ℚ :=
  (((rowsOf payload side).take 5).map (quantityOf p)).sum

/-- A side of a book is plain: the levels that are not inspected are fair, the depth does not overflow,
and where there is none, the one that the payload gives is fair. -/
structure PlainSide (p : Pydantic) (payload : Payload) (side depthKey : String) : Prop where
  uninspected : ∀ level ∈ (rowsOf payload side).drop 50, FairLevel p level
  bounded : exactDepth p payload side < overflowBound
  stored : exactDepth p payload side = 0 → FairText p (payload.get? depthKey)

/-- A book is plain: best prices that are texts are fair, and not crossed. -/
structure PlainBook (p : Pydantic) (payload : Payload) : Prop where
  bestBid : FairText p (payload.get? "best_bid")
  bestAsk : FairText p (payload.get? "best_ask")
  uncrossed : ∀ bid ask, payload.get? "best_bid" = some bid → payload.get? "best_ask" = some ask →
    (∃ text, bid = .str text ∨ ask = .str text) →
    ∀ bestBid bestAsk, p.float bid = .ok bestBid → p.float ask = .ok bestAsk →
      bestAsk.lt bestBid = false
  bids : PlainSide p payload "bids" "top_bid_depth"
  asks : PlainSide p payload "asks" "top_ask_depth"

/-- What is not inspected in an event is in order. -/
def Plain (p : Pydantic) (event : CanonicalEvent) : Prop :=
  match event.eventType with
  | .marketTradeReceived => ∀ key ∈ ["price", "quantity"], FairText p (event.payload.get? key)
  | .marketCandleClosed =>
    ∀ key ∈ ["open", "high", "low", "close", "volume"], FairText p (event.payload.get? key)
  | .marketOrderbookUpdated => PlainBook p event.payload
  | .other _ => True

/-! ## What is inspected -/

/-- A level that is inspected and passes. -/
def InspectedLevel (level : Value) : Prop :=
  ∃ price quantity rest, level = .list (price :: quantity :: rest) ∧
    (∃ a, asFloat price = .ok (some a) ∧ a.Fair) ∧ ∃ a, asFloat quantity = .ok (some a) ∧ a.Fair

/-- What is known of a payload that is accepted. -/
structure Guarded (payload : Payload) : Prop where
  items : ∀ item ∈ payload.entries, itemReasons item = .ok []
  crossed : crossedReasons payload = .ok []
  sides : ∀ side ∈ ["bids", "asks"], sideReasons payload side = .ok []

/-- **An accepted payload gave no reason.** -/
theorem guarded_of_accepted {decision : GuardrailDecision}
    (h : inspectMarketPayload payload = .ok decision) (haccepted : decision.accepted = true) :
    Guarded payload := by
  obtain ⟨items, hitems, h⟩ := bind_eq_ok.mp h
  obtain ⟨crossed, hcrossed, h⟩ := bind_eq_ok.mp h
  obtain ⟨bids, hbids, h⟩ := bind_eq_ok.mp h
  obtain ⟨asks, hasks, h⟩ := bind_eq_ok.mp h
  obtain rfl := Except.ok.inj h
  have hnil : items.flatten ++ crossed ++ bids ++ asks = [] := List.isEmpty_iff.mp haccepted
  simp only [List.append_eq_nil_iff] at hnil
  obtain ⟨⟨⟨hflatten, rfl⟩, rfl⟩, rfl⟩ := hnil
  refine ⟨fun item hitem => ?_, hcrossed, ?_⟩
  · obtain ⟨reasons, hreasons, hresult⟩ := exists_result_of_mem hitems hitem
    rw [hresult, List.flatten_eq_nil_iff.mp hflatten reasons hreasons]
  · intro side hside
    rcases List.mem_pair.mp hside with rfl | rfl
    · exact hbids
    · exact hasks

/-- A number of an accepted payload is finite, and under the names of the list not negative. -/
theorem Guarded.fair (h : Guarded payload) (hget : payload.get? key = some value)
    (hkey : key ∈ marketNonNegativeFields) (hnumber : asFloat value = .ok (some number)) :
    number.Fair := by
  have hreasons := h.items (key, value) (Library.OrderedDict.mem_entries_iff.mpr hget)
  simp only [itemReasons, hnumber] at hreasons
  obtain ⟨found, hfound, hreasons⟩ := bind_eq_ok.mp hreasons
  obtain rfl := Except.ok.inj hfound
  simp only at hreasons
  split_ifs at hreasons with hfinite hnegative
  · cases Except.ok.inj hreasons
  · exact PyFloat.fair_iff.mpr
      ⟨hfinite, Bool.eq_false_iff.mpr fun hlt => hnegative ⟨hkey, hlt⟩⟩
  · cases Except.ok.inj hreasons

/-- Every value of an accepted payload could be inspected. -/
theorem Guarded.asFloat_ok (h : Guarded payload) (hget : payload.get? key = some value) :
    ∃ found, asFloat value = .ok found := by
  obtain ⟨found, hfound, -⟩ :=
    bind_eq_ok.mp (h.items (key, value) (Library.OrderedDict.mem_entries_iff.mpr hget))
  exact ⟨found, hfound⟩

theorem number_eq_some (h : Security.number value = .ok (some number)) :
    asFloat value = .ok (some number) ∧ number.isFinite = true := by
  rw [Security.number] at h
  cases hfloat : asFloat value with
  | error e =>
    rw [hfloat] at h
    cases h
  | ok found =>
    rw [hfloat] at h
    obtain ⟨hsome, hfinite⟩ := Option.filter_eq_some_iff.mp (Except.ok.inj h)
    exact ⟨congrArg Except.ok hsome, hfinite⟩

/-- A loop over levels that gives no reason has inspected them all. -/
theorem inspected_of_levelReasons {levels : List Value} (h : levelReasons levels = .ok []) :
    ∀ level ∈ levels, InspectedLevel level := by
  induction levels with
  | nil => exact fun _ h => absurd h List.not_mem_nil
  | cons level levels ih =>
    rw [levelReasons.eq_def] at h
    split at h
    · contradiction
    · next price quantity rest levels' heq =>
      obtain ⟨rfl, rfl⟩ := List.cons.inj heq
      obtain ⟨a, ha, h⟩ := bind_eq_ok.mp h
      obtain ⟨b, hb, h⟩ := bind_eq_ok.mp h
      rcases a with _ | a
      · cases Except.ok.inj h
      rcases b with _ | b
      · cases Except.ok.inj h
      simp only at h
      split_ifs at h with hnegative
      · cases Except.ok.inj h
      rw [not_or, Bool.not_eq_true, Bool.not_eq_true] at hnegative
      obtain ⟨ha, hafinite⟩ := number_eq_some ha
      obtain ⟨hb, hbfinite⟩ := number_eq_some hb
      intro level hlevel
      rcases List.mem_cons.mp hlevel with rfl | hlevel
      · exact ⟨price, quantity, rest, rfl, ⟨a, ha, PyFloat.fair_iff.mpr ⟨hafinite, hnegative.1⟩⟩,
          ⟨b, hb, PyFloat.fair_iff.mpr ⟨hbfinite, hnegative.2⟩⟩⟩
      · exact ih h level hlevel
    · cases Except.ok.inj h

theorem sideReasons_eq (payload : Payload) (side : String) :
    sideReasons payload side = levelReasons ((rowsOf payload side).take 50) := by
  rw [sideReasons, rowsOf]
  cases payload.get? side with
  | none => rfl
  | some value => cases value <;> rfl

/-- The first fifty levels of a side of an accepted payload are inspected. -/
theorem Guarded.inspected (h : Guarded payload) {side : String} (hside : side ∈ ["bids", "asks"]) :
    ∀ level ∈ (rowsOf payload side).take 50, InspectedLevel level :=
  inspected_of_levelReasons (sideReasons_eq payload side ▸ h.sides side hside)

/-! ## Fields -/

theorem checkedValue_eq_ok {α : Type} {validate : Value → Except String α} {result : α} :
    checkedValue key validate value = .ok result ↔ validate value = .ok result := by
  rw [checkedValue]
  cases validate value with
  | error message => exact iff_of_false (fun h => nomatch h) fun h => nomatch h
  | ok found => exact ⟨fun h => congrArg Except.ok (Except.ok.inj h),
      fun h => congrArg Except.ok (Except.ok.inj h)⟩

theorem required_eq_ok {α : Type} {validate : Value → Except String α} {result : α}
    (h : required payload key validate = .ok result) :
    ∃ value, payload.get? key = some value ∧ validate value = .ok result := by
  rw [required] at h
  cases hget : payload.get? key with
  | none =>
    rw [hget] at h
    cases h
  | some value =>
    rw [hget] at h
    exact ⟨value, rfl, checkedValue_eq_ok.mp h⟩

theorem optional_eq_ok {α : Type} {validate : Value → Except String α} {result : Option α}
    (h : optional payload key validate = .ok result) :
    (result = none ∧ (payload.get? key = none ∨ payload.get? key = some .null)) ∨
      ∃ value found, payload.get? key = some value ∧ validate value = .ok found ∧
        result = some found := by
  rw [optional] at h
  split at h
  · next hget => exact Or.inl ⟨(Except.ok.inj h).symm, Or.inr hget⟩
  · next value hnull hget =>
    right
    cases hchecked : checkedValue key validate value with
    | error errors =>
      rw [hchecked] at h
      cases h
    | ok found =>
      rw [hchecked] at h
      exact ⟨value, found, hget, checkedValue_eq_ok.mp hchecked, (Except.ok.inj h).symm⟩
  · next hget => exact Or.inl ⟨(Except.ok.inj h).symm, Or.inl hget⟩

theorem both_eq_ok {α β : Type} {a : Checked α} {b : Checked β} {result : α × β}
    (h : a.both b = .ok result) : a = .ok result.1 ∧ b = .ok result.2 := by
  cases a with
  | error errors =>
    cases b with
    | error errors' => cases h
    | ok b => cases h
  | ok a =>
    cases b with
    | error errors => cases h
    | ok b =>
      obtain rfl := Except.ok.inj h
      exact ⟨rfl, rfl⟩

theorem map_eq_ok {ε α β : Type} {x : Except ε α} {f : α → β} {result : β}
    (h : x.map f = .ok result) : ∃ a, x = .ok a ∧ f a = result := by
  cases x with
  | error e => cases h
  | ok a => exact ⟨a, rfl, Except.ok.inj h⟩

theorem validated_eq_ok {α : Type} {x : Checked α} {result : α} (h : x.validated = .ok result) :
    x = .ok result := by
  cases x with
  | error e => cases h
  | ok a => exact congrArg Except.ok (Except.ok.inj h)

/-- What is read of a value that is not a text is the number that it is. -/
theorem asFloat_of_float (hfound : ∃ found, asFloat value = .ok found)
    (htext : ∀ text, value ≠ .str text) (hfloat : p.float value = .ok number) :
    asFloat value = .ok (some number) := by
  obtain ⟨found, hfound⟩ := hfound
  cases found with
  | none =>
    obtain ⟨message, herror⟩ := p.float_other value hfound htext
    rw [hfloat] at herror
    cases herror
  | some found =>
    have hsame := p.float_number value found hfound
    rw [hfloat] at hsame
    rw [hfound, Except.ok.inj hsame]

/-- **A field of an accepted payload** is fair exactly when it is, in case it is a text. -/
theorem fair_iff_fairText (h : Guarded payload) (hkey : key ∈ marketNonNegativeFields)
    (hget : payload.get? key = some value) (hfloat : p.float value = .ok number) :
    number.Fair ↔ FairText p (payload.get? key) := by
  rw [hget]
  constructor
  · intro hfair text htext other hother
    rw [← Option.some.inj htext, hfloat] at hother
    exact Except.ok.inj hother ▸ hfair
  · intro hfair
    by_cases htext : ∃ text, value = .str text
    · obtain ⟨text, rfl⟩ := htext
      exact hfair text rfl number hfloat
    · exact h.fair hget hkey
        (asFloat_of_float (h.asFloat_ok hget) (fun text heq => htext ⟨text, heq⟩) hfloat)

theorem required_fair_iff (h : Guarded payload) (hkey : key ∈ marketNonNegativeFields)
    (hfield : required payload key p.float = .ok number) :
    number.Fair ↔ FairText p (payload.get? key) := by
  obtain ⟨value, hget, hfloat⟩ := required_eq_ok hfield
  exact fair_iff_fairText h hkey hget hfloat

theorem fairText_of_absent {field : Option Value} (h : field = none ∨ field = some .null) :
    FairText p field := by
  intro text htext
  rcases h with rfl | rfl
  · cases htext
  · cases htext

theorem optional_fair_iff (h : Guarded payload) (hkey : key ∈ marketNonNegativeFields)
    {result : Option PyFloat} (hfield : optional payload key p.float = .ok result) :
    (∀ number ∈ result, number.Fair) ↔ FairText p (payload.get? key) := by
  rcases optional_eq_ok hfield with ⟨rfl, habsent⟩ | ⟨value, found, hget, hfloat, rfl⟩
  · exact iff_of_true (fun _ h => nomatch h) (fairText_of_absent habsent)
  · rw [← fair_iff_fairText h hkey hget hfloat]
    exact ⟨fun hall => hall found rfl, fun hfair number hnumber => Option.some.inj hnumber ▸ hfair⟩

/-! ## Levels -/

/-- The levels of the model are those of the side, one by one. -/
theorem listed_eq_ok {side : String} {rows : List (PyFloat × PyFloat)}
    (h : listed payload side p.levels = .ok rows) :
    (rowsOf payload side).mapM p.level = .ok rows := by
  rw [listed] at h
  rw [rowsOf]
  cases hget : payload.get? side with
  | none =>
    rw [hget] at h
    obtain rfl := Except.ok.inj h
    rfl
  | some value =>
    rw [hget] at h
    have hlevels : p.levels value = .ok rows := checkedValue_eq_ok.mp h
    cases value with
    | list items => exact hlevels
    | _ => cases hlevels

theorem level_eq_ok {level : Value} {row : PyFloat × PyFloat} (h : p.level level = .ok row) :
    ∃ price quantity, level = .list [price, quantity] ∧ p.float price = .ok row.1 ∧
      p.float quantity = .ok row.2 := by
  rw [Pydantic.level.eq_def] at h
  split at h
  · next price quantity =>
    obtain ⟨a, ha, h⟩ := bind_eq_ok.mp h
    obtain ⟨b, hb, h⟩ := bind_eq_ok.mp h
    obtain rfl := Except.ok.inj h
    exact ⟨price, quantity, rfl, ha, hb⟩
  · cases h

theorem fairLevel_iff {level : Value} {row : PyFloat × PyFloat} (h : p.level level = .ok row) :
    FairLevel p level ↔ row.1.Fair ∧ row.2.Fair := by
  obtain ⟨price, quantity, rfl, hprice, hquantity⟩ := level_eq_ok h
  constructor
  · intro hfair
    obtain ⟨hfairPrice, hfairQuantity⟩ := hfair price quantity rfl
    exact ⟨hfairPrice row.1 hprice, hfairQuantity row.2 hquantity⟩
  · rintro ⟨hfairPrice, hfairQuantity⟩ price' quantity' heq
    obtain ⟨rfl, rfl⟩ : price = price' ∧ quantity = quantity' := by simpa using heq
    exact ⟨fun number hnumber => Except.ok.inj (hprice.symm.trans hnumber) ▸ hfairPrice,
      fun number hnumber => Except.ok.inj (hquantity.symm.trans hnumber) ▸ hfairQuantity⟩

/-- A level that is inspected is fair. -/
theorem InspectedLevel.fair {level : Value} (h : InspectedLevel level) : FairLevel p level := by
  obtain ⟨price, quantity, rest, rfl, ⟨a, ha, hfairA⟩, b, hb, hfairB⟩ := h
  intro price' quantity' heq
  obtain ⟨rfl, rfl, -⟩ : price = price' ∧ quantity = quantity' ∧ rest = [] := by simpa using heq
  have hprice : p.float price = .ok a := p.float_number _ _ ha
  have hquantity : p.float quantity = .ok b := p.float_number _ _ hb
  exact ⟨fun number hnumber => Except.ok.inj (hprice.symm.trans hnumber) ▸ hfairA,
    fun number hnumber => Except.ok.inj (hquantity.symm.trans hnumber) ▸ hfairB⟩

theorem quantityOf_eq {level : Value} {row : PyFloat × PyFloat} (h : p.level level = .ok row) :
    quantityOf p level = row.2.toRat := by
  obtain ⟨price, quantity, rfl, -, hquantity⟩ := level_eq_ok h
  rw [quantityOf, hquantity]

section Side

variable {side depthKey : String} {rows : List (PyFloat × PyFloat)} {stored : Option PyFloat}

/-- **The levels of a side** are fair exactly when those behind the fiftieth are. -/
theorem fair_rows_iff (h : Guarded payload) (hside : side ∈ ["bids", "asks"])
    (hrows : (rowsOf payload side).mapM p.level = .ok rows) :
    (∀ row ∈ rows, row.1.Fair ∧ row.2.Fair) ↔
      ∀ level ∈ (rowsOf payload side).drop 50, FairLevel p level := by
  constructor
  · intro hfair level hlevel
    obtain ⟨row, hrow, hread⟩ := exists_result_of_mem hrows (List.mem_of_mem_drop hlevel)
    exact (fairLevel_iff hread).mpr (hfair row hrow)
  · intro hrest row hrow
    obtain ⟨level, hlevel, hread⟩ := exists_of_mem_mapM hrows hrow
    rw [← fairLevel_iff hread]
    rw [← List.take_append_drop 50 (rowsOf payload side)] at hlevel
    rcases List.mem_append.mp hlevel with hfirst | hlater
    · exact (h.inspected hside level hfirst).fair
    · exact hrest level hlater

/-- The depth is the exact depth, or infinite. -/
theorem topDepth_eq (h : Guarded payload) (hside : side ∈ ["bids", "asks"])
    (hrows : (rowsOf payload side).mapM p.level = .ok rows) :
    topDepth rows = .ofRat (exactDepth p payload side) ∧ 0 ≤ exactDepth p payload side := by
  have hfirst : ((rowsOf payload side).take 5).mapM p.level = .ok (rows.take 5) :=
    mapM_eq_ok.mpr (List.forall₂_take 5 (mapM_eq_ok.mp hrows))
  have hfair : ∀ row ∈ rows.take 5, row.1.Fair ∧ row.2.Fair := by
    intro row hrow
    obtain ⟨level, hlevel, hread⟩ := exists_of_mem_mapM hfirst hrow
    have hinspected : level ∈ (rowsOf payload side).take 50 :=
      (List.take_subset_take_left (rowsOf payload side) (by decide)) hlevel
    exact (fairLevel_iff hread).mp (h.inspected hside level hinspected).fair
  have hquantities : ∀ quantity ∈ (rows.take 5).map Prod.snd, quantity.Fair := by
    intro quantity hquantity
    obtain ⟨row, hrow, rfl⟩ := List.mem_map.mp hquantity
    exact (hfair row hrow).2
  have hexact : ((rowsOf payload side).take 5).map (quantityOf p) =
      ((rows.take 5).map Prod.snd).map PyFloat.toRat := by
    rw [List.map_map]
    exact (map_eq_of_mapM (fun _ _ hread => (quantityOf_eq hread).symm) hfirst).symm
  rw [topDepth, pySum_eq hquantities, exactDepth, hexact]
  refine ⟨rfl, List.sum_nonneg fun total htotal => ?_⟩
  obtain ⟨quantity, hquantity, rfl⟩ := List.mem_map.mp htotal
  exact (hquantities quantity hquantity).toRat_nonneg

/-- **A side of a book** is sound exactly when it is plain. -/
theorem sound_side_iff (h : Guarded payload) (hside : side ∈ ["bids", "asks"])
    (hdepthKey : depthKey ∈ marketNonNegativeFields)
    (hrows : (rowsOf payload side).mapM p.level = .ok rows)
    (hstored : optional payload depthKey p.float = .ok stored) :
    ((∀ row ∈ rows, row.1.Fair ∧ row.2.Fair) ∧
        ∀ depth ∈ depthOr (topDepth rows) stored, depth.Fair) ↔
      PlainSide p payload side depthKey := by
  obtain ⟨hdepth, hnonneg⟩ := topDepth_eq h hside hrows
  have hrest := fair_rows_iff h hside hrows
  have hkept := optional_fair_iff h hdepthKey hstored
  by_cases hzero : exactDepth p payload side = 0
  · have hnone : depthOr (topDepth rows) stored = stored := by
      rw [depthOr, hdepth, if_pos ((PyFloat.ofRat_eq_zero_iff hnonneg).mpr hzero)]
    rw [hnone, hrest, hkept]
    constructor
    · rintro ⟨huninspected, hfair⟩
      exact ⟨huninspected, hzero ▸ overflowBound_pos, fun _ => hfair⟩
    · intro hplain
      exact ⟨hplain.uninspected, hplain.stored hzero⟩
  · have hsome : depthOr (topDepth rows) stored = some (.ofRat (exactDepth p payload side)) := by
      rw [depthOr, hdepth, if_neg fun heq => hzero ((PyFloat.ofRat_eq_zero_iff hnonneg).mp heq)]
    rw [hsome, hrest]
    constructor
    · rintro ⟨huninspected, hfair⟩
      exact ⟨huninspected, (PyFloat.fair_ofRat_iff hnonneg).mp (hfair _ rfl), fun h => absurd h hzero⟩
    · intro hplain
      refine ⟨hplain.uninspected, fun depth hdepth => ?_⟩
      rw [← Option.some.inj hdepth]
      exact (PyFloat.fair_ofRat_iff hnonneg).mpr hplain.bounded

end Side

/-! ## Books -/

/-- A number of an accepted payload that is not a text is what the guardrails look at. -/
theorem number_of_float (h : Guarded payload) (hget : payload.get? key = some value)
    (hkey : key ∈ marketNonNegativeFields) (htext : ∀ text, value ≠ .str text)
    (hfloat : p.float value = .ok number) : Security.number value = .ok (some number) := by
  have hnumber := asFloat_of_float (h.asFloat_ok hget) htext hfloat
  have hfinite : number.isFinite = true := (PyFloat.fair_iff.mp (h.fair hget hkey hnumber)).1
  rw [Security.number, hnumber]
  show Except.ok ((some number).filter PyFloat.isFinite) = _
  rw [Option.filter_some, if_pos hfinite]

/-- Best prices of an accepted payload of which neither is a text are not crossed. -/
theorem uncrossed_of_numbers (h : Guarded payload) {bid ask : Value} {bestBid bestAsk : PyFloat}
    (hbid : payload.get? "best_bid" = some bid) (hask : payload.get? "best_ask" = some ask)
    (htext : ¬ ∃ text, bid = .str text ∨ ask = .str text) (hbestBid : p.float bid = .ok bestBid)
    (hbestAsk : p.float ask = .ok bestAsk) : bestAsk.lt bestBid = false := by
  have hbidNumber := number_of_float h hbid (by decide)
    (fun text heq => htext ⟨text, Or.inl heq⟩) hbestBid
  have haskNumber := number_of_float h hask (by decide)
    (fun text heq => htext ⟨text, Or.inr heq⟩) hbestAsk
  have hcrossed := h.crossed
  rw [crossedReasons, hbid, hask, Option.getD_some, Option.getD_some, hbidNumber, haskNumber] at hcrossed
  have hreasons : (if bestAsk.lt bestBid then ["CROSSED_ORDERBOOK"] else []) = [] :=
    Except.ok.inj hcrossed
  by_contra hlt
  rw [if_pos (Bool.not_eq_false _ ▸ hlt)] at hreasons
  cases hreasons

/-- `None` is not a number. -/
theorem float_null_ne_ok : p.float .null ≠ .ok number := by
  obtain ⟨message, herror⟩ := p.float_other .null rfl fun _ => nofun
  rw [herror]
  exact nofun

/-- The number of an optional field is what its value is read as. -/
theorem mem_optional_iff {result : Option PyFloat} (h : optional payload key p.float = .ok result) :
    number ∈ result ↔ ∃ value, payload.get? key = some value ∧ p.float value = .ok number := by
  rcases optional_eq_ok h with ⟨rfl, habsent⟩ | ⟨value, found, hget, hfloat, rfl⟩
  · refine iff_of_false (Option.not_mem_none number) ?_
    rintro ⟨value, hget, hfloat⟩
    rcases habsent with hnone | hnull
    · rw [hnone] at hget
      cases hget
    · rw [hnull] at hget
      obtain rfl := Option.some.inj hget
      exact float_null_ne_ok hfloat
  · constructor
    · intro hnumber
      exact ⟨value, hget, Option.some.inj hnumber ▸ hfloat⟩
    · rintro ⟨value', hget', hfloat'⟩
      obtain rfl := Option.some.inj (hget.symm.trans hget')
      rw [Except.ok.inj (hfloat.symm.trans hfloat')]
      rfl

/-- The best prices of a book are not crossed exactly when texts among them are not. -/
theorem uncrossed_iff (h : Guarded payload) {bestBid bestAsk : Option PyFloat}
    (hbid : optional payload "best_bid" p.float = .ok bestBid)
    (hask : optional payload "best_ask" p.float = .ok bestAsk) :
    (∀ bid ∈ bestBid, ∀ ask ∈ bestAsk, ask.lt bid = false) ↔
      ∀ bid ask, payload.get? "best_bid" = some bid → payload.get? "best_ask" = some ask →
        (∃ text, bid = .str text ∨ ask = .str text) →
        ∀ bestBid bestAsk, p.float bid = .ok bestBid → p.float ask = .ok bestAsk →
          bestAsk.lt bestBid = false := by
  constructor
  · intro hall bid ask hgetBid hgetAsk _ bestBid bestAsk hbestBid hbestAsk
    exact hall bestBid ((mem_optional_iff hbid).mpr ⟨bid, hgetBid, hbestBid⟩) bestAsk
      ((mem_optional_iff hask).mpr ⟨ask, hgetAsk, hbestAsk⟩)
  · intro htexts bestBid hbestBid bestAsk hbestAsk
    obtain ⟨bid, hgetBid, hfloatBid⟩ := (mem_optional_iff hbid).mp hbestBid
    obtain ⟨ask, hgetAsk, hfloatAsk⟩ := (mem_optional_iff hask).mp hbestAsk
    by_cases htext : ∃ text, bid = .str text ∨ ask = .str text
    · exact htexts bid ask hgetBid hgetAsk htext bestBid bestAsk hfloatBid hfloatAsk
    · exact uncrossed_of_numbers h hgetBid hgetAsk htext hfloatBid hfloatAsk

/-- The spread of fair prices is fair when they are not crossed. -/
theorem spread_fair {book : OrderBookUpdate} (hbid : ∀ bid ∈ book.bestBid, bid.Fair)
    (hask : ∀ ask ∈ book.bestAsk, ask.Fair)
    (huncrossed : ∀ bid ∈ book.bestBid, ∀ ask ∈ book.bestAsk, ask.lt bid = false) :
    ∀ spread ∈ spreadOf book, spread.Fair := by
  intro spread hspread
  rw [spreadOf] at hspread
  cases hbestAsk : book.bestAsk with
  | none =>
    rw [hbestAsk] at hspread
    cases hspread
  | some ask =>
    cases hbestBid : book.bestBid with
    | none =>
      rw [hbestAsk, hbestBid] at hspread
      cases hspread
    | some bid =>
      rw [hbestAsk, hbestBid] at hspread
      rw [← Option.some.inj hspread]
      exact (PyFloat.fair_sub_iff (hask ask hbestAsk) (hbid bid hbestBid)).mpr
        (huncrossed bid hbestBid ask hbestAsk)

/-- **A book is sound exactly when it is plain.** -/
theorem sound_book_iff {event : CanonicalEvent} (h : Guarded event.payload) {book : OrderBookUpdate}
    (hbook : event.validateBook p = .ok book) :
    (normalizedBook book).Sound ↔ PlainBook p event.payload := by
  obtain ⟨fields, hfields, rfl⟩ := map_eq_ok hbook
  obtain ⟨updateId, assetId, bestBid, bestAsk, spread, topBidDepth, topAskDepth, bids, asks⟩ := fields
  obtain ⟨-, hfields⟩ := both_eq_ok hfields
  obtain ⟨-, hfields⟩ := both_eq_ok hfields
  obtain ⟨hbid, hfields⟩ := both_eq_ok hfields
  obtain ⟨hask, hfields⟩ := both_eq_ok hfields
  obtain ⟨-, hfields⟩ := both_eq_ok hfields
  obtain ⟨hbidDepth, hfields⟩ := both_eq_ok hfields
  obtain ⟨haskDepth, hfields⟩ := both_eq_ok hfields
  obtain ⟨hbids, hasks⟩ := both_eq_ok hfields
  have hbidFair := optional_fair_iff h (by decide) hbid
  have haskFair := optional_fair_iff h (by decide) hask
  have huncrossed := uncrossed_iff h hbid hask
  have hbidSide := sound_side_iff h (by decide) (by decide) (listed_eq_ok hbids) hbidDepth
  have haskSide := sound_side_iff h (by decide) (by decide) (listed_eq_ok hasks) haskDepth
  constructor
  · intro hsound
    exact ⟨hbidFair.mp hsound.bestBid, haskFair.mp hsound.bestAsk, huncrossed.mp hsound.uncrossed,
      hbidSide.mp ⟨hsound.bids, hsound.topBidDepth⟩, haskSide.mp ⟨hsound.asks, hsound.topAskDepth⟩⟩
  · intro hplain
    obtain ⟨hbidLevels, hbidDepths⟩ := hbidSide.mpr hplain.bids
    obtain ⟨haskLevels, haskDepths⟩ := haskSide.mpr hplain.asks
    have hbidBest := hbidFair.mpr hplain.bestBid
    have haskBest := haskFair.mpr hplain.bestAsk
    have hapart := huncrossed.mpr hplain.uncrossed
    exact ⟨hbidBest, haskBest, hapart, spread_fair hbidBest haskBest hapart, hbidLevels, haskLevels,
      hbidDepths, haskDepths⟩

/-! ## Trades and candles -/

theorem sound_trade_iff {event : CanonicalEvent} (h : Guarded event.payload) {trade : MarketTrade}
    (htrade : event.validateTrade p = .ok trade) :
    (MarketDatum.trade trade).Sound ↔
      ∀ key ∈ ["price", "quantity"], FairText p (event.payload.get? key) := by
  obtain ⟨fields, hfields, rfl⟩ := map_eq_ok htrade
  obtain ⟨tradeId, assetId, price, quantity, side⟩ := fields
  obtain ⟨-, hfields⟩ := both_eq_ok hfields
  obtain ⟨-, hfields⟩ := both_eq_ok hfields
  obtain ⟨hprice, hfields⟩ := both_eq_ok hfields
  obtain ⟨hquantity, -⟩ := both_eq_ok hfields
  simp only [List.forall_mem_cons, List.not_mem_nil, false_implies, implies_true, and_true]
  exact and_congr (required_fair_iff h (by decide) hprice) (required_fair_iff h (by decide) hquantity)

theorem sound_candle_iff {event : CanonicalEvent} (h : Guarded event.payload) {candle : MarketCandle}
    (hcandle : event.validateCandle p = .ok candle) :
    (MarketDatum.candle candle).Sound ↔
      ∀ key ∈ ["open", "high", "low", "close", "volume"], FairText p (event.payload.get? key) := by
  obtain ⟨fields, hfields, rfl⟩ := map_eq_ok hcandle
  obtain ⟨candleId, assetId, intervalSeconds, openPrice, high, low, close, volume⟩ := fields
  obtain ⟨-, hfields⟩ := both_eq_ok hfields
  obtain ⟨-, hfields⟩ := both_eq_ok hfields
  obtain ⟨-, hfields⟩ := both_eq_ok hfields
  obtain ⟨hopen, hfields⟩ := both_eq_ok hfields
  obtain ⟨hhigh, hfields⟩ := both_eq_ok hfields
  obtain ⟨hlow, hfields⟩ := both_eq_ok hfields
  obtain ⟨hclose, hvolume⟩ := both_eq_ok hfields
  simp only [List.forall_mem_cons, List.not_mem_nil, false_implies, implies_true, and_true]
  exact and_congr (required_fair_iff h (by decide) hopen)
    (and_congr (required_fair_iff h (by decide) hhigh)
      (and_congr (required_fair_iff h (by decide) hlow)
        (and_congr (required_fair_iff h (by decide) hclose)
          (required_fair_iff h (by decide) hvolume))))

/-! ## The service -/

/-- What is ingested was accepted. -/
theorem guarded_of_ingest {service : MarketIngestionService} {event : CanonicalEvent} {now : Datetime}
    {isClaimed : Bool} {delivered : Except PyError Unit}
    (h : service.ingest event now isClaimed delivered = .ok true) : Guarded event.payload := by
  obtain ⟨marketDecision, hinspect, h⟩ := bind_eq_ok.mp h
  by_cases hrefused : ¬ (inspectIngestionPayload (service.length event.payload) event.eventTime 1
      now).accepted ∨ ¬ marketDecision.accepted
  · rw [if_pos hrefused] at h
    cases Except.ok.inj h
  · rw [not_or, not_not, not_not] at hrefused
    exact guarded_of_accepted hinspect hrefused.2

/-- **Market data that is ingested is sound exactly when what the guardrails do not inspect is in
order**: the texts that are read as numbers, the levels behind the fiftieth, and the depth. -/
theorem sound_iff_plain (service : MarketIngestionService) (event : CanonicalEvent) (now : Datetime)
    (isClaimed : Bool) (delivered : Except PyError Unit) (datum : MarketDatum)
    (hingest : service.ingest event now isClaimed delivered = .ok true)
    (hdatum : normalizeMarketEvent service.pydantic event = .ok datum) :
    datum.Sound ↔ Plain service.pydantic event := by
  have hguarded : Guarded event.payload := guarded_of_ingest hingest
  rw [normalizeMarketEvent] at hdatum
  rw [Plain]
  cases htype : event.eventType with
  | marketTradeReceived =>
    rw [htype] at hdatum
    obtain ⟨trade, htrade, rfl⟩ := map_eq_ok hdatum
    exact sound_trade_iff hguarded (validated_eq_ok htrade)
  | marketCandleClosed =>
    rw [htype] at hdatum
    obtain ⟨candle, hcandle, rfl⟩ := map_eq_ok hdatum
    exact sound_candle_iff hguarded (validated_eq_ok hcandle)
  | marketOrderbookUpdated =>
    rw [htype] at hdatum
    obtain ⟨book, hbook, rfl⟩ := map_eq_ok hdatum
    exact sound_book_iff hguarded (validated_eq_ok hbook)
  | other value =>
    rw [htype] at hdatum
    cases hdatum

/-- A validation that reads two texts as numbers. -/
def twoTexts : Pydantic where
  float value :=
    match asFloat value, value with
    | .ok (some number), _ => .ok number
    | _, .str "NaN" => .ok .nan
    | _, .str "5" => .ok (.ofRat 5)
    | _, _ => .error "Input should be a valid number"
  int value :=
    match value with
    | .int value => .ok value
    | _ => .error "Input should be a valid integer"
  str value :=
    match value with
    | .str text => .ok text
    | _ => .error "Input should be a valid string"
  float_number value number h := by rw [h]
  float_other value h htext := by
    rw [h]
    cases value with
    | str text => exact absurd rfl (htext text)
    | _ => exact ⟨_, rfl⟩

/-- A service with that validation. -/
def twoTextService : MarketIngestionService :=
  ⟨fun payload => payload.entries.length, twoTexts⟩

/-- A trade at a price. -/
def tradeAt (price : Value) : CanonicalEvent where
  eventType := .marketTradeReceived
  source := "market-replay"
  assetId := some "S2MUSDT"
  eventTime := 0
  payload := ⟨[("trade_id", .str "t"), ("price", price), ("quantity", .int 100)], by simp⟩

/-- A book with a negative quantity at the fifty-first level. -/
def deepBook : CanonicalEvent where
  eventType := .marketOrderbookUpdated
  source := "market-replay"
  assetId := some "S2MUSDT"
  eventTime := 0
  payload := ⟨[("update_id", .str "u"),
    ("bids", .list (List.replicate 50 (.list [.int 1, .int 1]) ++ [.list [.int 1, .int (-1)]]))],
    by simp⟩

/-- The price of a trade, or the last quantity of the bids of a book. -/
def lastNumber : MarketDatum → Option PyFloat
  | .trade datum => some datum.price
  | .candle _ => none
  | .book datum => datum.bids.getLast?.map Prod.snd

/-- Where that number is not fair, the datum is not sound. -/
theorem not_sound_of_lastNumber {datum : MarketDatum} (hlast : lastNumber datum = some number)
    (hunfair : ¬ number.Fair) : ¬ datum.Sound := by
  cases datum with
  | trade datum => exact fun hsound => hunfair (Option.some.inj hlast ▸ hsound.1)
  | candle datum => cases hlast
  | book datum =>
    intro hsound
    obtain ⟨row, hrow, hquantity⟩ := Option.map_eq_some_iff.mp hlast
    exact hunfair (hquantity ▸ (hsound.bids row (List.mem_of_getLast? hrow)).2)

/-- A price that is a text can be sound. -/
theorem sound_text_price :
    ∃ datum, normalizeMarketEvent twoTexts (tradeAt (.str "5")) = .ok datum ∧ datum.Sound := by
  have htrade : (normalizeMarketEvent twoTexts (tradeAt (.str "5"))).map lastNumber =
      .ok (some (.ofRat 5)) := by
    decide +kernel
  obtain ⟨trade, hnormalized, -⟩ := map_eq_ok htrade
  refine ⟨trade, hnormalized, (sound_iff_plain twoTextService (tradeAt (.str "5")) 0 true (.ok ())
    trade (by decide +kernel) hnormalized).mpr ?_⟩
  intro key hkey text htext number hnumber
  rcases List.mem_pair.mp hkey with rfl | rfl
  · obtain rfl : text = "5" := (Value.str.inj (Option.some.inj htext)).symm
    obtain rfl : PyFloat.ofRat 5 = number := Except.ok.inj hnumber
    decide +kernel
  · cases htext

/-- **Unsound data that is ingested**: a price that is `NaN` as a text, and a negative quantity at the
fifty-first level. -/
theorem unsound_accepted :
    (twoTextService.ingest (tradeAt (.str "NaN")) 0 true (.ok ()) = .ok true ∧
        ∃ datum, normalizeMarketEvent twoTexts (tradeAt (.str "NaN")) = .ok datum ∧
          ¬ datum.Sound) ∧
      twoTextService.ingest deepBook 0 true (.ok ()) = .ok true ∧
        ∃ datum, normalizeMarketEvent twoTexts deepBook = .ok datum ∧ ¬ datum.Sound := by
  have htrade : (normalizeMarketEvent twoTexts (tradeAt (.str "NaN"))).map lastNumber =
      .ok (some .nan) := by
    decide +kernel
  have hbook : (normalizeMarketEvent twoTexts deepBook).map lastNumber =
      .ok (some (.ofRat (-1))) := by
    decide +kernel
  obtain ⟨trade, htradeDatum, htradeLast⟩ := map_eq_ok htrade
  obtain ⟨book, hbookDatum, hbookLast⟩ := map_eq_ok hbook
  exact ⟨⟨by decide +kernel, trade, htradeDatum, not_sound_of_lastNumber htradeLast id⟩,
    by decide +kernel, book, hbookDatum, not_sound_of_lastNumber hbookLast (by decide +kernel)⟩

end Security
end Scam2Market
