import Scam2Market.Library.OrderedDict
import Scam2Market.Python.Floats
import Scam2Market.Python.Values

/-!
# Guardrails for market data

`inspect_ingestion_payload` and `inspect_market_payload` of `security/guardrails.py`, on payloads as they
are decoded, before any model reads them.

* `Value`: a decoded value.  A number can be a float that is not finite.
* `asFloat`: what `isinstance(value, int | float)` lets through, as a float; a truth value is an integer,
  and an integer that is too large raises.
-/

namespace Scam2Market
namespace Security

open Library (OrderedDict)

/-- A value of a payload. -/
inductive Value where
  | null
  | bool (value : Bool)
  | int (value : ℤ)
  | float (value : PyFloat)
  | str (value : String)
  | list (items : List Value)
  | obj (fields : List (String × Value))

/-- `dict[str, Any]`. -/
abbrev Payload := OrderedDict String Value

/-- `float(value)` of an integer. -/
def floatOfInt (value : ℤ) : Except PyError PyFloat :=
  if h : |(value : ℚ)| < overflowBound then .ok (.finite value h)
  else .error (.overflowError "int too large to convert to float")

/-- `float(value)` of a number; another value is passed over. -/
def asFloat : Value → Except PyError (Option PyFloat)
  | .bool value => (floatOfInt (if value then 1 else 0)).map some
  | .int value => (floatOfInt value).map some
  | .float value => .ok (some value)
  | _ => .ok none

structure GuardrailDecision where
  accepted : Bool
  reasons : List String
  riskScore : ℚ
  deriving DecidableEq

/-- `GuardrailDecision(not reasons, tuple(dict.fromkeys(reasons)), min(1.0, risk))`. -/
def decision (reasons : List String) (risk : ℚ) : GuardrailDecision where
  accepted := reasons.isEmpty
  reasons := reasons.eraseDups
  riskScore := min 1 risk

/-- `inspect_ingestion_payload(payload, event_time=..., source_trust=..., now=...)`, of a payload whose
text has the given length. -/
def inspectIngestionPayload (length : ℕ) (eventTime : Datetime) (sourceTrust : ℚ) (now : Datetime) :
    GuardrailDecision :=
  let future := if now + timedeltaSeconds 300 < eventTime then ["FUTURE_EVENT_TIME"] else []
  let trust :=
    if ¬ (0 ≤ sourceTrust ∧ sourceTrust ≤ 1) then ["INVALID_SOURCE_TRUST"]
    else if sourceTrust < 1 / 4 then ["LOW_TRUST_SOURCE"]
    else []
  let size := if 1000000 < length then ["PAYLOAD_TOO_LARGE"] else []
  let reasons := future ++ trust ++ size
  decision reasons (reasons.length * (2 / 5))

/-- `_MARKET_NON_NEGATIVE_FIELDS`. -/
def marketNonNegativeFields : List String :=
  ["price", "quantity", "volume", "open", "high", "low", "close", "best_bid", "best_ask",
    "top_bid_depth", "top_ask_depth"]

/-- The body of the loop over the items of the payload. -/
def itemReasons (item : String × Value) : Except PyError (List String) := do
  match ← asFloat item.2 with
  | none => return []
  | some number =>
    if ¬ number.isFinite then return ["NON_FINITE_NUMERIC_VALUE"]
    else if item.1 ∈ marketNonNegativeFields ∧ number.lt .zero then
      return ["NEGATIVE_" ++ item.1.toUpper]
    else return []

/-- `_number(value)`. -/
def number (value : Value) : Except PyError (Option PyFloat) :=
  (asFloat value).map fun found => found.filter PyFloat.isFinite

/-- The reason of a crossed book. -/
def crossedReasons (payload : Payload) : Except PyError (List String) := do
  let bestBid ← number ((payload.get? "best_bid").getD .null)
  let bestAsk ← number ((payload.get? "best_ask").getD .null)
  match bestBid, bestAsk with
  | some bid, some ask => return if ask.lt bid then ["CROSSED_ORDERBOOK"] else []
  | _, _ => return []

/-- The loop over the levels of a side, which ends at the first that is refused. -/
def levelReasons : List Value → Except PyError (List String)
  | [] => .ok []
  | .list (price :: quantity :: _) :: levels => do
    match ← number price, ← number quantity with
    | some price, some quantity =>
      if price.lt .zero ∨ quantity.lt .zero then return ["INVALID_ORDERBOOK_LEVEL"]
      else levelReasons levels
    | _, _ => return ["INVALID_ORDERBOOK_LEVEL"]
  | _ :: _ => .ok ["MALFORMED_ORDERBOOK_LEVEL"]

/-- The reasons of a side of the book, of which the first fifty levels are read. -/
def sideReasons (payload : Payload) (side : String) : Except PyError (List String) :=
  match payload.get? side with
  | some (.list levels) => levelReasons (levels.take 50)
  | _ => .ok []

/-- `inspect_market_payload(payload)`. -/
def inspectMarketPayload (payload : Payload) : Except PyError GuardrailDecision := do
  let items ← payload.entries.mapM itemReasons
  let crossed ← crossedReasons payload
  let bids ← sideReasons payload "bids"
  let asks ← sideReasons payload "asks"
  return decision (items.flatten ++ crossed ++ bids ++ asks) (3 / 10)

end Security
end Scam2Market
