import Scam2Market.Python.Values

/-!
# Threat indicators

`intelligence/threat.py`: indicators in normal form, and those that a post mentions.

* What the standard library does with addresses is given (`TextTools`): lower case, IDNA, splitting a URL,
  reading an IP address.  Whatever it raises is a `ValueError`.
* `normalizeIndicator`: the normal form of an indicator.
* `matchCandidates`: the indicators of a text and its URLs.
-/

namespace Scam2Market
namespace Intelligence

inductive IndicatorType where
  | domain
  | url
  | ipv4
  | ipv6
  | md5
  | sha1
  | sha256
  | email
  | wallet
  deriving DecidableEq, Repr

/-- `urlsplit(value)`, with `scheme.lower()`. -/
structure UrlParts where
  scheme : String
  hostname : Option String
  port : Option ℕ
  path : String
  query : String

/-- The functions of the standard library. -/
structure TextTools where
  lower : String → String
  /-- `value.lower().encode("idna").decode("ascii")` -/
  idna : String → Option String
  urlsplit : String → Option UrlParts
  /-- The version and the compressed form. -/
  ipAddress : String → Option (ℕ × String)

structure NormalizedIndicator where
  type : IndicatorType
  value : String
  deriving DecidableEq

/-- `indicator_id`, made of the type and the value. -/
def NormalizedIndicator.indicatorId (indicator : NormalizedIndicator) :
    Uuid (IndicatorType × String) :=
  ⟨(indicator.type, indicator.value)⟩

/-! ## Characters -/

def isLowerAlnum (c : Char) : Bool :=
  ('a' ≤ c && c ≤ 'z') || ('0' ≤ c && c ≤ '9')

def isAlnum (c : Char) : Bool :=
  isLowerAlnum c || ('A' ≤ c && c ≤ 'Z')

/-- `[0-9a-f]`. -/
def isHex (c : Char) : Bool :=
  ('a' ≤ c && c ≤ 'f') || ('0' ≤ c && c ≤ '9')

/-- `[A-Za-z0-9:@._/%?=&+-]`. -/
def isCandidateChar (c : Char) : Bool :=
  isAlnum c || c ∈ [':', '@', '.', '_', '/', '%', '?', '=', '&', '+', '-']

/-- `value.strip(...)`. -/
def stripWhere (p : Char → Bool) (value : String) : String :=
  String.ofList ((value.toList.dropWhile p).reverse.dropWhile p).reverse

/-! ## Normal forms -/

section Normalize

variable (tools : TextTools)

/-- `[a-z0-9](?:[a-z0-9-]*[a-z0-9])?`, of at most 63 characters. -/
def isLabel (label : List Char) : Bool :=
  label.length ≤ 63 && label.head?.any isLowerAlnum && label.getLast?.any isLowerAlnum &&
    label.all fun c => isLowerAlnum c || c = '-'

/-- `_domain(value)`. -/
def domainOf (value : String) : Option String := do
  let domain ← tools.idna (String.ofList (value.toList.reverse.dropWhile (· = '.')).reverse)
  if domain.length ≤ 253 ∧ domain ≠ "" ∧ (domain.toList.splitOn '.').all isLabel then some domain
  else none

/-- `_url(value)`. -/
def urlOf (value : String) : Option String := do
  let parts ← tools.urlsplit value
  if parts.scheme ≠ "http" ∧ parts.scheme ≠ "https" then none
  let hostname ← parts.hostname
  if hostname = "" then none
  let host ← domainOf tools hostname
  let port := match parts.port with
    | some port => if port = 0 ∨ port = 80 ∨ port = 443 then "" else s!":{port}"
    | none => ""
  let path := if parts.path = "" then "/" else parts.path
  let query := if parts.query = "" then "" else s!"?{parts.query}"
  some s!"{parts.scheme}://{host}{port}{path}{query}"

/-- `_TYPE_MAP`. -/
def typeOf (name : String) : Option IndicatorType :=
  [("domain", .domain), ("hostname", .domain), ("url", .url), ("uri", .url), ("ipv4", .ipv4),
    ("ipv6", .ipv6), ("md5", .md5), ("filehash-md5", .md5), ("sha1", .sha1),
    ("filehash-sha1", .sha1), ("sha256", .sha256), ("filehash-sha256", .sha256), ("email", .email),
    ("email-address", .email), ("bitcoinaddress", .wallet), ("cryptocurrency-address", .wallet)].lookup
    name

/-- An IP address of a version. -/
def addressOf (version : ℕ) (value : String) : Option String :=
  match tools.ipAddress value with
  | some (found, compressed) => if found = version then some compressed else none
  | none => none

/-- A hash of so many digits. -/
def hashOf (length : ℕ) (value : String) : Option String :=
  let value := tools.lower value
  if value.length = length ∧ value.toList.all isHex then some value else none

/-- `local@domain`, split at the last `@`. -/
def emailOf (value : String) : Option String := do
  let reversed := value.toList.reverse
  let after := (reversed.takeWhile (· ≠ '@')).reverse
  let before := (reversed.dropWhile (· ≠ '@')).tail.reverse
  if before = [] then none
  let domain ← domainOf tools (String.ofList after)
  some s!"{tools.lower (String.ofList before)}@{domain}"

/-- The value in the normal form of its type. -/
def valueOf (kind : IndicatorType) (value : String) : Option String :=
  match kind with
  | .domain => domainOf tools value
  | .url => urlOf tools value
  | .ipv4 => addressOf tools 4 value
  | .ipv6 => addressOf tools 6 value
  | .md5 => hashOf tools 32 value
  | .sha1 => hashOf tools 40 value
  | .sha256 => hashOf tools 64 value
  | .email => emailOf tools value
  | .wallet =>
    if 26 ≤ value.length ∧ value.length ≤ 128 ∧ value.toList.all isAlnum then some value else none

/-- `normalize_indicator(raw_type, raw_value)`. -/
def normalizeIndicator (rawType rawValue : String) : Option NormalizedIndicator := do
  let kind ← typeOf (tools.lower (stripWhere isSpace rawType))
  let value ← valueOf tools kind (stripWhere isSpace rawValue)
  some { type := kind, value := value }

/-! ## The indicators of a post -/

/-- A URL and its host. -/
def urlCandidates (raw : String) : List NormalizedIndicator :=
  match urlOf tools raw with
  | none => []
  | some url =>
    let host := (tools.urlsplit url).bind UrlParts.hostname
    { type := .url, value := url } ::
      (host.toList.filter (· ≠ "")).map fun host => { type := .domain, value := host }

/-- What one token of a text may be. -/
def tokenCandidates (token : String) : List NormalizedIndicator :=
  let cleaned := stripWhere (· ∈ ['.', ',', ';', '(', ')', '[', ']']) token
  (if "http://".toList <+: cleaned.toList ∨ "https://".toList <+: cleaned.toList then
    urlCandidates tools cleaned
  else if '.' ∈ cleaned.toList then
    (domainOf tools cleaned).toList.map fun domain => { type := .domain, value := domain }
  else []) ++
  ["IPV4", "IPV6", "MD5", "SHA1", "SHA256"].filterMap fun kind => normalizeIndicator tools kind cleaned

/-- `match_candidates(text, urls)`. -/
def matchCandidates (text : String) (urls : List String) : List NormalizedIndicator :=
  urls.flatMap (urlCandidates tools) ++
    (((text.toList.splitOnP fun c => !isCandidateChar c).filter (· ≠ [])).map String.ofList).flatMap
      (tokenCandidates tools)

end Normalize

end Intelligence
end Scam2Market
