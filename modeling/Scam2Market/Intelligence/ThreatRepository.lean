import Mathlib.Data.Prod.Lex
import Scam2Market.Intelligence.Threat
import Scam2Market.Library.OrderedDict
import Scam2Market.Library.Rows

/-!
# Threat matches

`IntelligenceRepository.ingest_pulses`, `backfill_recent_matches` and `_match_indicator` of
`intelligence/repository.py`, and `poll_once` of `workers/threat_feed_worker.py`.

* Indicators are rows by their ids, observations by the id of the provider.
* A match has no field for its id, which is made of the scope, the asset, the post and the observation.
* The order of rows with equal times is a parameter of the poll (`place`).
* `pollOnce`: a successful poll; the pulses are any that the provider returns.
* `ThreatStore.step`: a post is stored, or the feed is polled.
-/

namespace Scam2Market
namespace Intelligence

open Library (OrderedDict firstWhere)

/-! ## The feed -/

structure OTXIndicator where
  id : String
  type : String
  indicator : String
  created : Datetime
  modified : Option Datetime := none
  description : String := ""

/-- `indicators` has what `OTXIndicator.model_validate` makes of the entries. -/
structure OTXPulse where
  id : String
  modified : Datetime
  description : String := ""
  indicators : List (Except PyError OTXIndicator) := []

/-! ## Tables -/

/-- A row of `social_posts` with the assets that are mentioned. -/
structure SocialPostModel where
  postId : String
  scopeId : String
  text : String
  urls : List String
  eventTime : Datetime
  mentions : List (Option String)
  deriving DecidableEq

structure ThreatIndicatorModel where
  type : IndicatorType
  value : String
  active : Bool
  description : String
  firstSeen : Datetime
  lastSeen : Datetime
  fetchedAt : Datetime

abbrev IndicatorId := Uuid (IndicatorType × String)

/-- `uuid5` of the id of the provider. -/
abbrev ObservationId := Uuid String

structure ThreatObservationModel where
  observationId : ObservationId
  indicatorId : IndicatorId
  pulseId : String
  observedAt : Datetime
  fetchedAt : Datetime

structure ThreatMatchModel where
  scopeId : String
  assetId : String
  postId : String
  observationId : ObservationId
  indicatorId : IndicatorId
  matchedValue : String
  eventTime : Datetime
  evidenceCutoff : Datetime

/-- `deterministic_match_id`. -/
def deterministicMatchId (scopeId assetId postId : String) (observationId : ObservationId) :
    Uuid (String × String × String × ObservationId) :=
  ⟨(scopeId, assetId, postId, observationId)⟩

def ThreatMatchModel.matchId (row : ThreatMatchModel) : Uuid (String × String × String × ObservationId) :=
  deterministicMatchId row.scopeId row.assetId row.postId row.observationId

/-- The tables of the feed; observations stand under `provider_indicator_id`. -/
structure ThreatTables where
  indicators : OrderedDict IndicatorId ThreatIndicatorModel := .empty
  observations : OrderedDict String ThreatObservationModel := .empty
  found : List ThreatMatchModel := []

/-! ## The query for posts -/

/-- `text LIKE pattern`. -/
def like : List Char → List Char → Bool
  | [], text => text.isEmpty
  | '%' :: pattern, text => text.tails.any (like pattern)
  | '_' :: pattern, text => !text.isEmpty && like pattern text.tail
  | '\\' :: c :: pattern, text => text.head? = some c && like pattern text.tail
  | c :: pattern, text => text.head? = some c && like pattern text.tail

/-- `text ILIKE '%value%'`; `lowerChar` is the lower case of the database. -/
def containsLike (lowerChar : Char → Char) (value text : String) : Bool :=
  like (('%' :: value.toList ++ ['%']).map lowerChar) (text.toList.map lowerChar)

/-- What is needed of the standard library and of the database. -/
structure MatchTools extends TextTools where
  lowerChar : Char → Char

section Match

variable (tools : MatchTools)

/-- The condition of `_candidate_post_query(indicator_type, value)` on a post. -/
def isCandidatePost (indicatorType : IndicatorType) (value : String) (post : SocialPostModel) : Bool :=
  match indicatorType with
  | .url => value ∈ post.urls || containsLike tools.lowerChar value post.text
  | _ => containsLike tools.lowerChar value post.text

/-- The indicators that a post mentions. -/
def candidatesOfPost (post : SocialPostModel) : List NormalizedIndicator :=
  matchCandidates tools.toTextTools post.text post.urls

/-- `_match_indicator` finds the indicator in the post. -/
def findsIn (indicatorType : IndicatorType) (value : String) (post : SocialPostModel) : Bool :=
  isCandidatePost tools indicatorType value post &&
    { type := indicatorType, value := value } ∈ candidatesOfPost tools post

/-- A call of `_match_indicator`. -/
structure MatchCall where
  indicatorId : IndicatorId
  observationId : ObservationId
  indicatorType : IndicatorType
  value : String
  fetchedAt : Datetime

/-- The match of a post and an asset. -/
def matchRow (call : MatchCall) (post : SocialPostModel) (assetId : String) : ThreatMatchModel where
  scopeId := post.scopeId
  assetId := assetId
  postId := post.postId
  observationId := call.observationId
  indicatorId := call.indicatorId
  matchedValue := call.value
  eventTime := post.eventTime
  evidenceCutoff := max post.eventTime call.fetchedAt

/-- A match is added unless its id is there; how many were created is counted. -/
def addMatch (acc : ℕ × List ThreatMatchModel) (row : ThreatMatchModel) : ℕ × List ThreatMatchModel :=
  if row.matchId ∈ acc.2.map ThreatMatchModel.matchId then acc else (acc.1 + 1, acc.2 ++ [row])

/-- The matches that a call finds. -/
def matchRows (posts : List SocialPostModel) (call : MatchCall) : List ThreatMatchModel :=
  (posts.filter (findsIn tools call.indicatorType call.value)).flatMap fun post =>
    (post.mentions.filterMap id).map (matchRow call post)

/-- `_match_indicator(...)`: how many matches were created, and the matches. -/
def matchIndicator (posts : List SocialPostModel) (found : List ThreatMatchModel) (call : MatchCall) :
    ℕ × List ThreatMatchModel :=
  (matchRows tools posts call).foldl addMatch (0, found)

/-! ## Ingestion -/

/-- The row of an indicator is written, or it is seen again. -/
def upsertIndicator (t : ThreatTables) (canonical : NormalizedIndicator) (provider : OTXIndicator)
    (pulse : OTXPulse) (fetchedAt : Datetime) : ThreatTables :=
  let lastSeen := provider.modified.getD provider.created
  { t with
    indicators := t.indicators.set canonical.indicatorId
      (match t.indicators.get? canonical.indicatorId with
      | some row => { row with lastSeen := lastSeen, fetchedAt := fetchedAt, active := true }
      | none => {
          type := canonical.type
          value := canonical.value
          active := true
          description := if provider.description = "" then pulse.description else provider.description
          firstSeen := provider.created
          lastSeen := lastSeen
          fetchedAt := fetchedAt }) }

/-- The observation is added, unless the provider's id is there. -/
def insertObservation (t : ThreatTables) (canonical : NormalizedIndicator) (provider : OTXIndicator)
    (pulse : OTXPulse) (fetchedAt : Datetime) : ThreatTables :=
  match t.observations.get? provider.id with
  | some _ => t
  | none => { t with
      observations := t.observations.set provider.id {
        observationId := ⟨provider.id⟩
        indicatorId := canonical.indicatorId
        pulseId := pulse.id
        observedAt := provider.modified.getD provider.created
        fetchedAt := fetchedAt } }

/-- An entry of a pulse in normal form, unless it is malformed. -/
def canonicalOf (raw : Except PyError OTXIndicator) : Option (OTXIndicator × NormalizedIndicator) :=
  match raw with
  | .error _ => none
  | .ok provider =>
    (normalizeIndicator tools.toTextTools provider.type provider.indicator).map fun canonical =>
      (provider, canonical)

/-- The call for an entry. -/
def ingestCall (fetchedAt : Datetime) (entry : OTXIndicator × NormalizedIndicator) : MatchCall where
  indicatorId := entry.2.indicatorId
  observationId := ⟨entry.1.id⟩
  indicatorType := entry.2.type
  value := entry.2.value
  fetchedAt := fetchedAt

/-- One round of the inner loop: how many observations were accepted, and the tables. -/
def ingestEntry (posts : List SocialPostModel) (fetchedAt : Datetime) (pulse : OTXPulse)
    (acc : ℕ × ThreatTables) (raw : Except PyError OTXIndicator) : ℕ × ThreatTables :=
  match canonicalOf tools raw with
  | none => acc
  | some entry =>
    let t := upsertIndicator acc.2 entry.2 entry.1 pulse fetchedAt
    let isNew := (t.observations.get? entry.1.id).isNone
    let t := insertObservation t entry.2 entry.1 pulse fetchedAt
    (acc.1 + if isNew then 1 else 0,
      { t with found := (matchIndicator tools posts t.found (ingestCall fetchedAt entry)).2 })

/-- `ingest_pulses(pulses, fetched_at)`: the accepted, the watermark and the tables. -/
def ingestPulses (posts : List SocialPostModel) (t : ThreatTables) (pulses : List OTXPulse)
    (fetchedAt : Datetime) : ℕ × Option Datetime × ThreatTables :=
  let (accepted, t) := pulses.foldl (fun acc pulse =>
    pulse.indicators.foldl (ingestEntry tools posts fetchedAt pulse) acc) (0, t)
  (accepted, (pulses.map OTXPulse.modified).max?, t)

/-! ## Backfill -/

/-- The observations with their indicators. -/
def observedIndicators (t : ThreatTables) : List (ThreatIndicatorModel × ThreatObservationModel) :=
  t.observations.entries.filterMap fun entry =>
    (t.indicators.get? entry.2.indicatorId).map fun indicator => (indicator, entry.2)

/-- The newest first, equal times in the order of the places. -/
def newerFirst (place : ObservationId → ℕ)
    (a b : ThreatIndicatorModel × ThreatObservationModel) : Prop :=
  toLex (-a.2.fetchedAt, place a.2.observationId) ≤ toLex (-b.2.fetchedAt, place b.2.observationId)

instance (place : ObservationId → ℕ) : DecidableRel (newerFirst place) := fun _ _ =>
  inferInstanceAs (Decidable (toLex _ ≤ toLex _))

/-- The rows that the query of the backfill returns. -/
def backfillRows (t : ThreatTables) (place : ObservationId → ℕ) (since : Option Datetime)
    (limit : ℕ) : List (ThreatIndicatorModel × ThreatObservationModel) :=
  firstWhere (fun row => row.1.active && since.all fun since => since ≤ row.2.fetchedAt)
    (newerFirst place) limit (observedIndicators t)

/-- The call for a row. -/
def backfillCall (row : ThreatIndicatorModel × ThreatObservationModel) : MatchCall where
  indicatorId := row.2.indicatorId
  observationId := row.2.observationId
  indicatorType := row.1.type
  value := row.1.value
  fetchedAt := row.2.fetchedAt

/-- `backfill_recent_matches(since=..., limit=...)`: how many matches were created, and the tables. -/
def backfillRecentMatches (posts : List SocialPostModel) (t : ThreatTables)
    (place : ObservationId → ℕ) (since : Option Datetime) (limit : ℕ) : ℕ × ThreatTables :=
  let (created, found) := (backfillRows t place since limit).foldl (fun acc row =>
    let (created, found) := matchIndicator tools posts acc.2 (backfillCall row)
    (acc.1 + created, found)) (0, t.found)
  (created, { t with found := found })

/-! ## The system -/

/-- The posts, the tables and the checkpoint of the feed; `polled` are the posts of the last poll. -/
structure ThreatStore where
  posts : List SocialPostModel := []
  tables : ThreatTables := {}
  modifiedSince : Option Datetime := none
  polled : List SocialPostModel := []

/-- A post is stored with its mentions, unless its id is there. -/
def storePost (store : ThreatStore) (post : SocialPostModel) : ThreatStore :=
  if post.postId ∈ store.posts.map SocialPostModel.postId then store
  else { store with posts := store.posts ++ [post] }

/-- `poll_once(client, repository)`: how many pulses were fetched and accepted. -/
def pollOnce (store : ThreatStore) (pulses : List OTXPulse) (now : Datetime)
    (place : ObservationId → ℕ) : (ℕ × ℕ) × ThreatStore :=
  let (accepted, watermark, t) := ingestPulses tools store.posts store.tables pulses now
  let (_, t) := backfillRecentMatches tools store.posts t place store.modifiedSince 1000
  ((pulses.length, accepted),
    { store with tables := t, modifiedSince := watermark, polled := store.posts })

inductive FeedMove where
  | storePost (post : SocialPostModel)
  | poll (pulses : List OTXPulse) (now : Datetime) (place : ObservationId → ℕ)

def ThreatStore.step (store : ThreatStore) : FeedMove → ThreatStore
  | .storePost post => Intelligence.storePost store post
  | .poll pulses now place => (pollOnce tools store pulses now place).2

end Match

end Intelligence
end Scam2Market
