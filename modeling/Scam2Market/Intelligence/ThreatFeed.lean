import Scam2Market.Intelligence.ThreatRepository
import Scam2Market.Library.HighWater

/-!
# The threat feed

`fetch_page` and `fetch_pulses` of `intelligence/otx_client.py`, `feed_modified_since` and the checkpoint
of `update_feed_status` in `intelligence/repository.py`, and `poll_once` of
`workers/threat_feed_worker.py` with what a poll that fails leaves behind.

* `OTXClient` is what answers a request; an error is whatever `fetch_page` raises before it reads the
  entries.
* `fetchPulses`: the loop over the pages, with its two limits.
* `FeedState.step`: the feed changes, a post is stored, or the worker polls.  Besides the tables the state
  keeps what the feed had at the polls, and the pulses of the ingestions that were committed.

The feed does not change during a poll.  The size of a page is left to the client, and of the status of the
feed only the checkpoint is kept.
-/

namespace Scam2Market
namespace Intelligence

/-! ## The client -/

/-- The first request of a poll has parameters, the later ones follow a link. -/
inductive PageRequest where
  | first (modifiedSince : Option Datetime)
  | next (url : String)
  deriving DecidableEq, Repr

/-- `results` has what `OTXPulse.model_validate` makes of the entries. -/
structure PageResponse where
  results : List (Except PyError OTXPulse)
  next : Option String := none

structure OTXPage where
  pulses : List OTXPulse
  nextUrl : Option String
  malformedItems : ℕ

structure OTXClient where
  get : PageRequest → Except PyError PageResponse
  /-- `_validate_target(url)` does not raise. -/
  validTarget : String → Bool

/-- The pulses of a response that are not malformed. -/
def PageResponse.pulses (response : PageResponse) : List OTXPulse :=
  response.results.filterMap Except.toOption

def validateTarget (client : OTXClient) (url : Option String) : Except PyError Unit :=
  if url.all client.validTarget then .ok ()
  else .error (.valueError "OTX request target must use the fixed HTTPS OTX host")

/-- `fetch_page(modified_since=..., url=...)`. -/
def fetchPage (client : OTXClient) (modifiedSince : Option Datetime) (url : Option String) :
    Except PyError OTXPage := do
  validateTarget client url
  let response ← client.get (url.elim (.first modifiedSince) .next)
  validateTarget client response.next
  return {
    pulses := response.pulses
    nextUrl := response.next
    malformedItems := response.results.length - response.pulses.length }

/-- The loop of `fetch_pulses`, when so many pages may still be fetched, and there is room for so many
pulses. -/
def pulsesFrom (client : OTXClient) (modifiedSince : Option Datetime) :
    ℕ → ℕ → Option String → Except PyError (List OTXPulse)
  | 0, _, _ => .ok []
  | pages + 1, room, url => do
    let page ← fetchPage client modifiedSince url
    -- the generator returns at the first pulse that it has no room for
    if room < page.pulses.length then
      return page.pulses.take room
    else
      match page.nextUrl.filter (· ≠ "") with
      | none => return page.pulses
      | some next => do
        let rest ← pulsesFrom client modifiedSince pages (room - page.pulses.length) (some next)
        return page.pulses ++ rest

/-- `fetch_pulses(modified_since=..., max_pages=..., max_records=...)`. -/
def fetchPulses (client : OTXClient) (modifiedSince : Option Datetime) (maxPages maxRecords : ℕ) :
    Except PyError (List OTXPulse) :=
  pulsesFrom client modifiedSince maxPages maxRecords none

/-! ## Polls -/

/-- Where a poll fails after the pulses were fetched: in `ingest_pulses`, in `backfill_recent_matches`, or
in `update_feed_status`. -/
inductive PollFault where
  | ingest
  | backfill
  | status
  deriving DecidableEq, Repr

/-- What a poll meets; `pages` is all that the provider would list. -/
structure PollInput where
  client : OTXClient
  pages : List PageResponse
  maxPages : ℕ
  maxRecords : ℕ
  now : Datetime
  place : ObservationId → ℕ
  fault : Option PollFault := none

/-- The feed, what it had at the polls and at the last of them, and the pulses that were ingested;
`previousSince` is the checkpoint before the last poll. -/
structure FeedState where
  feed : List OTXPulse := []
  had : List OTXPulse := []
  polled : List OTXPulse := []
  previousSince : Option Datetime := none
  ingested : List OTXPulse := []
  store : ThreatStore := {}

/-- `feed_modified_since()`. -/
def FeedState.modifiedSince (s : FeedState) : Option Datetime :=
  s.store.modifiedSince

section Poll

variable (tools : MatchTools)

/-- A poll that has fetched its pulses. -/
def FeedState.ingest (s : FeedState) (pulses : List OTXPulse) (input : PollInput) : FeedState :=
  match input.fault with
  | some .ingest => s
  | some .backfill =>
    { s with
      ingested := s.ingested ++ pulses
      store := { s.store with
        tables := (ingestPulses tools s.store.posts s.store.tables pulses input.now).2.2 } }
  | some .status =>
    { s with
      ingested := s.ingested ++ pulses
      store := { s.store with
        tables := (pollOnce tools s.store pulses input.now input.place).2.tables } }
  | none =>
    { s with
      ingested := s.ingested ++ pulses
      store := (pollOnce tools s.store pulses input.now input.place).2 }

/-- `poll_once(client, repository)`, in the loop of the worker: an error leaves the checkpoint. -/
def FeedState.poll (s : FeedState) (input : PollInput) : FeedState :=
  let s := { s with had := s.had ++ s.feed, polled := s.feed, previousSince := s.modifiedSince }
  match fetchPulses input.client s.modifiedSince input.maxPages input.maxRecords with
  | .error _ => s
  | .ok pulses => s.ingest tools pulses input

/-- The feed has a pulse with new contents, or loses one; a post is stored; the worker polls. -/
inductive ThreatFeedMove where
  | publish (pulse : OTXPulse)
  | withdraw (id : String)
  | storePost (post : SocialPostModel)
  | poll (input : PollInput)

def FeedState.step (s : FeedState) : ThreatFeedMove → FeedState
  | .publish pulse => { s with feed := pulse :: s.feed.filter (·.id ≠ pulse.id) }
  | .withdraw id => { s with feed := s.feed.filter (·.id ≠ id) }
  | .storePost post => { s with store := storePost s.store post }
  | .poll input => s.poll tools input

end Poll

end Intelligence
end Scam2Market
