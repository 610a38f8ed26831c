import Scam2Market.Intelligence.ThreatFeed
import Scam2Market.Intelligence.ThreatPolls

/-!
# Is the watermark of the threat feed sound?

The checkpoint of the feed is the greatest time of modification among the pulses of the last poll.  What a
poll leaves out for its limits is asked for again only if it is newer, and a poll without pulses takes the
checkpoint away.

* `fetchPulses_eq`: a poll fetches the first pulses of the first pages.
* `Honest`: the feed lists what is newer than the checkpoint, and its changes are newer than all that it
  had at a poll.
* `CompletePoll`: a poll leaves out only what is newer than all that it fetches.
* `watermark_sound_iff`: the watermark is sound throughout a run exactly when every poll that succeeds is
  complete; what is ingested is in the tables in any case.
-/

namespace Scam2Market
namespace Intelligence

open Library (Always Throughout Covers Rises Lists Complete highWater)
open ThreatStore (plainTools)

variable {tools : MatchTools} {client : OTXClient} {since : Option Datetime} {url : Option String}
  {pages : List PageResponse} {s : FeedState} {input : PollInput} {pulses : List OTXPulse}

/-! ## The pages of a poll -/

/-- The pages that the links lead to, from a request on. -/
inductive Listing (client : OTXClient) (since : Option Datetime) :
    Option String → List PageResponse → Prop where
  | last {url : Option String} {response : PageResponse} (hurl : validateTarget client url = .ok ())
      (hget : client.get (url.elim (.first since) .next) = .ok response)
      (hnext : response.next = none) : Listing client since url [response]
  | more {url : Option String} {response : PageResponse} {next : String} {pages : List PageResponse}
      (hurl : validateTarget client url = .ok ())
      (hget : client.get (url.elim (.first since) .next) = .ok response)
      (hnext : response.next = some next) (hnonempty : next ≠ "")
      (rest : Listing client since (some next) pages) : Listing client since url (response :: pages)

theorem Listing.validateTarget (h : Listing client since url pages) :
    validateTarget client url = .ok () := by
  cases h with
  | last hurl => exact hurl
  | more hurl => exact hurl

theorem fetchPage_eq {response : PageResponse} (hurl : validateTarget client url = .ok ())
    (hget : client.get (url.elim (.first since) .next) = .ok response)
    (hnext : validateTarget client response.next = .ok ()) :
    fetchPage client since url = .ok {
      pulses := response.pulses
      nextUrl := response.next
      malformedItems := response.results.length - response.pulses.length } := by
  rw [fetchPage, hurl]
  simp only [bind, Except.bind, hget, hnext, pure, Except.pure]

/-- The pages that may be fetched, up to the room there is. -/
theorem pulsesFrom_eq (h : Listing client since url pages) (n room : ℕ) :
    pulsesFrom client since n room url =
      .ok (((pages.take n).flatMap PageResponse.pulses).take room) := by
  induction h generalizing n room with
  | @last url response hurl hget hnext =>
    cases n with
    | zero => simp [pulsesFrom]
    | succ n =>
      have hpage := fetchPage_eq hurl hget (by rw [hnext]; rfl)
      rw [pulsesFrom, hpage, hnext]
      simp only [bind, Except.bind, pure, Except.pure, Option.filter_none, List.take_succ_cons,
        List.take_nil, List.flatMap_cons, List.flatMap_nil, List.append_nil]
      split_ifs with hroom
      · rfl
      · rw [List.take_of_length_le (not_lt.mp hroom)]
  | @more url response next pages hurl hget hnext hnonempty rest ih =>
    cases n with
    | zero => simp [pulsesFrom]
    | succ n =>
      have hpage := fetchPage_eq hurl hget (by rw [hnext]; exact rest.validateTarget)
      have hlink : (some next).filter (· ≠ "") = some next := by simp [hnonempty]
      rw [pulsesFrom, hpage, hnext]
      simp only [bind, Except.bind, pure, Except.pure, List.take_succ_cons, List.flatMap_cons]
      rw [hlink]
      split_ifs with hroom
      · rw [List.take_append_of_le_length hroom.le]
      · simp only [ih]
        rw [List.take_append, List.take_of_length_le (not_lt.mp hroom)]

/-- The pulses of the pages. -/
def listed (pages : List PageResponse) : List OTXPulse :=
  pages.flatMap PageResponse.pulses

/-- The pulses that the limits let through. -/
def PollInput.served (input : PollInput) : List OTXPulse :=
  (listed (input.pages.take input.maxPages)).take input.maxRecords

/-- **A poll fetches the first pulses of the first pages.** -/
theorem fetchPulses_eq (h : Listing input.client since none input.pages) :
    fetchPulses input.client since input.maxPages input.maxRecords = .ok input.served :=
  pulsesFrom_eq h input.maxPages input.maxRecords

theorem served_subset (input : PollInput) : input.served ⊆ listed input.pages := by
  intro pulse hpulse
  obtain ⟨page, hpage, hmem⟩ := List.mem_flatMap.mp (List.mem_of_mem_take hpulse)
  exact List.mem_flatMap.mpr ⟨page, List.mem_of_mem_take hpage, hmem⟩

/-! ## The law -/

namespace FeedState

/-- The checkpoint has not gone back, and what the feed had at the last poll was ingested, up to the
checkpoint. -/
structure SoundWatermark (s : FeedState) : Prop where
  rises : Rises s.previousSince s.modifiedSince
  covers : Covers OTXPulse.modified s.polled s.ingested s.modifiedSince

/-- The feed only ever gets newer pulses, and a poll whose requests succeed is told what is newer than the
checkpoint, and nothing that is older. -/
def Honest (s : FeedState) : ThreatFeedMove → Prop
  | .publish pulse => ∀ old ∈ s.had, old.modified < pulse.modified
  | .withdraw _ => True
  | .storePost _ => True
  | .poll input =>
    (∃ pulses, fetchPulses input.client s.modifiedSince input.maxPages input.maxRecords = .ok pulses) →
      Listing input.client s.modifiedSince none input.pages ∧
        Lists OTXPulse.modified s.feed s.modifiedSince (listed input.pages)

/-- The poll ends with the checkpoint written. -/
def Succeeds (s : FeedState) (input : PollInput) : Prop :=
  input.fault = none ∧
    ∃ pulses, fetchPulses input.client s.modifiedSince input.maxPages input.maxRecords = .ok pulses

/-- A poll that succeeds leaves out only pulses that are newer than all that it fetches, or were ingested,
and it fetches one if there is a checkpoint. -/
def CompletePoll (s : FeedState) : ThreatFeedMove → Prop
  | .poll input => s.Succeeds input →
      Complete OTXPulse.modified s.modifiedSince (listed input.pages) input.served s.ingested
  | _ => True

/-- The indicators of the pulses that were ingested are in the tables. -/
def Recorded (tools : MatchTools) (s : FeedState) : Prop :=
  ∀ entry ∈ pulseEntries tools s.ingested, ∃ observation,
    s.store.tables.observations.get? entry.2.1.id = some observation

/-- What holds between the moves. -/
structure Sound (s : FeedState) : Prop where
  law : s.SoundWatermark
  feed : Covers OTXPulse.modified s.feed s.ingested s.modifiedSince
  had : ∀ t, s.modifiedSince = some t → ∃ old ∈ s.had, old.modified = t

theorem sound_initial (feed : List OTXPulse) : Sound { feed := feed } where
  law := ⟨.refl _, Library.covers_none⟩
  feed := Library.covers_none
  had := fun _ h => nomatch h

/-! ## Polls -/

/-- The state in which a poll fetches. -/
def begin (s : FeedState) : FeedState :=
  { s with had := s.had ++ s.feed, polled := s.feed, previousSince := s.modifiedSince }

theorem poll_of_error {error : PyError}
    (h : fetchPulses input.client s.modifiedSince input.maxPages input.maxRecords = .error error) :
    s.poll tools input = s.begin := by
  rw [poll]
  split
  case h_1 => rfl
  case h_2 pulses hok => cases h.symm.trans hok

theorem poll_of_ok
    (h : fetchPulses input.client s.modifiedSince input.maxPages input.maxRecords = .ok pulses) :
    s.poll tools input = s.begin.ingest tools pulses input := by
  rw [poll]
  split
  case h_1 error hfailed => cases hfailed.symm.trans h
  case h_2 found hok =>
    rw [Except.ok.inj (hok.symm.trans h)]
    rfl

/-- What a poll that does not write the checkpoint changes. -/
structure Attempted (s s' : FeedState) : Prop where
  feed : s'.feed = s.feed
  had : s.had ⊆ s'.had
  polled : s'.polled = s.feed
  previousSince : s'.previousSince = s.modifiedSince
  modifiedSince : s'.modifiedSince = s.modifiedSince
  ingested : s.ingested ⊆ s'.ingested

theorem attempted_begin (s : FeedState) : Attempted s s.begin where
  feed := rfl
  had := List.subset_append_left _ _
  polled := rfl
  previousSince := rfl
  modifiedSince := rfl
  ingested := List.Subset.refl _

theorem attempted_ingest (s : FeedState) (pulses : List OTXPulse) (hfault : input.fault ≠ none) :
    Attempted s (s.begin.ingest tools pulses input) := by
  obtain ⟨fault, hfault⟩ := Option.ne_none_iff_exists'.mp hfault
  rw [ingest, hfault]
  cases fault with
  | ingest => exact attempted_begin s
  | backfill => exact { attempted_begin s with ingested := List.subset_append_left _ _ }
  | status => exact { attempted_begin s with ingested := List.subset_append_left _ _ }

/-- A poll that does not write the checkpoint keeps what holds. -/
theorem Sound.of_attempted {s' : FeedState} (h : s.Sound) (hattempted : Attempted s s') : s'.Sound := by
  have hcovers : Covers OTXPulse.modified s.feed s'.ingested s'.modifiedSince := by
    rw [hattempted.modifiedSince]
    exact h.feed.mono (List.Subset.refl _) hattempted.ingested
  refine ⟨⟨?_, ?_⟩, ?_, fun t ht => ?_⟩
  · rw [hattempted.previousSince, hattempted.modifiedSince]
    exact .refl _
  · rw [hattempted.polled]
    exact hcovers
  · rw [hattempted.feed]
    exact hcovers
  · rw [hattempted.modifiedSince] at ht
    obtain ⟨old, hold, hmodified⟩ := h.had t ht
    exact ⟨old, hattempted.had hold, hmodified⟩

/-- A poll that succeeds replaces the checkpoint. -/
theorem poll_of_succeeds (tools : MatchTools)
    (hlisting : Listing input.client s.modifiedSince none input.pages)
    (hfault : input.fault = none) :
    (s.poll tools input).feed = s.feed ∧ (s.poll tools input).had = s.had ++ s.feed ∧
      (s.poll tools input).polled = s.feed ∧
      (s.poll tools input).previousSince = s.modifiedSince ∧
      (s.poll tools input).ingested = s.ingested ++ input.served ∧
      (s.poll tools input).modifiedSince = highWater OTXPulse.modified input.served := by
  rw [poll_of_ok (fetchPulses_eq hlisting), ingest, hfault]
  exact ⟨rfl, rfl, rfl, rfl, rfl, rfl⟩

/-- A poll that succeeds does not break the law exactly when it is complete. -/
theorem Sound.law_poll_iff (h : s.Sound) (tools : MatchTools)
    (hlisting : Listing input.client s.modifiedSince none input.pages)
    (hlists : Lists OTXPulse.modified s.feed s.modifiedSince (listed input.pages))
    (hfault : input.fault = none) :
    (s.poll tools input).SoundWatermark ↔
      Complete OTXPulse.modified s.modifiedSince (listed input.pages) input.served s.ingested := by
  obtain ⟨-, -, hpolled, hprevious, hingested, hsince⟩ := poll_of_succeeds tools hlisting hfault
  rw [← Library.covers_highWater_iff hlists (served_subset input) h.feed]
  constructor
  · rintro ⟨hrises, hcovers⟩
    rw [hprevious, hsince] at hrises
    rw [hpolled, hingested, hsince] at hcovers
    exact ⟨hrises, hcovers⟩
  · rintro ⟨hrises, hcovers⟩
    constructor
    · rw [hprevious, hsince]
      exact hrises
    · rw [hpolled, hingested, hsince]
      exact hcovers

theorem Sound.poll (h : s.Sound) (hhonest : s.Honest (.poll input))
    (hcomplete : s.CompletePoll (.poll input)) : (s.poll tools input).Sound := by
  cases hfetch : fetchPulses input.client s.modifiedSince input.maxPages input.maxRecords with
  | error error =>
    rw [poll_of_error hfetch]
    exact h.of_attempted (attempted_begin s)
  | ok pulses =>
    by_cases hfault : input.fault = none
    · obtain ⟨hlisting, hlists⟩ := hhonest ⟨pulses, hfetch⟩
      have hlaw := (h.law_poll_iff tools hlisting hlists hfault).mpr (hcomplete ⟨hfault, pulses, hfetch⟩)
      obtain ⟨hfeed, hhad, hpolled, -, -, hsince⟩ := poll_of_succeeds tools hlisting hfault
      refine ⟨hlaw, ?_, fun t ht => ?_⟩
      · have hcovers := hlaw.covers
        rw [hpolled] at hcovers
        rw [hfeed]
        exact hcovers
      · rw [hsince] at ht
        obtain ⟨⟨pulse, hpulse, hmodified⟩, -⟩ := Library.highWater_eq_some_iff.mp ht
        rw [hhad]
        exact ⟨pulse, List.mem_append_right _ (hlists.subset (served_subset input hpulse)), hmodified⟩
    · rw [poll_of_ok hfetch]
      exact h.of_attempted (attempted_ingest s pulses hfault)

/-! ## Runs -/

theorem Sound.publish (h : s.Sound) {pulse : OTXPulse}
    (hnewer : ∀ old ∈ s.had, old.modified < pulse.modified) :
    (s.step tools (.publish pulse)).Sound where
  law := ⟨h.law.rises, h.law.covers⟩
  feed := by
    refine (h.feed.mono (List.filter_subset_self _) (List.Subset.refl _)).cons fun t ht => ?_
    obtain ⟨old, hold, rfl⟩ := h.had t ht
    exact hnewer old hold
  had := h.had

theorem Sound.withdraw (h : s.Sound) (id : String) : (s.step tools (.withdraw id)).Sound where
  law := ⟨h.law.rises, h.law.covers⟩
  feed := h.feed.mono (List.filter_subset_self _) (List.Subset.refl _)
  had := h.had

theorem modifiedSince_storePost (store : ThreatStore) (post : SocialPostModel) :
    (Intelligence.storePost store post).modifiedSince = store.modifiedSince := by
  unfold Intelligence.storePost
  split_ifs <;> rfl

theorem Sound.storePost (h : s.Sound) (post : SocialPostModel) :
    (s.step tools (.storePost post)).Sound := by
  have hsince : (s.step tools (.storePost post)).modifiedSince = s.modifiedSince :=
    modifiedSince_storePost s.store post
  refine ⟨⟨?_, ?_⟩, ?_, ?_⟩
  · rw [hsince]
    exact h.law.rises
  · rw [hsince]
    exact h.law.covers
  · rw [hsince]
    exact h.feed
  · rw [hsince]
    exact h.had

theorem Sound.step (h : s.Sound) (move : ThreatFeedMove) (hhonest : s.Honest move)
    (hcomplete : s.CompletePoll move) : (s.step tools move).Sound := by
  cases move with
  | publish pulse => exact h.publish hhonest
  | withdraw id => exact h.withdraw id
  | storePost post => exact h.storePost post
  | poll input => exact h.poll hhonest hcomplete

/-- A poll that is not complete breaks the law. -/
theorem Sound.not_law (h : s.Sound) (move : ThreatFeedMove) (hhonest : s.Honest move)
    (hcomplete : ¬ s.CompletePoll move) : ¬ (s.step tools move).SoundWatermark := by
  cases move with
  | publish pulse => exact absurd trivial hcomplete
  | withdraw id => exact absurd trivial hcomplete
  | storePost post => exact absurd trivial hcomplete
  | poll input =>
    obtain ⟨⟨hfault, hfetch⟩, hnot⟩ := Classical.not_imp.mp hcomplete
    obtain ⟨hlisting, hlists⟩ := hhonest hfetch
    exact fun hlaw => hnot ((h.law_poll_iff tools hlisting hlists hfault).mp hlaw)

/-! ## The tables -/

/-- The tables are sound, and have what was ingested. -/
structure Kept (tools : MatchTools) (s : FeedState) : Prop where
  tables : s.store.tables.Sound
  recorded : s.Recorded tools

theorem kept_initial (tools : MatchTools) (feed : List OTXPulse) : Kept tools { feed := feed } where
  tables := ⟨fun _ _ h => (nomatch h), fun _ _ h => (nomatch h), fun _ _ h => (nomatch h)⟩
  recorded := fun _ h => absurd h List.not_mem_nil

theorem tables_ingest (tools : MatchTools) (s : FeedState) (pulses : List OTXPulse) (input : PollInput) :
    s.ingest tools pulses input = s ∨
      (s.ingest tools pulses input).ingested = s.ingested ++ pulses ∧
        ∃ found, (s.ingest tools pulses input).store.tables =
          { recordPulses tools s.store.tables pulses input.now with found := found } := by
  obtain ⟨found, watermark, hpoll, -⟩ :
      ∃ found watermark, (pollOnce tools s.store pulses input.now input.place).2 =
        { s.store with
          tables := { recordPulses tools s.store.tables pulses input.now with found := found }
          modifiedSince := watermark
          polled := s.store.posts } ∧ _ :=
    pollOnce_spec s.store pulses input.now input.place
  obtain ⟨found', hentries, -⟩ :
      ∃ found, (pulseEntries tools pulses).foldl (ingestOne tools s.store.posts input.now)
          s.store.tables =
        { recordPulses tools s.store.tables pulses input.now with found := found } ∧ _ :=
    ingestEntries_spec (pulseEntries tools pulses)
  rw [ingest]
  cases input.fault with
  | none => exact Or.inr ⟨rfl, found, by rw [hpoll]⟩
  | some fault =>
    cases fault with
    | ingest => exact Or.inl rfl
    | backfill =>
      exact Or.inr ⟨rfl, found', (ingestPulses_tables pulses).trans hentries⟩
    | status => exact Or.inr ⟨rfl, found, by dsimp only; rw [hpoll]⟩

theorem Kept.ingest (h : s.Kept tools) (pulses : List OTXPulse) (input : PollInput) :
    (s.ingest tools pulses input).Kept tools := by
  rcases tables_ingest tools s pulses input with heq | ⟨hingested, found, htables⟩
  · rw [heq]
    exact h
  · obtain ⟨hsound, hextends, hentries⟩ := recordEntries_spec h.tables (pulseEntries tools pulses)
    refine ⟨?_, fun entry hentry => ?_⟩
    · rw [htables]
      exact ⟨hsound.indicators, hsound.observationIds, hsound.observed⟩
    · rw [htables]
      rw [hingested, pulseEntries, List.flatMap_append] at hentry
      rcases List.mem_append.mp hentry with hold | hnew
      · obtain ⟨observation, hobservation⟩ := h.recorded entry hold
        exact ⟨observation, hextends _ _ hobservation⟩
      · exact hentries entry hnew

theorem Kept.begin (h : s.Kept tools) : s.begin.Kept tools :=
  ⟨h.tables, h.recorded⟩

theorem tables_storePost (store : ThreatStore) (post : SocialPostModel) :
    (Intelligence.storePost store post).tables = store.tables := by
  unfold Intelligence.storePost
  split_ifs <;> rfl

theorem Kept.step (h : s.Kept tools) (move : ThreatFeedMove) : (s.step tools move).Kept tools := by
  cases move with
  | publish pulse => exact ⟨h.tables, h.recorded⟩
  | withdraw id => exact ⟨h.tables, h.recorded⟩
  | storePost post =>
    have htables : (s.step tools (.storePost post)).store.tables = s.store.tables :=
      tables_storePost s.store post
    refine ⟨?_, fun entry hentry => ?_⟩
    · rw [htables]
      exact h.tables
    · rw [htables]
      exact h.recorded entry hentry
  | poll input =>
    show (s.poll tools input).Kept tools
    cases hfetch : fetchPulses input.client s.modifiedSince input.maxPages input.maxRecords with
    | error error =>
      rw [poll_of_error hfetch]
      exact h.begin
    | ok pulses =>
      rw [poll_of_ok hfetch]
      exact h.begin.ingest pulses input

/-- **The watermark is sound throughout a run exactly when every poll that succeeds is complete**: it
leaves out only pulses that are newer than all that it fetches, and it fetches one if there is a checkpoint.
What is ingested is in the tables. -/
theorem watermark_sound_iff (tools : MatchTools) (feed : List OTXPulse) (moves : List ThreatFeedMove)
    (hhonest : Throughout (step tools) Honest { feed := feed } moves) :
    (Always (step tools) SoundWatermark { feed := feed } moves ↔
      Throughout (step tools) CompletePoll { feed := feed } moves) ∧
    Always (step tools) (Recorded tools) { feed := feed } moves := by
  constructor
  · exact Library.always_iff_throughout_of (fun _ move h hhonest hcomplete => h.step move hhonest hcomplete)
      (fun _ h => h.law) (fun _ move h hhonest hcomplete => h.not_law move hhonest hcomplete)
      (sound_initial feed) hhonest
  · exact Library.always_of_throughout (fun _ move h _ => h.step move) (fun _ h => h.recorded)
      (kept_initial tools feed) (Library.throughout_of_forall (fun _ _ => trivial) _ moves)

/-! ## A feed of two pulses -/

def older : OTXPulse where
  id := "older"
  modified := 10

def newer : OTXPulse where
  id := "newer"
  modified := 20

/-- A poll whose answer has one page. -/
def onePage (pulses : List OTXPulse) (maxRecords : ℕ) : PollInput where
  client := {
    get := fun _ => .ok { results := pulses.map .ok }
    validTarget := fun _ => true }
  pages := [{ results := pulses.map .ok }]
  maxPages := 5
  maxRecords := maxRecords
  now := 100
  place := fun _ => 0

theorem listed_onePage (pulses : List OTXPulse) (maxRecords : ℕ) :
    listed (onePage pulses maxRecords).pages = pulses := by
  induction pulses with
  | nil => rfl
  | cons pulse pulses ih => exact congrArg (pulse :: ·) ih

theorem honest_onePage {maxRecords : ℕ}
    (hlists : Lists OTXPulse.modified s.feed s.modifiedSince pulses) :
    s.Honest (.poll (onePage pulses maxRecords)) := by
  intro _
  rw [listed_onePage]
  exact ⟨.last rfl rfl rfl, hlists⟩

/-- The feed gets a second pulse between two polls. -/
def twoPolls : List ThreatFeedMove :=
  [.poll (onePage [older] 1000), .publish newer, .poll (onePage [newer] 1000)]

theorem lists_older : Lists OTXPulse.modified [older] none [older] where
  newer := fun _ h _ => h
  mem := fun _ h => h
  notOlder := fun _ _ _ ht => nomatch ht

theorem lists_newer : Lists OTXPulse.modified [newer, older] (some 10) [newer] where
  newer := fun pulse hpulse hmodified => by
    rcases List.mem_cons.mp hpulse with rfl | hpulse
    · exact List.mem_cons_self
    · obtain rfl := List.mem_singleton.mp hpulse
      exact absurd (hmodified 10 rfl) (by decide)
  mem := fun _ hpulse => List.mem_cons.mpr (Or.inl (List.mem_singleton.mp hpulse))
  notOlder := fun pulse hpulse t ht => by
    obtain rfl := List.mem_singleton.mp hpulse
    obtain rfl := Option.some.inj ht
    decide

theorem honest_twoPolls : Throughout (step plainTools) Honest { feed := [older] } twoPolls := by
  refine ⟨honest_onePage lists_older, fun old hold => ?_, honest_onePage lists_newer, trivial⟩
  obtain rfl := List.mem_singleton.mp hold
  decide

/-- The watermark is sound while both pulses are fetched. -/
theorem watermark_sound_twoPolls :
    Always (step plainTools) SoundWatermark { feed := [older] } twoPolls ∧
      Always (step plainTools) (Recorded plainTools) { feed := [older] } twoPolls := by
  obtain ⟨hlaw, hrecorded⟩ := watermark_sound_iff plainTools [older] twoPolls honest_twoPolls
  refine ⟨hlaw.mpr ⟨fun _ => ⟨fun _ => nofun, ?_⟩, trivial, fun _ => ⟨fun _ => nofun, ?_⟩, trivial⟩,
    hrecorded⟩
  · exact fun pulse hpulse hleft => absurd hpulse hleft
  · exact fun pulse hpulse hleft => absurd hpulse hleft

/-- The second poll finds nothing that is newer. -/
def emptyPoll : List ThreatFeedMove :=
  [.poll (onePage [older] 1000), .poll (onePage [] 1000)]

/-- There is room for one pulse, and the newer one is listed first. -/
def cutPoll : List ThreatFeedMove :=
  [.poll (onePage [newer, older] 1)]

theorem honest_emptyPoll : Throughout (step plainTools) Honest { feed := [older] } emptyPoll := by
  refine ⟨honest_onePage lists_older, honest_onePage ⟨fun pulse hpulse hmodified => ?_, nofun, nofun⟩,
    trivial⟩
  obtain rfl := List.mem_singleton.mp hpulse
  exact absurd (hmodified 10 rfl) (by decide)

theorem honest_cutPoll : Throughout (step plainTools) Honest { feed := [newer, older] } cutPoll :=
  ⟨honest_onePage ⟨fun _ h _ => h, fun _ h => h, fun _ _ _ ht => nomatch ht⟩, trivial⟩

/-- An empty poll takes the checkpoint away, and a poll that is cut leaves a pulse below it. -/
theorem watermark_unsound :
    (Throughout (step plainTools) Honest { feed := [older] } emptyPoll ∧
      ¬ Always (step plainTools) SoundWatermark { feed := [older] } emptyPoll) ∧
    (Throughout (step plainTools) Honest { feed := [newer, older] } cutPoll ∧
      ¬ Always (step plainTools) SoundWatermark { feed := [newer, older] } cutPoll) := by
  refine ⟨⟨honest_emptyPoll, fun hlaw => ?_⟩, honest_cutPoll, fun hlaw => ?_⟩
  · obtain ⟨t, ht, -⟩ := hlaw.final.rises 10 rfl
    exact nomatch ht
  · have hingested : older ∈ [newer] :=
      hlaw.final.covers older (List.mem_cons_of_mem _ List.mem_cons_self) 20 rfl (by decide)
    have hmodified : older.modified = newer.modified :=
      congrArg OTXPulse.modified (List.mem_singleton.mp hingested)
    exact absurd hmodified (by decide)

end FeedState

end Intelligence
end Scam2Market
