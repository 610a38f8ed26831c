import Scam2Market.Ingestion.Quality
import Scam2Market.Ingestion.Services

/-!
# A market ingest that raises

`MarketIngestionService.ingest` of `ingestion/market.py` with the quality tracker it shares, and what the
tracker says afterwards.

* `MarketIngestionService.track`: the observation is made between the claim and the publish, and what fails
  afterwards releases the key and nothing else.
* `track_answered`: it is the program of the service, given what the tracker says.
* `Shows`: the quality says already what an observation says.
* `keepsQuality_iff`: the exact condition under which an ingest that raises leaves the tracker as it was, and
  a retry does what the attempt would have done.
* `retry_out_of_order`: a publish that raises, and a retry that is out of order.
-/

namespace Scam2Market
namespace Ingestion

open Library
open Streaming

/-! ## The ingest and the tracker -/

/-- A market event with the number its source gave it. -/
structure NumberedEvent extends MarketEvent where
  sourceSequence : Option ℤ := none

/-- `isinstance(datum, OrderBookUpdate)`. -/
def isOrderBookUpdate : MarketDatum → Bool
  | .book _ => true
  | _ => false

/-- The arguments of `observe`. -/
def NumberedEvent.observed (event : NumberedEvent) (datum : MarketDatum) : Observed where
  source := event.source
  assetId := event.assetId
  eventTime := event.eventTime
  ingestedAt := event.ingestedAt
  sequence := event.sourceSequence
  isOrderbook := isOrderBookUpdate datum

/-- What the store and the publisher do at each call of an ingest. -/
structure Answers where
  claim : Except PyError Bool := .ok true
  publish : Except PyError Unit := .ok ()
  setJson : String → Except PyError Unit := fun _ => .ok ()
  release : Except PyError Unit := .ok ()

/-- An event that is given to the publisher, with `quality.as_dict()` under `_quality`. -/
structure PublishedEvent where
  topic : String
  event : NumberedEvent
  quality : SourceQuality

/-- What an ingest comes to: its result, the tracker, and what was given to the publisher. -/
structure Ingested where
  result : Except PyError Bool
  tracker : SourceQualityTracker
  published : List PublishedEvent := []

/-- The calls after the observation. -/
def NumberedEvent.effects (event : NumberedEvent) (answers : Answers) : Except PyError Bool := do
  answers.publish
  answers.setJson s!"latest:market:{event.assetId}"
  answers.setJson s!"source-health:market:{event.source}:{event.assetId}"
  return true

/-- `except Exception: await release(key); raise`. -/
def Answers.releaseAndRaise (answers : Answers) (error : PyError) : Except PyError Bool := do
  answers.release
  throw error

/-- What the tracker holds about a source and an asset, a fresh quality if there is none. -/
def SourceQualityTracker.state (tracker : SourceQualityTracker) (source assetId : String) : SourceQuality :=
  tracker.states.getD (source, assetId) { source := source, assetId := assetId }

namespace MarketIngestionService

/-- `MarketIngestionService.ingest(event)`, with the tracker. -/
def track (service : MarketIngestionService) (tracker : SourceQualityTracker) (event : NumberedEvent)
    (now : Datetime) (answers : Answers) : Ingested :=
  if service.accepts event.toMarketEvent now then
    match normalizeMarketEvent event.toMarketEvent with
    | .error error => { result := .error error, tracker }
    | .ok datum =>
      match answers.claim with
      | .error error => { result := .error error, tracker }
      | .ok false => { result := .ok false, tracker }
      | .ok true =>
        let tracker := tracker.observe (event.observed datum)
        let quality := tracker.state event.source event.assetId
        { result := (event.effects answers).tryCatch answers.releaseAndRaise
          tracker
          published := [{ topic := topicOf datum, event, quality }] }
  else { result := .ok false, tracker }

end MarketIngestionService

/-! ## The program of the service -/

/-- What a program comes to, and what it gives to the publisher. -/
def Program.answered {μ : Type} (answers : Answers) : Program μ → Except PyError Bool × List (List μ)
  | .done result => (result, [])
  | .claim _ next =>
    match answers.claim with
    | .ok isClaimed => (next isClaimed).answered answers
    | .error error => (.error error, [])
  | .publish messages next onRaise =>
    let rest := match answers.publish with
      | .ok () => next.answered answers
      | .error error => (onRaise error).answered answers
    (rest.1, messages :: rest.2)
  | .setJson key next onRaise =>
    match answers.setJson key with
    | .ok () => next.answered answers
    | .error error => (onRaise error).answered answers
  | .release _ next =>
    match answers.release with
    | .ok () => next.answered answers
    | .error error => (.error error, [])

/-- The message, `as_dict` being `asDict`. -/
def PublishedEvent.message (asDict : SourceQuality → JsonObject) (published : PublishedEvent) : Message :=
  .market published.topic { published.event.toMarketEvent with quality := asDict published.quality }

variable {service : MarketIngestionService} {tracker : SourceQualityTracker} {event : NumberedEvent}
  {now : Datetime} {answers : Answers}

theorem Program.answered_releaseAndRaise {μ : Type} (key : String) (error : PyError) :
    (Program.releaseAndRaise (μ := μ) key error).answered answers =
      (answers.releaseAndRaise error, []) := by
  rw [Program.releaseAndRaise, Program.answered, Answers.releaseAndRaise]
  rcases answers.release with error' | _ <;> rfl

/-- The calls after the observation, each of which may raise. -/
theorem answered_effects {μ : Type} (key : String) (message : μ) :
    (Program.publish [message]
      (.setJson s!"latest:market:{event.assetId}"
        (.setJson s!"source-health:market:{event.source}:{event.assetId}" (.done (.ok true))
          (.releaseAndRaise key))
        (.releaseAndRaise key))
      (.releaseAndRaise key)).answered answers =
      ((event.effects answers).tryCatch answers.releaseAndRaise, [[message]]) := by
  unfold NumberedEvent.effects
  simp only [Program.answered, Program.answered_releaseAndRaise]
  rcases answers.publish with error | _
  · rfl
  rcases answers.setJson s!"latest:market:{event.assetId}" with error | _
  · rfl
  rcases answers.setJson s!"source-health:market:{event.source}:{event.assetId}" with error | _
  · rfl
  · rfl

/-- The ingest is the program of the service, given what the tracker says then. -/
theorem track_answered (asDict : SourceQuality → JsonObject) :
    ((service.track tracker event now answers).result,
      (service.track tracker event now answers).published.map fun published =>
        [published.message asDict]) =
      (service.ingest event.toMarketEvent (.ok (asDict ((service.track tracker event now answers).tracker.state
        event.source event.assetId))) now).answered answers := by
  unfold MarketIngestionService.track MarketIngestionService.ingest
  by_cases haccepts : service.accepts event.toMarketEvent now = true
  · rw [if_pos haccepts, if_pos haccepts]
    rcases normalizeMarketEvent event.toMarketEvent with error | datum
    · rfl
    simp only [Program.answered]
    rcases answers.claim with error | _ | _
    · rfl
    · rfl
    · exact (answered_effects (dedupeKey event.eventId) _).symm
  · rw [if_neg haccepts, if_neg haccepts]
    rfl

/-! ## Observations that show nothing new -/

/-- The source is late. -/
def Observed.isStale (threshold : ℤ) (observed : Observed) : Bool :=
  decide (threshold < observed.age)

/-- The quality says already what the observation says: the observation has no number, its times are known,
and a book is as stale, or as valid, as the one before. -/
structure SourceQuality.Shows (threshold : ℤ) (quality : SourceQuality) (observed : Observed) : Prop where
  unnumbered : observed.sequence = none
  seen : ∃ time, quality.lastEventTime = some time ∧ observed.eventTime ≤ time
  ingested : quality.lastIngestedAt = some observed.ingestedAt
  active : quality.sourceActive = true
  busy : quality.sourceIdle = false
  degraded : quality.sourceDegraded = observed.isStale threshold
  status : quality.status = if observed.isStale threshold then "DEGRADED" else "HEALTHY"
  book : observed.isOrderbook = true →
    if observed.isStale threshold then
      quality.orderbookState = .stale ∧ quality.recoveryUpdates = 0 ∧ quality.bookValid = false
    else quality.orderbookState = .valid ∧ quality.bookValid = true

/-- An observation with a number that does not move the last number is out of order. -/
theorem sequenceFault_of_nextSequence {last : Option ℤ} {sequence : ℤ}
    (h : nextSequence last (some sequence) = last) :
    sequenceFault last (some sequence) = some .outOfOrder := by
  rcases last with _ | last
  · cases h
  · have hmax : max sequence (if last = 0 then sequence else last) = last := Option.some.inj h
    have hle : sequence ≤ last := hmax ▸ le_max_left _ _
    rw [sequenceFault, if_neg (by omega), if_pos hle]

/-- A book after which the state of the book and its counter are what they were. -/
theorem update_eq_self_iff {state : OrderBookState} {recoveryUpdates : ℕ} {isStale : Bool} :
    state.update recoveryUpdates isStale false = (state, recoveryUpdates) ↔
      if isStale then state = .stale ∧ recoveryUpdates = 0 else state = .valid := by
  cases isStale
  · cases state <;> simp [OrderBookState.update]
  · simp [OrderBookState.update, eq_comm]

theorem SourceQuality.Shows.of_observe_eq_self {threshold : ℤ} {quality : SourceQuality}
    {observed : Observed} (h : quality.observe threshold observed = quality) :
    quality.Shows threshold observed := by
  -- an observation with a number moves the last number or counts
  have hsequence : observed.sequence = none := by
    by_contra hne
    obtain ⟨sequence, hsome⟩ := Option.ne_none_iff_exists'.mp hne
    have hlast : nextSequence quality.lastSequence observed.sequence = quality.lastSequence :=
      congrArg SourceQuality.lastSequence h
    rw [hsome] at hlast
    have hcount := congrArg SourceQuality.outOfOrderCount h
    rw [SourceQuality.observe, hsome, sequenceFault_of_nextSequence hlast] at hcount
    exact absurd hcount (Nat.succ_ne_self _)
  have hfault : sequenceFault quality.lastSequence observed.sequence = none := by rw [hsequence]; rfl
  have htime := congrArg SourceQuality.lastEventTime h
  have hstate := congrArg SourceQuality.orderbookState h
  have hrecovery := congrArg SourceQuality.recoveryUpdates h
  have hvalid := congrArg SourceQuality.bookValid h
  have hdegraded := congrArg SourceQuality.sourceDegraded h
  have hstatus := congrArg SourceQuality.status h
  simp only [SourceQuality.observe, hfault, Option.isSome_none, Bool.or_false]
    at htime hstate hrecovery hvalid hdegraded hstatus
  rw [hdegraded] at hstatus
  have hseen : ∃ time, quality.lastEventTime = some time ∧ observed.eventTime ≤ time :=
    ⟨_, htime.symm, le_max_left _ _⟩
  have hshows : quality.sourceDegraded = observed.isStale threshold ∧ (observed.isOrderbook = true →
      if observed.isStale threshold then
        quality.orderbookState = .stale ∧ quality.recoveryUpdates = 0 ∧ quality.bookValid = false
      else quality.orderbookState = .valid ∧ quality.bookValid = true) := by
    cases horderbook : observed.isOrderbook
    · simp only [horderbook, Bool.false_and, Bool.or_false] at hdegraded
      exact ⟨hdegraded.symm, fun hbook => absurd hbook Bool.false_ne_true⟩
    · simp only [horderbook, if_true, Bool.true_and] at hstate hrecovery hvalid hdegraded
      have hupdate := update_eq_self_iff.mp (Prod.ext hstate hrecovery)
      rw [hstate] at hvalid hdegraded
      cases hstale : decide (threshold < observed.age) with
      | false =>
        rw [hstale, if_neg Bool.false_ne_true] at hupdate
        rw [hstale, hupdate] at hdegraded
        rw [hupdate] at hvalid
        rw [Observed.isStale, hstale, if_neg Bool.false_ne_true]
        exact ⟨hdegraded.symm, fun _ => ⟨hupdate, hvalid.symm⟩⟩
      | true =>
        rw [hstale, if_pos rfl] at hupdate
        rw [hstale, Bool.true_or] at hdegraded
        rw [hupdate.1] at hvalid
        rw [Observed.isStale, hstale, if_pos rfl]
        exact ⟨hdegraded.symm, fun _ => ⟨hupdate.1, hupdate.2, hvalid.symm⟩⟩
  exact {
    unnumbered := hsequence
    seen := hseen
    ingested := (congrArg SourceQuality.lastIngestedAt h).symm
    active := (congrArg SourceQuality.sourceActive h).symm
    busy := (congrArg SourceQuality.sourceIdle h).symm
    degraded := hshows.1
    status := hshows.1 ▸ hstatus.symm
    book := hshows.2 }

theorem SourceQuality.Shows.observe_eq_self {threshold : ℤ} {quality : SourceQuality}
    {observed : Observed} (h : quality.Shows threshold observed) :
    quality.observe threshold observed = quality := by
  obtain ⟨time, htime, hle⟩ := h.seen
  have hfault : sequenceFault quality.lastSequence observed.sequence = none := by
    rw [h.unnumbered]
    rfl
  have hlast : nextSequence quality.lastSequence observed.sequence = quality.lastSequence := by
    rw [h.unnumbered]
    rfl
  have hmax : max observed.eventTime (quality.lastEventTime.getD observed.eventTime) = time := by
    rw [htime]
    exact max_eq_right hle
  have hbook : (if observed.isOrderbook then
      quality.orderbookState.update quality.recoveryUpdates (observed.isStale threshold) false
      else (quality.orderbookState, quality.recoveryUpdates)) =
        (quality.orderbookState, quality.recoveryUpdates) := by
    split_ifs with horderbook
    · refine update_eq_self_iff.mpr ?_
      have hbook := h.book horderbook
      split_ifs at hbook ⊢
      · exact ⟨hbook.1, hbook.2.1⟩
      · exact hbook.1
    · rfl
  have hvalid : (if observed.isOrderbook then quality.orderbookState.isValid else quality.bookValid) =
      quality.bookValid := by
    split_ifs with horderbook
    · have hbook := h.book horderbook
      split_ifs at hbook
      · rw [hbook.1, hbook.2.2]
        rfl
      · rw [hbook.1, hbook.2]
        rfl
    · rfl
  have hdegraded : (observed.isStale threshold || observed.isOrderbook && !quality.bookValid) =
      observed.isStale threshold := by
    cases horderbook : observed.isOrderbook
    · rw [Bool.false_and, Bool.or_false]
    · have hbook := h.book horderbook
      cases hstale : observed.isStale threshold with
      | false =>
        rw [hstale, if_neg Bool.false_ne_true] at hbook
        rw [hbook.2]
        rfl
      | true => rfl
  have hstale : decide (threshold < observed.age) = observed.isStale threshold := rfl
  simp only [SourceQuality.observe, hstale, hfault, hlast, hmax, Option.isSome_none, Bool.or_false, hbook,
    hvalid, hdegraded]
  cases quality
  exact (SourceQuality.mk.injEq ..).mpr ⟨rfl, rfl, htime.symm, h.ingested.symm, rfl, rfl, rfl, h.status.symm,
    h.active.symm, h.busy.symm, h.degraded.symm, rfl, rfl, rfl⟩

theorem SourceQuality.observe_eq_self_iff {threshold : ℤ} {quality : SourceQuality} {observed : Observed} :
    quality.observe threshold observed = quality ↔ quality.Shows threshold observed :=
  ⟨.of_observe_eq_self, fun h => h.observe_eq_self⟩

namespace SourceQualityTracker

/-- The tracker says already what the observation says. -/
def Shows (tracker : SourceQualityTracker) (observed : Observed) : Prop :=
  ∃ quality, tracker.get observed.source observed.assetId = some quality ∧
    quality.Shows tracker.threshold observed

theorem observe_eq_self {tracker : SourceQualityTracker} {observed : Observed}
    (h : tracker.Shows observed) : tracker.observe observed = tracker := by
  obtain ⟨quality, hquality, hshows⟩ := h
  have hstate : tracker.states.getD (observed.source, observed.assetId)
      { source := observed.source, assetId := observed.assetId } = quality :=
    OrderedDict.getD_of_get?_eq_some hquality
  rw [observe, hstate, SourceQuality.observe_eq_self_iff.mpr hshows,
    OrderedDict.set_of_get?_eq_some hquality]

/-- **The observation changes nothing exactly when the tracker shows it.** -/
theorem get_observe_iff {tracker : SourceQualityTracker} {observed : Observed} :
    (∀ source assetId, (tracker.observe observed).get source assetId = tracker.get source assetId) ↔
      tracker.Shows observed := by
  refine ⟨fun h => ?_, fun h source assetId => by rw [observe_eq_self h]⟩
  have hown := h observed.source observed.assetId
  rw [get, observe, OrderedDict.get?_set_self] at hown
  have hquality : tracker.states.getD (observed.source, observed.assetId)
      { source := observed.source, assetId := observed.assetId } =
        (tracker.states.getD (observed.source, observed.assetId)
          { source := observed.source, assetId := observed.assetId }).observe tracker.threshold observed :=
    OrderedDict.getD_of_get?_eq_some hown.symm
  exact ⟨_, hown.symm, SourceQuality.observe_eq_self_iff.mp (hquality ▸ hquality.symm)⟩

end SourceQualityTracker

/-! ## A failed ingest -/

namespace MarketIngestionService

/-- An ingest that raises leaves the quality of every source and asset as it was, and a retry gives the
publisher, and leaves in the tracker, what the same attempt would have from the tracker before. -/
def KeepsQuality (service : MarketIngestionService) (tracker : SourceQualityTracker) (event : NumberedEvent)
    (now : Datetime) (answers : Answers) : Prop :=
  let failed := service.track tracker event now answers
  ∀ error, failed.result = .error error →
    (∀ source assetId, failed.tracker.get source assetId = tracker.get source assetId) ∧
    ∀ now' answers',
      (service.track failed.tracker event now' answers').published =
        (service.track tracker event now' answers').published ∧
      ∀ source assetId, (service.track failed.tracker event now' answers').tracker.get source assetId =
        (service.track tracker event now' answers').tracker.get source assetId

/-- A call after the observation raises only when the tracker shows the event already. -/
def Harmless (service : MarketIngestionService) (tracker : SourceQualityTracker) (event : NumberedEvent)
    (now : Datetime) (answers : Answers) : Prop :=
  service.accepts event.toMarketEvent now = true →
    ∀ datum, normalizeMarketEvent event.toMarketEvent = .ok datum → answers.claim = .ok true →
      ∀ error, event.effects answers = .error error → tracker.Shows (event.observed datum)

/-- Nothing is observed before the claim, or by an event that is refused. -/
theorem track_of_not_granted (h : ¬ (service.accepts event.toMarketEvent now = true ∧
    (∃ datum, normalizeMarketEvent event.toMarketEvent = .ok datum) ∧ answers.claim = .ok true)) :
    (service.track tracker event now answers).tracker = tracker := by
  unfold track
  by_cases haccepts : service.accepts event.toMarketEvent now = true
  · rw [if_pos haccepts]
    rcases hdatum : normalizeMarketEvent event.toMarketEvent with error | datum
    · rfl
    rcases hclaim : answers.claim with error | _ | _
    · rfl
    · rfl
    · exact absurd ⟨haccepts, ⟨datum, hdatum⟩, hclaim⟩ h
  · rw [if_neg haccepts]

theorem track_of_granted (tracker : SourceQualityTracker)
    (haccepts : service.accepts event.toMarketEvent now = true) {datum : MarketDatum}
    (hdatum : normalizeMarketEvent event.toMarketEvent = .ok datum) (hclaim : answers.claim = .ok true) :
    (service.track tracker event now answers).result =
        (event.effects answers).tryCatch answers.releaseAndRaise ∧
      (service.track tracker event now answers).tracker = tracker.observe (event.observed datum) := by
  unfold track
  rw [if_pos haccepts, hdatum, hclaim]
  exact ⟨rfl, rfl⟩

/-- **What a failed ingest leaves behind.**  For every tracker and event, and whatever the store and the
publisher answer: an ingest that raises leaves the tracker as it was, and a retry does what the attempt would
have done, exactly when a call after the observation raises only if the tracker showed the event already. -/
theorem keepsQuality_iff (service : MarketIngestionService) (tracker : SourceQualityTracker)
    (event : NumberedEvent) (now : Datetime) (answers : Answers) :
    service.KeepsQuality tracker event now answers ↔ service.Harmless tracker event now answers := by
  constructor
  · intro h haccepts datum hdatum hclaim error heffects
    obtain ⟨hresult, htracker⟩ := track_of_granted tracker haccepts hdatum hclaim
    have hraises : ∃ error', (service.track tracker event now answers).result = .error error' := by
      rw [hresult, heffects]
      show ∃ error', answers.releaseAndRaise error = .error error'
      rw [Answers.releaseAndRaise]
      rcases answers.release with error' | _
      · exact ⟨error', rfl⟩
      · exact ⟨error, rfl⟩
    obtain ⟨error', hraises⟩ := hraises
    have hkept := (h error' hraises).1
    rw [htracker] at hkept
    exact SourceQualityTracker.get_observe_iff.mp hkept
  · intro h error hresult
    have htracker : (service.track tracker event now answers).tracker = tracker := by
      by_cases hgranted : service.accepts event.toMarketEvent now = true ∧
          (∃ datum, normalizeMarketEvent event.toMarketEvent = .ok datum) ∧ answers.claim = .ok true
      · obtain ⟨haccepts, ⟨datum, hdatum⟩, hclaim⟩ := hgranted
        obtain ⟨hresult', htracker⟩ := track_of_granted tracker haccepts hdatum hclaim
        rw [htracker]
        rcases heffects : event.effects answers with error' | result
        · exact SourceQualityTracker.observe_eq_self (h haccepts datum hdatum hclaim error' heffects)
        · rw [hresult', heffects] at hresult
          cases hresult
      · exact track_of_not_granted hgranted
    rw [htracker]
    exact ⟨fun _ _ => rfl, fun _ _ => ⟨rfl, fun _ _ => rfl⟩⟩

theorem notMem_numberedTrade : ':' ∉ "9b2f".toList := by decide

/-- A trade with the number 5. -/
def numberedTrade : NumberedEvent where
  eventId := ⟨"9b2f", notMem_numberedTrade⟩
  source := "market-replay"
  assetId := "S2MUSDT"
  eventTime := 0
  ingestedAt := 0
  payload := .ok (.trade { price := 1, quantity := 100 })
  sourceSequence := some 5

/-- The publish raises; the retry finds its own number in the tracker, and counts it as out of order. -/
theorem retry_out_of_order :
    ¬ ∀ (service : MarketIngestionService) (tracker : SourceQualityTracker) (event : NumberedEvent)
      (now : Datetime) (answers : Answers), service.KeepsQuality tracker event now answers := by
  intro h
  obtain ⟨-, hretry⟩ := h ⟨fun _ _ => true⟩ { threshold := 30 } numberedTrade 0
    { publish := .error (.timeoutError "KafkaTimeoutError") } (.timeoutError "KafkaTimeoutError") rfl
  have hcounts := congrArg (List.map fun published => published.quality.outOfOrderCount) (hretry 0 {}).1
  revert hcounts
  decide +kernel

end MarketIngestionService

end Ingestion
end Scam2Market
