import Scam2Market.Campaigns.Redelivery
import Scam2Market.Library.Consumers

/-!
# The campaign worker

`CampaignService.process` of `campaigns/service.py` in the loop of `workers/campaign_worker.py`: a score is
applied in one transaction, then its offset is committed; whatever raises ends the process.

* `process`: an event of another type, or with a payload that is no score, is refused.
* `SuccessfulCalls`: one successful call of `apply` for each score handled, the first of each event id.
* `effect_once`: whatever crashes, the tables are those of a worker that applies every score once, each
  partition in its order.
-/

namespace Scam2Market
namespace Workers

open Campaigns (CampaignEvidence CampaignUpdate SessionM SqlCampaignRepository Tables)
open Campaigns.SqlCampaignRepository (Call)
open Intelligence (FusionResult)
open Library
open Library.Consumer
open Streaming (EventType)

/-! ## The service -/

/-- What the service reads of an event; `payload` is what `FusionResult.model_validate` makes of it. -/
structure FusionScoreEvent where
  eventId : String
  eventType : EventType
  correlationId : String
  causationId : Option String := none
  eventTime : Datetime
  payload : Except PyError FusionResult

/-- The evidence of an event, if it is a score. -/
def campaignEvidence (event : FusionScoreEvent) : Except PyError CampaignEvidence := do
  if event.eventType ≠ .modelFusionScored then
    throw (.valueError "campaign service only accepts fusion score events")
  let fusion ← event.payload
  return {
    eventId := event.eventId
    correlationId := event.correlationId
    causationId := event.causationId
    eventTime := event.eventTime
    fusion := fusion }

/-- What the advisory lock and the clock answer while an event is handled. -/
structure CampaignSurroundings where
  granted : ℕ → Bool
  now : Datetime

/-- `CampaignService.process(event)`. -/
def process (repo : SqlCampaignRepository) (event : FusionScoreEvent) (surroundings : CampaignSurroundings) :
    SessionM CampaignUpdate := do
  let evidence ← Procedure.ofExcept (campaignEvidence event)
  repo.perform
    { evidence := evidence, granted := surroundings.granted, now := surroundings.now }

/-! ## The worker -/

abbrev ScoreRecord := Record (String × ℕ) FusionScoreEvent

abbrev ScoreLog := String × ℕ → ℕ → Option FusionScoreEvent

/-- A transaction that raises is rolled back, and ends the process. -/
def handleScore (repo : SqlCampaignRepository) (record : ScoreRecord) (surroundings : CampaignSurroundings) :
    Program Tables :=
  .step (fun t => (process repo record.event surroundings t).2) fun t =>
    if (process repo record.event surroundings t).1.isOk then .done else .raise

abbrev CampaignWorker := Consumer (String × ℕ) FusionScoreEvent Tables

abbrev CampaignWorkerMove := ConsumerMove (String × ℕ) CampaignSurroundings Empty

def campaignWorkerStep (repo : SqlCampaignRepository) (log : ScoreLog) :
    CampaignWorker → CampaignWorkerMove → CampaignWorker :=
  Consumer.step log (handleScore repo) alone

def initialCampaignWorker : CampaignWorker :=
  { store := .empty }

/-! ## One score -/

variable {repo : SqlCampaignRepository} {record : ScoreRecord} {surroundings : CampaignSurroundings}
  {evidence : CampaignEvidence} {t : Tables} {calls : List Call}

theorem eventId_of_campaignEvidence {event : FusionScoreEvent}
    (h : campaignEvidence event = .ok evidence) : evidence.eventId = event.eventId := by
  rw [campaignEvidence] at h
  split_ifs at h with htype
  · exact absurd h (by simp [throw, throwThe, MonadExceptOf.throw, bind, Except.bind])
  · cases hpayload : event.payload with
    | error e =>
      rw [hpayload] at h
      exact absurd h (by simp [bind, Except.bind])
    | ok fusion =>
      rw [hpayload] at h
      exact (congrArg CampaignEvidence.eventId (Except.ok.inj h)).symm

/-- A score is applied in a call, and one that is refused changes nothing. -/
theorem process_cases (repo : SqlCampaignRepository) (event : FusionScoreEvent)
    (surroundings : CampaignSurroundings) (t : Tables) :
    (∃ e, process repo event surroundings t = (.error e, t)) ∨
      ∃ call update t', campaignEvidence event = .ok call.evidence ∧
        repo.perform call t = (.ok update, t') ∧
        process repo event surroundings t = (.ok update, t') := by
  cases hevidence : campaignEvidence event with
  | error e =>
    refine Or.inl ⟨e, ?_⟩
    rw [process, hevidence]
    rfl
  | ok evidence =>
    have hprocess : process repo event surroundings t = repo.perform
        { evidence := evidence, granted := surroundings.granted, now := surroundings.now } t := by
      rw [process, hevidence]
      rfl
    rcases Campaigns.perform_cases repo
        { evidence := evidence, granted := surroundings.granted, now := surroundings.now } t with
      ⟨e, herror⟩ | ⟨update, t', hok, -⟩
    · exact Or.inl ⟨e, hprocess.trans herror⟩
    · exact Or.inr ⟨_, update, t', rfl, hok, hprocess.trans hok⟩

/-! ## Successful calls -/

theorem recorded_runAll {key : String} (h : t.Recorded key) (calls : List Call) :
    (Procedure.runAll repo.perform calls t).2.Recorded key :=
  Procedure.runAll_invariant (P := fun t : Tables => t.Recorded key) h fun _ _ _ hs =>
    (Campaigns.recorded_perform_iff key).mpr (Or.inl hs)

/-- What was applied successfully is recorded. -/
theorem recorded_of_allOk (hok : Procedure.AllOk (Procedure.runAll repo.perform calls t).1) {call : Call}
    (hcall : call ∈ calls) :
    (Procedure.runAll repo.perform calls t).2.Recorded call.evidence.eventId := by
  induction calls generalizing t with
  | nil => exact absurd hcall List.not_mem_nil
  | cons first rest ih =>
    rw [Procedure.runAll_cons] at hok ⊢
    rcases List.mem_cons.mp hcall with rfl | hrest
    · obtain ⟨update, hupdate⟩ := hok.head
      refine recorded_runAll ((Campaigns.recorded_perform_iff _).mpr (Or.inr ⟨?_, rfl⟩)) rest
      rw [Campaigns.returned, hupdate]
      rfl
    · exact ih hok.tail hrest

/-- One successful call for each score. -/
def SuccessfulCalls (repo : SqlCampaignRepository) (handled : List ScoreRecord) (t : Tables) : Prop :=
  ∃ calls : List Call,
    handled.Forall₂ (fun record call => campaignEvidence record.event = .ok call.evidence) calls ∧
      Procedure.AllOk (Procedure.runAll repo.perform calls .empty).1 ∧
      (Procedure.runAll repo.perform calls .empty).2 = t

theorem successfulCalls_nil (repo : SqlCampaignRepository) : SuccessfulCalls repo [] .empty :=
  ⟨[], List.Forall₂.nil, fun _ hr => absurd hr List.not_mem_nil, rfl⟩

/-- A score that has been handled is recorded. -/
theorem SuccessfulCalls.recorded {handled : List ScoreRecord} (h : SuccessfulCalls repo handled t)
    (hrecord : record ∈ handled) : t.Recorded record.event.eventId := by
  obtain ⟨calls, hcalls, hok, rfl⟩ := h
  obtain ⟨hlength, hget⟩ := List.forall₂_iff_get.mp hcalls
  obtain ⟨index, rfl⟩ := List.mem_iff_get.mp hrecord
  have hevidence := hget index index.2 (hlength ▸ index.2)
  rw [← eventId_of_campaignEvidence hevidence]
  exact recorded_of_allOk hok (List.get_mem _ _)

/-- One more successful call. -/
theorem SuccessfulCalls.concat {handled : List ScoreRecord} (h : SuccessfulCalls repo handled t)
    {call : Call} {update : CampaignUpdate} {t' : Tables}
    (hevidence : campaignEvidence record.event = .ok call.evidence)
    (hperform : repo.perform call t = (.ok update, t')) :
    SuccessfulCalls repo (handled ++ [record]) t' := by
  obtain ⟨calls, hcalls, hok, rfl⟩ := h
  refine ⟨calls ++ [call], List.rel_append hcalls (List.Forall₂.cons hevidence List.Forall₂.nil), ?_, ?_⟩
  · intro r hr
    rw [Procedure.runAll_append] at hr
    rcases List.mem_append.mp hr with hold | hnew
    · exact hok r hold
    · refine ⟨update, ?_⟩
      rw [Procedure.runAll_cons, hperform] at hnew
      exact List.mem_singleton.mp hnew
  · rw [Procedure.runAll_concat, hperform]

/-! ## Runs of the worker -/

/-- The id of the event of a record. -/
def scoreId (record : ScoreRecord) : String :=
  record.event.eventId

/-- Handling a score leaves one successful call for each event id. -/
theorem onceRule_successfulCalls (repo : SqlCampaignRepository) (log : ScoreLog) :
    OnceRule log (handleScore repo) alone scoreId (SuccessfulCalls repo) where
  interfere _ move := move.elim
  new handled record surroundings t _ _ ht := by
    refine leaves_step_alone.mpr ⟨ht, ?_⟩
    rcases process_cases repo record.event surroundings t with
      ⟨e, hraised⟩ | ⟨call, update, t', hevidence, hperform, hprocess⟩
    · rw [hraised]
      exact ht
    · rw [hprocess]
      exact ht.concat hevidence hperform
  again handled record surroundings t _ hseen ht := by
    refine leaves_step_alone.mpr ⟨ht, ?_⟩
    rcases process_cases repo record.event surroundings t with
      ⟨e, hraised⟩ | ⟨call, update, t', hevidence, hperform, hprocess⟩
    · rw [hraised]
      exact ht
    · obtain ⟨first, hfirst, hkey⟩ := List.mem_map.mp hseen
      have hid : first.event.eventId = record.event.eventId := hkey
      have hrecorded : t.Recorded call.evidence.eventId := by
        rw [eventId_of_campaignEvidence hevidence, ← hid]
        exact ht.recorded hfirst
      have hunchanged : t' = t := by
        rw [← Campaigns.perform_of_recorded hrecorded, hperform]
      rw [hprocess, hunchanged]
      exact ht

/-- **Every score takes effect once.**  Whatever crashes and whatever raises, the tables are those of one
successful call of `apply` for each score handled: one record of each event id, in the order of the offsets
of each partition, and every record below the committed offsets has its score among them. -/
theorem effect_once (repo : SqlCampaignRepository) (log : ScoreLog) (moves : List CampaignWorkerMove) :
    let s := run (campaignWorkerStep repo log) initialCampaignWorker moves
    ∃ handled, HandledOnce log scoreId s.committed handled ∧ SuccessfulCalls repo handled s.store := by
  exact effect_once_run (onceRule_successfulCalls repo log) (successfulCalls_nil repo) moves

end Workers
end Scam2Market
