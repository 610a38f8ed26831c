import Mathlib.Data.List.MinMax
import Scam2Market.Library.Runs
import Scam2Market.Verification.FeedConnectors
import Scam2Market.Verification.SecProgress

/-!
# Polling a feed

The runs of a policy with a feed, `_run_policy` of `workers/disclosure_connector_worker.py`, any number of
them side by side.  A request may fail, an ingest may raise with its document stored or not, a poller may
stop at any point, and the source changes meanwhile.

* `FeedSource`: what the source has at different times.  Where it answers 304 it says what it said when it
  sent the validator.
* `Polls`: the rows of `source_connector_runs`, the versions of the documents, and the pollers.
* `CheckpointSound`: what was sent with a validator of the checkpoint is in the store.  A run starts from the
  checkpoint of another one, perhaps of one that is still running, and keeps its own only when it has no
  error.
* `success_complete`: a run that ends with SUCCESS has left in the store whatever the source had when it
  answered, also when it answered 304.
-/

namespace Scam2Market
namespace Verification
namespace FeedConnectors

open Library
open SecConnector (Checkpoint ConnectorBatch ConnectorError Document Headers Response
  conditionalHeaders eq_of_truthy raise responseCheckpoint truthy truthy_truthy)
open SecConnector.Source (header)

/-! ## The source -/

/-- What a source has at a time; `content` is its body, if it can be parsed. -/
structure FeedVersion (α : Type) where
  etag : Option String := none
  lastModified : Option String := none
  content : Option α := none

/-- What the documents of a version say. -/
def FeedVersion.entries {α : Type} (connector : FeedConnector α) (version : FeedVersion α) :
    List (String × String) :=
  version.content.elim [] connector.entries

/-- The versions of a source.  Those with the same entity tag say the same; those with the same time of
modification do, if the source compares it. -/
structure FeedSource {α : Type} (connector : FeedConnector α) (ι : Type) where
  version : ι → FeedVersion α
  honoursModifiedSince : Bool := true
  entries_etag : ∀ {v v' tag}, truthy (version v).etag = some tag → truthy (version v').etag = some tag →
    (version v).entries connector = (version v').entries connector
  entries_lastModified : honoursModifiedSince = true → ∀ {v v' time},
    truthy (version v).lastModified = some time → truthy (version v').lastModified = some time →
    (version v).entries connector = (version v').entries connector

section Source

variable {α ι : Type} {connector : FeedConnector α} (source : FeedSource connector ι)

/-- The validators of the request are the current ones; `If-None-Match` comes first. -/
def FeedSource.notModified (v : ι) (headers : Headers) : Bool :=
  match header "If-None-Match" headers with
  | some value => (source.version v).etag = some value
  | none =>
    match header "If-Modified-Since" headers with
    | some value => source.honoursModifiedSince && (source.version v).lastModified = some value
    | none => false

/-- The response with the content, or 304. -/
def FeedSource.answer (v : ι) (headers : Headers) : FeedResponse α :=
  if source.notModified v headers then
    { statusCode := 304
      etag := (source.version v).etag
      lastModified := (source.version v).lastModified }
  else
    { etag := (source.version v).etag
      lastModified := (source.version v).lastModified
      content := (source.version v).content }

def FeedSource.entries (v : ι) : List (String × String) :=
  (source.version v).entries connector

end Source

/-! ## Runs side by side -/

inductive FeedRunStatus where
  | running
  | success
  | partialSuccess
  | failed
  | rateLimited
  | circuitOpen
  deriving DecidableEq, Repr

/-- A row of `source_connector_runs`; `served` is for the statements, the version that the source answered
for. -/
structure FeedRun (ι : Type) where
  status : FeedRunStatus := .running
  startedAt : Datetime
  completedAt : Option Datetime := none
  checkpoint : Checkpoint
  fetchedCount : ℕ := 0
  ingestedCount : ℕ := 0
  unchangedCount : ℕ := 0
  errorCount : ℕ := 0
  sourceWatermark : Option Datetime := none
  served : Option ι := none

/-- What the loop over the documents counts. -/
structure FeedTally where
  ingested : ℕ := 0
  unchanged : ℕ := 0
  errors : ℕ := 0
  watermark : Option Datetime

/-- What a poller keeps of the run that came before. -/
structure Previous where
  checkpoint : Checkpoint := {}
  watermark : Option Datetime := none

inductive Poller (ι : Type) where
  | idle
  | started (run : ℕ) (previous : Previous)
  | refused (run : ℕ) (previous : Previous) (status : FeedRunStatus)
  | ingesting (run : ℕ) (previous : Previous) (served : ι) (batch : ConnectorBatch)
      (todo : List Document) (tally : FeedTally)

/-- The current version of the source, the runs, the versions of the documents, oldest first, and the
pollers. -/
structure Polls (ι : Type) where
  current : ι
  runs : List (FeedRun ι) := []
  stored : List (String × String) := []
  pollers : ℕ → Poller ι := fun _ => .idle

/-- Why there is no response. -/
inductive FetchFailure where
  | connector (error : ConnectorError)
  | circuitOpen
  | other

/-- The status of a run that is refused. -/
def FetchFailure.status : FetchFailure → FeedRunStatus
  | .connector error => if error.rateLimited then .rateLimited else .failed
  | .circuitOpen => .circuitOpen
  | .other => .failed

/-- A move of a poller, or of the source.  An ingest that raises may have stored its document. -/
inductive PollMove (ι : Type) where
  | change (version : ι)
  | begin (index : ℕ) (started : Datetime)
  | fetch (index : ℕ) (clock : FetchClock) (failure : Option FetchFailure)
  | ingest (index : ℕ) (raised : Option Bool)
  | finish (index : ℕ) (completed : Datetime)
  | crash (index : ℕ)

namespace Polls

variable {ι α : Type}

/-- The order of times, by the instance that computes. -/
local instance : Preorder Datetime :=
  Int.instLinearOrder.toPartialOrder.toPreorder

/-- What the run that started last leaves to the next one. -/
def previous (s : Polls ι) : Previous :=
  match s.runs.argmax FeedRun.startedAt with
  | none => {}
  | some run => { checkpoint := run.checkpoint, watermark := run.sourceWatermark }

def setPoller (s : Polls ι) (index : ℕ) (poller : Poller ι) : Polls ι :=
  { s with pollers := Function.update s.pollers index poller }

/-- `_run_policy` begins: its row is there. -/
def begin (s : Polls ι) (index : ℕ) (started : Datetime) : Polls ι :=
  match s.pollers index with
  | .idle =>
    let run : FeedRun ι := { startedAt := started, checkpoint := s.previous.checkpoint }
    { s with runs := s.runs ++ [run] }.setPoller index (.started s.runs.length s.previous)
  | _ => s

variable {connector : FeedConnector α} (source : FeedSource connector ι)

/-- `connector.fetch(previous_checkpoint)`, through the circuit breaker. -/
def fetch (s : Polls ι) (index : ℕ) (clock : FetchClock) (failure : Option FetchFailure) : Polls ι :=
  match s.pollers index, failure with
  | .started run previous, some failure => s.setPoller index (.refused run previous failure.status)
  | .started run previous, none =>
    s.setPoller index <|
      match connector.fetch clock (fun _ headers => .ok (source.answer s.current headers))
        previous.checkpoint with
      | .error error => .refused run previous (FetchFailure.connector error).status
      | .ok batch =>
        .ingesting run previous s.current batch batch.documents { watermark := batch.sourceWatermark }
  | _, _ => s

/-- The latest version of a document. -/
def latest (stored : List (String × String)) (key : String) : Option String :=
  (stored.reverse.find? fun entry => entry.1 = key).map Prod.snd

/-- `persist_versioned_disclosure`: a version is added unless the latest one says the same. -/
def persist (stored : List (String × String)) (found : Document) : Bool × List (String × String) :=
  if latest stored found.sourceDocumentKey = some found.body then (false, stored)
  else (true, stored ++ [entryOf found])

/-- The first document of the loop. -/
def ingest (s : Polls ι) (index : ℕ) (raised : Option Bool) : Polls ι :=
  match s.pollers index with
  | .ingesting run previous served batch (found :: todo) tally =>
    let (fresh, stored) := persist s.stored found
    match raised with
    | none =>
      { s with stored := stored }.setPoller index <| .ingesting run previous served batch todo <|
        if fresh then
          { tally with
            ingested := tally.ingested + 1
            watermark := raise tally.watermark found.publishedAt }
        else { tally with unchanged := tally.unchanged + 1 }
    | some persisted =>
      { s with stored := if persisted then stored else s.stored }.setPoller index <|
        .ingesting run previous served batch todo { tally with errors := tally.errors + 1 }
  | _ => s

/-- The row of a run that has ended. -/
def ended (completed : Datetime) (status : FeedRunStatus) (checkpoint : Checkpoint)
    (watermark : Option Datetime) (fetched : ℕ) (tally : FeedTally) (served : Option ι)
    (run : FeedRun ι) : FeedRun ι :=
  { run with
    status := status
    completedAt := some completed
    checkpoint := { checkpoint with completedAt := some completed, sourceWatermark := watermark }
    fetchedCount := fetched
    ingestedCount := tally.ingested
    unchangedCount := tally.unchanged
    errorCount := tally.errors
    sourceWatermark := watermark
    served := served }

/-- The run ends; the checkpoint of the batch is kept if there was no error. -/
def finish (s : Polls ι) (index : ℕ) (completed : Datetime) : Polls ι :=
  match s.pollers index with
  | .refused run previous status =>
    { s with
      runs := s.runs.modify run (ended completed status previous.checkpoint previous.watermark 0
        { errors := 1, watermark := previous.watermark } none) }.setPoller index .idle
  | .ingesting run previous served batch [] tally =>
    { s with
      runs := s.runs.modify run <|
        if tally.errors = 0 then
          ended completed .success batch.checkpoint tally.watermark batch.documents.length tally served
        else
          ended completed (if tally.ingested = 0 then .failed else .partialSuccess) previous.checkpoint
            previous.watermark batch.documents.length tally served }.setPoller index .idle
  | _ => s

def step (s : Polls ι) : PollMove ι → Polls ι
  | .change version => { s with current := version }
  | .begin index started => s.begin index started
  | .fetch index clock failure => s.fetch source index clock failure
  | .ingest index raised => s.ingest index raised
  | .finish index completed => s.finish index completed
  | .crash index => s.setPoller index .idle

end Polls


/-! ## Validators -/

section Validators

variable {ι α : Type} {connector : FeedConnector α} {source : FeedSource connector ι}
  {checkpoint : Checkpoint} {stored stored' : List (String × String)} {v : ι}

theorem header_append {name : String} {headers headers' : Headers}
    (h : ∀ found ∈ headers, found.1 ≠ name) :
    header name (headers ++ headers') = header name headers' := by
  rw [header, header, List.find?_append]
  have hnone : headers.find? (fun found => decide (found.1 = name)) = none :=
    List.find?_eq_none.mpr fun found hfound => by simpa using h found hfound
  rw [hnone, Option.none_or]

/-- The validators of a request are those of the checkpoint. -/
theorem header_feedRequest (connector : FeedConnector α) (checkpoint : Checkpoint) :
    header "If-None-Match" (connector.requestHeaders checkpoint) = truthy checkpoint.etag ∧
      header "If-Modified-Since" (connector.requestHeaders checkpoint) =
        truthy checkpoint.lastModified := by
  rw [FeedConnector.requestHeaders,
    header_append fun found hfound => (connector.headers_plain found hfound).1,
    header_append fun found hfound => (connector.headers_plain found hfound).2, conditionalHeaders]
  cases truthy checkpoint.etag <;> cases truthy checkpoint.lastModified <;> simp [header]

/-- What was sent with a validator of the checkpoint is in the store. -/
structure CheckpointSound (source : FeedSource connector ι) (checkpoint : Checkpoint)
    (stored : List (String × String)) : Prop where
  etag : ∀ tag, truthy checkpoint.etag = some tag → ∀ v, truthy (source.version v).etag = some tag →
    source.entries v ⊆ stored
  lastModified : source.honoursModifiedSince = true → ∀ time,
    truthy checkpoint.lastModified = some time → ∀ v,
      truthy (source.version v).lastModified = some time → source.entries v ⊆ stored

theorem checkpointSound_empty : CheckpointSound source {} stored where
  etag _ htag := absurd htag (by simp [truthy])
  lastModified _ _ htime := absurd htime (by simp [truthy])

theorem CheckpointSound.mono (h : CheckpointSound source checkpoint stored) (hstored : stored ⊆ stored') :
    CheckpointSound source checkpoint stored' where
  etag tag htag v hv := List.Subset.trans (h.etag tag htag v hv) hstored
  lastModified hhonours time htime v hv :=
    List.Subset.trans (h.lastModified hhonours time htime v hv) hstored

/-- What is not modified is in the store. -/
theorem CheckpointSound.of_notModified (h : CheckpointSound source checkpoint stored)
    (hmodified : source.notModified v (connector.requestHeaders checkpoint) = true) :
    source.entries v ⊆ stored := by
  obtain ⟨hnoneMatch, hmodifiedSince⟩ := header_feedRequest connector checkpoint
  rw [FeedSource.notModified, hnoneMatch, hmodifiedSince] at hmodified
  cases htag : truthy checkpoint.etag with
  | some tag =>
    rw [htag] at hmodified
    have hversion : truthy (source.version v).etag = some tag := by
      rw [of_decide_eq_true hmodified, ← htag, truthy_truthy]
    exact h.etag tag htag v hversion
  | none =>
    rw [htag] at hmodified
    cases htime : truthy checkpoint.lastModified with
    | none =>
      rw [htime] at hmodified
      cases hmodified
    | some time =>
      rw [htime] at hmodified
      obtain ⟨hhonours, hsame⟩ := Bool.and_eq_true_iff.mp hmodified
      have hversion : truthy (source.version v).lastModified = some time := by
        rw [of_decide_eq_true hsame, ← htime, truthy_truthy]
      exact h.lastModified hhonours time htime v hversion

/-- The first of two validators that is there. -/
theorem truthy_or_eq {value kept : Option String} {text : String}
    (h : truthy (truthy value <|> kept) = some text) :
    truthy value = some text ∨ truthy kept = some text := by
  cases hvalue : truthy value with
  | some other =>
    rw [hvalue] at h
    have hother : truthy (some other) = some other := by rw [← hvalue, truthy_truthy]
    exact Or.inl (hother.symm.trans h)
  | none =>
    rw [hvalue] at h
    exact Or.inr h

/-- The checkpoint of a response whose documents are in the store. -/
theorem CheckpointSound.response (h : CheckpointSound source checkpoint stored) {response : Response}
    (hetag : response.etag = (source.version v).etag)
    (hmodified : response.lastModified = (source.version v).lastModified)
    (hstored : source.entries v ⊆ stored) :
    CheckpointSound source (responseCheckpoint checkpoint response) stored where
  etag tag htag v' hv' := by
    rcases truthy_or_eq htag with hnew | hkept
    · rw [hetag] at hnew
      have hsame : source.entries v' = source.entries v := source.entries_etag hv' hnew
      rw [hsame]
      exact hstored
    · exact h.etag tag hkept v' hv'
  lastModified hhonours time htime v' hv' := by
    rcases truthy_or_eq htime with hnew | hkept
    · rw [hmodified] at hnew
      have hsame : source.entries v' = source.entries v :=
        source.entries_lastModified hhonours hv' hnew
      rw [hsame]
      exact hstored
    · exact h.lastModified hhonours time hkept v' hv'

/-- **What a fetch returns**: nothing when the source was not modified, and else the documents of its
version. -/
theorem fetch_spec {clock : FetchClock} {batch : ConnectorBatch}
    (h : connector.fetch clock (fun _ headers => .ok (source.answer v headers)) checkpoint = .ok batch) :
    batch.checkpoint = responseCheckpoint checkpoint
        (source.answer v (connector.requestHeaders checkpoint)).toResponse ∧
      ((source.notModified v (connector.requestHeaders checkpoint) = true ∧ batch.documents = []) ∨
        batch.documents.map entryOf = source.entries v) := by
  rw [FeedConnector.fetch] at h
  simp only [bind, Except.bind] at h
  cases hmodified : source.notModified v (connector.requestHeaders checkpoint) with
  | true =>
    have hstatus : (source.answer v (connector.requestHeaders checkpoint)).statusCode = 304 := by
      rw [FeedSource.answer, hmodified]
      rfl
    rw [if_pos hstatus] at h
    rw [← Except.ok.inj h]
    exact ⟨rfl, Or.inl ⟨rfl, rfl⟩⟩
  | false =>
    have hstatus : (source.answer v (connector.requestHeaders checkpoint)).statusCode ≠ 304 := by
      rw [FeedSource.answer, hmodified, if_neg Bool.false_ne_true]
      exact (by decide : (200 : ℕ) ≠ 304)
    rw [if_neg hstatus] at h
    cases hdocuments : connector.documents clock
        (source.answer v (connector.requestHeaders checkpoint)) with
    | error error =>
      rw [hdocuments] at h
      cases h
    | ok found =>
      rw [hdocuments] at h
      rw [← Except.ok.inj h]
      obtain ⟨content, hcontent, hentries⟩ := connector.documents_entries hdocuments
      refine ⟨rfl, Or.inr (hentries.trans ?_)⟩
      have hversion : (source.version v).content = some content := by
        rw [← hcontent, FeedSource.answer, hmodified]
        rfl
      rw [FeedSource.entries, FeedVersion.entries, hversion]
      rfl

theorem answer_validators (source : FeedSource connector ι) (v : ι) (headers : Headers) :
    (source.answer v headers).etag = (source.version v).etag ∧
      (source.answer v headers).lastModified = (source.version v).lastModified := by
  rw [FeedSource.answer]
  split_ifs <;> exact ⟨rfl, rfl⟩

end Validators

/-! ## The invariant -/

namespace Polls

section Sound

variable {ι α : Type} {connector : FeedConnector α} {source : FeedSource connector ι} {s : Polls ι}
  {stored stored' : List (String × String)}

/-- What is known of the run of a poller. -/
def PollerSound (source : FeedSource connector ι) (stored : List (String × String)) : Poller ι → Prop
  | .idle => True
  | .started _ previous => CheckpointSound source previous.checkpoint stored
  | .refused _ previous status =>
    CheckpointSound source previous.checkpoint stored ∧ status ≠ .success
  | .ingesting _ previous served batch todo tally =>
    CheckpointSound source previous.checkpoint stored ∧
      (∀ later, stored ⊆ later → source.entries served ⊆ later →
        CheckpointSound source batch.checkpoint later) ∧
      (tally.errors = 0 →
        ∀ entry ∈ source.entries served, entry ∈ stored ∨ entry ∈ todo.map entryOf)

/-- A run that has succeeded has left in the store what the source had. -/
def Complete (source : FeedSource connector ι) (stored : List (String × String)) (run : FeedRun ι) :
    Prop :=
  run.status = .success → ∃ v, run.served = some v ∧ source.entries v ⊆ stored

structure Sound (source : FeedSource connector ι) (s : Polls ι) : Prop where
  checkpoints : ∀ run ∈ s.runs, CheckpointSound source run.checkpoint s.stored
  complete : ∀ run ∈ s.runs, Complete source s.stored run
  pollers : ∀ index, PollerSound source s.stored (s.pollers index)

theorem sound_initial (source : FeedSource connector ι) (current : ι) :
    Sound source ({ current := current } : Polls ι) where
  checkpoints _ hrun := absurd hrun List.not_mem_nil
  complete _ hrun := absurd hrun List.not_mem_nil
  pollers _ := trivial

theorem PollerSound.mono {poller : Poller ι} (h : PollerSound source stored poller)
    (hstored : stored ⊆ stored') : PollerSound source stored' poller := by
  cases poller with
  | idle => exact trivial
  | started run previous => exact CheckpointSound.mono h hstored
  | refused run previous status => exact ⟨h.1.mono hstored, h.2⟩
  | ingesting run previous served batch todo tally =>
    obtain ⟨hprevious, hbatch, htodo⟩ := h
    refine ⟨hprevious.mono hstored, fun later hlater => hbatch later (List.Subset.trans hstored hlater),
      fun herrors entry hentry => ?_⟩
    exact (htodo herrors entry hentry).imp_left fun hold => hstored hold

/-- One poller goes on, and the store grows. -/
theorem Sound.setPoller (h : Sound source s) {index : ℕ} {poller : Poller ι}
    (hstored : s.stored ⊆ stored') (hpoller : PollerSound source stored' poller) :
    Sound source ({ s with stored := stored' }.setPoller index poller) where
  checkpoints run hrun := (h.checkpoints run hrun).mono hstored
  complete run hrun hstatus := by
    obtain ⟨v, hv, hentries⟩ := h.complete run hrun hstatus
    exact ⟨v, hv, List.Subset.trans hentries hstored⟩
  pollers other := by
    show PollerSound source stored' (Function.update s.pollers index poller other)
    by_cases hother : other = index
    · rw [hother, Function.update_self]
      exact hpoller
    · rw [Function.update_of_ne hother]
      exact (h.pollers other).mono hstored

/-- A poller goes on, and the store stays. -/
theorem Sound.advance (h : Sound source s) {index : ℕ} {poller : Poller ι}
    (hpoller : PollerSound source s.stored poller) : Sound source (s.setPoller index poller) :=
  h.setPoller (List.Subset.refl _) hpoller

/-- The checkpoint that the next run starts from. -/
theorem Sound.previous (h : Sound source s) : CheckpointSound source s.previous.checkpoint s.stored := by
  rw [Polls.previous]
  split
  · exact checkpointSound_empty
  · next run hlast => exact h.checkpoints run (List.argmax_mem hlast)

theorem Sound.begin (h : Sound source s) (index : ℕ) (started : Datetime) :
    Sound source (s.begin index started) := by
  rw [Polls.begin]
  split
  · have hrow : Sound source
        { s with runs := s.runs ++ [{ startedAt := started, checkpoint := s.previous.checkpoint }] } := by
      refine ⟨fun run hrun => ?_, fun run hrun => ?_, h.pollers⟩
      · rcases List.mem_append.mp hrun with hold | hnew
        · exact h.checkpoints run hold
        · rw [List.mem_singleton.mp hnew]
          exact h.previous
      · rcases List.mem_append.mp hrun with hold | hnew
        · exact h.complete run hold
        · rw [List.mem_singleton.mp hnew]
          intro hstatus
          cases hstatus
    exact hrow.advance h.previous
  · exact h

theorem status_failure (failure : FetchFailure) : failure.status ≠ .success := by
  cases failure with
  | connector error =>
    rw [FetchFailure.status]
    split_ifs <;> decide
  | circuitOpen => decide
  | other => decide

theorem Sound.fetch (h : Sound source s) (index : ℕ) (clock : FetchClock)
    (failure : Option FetchFailure) : Sound source (s.fetch source index clock failure) := by
  have hpoller := h.pollers index
  unfold Polls.fetch
  split
  · next run previous failure hstarted =>
    rw [hstarted] at hpoller
    exact h.advance ⟨hpoller, status_failure failure⟩
  · next run previous hstarted =>
    rw [hstarted] at hpoller
    refine h.advance ?_
    split
    · next error hfetch => exact ⟨hpoller, status_failure _⟩
    · next batch hfetch =>
      obtain ⟨hcheckpoint, hdocuments⟩ := fetch_spec hfetch
      obtain ⟨hetag, hmodified⟩ := answer_validators source s.current
        (connector.requestHeaders previous.checkpoint)
      refine ⟨hpoller, fun later hlater hentries => ?_, fun _ entry hentry => ?_⟩
      · rw [hcheckpoint]
        exact (CheckpointSound.mono hpoller hlater).response hetag hmodified hentries
      · rcases hdocuments with ⟨hnotModified, -⟩ | hall
        · exact Or.inl (CheckpointSound.of_notModified hpoller hnotModified hentry)
        · rw [hall]
          exact Or.inr hentry
  · exact h

/-! ### Documents -/

theorem subset_persist (stored : List (String × String)) (found : Document) :
    stored ⊆ (persist stored found).2 := by
  rw [persist]
  split_ifs
  · exact List.Subset.refl _
  · exact List.subset_append_left _ _

/-- What is persisted, or unchanged, is in the store. -/
theorem mem_persist (stored : List (String × String)) (found : Document) :
    entryOf found ∈ (persist stored found).2 := by
  rw [persist]
  split_ifs with hlatest
  · obtain ⟨entry, hentry, hbody⟩ := Option.map_eq_some_iff.mp hlatest
    have hkey : entry.1 = found.sourceDocumentKey := by
      simpa using List.find?_some hentry
    have hsame : entryOf found = entry := Prod.ext hkey.symm hbody.symm
    rw [hsame]
    exact List.mem_reverse.mp (List.mem_of_find?_eq_some hentry)
  · exact List.mem_append_right _ (List.mem_singleton_self _)

theorem Sound.ingest (h : Sound source s) (index : ℕ) (raised : Option Bool) :
    Sound source (s.ingest index raised) := by
  have hpoller := h.pollers index
  rw [Polls.ingest]
  split
  · next run previous served batch found todo tally hingesting =>
    rw [hingesting] at hpoller
    have hgrown := subset_persist s.stored found
    cases raised with
    | none =>
      obtain ⟨hprevious, hbatch, htodo⟩ := PollerSound.mono hpoller hgrown
      refine h.setPoller hgrown ⟨hprevious, hbatch, fun herrors entry hentry => ?_⟩
      have hbefore : tally.errors = 0 := by
        rw [← herrors]
        split_ifs <;> rfl
      rcases htodo hbefore entry hentry with hstored | hmem
      · exact Or.inl hstored
      · rcases List.mem_cons.mp hmem with hfirst | hrest
        · rw [hfirst]
          exact Or.inl (mem_persist s.stored found)
        · exact Or.inr hrest
    | some persisted =>
      have hkept : s.stored ⊆ if persisted then (persist s.stored found).2 else s.stored := by
        split_ifs
        · exact hgrown
        · exact List.Subset.refl _
      obtain ⟨hprevious, hbatch, -⟩ := PollerSound.mono hpoller hkept
      exact h.setPoller hkept ⟨hprevious, hbatch, fun herrors => absurd herrors (Nat.succ_ne_zero _)⟩
  · exact h

/-! ### The end of a run -/

/-- Some rows are written, each with a sound checkpoint. -/
theorem Sound.modify (h : Sound source s) (row : ℕ) {f : FeedRun ι → FeedRun ι}
    (hcheckpoint : ∀ run, CheckpointSound source (f run).checkpoint s.stored)
    (hcomplete : ∀ run, Complete source s.stored (f run)) :
    Sound source { s with runs := s.runs.modify row f } := by
  have hmem : ∀ run ∈ s.runs.modify row f, run ∈ s.runs ∨ ∃ before, run = f before := by
    intro run hrun
    obtain ⟨position, hlt, rfl⟩ := List.mem_iff_getElem.mp hrun
    rw [List.getElem_modify]
    split_ifs
    · exact Or.inr ⟨_, rfl⟩
    · exact Or.inl (List.getElem_mem _)
  refine ⟨fun run hrun => ?_, fun run hrun => ?_, h.pollers⟩
  · rcases hmem run hrun with hold | ⟨before, rfl⟩
    · exact h.checkpoints run hold
    · exact hcheckpoint before
  · rcases hmem run hrun with hold | ⟨before, rfl⟩
    · exact h.complete run hold
    · exact hcomplete before

/-- What is added to a checkpoint at the end are no validators. -/
theorem CheckpointSound.completed {checkpoint : Checkpoint} (h : CheckpointSound source checkpoint stored)
    (completed watermark : Option Datetime) :
    CheckpointSound source
      { checkpoint with completedAt := completed, sourceWatermark := watermark } stored :=
  ⟨h.etag, h.lastModified⟩

theorem Sound.finish (h : Sound source s) (index : ℕ) (completed : Datetime) :
    Sound source (s.finish index completed) := by
  have hpoller := h.pollers index
  rw [Polls.finish]
  split
  · next run previous status hrefused =>
    rw [hrefused] at hpoller
    refine Sound.advance ?_ trivial
    exact h.modify run (fun _ => CheckpointSound.completed hpoller.1 _ _)
      fun _ hstatus => absurd hstatus hpoller.2
  · next run previous served batch tally hingesting =>
    rw [hingesting] at hpoller
    obtain ⟨hprevious, hbatch, htodo⟩ := hpoller
    refine Sound.advance ?_ trivial
    by_cases herrors : tally.errors = 0
    · rw [if_pos herrors]
      have hentries : source.entries served ⊆ s.stored := by
        intro entry hentry
        exact (htodo herrors entry hentry).resolve_right List.not_mem_nil
      exact h.modify run
        (fun _ => CheckpointSound.completed (hbatch s.stored (List.Subset.refl _) hentries) _ _)
        fun _ _ => ⟨served, rfl, hentries⟩
    · rw [if_neg herrors]
      refine h.modify run (fun _ => CheckpointSound.completed hprevious _ _) fun _ hstatus => ?_
      have hnever : (if tally.ingested = 0 then FeedRunStatus.failed else .partialSuccess) ≠
          .success := by
        split_ifs <;> decide
      exact absurd hstatus hnever
  · exact h

/-- **Every move keeps the checkpoints sound.** -/
theorem Sound.step (h : Sound source s) (move : PollMove ι) : Sound source (s.step source move) := by
  cases move with
  | change version => exact ⟨h.checkpoints, h.complete, h.pollers⟩
  | begin index started => exact h.begin index started
  | fetch index clock failure => exact h.fetch index clock failure
  | ingest index raised => exact h.ingest index raised
  | finish index completed => exact h.finish index completed
  | crash index => exact h.advance trivial

end Sound

end Polls

end FeedConnectors
end Verification
end Scam2Market
