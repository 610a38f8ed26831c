import Mathlib.Logic.Function.Basic
import Scam2Market.Api.Requests
import Scam2Market.Library.Rows
import Scam2Market.Python.Values

/-!
# The control of replay sessions

`create_replay`, `start_replay` and `pause_replay` of `api/routes/evaluation.py`, and the control worker
`run_control_worker` with `run_queued_session` and `_finish_replay_session` of
`workers/replay_scheduler.py`.  Every request and every status write is one transaction, and any number of
workers run beside the requests.

* A worker looks for the oldest queued session (`poll`), locks it and marks it as running (`claim`),
  executes it, and writes its final status (`finish`).  An exception outside the `try`, or a crash, ends an
  attempt without a write (`interrupt`).
* `history` is what was accepted and written, in order.
* What a replay ingests, and the columns that are only shown, are left out.
-/

namespace Scam2Market
namespace Evaluation
namespace ReplayControl

open Api (RequestError)
open Library (updateWhere)

abbrev SessionId := ℕ

/-- The final status of an execution. -/
inductive Outcome where
  | completed
  | failed
  deriving DecidableEq, Repr

inductive ReplayStatus where
  | created
  | queued
  | running
  | paused
  | finished (outcome : Outcome)
  deriving DecidableEq, Repr

/-- The text in the column `status`. -/
def ReplayStatus.value : ReplayStatus → String
  | .created => "CREATED"
  | .queued => "QUEUED"
  | .running => "RUNNING"
  | .paused => "PAUSED"
  | .finished .completed => "COMPLETED"
  | .finished .failed => "FAILED"

/-- A row of `replay_sessions`; `control` is that entry of `configuration_json`, the requested action and
who requested it. -/
structure ReplaySessionModel where
  replaySessionId : SessionId
  tenantId : String
  datasetId : String
  status : ReplayStatus := .created
  pausedAt : Option Datetime := none
  startedAt : Option Datetime := none
  completedAt : Option Datetime := none
  requestedBy : String
  control : Option (String × String) := none
  createdAt : Datetime
  deriving DecidableEq, Repr

/-- A row of `audit_logs` about a replay session. -/
structure AuditLogModel where
  tenantId : String
  actorId : String
  action : String
  targetType : String := "REPLAY_SESSION"
  targetId : SessionId
  deriving DecidableEq, Repr

/-- What was accepted or written for a session. -/
inductive ReplayEvent where
  | created
  | started
  | paused
  | claimed
  | finished (outcome : Outcome)
  deriving DecidableEq, Repr

/-- How far a worker is. -/
inductive WorkerState where
  | idle
  | found (id : SessionId)
  | executing (id : SessionId)
  deriving DecidableEq, Repr

/-- The tables, the workers, and what has happened. -/
structure Control (ω : Type) where
  sessions : List ReplaySessionModel
  auditLogs : List AuditLogModel := []
  workers : ω → WorkerState := fun _ => .idle
  history : List (SessionId × ReplayEvent) := []

namespace Control

variable {ω : Type}

/-- `session.get(ReplaySessionModel, replay_session_id)`. -/
def get? (s : Control ω) (id : SessionId) : Option ReplaySessionModel :=
  s.sessions.find? fun row => row.replaySessionId = id

/-- What has happened to a session. -/
def eventsOf (s : Control ω) (id : SessionId) : List ReplayEvent :=
  (s.history.filter fun entry => entry.1 = id).map Prod.snd

/-- Change the row of a session, and take note of the event. -/
def write (s : Control ω) (id : SessionId) (event : ReplayEvent)
    (f : ReplaySessionModel → ReplaySessionModel) : Control ω :=
  { s with
    sessions := updateWhere (fun row => row.replaySessionId = id) f s.sessions
    history := s.history ++ [(id, event)] }

def audit (s : Control ω) (row : ReplaySessionModel) (actorId action : String) : Control ω :=
  { s with
    auditLogs := s.auditLogs ++
      [{ tenantId := row.tenantId, actorId := actorId, action := action,
         targetId := row.replaySessionId }] }

/-! ## Requests -/

/-- `create_replay(body, actor_id, principal)`; `manifests` is the `scenario_id` in the manifest of a
name. -/
def createReplay (manifests : String → Option String) (s : Control ω) (id : SessionId)
    (scenarioId actorId tenantId : String) (now : Datetime) : Except RequestError (Control ω) :=
  match manifests scenarioId with
  | none => .error (.httpException 422 "unknown replay scenario")
  | some datasetId =>
    if (s.get? id).isSome then .error (.integrityError "replay_sessions_pkey")
    else .ok { s with
      sessions := s.sessions ++
        [{ replaySessionId := id
           tenantId := tenantId
           datasetId := datasetId
           requestedBy := actorId
           createdAt := now }]
      history := s.history ++ [(id, .created)] }

/-- `start_replay(replay_session_id, actor_id)`. -/
def startReplay (s : Control ω) (id : SessionId) (actorId : String) :
    Except RequestError (Control ω) :=
  match s.get? id with
  | none => .error (.httpException 404 "replay not found")
  | some replay =>
    if replay.status ∉ [.created, .paused] then
      .error (.httpException 409 ("replay cannot start from " ++ replay.status.value))
    else .ok ((s.write id .started fun row =>
      { row with
        status := .queued
        pausedAt := none
        control := some ("START", actorId) }).audit replay actorId "START_REPLAY")

/-- `pause_replay(replay_session_id, actor_id)`. -/
def pauseReplay (s : Control ω) (id : SessionId) (actorId : String) (now : Datetime) :
    Except RequestError (Control ω) :=
  match s.get? id with
  | none => .error (.httpException 404 "replay not found")
  | some replay =>
    if replay.status ∉ [.queued, .running] then
      .error (.httpException 409 ("replay cannot pause from " ++ replay.status.value))
    else .ok ((s.write id .paused fun row =>
      { row with
        status := .paused
        pausedAt := some now
        control := some ("PAUSE", actorId) }).audit replay actorId "PAUSE_REPLAY")

/-! ## The control worker -/

section Workers

variable [DecidableEq ω]

/-- The worker goes on to another state. -/
def goOn (s : Control ω) (worker : ω) (state : WorkerState) : Control ω :=
  { s with workers := Function.update s.workers worker state }

/-- The session is queued and none that is queued is older. -/
def Oldest (s : Control ω) (id : SessionId) : Prop :=
  ∃ row ∈ s.get? id, row.status = .queued ∧
    ∀ other ∈ s.sessions, other.status = .queued → row.createdAt ≤ other.createdAt

instance (s : Control ω) (id : SessionId) : Decidable (s.Oldest id) :=
  match h : s.get? id with
  | none => isFalse fun ⟨_, hrow, _⟩ => by rw [h] at hrow; exact nomatch hrow
  | some row =>
    decidable_of_iff (row.status = .queued ∧
      ∀ other ∈ s.sessions, other.status = .queued → row.createdAt ≤ other.createdAt)
      ⟨fun hrow => ⟨row, h, hrow⟩, fun ⟨other, hother, hrow⟩ => by
        rw [h] at hother
        rwa [Option.some.inj hother]⟩

/-- The `SELECT` of `run_control_worker()`: one of the oldest queued sessions. -/
def poll (s : Control ω) (worker : ω) (id : SessionId) : Control ω :=
  match s.workers worker with
  | .idle => if s.Oldest id then s.goOn worker (.found id) else s
  | _ => s

/-- The first transaction of `run_queued_session(replay_session_id)`. -/
def claim (manifests : String → Option String) (s : Control ω) (worker : ω) (now : Datetime) :
    Control ω :=
  match s.workers worker with
  | .found id =>
    match s.get? id with
    | none => s.goOn worker .idle
    | some replay =>
      if replay.status ≠ .queued then s.goOn worker .idle
      else if (manifests replay.datasetId).isNone then s.goOn worker .idle
      else (s.write id .claimed fun row =>
        { row with status := .running, startedAt := some now }).goOn worker (.executing id)
  | _ => s

/-- `_finish_replay_session(replay_session_id, status)` at the end of an execution; a row that is gone is a
`RuntimeError`. -/
def finish (s : Control ω) (worker : ω) (outcome : Outcome) (now : Datetime) : Control ω :=
  match s.workers worker with
  | .executing id =>
    match s.get? id with
    | none => s.goOn worker .idle
    | some _ =>
      (s.write id (.finished outcome) fun row =>
        { row with status := .finished outcome, completedAt := some now }).goOn worker .idle
  | _ => s

end Workers

end Control

/-- A request, or a step of a worker. -/
inductive Move (ω : Type) where
  | create (id : SessionId) (scenarioId actorId tenantId : String) (now : Datetime)
  | start (id : SessionId) (actorId : String)
  | pause (id : SessionId) (actorId : String) (now : Datetime)
  | poll (worker : ω) (id : SessionId)
  | claim (worker : ω) (now : Datetime)
  | finish (worker : ω) (outcome : Outcome) (now : Datetime)
  | interrupt (worker : ω)

/-- A request that is refused changes nothing. -/
def Control.orElse {ω : Type} (s : Control ω) : Except RequestError (Control ω) → Control ω
  | .ok s' => s'
  | .error _ => s

/-- One step. -/
def step {ω : Type} [DecidableEq ω] (manifests : String → Option String) (s : Control ω) :
    Move ω → Control ω
  | .create id scenarioId actorId tenantId now =>
    s.orElse (s.createReplay manifests id scenarioId actorId tenantId now)
  | .start id actorId => s.orElse (s.startReplay id actorId)
  | .pause id actorId now => s.orElse (s.pauseReplay id actorId now)
  | .poll worker id => s.poll worker id
  | .claim worker now => s.claim manifests worker now
  | .finish worker outcome now => s.finish worker outcome now
  | .interrupt worker => s.goOn worker .idle

end ReplayControl
end Evaluation
end Scam2Market
