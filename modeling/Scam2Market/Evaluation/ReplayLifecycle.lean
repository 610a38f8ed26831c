import Mathlib.Data.List.Chain
import Scam2Market.Evaluation.ReplayControl
import Scam2Market.Library.Runs

/-!
# Pausing a replay

* `Effect`: all that a step can do.
* `Next`: which event of a session can follow which, while no execution is paused.
* `Controlled`: the status of a session is that of its last event, the events follow each other, and a
  session that is being executed was claimed last.
* `respected_unless_paused_in_execution`: pauses and starts are respected as long as no session is paused
  while a worker executes it.  The worker does not look at the row when it ends, so such a pause is
  overwritten if the execution ends next.
-/

namespace Scam2Market
namespace Evaluation
namespace ReplayControl

open Library (updateWhere run Always Throughout)

variable {ω : Type} {s s' : Control ω} {id other : SessionId} {event : ReplayEvent}
  {row : ReplaySessionModel}

/-! ## Rows and events -/

/-- The status that an event leaves. -/
def ReplayEvent.status : ReplayEvent → ReplayStatus
  | .created => .created
  | .started => .queued
  | .paused => .paused
  | .claimed => .running
  | .finished outcome => .finished outcome

theorem get?_write {f : ReplaySessionModel → ReplaySessionModel}
    (hf : ∀ row, (f row).replaySessionId = row.replaySessionId) (other : SessionId) :
    (s.write id event f).get? other =
      (s.get? other).map fun row => if row.replaySessionId = id then f row else row := by
  show (List.map _ s.sessions).find? _ = _
  rw [List.find?_map, Control.get?]
  have hsame : ((fun row : ReplaySessionModel => decide (row.replaySessionId = other)) ∘
      fun row => if decide (row.replaySessionId = id) = true then f row else row) =
      fun row => decide (row.replaySessionId = other) := by
    funext row
    simp only [Function.comp_apply]
    split_ifs
    · rw [hf]
    · rfl
  rw [hsame]
  simp only [decide_eq_true_eq]

theorem replaySessionId_of_get? (h : s.get? id = some row) : row.replaySessionId = id := by
  simpa using List.find?_some h

theorem get?_write_self {f : ReplaySessionModel → ReplaySessionModel}
    (hf : ∀ row, (f row).replaySessionId = row.replaySessionId) (h : s.get? id = some row) :
    (s.write id event f).get? id = some (f row) := by
  rw [get?_write hf, h, Option.map_some, if_pos (replaySessionId_of_get? h)]

theorem get?_write_of_ne {f : ReplaySessionModel → ReplaySessionModel}
    (hf : ∀ row, (f row).replaySessionId = row.replaySessionId) (hne : other ≠ id) :
    (s.write id event f).get? other = s.get? other := by
  rw [get?_write hf]
  cases hrow : s.get? other with
  | none => rfl
  | some row =>
    rw [Option.map_some, if_neg fun heq => hne ((replaySessionId_of_get? hrow).symm.trans heq)]

/-- An event is recorded for a session, whose row has the status of the event. -/
structure Records (s s' : Control ω) (id : SessionId) (event : ReplayEvent) : Prop where
  own : ∃ row, s'.get? id = some row ∧ row.status = event.status
  others : ∀ other ≠ id, s'.get? other = s.get? other
  history : s'.history = s.history ++ [(id, event)]

theorem Records.eventsOf_self (h : Records s s' id event) :
    s'.eventsOf id = s.eventsOf id ++ [event] := by
  rw [Control.eventsOf, h.history, List.filter_append, List.map_append]
  simp [Control.eventsOf]

theorem Records.eventsOf_of_ne (h : Records s s' id event) (hne : other ≠ id) :
    s'.eventsOf other = s.eventsOf other := by
  rw [Control.eventsOf, h.history, List.filter_append, List.map_append]
  simp [Control.eventsOf, hne.symm]

/-- The row of a session is written with the status of an event. -/
theorem records_write {f : ReplaySessionModel → ReplaySessionModel} (h : s.get? id = some row)
    (hf : ∀ row, (f row).replaySessionId = row.replaySessionId ∧ (f row).status = event.status) :
    Records s (s.write id event f) id event where
  own := ⟨f row, get?_write_self (fun row => (hf row).1) h, (hf row).2⟩
  others := fun _ hne => get?_write_of_ne (fun row => (hf row).1) hne
  history := rfl

/-! ## Steps -/

section Steps

variable [DecidableEq ω] {manifests : String → Option String} {move : Move ω}

/-- All that a step can do. -/
inductive Effect (s : Control ω) : Move ω → Control ω → Prop
  | quiet {move : Move ω} {s' : Control ω} (hget : ∀ id, s'.get? id = s.get? id)
      (hhistory : s'.history = s.history)
      (hworkers : ∀ worker id, s'.workers worker = .executing id → s.workers worker = .executing id) :
      Effect s move s'
  | created {id : SessionId} {scenarioId actorId tenantId : String} {now : Datetime} {s' : Control ω}
      (hnew : s.get? id = none) (hrecords : Records s s' id .created)
      (hworkers : s'.workers = s.workers) : Effect s (.create id scenarioId actorId tenantId now) s'
  | started {id : SessionId} {actorId : String} {row : ReplaySessionModel} {s' : Control ω}
      (hrow : s.get? id = some row) (hstatus : row.status = .created ∨ row.status = .paused)
      (hrecords : Records s s' id .started) (hworkers : s'.workers = s.workers) :
      Effect s (.start id actorId) s'
  | paused {id : SessionId} {actorId : String} {now : Datetime} {row : ReplaySessionModel}
      {s' : Control ω} (hrow : s.get? id = some row)
      (hstatus : row.status = .queued ∨ row.status = .running)
      (hrecords : Records s s' id .paused) (hworkers : s'.workers = s.workers) :
      Effect s (.pause id actorId now) s'
  | claimed {worker : ω} {now : Datetime} {id : SessionId} {row : ReplaySessionModel}
      {s' : Control ω} (hrow : s.get? id = some row) (hstatus : row.status = .queued)
      (hrecords : Records s s' id .claimed)
      (hworkers : s'.workers = Function.update s.workers worker (.executing id)) :
      Effect s (.claim worker now) s'
  | finished {worker : ω} {outcome : Outcome} {now : Datetime} {id : SessionId} {s' : Control ω}
      (hworker : s.workers worker = .executing id) (hrecords : Records s s' id (.finished outcome))
      (hworkers : s'.workers = Function.update s.workers worker .idle) :
      Effect s (.finish worker outcome now) s'

/-- A worker that goes on without executing. -/
theorem effect_goOn {worker : ω} {state : WorkerState} (hstate : ∀ id, state ≠ .executing id) :
    Effect s move (s.goOn worker state) := by
  refine .quiet (fun _ => rfl) rfl fun other id hother => ?_
  by_cases hne : other = worker
  · rw [hne] at hother
    exact absurd ((Function.update_self ..).symm.trans hother) (hstate id)
  · exact (Function.update_of_ne hne ..).symm.trans hother

theorem effect_refl : Effect s move s :=
  .quiet (fun _ => rfl) rfl fun _ _ h => h

theorem effect_createReplay {scenarioId actorId tenantId : String} {now : Datetime} :
    Effect s (.create id scenarioId actorId tenantId now)
      (s.orElse (s.createReplay manifests id scenarioId actorId tenantId now)) := by
  rw [Control.createReplay]
  cases manifests scenarioId with
  | none => exact effect_refl
  | some datasetId =>
    dsimp only
    split_ifs with hsome
    · exact effect_refl
    · rw [Option.not_isSome_iff_eq_none] at hsome
      have hnone : s.sessions.find? (fun row => row.replaySessionId = id) = none := hsome
      refine .created hsome ⟨⟨
        { replaySessionId := id
          tenantId := tenantId
          datasetId := datasetId
          requestedBy := actorId
          createdAt := now }, ?_, rfl⟩, fun other hne => ?_, rfl⟩ rfl
      · show (s.sessions ++ _).find? _ = _
        rw [List.find?_append, hnone, Option.none_or]
        simp
      · show (s.sessions ++ _).find? _ = _
        rw [List.find?_append, Control.get?]
        simp [hne.symm]

theorem effect_startReplay {actorId : String} :
    Effect s (.start id actorId) (s.orElse (s.startReplay id actorId)) := by
  rw [Control.startReplay]
  cases hrow : s.get? id with
  | none => exact effect_refl
  | some row =>
    dsimp only
    split_ifs with hstatus
    · have hrecords : Records s (s.write id .started fun row =>
          { row with
            status := .queued
            pausedAt := none
            control := some ("START", actorId) }) id .started :=
        records_write hrow fun _ => ⟨rfl, rfl⟩
      exact .started hrow (by simpa using hstatus) ⟨hrecords.own, hrecords.others, rfl⟩ rfl
    · exact effect_refl

omit [DecidableEq ω] in
/-- A pause is accepted from `QUEUED` and `RUNNING`. -/
theorem records_pauseReplay (hrow : s.get? id = some row)
    (hstatus : row.status = .queued ∨ row.status = .running) (actorId : String) (now : Datetime) :
    ∃ s', s.pauseReplay id actorId now = .ok s' ∧ Records s s' id .paused ∧ s'.workers = s.workers := by
  have hrecords : Records s (s.write id .paused fun row =>
      { row with
        status := .paused
        pausedAt := some now
        control := some ("PAUSE", actorId) }) id .paused :=
    records_write hrow fun _ => ⟨rfl, rfl⟩
  rw [Control.pauseReplay, hrow]
  dsimp only
  rw [if_neg (not_not.mpr (by simpa using hstatus))]
  exact ⟨_, rfl, ⟨hrecords.own, hrecords.others, rfl⟩, rfl⟩

theorem effect_pauseReplay {actorId : String} {now : Datetime} :
    Effect s (.pause id actorId now) (s.orElse (s.pauseReplay id actorId now)) := by
  cases hrow : s.get? id with
  | none =>
    rw [Control.pauseReplay, hrow]
    exact effect_refl
  | some row =>
    by_cases hstatus : row.status = .queued ∨ row.status = .running
    · obtain ⟨s', hpause, hrecords, hworkers⟩ := records_pauseReplay hrow hstatus actorId now
      rw [hpause]
      exact .paused hrow hstatus hrecords hworkers
    · rw [Control.pauseReplay, hrow]
      dsimp only
      rw [if_pos (by simpa using hstatus)]
      exact effect_refl

theorem effect_claim {worker : ω} {now : Datetime} :
    Effect s (.claim worker now) (s.claim manifests worker now) := by
  rw [Control.claim]
  cases hworker : s.workers worker with
  | idle => exact effect_refl
  | executing id => exact effect_refl
  | found id =>
    dsimp only
    cases hrow : s.get? id with
    | none => exact effect_goOn fun _ => nofun
    | some row =>
      dsimp only
      split_ifs with hstatus hmanifest
      · exact effect_goOn fun _ => nofun
      · exact effect_goOn fun _ => nofun
      · have hrecords : Records s (s.write id .claimed fun row =>
            { row with status := .running, startedAt := some now }) id .claimed :=
          records_write hrow fun _ => ⟨rfl, rfl⟩
        exact .claimed hrow (not_not.mp hstatus) ⟨hrecords.own, hrecords.others, rfl⟩ rfl

/-- The final status is written, whatever the row says. -/
theorem records_finish {worker : ω} (hworker : s.workers worker = .executing id)
    (hrow : s.get? id = some row) (outcome : Outcome) (now : Datetime) :
    Records s (s.finish worker outcome now) id (.finished outcome) ∧
      (s.finish worker outcome now).workers = Function.update s.workers worker .idle := by
  have hrecords : Records s (s.write id (.finished outcome) fun row =>
      { row with status := .finished outcome, completedAt := some now }) id (.finished outcome) :=
    records_write hrow fun _ => ⟨rfl, rfl⟩
  rw [Control.finish, hworker]
  dsimp only
  rw [hrow]
  exact ⟨⟨hrecords.own, hrecords.others, rfl⟩, rfl⟩

theorem effect_finish {worker : ω} {outcome : Outcome} {now : Datetime} :
    Effect s (.finish worker outcome now) (s.finish worker outcome now) := by
  cases hworker : s.workers worker with
  | idle =>
    rw [Control.finish, hworker]
    exact effect_refl
  | found id =>
    rw [Control.finish, hworker]
    exact effect_refl
  | executing id =>
    cases hrow : s.get? id with
    | none =>
      rw [Control.finish, hworker]
      dsimp only
      rw [hrow]
      exact effect_goOn fun _ => nofun
    | some row =>
      obtain ⟨hrecords, hworkers⟩ := records_finish hworker hrow outcome now
      exact .finished hworker hrecords hworkers

theorem effect_step (manifests : String → Option String) (s : Control ω) (move : Move ω) :
    Effect s move (step manifests s move) := by
  cases move with
  | create id scenarioId actorId tenantId now => exact effect_createReplay
  | start id actorId => exact effect_startReplay
  | pause id actorId now => exact effect_pauseReplay
  | poll worker id =>
    show Effect s _ (s.poll worker id)
    rw [Control.poll]
    split
    · split_ifs
      · exact effect_goOn fun _ => nofun
      · exact effect_refl
    · exact effect_refl
  | claim worker now => exact effect_claim
  | finish worker outcome now => exact effect_finish
  | interrupt worker => exact effect_goOn fun _ => nofun

end Steps

/-! ## Events in order -/

/-- Which event of a session can follow which, while no execution is paused. -/
def Next : ReplayEvent → ReplayEvent → Prop
  | .created, .started => True
  | .started, .paused => True
  | .started, .claimed => True
  | .paused, .started => True
  | .claimed, .paused => True
  | .claimed, .finished _ => True
  | _, _ => False

/-- A session that was paused is started again before its final status is written. -/
def PauseRespected (events : List ReplayEvent) : Prop :=
  ∀ before between outcome after,
    events = before ++ .paused :: between ++ .finished outcome :: after → .started ∈ between

/-- A session that was started is claimed before it is completed. -/
def StartClaimed (events : List ReplayEvent) : Prop :=
  ∀ before between after,
    events = before ++ .started :: between ++ .finished .completed :: after → .claimed ∈ between

variable {events : List ReplayEvent}

theorem pauseRespected_of_chain (h : events.IsChain Next) : PauseRespected events := by
  rintro before between outcome after rfl
  rw [List.append_assoc] at h
  have htail := (List.isChain_append.mp h).2.1
  cases between with
  | nil => exact ((List.isChain_cons_cons.mp htail).1 : False).elim
  | cons event between =>
    have hnext := (List.isChain_cons_cons.mp htail).1
    cases event with
    | started => exact List.mem_cons_self
    | _ => exact hnext.elim

/-- What stands right before a final status is a claim. -/
theorem claimed_of_chain {first : ReplayEvent} {between after : List ReplayEvent} {outcome : Outcome}
    (h : (first :: between ++ .finished outcome :: after).IsChain Next) :
    .claimed ∈ first :: between := by
  induction between generalizing first with
  | nil =>
    have hnext := (List.isChain_cons_cons.mp h).1
    cases first with
    | claimed => exact List.mem_cons_self
    | _ => exact hnext.elim
  | cons event between ih =>
    exact List.mem_cons_of_mem first (ih (List.isChain_cons_cons.mp h).2)

theorem startClaimed_of_chain (h : events.IsChain Next) : StartClaimed events := by
  rintro before between after rfl
  rw [List.append_assoc] at h
  exact (List.mem_cons.mp (claimed_of_chain (List.isChain_append.mp h).2.1)).resolve_left nofun

/-- The control of the sessions is respected: pauses and starts are, and no session is executed twice at
one time. -/
structure Respected (s : Control ω) : Prop where
  paused : ∀ id, PauseRespected (s.eventsOf id)
  started : ∀ id, StartClaimed (s.eventsOf id)
  alone : ∀ id worker worker', s.workers worker = .executing id →
    s.workers worker' = .executing id → worker = worker'

/-! ## While no execution is paused -/

/-- What holds while no execution is paused. -/
structure Controlled (s : Control ω) : Prop where
  status : ∀ id row event, s.get? id = some row → (s.eventsOf id).getLast? = some event →
    row.status = event.status
  absent : ∀ id, s.get? id = none → s.eventsOf id = []
  chain : ∀ id, (s.eventsOf id).IsChain Next
  executing : ∀ worker id, s.workers worker = .executing id →
    (s.eventsOf id).getLast? = some .claimed
  alone : ∀ id worker worker', s.workers worker = .executing id →
    s.workers worker' = .executing id → worker = worker'

theorem Controlled.respected (h : Controlled s) : Respected s where
  paused := fun id => pauseRespected_of_chain (h.chain id)
  started := fun id => startClaimed_of_chain (h.chain id)
  alone := h.alone

/-- A session that is executed is running. -/
theorem Controlled.running (h : Controlled s) {worker : ω} (hworker : s.workers worker = .executing id)
    (hrow : s.get? id = some row) : row.status = .running :=
  h.status id row .claimed hrow (h.executing worker id hworker)

/-- An event is recorded that can follow the last one. -/
theorem Controlled.records (h : Controlled s) (hrecords : Records s s' id event)
    (hnext : ∀ last, (s.eventsOf id).getLast? = some last → Next last event)
    (hexecuting : ∀ worker other, s'.workers worker = .executing other →
      (other = id ∧ event = .claimed) ∨ (other ≠ id ∧ s.workers worker = .executing other))
    (halone : ∀ other worker worker', s'.workers worker = .executing other →
      s'.workers worker' = .executing other → worker = worker') : Controlled s' where
  status := fun other row last hrow hlast => by
    by_cases hne : other = id
    · subst hne
      obtain ⟨row', hrow', hstatus⟩ := hrecords.own
      rw [hrecords.eventsOf_self, List.getLast?_concat] at hlast
      rw [← Option.some.inj (hrow'.symm.trans hrow), hstatus, Option.some.inj hlast]
    · rw [hrecords.others other hne] at hrow
      rw [hrecords.eventsOf_of_ne hne] at hlast
      exact h.status other row last hrow hlast
  absent := fun other hnone => by
    by_cases hne : other = id
    · subst hne
      obtain ⟨row', hrow', -⟩ := hrecords.own
      rw [hrow'] at hnone
      exact nomatch hnone
    · rw [hrecords.others other hne] at hnone
      rw [hrecords.eventsOf_of_ne hne]
      exact h.absent other hnone
  chain := fun other => by
    by_cases hne : other = id
    · subst hne
      rw [hrecords.eventsOf_self]
      refine List.isChain_append.mpr ⟨h.chain other, List.isChain_singleton event, ?_⟩
      intro last hlast first hfirst
      rw [← Option.some.inj hfirst]
      exact hnext last hlast
    · rw [hrecords.eventsOf_of_ne hne]
      exact h.chain other
  executing := fun worker other hworker => by
    rcases hexecuting worker other hworker with ⟨rfl, rfl⟩ | ⟨hne, hbefore⟩
    · rw [hrecords.eventsOf_self, List.getLast?_concat]
    · rw [hrecords.eventsOf_of_ne hne]
      exact h.executing worker other hbefore
  alone := halone

section Runs

variable [DecidableEq ω] {manifests : String → Option String} {move : Move ω}

omit [DecidableEq ω] in
/-- A pause is accepted for a session that a worker executes. -/
def PausesExecution (s : Control ω) : Move ω → Prop
  | .pause id _ _ => (∃ row ∈ s.get? id, row.status = .queued ∨ row.status = .running) ∧
      ∃ worker, s.workers worker = .executing id
  | _ => False

omit [DecidableEq ω] in
/-- A request for a session that is not executed. -/
theorem Controlled.request (h : Controlled s) (hrecords : Records s s' id event)
    (hnext : ∀ last, (s.eventsOf id).getLast? = some last → Next last event)
    (hworkers : s'.workers = s.workers) (hidle : ∀ worker, s.workers worker ≠ .executing id) :
    Controlled s' := by
  refine h.records hrecords hnext (fun worker other hworker => ?_) fun other worker worker' => ?_
  · rw [hworkers] at hworker
    refine Or.inr ⟨?_, hworker⟩
    rintro rfl
    exact hidle worker hworker
  · rw [hworkers]
    exact h.alone other worker worker'

/-- A step that pauses no execution. -/
theorem Controlled.effect (h : Controlled s) (heffect : Effect s move s')
    (hkeeps : ¬ PausesExecution s move) : Controlled s' := by
  cases heffect with
  | quiet hget hhistory hworkers =>
    have hevents : ∀ id, s'.eventsOf id = s.eventsOf id := fun id => by
      rw [Control.eventsOf, hhistory, Control.eventsOf]
    exact {
      status := fun id row event hrow hlast =>
        h.status id row event (hget id ▸ hrow) (hevents id ▸ hlast)
      absent := fun id hnone => (hevents id).trans (h.absent id (hget id ▸ hnone))
      chain := fun id => hevents id ▸ h.chain id
      executing := fun worker id hworker => hevents id ▸ h.executing worker id (hworkers worker id hworker)
      alone := fun id worker worker' hworker hworker' =>
        h.alone id worker worker' (hworkers worker id hworker) (hworkers worker' id hworker') }
  | @created id scenarioId actorId tenantId now _ hnew hrecords hworkers =>
    refine h.request hrecords (fun last hlast => ?_) hworkers fun worker hworker => ?_
    · rw [h.absent id hnew] at hlast
      exact nomatch hlast
    · have hlast := h.executing worker id hworker
      rw [h.absent id hnew] at hlast
      exact nomatch hlast
  | @started id actorId row _ hrow hstatus hrecords hworkers =>
    refine h.request hrecords (fun last hlast => ?_) hworkers fun worker hworker => ?_
    · rw [h.status id row last hrow hlast] at hstatus
      cases last with
      | created => trivial
      | paused => trivial
      | _ => simp [ReplayEvent.status] at hstatus
    · rw [h.running hworker hrow] at hstatus
      simp at hstatus
  | @paused id actorId now row _ hrow hstatus hrecords hworkers =>
    refine h.request hrecords (fun last hlast => ?_) hworkers fun worker hworker =>
      hkeeps ⟨⟨row, hrow, hstatus⟩, worker, hworker⟩
    rw [h.status id row last hrow hlast] at hstatus
    cases last with
    | started => trivial
    | claimed => trivial
    | _ => simp [ReplayEvent.status] at hstatus
  | @claimed worker now id row _ hrow hstatus hrecords hworkers =>
    -- a queued session is not executed
    have hidle : ∀ other, s.workers other ≠ .executing id := fun other hother => by
      rw [h.running hother hrow] at hstatus
      exact nomatch hstatus
    have hexecuting : ∀ other session, s'.workers other = .executing session →
        (session = id ∧ other = worker) ∨ (session ≠ id ∧ s.workers other = .executing session) := by
      intro other session hother
      rw [hworkers] at hother
      by_cases hne : other = worker
      · rw [hne, Function.update_self] at hother
        exact Or.inl ⟨(WorkerState.executing.inj hother).symm, hne⟩
      · rw [Function.update_of_ne hne] at hother
        refine Or.inr ⟨?_, hother⟩
        rintro rfl
        exact hidle other hother
    refine h.records hrecords (fun last hlast => ?_) (fun other session hother => ?_)
      fun session other other' hother hother' => ?_
    · rw [h.status id row last hrow hlast] at hstatus
      cases last with
      | started => trivial
      | _ => simp [ReplayEvent.status] at hstatus
    · exact (hexecuting other session hother).imp_left fun heq => ⟨heq.1, rfl⟩
    · rcases hexecuting other session hother with ⟨hsession, rfl⟩ | ⟨hne, hbefore⟩
      · rcases hexecuting other' session hother' with ⟨-, rfl⟩ | ⟨hne, -⟩
        · rfl
        · exact absurd hsession hne
      · rcases hexecuting other' session hother' with ⟨hsession, -⟩ | ⟨-, hbefore'⟩
        · exact absurd hsession hne
        · exact h.alone session other other' hbefore hbefore'
  | @finished worker outcome now id _ hworker hrecords hworkers =>
    have hexecuting : ∀ other session, s'.workers other = .executing session →
        session ≠ id ∧ s.workers other = .executing session := by
      intro other session hother
      rw [hworkers] at hother
      by_cases hne : other = worker
      · rw [hne, Function.update_self] at hother
        exact nomatch hother
      · rw [Function.update_of_ne hne] at hother
        refine ⟨?_, hother⟩
        rintro rfl
        exact hne (h.alone session other worker hother hworker)
    refine h.records hrecords (fun last hlast => ?_)
      (fun other session hother => Or.inr (hexecuting other session hother))
      fun session other other' hother hother' => ?_
    · rw [h.executing worker id hworker] at hlast
      rw [← Option.some.inj hlast]
      trivial
    · exact h.alone session other other' (hexecuting other session hother).2
        (hexecuting other' session hother').2

/-- The sessions at the start, which no worker executes. -/
def initial (sessions : List ReplaySessionModel) : Control ω :=
  { sessions := sessions }

omit [DecidableEq ω] in
theorem controlled_initial (sessions : List ReplaySessionModel) :
    Controlled (initial sessions : Control ω) where
  status := fun _ _ _ _ hlast => nomatch hlast
  absent := fun _ _ => rfl
  chain := fun _ => List.isChain_nil
  executing := fun _ _ hworker => nomatch hworker
  alone := fun _ _ _ hworker => nomatch hworker

/-- The end of an execution overwrites a pause. -/
theorem not_respected_of_pausesExecution (hpauses : PausesExecution s move) :
    ∃ worker, ∀ outcome now,
      ¬ Respected (step manifests (step manifests s move) (.finish worker outcome now)) := by
  cases move with
  | pause id actorId now =>
    obtain ⟨⟨row, hrow, hstatus⟩, worker, hworker⟩ := hpauses
    refine ⟨worker, fun outcome now' hrespected => ?_⟩
    obtain ⟨s', hpause, hpaused, hworkers⟩ := records_pauseReplay hrow hstatus actorId now
    have hstep : step manifests s (.pause id actorId now) = s' := by
      rw [step, hpause, Control.orElse]
    rw [hstep] at hrespected
    obtain ⟨row', hrow', -⟩ := hpaused.own
    have hworker' : s'.workers worker = .executing id := hworkers ▸ hworker
    have hfinished : Records s' (step manifests s' (.finish worker outcome now')) id
        (.finished outcome) := (records_finish hworker' hrow' outcome now').1
    have hstarted := hrespected.paused id (s.eventsOf id) [] outcome []
      (by rw [hfinished.eventsOf_self, hpaused.eventsOf_self])
    exact List.not_mem_nil hstarted
  | _ => exact hpauses.elim

/-- **Pauses and starts are respected unless an execution is paused.**  In every run of requests and
workers in which no pause is accepted for a session while a worker executes it: a session that is paused
gets no final status before it is started again, a session that is started is claimed before it is
completed, and no session is executed by two workers at one time.  And wherever a run accepts such a pause,
the end of the execution breaks this if it comes next. -/
theorem respected_unless_paused_in_execution (manifests : String → Option String)
    (sessions : List ReplaySessionModel) (moves : List (Move ω)) :
    (Throughout (step manifests) (fun s move => ¬ PausesExecution s move) (initial sessions) moves →
      Always (step manifests) Respected (initial sessions) moves) ∧
    ∀ before move after, moves = before ++ move :: after →
      PausesExecution (run (step manifests) (initial sessions) before) move →
      ∃ worker, ∀ outcome now, ¬ Respected
        (run (step manifests) (initial sessions) (before ++ [move, .finish worker outcome now])) := by
  constructor
  · intro hmoves
    exact Library.always_of_throughout (I := Controlled)
      (fun s move h hkeeps => h.effect (effect_step manifests s move) hkeeps)
      (fun s h => h.respected) (controlled_initial sessions) hmoves
  · intro before move after _ hpauses
    obtain ⟨worker, hworker⟩ := not_respected_of_pausesExecution hpauses
    refine ⟨worker, fun outcome now => ?_⟩
    rw [Library.run_append]
    exact hworker outcome now

end Runs

/-! ## A pause during an execution -/

/-- The manifest of the only scenario. -/
def demoManifests (name : String) : Option String :=
  if name = "demo" then some "demo" else none

/-- A session is created and started, and the worker executes it. -/
def executed : List (Move (Fin 2)) :=
  [.create 0 "demo" "analyst" "default" 1, .start 0 "analyst", .poll ⟨0, Nat.two_pos⟩ 0,
    .claim ⟨0, Nat.two_pos⟩ 2]

/-- A session that was paused before a worker claims it waits for the second start. -/
theorem respected_paused_before_claim :
    Always (step demoManifests) Respected (initial ([] : List ReplaySessionModel))
      ([.create 0 "demo" "analyst" "default" 1, .start 0 "analyst", .poll 0 0, .pause 0 "analyst" 2,
        .claim 0 3, .start 0 "analyst", .poll 1 0, .claim 1 4, .finish 1 .completed 5] :
        List (Move (Fin 2))) := by
  refine (respected_unless_paused_in_execution demoManifests [] _).1
    ⟨id, id, id, fun hpauses => ?_, id, id, id, id, id, trivial⟩
  obtain ⟨-, worker, hworker⟩ := hpauses
  revert worker
  decide +kernel

/-- The session is paused while it is executed, and completed all the same. -/
theorem completed_while_paused :
    (run (step demoManifests) (initial ([] : List ReplaySessionModel))
      (executed ++ [.pause 0 "analyst" 3, .finish 0 .completed 4])).eventsOf 0 =
        [.created, .started, .claimed, .paused, .finished .completed] ∧
    ¬ Respected (run (step demoManifests) (initial ([] : List ReplaySessionModel))
      (executed ++ [.pause 0 "analyst" 3, .finish 0 .completed 4])) := by
  have hevents : (run (step demoManifests) (initial ([] : List ReplaySessionModel))
      (executed ++ [.pause 0 "analyst" 3, .finish 0 .completed 4])).eventsOf 0 =
        [.created, .started, .claimed, .paused, .finished .completed] := by
    decide +kernel
  refine ⟨hevents, fun hrespected => ?_⟩
  have hstarted := hrespected.paused 0 [.created, .started, .claimed] [] .completed [] hevents
  exact List.not_mem_nil hstarted

end ReplayControl
end Evaluation
end Scam2Market
