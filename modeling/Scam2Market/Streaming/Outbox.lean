import Scam2Market.Library.Rows
import Scam2Market.Library.Runs
import Scam2Market.Python.Values
import Mathlib.Logic.Function.Basic

/-!
# The outbox dispatcher

`streaming/outbox.py` over `SqlOutboxRepository` of `ingestion/repositories.py`, any number of
dispatchers side by side.

* `pending`, `markPublished`, `markFailed`: the three transactions.
* `Dispatcher`: what is left of a `dispatch_batch`, and where the publish of its next message stands.  A
  dispatcher that stops, whatever stops it, forgets its batch; so does one that `pending` left with a
  row that is no event.
* `Terminal`: a published row stays as it is and is published no more.
* `terminal_of_careful`: it is so when no dispatcher takes over a row that another one still works on.
* `takeover_publishes_again`: a slow publish, a take-over and a failure.
-/

namespace Scam2Market
namespace Streaming

open Library

/-! ## Rows -/

inductive OutboxStatus where
  | pending
  | processing
  | failed
  | published
  deriving DecidableEq, Repr

/-- A row of `outbox_events`, as the dispatcher sees it. -/
structure OutboxRow (ι ε : Type) where
  outboxId : ι
  topic : String
  envelope : ε
  createdAt : Datetime
  status : OutboxStatus := .pending
  attempts : ℕ := 0
  claimedAt : Option Datetime := none
  publishedAt : Option Datetime := none
  lastError : Option String := none
  deriving DecidableEq

structure OutboxMessage (ι ε : Type) where
  outboxId : ι
  topic : String
  event : ε
  deriving DecidableEq

namespace SqlOutboxRepository

variable {ι ε : Type}

/-- The rows `pending` selects. -/
def due (now : Datetime) (row : OutboxRow ι ε) : Bool :=
  let staleClaim := now - timedeltaSeconds 300
  (row.status = .pending || row.status = .failed ||
      (row.status = .processing && row.claimedAt.any fun claimedAt => claimedAt < staleClaim)) &&
    row.attempts < 10

def claim (now : Datetime) (row : OutboxRow ι ε) : OutboxRow ι ε :=
  { row with status := .processing, claimedAt := some now, attempts := row.attempts + 1 }

def message (row : OutboxRow ι ε) : OutboxMessage ι ε :=
  ⟨row.outboxId, row.topic, row.envelope⟩

/-- The rows a call of `pending` claims; `locked` are the rows that other transactions hold. -/
def claimed (now : Datetime) (limit : ℕ) (locked : ι → Bool) (rows : List (OutboxRow ι ε)) :
    List (OutboxRow ι ε) :=
  firstWhere (fun row => due now row && !locked row.outboxId)
    (fun row row' => row.createdAt ≤ row'.createdAt) limit rows

variable [DecidableEq ι]

/-- `pending(limit)`: the messages, and the table after it. -/
def pending (now : Datetime) (limit : ℕ) (locked : ι → Bool) (rows : List (OutboxRow ι ε)) :
    List (OutboxMessage ι ε) × List (OutboxRow ι ε) :=
  let found := claimed now limit locked rows
  (found.map message,
    updateWhere (fun row => row.outboxId ∈ found.map OutboxRow.outboxId) (claim now) rows)

/-- `mark_published(outbox_id)`. -/
def markPublished (now : Datetime) (outboxId : ι) (rows : List (OutboxRow ι ε)) :
    List (OutboxRow ι ε) :=
  updateWhere (fun row => row.outboxId = outboxId)
    (fun row => { row with status := .published, publishedAt := some now, lastError := none }) rows

/-- `(error or "publish failed")[:2000]`. -/
def errorText (error : Option String) : String :=
  let text := match error with
    | none => "publish failed"
    | some error => if error = "" then "publish failed" else error
  String.ofList (text.toList.take 2000)

/-- `mark_failed(outbox_id, error)`. -/
def markFailed (outboxId : ι) (error : Option String) (rows : List (OutboxRow ι ε)) :
    List (OutboxRow ι ε) :=
  updateWhere (fun row => row.outboxId = outboxId)
    (fun row => { row with status := .failed, lastError := some (errorText error) }) rows

end SqlOutboxRepository

/-! ## Dispatchers side by side -/

/-- Where the publish of the next message stands. -/
inductive PublishPhase where
  | ready
  | publishing
  | returned
  | raised (error : String)
  deriving DecidableEq

/-- The messages that are left, the publish of the first of them, and how many were published. -/
structure Dispatcher (ι ε : Type) where
  todo : List (OutboxMessage ι ε) := []
  phase : PublishPhase := .ready
  published : ℕ := 0

/-- The table, the dispatchers, and the rows whose event was given to the publisher, once for each
call. -/
structure Outbox (ι ε : Type) where
  rows : List (OutboxRow ι ε) := []
  dispatchers : ℕ → Dispatcher ι ε := fun _ => {}
  publications : List ι := []

inductive OutboxMove (ι ε : Type) where
  | enqueue (outboxId : ι) (topic : String) (envelope : ε) (createdAt : Datetime)
  | dispatchBatch (index : ℕ) (now : Datetime) (limit : ℕ) (locked : ι → Bool)
  | publish (index : ℕ)
  | finish (index : ℕ) (outcome : Except String Unit)
  | mark (index : ℕ) (now : Datetime)
  | crash (index : ℕ)

namespace Outbox

open SqlOutboxRepository

variable {ι ε : Type} [DecidableEq ι]

/-- Another transaction adds an event; a primary key is not given twice. -/
def enqueue (s : Outbox ι ε) (outboxId : ι) (topic : String) (envelope : ε)
    (createdAt : Datetime) : Outbox ι ε :=
  if outboxId ∈ s.rows.map OutboxRow.outboxId then s
  else { s with rows := s.rows ++ [{ outboxId, topic, envelope, createdAt }] }

/-- A dispatcher goes on. -/
def setDispatcher (s : Outbox ι ε) (index : ℕ) (dispatcher : Dispatcher ι ε) : Outbox ι ε :=
  { s with dispatchers := Function.update s.dispatchers index dispatcher }

/-- A `dispatch_batch` begins. -/
def dispatchBatch (s : Outbox ι ε) (index : ℕ) (now : Datetime) (limit : ℕ) (locked : ι → Bool) :
    Outbox ι ε :=
  match (s.dispatchers index).todo with
  | [] =>
    let (messages, rows) := pending now limit locked s.rows
    { s with rows := rows }.setDispatcher index { todo := messages }
  | _ :: _ => s

/-- The publisher is called. -/
def publish (s : Outbox ι ε) (index : ℕ) : Outbox ι ε :=
  match s.dispatchers index with
  | { todo := message :: rest, phase := .ready, published } =>
    { s with publications := s.publications ++ [message.outboxId] }.setDispatcher index
      { todo := message :: rest, phase := .publishing, published }
  | _ => s

/-- The publisher returns, or raises. -/
def finish (s : Outbox ι ε) (index : ℕ) (outcome : Except String Unit) : Outbox ι ε :=
  match s.dispatchers index with
  | { todo, phase := .publishing, published } =>
    s.setDispatcher index
      { todo
        phase := match outcome with
          | .ok () => .returned
          | .error error => .raised error
        published }
  | _ => s

/-- The outcome is written, and the next message is turned to. -/
def mark (s : Outbox ι ε) (index : ℕ) (now : Datetime) : Outbox ι ε :=
  match s.dispatchers index with
  | { todo := message :: rest, phase := .returned, published } =>
    { s with rows := markPublished now message.outboxId s.rows }.setDispatcher index
      { todo := rest, published := published + 1 }
  | { todo := message :: rest, phase := .raised error, published } =>
    { s with rows := markFailed message.outboxId (some error) s.rows }.setDispatcher index
      { todo := rest, published }
  | _ => s

def step (s : Outbox ι ε) : OutboxMove ι ε → Outbox ι ε
  | .enqueue outboxId topic envelope createdAt => s.enqueue outboxId topic envelope createdAt
  | .dispatchBatch index now limit locked => s.dispatchBatch index now limit locked
  | .publish index => s.publish index
  | .finish index outcome => s.finish index outcome
  | .mark index now => s.mark index now
  | .crash index => s.setDispatcher index {}

/-- A dispatcher works on a row. -/
def Holds (s : Outbox ι ε) (index : ℕ) (outboxId : ι) : Prop :=
  outboxId ∈ (s.dispatchers index).todo.map OutboxMessage.outboxId

/-- Between two states of a run: what is published in the first is the same row in the second, and its
event was given to the publisher no more. -/
def Terminal (s s' : Outbox ι ε) : Prop :=
  ∀ row ∈ s.rows, row.status = .published →
    row ∈ s'.rows ∧ s'.publications.count row.outboxId = s.publications.count row.outboxId

/-- The condition on a step: no batch takes over a row that a dispatcher still works on. -/
def Careful (s : Outbox ι ε) : OutboxMove ι ε → Prop
  | .dispatchBatch _ now limit locked => ∀ row ∈ claimed now limit locked s.rows,
      row.status = .processing → ∀ index, ¬ s.Holds index row.outboxId
  | _ => True

/-! ## Who works on a row -/

/-- A row is worked on by one dispatcher at most, which has it once in its batch, and is marked as being
processed. -/
structure Invariant (s : Outbox ι ε) : Prop where
  distinct : (s.rows.map OutboxRow.outboxId).Nodup
  once : ∀ index, ((s.dispatchers index).todo.map OutboxMessage.outboxId).Nodup
  exclusive : ∀ {index index' outboxId}, s.Holds index outboxId → s.Holds index' outboxId →
    index = index'
  processing : ∀ {index outboxId}, s.Holds index outboxId →
    ∃ row ∈ s.rows, row.outboxId = outboxId ∧ row.status = .processing

variable {s s' : Outbox ι ε}

omit [DecidableEq ι] in
theorem invariant_initial : Invariant ({} : Outbox ι ε) where
  distinct := List.nodup_nil
  once _ := List.nodup_nil
  exclusive h _ := (List.not_mem_nil h).elim
  processing h := (List.not_mem_nil h).elim

omit [DecidableEq ι] in
/-- The dispatchers work on nothing more than before. -/
theorem Invariant.of_sublist (h : Invariant s)
    (hdistinct : (s'.rows.map OutboxRow.outboxId).Nodup)
    (htodo : ∀ index, (s'.dispatchers index).todo.Sublist (s.dispatchers index).todo)
    (hprocessing : ∀ {index outboxId}, s'.Holds index outboxId →
      ∃ row ∈ s'.rows, row.outboxId = outboxId ∧ row.status = .processing) : Invariant s' where
  distinct := hdistinct
  once index := (h.once index).sublist ((htodo index).map _)
  exclusive {index index'} _ hholds hholds' :=
    h.exclusive (((htodo index).map _).subset hholds) (((htodo index').map _).subset hholds')
  processing := hprocessing

omit [DecidableEq ι] in
theorem todo_setDispatcher (index : ℕ) (dispatcher : Dispatcher ι ε) (index' : ℕ) :
    ((s.setDispatcher index dispatcher).dispatchers index').todo =
      if index' = index then dispatcher.todo else (s.dispatchers index').todo := by
  show (Function.update s.dispatchers index dispatcher index').todo = _
  rw [Function.update_apply]
  split_ifs <;> rfl

omit [DecidableEq ι] in
/-- A dispatcher goes on with a part of its batch. -/
theorem sublist_setDispatcher {index : ℕ} {dispatcher : Dispatcher ι ε}
    (hsub : dispatcher.todo.Sublist (s.dispatchers index).todo) (index' : ℕ) :
    ((s.setDispatcher index dispatcher).dispatchers index').todo.Sublist
      (s.dispatchers index').todo := by
  rw [todo_setDispatcher]
  split_ifs with heq
  · exact heq ▸ hsub
  · exact List.Sublist.refl _

omit [DecidableEq ι] in
/-- A dispatcher goes on with a part of its batch, and the table stays. -/
theorem Invariant.setDispatcher (h : Invariant s) {index : ℕ} {dispatcher : Dispatcher ι ε}
    (hsub : dispatcher.todo.Sublist (s.dispatchers index).todo) :
    Invariant (s.setDispatcher index dispatcher) :=
  h.of_sublist h.distinct (sublist_setDispatcher hsub) fun {index'} _ hholds =>
    h.processing (((sublist_setDispatcher hsub index').map _).subset hholds)

omit [DecidableEq ι] in
/-- A row that a dispatcher works on is not published. -/
theorem Invariant.ne_of_published (h : Invariant s) {index : ℕ} {outboxId : ι}
    (hholds : s.Holds index outboxId) {row : OutboxRow ι ε} (hrow : row ∈ s.rows)
    (hstatus : row.status = .published) : row.outboxId ≠ outboxId := by
  intro hid
  obtain ⟨row', hrow', hid', hprocessing⟩ := h.processing hholds
  have heq : row = row' := eq_of_key_eq h.distinct hrow hrow' (hid.trans hid'.symm)
  rw [heq, hprocessing] at hstatus
  cases hstatus

/-! ## What a step does -/

omit [DecidableEq ι] in
/-- A row that `pending` claims, and how it was found. -/
theorem of_mem_claimed {now : Datetime} {limit : ℕ} {locked : ι → Bool}
    {rows : List (OutboxRow ι ε)} {row : OutboxRow ι ε}
    (h : row ∈ claimed now limit locked rows) : row ∈ rows ∧ row.status ≠ .published := by
  obtain ⟨hrow, hdue⟩ := of_mem_firstWhere h
  refine ⟨hrow, fun hstatus => ?_⟩
  simp [due, hstatus] at hdue

/-- The outcome of a publish is written, or nothing happens. -/
theorem mark_cases (s : Outbox ι ε) (index : ℕ) (now : Datetime) :
    s.mark index now = s ∨
      ∃ (message : OutboxMessage ι ε) (f : OutboxRow ι ε → OutboxRow ι ε)
        (dispatcher : Dispatcher ι ε),
        (s.dispatchers index).todo = message :: dispatcher.todo ∧
        (∀ row, (f row).outboxId = row.outboxId) ∧
        s.mark index now =
          { s with rows := updateWhere (fun row => row.outboxId = message.outboxId) f s.rows
            }.setDispatcher index dispatcher := by
  unfold mark
  split
  case h_1 message rest published hdispatcher =>
    exact Or.inr ⟨message,
      fun row => { row with status := .published, publishedAt := some now, lastError := none },
      { todo := rest, published := published + 1 }, by rw [hdispatcher], fun _ => rfl, rfl⟩
  case h_2 message rest error published hdispatcher =>
    exact Or.inr ⟨message,
      fun row => { row with status := .failed, lastError := some (errorText (some error)) },
      { todo := rest, published }, by rw [hdispatcher], fun _ => rfl, rfl⟩
  case h_3 => exact Or.inl rfl

theorem Invariant.enqueue (h : Invariant s) (outboxId : ι) (topic : String) (envelope : ε)
    (createdAt : Datetime) : Invariant (s.enqueue outboxId topic envelope createdAt) := by
  unfold Outbox.enqueue
  split_ifs with hknown
  · exact h
  · refine h.of_sublist ?_ (fun _ => List.Sublist.refl _) fun hholds => ?_
    · rw [List.map_append, List.nodup_append']
      exact ⟨h.distinct, List.nodup_singleton _, List.disjoint_singleton.mpr hknown⟩
    · obtain ⟨row, hrow, hprocessing⟩ := h.processing hholds
      exact ⟨row, List.mem_append_left _ hrow, hprocessing⟩

theorem Invariant.mark (h : Invariant s) (index : ℕ) (now : Datetime) :
    Invariant (s.mark index now) := by
  rcases mark_cases s index now with heq | ⟨message, f, dispatcher, htodo, hkey, heq⟩
  · rw [heq]
    exact h
  rw [heq]
  have honce : message.outboxId ∉ dispatcher.todo.map OutboxMessage.outboxId := by
    have hnodup := h.once index
    rw [htodo, List.map_cons] at hnodup
    exact (List.nodup_cons.mp hnodup).1
  have hsub : dispatcher.todo.Sublist (s.dispatchers index).todo := by
    rw [htodo]
    exact List.sublist_cons_self _ _
  have hhead : s.Holds index message.outboxId := by
    rw [Holds, htodo]
    exact List.mem_cons_self
  refine h.of_sublist ?_ (sublist_setDispatcher hsub) fun {index' outboxId} hholds => ?_
  · exact (map_updateWhere hkey).symm ▸ h.distinct
  -- whoever works on a row still, the row is another one
  have hbefore : s.Holds index' outboxId :=
    ((sublist_setDispatcher hsub index').map _).subset hholds
  have hother : outboxId ≠ message.outboxId := by
    rintro rfl
    obtain rfl := h.exclusive hbefore hhead
    rw [Holds, todo_setDispatcher, if_pos rfl] at hholds
    exact honce hholds
  obtain ⟨row, hrow, rfl, hprocessing⟩ := h.processing hbefore
  exact ⟨row, mem_updateWhere_of_neg hrow (by simpa using hother), rfl, hprocessing⟩

/-- A batch begins: the rows it claims were worked on by nobody. -/
theorem Invariant.dispatchBatch (h : Invariant s) (index : ℕ) (now : Datetime) (limit : ℕ)
    (locked : ι → Bool)
    (hcareful : ∀ row ∈ claimed now limit locked s.rows, row.status = .processing →
      ∀ index, ¬ s.Holds index row.outboxId) :
    Invariant (s.dispatchBatch index now limit locked) := by
  unfold Outbox.dispatchBatch
  split
  case h_2 => exact h
  case h_1 hidle =>
  have hids : ((claimed now limit locked s.rows).map message).map OutboxMessage.outboxId =
      (claimed now limit locked s.rows).map OutboxRow.outboxId := by
    rw [List.map_map]
    rfl
  -- nobody works on a row that is claimed
  have hfree : ∀ outboxId ∈ (claimed now limit locked s.rows).map OutboxRow.outboxId,
      ∀ index, ¬ s.Holds index outboxId := by
    intro outboxId hid index hholds
    obtain ⟨row, hrow, rfl⟩ := List.mem_map.mp hid
    obtain ⟨row', hrow', hid', hprocessing⟩ := h.processing hholds
    obtain rfl := eq_of_key_eq h.distinct (of_mem_claimed hrow).1 hrow' hid'.symm
    exact hcareful row hrow hprocessing index hholds
  -- what a dispatcher works on after the step
  have hholds_iff : ∀ index' outboxId,
      ({ s with rows := (pending now limit locked s.rows).2 }.setDispatcher index
        { todo := (pending now limit locked s.rows).1 }).Holds index' outboxId ↔
      if index' = index then outboxId ∈ (claimed now limit locked s.rows).map OutboxRow.outboxId
        else s.Holds index' outboxId := by
    intro index' outboxId
    rw [Holds, todo_setDispatcher, ← hids]
    split_ifs <;> rfl
  constructor
  · show ((updateWhere _ (claim now) s.rows).map OutboxRow.outboxId).Nodup
    have hkey : ∀ row : OutboxRow ι ε, (claim now row).outboxId = row.outboxId := fun _ => rfl
    rw [map_updateWhere hkey]
    exact h.distinct
  · intro index'
    rw [todo_setDispatcher]
    split_ifs
    · show (((claimed now limit locked s.rows).map message).map OutboxMessage.outboxId).Nodup
      rw [hids]
      exact nodup_map_firstWhere h.distinct
    · exact h.once index'
  · intro index₁ index₂ outboxId h₁ h₂
    rw [hholds_iff] at h₁ h₂
    split_ifs at h₁ h₂ with heq₁ heq₂ heq₂
    · exact heq₁.trans heq₂.symm
    · exact absurd h₂ (hfree outboxId h₁ index₂)
    · exact absurd h₁ (hfree outboxId h₂ index₁)
    · exact h.exclusive h₁ h₂
  · intro index' outboxId hholds
    rw [hholds_iff] at hholds
    split_ifs at hholds
    · obtain ⟨row, hrow, rfl⟩ := List.mem_map.mp hholds
      exact ⟨claim now row, mem_updateWhere_of_pos (of_mem_claimed hrow).1 (by simpa using hholds),
        rfl, rfl⟩
    · obtain ⟨row, hrow, rfl, hprocessing⟩ := h.processing hholds
      refine ⟨row, mem_updateWhere_of_neg hrow ?_, rfl, hprocessing⟩
      exact decide_eq_false fun hid => hfree row.outboxId hid index' hholds

theorem Invariant.step (h : Invariant s) (move : OutboxMove ι ε) (hcareful : s.Careful move) :
    Invariant (s.step move) := by
  cases move with
  | enqueue outboxId topic envelope createdAt => exact h.enqueue outboxId topic envelope createdAt
  | dispatchBatch index now limit locked => exact h.dispatchBatch index now limit locked hcareful
  | publish index =>
    show Invariant (s.publish index)
    unfold publish
    split
    case h_1 message rest published hdispatcher =>
      exact h.of_sublist h.distinct (sublist_setDispatcher (by rw [hdispatcher]))
        fun {index'} _ hholds => h.processing
          (((sublist_setDispatcher (by rw [hdispatcher]) index').map _).subset hholds)
    case h_2 => exact h
  | finish index outcome =>
    show Invariant (s.finish index outcome)
    unfold finish
    split
    case h_1 todo published hdispatcher => exact h.setDispatcher (by rw [hdispatcher])
    case h_2 => exact h
  | mark index now => exact h.mark index now
  | crash index => exact h.setDispatcher (List.nil_sublist _)

/-! ## Published is terminal -/

/-- A step that does not publish leaves the published rows alone. -/
theorem Terminal.of_rows (hpublications : s'.publications = s.publications)
    (hrows : ∀ row ∈ s.rows, row.status = .published → row ∈ s'.rows) : Terminal s s' :=
  fun row hrow hstatus => ⟨hrows row hrow hstatus, by rw [hpublications]⟩

theorem Terminal.refl (s : Outbox ι ε) : Terminal s s :=
  .of_rows rfl fun _ hrow _ => hrow

theorem Terminal.trans {s'' : Outbox ι ε} (h : Terminal s s') (h' : Terminal s' s'') :
    Terminal s s'' := by
  intro row hrow hstatus
  obtain ⟨hrow', hcount⟩ := h row hrow hstatus
  obtain ⟨hrow'', hcount'⟩ := h' row hrow' hstatus
  exact ⟨hrow'', hcount'.trans hcount⟩

theorem terminal_enqueue (outboxId : ι) (topic : String) (envelope : ε) (createdAt : Datetime) :
    Terminal s (s.enqueue outboxId topic envelope createdAt) := by
  unfold enqueue
  split_ifs
  · exact .refl s
  · exact .of_rows rfl fun row hrow _ => List.mem_append_left _ hrow

theorem Invariant.terminal_dispatchBatch (h : Invariant s) (index : ℕ) (now : Datetime)
    (limit : ℕ) (locked : ι → Bool) : Terminal s (s.dispatchBatch index now limit locked) := by
  unfold Outbox.dispatchBatch
  split
  case h_1 =>
    refine .of_rows rfl fun row hrow hstatus =>
      mem_updateWhere_of_neg hrow (decide_eq_false fun hid => ?_)
    obtain ⟨row', hrow', hid'⟩ := List.mem_map.mp hid
    obtain ⟨hmem, hunpublished⟩ := of_mem_claimed hrow'
    exact hunpublished (eq_of_key_eq h.distinct hmem hrow hid' ▸ hstatus)
  case h_2 => exact .refl s

theorem Invariant.terminal_publish (h : Invariant s) (index : ℕ) :
    Terminal s (s.publish index) := by
  unfold publish
  split
  case h_1 message rest published hdispatcher =>
    intro row hrow hstatus
    have hholds : s.Holds index message.outboxId := by
      rw [Holds, hdispatcher]
      exact List.mem_cons_self
    have hother : ¬ message.outboxId = row.outboxId :=
      (h.ne_of_published hholds hrow hstatus).symm
    refine ⟨hrow, ?_⟩
    show (s.publications ++ [message.outboxId]).count row.outboxId = _
    rw [List.count_append, List.count_singleton, if_neg (by simpa using hother), Nat.add_zero]
  case h_2 => exact .refl s

theorem terminal_finish (index : ℕ) (outcome : Except String Unit) :
    Terminal s (s.finish index outcome) := by
  unfold finish
  split
  · exact .of_rows rfl fun _ hrow _ => hrow
  · exact .refl s

theorem Invariant.terminal_mark (h : Invariant s) (index : ℕ) (now : Datetime) :
    Terminal s (s.mark index now) := by
  rcases mark_cases s index now with heq | ⟨message, f, dispatcher, htodo, hkey, heq⟩
  · rw [heq]
    exact .refl s
  · have hholds : s.Holds index message.outboxId := by
      rw [Holds, htodo]
      exact List.mem_cons_self
    rw [heq]
    exact .of_rows rfl fun row hrow hstatus => mem_updateWhere_of_neg hrow
      (decide_eq_false (h.ne_of_published hholds hrow hstatus))

/-- A step leaves a published row alone, and does not publish it. -/
theorem Invariant.terminal_step (h : Invariant s) (move : OutboxMove ι ε) :
    Terminal s (s.step move) := by
  cases move with
  | enqueue outboxId topic envelope createdAt =>
    exact terminal_enqueue outboxId topic envelope createdAt
  | dispatchBatch index now limit locked => exact h.terminal_dispatchBatch index now limit locked
  | publish index => exact h.terminal_publish index
  | finish index outcome => exact terminal_finish index outcome
  | mark index now => exact h.terminal_mark index now
  | crash index => exact .of_rows rfl fun _ hrow _ => hrow

theorem terminal_run (h : Invariant s) {moves : List (OutboxMove ι ε)}
    (hmoves : Throughout step Careful s moves) : Terminal s (run step s moves) := by
  induction moves generalizing s with
  | nil => exact .refl s
  | cons move moves ih =>
    exact (h.terminal_step move).trans (ih (h.step move hmoves.1) hmoves.2)

/-- **Published is terminal.**  In a run in which no batch takes over a row that a dispatcher still works
on, a row that is published never changes again, and its event is never given to the publisher again. -/
theorem terminal_of_careful (moves moves' : List (OutboxMove ι ε))
    (hmoves : Throughout step Careful ({} : Outbox ι ε) (moves ++ moves')) :
    Terminal (run step ({} : Outbox ι ε) moves) (run step ({} : Outbox ι ε) (moves ++ moves')) := by
  obtain ⟨hbefore, hafter⟩ := throughout_append.mp hmoves
  rw [run_append]
  exact terminal_run (run_invariant_of_throughout (fun s move hI hC => hI.step move hC)
    invariant_initial hbefore) hafter

/-- The first dispatcher stops before it publishes, and the second one takes its row over. -/
def takeOverAfterCrash : List (OutboxMove ℕ Unit) :=
  [.enqueue 0 "alerts.events.v1" () 0,
    .dispatchBatch 0 0 100 fun _ => false,
    .crash 0,
    .dispatchBatch 1 (timedeltaSeconds 301) 100 fun _ => false,
    .publish 1,
    .finish 1 (.ok ()),
    .mark 1 (timedeltaSeconds 302)]

theorem terminal_takeOverAfterCrash :
    Terminal (run step ({} : Outbox ℕ Unit) takeOverAfterCrash)
      (run step {} (takeOverAfterCrash ++
        [.dispatchBatch 0 (timedeltaSeconds 700) 100 fun _ => false])) := by
  refine terminal_of_careful _ _ ⟨trivial, fun row hrow hprocessing => ?_, trivial,
    fun row hrow hprocessing index => ?_, trivial, trivial, trivial,
    fun row hrow hprocessing => ?_, trivial⟩
  · refine absurd hprocessing ?_
    revert row
    decide +kernel
  · rcases eq_or_ne index 0 with rfl | hne
    · exact List.not_mem_nil
    · rw [Holds]
      show row.outboxId ∉ ((setDispatcher _ 0 {}).dispatchers index).todo.map _
      rw [todo_setDispatcher, if_neg hne]
      show row.outboxId ∉ ((setDispatcher _ 0 _).dispatchers index).todo.map _
      rw [todo_setDispatcher, if_neg hne]
      exact List.not_mem_nil
  · refine absurd hprocessing ?_
    revert row
    decide +kernel

/-! ## A slow publish, a take-over and a failure -/

/-- The first dispatcher claims a row and is slow to publish it; after five minutes the second one takes
the row over, publishes it and marks it. -/
def takeOver : List (OutboxMove ℕ Unit) :=
  [.enqueue 0 "alerts.events.v1" () 0,
    .dispatchBatch 0 0 100 fun _ => false,
    .publish 0,
    .dispatchBatch 1 (timedeltaSeconds 301) 100 fun _ => false,
    .publish 1,
    .finish 1 (.ok ()),
    .mark 1 (timedeltaSeconds 302)]

/-- The publish of the first dispatcher fails, and the row is claimed and published again. -/
def lateFailure : List (OutboxMove ℕ Unit) :=
  [.finish 0 (.error "KafkaTimeoutError()"),
    .mark 0 (timedeltaSeconds 303),
    .dispatchBatch 1 (timedeltaSeconds 304) 100 fun _ => false,
    .publish 1]

/-- The row was published; its status is overwritten, and its event is published once more. -/
theorem takeover_publishes_again :
    ¬ ∀ moves moves' : List (OutboxMove ℕ Unit),
      Terminal (run step {} moves) (run step {} (moves ++ moves')) := by
  intro hterminal
  have hpublished : ({
      outboxId := 0, topic := "alerts.events.v1", envelope := (), createdAt := 0
      status := .published, attempts := 2, claimedAt := some (timedeltaSeconds 301)
      publishedAt := some (timedeltaSeconds 302) } : OutboxRow ℕ Unit) ∈
        (run step {} takeOver).rows := by
    decide +kernel
  obtain ⟨-, hcount⟩ := hterminal takeOver lateFailure _ hpublished rfl
  revert hcount
  decide +kernel

end Outbox

end Streaming
end Scam2Market
