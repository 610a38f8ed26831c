import Mathlib.Data.Prod.Lex
import Scam2Market.Library.EventLog

/-!
# Realtime brokers

`RedisRealtimeBroker` and `InMemoryRealtimeBroker` of `realtime.py` with one subscriber.  The subscriber
is a generator: it stands where it is suspended, at a `yield` or at an `await`, and a step takes it to
the next such place.  Events are published between any two of its steps.

* A cursor is `$`, `0-0`, or another text of an identifier; it stands for the identifier.
* `Stream`: what Redis holds under the key.  `XADD` makes an identifier from the clock and may cut off
  old entries as long as `maxLength` are left; a reader that waits is served at once.  `published` is
  every entry that was ever added, of which `entries` are left.
* `point`: where the subscriber begins to be owed events, the given cursor or what was last when its
  first read was issued.  A reset takes it back.
-/

namespace Scam2Market
namespace Realtime

open Library (after Increasing lastKey)

variable {α : Type}

/-- `_stream_id(value)`. -/
abbrev StreamId := ℕ ×ₗ ℕ

/-- An entry of a stream, with its event. -/
abbrev Entry (α : Type) := StreamId × α

/-- `0-0`. -/
def originId : StreamId :=
  toLex (0, 0)

/-- `after_id` and `cursor`. -/
inductive Cursor where
  | latest
  | origin
  | beyond (id : StreamId)
  deriving DecidableEq

/-- The identifier of a cursor other than `$`. -/
def Cursor.id : Cursor → Option StreamId
  | latest => none
  | origin => some originId
  | beyond id => some id

/-- `_stream_gap(requested_cursor, oldest_available_cursor)`. -/
structure StreamGap where
  eventType : String := "stream.reset_required"
  reason : String := "CURSOR_TRIMMED"
  requestedCursor : StreamId
  oldestAvailableCursor : StreamId
  snapshotEndpoint : String := "/api/v1/alerts?status=ACTIVE"
  deriving DecidableEq

/-- What a subscription yields. -/
inductive Output (α : Type) where
  | event (entry : Entry α)
  | heartbeat
  | resetRequired (oldest : StreamId) (gap : StreamGap)
  deriving DecidableEq

/-- The events that are yielded after the last reset. -/
def delivered (output : List (Output α)) : List (Entry α) :=
  output.foldl (fun events item =>
    match item with
    | .event entry => events ++ [entry]
    | .heartbeat => events
    | .resetRequired _ _ => []) []

/-- The identifier of the last entry. -/
def lastId (published : List (Entry α)) : StreamId :=
  lastKey originId published

/-- **Nothing is missed**: what is yielded of the events that are owed is what comes first among them. -/
def NothingMissed (published : List (Entry α)) (output : List (Output α))
    (point : Option StreamId) : Prop :=
  ∀ p ∈ point, after p (delivered output) <+: after p published

/-! ## Redis -/

/-- The identifier that `XADD` makes when the clock shows `now`. -/
def nextId (last : StreamId) (now : ℕ) : StreamId :=
  if (ofLex last).1 < now then toLex (now, 0) else toLex ((ofLex last).1, (ofLex last).2 + 1)

theorem lt_nextId (last : StreamId) (now : ℕ) : last < nextId last now := by
  rw [nextId]
  split_ifs with h
  · exact Prod.Lex.toLex_lt_toLex.mpr (Or.inl h)
  · exact Prod.Lex.toLex_lt_toLex.mpr (Or.inr ⟨rfl, Nat.lt_succ_self _⟩)

/-- A stream of Redis. -/
structure Stream (α : Type) where
  published : List (Entry α) := []
  entries : List (Entry α) := []
  increasing : Increasing published := by exact List.Pairwise.nil
  retained : entries <:+ published := by exact List.suffix_refl []

namespace Stream

variable (stream : Stream α)

/-- The entry that `XADD` adds. -/
def newEntry (now : ℕ) (payload : α) : Entry α :=
  (nextId (lastId stream.published) now, payload)

theorem lt_newEntry (now : ℕ) (payload : α) :
    ∀ entry ∈ stream.published, entry.1 < (stream.newEntry now payload).1 :=
  fun entry hentry =>
    (stream.increasing.le_lastKey originId entry hentry).trans_lt (lt_nextId _ now)

/-- `XADD key MAXLEN ~ maxLength * event payload`, which cuts off some of the entries in excess. -/
def add (maxLength now : ℕ) (payload : α) (trimmed : ℕ) : Stream α where
  published := stream.published ++ [stream.newEntry now payload]
  entries := (stream.entries ++ [stream.newEntry now payload]).drop
    (min trimmed (stream.entries.length + 1 - maxLength))
  increasing := stream.increasing.append (stream.lt_newEntry now payload)
  retained := by
    obtain ⟨cut, hcut⟩ := stream.retained
    refine (List.drop_suffix _ _).trans ⟨cut, ?_⟩
    rw [← List.append_assoc, hcut]

end Stream

/-- `RedisRealtimeBroker(redis_url, stream_key, max_length)`. -/
structure RedisRealtimeBroker where
  maxLength : ℕ := 10000

namespace RedisRealtimeBroker

/-- Where the subscriber stands: not begun; in the loop, with entries of its last read still to yield;
or waiting for entries beyond an identifier. -/
inductive Phase (α : Type) where
  | created (cursor : Cursor)
  | looping (cursor : Cursor) (pending : List (Entry α))
  | blocked (cursor : Cursor) (id : StreamId)

structure State (α : Type) where
  stream : Stream α
  phase : Phase α
  output : List (Output α) := []
  point : Option StreamId

/-- `subscribe(after_id)`. -/
def subscribe (stream : Stream α) (afterId : Cursor) : State α where
  stream := stream
  phase := .created afterId
  point := afterId.id

/-- An event is published, the subscriber goes on, or its read times out. -/
inductive Move (α : Type) where
  | publish (now : ℕ) (payload : α) (trimmed : ℕ)
  | proceed
  | timeout

variable (broker : RedisRealtimeBroker) (s : State α)

/-- `XREAD COUNT 100 BLOCK 15000 STREAMS key cursor`, of which the cursor stands for the identifier: the
entries beyond it, or waiting for them. -/
def read (cursor : Cursor) (id : StreamId) : State α :=
  if (after id s.stream.entries).take 100 = [] then { s with phase := .blocked cursor id }
  else { s with phase := .looping cursor ((after id s.stream.entries).take 100) }

/-- `publish(payload)`; a subscriber that waits is served. -/
def publish (now : ℕ) (payload : α) (trimmed : ℕ) : State α :=
  let added := { s with stream := s.stream.add broker.maxLength now payload trimmed }
  match s.phase with
  | .blocked cursor id => read added cursor id
  | _ => added

/-- The subscriber begins: `XRANGE key - + COUNT 1`, unless the cursor is `$` or `0-0`. -/
def begin (cursor : Cursor) : State α :=
  match cursor, s.stream.entries.head? with
  | .beyond id, some oldest =>
    if id < oldest.1 then
      { s with
        phase := .looping .latest []
        output := s.output ++ [.resetRequired oldest.1
          { requestedCursor := id, oldestAvailableCursor := oldest.1 }]
        point := none }
    else { s with phase := .looping cursor [] }
  | _, _ => { s with phase := .looping cursor [] }

/-- The subscriber goes on: it yields the next entry of the last read, or reads again. -/
def proceed : State α :=
  match s.phase with
  | .created cursor => begin s cursor
  | .looping _ (entry :: pending) =>
    { s with
      phase := .looping (.beyond entry.1) pending
      output := s.output ++ [.event entry] }
  | .looping cursor [] =>
    match cursor.id with
    | some id => read s cursor id
    | none =>
      read { s with point := some (s.point.getD (lastId s.stream.published)) } cursor
        (lastId s.stream.published)
  | .blocked _ _ => s

/-- The read of the subscriber times out. -/
def timeout : State α :=
  match s.phase with
  | .blocked cursor _ =>
    { s with phase := .looping cursor [], output := s.output ++ [.heartbeat] }
  | _ => s

/-- A move. -/
def step : Move α → State α
  | .publish now payload trimmed => broker.publish s now payload trimmed
  | .proceed => proceed s
  | .timeout => timeout s

end RedisRealtimeBroker

/-! ## In memory -/

/-- `InMemoryRealtimeBroker(max_length)`. -/
structure InMemoryRealtimeBroker where
  maxLength : Option ℕ := none

namespace InMemoryRealtimeBroker

/-- What the broker holds.  The events that were ever published have the identifiers before the next. -/
structure Events (α : Type) where
  published : List (Entry α) := []
  history : List (Entry α) := []
  nextId : ℕ := 1
  increasing : Increasing published := by exact List.Pairwise.nil
  retained : history <:+ published := by exact List.suffix_refl []
  lt_nextId : ∀ entry ∈ published, entry.1 < toLex (nextId, 0) := by simp
  history_ne_nil : history = [] → published = [] := by simp

/-- Where the subscriber stands: not begun; at the `yield` of the gap; in the loop over the history, of
which it has some items left, while the list is still the history of the broker (`live`) or no longer;
or at its queue. -/
inductive Phase (α : Type) where
  | created (cursor : Cursor)
  | reset
  | replaying (id : StreamId) (items : List (Entry α)) (live : Bool)
  | queued (queue : List (Entry α))

structure State (α : Type) where
  events : Events α
  phase : Phase α
  output : List (Output α) := []
  point : Option StreamId

/-- `subscribe(after_id)`. -/
def subscribe (events : Events α) (afterId : Cursor) : State α where
  events := events
  phase := .created afterId
  point := afterId.id

/-- An event is published, or the subscriber goes on. -/
inductive Move (α : Type) where
  | publish (payload : α)
  | proceed

/-- `history[-bound:]`, which for zero is all of it. -/
def lastItems (bound : ℕ) (history : List (Entry α)) : List (Entry α) :=
  if bound = 0 then history else history.drop (history.length - bound)

/-- The list that replaces a history that is too long. -/
def cut (maxLength : Option ℕ) (history : List (Entry α)) : Option (List (Entry α)) :=
  match maxLength with
  | some bound => if bound < history.length then some (lastItems bound history) else none
  | none => none

theorem cut_suffix {maxLength : Option ℕ} {history kept : List (Entry α)}
    (h : cut maxLength history = some kept) : kept <:+ history ∧ kept ≠ [] := by
  cases maxLength with
  | none => cases h
  | some bound =>
    rw [cut] at h
    split_ifs at h with hlong
    obtain rfl := Option.some.inj h
    rw [lastItems]
    split_ifs with hzero
    · exact ⟨List.suffix_refl _, List.length_pos_iff.mp (Nat.zero_lt_of_lt hlong)⟩
    · refine ⟨List.drop_suffix _ _, List.length_pos_iff.mp ?_⟩
      rw [List.length_drop]
      omega

namespace Events

variable (events : Events α)

/-- `item`. -/
def newItem (payload : α) : Entry α :=
  (toLex (events.nextId, 0), payload)

/-- The history after an event is published. -/
def nextHistory (maxLength : Option ℕ) (payload : α) : List (Entry α) :=
  (cut maxLength (events.history ++ [events.newItem payload])).getD
    (events.history ++ [events.newItem payload])

theorem nextHistory_suffix (maxLength : Option ℕ) (payload : α) :
    events.nextHistory maxLength payload <:+ events.history ++ [events.newItem payload] ∧
      events.nextHistory maxLength payload ≠ [] := by
  rw [nextHistory]
  cases hcut : cut maxLength (events.history ++ [events.newItem payload]) with
  | none => exact ⟨List.suffix_refl _, List.append_ne_nil_of_right_ne_nil _ (List.cons_ne_nil _ _)⟩
  | some kept => exact cut_suffix hcut

/-- An event is added to the history, which is cut. -/
def add (maxLength : Option ℕ) (payload : α) : Events α where
  published := events.published ++ [events.newItem payload]
  history := events.nextHistory maxLength payload
  nextId := events.nextId + 1
  increasing := events.increasing.append events.lt_nextId
  retained := by
    obtain ⟨before, hbefore⟩ := events.retained
    refine (events.nextHistory_suffix maxLength payload).1.trans ⟨before, ?_⟩
    rw [← List.append_assoc, hbefore]
  lt_nextId := by
    have hnext : toLex (events.nextId, 0) < toLex (events.nextId + 1, 0) :=
      Prod.Lex.toLex_lt_toLex.mpr (Or.inl (Nat.lt_succ_self _))
    intro entry hentry
    rcases List.mem_append.mp hentry with hold | hnew
    · exact (events.lt_nextId entry hold).trans hnext
    · rw [List.mem_singleton.mp hnew]
      exact hnext
  history_ne_nil h := absurd h (events.nextHistory_suffix maxLength payload).2

end Events

variable (broker : InMemoryRealtimeBroker) (s : State α)

/-- `publish(payload)`: the loop over the history sees what is added to its own list. -/
def publish (payload : α) : State α :=
  let appended := s.events.history ++ [s.events.newItem payload]
  { s with
    events := s.events.add broker.maxLength payload
    phase :=
      match s.phase with
      | .replaying id items true =>
        .replaying id (items ++ [s.events.newItem payload]) (cut broker.maxLength appended).isNone
      | .queued queue => .queued (queue ++ [s.events.newItem payload])
      | phase => phase }

/-- The subscriber looks for the next item of the list that is beyond its cursor; when there is none, it
has a queue from now on. -/
def replay (id : StreamId) (items : List (Entry α)) (live : Bool) : State α :=
  match items.dropWhile fun item => item.1 ≤ id with
  | item :: rest =>
    { s with phase := .replaying id rest live, output := s.output ++ [.event item] }
  | [] => { s with phase := .queued [] }

/-- The subscriber begins: it looks whether the history still reaches back to its cursor. -/
def begin (cursor : Cursor) : State α :=
  match cursor, s.events.history.head? with
  | .latest, _ =>
    { s with phase := .queued [], point := some (lastId s.events.published) }
  | .origin, _ => replay s originId s.events.history true
  | .beyond id, some oldest =>
    if id < oldest.1 then
      { s with
        phase := .reset
        output := s.output ++ [.resetRequired oldest.1
          { requestedCursor := id, oldestAvailableCursor := oldest.1 }]
        point := none }
    else replay s id s.events.history true
  | .beyond id, none => replay s id s.events.history true

/-- The subscriber goes on. -/
def proceed : State α :=
  match s.phase with
  | .created cursor => begin s cursor
  | .reset => { s with phase := .queued [], point := some (lastId s.events.published) }
  | .replaying id items live => replay s id items live
  | .queued (item :: queue) =>
    { s with phase := .queued queue, output := s.output ++ [.event item] }
  | .queued [] => s

/-- A move. -/
def step : Move α → State α
  | .publish payload => broker.publish s payload
  | .proceed => proceed s

end InMemoryRealtimeBroker
end Realtime
end Scam2Market
