import Scam2Market.Library.Runs
import Scam2Market.Realtime.Broker

/-!
# What a subscriber is owed

* `RedisRealtimeBroker.InTime`: what a step must find for nothing to be missed.  Nothing beyond the
  cursor is cut off when it is read from; and `$`, which every read takes anew, is only read again when
  nothing was published in between.
* `InMemoryRealtimeBroker.InTime`: nothing is published while the subscriber goes through a list that
  the broker no longer holds.
* `nothing_missed`: in runs of such steps nothing is missed (`missed_silently` for runs of others).
-/

namespace Scam2Market
namespace Realtime

open Library (after Follows Always Throughout after_after after_append after_dropWhile after_eq_nil
  after_eq_of_suffix always_of_throughout)

variable {α : Type} {output : List (Output α)}

@[simp] theorem delivered_nil : delivered ([] : List (Output α)) = [] := rfl

@[simp] theorem delivered_event (entry : Entry α) :
    delivered (output ++ [.event entry]) = delivered output ++ [entry] := by
  simp [delivered]

@[simp] theorem delivered_heartbeat : delivered (output ++ [.heartbeat]) = delivered output := by
  simp [delivered]

@[simp] theorem delivered_reset (oldest : StreamId) (gap : StreamGap) :
    delivered (output ++ [.resetRequired oldest gap]) = [] := by
  simp [delivered]

/-- What is delivered comes first among the events beyond `p`, also when it is among them. -/
theorem after_isPrefix {p : StreamId} {seen published : List (Entry α)}
    (h : seen <+: after p published) : after p seen <+: after p published := by
  have hfilter := List.IsPrefix.filter (fun entry => decide (p < entry.1)) h
  rwa [← after, ← after, after_after le_rfl] at hfilter

/-! ## Redis -/

namespace RedisRealtimeBroker

variable {broker : RedisRealtimeBroker} {s : State α} {cursor : Cursor}

/-- Nothing is missed so far. -/
def Served (s : State α) : Prop :=
  NothingMissed s.stream.published s.output s.point

/-- What a step must find. -/
def InTime (broker : RedisRealtimeBroker) (s : State α) : Move α → Prop
  | .publish _ _ _ =>
    match s.phase with
    | .blocked _ _ => 0 < broker.maxLength
    | _ => True
  | .proceed =>
    match s.phase with
    | .looping cursor [] =>
      match cursor.id with
      | some id => ∀ entry ∈ s.stream.published, id < entry.1 → entry ∈ s.stream.entries
      | none => ∀ p ∈ s.point, after p s.stream.published = []
    | _ => True
  | .timeout => True

/-- The subscriber has seen what comes first among the events it is owed, up to where it stands. -/
def StandsAt (s : State α) (id : StreamId) : Prop :=
  ∃ p, s.point = some p ∧ Follows originId s.stream.published (delivered s.output) p id

/-- The subscriber has seen nothing, and is to yield what comes first. -/
def StandsAtPoint (s : State α) (pending : List (Entry α)) : Prop :=
  delivered s.output = [] ∧
    match s.point with
    | some p => p ≤ lastId s.stream.published ∧ pending <+: after p s.stream.published
    | none => pending = []

/-- The invariant: where the subscriber stands. -/
inductive Invariant (s : State α) : Prop
  | created {cursor : Cursor} (hphase : s.phase = .created cursor) (houtput : s.output = [])
      (hpoint : s.point = cursor.id)
  | looping {cursor : Cursor} {id : StreamId} {pending : List (Entry α)}
      (hphase : s.phase = .looping cursor pending) (hcursor : cursor.id = some id)
      (hstands : StandsAt s id) (hpending : pending <+: after id s.stream.published)
  | latest {pending : List (Entry α)} (hphase : s.phase = .looping .latest pending)
      (hstands : StandsAtPoint s pending)
  | blocked {cursor : Cursor} {id : StreamId} (hphase : s.phase = .blocked cursor id)
      (hstands : StandsAt s id) (hnothing : after id s.stream.published = [])
      (hcursor : ∀ id' ∈ cursor.id, id' = id)
      (hlatest : cursor = .latest → delivered s.output = [] ∧ id ≤ lastId s.stream.published)

theorem StandsAt.served {id : StreamId} (h : StandsAt s id) : Served s := by
  obtain ⟨p, hp, hfollows⟩ := h
  intro p' hp'
  obtain rfl := Option.some.inj (hp.symm.trans hp')
  exact after_isPrefix hfollows.isPrefix

theorem served_of_delivered_nil (h : delivered s.output = []) : Served s := by
  intro p _
  rw [h]
  exact List.nil_prefix

theorem Invariant.served (h : Invariant s) : Served s := by
  cases h with
  | created _ houtput _ => exact served_of_delivered_nil (houtput ▸ rfl)
  | looping _ _ hstands _ => exact hstands.served
  | latest _ hstands => exact served_of_delivered_nil hstands.1
  | blocked _ hstands _ _ _ => exact hstands.served

/-! ### Publishing -/

theorem lastId_lt_newEntry (stream : Stream α) (now : ℕ) (payload : α) :
    lastId stream.published < (stream.newEntry now payload).1 :=
  lt_nextId _ now

theorem StandsAt.add {id : StreamId} (h : StandsAt s id) (maxLength now : ℕ) (payload : α)
    (trimmed : ℕ) : StandsAt { s with stream := s.stream.add maxLength now payload trimmed } id := by
  obtain ⟨p, hp, hfollows⟩ := h
  exact ⟨p, hp, hfollows.append (lastId_lt_newEntry s.stream now payload)⟩

theorem isPrefix_add {stream : Stream α} {id : StreamId} {pending : List (Entry α)}
    (h : pending <+: after id stream.published) (maxLength now : ℕ) (payload : α) (trimmed : ℕ) :
    pending <+: after id (stream.add maxLength now payload trimmed).published := by
  have hgrows : after id (stream.add maxLength now payload trimmed).published =
      after id stream.published ++ after id [stream.newEntry now payload] := after_append _
  rw [hgrows]
  exact h.trans (List.prefix_append _ _)

theorem StandsAtPoint.add {pending : List (Entry α)} (h : StandsAtPoint s pending)
    (maxLength now : ℕ) (payload : α) (trimmed : ℕ) :
    StandsAtPoint { s with stream := s.stream.add maxLength now payload trimmed } pending := by
  obtain ⟨hnone, hpoint⟩ := h
  refine ⟨hnone, ?_⟩
  cases hp : s.point with
  | none =>
    rw [hp] at hpoint
    exact hpoint
  | some p =>
    rw [hp] at hpoint
    have hlast : lastId (s.stream.add maxLength now payload trimmed).published =
        (s.stream.newEntry now payload).1 := Library.lastKey_append originId
    refine ⟨?_, isPrefix_add hpoint.2 maxLength now payload trimmed⟩
    rw [hlast]
    exact hpoint.1.trans (lastId_lt_newEntry s.stream now payload).le

/-- A new entry is left in the stream. -/
theorem entries_add {stream : Stream α} {maxLength : ℕ} (hmax : 0 < maxLength) (now : ℕ) (payload : α)
    (trimmed : ℕ) : ∃ kept, kept <:+ stream.entries ∧
      (stream.add maxLength now payload trimmed).entries = kept ++ [stream.newEntry now payload] := by
  refine ⟨stream.entries.drop (min trimmed (stream.entries.length + 1 - maxLength)),
    List.drop_suffix _ _, ?_⟩
  exact List.drop_append_of_le_length (by omega)

/-- A subscriber that waits is served with the new entry. -/
theorem after_entries_add {stream : Stream α} {id : StreamId} {maxLength : ℕ} (hmax : 0 < maxLength)
    (hnothing : after id stream.published = []) (now : ℕ) (payload : α) (trimmed : ℕ) :
    after id (stream.add maxLength now payload trimmed).entries =
      after id (stream.add maxLength now payload trimmed).published := by
  obtain ⟨kept, hkept, hentries⟩ := entries_add hmax now payload trimmed
  have hnone : after id kept = [] := by
    refine after_eq_nil fun entry hentry => not_lt.mp fun hlt => ?_
    have hmem : entry ∈ after id stream.published :=
      Library.mem_after.mpr ⟨(hkept.trans stream.retained).subset hentry, hlt⟩
    rw [hnothing] at hmem
    exact List.not_mem_nil hmem
  have hpublished : after id (stream.add maxLength now payload trimmed).published =
      after id stream.published ++ after id [stream.newEntry now payload] := after_append _
  rw [hentries, after_append, hnone, hpublished, hnothing]

theorem lastId_le_add (stream : Stream α) (maxLength now : ℕ) (payload : α) (trimmed : ℕ) :
    lastId stream.published ≤ lastId (stream.add maxLength now payload trimmed).published := by
  have hlast : lastId (stream.add maxLength now payload trimmed).published =
      (stream.newEntry now payload).1 := Library.lastKey_append originId
  rw [hlast]
  exact (lastId_lt_newEntry stream now payload).le

theorem eq_latest_of_id (h : cursor.id = none) : cursor = .latest := by
  cases cursor with
  | latest => rfl
  | origin => cases h
  | beyond id => cases h

/-- A subscriber that has seen nothing, and stands where `$` was, is to yield what is beyond. -/
theorem StandsAt.atPoint {id : StreamId} (h : StandsAt s id) (hnone : delivered s.output = [])
    (hlast : id ≤ lastId s.stream.published) : StandsAtPoint s (after id s.stream.published) := by
  obtain ⟨p, hp, hfollows⟩ := h
  refine ⟨hnone, ?_⟩
  rw [hp]
  refine ⟨hfollows.le.trans hlast, ?_⟩
  have hall := hfollows.seen_append
  rw [hnone, List.nil_append] at hall
  rw [hall]

/-- A subscriber that has something to yield stands at the point. -/
theorem StandsAtPoint.standsAt {entry : Entry α} {pending : List (Entry α)}
    (h : StandsAtPoint s (entry :: pending)) :
    ∃ p, StandsAt s p ∧ entry :: pending <+: after p s.stream.published := by
  obtain ⟨hdelivered, hpoint⟩ := h
  cases hp : s.point with
  | none =>
    rw [hp] at hpoint
    cases hpoint
  | some p =>
    rw [hp] at hpoint
    refine ⟨p, ⟨p, hp, ?_⟩, hpoint.2⟩
    rw [hdelivered]
    exact Follows.begins _ _ _

/-- A subscriber whose read finds all that is beyond its cursor. -/
theorem invariant_read {id : StreamId} (hstands : StandsAt s id)
    (hcursor : ∀ id' ∈ cursor.id, id' = id)
    (hlatest : cursor = .latest → delivered s.output = [] ∧ id ≤ lastId s.stream.published)
    (hentries : after id s.stream.entries = after id s.stream.published) :
    Invariant (read s cursor id) := by
  rw [read, hentries]
  split_ifs with hnone
  · have hnothing : after id s.stream.published = [] := by
      rcases List.take_eq_nil_iff.mp hnone with hzero | hnil
      · cases hzero
      · exact hnil
    exact .blocked rfl hstands hnothing hcursor hlatest
  · have hpre : (after id s.stream.published).take 100 <+: after id s.stream.published :=
      List.take_prefix _ _
    cases hid : cursor.id with
    | some id' =>
      obtain rfl := hcursor id' hid
      exact .looping rfl hid hstands hpre
    | none =>
      obtain rfl := eq_latest_of_id hid
      obtain ⟨hdelivered, hlast⟩ := hlatest rfl
      obtain ⟨-, hpoint⟩ := hstands.atPoint hdelivered hlast
      obtain ⟨p, hp, -⟩ := hstands
      rw [hp] at hpoint
      refine .latest rfl ⟨hdelivered, ?_⟩
      rw [hp]
      exact ⟨hpoint.1, hpre.trans hpoint.2⟩

theorem invariant_publish (h : Invariant s) {now : ℕ} {payload : α} {trimmed : ℕ}
    (hintime : InTime broker s (.publish now payload trimmed)) :
    Invariant (broker.publish s now payload trimmed) := by
  cases h with
  | created hphase houtput hpoint =>
    simp only [publish, hphase]
    exact .created rfl houtput hpoint
  | looping hphase hcursor hstands hpending =>
    simp only [publish, hphase]
    exact .looping rfl hcursor (hstands.add _ _ _ _) (isPrefix_add hpending _ _ _ _)
  | latest hphase hstands =>
    simp only [publish, hphase]
    exact .latest rfl (hstands.add _ _ _ _)
  | blocked hphase hstands hnothing hcursor hlatest =>
    simp only [publish, hphase]
    simp only [InTime, hphase] at hintime
    refine invariant_read (hstands.add _ _ _ _) hcursor (fun h => ?_)
      (after_entries_add hintime hnothing now payload trimmed)
    obtain ⟨hdelivered, hlast⟩ := hlatest h
    exact ⟨hdelivered, hlast.trans (lastId_le_add s.stream broker.maxLength now payload trimmed)⟩

/-! ### Going on -/

theorem invariant_begin (houtput : s.output = []) (hpoint : s.point = cursor.id) :
    Invariant (begin s cursor) := by
  have hloop : Invariant { s with phase := .looping cursor [] } := by
    cases hid : cursor.id with
    | none =>
      obtain rfl := eq_latest_of_id hid
      refine .latest rfl ⟨houtput ▸ rfl, ?_⟩
      rw [hpoint]
      rfl
    | some id =>
      refine .looping rfl hid ⟨id, hpoint.trans hid, ?_⟩ List.nil_prefix
      rw [houtput]
      exact Follows.begins _ _ _
  cases cursor with
  | latest => exact hloop
  | origin => exact hloop
  | beyond id =>
    cases hhead : s.stream.entries.head? with
    | none =>
      simp only [begin, hhead]
      exact hloop
    | some oldest =>
      simp only [begin, hhead]
      split_ifs
      · exact .latest rfl ⟨delivered_reset _ _, rfl⟩
      · exact hloop

/-- The subscriber yields the next entry. -/
theorem invariant_yield {id : StreamId} {entry : Entry α} {pending : List (Entry α)}
    (hstands : StandsAt s id) (hpending : entry :: pending <+: after id s.stream.published) :
    Invariant { s with
      phase := .looping (.beyond entry.1) pending, output := s.output ++ [.event entry] } := by
  obtain ⟨p, hp, hfollows⟩ := hstands
  obtain ⟨hnext, hrest⟩ := hfollows.next s.stream.increasing hpending
  refine .looping rfl rfl ⟨p, hp, ?_⟩ hrest
  rw [delivered_event]
  exact hnext

/-- Where nothing is beyond the point, the subscriber can begin again at the end. -/
theorem follows_lastId {stream : Stream α} {p : StreamId} (hle : p ≤ lastId stream.published)
    (hnothing : after p stream.published = []) :
    Follows originId stream.published [] p (lastId stream.published) := by
  refine ⟨hle, Or.inr le_rfl, ?_⟩
  rw [List.nil_append, hnothing]
  exact after_eq_nil (stream.increasing.le_lastKey originId)

theorem invariant_proceed (h : Invariant s) (hintime : InTime broker s .proceed) :
    Invariant (proceed s) := by
  cases h with
  | created hphase houtput hpoint =>
    simp only [proceed, hphase]
    exact invariant_begin houtput hpoint
  | @looping cursor id pending hphase hcursor hstands hpending =>
    cases pending with
    | cons entry pending =>
      simp only [proceed, hphase]
      exact invariant_yield hstands hpending
    | nil =>
      simp only [InTime, hphase, hcursor] at hintime
      simp only [proceed, hphase, hcursor]
      refine invariant_read hstands (fun id' hid' => ?_) (fun hlatest => ?_)
        (after_eq_of_suffix s.stream.increasing s.stream.retained hintime)
      · exact Option.some.inj (hid'.symm.trans hcursor)
      · rw [hlatest] at hcursor
        cases hcursor
  | @latest pending hphase hstands =>
    cases pending with
    | cons entry pending =>
      obtain ⟨p, hstands, hpending⟩ := hstands.standsAt
      simp only [proceed, hphase]
      exact invariant_yield hstands hpending
    | nil =>
      obtain ⟨hdelivered, hpoint⟩ := hstands
      simp only [InTime, hphase, Cursor.id] at hintime
      simp only [proceed, hphase, Cursor.id]
      refine invariant_read ?_ (fun _ hid => absurd hid (Option.not_mem_none _))
        (fun _ => ⟨hdelivered, le_rfl⟩) ?_
      · cases hp : s.point with
        | none =>
          refine ⟨lastId s.stream.published, rfl, ?_⟩
          simp only [hdelivered]
          exact Follows.begins _ _ _
        | some p =>
          rw [hp] at hpoint
          refine ⟨p, rfl, ?_⟩
          simp only [hdelivered]
          exact follows_lastId hpoint.1 (hintime p hp)
      · refine after_eq_of_suffix s.stream.increasing s.stream.retained fun entry hentry hlt => ?_
        exact absurd hlt (not_lt.mpr (s.stream.increasing.le_lastKey originId entry hentry))
  | blocked hphase hstands hnothing hcursor hlatest =>
    simp only [proceed, hphase]
    exact .blocked hphase hstands hnothing hcursor hlatest

theorem invariant_timeout (h : Invariant s) : Invariant (timeout s) := by
  cases h with
  | created hphase houtput hpoint =>
    simp only [timeout, hphase]
    exact .created hphase houtput hpoint
  | looping hphase hcursor hstands hpending =>
    simp only [timeout, hphase]
    exact .looping hphase hcursor hstands hpending
  | latest hphase hstands =>
    simp only [timeout, hphase]
    exact .latest hphase hstands
  | @blocked cursor id hphase hstands hnothing hcursor hlatest =>
    simp only [timeout, hphase]
    cases hid : cursor.id with
    | some id' =>
      obtain rfl := hcursor id' hid
      obtain ⟨p, hp, hfollows⟩ := hstands
      refine .looping rfl hid ⟨p, hp, ?_⟩ List.nil_prefix
      rw [delivered_heartbeat]
      exact hfollows
    | none =>
      obtain rfl := eq_latest_of_id hid
      obtain ⟨hdelivered, hlast⟩ := hlatest rfl
      obtain ⟨-, hpoint⟩ := hstands.atPoint hdelivered hlast
      refine .latest rfl ⟨delivered_heartbeat.trans hdelivered, ?_⟩
      rwa [hnothing] at hpoint

theorem invariant_step (s : State α) (move : Move α) (h : Invariant s) (hintime : InTime broker s move) :
    Invariant (broker.step s move) := by
  cases move with
  | publish now payload trimmed => exact invariant_publish h hintime
  | proceed => exact invariant_proceed h hintime
  | timeout => exact invariant_timeout h

end RedisRealtimeBroker

/-! ## In memory -/

namespace InMemoryRealtimeBroker

variable {broker : InMemoryRealtimeBroker} {s : State α}

/-- Nothing is missed so far. -/
def Served (s : State α) : Prop :=
  NothingMissed s.events.published s.output s.point

/-- What a step must find. -/
def InTime (s : State α) : Move α → Prop
  | .publish _ =>
    match s.phase with
    | .replaying _ _ false => False
    | _ => True
  | .proceed =>
    match s.phase with
    | .created .origin => ∀ entry ∈ s.events.published, originId < entry.1 → entry ∈ s.events.history
    | _ => True

/-- What the subscriber is owed is what it was given and what it is to go through. -/
def Owed (s : State α) (p : StreamId) (items : List (Entry α)) : Prop :=
  s.point = some p ∧ after p (delivered s.output) ++ after p items = after p s.events.published

/-- The invariant: where the subscriber stands. -/
inductive Invariant (s : State α) : Prop
  | created {cursor : Cursor} (hphase : s.phase = .created cursor) (houtput : s.output = [])
      (hpoint : s.point = cursor.id)
  | reset (hphase : s.phase = .reset) (hdelivered : delivered s.output = []) (hpoint : s.point = none)
  | replaying {id : StreamId} {items : List (Entry α)} {live : Bool}
      (hphase : s.phase = .replaying id items live) (howed : Owed s id items)
  | queued {p : StreamId} {queue : List (Entry α)} (hphase : s.phase = .queued queue)
      (howed : Owed s p queue)

theorem Owed.served {p : StreamId} {items : List (Entry α)} (h : Owed s p items) : Served s := by
  intro p' hp'
  obtain rfl := Option.some.inj (h.1.symm.trans hp')
  exact ⟨_, h.2⟩

theorem Invariant.served (h : Invariant s) : Served s := by
  cases h with
  | created _ houtput _ =>
    intro p _
    rw [houtput]
    exact List.nil_prefix
  | reset _ _ hpoint =>
    intro p hp
    rw [hpoint] at hp
    cases hp
  | replaying _ howed => exact howed.served
  | queued _ howed => exact howed.served

/-- What is published is owed, and is put where the subscriber will find it. -/
theorem Owed.append {p : StreamId} {items : List (Entry α)} (h : Owed s p items) (payload : α)
    (phase : Phase α) :
    Owed { s with events := s.events.add broker.maxLength payload, phase := phase } p
      (items ++ [s.events.newItem payload]) := by
  obtain ⟨hpoint, howed⟩ := h
  refine ⟨hpoint, ?_⟩
  have hgrows : after p (s.events.add broker.maxLength payload).published =
      after p s.events.published ++ after p [s.events.newItem payload] := after_append _
  rw [hgrows, after_append, ← List.append_assoc, howed]

theorem invariant_publish (h : Invariant s) {payload : α} (hintime : InTime s (.publish payload)) :
    Invariant (broker.publish s payload) := by
  cases h with
  | created hphase houtput hpoint =>
    simp only [publish, hphase]
    exact .created rfl houtput hpoint
  | reset hphase hdelivered hpoint =>
    simp only [publish, hphase]
    exact .reset rfl hdelivered hpoint
  | @replaying id items live hphase howed =>
    cases live with
    | true =>
      simp only [publish, hphase]
      exact .replaying rfl (howed.append payload _)
    | false =>
      simp only [InTime, hphase] at hintime
  | queued hphase howed =>
    simp only [publish, hphase]
    exact .queued rfl (howed.append payload _)

/-- The subscriber takes the next item, or has gone through all of them. -/
theorem invariant_replay {id : StreamId} {items : List (Entry α)} {live : Bool} (h : Owed s id items) :
    Invariant (replay s id items live) := by
  obtain ⟨hpoint, howed⟩ := h
  rw [← after_dropWhile id items] at howed
  rw [replay]
  cases hrest : items.dropWhile fun item => item.1 ≤ id with
  | nil =>
    rw [hrest] at howed
    exact .queued rfl ⟨hpoint, howed⟩
  | cons item rest =>
    rw [hrest] at howed
    refine .replaying rfl ⟨hpoint, ?_⟩
    rw [delivered_event, after_append, List.append_assoc, ← after_append, List.singleton_append]
    exact howed

/-- A subscriber that has a queue from now on is owed what comes now. -/
theorem owed_now (hdelivered : delivered s.output = []) :
    Owed { s with phase := .queued [], point := some (lastId s.events.published) }
      (lastId s.events.published) [] := by
  refine ⟨rfl, ?_⟩
  have hnothing : after (lastId s.events.published) s.events.published = [] :=
    after_eq_nil (s.events.increasing.le_lastKey originId)
  rw [hdelivered, hnothing]
  rfl

/-- The history reaches back to the cursor. -/
theorem owed_history {id : StreamId} (houtput : s.output = []) (hpoint : s.point = some id)
    (hkept : ∀ entry ∈ s.events.published, id < entry.1 → entry ∈ s.events.history) :
    Owed s id s.events.history := by
  refine ⟨hpoint, ?_⟩
  rw [houtput, after_eq_of_suffix s.events.increasing s.events.retained hkept]
  rfl

/-- What is beyond a cursor that is not before the oldest item is in the history. -/
theorem mem_history {events : Events α} {id : StreamId} {oldest : Entry α}
    (hhead : events.history.head? = some oldest) (hle : oldest.1 ≤ id) :
    ∀ entry ∈ events.published, id < entry.1 → entry ∈ events.history := by
  intro entry hentry hlt
  obtain ⟨before, hbefore⟩ := events.retained
  have hincreasing := events.increasing
  rw [← hbefore] at hentry hincreasing
  rcases List.mem_append.mp hentry with hcut | hin
  · have holdest : entry.1 < oldest.1 :=
      (List.pairwise_append.mp hincreasing).2.2 entry hcut oldest (List.mem_of_mem_head? hhead)
    exact absurd (holdest.trans_le hle) (not_lt.mpr hlt.le)
  · exact hin

theorem invariant_begin {cursor : Cursor} (hphase : s.phase = .created cursor) (houtput : s.output = [])
    (hpoint : s.point = cursor.id) (hintime : InTime s .proceed) : Invariant (begin s cursor) := by
  cases cursor with
  | latest => exact .queued rfl (owed_now (houtput ▸ rfl))
  | origin =>
    simp only [InTime, hphase] at hintime
    exact invariant_replay (owed_history houtput hpoint hintime)
  | beyond id =>
    cases hhead : s.events.history.head? with
    | none =>
      simp only [begin, hhead]
      refine invariant_replay (owed_history houtput hpoint fun entry hentry => ?_)
      rw [s.events.history_ne_nil (List.head?_eq_none_iff.mp hhead)] at hentry
      exact absurd hentry List.not_mem_nil
    | some oldest =>
      simp only [begin, hhead]
      split_ifs with hgap
      · exact .reset rfl (delivered_reset _ _) rfl
      · exact invariant_replay
          (owed_history houtput hpoint (mem_history hhead (not_lt.mp hgap)))

theorem invariant_proceed (h : Invariant s) (hintime : InTime s .proceed) : Invariant (proceed s) := by
  cases h with
  | created hphase houtput hpoint =>
    simp only [proceed, hphase]
    exact invariant_begin hphase houtput hpoint hintime
  | reset hphase hdelivered hpoint =>
    simp only [proceed, hphase]
    exact .queued rfl (owed_now hdelivered)
  | replaying hphase howed =>
    simp only [proceed, hphase]
    exact invariant_replay howed
  | @queued p queue hphase howed =>
    cases queue with
    | nil =>
      simp only [proceed, hphase]
      exact .queued hphase howed
    | cons item queue =>
      simp only [proceed, hphase]
      refine .queued rfl ⟨howed.1, ?_⟩
      rw [delivered_event, after_append, List.append_assoc, ← after_append, List.singleton_append]
      exact howed.2

theorem invariant_step (s : State α) (move : Move α) (h : Invariant s) (hintime : InTime s move) :
    Invariant (broker.step s move) := by
  cases move with
  | publish payload => exact invariant_publish h hintime
  | proceed => exact invariant_proceed h hintime

end InMemoryRealtimeBroker

/-! ## Runs -/

/-- **In runs whose steps are in time, nothing is missed**, with Redis and in memory. -/
theorem nothing_missed (α : Type) :
    (∀ (broker : RedisRealtimeBroker) (stream : Stream α) (afterId : Cursor)
        (moves : List (RedisRealtimeBroker.Move α)),
      Throughout broker.step (RedisRealtimeBroker.InTime broker)
          (RedisRealtimeBroker.subscribe stream afterId) moves →
        Always broker.step RedisRealtimeBroker.Served
          (RedisRealtimeBroker.subscribe stream afterId) moves) ∧
      ∀ (broker : InMemoryRealtimeBroker) (events : InMemoryRealtimeBroker.Events α) (afterId : Cursor)
        (moves : List (InMemoryRealtimeBroker.Move α)),
      Throughout broker.step InMemoryRealtimeBroker.InTime
          (InMemoryRealtimeBroker.subscribe events afterId) moves →
        Always broker.step InMemoryRealtimeBroker.Served
          (InMemoryRealtimeBroker.subscribe events afterId) moves := by
  constructor
  · intro broker stream afterId moves hmoves
    exact always_of_throughout RedisRealtimeBroker.invariant_step
      (fun s h => RedisRealtimeBroker.Invariant.served h)
      (RedisRealtimeBroker.Invariant.created rfl rfl rfl) hmoves
  · intro broker events afterId moves hmoves
    exact always_of_throughout InMemoryRealtimeBroker.invariant_step
      (fun s h => InMemoryRealtimeBroker.Invariant.served h)
      (InMemoryRealtimeBroker.Invariant.created rfl rfl rfl) hmoves

/-- A subscriber with the cursor `$` that is served, and one in memory that replays the history. -/
theorem nothing_missed_alerts :
    Always (RedisRealtimeBroker.step {}) RedisRealtimeBroker.Served
        (RedisRealtimeBroker.subscribe {} .latest)
        [.proceed, .proceed, .timeout, .proceed, .publish 1 "a" 0, .proceed, .publish 2 "b" 0] ∧
      Always (InMemoryRealtimeBroker.step {}) InMemoryRealtimeBroker.Served
        (InMemoryRealtimeBroker.subscribe {} .origin)
        [.publish "a", .publish "b", .proceed, .publish "c", .proceed, .proceed] :=
  ⟨(nothing_missed String).1 _ _ _ _
      ⟨trivial, fun _ _ => rfl, trivial, fun _ _ => rfl, Nat.succ_pos _, trivial, trivial,
        trivial⟩,
    (nothing_missed String).2 _ _ _ _
      ⟨trivial, trivial, fun _ h _ => h, trivial, trivial, trivial, trivial⟩⟩

/-- **Events are missed silently**: the first, which is published while a heartbeat is handled, by a
subscriber with the cursor `$`; the second, which is cut off between two reads; and the third, in
memory, which is published after the list that is replayed was replaced. -/
theorem missed_silently :
    ¬ Always (RedisRealtimeBroker.step {}) RedisRealtimeBroker.Served
        (RedisRealtimeBroker.subscribe {} .latest)
        [.proceed, .proceed, .timeout, .publish 1 "a" 0, .proceed, .publish 2 "b" 0, .proceed] ∧
      ¬ Always (RedisRealtimeBroker.step ⟨1⟩) RedisRealtimeBroker.Served
        (RedisRealtimeBroker.subscribe {} .origin)
        [.publish 1 "a" 0, .proceed, .proceed, .proceed, .publish 2 "b" 0, .publish 3 "c" 2, .proceed,
          .proceed] ∧
      ¬ Always (InMemoryRealtimeBroker.step ⟨some 1⟩) InMemoryRealtimeBroker.Served
        (InMemoryRealtimeBroker.subscribe {} .origin)
        [.publish "a", .proceed, .publish "b", .publish "c", .proceed, .proceed, .publish "d",
          .proceed] := by
  refine ⟨fun h => ?_, fun h => ?_, fun h => ?_⟩
  · exact absurd (h.final originId rfl) (by decide +kernel)
  · exact absurd (h.final originId rfl) (by decide +kernel)
  · exact absurd (h.final originId rfl) (by decide +kernel)

end Realtime
end Scam2Market
