import Scam2Market.Streaming.Outbox

/-!
# What is published was delivered

A row is marked published after the publisher has returned, by any of the dispatchers, in whatever order
their steps come.

* `publishing?`: the message of a dispatcher whose publish is under way.
* `Outbox.Honest`: what the dispatchers hold are messages of the table, and what a publish has returned
  for, or a row that is published, was delivered.
* `Honest.step`: every step keeps it, when a publish that returns has delivered.
-/

namespace Scam2Market
namespace Streaming

open Library

namespace Outbox

open SqlOutboxRepository

variable {ι ε : Type}

/-- The message that a dispatcher is publishing. -/
def publishing? (s : Outbox ι ε) (index : ℕ) : Option (OutboxMessage ι ε) :=
  match s.dispatchers index with
  | { todo := message :: _, phase := .publishing, .. } => some message
  | _ => none

/-- What the table and the dispatchers say of the deliveries. -/
structure Honest (delivered : OutboxMessage ι ε → Prop) (s : Outbox ι ε) : Prop where
  distinct : (s.rows.map OutboxRow.outboxId).Nodup
  known : ∀ index, ∀ held ∈ (s.dispatchers index).todo, held ∈ s.rows.map message
  returned : ∀ index held, (s.dispatchers index).todo.head? = some held →
    (s.dispatchers index).phase = .returned → delivered held
  published : ∀ row ∈ s.rows, row.status = .published → delivered (message row)

variable {delivered delivered' : OutboxMessage ι ε → Prop} {s s' : Outbox ι ε}

theorem honest_initial : Honest delivered ({} : Outbox ι ε) where
  distinct := List.nodup_nil
  known _ _ hheld := absurd hheld List.not_mem_nil
  returned _ _ hhead _ := by cases hhead
  published _ hrow := absurd hrow List.not_mem_nil

theorem Honest.mono (h : Honest delivered s) (hmono : ∀ held, delivered held → delivered' held) :
    Honest delivered' s where
  distinct := h.distinct
  known := h.known
  returned index held hhead hphase := hmono held (h.returned index held hhead hphase)
  published row hrow hstatus := hmono _ (h.published row hrow hstatus)

/-- A message of the table has the row of its key. -/
theorem Honest.message_eq (h : Honest delivered s) {held : OutboxMessage ι ε} {row : OutboxRow ι ε}
    (hheld : held ∈ s.rows.map message) (hrow : row ∈ s.rows) (hid : row.outboxId = held.outboxId) :
    message row = held := by
  obtain ⟨row', hrow', rfl⟩ := List.mem_map.mp hheld
  rw [eq_of_key_eq h.distinct hrow hrow' hid]

/-! ## Rows -/

/-- The messages after a rewriting. -/
theorem map_message_updateWhere {p : OutboxRow ι ε → Bool} {f : OutboxRow ι ε → OutboxRow ι ε}
    {rows : List (OutboxRow ι ε)} (hmessage : ∀ row, message (f row) = message row) :
    (updateWhere p f rows).map message = rows.map message :=
  map_updateWhere hmessage

theorem map_outboxId_of_messages {rows rows' : List (OutboxRow ι ε)}
    (h : rows'.map message = rows.map message) :
    rows'.map OutboxRow.outboxId = rows.map OutboxRow.outboxId := by
  have hid : OutboxRow.outboxId = OutboxMessage.outboxId ∘ @message ι ε := rfl
  rw [hid, ← List.map_map, ← List.map_map, h]

/-- A rewriting of the rows, whose new published rows were delivered. -/
theorem Honest.rewrite (h : Honest delivered s) {p : OutboxRow ι ε → Bool}
    {f : OutboxRow ι ε → OutboxRow ι ε} (hmessage : ∀ row, message (f row) = message row)
    (hpublished : ∀ row ∈ s.rows, p row = true → (f row).status = .published →
      delivered (message row)) :
    Honest delivered { s with rows := updateWhere p f s.rows } where
  distinct := by
    rw [map_outboxId_of_messages (map_message_updateWhere hmessage)]
    exact h.distinct
  known index held hheld := by
    rw [map_message_updateWhere hmessage]
    exact h.known index held hheld
  returned := h.returned
  published row hrow hstatus := by
    obtain ⟨before, hbefore, rfl⟩ := mem_updateWhere.mp hrow
    split_ifs at hstatus ⊢ with hp
    · rw [hmessage]
      exact hpublished before hbefore hp hstatus
    · exact h.published before hbefore hstatus

/-- A dispatcher goes on with messages of the table. -/
theorem Honest.setDispatcher (h : Honest delivered s) {index : ℕ} {dispatcher : Dispatcher ι ε}
    (hknown : ∀ held ∈ dispatcher.todo, held ∈ s.rows.map message)
    (hreturned : ∀ held, dispatcher.todo.head? = some held → dispatcher.phase = .returned →
      delivered held) : Honest delivered (s.setDispatcher index dispatcher) where
  distinct := h.distinct
  known index' held hheld := by
    rw [todo_setDispatcher] at hheld
    split_ifs at hheld
    · exact hknown held hheld
    · exact h.known index' held hheld
  returned index' held hhead hphase := by
    by_cases hindex : index' = index
    · have hself : (s.setDispatcher index dispatcher).dispatchers index' = dispatcher := by
        rw [hindex]
        exact Function.update_self _ _ _
      rw [hself] at hhead hphase
      exact hreturned held hhead hphase
    · have hother : (s.setDispatcher index dispatcher).dispatchers index' = s.dispatchers index' :=
        Function.update_of_ne hindex _ _
      rw [hother] at hhead hphase
      exact h.returned index' held hhead hphase
  published := h.published

/-! ## Steps -/

variable [DecidableEq ι]

theorem Honest.enqueue (h : Honest delivered s) (outboxId : ι) (topic : String) (envelope : ε)
    (createdAt : Datetime) : Honest delivered (s.enqueue outboxId topic envelope createdAt) := by
  unfold Outbox.enqueue
  split_ifs with hknown
  · exact h
  · refine ⟨?_, fun index held hheld => ?_, h.returned, fun row hrow hstatus => ?_⟩
    · rw [List.map_append, List.nodup_append']
      exact ⟨h.distinct, List.nodup_singleton _, List.disjoint_singleton.mpr hknown⟩
    · rw [List.map_append]
      exact List.mem_append_left _ (h.known index held hheld)
    · rcases List.mem_append.mp hrow with hold | hnew
      · exact h.published row hold hstatus
      · rw [List.mem_singleton.mp hnew] at hstatus
        cases hstatus

theorem Honest.dispatchBatch (h : Honest delivered s) (index : ℕ) (now : Datetime) (limit : ℕ)
    (locked : ι → Bool) : Honest delivered (s.dispatchBatch index now limit locked) := by
  unfold Outbox.dispatchBatch
  split
  case h_2 => exact h
  case h_1 hidle =>
    have hrows : Honest delivered { s with rows := (pending now limit locked s.rows).2 } :=
      h.rewrite (fun _ => rfl) fun _ _ _ hstatus => by cases hstatus
    refine hrows.setDispatcher (fun held hheld => ?_) fun held _ hphase => by cases hphase
    obtain ⟨row, hrow, rfl⟩ := List.mem_map.mp hheld
    have hmem : message row ∈ s.rows.map message := List.mem_map_of_mem (of_mem_claimed hrow).1
    show message row ∈ (updateWhere _ (claim now) s.rows).map message
    rw [map_message_updateWhere]
    · exact hmem
    · exact fun _ => rfl

omit [DecidableEq ι] in
theorem Honest.publish (h : Honest delivered s) (index : ℕ) : Honest delivered (s.publish index) := by
  unfold Outbox.publish
  split
  case h_2 => exact h
  case h_1 held rest published hdispatcher =>
    have hcalled : Honest delivered { s with publications := s.publications ++ [held.outboxId] } :=
      ⟨h.distinct, h.known, h.returned, h.published⟩
    refine hcalled.setDispatcher (fun other hother => ?_) fun _ _ hphase => by cases hphase
    refine h.known index other ?_
    rw [hdispatcher]
    exact hother

omit [DecidableEq ι] in
/-- A publish returns after it has delivered. -/
theorem Honest.finish (h : Honest delivered s) (index : ℕ) (outcome : Except String Unit)
    (hdelivers : ∀ held, outcome = .ok () → s.publishing? index = some held → delivered held) :
    Honest delivered (s.finish index outcome) := by
  unfold Outbox.finish
  split
  case h_2 => exact h
  case h_1 todo published hdispatcher =>
    refine h.setDispatcher (fun held hheld => ?_) fun held hhead hphase => ?_
    · refine h.known index held ?_
      rw [hdispatcher]
      exact hheld
    · cases outcome with
      | error error => cases hphase
      | ok done =>
        refine hdelivers held rfl ?_
        obtain ⟨rest, rfl⟩ : ∃ rest, todo = held :: rest := by
          cases todo with
          | nil => cases hhead
          | cons first rest => exact ⟨rest, by rw [Option.some.inj hhead]⟩
        rw [publishing?, hdispatcher]

theorem Honest.mark (h : Honest delivered s) (index : ℕ) (now : Datetime) :
    Honest delivered (s.mark index now) := by
  have hrest : ∀ {held : OutboxMessage ι ε} {rest : List (OutboxMessage ι ε)},
      (s.dispatchers index).todo = held :: rest → ∀ other ∈ rest, other ∈ s.rows.map message :=
    fun htodo other hother => h.known index other (htodo ▸ List.mem_cons_of_mem _ hother)
  unfold Outbox.mark
  split
  case h_1 held rest published hdispatcher =>
    have htodo : (s.dispatchers index).todo = held :: rest := by rw [hdispatcher]
    have hdelivered : delivered held :=
      h.returned index held (by rw [htodo, List.head?_cons]) (by rw [hdispatcher])
    have hrows : Honest delivered { s with rows := markPublished now held.outboxId s.rows } := by
      refine h.rewrite (fun _ => rfl) fun row hrow hfound _ => ?_
      rw [h.message_eq (h.known index held (htodo ▸ List.mem_cons_self)) hrow
        (of_decide_eq_true hfound)]
      exact hdelivered
    refine hrows.setDispatcher (fun other hother => ?_) fun _ _ hphase => by cases hphase
    show other ∈ (updateWhere _ _ s.rows).map message
    rw [map_message_updateWhere]
    · exact hrest htodo other hother
    · exact fun _ => rfl
  case h_2 held rest error published hdispatcher =>
    have htodo : (s.dispatchers index).todo = held :: rest := by rw [hdispatcher]
    have hrows : Honest delivered
        { s with rows := markFailed held.outboxId (some error) s.rows } :=
      h.rewrite (fun _ => rfl) fun _ _ _ hstatus => by cases hstatus
    refine hrows.setDispatcher (fun other hother => ?_) fun _ _ hphase => by cases hphase
    show other ∈ (updateWhere _ _ s.rows).map message
    rw [map_message_updateWhere]
    · exact hrest htodo other hother
    · exact fun _ => rfl
  case h_3 => exact h

/-- **Every step is honest**, when a publish that returns has delivered. -/
theorem Honest.step (h : Honest delivered s) (move : OutboxMove ι ε)
    (hdelivers : ∀ index held, move = .finish index (.ok ()) → s.publishing? index = some held →
      delivered held) : Honest delivered (s.step move) := by
  cases move with
  | enqueue outboxId topic envelope createdAt => exact h.enqueue outboxId topic envelope createdAt
  | dispatchBatch index now limit locked => exact h.dispatchBatch index now limit locked
  | publish index => exact h.publish index
  | finish index outcome =>
    exact h.finish index outcome fun held hok hheld => hdelivers index held (hok ▸ rfl) hheld
  | mark index now => exact h.mark index now
  | crash index =>
    exact h.setDispatcher (fun _ hheld => absurd hheld List.not_mem_nil)
      fun _ hhead _ => by cases hhead

/-! ## The messages of the table -/

/-- Only `enqueue` adds a message. -/
theorem messages_step (s : Outbox ι ε) (move : OutboxMove ι ε)
    (hmove : ∀ outboxId topic envelope createdAt,
      move ≠ .enqueue outboxId topic envelope createdAt) :
    (s.step move).rows.map message = s.rows.map message := by
  cases move with
  | enqueue outboxId topic envelope createdAt =>
    exact absurd rfl (hmove outboxId topic envelope createdAt)
  | dispatchBatch index now limit locked =>
    show (s.dispatchBatch index now limit locked).rows.map message = _
    unfold Outbox.dispatchBatch
    split
    · exact map_message_updateWhere fun _ => rfl
    · rfl
  | publish index =>
    show (s.publish index).rows.map message = _
    unfold Outbox.publish
    split <;> rfl
  | finish index outcome =>
    show (s.finish index outcome).rows.map message = _
    unfold Outbox.finish
    split <;> rfl
  | mark index now =>
    show (s.mark index now).rows.map message = _
    unfold Outbox.mark
    split
    · exact map_message_updateWhere fun _ => rfl
    · exact map_message_updateWhere fun _ => rfl
    · rfl
  | crash index => rfl

end Outbox

end Streaming
end Scam2Market
