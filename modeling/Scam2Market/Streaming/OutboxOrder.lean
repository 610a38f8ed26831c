import Scam2Market.Streaming.Outbox

/-!
# The order of an asset's events in the outbox

One dispatcher, over an outbox whose rows of one partition key are added in the order of their times.  A
publish that fails is left for a later batch, and the batch goes on.

* `DispatchLog`: the outbox, and the rows whose publish has returned.
* `InOrder`: rows of one key are published for the first time in the order of their times.
* `KeepsOrder`: no publish returns while an earlier row of the key waits for its next attempt.
* `Sound`: a row is claimed no sooner than the rows before it; what stands before a published row was
  published or is given up.
* `publishes_in_order`: with the condition on every step, the property holds in every state.
* `failed_event_overtaken`: an event that fails, with one of its key behind it.
-/

namespace Scam2Market
namespace Streaming

open Library SqlOutboxRepository

variable {ι ε κ : Type}

/-- Rows of one key, the first with the earlier time. -/
def OutboxRow.Before (keyOf : ε → κ) (row row' : OutboxRow ι ε) : Prop :=
  keyOf row.envelope = keyOf row'.envelope ∧ row.createdAt < row'.createdAt

/-- The row whose event the publisher was given, and did not return. -/
def Dispatcher.publishing : Dispatcher ι ε → List ι
  | { todo := message :: _, phase := .publishing, published := _ } => [message.outboxId]
  | _ => []

instance [DecidableEq κ] (keyOf : ε → κ) (row row' : OutboxRow ι ε) :
    Decidable (row.Before keyOf row') :=
  inferInstanceAs (Decidable (_ ∧ _))

/-- The outbox, and the rows whose publish has returned, in that order. -/
structure DispatchLog (ι ε : Type) extends Outbox ι ε where
  delivered : List ι := []

namespace DispatchLog

/-- The row whose publish returns with a step. -/
def returnedBy (s : Outbox ι ε) : OutboxMove ι ε → List ι
  | .finish index (.ok ()) => (s.dispatchers index).publishing
  | _ => []

/-- What a single dispatcher does, and rows that are added in the order of their times. -/
def Single (keyOf : ε → κ) (s : DispatchLog ι ε) : OutboxMove ι ε → Prop
  | .enqueue _ _ envelope createdAt =>
    ∀ row ∈ s.rows, keyOf row.envelope = keyOf envelope → row.createdAt < createdAt
  | .dispatchBatch index _ _ locked => index = 0 ∧ ∀ outboxId, locked outboxId = false
  | .publish index => index = 0
  | .finish index _ => index = 0
  | .mark index _ => index = 0
  | .crash index => index = 0

/-- A row was claimed and not published yet, and has attempts left. -/
def Waits (s : DispatchLog ι ε) (row : OutboxRow ι ε) : Prop :=
  (row.status = .processing ∨ row.status = .failed) ∧ row.attempts < 10 ∧ row.outboxId ∉ s.delivered

instance [DecidableEq ι] (s : DispatchLog ι ε) (row : OutboxRow ι ε) : Decidable (s.Waits row) :=
  inferInstanceAs (Decidable ((_ ∨ _) ∧ _))

/-- The condition on a step: no publish returns while an earlier row of its key waits. -/
def KeepsOrder (keyOf : ε → κ) (s : DispatchLog ι ε) : OutboxMove ι ε → Prop
  | .finish index (.ok ()) => ∀ outboxId ∈ (s.dispatchers index).publishing, ∀ row ∈ s.rows,
      ∀ row' ∈ s.rows, row'.outboxId = outboxId → row.Before keyOf row' → ¬ s.Waits row
  | _ => True

/-- The messages of a batch stand in the order of the times of their rows. -/
def Ordered (rows : List (OutboxRow ι ε)) (message message' : OutboxMessage ι ε) : Prop :=
  ∀ row ∈ rows, ∀ row' ∈ rows, row.outboxId = message.outboxId → row'.outboxId = message'.outboxId →
    row.createdAt ≤ row'.createdAt

variable [DecidableEq ι]

def step (s : DispatchLog ι ε) (move : OutboxMove ι ε) : DispatchLog ι ε where
  toOutbox := s.toOutbox.step move
  delivered := s.delivered ++ returnedBy s.toOutbox move

/-- The first publishes of the rows of one key happened in the order of the times of the rows. -/
def InOrder (keyOf : ε → κ) (s : DispatchLog ι ε) : Prop :=
  ∀ row ∈ s.rows, ∀ row' ∈ s.rows, row.Before keyOf row' → row.outboxId ∈ s.delivered →
    row'.outboxId ∈ s.delivered → s.delivered.idxOf row.outboxId < s.delivered.idxOf row'.outboxId

/-- What the table, the batch and the publishes so far promise. -/
structure Sound (keyOf : ε → κ) (s : DispatchLog ι ε) : Prop where
  distinct : (s.rows.map OutboxRow.outboxId).Nodup
  known : ∀ outboxId ∈ s.delivered, outboxId ∈ s.rows.map OutboxRow.outboxId
  fresh : ∀ row ∈ s.rows, row.status = .pending → row.attempts < 10
  published : ∀ row ∈ s.rows, row.status = .published → row.outboxId ∈ s.delivered
  ahead : ∀ row ∈ s.rows, ∀ row' ∈ s.rows, row.Before keyOf row' → row.status = .pending →
    row'.status = .pending
  held : ∀ message ∈ (s.dispatchers 0).todo, ∃ row ∈ s.rows, row.outboxId = message.outboxId ∧
    row.status ≠ .pending
  sorted : (s.dispatchers 0).todo.Pairwise (Ordered s.rows)
  behind : ∀ row ∈ s.rows, ∀ row' ∈ s.rows, row.Before keyOf row' → row'.outboxId ∈ s.delivered →
    row.outboxId ∈ s.delivered ∨ 10 ≤ row.attempts ∧ ¬ s.Holds 0 row.outboxId
  returned : (s.dispatchers 0).phase = .returned → ∀ message rest,
    (s.dispatchers 0).todo = message :: rest → message.outboxId ∈ s.delivered
  inOrder : s.InOrder keyOf

variable {keyOf : ε → κ} {s s' : DispatchLog ι ε}

theorem sound_initial : Sound keyOf ({} : DispatchLog ι ε) where
  distinct := List.nodup_nil
  known _ h := (List.not_mem_nil h).elim
  fresh _ h := (List.not_mem_nil h).elim
  published _ h := (List.not_mem_nil h).elim
  ahead _ h := (List.not_mem_nil h).elim
  held _ h := (List.not_mem_nil h).elim
  sorted := List.Pairwise.nil
  behind _ h := (List.not_mem_nil h).elim
  returned h := by cases h
  inOrder _ h := (List.not_mem_nil h).elim

/-! ## Rows that are rewritten -/

/-- Rows are rewritten, and the dispatcher turns to other messages; nothing was published. -/
theorem Sound.rewrite (h : Sound keyOf s) {p : OutboxRow ι ε → Bool}
    {f : OutboxRow ι ε → OutboxRow ι ε} (hrows : s'.rows = updateWhere p f s.rows)
    (hdelivered : s'.delivered = s.delivered)
    (hevent : ∀ row, (f row).outboxId = row.outboxId ∧ (f row).envelope = row.envelope ∧
      (f row).createdAt = row.createdAt ∧ row.attempts ≤ (f row).attempts ∧ (f row).status ≠ .pending)
    (hpublished : ∀ row, p row = true → (f row).status = .published → row.outboxId ∈ s.delivered)
    (hahead : ∀ row ∈ s.rows, ∀ row' ∈ s.rows, row.Before keyOf row' → row.status = .pending →
      row'.status = .pending → p row' = true → p row = true)
    (hheld : ∀ message ∈ (s'.dispatchers 0).todo, ∃ row ∈ s.rows, row.outboxId = message.outboxId ∧
      (p row = true ∨ row.status ≠ .pending))
    (hsorted : (s'.dispatchers 0).todo.Pairwise (Ordered s.rows))
    (hholds : ∀ row ∈ s.rows, 10 ≤ row.attempts → s'.Holds 0 row.outboxId → s.Holds 0 row.outboxId)
    (hreturned : (s'.dispatchers 0).phase = .returned → ∀ message rest,
      (s'.dispatchers 0).todo = message :: rest → message.outboxId ∈ s.delivered) :
    Sound keyOf s' := by
  have hid : ∀ row, (if p row then f row else row).outboxId = row.outboxId := by
    intro row
    split_ifs
    · exact (hevent row).1
    · rfl
  have hcreated : ∀ row, (if p row then f row else row).createdAt = row.createdAt := by
    intro row
    split_ifs
    · exact (hevent row).2.2.1
    · rfl
  have hattempts : ∀ row, row.attempts ≤ (if p row then f row else row).attempts := by
    intro row
    split_ifs
    · exact (hevent row).2.2.2.1
    · exact le_refl _
  have hbefore : ∀ row row', (if p row then f row else row).Before keyOf
      (if p row' then f row' else row') ↔ row.Before keyOf row' := by
    intro row row'
    have henvelope : ∀ row, (if p row then f row else row).envelope = row.envelope := by
      intro row
      split_ifs
      · exact (hevent row).2.1
      · rfl
    rw [OutboxRow.Before, OutboxRow.Before, henvelope, henvelope, hcreated, hcreated]
  -- a row that is not claimed yet was not rewritten
  have hpending : ∀ row, (if p row then f row else row).status = .pending →
      p row = false ∧ row.status = .pending := by
    intro row hstatus
    by_cases hp : p row = true
    · rw [if_pos hp] at hstatus
      exact absurd hstatus (hevent row).2.2.2.2
    · rw [if_neg hp] at hstatus
      exact ⟨Bool.eq_false_iff.mpr hp, hstatus⟩
  have hkeys : s'.rows.map OutboxRow.outboxId = s.rows.map OutboxRow.outboxId := by
    rw [hrows]
    exact map_updateWhere fun row => (hevent row).1
  constructor
  case distinct => exact hkeys ▸ h.distinct
  case known =>
    rw [hdelivered, hkeys]
    exact h.known
  case fresh =>
    simp only [hrows, updateWhere, List.forall_mem_map]
    intro row hrow hstatus
    obtain ⟨hp, hstatus⟩ := hpending row hstatus
    rw [if_neg (by simp [hp])]
    exact h.fresh row hrow hstatus
  case published =>
    simp only [hrows, hdelivered, updateWhere, List.forall_mem_map, hid]
    intro row hrow hstatus
    by_cases hp : p row = true
    · rw [if_pos hp] at hstatus
      exact hpublished row hp hstatus
    · rw [if_neg hp] at hstatus
      exact h.published row hrow hstatus
  case ahead =>
    simp only [hrows, updateWhere, List.forall_mem_map, hbefore]
    intro row hrow row' hrow' hpair hstatus
    obtain ⟨hp, hstatus⟩ := hpending row hstatus
    have hlater : row'.status = .pending := h.ahead row hrow row' hrow' hpair hstatus
    have hp' : ¬ p row' = true := fun hp' => by
      rw [hahead row hrow row' hrow' hpair hstatus hlater hp'] at hp
      cases hp
    rw [if_neg hp']
    exact hlater
  case held =>
    rw [hrows]
    intro message hmessage
    obtain ⟨row, hrow, hmessage, hstatus⟩ := hheld message hmessage
    refine ⟨_, mem_updateWhere.mpr ⟨row, hrow, rfl⟩, (hid row).trans hmessage, fun hpend => ?_⟩
    obtain ⟨hp, hpend⟩ := hpending row hpend
    rcases hstatus with hstatus | hstatus
    · rw [hp] at hstatus
      cases hstatus
    · exact hstatus hpend
  case sorted =>
    refine hsorted.imp fun hordered => ?_
    simp only [Ordered, hrows, updateWhere, List.forall_mem_map, hid, hcreated]
    exact hordered
  case behind =>
    simp only [hrows, hdelivered, updateWhere, List.forall_mem_map, hbefore, hid]
    intro row hrow row' hrow' hpair hmem
    refine (h.behind row hrow row' hrow' hpair hmem).imp_right fun hgiven => ?_
    exact ⟨hgiven.1.trans (hattempts row), fun hh => hgiven.2 (hholds row hrow hgiven.1 hh)⟩
  case returned =>
    rw [hdelivered]
    exact hreturned
  case inOrder =>
    simp only [InOrder, hrows, hdelivered, updateWhere, List.forall_mem_map, hbefore, hid]
    exact h.inOrder

/-- The dispatcher goes on with a part of its batch, and nothing else changes. -/
theorem Sound.turn (h : Sound keyOf s) (hrows : s'.rows = s.rows) (hdelivered : s'.delivered = s.delivered)
    (htodo : (s'.dispatchers 0).todo.Sublist (s.dispatchers 0).todo)
    (hreturned : (s'.dispatchers 0).phase = .returned → ∀ message rest,
      (s'.dispatchers 0).todo = message :: rest → message.outboxId ∈ s.delivered) :
    Sound keyOf s' := by
  constructor
  case distinct => exact hrows ▸ h.distinct
  case known =>
    rw [hdelivered, hrows]
    exact h.known
  case fresh => exact hrows ▸ h.fresh
  case published =>
    rw [hrows, hdelivered]
    exact h.published
  case ahead => exact hrows ▸ h.ahead
  case held =>
    rw [hrows]
    exact fun message hmessage => h.held message (htodo.subset hmessage)
  case sorted =>
    rw [hrows]
    exact h.sorted.sublist htodo
  case behind =>
    rw [hrows, hdelivered]
    intro row hrow row' hrow' hpair hmem
    refine (h.behind row hrow row' hrow' hpair hmem).imp_right fun hgiven => ?_
    exact ⟨hgiven.1, fun hholds => hgiven.2 ((htodo.map _).subset hholds)⟩
  case returned => exact hdelivered ▸ hreturned
  case inOrder =>
    rw [InOrder, hrows, hdelivered]
    exact h.inOrder

/-- The outcome of the first message of the batch is written. -/
theorem Sound.marked (h : Sound keyOf s) {message : OutboxMessage ι ε} {rest : List (OutboxMessage ι ε)}
    {f : OutboxRow ι ε → OutboxRow ι ε} (htodo : (s.dispatchers 0).todo = message :: rest)
    (hrows : s'.rows = updateWhere (fun row => row.outboxId = message.outboxId) f s.rows)
    (hdelivered : s'.delivered = s.delivered) (hdispatcher : (s'.dispatchers 0).todo = rest)
    (hphase : (s'.dispatchers 0).phase = .ready)
    (hevent : ∀ row, (f row).outboxId = row.outboxId ∧ (f row).envelope = row.envelope ∧
      (f row).createdAt = row.createdAt ∧ row.attempts ≤ (f row).attempts ∧ (f row).status ≠ .pending)
    (hpublished : ∀ row, (f row).status = .published → message.outboxId ∈ s.delivered) :
    Sound keyOf s' := by
  have hsub : (s'.dispatchers 0).todo.Sublist (s.dispatchers 0).todo := by
    rw [hdispatcher, htodo]
    exact List.sublist_cons_self _ _
  refine h.rewrite hrows hdelivered hevent (fun row hid hstatus => ?_) ?_ (fun other hother => ?_)
    (h.sorted.sublist hsub) (fun row _ _ hholds => (hsub.map _).subset hholds) ?_
  · rw [of_decide_eq_true hid]
    exact hpublished row hstatus
  · -- the row that is written was claimed
    intro row hrow row' hrow' _ _ hstatus hid
    obtain ⟨row₀, hrow₀, hid₀, hstatus₀⟩ := h.held message (htodo ▸ List.mem_cons_self)
    have heq : row' = row₀ :=
      eq_of_key_eq h.distinct hrow' hrow₀ ((of_decide_eq_true hid).trans hid₀.symm)
    exact absurd (heq ▸ hstatus) hstatus₀
  · obtain ⟨row, hrow, hid, hstatus⟩ := h.held other (hsub.subset hother)
    exact ⟨row, hrow, hid, Or.inr hstatus⟩
  · rw [hphase]
    exact fun hreturned => nomatch hreturned

/-! ## The steps -/

theorem Sound.same (h : Sound keyOf s) (htable : s'.toOutbox = s.toOutbox)
    (hdelivered : s'.delivered = s.delivered) : Sound keyOf s' := by
  obtain ⟨table, delivered⟩ := s
  obtain ⟨table', delivered'⟩ := s'
  obtain rfl : table' = table := htable
  obtain rfl : delivered' = delivered := hdelivered
  exact h

/-- A row is added that is later than the rows of its key. -/
theorem Sound.add (h : Sound keyOf s) {row₀ : OutboxRow ι ε} (hrows : s'.rows = s.rows ++ [row₀])
    (hdelivered : s'.delivered = s.delivered) (hdispatchers : s'.dispatchers = s.dispatchers)
    (hunknown : row₀.outboxId ∉ s.rows.map OutboxRow.outboxId) (hstatus : row₀.status = .pending)
    (hattempts : row₀.attempts = 0)
    (hnew : ∀ row ∈ s.rows, keyOf row.envelope = keyOf row₀.envelope → row.createdAt < row₀.createdAt) :
    Sound keyOf s' := by
  have hunpublished : row₀.outboxId ∉ s.delivered := fun hmem => hunknown (h.known _ hmem)
  have hforall : ∀ P : OutboxRow ι ε → Prop, (∀ row ∈ s'.rows, P row) ↔
      (∀ row ∈ s.rows, P row) ∧ P row₀ := by
    intro P
    rw [hrows]
    exact List.forall_mem_append.trans (and_congr_right fun _ => List.forall_mem_singleton)
  -- the new row stands before no row
  have hlast : ∀ row ∈ s'.rows, ¬ row₀.Before keyOf row := by
    rw [hforall]
    exact ⟨fun row hrow hbefore => lt_asymm hbefore.2 (hnew row hrow hbefore.1.symm),
      fun hbefore => lt_irrefl _ hbefore.2⟩
  have hheld : ∀ message ∈ (s.dispatchers 0).todo, row₀.outboxId ≠ message.outboxId := by
    intro message hmessage heq
    obtain ⟨row, hrow, hid, -⟩ := h.held message hmessage
    exact hunknown (List.mem_map.mpr ⟨row, hrow, hid.trans heq.symm⟩)
  constructor
  case distinct =>
    rw [hrows, List.map_append, List.nodup_append']
    exact ⟨h.distinct, List.nodup_singleton _, List.disjoint_singleton.mpr hunknown⟩
  case known =>
    rw [hdelivered, hrows, List.map_append]
    exact fun outboxId hmem => List.mem_append_left _ (h.known outboxId hmem)
  case fresh =>
    rw [hforall]
    exact ⟨h.fresh, fun _ => by rw [hattempts]; exact Nat.zero_lt_succ 9⟩
  case published =>
    rw [hforall, hdelivered]
    exact ⟨h.published, fun hpublished => by rw [hstatus] at hpublished; cases hpublished⟩
  case ahead =>
    have hrow₀ : ∀ row' ∈ s'.rows, row₀.Before keyOf row' → row₀.status = .pending →
        row'.status = .pending := fun row' hrow' hpair => absurd hpair (hlast row' hrow')
    refine (hforall _).mpr ⟨fun row hrow => (hforall _).mpr ⟨h.ahead row hrow, ?_⟩, hrow₀⟩
    exact fun _ _ => hstatus
  case held =>
    rw [hdispatchers, hrows]
    intro message hmessage
    obtain ⟨row, hrow, hclaimed⟩ := h.held message hmessage
    exact ⟨row, List.mem_append_left _ hrow, hclaimed⟩
  case sorted =>
    rw [hdispatchers]
    refine h.sorted.imp_of_mem fun {message message'} hmessage hmessage' hordered => ?_
    refine (hforall _).mpr ⟨fun row hrow => (hforall _).mpr ⟨hordered row hrow, ?_⟩, ?_⟩
    · exact fun _ hid => absurd hid (hheld message' hmessage')
    · exact fun _ _ hid => absurd hid (hheld message hmessage)
  case behind =>
    have hholds : ∀ outboxId, s'.Holds 0 outboxId ↔ s.Holds 0 outboxId := by
      intro outboxId
      rw [Outbox.Holds, Outbox.Holds, hdispatchers]
    rw [hdelivered]
    simp only [hholds]
    refine (hforall _).mpr ⟨fun row hrow => (hforall _).mpr ⟨h.behind row hrow, ?_⟩, ?_⟩
    · exact fun _ hmem => absurd hmem hunpublished
    · exact fun row' hrow' hpair => absurd hpair (hlast row' hrow')
  case returned =>
    rw [hdispatchers, hdelivered]
    exact h.returned
  case inOrder =>
    rw [InOrder, hdelivered]
    refine (hforall _).mpr ⟨fun row hrow => (hforall _).mpr ⟨h.inOrder row hrow, ?_⟩, ?_⟩
    · exact fun _ _ hmem => absurd hmem hunpublished
    · exact fun row' hrow' hpair => absurd hpair (hlast row' hrow')

theorem Sound.enqueue (h : Sound keyOf s) (outboxId : ι) (topic : String) {envelope : ε}
    {createdAt : Datetime}
    (hnew : ∀ row ∈ s.rows, keyOf row.envelope = keyOf envelope → row.createdAt < createdAt) :
    Sound keyOf (s.step (.enqueue outboxId topic envelope createdAt)) := by
  have hdelivered : (s.step (.enqueue outboxId topic envelope createdAt)).delivered = s.delivered :=
    List.append_nil _
  have henqueue : (s.step (.enqueue outboxId topic envelope createdAt)).toOutbox =
      s.toOutbox.enqueue outboxId topic envelope createdAt := rfl
  unfold Outbox.enqueue at henqueue
  split_ifs at henqueue with hknown
  · exact h.same henqueue hdelivered
  · exact h.add (by rw [henqueue]) hdelivered (by rw [henqueue]) hknown rfl rfl hnew

theorem Sound.publish (h : Sound keyOf s) : Sound keyOf (s.step (.publish 0)) := by
  have hdelivered : (s.step (.publish 0)).delivered = s.delivered := List.append_nil _
  have hpublish : (s.step (.publish 0)).toOutbox = s.toOutbox.publish 0 := rfl
  unfold Outbox.publish at hpublish
  split at hpublish
  case h_1 message rest published hdispatcher =>
    refine h.turn (by rw [hpublish]; rfl) hdelivered ?_ ?_
    · rw [hpublish, hdispatcher]
      exact List.Sublist.refl _
    · rw [hpublish]
      exact fun hphase => nomatch hphase
  case h_2 =>
    exact h.same hpublish hdelivered

/-- A publish returns, and no earlier row of the key waits. -/
theorem Sound.deliver (h : Sound keyOf s) {message : OutboxMessage ι ε} {rest : List (OutboxMessage ι ε)}
    (htodo : (s.dispatchers 0).todo = message :: rest) (hrows : s'.rows = s.rows)
    (hdispatcher : (s'.dispatchers 0).todo = message :: rest)
    (hdelivered : s'.delivered = s.delivered ++ [message.outboxId])
    (hkeeps : ∀ row ∈ s.rows, ∀ row' ∈ s.rows, row'.outboxId = message.outboxId →
      row.Before keyOf row' → ¬ s.Waits row) : Sound keyOf s' := by
  obtain ⟨row₀, hrow₀, hid₀, hclaimed₀⟩ := h.held message (htodo ▸ List.mem_cons_self)
  have heq₀ : ∀ row ∈ s.rows, row.outboxId = message.outboxId → row = row₀ := fun row hrow hid =>
    eq_of_key_eq h.distinct hrow hrow₀ (hid.trans hid₀.symm)
  have hmem_iff : ∀ outboxId, outboxId ∈ s'.delivered ↔
      outboxId ∈ s.delivered ∨ outboxId = message.outboxId := by
    intro outboxId
    rw [hdelivered, List.mem_append, List.mem_singleton]
  have hholds : ∀ outboxId, s'.Holds 0 outboxId ↔ s.Holds 0 outboxId := by
    intro outboxId
    rw [Outbox.Holds, Outbox.Holds, hdispatcher, htodo]
  -- what stands before the row was claimed before, and does not stand behind it in the batch
  have hbefore : ∀ row ∈ s.rows, row.Before keyOf row₀ →
      row.outboxId ∈ s.delivered ∨ 10 ≤ row.attempts ∧ ¬ s.Holds 0 row.outboxId := by
    intro row hrow hpair
    have hnot : ¬ s.Holds 0 row.outboxId := by
      intro hmem
      rw [Outbox.Holds, htodo, List.map_cons] at hmem
      rcases List.mem_cons.mp hmem with hid | hmem
      · rw [heq₀ row hrow hid] at hpair
        exact lt_irrefl _ hpair.2
      · obtain ⟨later, hlater, hid⟩ := List.mem_map.mp hmem
        have hsorted := h.sorted
        rw [htodo] at hsorted
        exact absurd hpair.2 (not_lt.mpr
          ((List.pairwise_cons.mp hsorted).1 later hlater row₀ hrow₀ row hrow hid₀ hid.symm))
    have hkeep : ¬ s.Waits row := hkeeps row hrow row₀ hrow₀ hid₀ hpair
    by_contra hneither
    obtain ⟨hunpublished, hleft⟩ := not_or.mp hneither
    have hattempts : row.attempts < 10 := not_le.mp fun hten => hleft ⟨hten, hnot⟩
    cases hstatus : row.status with
    | pending => exact hclaimed₀ (h.ahead row hrow row₀ hrow₀ hpair hstatus)
    | published => exact hunpublished (h.published row hrow hstatus)
    | processing => exact hkeep ⟨Or.inl hstatus, hattempts, hunpublished⟩
    | failed => exact hkeep ⟨Or.inr hstatus, hattempts, hunpublished⟩
  constructor
  case distinct => exact hrows ▸ h.distinct
  case known =>
    intro outboxId hmem
    rw [hrows]
    rcases (hmem_iff outboxId).mp hmem with hmem | rfl
    · exact h.known outboxId hmem
    · exact hid₀ ▸ List.mem_map_of_mem hrow₀
  case fresh => exact hrows ▸ h.fresh
  case published =>
    rw [hrows]
    exact fun row hrow hstatus => (hmem_iff _).mpr (Or.inl (h.published row hrow hstatus))
  case ahead => exact hrows ▸ h.ahead
  case held =>
    rw [hrows, hdispatcher, ← htodo]
    exact h.held
  case sorted =>
    rw [hrows, hdispatcher, ← htodo]
    exact h.sorted
  case behind =>
    rw [hrows]
    intro row hrow row' hrow' hpair hmem
    rw [hmem_iff, hholds]
    rcases (hmem_iff _).mp hmem with hmem | hid
    · exact (h.behind row hrow row' hrow' hpair hmem).imp_left Or.inl
    · rw [heq₀ row' hrow' hid] at hpair
      exact (hbefore row hrow hpair).imp_left Or.inl
  case returned =>
    intro _ message' rest' htodo'
    rw [hdispatcher] at htodo'
    obtain ⟨rfl, rfl⟩ := List.cons_eq_cons.mp htodo'
    exact (hmem_iff _).mpr (Or.inr rfl)
  case inOrder =>
    rw [InOrder, hrows]
    intro row hrow row' hrow' hpair hmem hmem'
    have hlength : ∀ outboxId, outboxId = message.outboxId → outboxId ∉ s.delivered →
        s'.delivered.idxOf outboxId = s.delivered.length := by
      rintro _ rfl hnot
      rw [hdelivered, List.idxOf_append_of_notMem hnot, List.idxOf_cons_self, Nat.add_zero]
    have hold : ∀ outboxId ∈ s.delivered, s'.delivered.idxOf outboxId = s.delivered.idxOf outboxId := by
      intro outboxId hmem
      rw [hdelivered, List.idxOf_append_of_mem hmem]
    by_cases hpast : row.outboxId ∈ s.delivered
    · rw [hold _ hpast]
      by_cases hpast' : row'.outboxId ∈ s.delivered
      · rw [hold _ hpast']
        exact h.inOrder row hrow row' hrow' hpair hpast hpast'
      · rw [hlength _ (((hmem_iff _).mp hmem').resolve_left hpast') hpast']
        exact List.idxOf_lt_length_of_mem hpast
    · -- the earlier row is published now: it is in the batch, so the later one was not published
      have hid : row.outboxId = message.outboxId := ((hmem_iff _).mp hmem).resolve_left hpast
      have hholding : s.Holds 0 row.outboxId := by
        rw [Outbox.Holds, htodo, hid]
        exact List.mem_cons_self
      rcases (hmem_iff _).mp hmem' with hpast' | hid'
      · rcases h.behind row hrow row' hrow' hpair hpast' with hdone | ⟨-, hnot⟩
        · exact absurd hdone hpast
        · exact absurd hholding hnot
      · rw [heq₀ row hrow hid, heq₀ row' hrow' hid'] at hpair
        exact absurd hpair.2 (lt_irrefl _)

theorem Sound.finish_ok (h : Sound keyOf s) (hkeeps : s.KeepsOrder keyOf (.finish 0 (.ok ()))) :
    Sound keyOf (s.step (.finish 0 (.ok ()))) := by
  have hfinish : (s.step (.finish 0 (.ok ()))).toOutbox = s.toOutbox.finish 0 (.ok ()) := rfl
  have hdelivered : (s.step (.finish 0 (.ok ()))).delivered =
      s.delivered ++ (s.dispatchers 0).publishing := rfl
  unfold Outbox.finish at hfinish
  split at hfinish
  case h_1 todo published hdispatcher =>
    have htodo : (s.dispatchers 0).todo = todo := by rw [hdispatcher]
    have hgoes : ((s.step (.finish 0 (.ok ()))).dispatchers 0).todo = todo := by rw [hfinish]; rfl
    rw [hdispatcher] at hdelivered
    rcases todo with _ | ⟨message, rest⟩
    · refine h.turn (by rw [hfinish]; rfl) (hdelivered.trans (List.append_nil _)) ?_ ?_
      · rw [hgoes]
        exact List.nil_sublist _
      · rw [hgoes]
        exact fun _ _ _ hnil => nomatch hnil
    · refine h.deliver htodo (by rw [hfinish]; rfl) hgoes hdelivered (hkeeps message.outboxId ?_)
      rw [hdispatcher]
      exact List.mem_singleton_self _
  case h_2 hother =>
    have hnone : (s.dispatchers 0).publishing = [] := by
      unfold Dispatcher.publishing
      split
      case h_1 message rest published hdispatcher => exact (hother _ _ hdispatcher).elim
      case h_2 => rfl
    rw [hnone, List.append_nil] at hdelivered
    exact h.same hfinish hdelivered

theorem Sound.finish (h : Sound keyOf s) {outcome : Except String Unit}
    (hkeeps : s.KeepsOrder keyOf (.finish 0 outcome)) : Sound keyOf (s.step (.finish 0 outcome)) := by
  rcases outcome with error | ⟨⟨⟩⟩
  case ok => exact h.finish_ok hkeeps
  case error =>
    have hdelivered : (s.step (.finish 0 (.error error))).delivered = s.delivered := List.append_nil _
    have hfinish : (s.step (.finish 0 (.error error))).toOutbox = s.toOutbox.finish 0 (.error error) := rfl
    unfold Outbox.finish at hfinish
    split at hfinish
    case h_1 todo published hdispatcher =>
      refine h.turn (by rw [hfinish]; rfl) hdelivered ?_ ?_
      · rw [hfinish, hdispatcher]
        exact List.Sublist.refl _
      · rw [hfinish]
        exact fun hphase => nomatch hphase
    case h_2 =>
      exact h.same hfinish hdelivered

theorem Sound.mark (h : Sound keyOf s) (now : Datetime) : Sound keyOf (s.step (.mark 0 now)) := by
  have hdelivered : (s.step (.mark 0 now)).delivered = s.delivered := List.append_nil _
  have hmark : (s.step (.mark 0 now)).toOutbox = s.toOutbox.mark 0 now := rfl
  unfold Outbox.mark at hmark
  split at hmark
  case h_1 message rest published hdispatcher =>
    have htodo : (s.dispatchers 0).todo = message :: rest := by rw [hdispatcher]
    have hreturned : message.outboxId ∈ s.delivered := h.returned (by rw [hdispatcher]) message rest htodo
    exact h.marked (f := fun row => { row with
        status := .published, publishedAt := some now, lastError := none })
      htodo (by rw [hmark]; rfl) hdelivered (by rw [hmark]; rfl) (by rw [hmark]; rfl)
      (fun row => ⟨rfl, rfl, rfl, le_refl _, fun hstatus => nomatch hstatus⟩) fun _ _ => hreturned
  case h_2 message rest error published hdispatcher =>
    exact h.marked (f := fun row => { row with status := .failed, lastError := some (errorText (some error)) })
      (by rw [hdispatcher]) (by rw [hmark]; rfl) hdelivered (by rw [hmark]; rfl) (by rw [hmark]; rfl)
      (fun row => ⟨rfl, rfl, rfl, le_refl _, fun hstatus => nomatch hstatus⟩)
      fun _ hstatus => nomatch hstatus
  case h_3 =>
    exact h.same hmark hdelivered

/-- A batch begins: a row is claimed with the rows of its key that stand before it. -/
theorem Sound.dispatchBatch (h : Sound keyOf s) (now : Datetime) (limit : ℕ) {locked : ι → Bool}
    (hlocked : ∀ outboxId, locked outboxId = false) :
    Sound keyOf (s.step (.dispatchBatch 0 now limit locked)) := by
  have hdelivered : (s.step (.dispatchBatch 0 now limit locked)).delivered = s.delivered :=
    List.append_nil _
  have hbatch : (s.step (.dispatchBatch 0 now limit locked)).toOutbox =
      s.toOutbox.dispatchBatch 0 now limit locked := rfl
  unfold Outbox.dispatchBatch at hbatch
  split at hbatch
  case h_2 => exact h.same hbatch hdelivered
  case h_1 hidle =>
  set found := claimed now limit locked s.rows with hfound
  have htotal : Std.Total fun row row' : OutboxRow ι ε => row.createdAt ≤ row'.createdAt :=
    ⟨fun row row' => le_total row.createdAt row'.createdAt⟩
  have htrans : IsTrans (OutboxRow ι ε) fun row row' => row.createdAt ≤ row'.createdAt :=
    ⟨fun _ _ _ => le_trans⟩
  have htodo : ((s.step (.dispatchBatch 0 now limit locked)).dispatchers 0).todo = found.map message := by
    rw [hbatch]
    rfl
  have hclaimed : ∀ row ∈ s.rows, row.outboxId ∈ found.map OutboxRow.outboxId ↔ row ∈ found := by
    intro row hrow
    refine ⟨fun hid => ?_, List.mem_map_of_mem⟩
    obtain ⟨row', hrow', hid'⟩ := List.mem_map.mp hid
    exact eq_of_key_eq h.distinct (of_mem_firstWhere hrow').1 hrow hid' ▸ hrow'
  have hprocessing (row : OutboxRow ι ε) : (claim now row).status = .processing := rfl
  refine h.rewrite (p := fun row => row.outboxId ∈ found.map OutboxRow.outboxId) (f := claim now)
    (by rw [hbatch]; rfl) hdelivered
    (fun row => ⟨rfl, rfl, rfl, Nat.le_succ _, fun hstatus => by rw [hprocessing] at hstatus; cases hstatus⟩)
    (fun row _ hstatus => by rw [hprocessing] at hstatus; cases hstatus) ?_ ?_ ?_ ?_ ?_
  · intro row hrow row' hrow' hpair hstatus _ hmem
    have hmem' : row' ∈ found := (hclaimed row' hrow').mp (of_decide_eq_true hmem)
    have hdue : (due now row && !locked row.outboxId) = true := by
      simp [due, hstatus, h.fresh row hrow hstatus, hlocked]
    exact decide_eq_true ((hclaimed row hrow).mpr
      (mem_firstWhere_of_not_rel hmem' hrow hdue (not_le.mpr hpair.2)))
  · rw [htodo]
    intro m hm
    obtain ⟨row, hrow, rfl⟩ := List.mem_map.mp hm
    exact ⟨row, (of_mem_firstWhere hrow).1, rfl, Or.inl (decide_eq_true (List.mem_map_of_mem hrow))⟩
  · rw [htodo, List.pairwise_map]
    refine List.Pairwise.imp_of_mem ?_ pairwise_firstWhere
    intro row row' hrow hrow' hle other hother other' hother' hid hid'
    rwa [eq_of_key_eq h.distinct hother (of_mem_firstWhere hrow).1 hid,
      eq_of_key_eq h.distinct hother' (of_mem_firstWhere hrow').1 hid']
  · -- a row that is given up is not claimed
    intro row hrow hattempts hholds
    rw [Outbox.Holds, htodo, List.map_map] at hholds
    have hdue : (due now row && !locked row.outboxId) = true :=
      (of_mem_firstWhere ((hclaimed row hrow).mp hholds)).2
    simp only [due, Bool.and_eq_true, decide_eq_true_eq] at hdue
    exact absurd hdue.1.2 (not_lt.mpr hattempts)
  · rw [hbatch]
    intro hphase
    cases hphase

theorem Sound.step (h : Sound keyOf s) (move : OutboxMove ι ε) (hsingle : s.Single keyOf move)
    (hkeeps : s.KeepsOrder keyOf move) : Sound keyOf (s.step move) := by
  cases move with
  | enqueue outboxId topic envelope createdAt => exact h.enqueue outboxId topic hsingle
  | dispatchBatch index now limit locked =>
    obtain ⟨rfl, hlocked⟩ := hsingle
    exact h.dispatchBatch now limit hlocked
  | publish index =>
    obtain rfl : index = 0 := hsingle
    exact h.publish
  | finish index outcome =>
    obtain rfl : index = 0 := hsingle
    exact h.finish hkeeps
  | mark index now =>
    obtain rfl : index = 0 := hsingle
    exact h.mark now
  | crash index =>
    obtain rfl : index = 0 := hsingle
    refine h.turn rfl (List.append_nil _) ?_ fun hphase => nomatch hphase
    exact List.nil_sublist _

/-- **Per-key order.**  In a run of one dispatcher in which no publish returns while an earlier row of its
key waits, the events of a key are published for the first time in the order of their times. -/
theorem publishes_in_order (keyOf : ε → κ) (moves : List (OutboxMove ι ε))
    (hsingle : Throughout step (Single keyOf) {} moves)
    (hkeeps : Throughout step (KeepsOrder keyOf) {} moves) : Always step (InOrder keyOf) {} moves :=
  always_of_throughout (I := Sound keyOf) (fun _ move h hboth => h.step move hboth.1 hboth.2)
    (fun _ h => h.inOrder) sound_initial (throughout_and.mpr ⟨hsingle, hkeeps⟩)

/-! ## Two events of an asset -/

/-- Two events of one asset are added and claimed. -/
def twoEvents : List (OutboxMove ℕ Unit) :=
  [.enqueue 0 "alerts.events.v1" () 0,
    .enqueue 1 "alerts.events.v1" () (timedeltaSeconds 1),
    .dispatchBatch 0 (timedeltaSeconds 2) 100 fun _ => false]

/-- The second one fails once. -/
def lastFails : List (OutboxMove ℕ Unit) :=
  [.publish 0, .finish 0 (.ok ()), .mark 0 (timedeltaSeconds 3),
    .publish 0, .finish 0 (.error "KafkaTimeoutError()"), .mark 0 (timedeltaSeconds 4),
    .dispatchBatch 0 (timedeltaSeconds 5) 100 fun _ => false,
    .publish 0, .finish 0 (.ok ()), .mark 0 (timedeltaSeconds 6)]

/-- The first one fails once, and the second one goes on. -/
def firstFails : List (OutboxMove ℕ Unit) :=
  [.publish 0, .finish 0 (.error "KafkaTimeoutError()"), .mark 0 (timedeltaSeconds 3),
    .publish 0, .finish 0 (.ok ()), .mark 0 (timedeltaSeconds 4),
    .dispatchBatch 0 (timedeltaSeconds 5) 100 fun _ => false,
    .publish 0, .finish 0 (.ok ()), .mark 0 (timedeltaSeconds 6)]

theorem publishes_in_order_lastFails :
    Always step (InOrder id) ({} : DispatchLog ℕ Unit) (twoEvents ++ lastFails) := by
  refine publishes_in_order id _ ?_ ?_
  · refine ⟨?_, ?_, ⟨rfl, fun _ => rfl⟩, rfl, rfl, rfl, rfl, rfl, rfl, ⟨rfl, fun _ => rfl⟩, rfl, rfl, rfl,
      trivial⟩
    · exact fun _ h => (List.not_mem_nil h).elim
    · unfold Single
      decide +kernel
  · refine ⟨trivial, trivial, trivial, trivial, ?_, trivial, trivial, trivial, trivial, trivial, trivial, ?_,
      trivial, trivial⟩
    · unfold KeepsOrder
      decide +kernel
    · unfold KeepsOrder
      decide +kernel

/-- The event that failed is published after the one behind it. -/
theorem failed_event_overtaken :
    ¬ ∀ moves : List (OutboxMove ℕ Unit), Throughout step (Single id) ({} : DispatchLog ℕ Unit) moves →
      Always step (InOrder id) {} moves := by
  intro hclaim
  have hsingle : Throughout step (Single id) ({} : DispatchLog ℕ Unit) (twoEvents ++ firstFails) := by
    refine ⟨?_, ?_, ⟨rfl, fun _ => rfl⟩, rfl, rfl, rfl, rfl, rfl, rfl, ⟨rfl, fun _ => rfl⟩, rfl, rfl, rfl,
      trivial⟩
    · exact fun _ h => (List.not_mem_nil h).elim
    · unfold Single
      decide +kernel
  have horder : InOrder id (run step ({} : DispatchLog ℕ Unit) (twoEvents ++ firstFails)) :=
    (hclaim _ hsingle).final
  revert horder
  unfold InOrder
  decide +kernel

end DispatchLog

end Streaming
end Scam2Market
