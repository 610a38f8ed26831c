import Scam2Market.Library.Runs
import Scam2Market.Python.Values
import Mathlib.Data.List.DropRight
import Mathlib.Data.List.Flatten

/-!
# Bounded batches

`resilience/batching.py`.  The generator is cut at its waits: one step runs from a wait to the next.
The clock and the deadline only decide whether a wait ends with the read done or by its timeout, so a
run is given by how each wait ends, and every way is allowed.

* `Batches.Lossless`: no batch is empty or too long, the batches so far are a prefix of what the source
  has produced, and all of it whenever the generator is suspended at a `yield` or has ended.
* `lossless_iff`: the exact condition.  The exception of the source is read when the items read since the
  last timeout fill whole batches.
* `discarded_batch`: an item is read, the source raises, and nothing is yielded.
-/

namespace Scam2Market
namespace Resilience

open Library

/-! ## The generator -/

/-- What a call of `__anext__` ends with. -/
inductive Read (T : Type) where
  | item (value : T)
  | stopAsyncIteration
  | raised (error : PyError)

/-- The item of a read. -/
def Read.item? {T : Type} : Read T → Option T
  | item value => some value
  | _ => none

/-- The arguments of `bounded_batches`; both limits are positive. -/
structure BatchLimits where
  maxBatchSize : ℕ
  maxWaitSeconds : ℚ
  size_pos : 1 ≤ maxBatchSize
  wait_pos : 0 < maxWaitSeconds

/-- What `bounded_batches` checks before the first read. -/
def BatchLimits.validate (maxBatchSize : ℕ) (maxWaitSeconds : ℚ) : Except PyError BatchLimits :=
  if h : maxBatchSize < 1 ∨ maxWaitSeconds ≤ 0 then
    .error (.valueError "batch limits must be positive")
  else
    .ok ⟨maxBatchSize, maxWaitSeconds, not_lt.mp (not_or.mp h).1, not_le.mp (not_or.mp h).2⟩

/-- How the generator has ended. -/
inductive Ending where
  | exhausted
  | raised (error : PyError)

/-- The generator between two waits.  `calls` counts the calls of `__anext__`, `pending` is the number of
the one in flight, and `atYield` says that the consumer holds the last batch. -/
structure Batches (T : Type) where
  yielded : List (List T) := []
  batch : List T := []
  calls : ℕ := 0
  pending : Option ℕ := none
  atYield : Bool := false
  ending : Option Ending := none

namespace Batches

variable {T : Type} (limits : BatchLimits) (source : ℕ → Read T)

/-- The number of the read that the next wait is for. -/
def number (s : Batches T) : ℕ :=
  s.pending.getD s.calls

/-- `if pending is None: pending = asyncio.ensure_future(iterator.__anext__())`. -/
def issue (s : Batches T) : Batches T :=
  match s.pending with
  | some _ => { s with atYield := false }
  | none => { s with calls := s.calls + 1, pending := some s.calls, atYield := false }

/-- The read has ended: `pending = None`. -/
def settle (s : Batches T) : Batches T :=
  { s.issue with pending := none }

/-- `if batch: yield batch`, and the new batch of the next round. -/
def flush (s : Batches T) : Batches T :=
  match s.batch with
  | [] => s
  | _ :: _ => { s with yielded := s.yielded ++ [s.batch], batch := [], atYield := true }

/-- From one wait to the next; `done` says that the wait ended with the read done.  An exception of the
source leaves through the generator, and the local batch with it. -/
def wait (s : Batches T) (done : Bool) : Batches T :=
  match s.ending with
  | some _ => s
  | none =>
    if done then
      match source s.number with
      | .item value =>
        let s := { s.settle with batch := s.batch ++ [value] }
        if s.batch.length < limits.maxBatchSize then s else s.flush
      | .stopAsyncIteration => { s.settle.flush with ending := some .exhausted }
      | .raised error => { s.settle with batch := [], ending := some (.raised error) }
    else s.issue.flush

/-- The items the source has produced, in its order. -/
def produced (s : Batches T) : List T :=
  (List.range s.number).filterMap fun number => (source number).item?

/-- **Nothing is lost.** -/
structure Lossless (s : Batches T) : Prop where
  sizes : ∀ batch ∈ s.yielded, 1 ≤ batch.length ∧ batch.length ≤ limits.maxBatchSize
  ordered : s.yielded.flatten <+: s.produced source
  atYield : s.atYield = true → s.yielded.flatten = s.produced source
  ended : s.ending.isSome = true → s.yielded.flatten = s.produced source

/-! ## What a wait does -/

@[simp] theorem number_issue (s : Batches T) : s.issue.number = s.number := by
  unfold number issue
  rcases s.pending with _ | number <;> rfl

@[simp] theorem yielded_issue (s : Batches T) : s.issue.yielded = s.yielded := by
  unfold issue
  rcases s.pending with _ | number <;> rfl

@[simp] theorem batch_issue (s : Batches T) : s.issue.batch = s.batch := by
  unfold issue
  rcases s.pending with _ | number <;> rfl

@[simp] theorem ending_issue (s : Batches T) : s.issue.ending = s.ending := by
  unfold issue
  rcases s.pending with _ | number <;> rfl

@[simp] theorem atYield_issue (s : Batches T) : s.issue.atYield = false := by
  unfold issue
  rcases s.pending with _ | number <;> rfl

/-- The read that is waited for is the one after those that have ended. -/
def Numbered (s : Batches T) : Prop :=
  ∀ number ∈ s.pending, s.calls = number + 1

theorem Numbered.issue {s : Batches T} (h : s.Numbered) : s.issue.Numbered := by
  unfold Numbered Batches.issue
  rcases hpending : s.pending with _ | number
  · rintro _ ⟨⟩
    rfl
  · intro _ hnumber
    exact h _ (hpending ▸ hnumber)

/-- Once its result is taken, the next read has the next number. -/
theorem Numbered.number_settle {s : Batches T} (h : s.Numbered) :
    s.settle.number = s.number + 1 := by
  show s.issue.calls = s.number + 1
  unfold Batches.issue number
  rcases hpending : s.pending with _ | number
  · rfl
  · exact h number hpending

@[simp] theorem flatten_flush (s : Batches T) :
    s.flush.yielded.flatten = s.yielded.flatten ++ s.batch := by
  unfold flush
  rcases hbatch : s.batch with _ | ⟨value, batch⟩
  · simp
  · simp

@[simp] theorem batch_flush (s : Batches T) : s.flush.batch = [] := by
  unfold flush
  rcases hbatch : s.batch with _ | ⟨value, batch⟩
  · exact hbatch
  · rfl

@[simp] theorem number_flush (s : Batches T) : s.flush.number = s.number := by
  unfold flush
  rcases s.batch with _ | ⟨value, batch⟩ <;> rfl

@[simp] theorem ending_flush (s : Batches T) : s.flush.ending = s.ending := by
  unfold flush
  rcases s.batch with _ | ⟨value, batch⟩ <;> rfl

theorem numbered_settle (s : Batches T) : s.settle.Numbered :=
  fun _ h => nomatch h

theorem Numbered.flush {s : Batches T} (h : s.Numbered) : s.flush.Numbered := by
  unfold Batches.flush
  rcases s.batch with _ | ⟨value, batch⟩
  · exact h
  · exact h

/-- A flush yields the batch, unless it is empty. -/
theorem mem_yielded_flush {s : Batches T} {batch : List T} (hbatch : batch ∈ s.flush.yielded) :
    batch ∈ s.yielded ∨ batch = s.batch ∧ batch ≠ [] := by
  unfold flush at hbatch
  rcases hs : s.batch with _ | ⟨value, rest⟩
  · rw [hs] at hbatch
    exact .inl hbatch
  · rw [hs] at hbatch
    rcases List.mem_append.mp hbatch with hbatch | hbatch
    · exact .inl hbatch
    · rw [List.mem_singleton.mp hbatch]
      exact .inr ⟨rfl, List.cons_ne_nil _ _⟩

@[simp] theorem yielded_settle (s : Batches T) : s.settle.yielded = s.yielded :=
  yielded_issue s

@[simp] theorem batch_settle (s : Batches T) : s.settle.batch = s.batch :=
  batch_issue s

section Wait

variable {limits source} {s : Batches T}

theorem wait_ended {ending : Ending} (hended : s.ending = some ending) (done : Bool) :
    s.wait limits source done = s := by
  unfold wait
  rw [hended]

theorem wait_timeout (hrunning : s.ending = none) :
    s.wait limits source false = s.issue.flush := by
  unfold wait
  rw [hrunning]
  rfl

theorem wait_item (hrunning : s.ending = none) {value : T} (hread : source s.number = .item value) :
    s.wait limits source true =
      if (s.batch ++ [value]).length < limits.maxBatchSize then
        { s.settle with batch := s.batch ++ [value] }
      else flush { s.settle with batch := s.batch ++ [value] } := by
  unfold wait
  rw [hrunning]
  simp only [if_true, hread]

theorem wait_exhausted (hrunning : s.ending = none) (hread : source s.number = .stopAsyncIteration) :
    s.wait limits source true = { s.settle.flush with ending := some .exhausted } := by
  unfold wait
  rw [hrunning]
  simp only [if_true, hread]

theorem wait_raised (hrunning : s.ending = none) {error : PyError}
    (hread : source s.number = .raised error) :
    s.wait limits source true = { s.settle with batch := [], ending := some (.raised error) } := by
  unfold wait
  rw [hrunning]
  simp only [if_true, hread]

end Wait

/-- A read that has ended adds its item, if it is one. -/
theorem produced_succ {s s' : Batches T} (hnumber : s'.number = s.number + 1) :
    s'.produced source = s.produced source ++ (source s.number).item?.toList := by
  rw [produced, hnumber, List.range_succ, List.filterMap_append]
  rfl

/-! ## The invariant -/

/-- What holds between two waits, as long as no exception takes a batch away. -/
structure Invariant (s : Batches T) : Prop where
  numbered : s.Numbered
  sizes : ∀ batch ∈ s.yielded, 1 ≤ batch.length ∧ batch.length ≤ limits.maxBatchSize
  short : s.batch.length < limits.maxBatchSize
  read : s.yielded.flatten ++ s.batch = s.produced source
  atYield : s.atYield = true → s.batch = []
  ended : s.ending.isSome = true → s.batch = []

variable {limits source}

theorem invariant_initial : Invariant limits source {} where
  numbered _ h := nomatch h
  sizes _ h := nomatch h
  short := limits.size_pos
  read := rfl
  atYield h := nomatch h
  ended h := nomatch h

theorem Invariant.lossless {s : Batches T} (h : Invariant limits source s) :
    Lossless limits source s where
  sizes := h.sizes
  ordered := ⟨s.batch, h.read⟩
  atYield hyield := by rw [← h.read, h.atYield hyield, List.append_nil]
  ended hended := by rw [← h.read, h.ended hended, List.append_nil]

/-- A flush keeps what every batch keeps, the full one included. -/
theorem Invariant.of_flush {s : Batches T} (hnumbered : s.Numbered)
    (hsizes : ∀ batch ∈ s.yielded, 1 ≤ batch.length ∧ batch.length ≤ limits.maxBatchSize)
    (hlength : s.batch.length ≤ limits.maxBatchSize)
    (hread : s.yielded.flatten ++ s.batch = s.produced source) :
    Invariant limits source s.flush where
  numbered := hnumbered.flush
  sizes batch hbatch := by
    rcases mem_yielded_flush hbatch with hbatch | ⟨rfl, hne⟩
    · exact hsizes batch hbatch
    · exact ⟨List.length_pos_of_ne_nil hne, hlength⟩
  short := by
    rw [batch_flush]
    exact limits.size_pos
  read := by
    rw [flatten_flush, batch_flush, List.append_nil, hread, produced, produced, number_flush]
  atYield _ := batch_flush s
  ended _ := batch_flush s

/-- The exception of the source leaves when no item waits in the batch. -/
def Careful (source : ℕ → Read T) (s : Batches T) (done : Bool) : Prop :=
  ∀ error, s.ending = none → done = true → source s.number = .raised error → s.batch = []

/-- A wait that ends by its timeout. -/
theorem Invariant.timeout {s : Batches T} (h : Invariant limits source s) :
    Invariant limits source s.issue.flush := by
  refine .of_flush h.numbered.issue ?_ ?_ ?_
  · rw [yielded_issue]
    exact h.sizes
  · rw [batch_issue]
    exact h.short.le
  · rw [yielded_issue, batch_issue, h.read, produced, produced, number_issue]

/-- A wait that ends with an item. -/
theorem Invariant.item {s : Batches T} (h : Invariant limits source s) {value : T}
    (hrunning : s.ending = none) (hread : source s.number = .item value) :
    Invariant limits source (s.wait limits source true) := by
  rw [wait_item hrunning hread]
  have hread' : s.settle.yielded.flatten ++ (s.batch ++ [value]) = s.settle.produced source := by
    rw [produced_succ source h.numbered.number_settle, hread, yielded_settle, ← List.append_assoc,
      h.read]
    rfl
  have hlength : (s.batch ++ [value]).length = s.batch.length + 1 := by
    rw [List.length_append, List.length_singleton]
  have hshort := h.short
  have hsizes : ∀ batch ∈ s.settle.yielded, 1 ≤ batch.length ∧
      batch.length ≤ limits.maxBatchSize := by
    rw [yielded_settle]
    exact h.sizes
  split_ifs with hroom
  · exact
      { numbered := numbered_settle s
        sizes := hsizes
        short := hroom
        read := hread'
        atYield := fun hyield => absurd (hyield.symm.trans (atYield_issue s)) Bool.noConfusion
        ended := fun hended => by
          have hnone : s.settle.ending = none := (ending_issue s).trans hrunning
          exact absurd (hnone ▸ hended) Bool.noConfusion }
  · exact .of_flush (numbered_settle s) hsizes (hlength.trans_le hshort) hread'

/-- A wait that ends with the end of the source. -/
theorem Invariant.exhausted {s : Batches T} (h : Invariant limits source s)
    (hread : source s.number = .stopAsyncIteration) :
    Invariant limits source { s.settle.flush with ending := some .exhausted } := by
  have hflush : Invariant limits source s.settle.flush := by
    refine .of_flush (numbered_settle s) ?_ ?_ ?_
    · rw [yielded_settle]
      exact h.sizes
    · rw [batch_settle]
      exact h.short.le
    · rw [yielded_settle, batch_settle, produced_succ source h.numbered.number_settle, hread, h.read]
      exact (List.append_nil _).symm
  exact
    { numbered := hflush.numbered
      sizes := hflush.sizes
      short := hflush.short
      read := hflush.read
      atYield := hflush.atYield
      ended := fun _ => batch_flush _ }

/-- A wait that ends with the exception of the source, the batch being empty. -/
theorem Invariant.raised {s : Batches T} (h : Invariant limits source s) (hempty : s.batch = [])
    {error : PyError} (hread : source s.number = .raised error) :
    Invariant limits source { s.settle with batch := [], ending := some (.raised error) } where
  numbered := numbered_settle s
  sizes batch hbatch := h.sizes batch (yielded_settle s ▸ hbatch)
  short := limits.size_pos
  read := by
    have hproduced := produced_succ source h.numbered.number_settle
    rw [hread, ← h.read, hempty, List.append_nil, ← yielded_settle] at hproduced
    exact hproduced.symm
  atYield _ := rfl
  ended _ := rfl

/-- **What a wait keeps.** -/
theorem Invariant.step {s : Batches T} (h : Invariant limits source s) {done : Bool}
    (hcareful : Careful source s done) : Invariant limits source (s.wait limits source done) := by
  rcases hending : s.ending with _ | ending
  · cases done with
    | false =>
      rw [wait_timeout hending]
      exact h.timeout
    | true =>
      rcases hread : source s.number with value | _ | error
      · exact h.item hending hread
      · rw [wait_exhausted hending hread]
        exact h.exhausted hread
      · rw [wait_raised hending hread]
        exact h.raised (hcareful error hending rfl hread) hread
  · rw [wait_ended hending]
    exact h

/-- A batch that is not empty goes with the exception. -/
theorem Invariant.not_lossless {s : Batches T} (h : Invariant limits source s) {done : Bool}
    (hcareless : ¬ Careful source s done) :
    ¬ Lossless limits source (s.wait limits source done) := by
  simp only [Careful, not_forall] at hcareless
  obtain ⟨error, hrunning, rfl, hread, hbatch⟩ := hcareless
  rw [wait_raised hrunning hread]
  intro hlossless
  have hended := hlossless.ended rfl
  have hproduced := produced_succ source h.numbered.number_settle
  rw [hread, ← h.read] at hproduced
  have hall : s.yielded.flatten = s.yielded.flatten ++ s.batch :=
    (yielded_settle s ▸ hended).trans (hproduced.trans (List.append_nil _))
  exact hbatch (List.self_eq_append_right.mp hall)

/-! ## When nothing is lost -/

/-- How many waits have ended with a read since the last timeout. -/
def sinceTimeout (waits : List Bool) : ℕ :=
  (waits.rtakeWhile id).length

/-- The source yields `number` items and raises. -/
def FailsAt (source : ℕ → Read T) (number : ℕ) (error : PyError) : Prop :=
  (∀ earlier < number, ∃ value, source earlier = .item value) ∧ source number = .raised error

/-- When the exception is read, the items read since the last timeout fill whole batches. -/
def RaisesOnBoundary (limits : BatchLimits) (source : ℕ → Read T) (waits : List Bool) : Prop :=
  ∀ before after error, waits = before ++ true :: after →
    FailsAt source (before.count true) error → sinceTimeout before % limits.maxBatchSize = 0

theorem sinceTimeout_timeout (waits : List Bool) : sinceTimeout (waits ++ [false]) = 0 := by
  rw [sinceTimeout, List.rtakeWhile_concat_neg _ _ _ Bool.false_ne_true]
  rfl

theorem sinceTimeout_read (waits : List Bool) :
    sinceTimeout (waits ++ [true]) = sinceTimeout waits + 1 := by
  rw [sinceTimeout, List.rtakeWhile_concat_pos _ _ _ rfl, List.length_append]
  rfl

/-- One more than a remainder starts again at zero when it fills the batch. -/
theorem succ_mod_eq (items : ℕ) :
    (items + 1) % limits.maxBatchSize =
      if items % limits.maxBatchSize + 1 < limits.maxBatchSize then
        items % limits.maxBatchSize + 1
      else 0 := by
  rw [← Nat.mod_add_mod]
  split_ifs with hroom
  · exact Nat.mod_eq_of_lt hroom
  · have hlt := Nat.mod_lt items limits.size_pos
    have hfull : items % limits.maxBatchSize + 1 = limits.maxBatchSize := by omega
    rw [hfull, Nat.mod_self]

/-- While the source yields items, the generator runs: it has taken one for every wait that did not time
out, and the batch holds what the whole batches since the last timeout leave over. -/
theorem run_of_items (limits : BatchLimits) {waits : List Bool}
    (hitems : ∀ number < waits.count true, ∃ value, source number = .item value) :
    (run (wait limits source) {} waits).ending = none ∧
      (run (wait limits source) {} waits).Numbered ∧
      (run (wait limits source) {} waits).number = waits.count true ∧
      (run (wait limits source) {} waits).batch.length =
        sinceTimeout waits % limits.maxBatchSize := by
  induction waits using List.reverseRecOn with
  | nil => exact ⟨rfl, fun _ h => (nomatch h), rfl, (Nat.zero_mod _).symm⟩
  | append_singleton waits done ih =>
    rw [List.count_append] at hitems
    obtain ⟨hrunning, hnumbered, hnumber, hbatch⟩ := ih fun number hlt => hitems number (by omega)
    rw [run_append, List.count_append]
    show (wait limits source _ done).ending = none ∧ (wait limits source _ done).Numbered ∧
      (wait limits source _ done).number = _ ∧ (wait limits source _ done).batch.length = _
    generalize run (wait limits source) {} waits = s at hrunning hnumbered hnumber hbatch
    cases done with
    | false =>
      rw [wait_timeout hrunning, ending_flush, ending_issue, number_flush, number_issue, batch_flush,
        sinceTimeout_timeout]
      exact ⟨hrunning, hnumbered.issue.flush, hnumber, (Nat.zero_mod _).symm⟩
    | true =>
      obtain ⟨value, hvalue⟩ := hitems (waits.count true) (by simp)
      have hlength : (s.batch ++ [value]).length =
          sinceTimeout waits % limits.maxBatchSize + 1 := by
        rw [List.length_append, hbatch, List.length_singleton]
      have hsettled : s.settle.number = waits.count true + 1 := by
        rw [hnumbered.number_settle, hnumber]
      rw [wait_item hrunning (hnumber ▸ hvalue), sinceTimeout_read, succ_mod_eq, hlength]
      split_ifs with hroom
      · exact ⟨(ending_issue s).trans hrunning, numbered_settle s, hsettled, hlength⟩
      · rw [ending_flush, number_flush, batch_flush]
        refine ⟨(ending_issue s).trans hrunning, Numbered.flush ?_, hsettled, rfl⟩
        exact numbered_settle s

/-- A generator that runs has taken items only. -/
theorem items_of_run {waits : List Bool}
    (hrunning : (run (wait limits source) {} waits).ending = none) :
    ∀ number < waits.count true, ∃ value, source number = .item value := by
  induction waits using List.reverseRecOn with
  | nil => exact fun _ h => nomatch h
  | append_singleton waits done ih =>
    rw [run_append] at hrunning
    have hbefore : (run (wait limits source) {} waits).ending = none := by
      rcases hending : (run (wait limits source) {} waits).ending with _ | ending
      · rfl
      · have hsame : wait limits source (run (wait limits source) {} waits) done = _ :=
          wait_ended hending done
        rw [run_cons, run_nil, hsame, hending] at hrunning
        cases hrunning
    have hitems := ih hbefore
    intro number hlt
    rw [List.count_append] at hlt
    by_cases hearlier : number < waits.count true
    · exact hitems number hearlier
    · obtain ⟨-, -, hnumber, -⟩ := run_of_items limits hitems
      cases done with
      | false => exact absurd hlt hearlier
      | true =>
        have hlast : number = (run (wait limits source) {} waits).number := by
          rw [hnumber]
          have : [true].count true = 1 := rfl
          omega
        rw [run_cons, run_nil] at hrunning
        rcases hread : source (run (wait limits source) {} waits).number with value | _ | error
        · exact ⟨value, hlast ▸ hread⟩
        · rw [wait_exhausted hbefore hread] at hrunning
          cases hrunning
        · rw [wait_raised hbefore hread] at hrunning
          cases hrunning

/-- The condition on the steps, read off the source and the waits. -/
theorem throughout_careful_iff (waits : List Bool) :
    Throughout (wait limits source) (Careful source) {} waits ↔
      RaisesOnBoundary limits source waits := by
  rw [throughout_iff_split]
  constructor
  · intro h before after error hwaits hfails
    obtain ⟨hrunning, -, hnumber, hbatch⟩ := run_of_items limits hfails.1
    have hempty := h before true after hwaits error hrunning rfl (hnumber ▸ hfails.2)
    rw [← hbatch, hempty]
    rfl
  · rintro h before done after hwaits error hrunning rfl hread
    have hitems := items_of_run hrunning
    obtain ⟨-, -, hnumber, hbatch⟩ := run_of_items limits hitems
    rw [hnumber] at hread
    exact List.length_eq_zero_iff.mp (hbatch.trans (h before after error hwaits ⟨hitems, hread⟩))

/-- **When the batches lose nothing.**  For every source and every way the waits end, no item is lost,
repeated or reordered and every batch has an admitted size, exactly when the source does not raise, or
its exception is read when the items read since the last timeout fill whole batches. -/
theorem lossless_iff (limits : BatchLimits) (source : ℕ → Read T) (waits : List Bool) :
    Always (wait limits source) (Lossless limits source) {} waits ↔
      RaisesOnBoundary limits source waits :=
  (always_iff_throughout (fun _ _ h hcareful => h.step hcareful) (fun _ h => h.lossless)
    (fun _ _ h hcareless => h.not_lossless hcareless) invariant_initial waits).trans
    (throughout_careful_iff waits)

/-- The limits of `run_provider`. -/
def providerLimits : BatchLimits where
  maxBatchSize := 50
  maxWaitSeconds := 1 / 4
  size_pos := by norm_num
  wait_pos := by norm_num

/-- A provider that yields one event and raises at the next fetch. -/
def failingFetch : ℕ → Read String
  | 0 => .item "trade"
  | _ => .raised (.timeoutError "fetch")

/-- **An accepted event is never yielded**: the exception takes its batch away. -/
theorem discarded_batch :
    ¬ Always (wait providerLimits failingFetch) (Lossless providerLimits failingFetch) {}
        [true, true] ∧
      (run (wait providerLimits failingFetch) {} [true, true]).produced failingFetch = ["trade"] ∧
      (run (wait providerLimits failingFetch) {} [true, true]).yielded = [] := by
  refine ⟨fun h => ?_, rfl, rfl⟩
  have hended : ([] : List (List String)).flatten = ["trade"] := h.2.2.ended rfl
  cases hended

end Batches

end Resilience
end Scam2Market
