import Scam2Market.Library.Runs
import Scam2Market.Python.Values
import Mathlib.Tactic.Linarith

/-!
# The circuit breaker

`resilience/circuit_breaker.py`.  A call is cut at the places where it waits: for the lock before the
operation (`enter`), for the operation, and for the lock after it (`succeed`, `fail`).  A cancelled call
leaves through no `except Exception`: it writes nothing.

* `Breaker.Sound`: one probe at most while the circuit is open, the flag says whether one runs, and when
  nothing runs a call is admitted once the recovery interval is over.
* `Breaker.Invariant`: how many probes run.
* `sound_iff`: the exact condition.  A probe is not cancelled, and a call that was admitted while the
  circuit was closed does not end while a probe runs.
-/

namespace Scam2Market
namespace Resilience

open Library

/-! ## The breaker -/

inductive CircuitState where
  | closed
  | isOpen
  | halfOpen
  deriving DecidableEq, Repr

/-- The arguments of the constructor; both limits are positive. -/
structure CircuitBreaker where
  name : String
  failureThreshold : ℕ := 3
  recoverySeconds : ℚ := 30
  threshold_pos : 1 ≤ failureThreshold
  recovery_pos : 0 < recoverySeconds

section Limits

variable {limit : ℕ} {seconds : ℚ} (h : ¬ (limit < 1 ∨ seconds ≤ 0))
include h

theorem one_le_of_limits : 1 ≤ limit :=
  not_lt.mp (not_or.mp h).1

theorem pos_of_limits : 0 < seconds :=
  not_le.mp (not_or.mp h).2

end Limits

/-- `CircuitBreaker(name, failure_threshold=..., recovery_seconds=...)`. -/
def CircuitBreaker.validate (name : String) (failureThreshold : ℕ) (recoverySeconds : ℚ) :
    Except PyError CircuitBreaker :=
  if h : failureThreshold < 1 ∨ recoverySeconds ≤ 0 then
    .error (.valueError "circuit breaker limits must be positive")
  else
    .ok ⟨name, failureThreshold, recoverySeconds, one_le_of_limits h, pos_of_limits h⟩

/-- What a breaker remembers; instants are seconds of the monotonic clock. -/
structure BreakerState where
  failures : ℕ := 0
  openedAt : Option ℚ := none
  halfOpenInFlight : Bool := false
  deriving DecidableEq

structure CircuitSnapshot where
  name : String
  state : CircuitState
  failureCount : ℕ
  openedForSeconds : Option ℚ

namespace CircuitBreaker

variable (breaker : CircuitBreaker)

/-- What is done under the lock before the operation. -/
def enter (now : ℚ) (st : BreakerState) : Except PyError BreakerState :=
  match st.openedAt with
  | some openedAt =>
    if now - openedAt < breaker.recoverySeconds then
      .error (.runtimeError s!"{breaker.name} circuit is open")
    else if st.halfOpenInFlight then
      .error (.runtimeError s!"{breaker.name} half-open probe is already running")
    else .ok { st with halfOpenInFlight := true }
  | none => .ok st

/-- What is done under the lock when the operation has raised. -/
def fail (now : ℚ) (st : BreakerState) : BreakerState :=
  { failures := st.failures + 1
    openedAt := if breaker.failureThreshold ≤ st.failures + 1 then some now else st.openedAt
    halfOpenInFlight := false }

/-- What is done under the lock when the operation has returned. -/
def succeed : BreakerState :=
  { failures := 0, openedAt := none, halfOpenInFlight := false }

/-- `snapshot()`. -/
def snapshot (now : ℚ) (st : BreakerState) : CircuitSnapshot :=
  let openedFor := st.openedAt.map fun openedAt => now - openedAt
  { name := breaker.name
    state := match openedFor with
      | none => .closed
      | some seconds => if breaker.recoverySeconds ≤ seconds then .halfOpen else .isOpen
    failureCount := st.failures
    openedForSeconds := openedFor }

end CircuitBreaker

/-! ## Calls side by side -/

/-- Where a call waits, or how it has ended. -/
inductive CallPhase where
  | entered
  | running
  | returning
  | raising (error : PyError)
  | ended (outcome : Except PyError Unit)
  | cancelled

/-- The operation runs, or its outcome is still to be recorded. -/
def CallPhase.inFlight : CallPhase → Bool
  | running => true
  | returning => true
  | raising _ => true
  | _ => false

/-- The outcome is still to be recorded. -/
def CallPhase.finished : CallPhase → Bool
  | returning => true
  | raising _ => true
  | _ => false

/-- A call; `probe` says whether it was admitted while the circuit was open. -/
structure Call where
  phase : CallPhase := .entered
  probe : Bool := false

def Call.isProbe (call : Call) : Bool :=
  call.phase.inFlight && call.probe

/-- The breaker, the clock and the calls; `lastFailure` is when the last failure was recorded. -/
structure Breaker where
  state : BreakerState := {}
  clock : ℚ := 0
  calls : List Call := []
  lastFailure : Option ℚ := none

inductive Move where
  | wait (seconds : ℚ) (nonneg : 0 ≤ seconds)
  | call
  | enter (index : ℕ)
  | finish (index : ℕ) (outcome : Except PyError Unit)
  | record (index : ℕ)
  | cancel (index : ℕ)

namespace Breaker

variable (breaker : CircuitBreaker)

/-- A call that waits for the lock before the operation. -/
def enter (s : Breaker) (index : ℕ) : Breaker :=
  match s.calls[index]? with
  | some { phase := .entered, .. } =>
    match breaker.enter s.clock s.state with
    | .ok state =>
      { s with
        state := state
        calls := s.calls.set index { phase := .running, probe := s.state.openedAt.isSome } }
    | .error error => { s with calls := s.calls.set index { phase := .ended (.error error) } }
  | _ => s

/-- The operation of a call ends. -/
def finish (s : Breaker) (index : ℕ) (outcome : Except PyError Unit) : Breaker :=
  match s.calls[index]? with
  | some { phase := .running, probe } =>
    match outcome with
    | .ok () => { s with calls := s.calls.set index { phase := .returning, probe } }
    | .error error => { s with calls := s.calls.set index { phase := .raising error, probe } }
  | _ => s

/-- A call that waits for the lock after the operation. -/
def record (s : Breaker) (index : ℕ) : Breaker :=
  match s.calls[index]? with
  | some { phase := .returning, probe } =>
    { s with
      state := CircuitBreaker.succeed
      calls := s.calls.set index { phase := .ended (.ok ()), probe } }
  | some { phase := .raising error, probe } =>
    { s with
      state := breaker.fail s.clock s.state
      lastFailure := some s.clock
      calls := s.calls.set index { phase := .ended (.error error), probe } }
  | _ => s

/-- A call is cancelled where it waits. -/
def cancel (s : Breaker) (index : ℕ) : Breaker :=
  match s.calls[index]? with
  | some { phase := .ended _, .. } => s
  | some { probe, .. } => { s with calls := s.calls.set index { phase := .cancelled, probe } }
  | none => s

def step (s : Breaker) : Move → Breaker
  | .wait seconds _ => { s with clock := s.clock + seconds }
  | .call => { s with calls := s.calls ++ [{}] }
  | .enter index => s.enter breaker index
  | .finish index outcome => s.finish index outcome
  | .record index => s.record breaker index
  | .cancel index => s.cancel index

/-- How many probes run. -/
def probes (s : Breaker) : ℕ :=
  s.calls.countP Call.isProbe

/-- No operation runs. -/
def Quiet (s : Breaker) : Prop :=
  ∀ call ∈ s.calls, call.phase.inFlight = false

/-- The circuit is open at most one probe runs; the flag is true exactly while one runs; and when no
operation runs, a call is admitted once the recovery interval since the last failure is over. -/
structure Sound (s : Breaker) : Prop where
  exclusive : (breaker.snapshot s.clock s.state).state ≠ .closed → s.probes ≤ 1
  flag : s.state.halfOpenInFlight = true ↔ 0 < s.probes
  admits : s.Quiet → ∀ now, s.clock ≤ now →
    (∀ failure ∈ s.lastFailure, breaker.recoverySeconds ≤ now - failure) →
    ∃ state, breaker.enter now s.state = .ok state

/-- The condition on a step: no probe is cancelled, and no other call records its outcome while a probe
runs. -/
def Careful (s : Breaker) : Move → Prop
  | .cancel index => ∀ call, s.calls[index]? = some call → call.isProbe = false
  | .record index => ∀ call, s.calls[index]? = some call → call.phase.finished = true →
    call.probe = false → s.probes = 0
  | _ => True

/-! ## How many probes run -/

/-- As many probes run as the flag says; when the circuit is open, it was opened by the last failure, and
the failures have reached the threshold. -/
structure Invariant (s : Breaker) : Prop where
  count : s.probes = if s.state.halfOpenInFlight then 1 else 0
  opened : ∀ openedAt, s.state.openedAt = some openedAt → s.lastFailure = some openedAt
  full : s.state.openedAt ≠ none → breaker.failureThreshold ≤ s.state.failures

variable {breaker}

theorem invariant_initial : Invariant breaker {} where
  count := rfl
  opened _ h := by cases h
  full h := absurd rfl h

/-- A call is replaced: it counts no more, and the new one counts. -/
theorem countP_set {calls : List Call} {index : ℕ} {call : Call} (h : calls[index]? = some call)
    (call' : Call) : (calls.set index call').countP Call.isProbe + (if call.isProbe then 1 else 0) =
      calls.countP Call.isProbe + (if call'.isProbe then 1 else 0) := by
  obtain ⟨hlt, rfl⟩ := List.getElem?_eq_some_iff.mp h
  have hset := List.countP_set (p := Call.isProbe) (a := call') hlt
  have hpos : (if calls[index].isProbe = true then 1 else 0) ≤ calls.countP Call.isProbe := by
    split_ifs with hprobe
    · exact List.countP_pos_iff.mpr ⟨_, List.getElem_mem hlt, hprobe⟩
    · exact Nat.zero_le _
  omega

/-- A call is replaced by one that counts as it does. -/
theorem Invariant.count_set {s : Breaker} (h : Invariant breaker s) {index : ℕ} {call call' : Call}
    (hcall : s.calls[index]? = some call) (heq : call'.isProbe = call.isProbe) :
    (s.calls.set index call').countP Call.isProbe =
      if s.state.halfOpenInFlight then 1 else 0 := by
  have hset := countP_set hcall call'
  rw [heq] at hset
  exact (Nat.add_right_cancel hset).trans h.count

/-- What becomes of a call that asks to be admitted. -/
theorem enter_cases (now : ℚ) (st : BreakerState) :
    (st.openedAt = none ∧ breaker.enter now st = .ok st) ∨
      (∃ error, breaker.enter now st = .error error) ∨
      ∃ openedAt, st.openedAt = some openedAt ∧ st.halfOpenInFlight = false ∧
        breaker.enter now st = .ok { st with halfOpenInFlight := true } := by
  unfold CircuitBreaker.enter
  rcases hopened : st.openedAt with _ | openedAt
  · exact Or.inl ⟨rfl, rfl⟩
  · simp only
    split_ifs with hearly hflag
    · exact Or.inr (Or.inl ⟨_, rfl⟩)
    · exact Or.inr (Or.inl ⟨_, rfl⟩)
    · exact Or.inr (Or.inr ⟨openedAt, rfl, Bool.eq_false_iff.mpr hflag, rfl⟩)

theorem Invariant.enter {s : Breaker} (h : Invariant breaker s) (index : ℕ) :
    Invariant breaker (s.enter breaker index) := by
  unfold Breaker.enter
  split
  case h_1 probe hcall =>
    rcases enter_cases s.clock s.state with
      ⟨hclosed, henter⟩ | ⟨error, henter⟩ | ⟨openedAt, hopen, hflag, henter⟩
    · rw [henter, hclosed]
      exact ⟨h.count_set hcall rfl, h.opened, h.full⟩
    · rw [henter]
      exact ⟨h.count_set hcall rfl, h.opened, h.full⟩
    · -- a probe
      rw [henter]
      have hprobe : s.state.openedAt.isSome = true := by
        rw [hopen]
        rfl
      have hcount := h.count
      rw [hflag] at hcount
      have hset := countP_set hcall { phase := .running, probe := s.state.openedAt.isSome }
      have hnone : s.calls.countP Call.isProbe = 0 := hcount
      rw [hnone] at hset
      refine ⟨?_, h.opened, h.full⟩
      show (s.calls.set index _).countP Call.isProbe = 1
      simpa [Call.isProbe, CallPhase.inFlight, hprobe] using hset
  case h_2 => exact h

theorem Invariant.finish {s : Breaker} (h : Invariant breaker s) (index : ℕ)
    (outcome : Except PyError Unit) : Invariant breaker (s.finish index outcome) := by
  unfold Breaker.finish
  split
  case h_1 probe hcall =>
    cases outcome with
    | ok value => exact ⟨h.count_set hcall rfl, h.opened, h.full⟩
    | error error => exact ⟨h.count_set hcall rfl, h.opened, h.full⟩
  case h_2 => exact h

/-- When the outcome of a call is recorded with care, no probe runs any more. -/
theorem probes_recorded {s : Breaker} (h : Invariant breaker s) {index : ℕ} {call call' : Call}
    (hcall : s.calls[index]? = some call) (hfinished : call.phase.finished = true)
    (hended : call'.isProbe = false) (hcareful : call.probe = false → s.probes = 0) :
    (s.calls.set index call').countP Call.isProbe = 0 := by
  have hset := countP_set hcall call'
  have hcount : s.calls.countP Call.isProbe = if s.state.halfOpenInFlight then 1 else 0 := h.count
  rw [hended] at hset
  cases hprobe : call.probe with
  | false =>
    have hnone : s.calls.countP Call.isProbe = 0 := hcareful hprobe
    simp only [hnone, Bool.false_eq_true, if_false, Nat.add_zero] at hset
    exact Nat.eq_zero_of_add_eq_zero_right hset
  | true =>
    have hcounts : call.isProbe = true := by
      obtain ⟨phase, probe⟩ := call
      cases phase with
      | returning => exact hprobe
      | raising error => exact hprobe
      | _ => cases hfinished
    rw [hcounts] at hset
    simp only [if_true, Bool.false_eq_true, if_false, Nat.add_zero] at hset
    split_ifs at hcount <;> omega

theorem Invariant.record {s : Breaker} (h : Invariant breaker s) {index : ℕ}
    (hcareful : s.Careful (.record index)) : Invariant breaker (s.record breaker index) := by
  unfold Breaker.record
  split
  case h_1 probe hcall =>
    exact ⟨probes_recorded h hcall rfl rfl (hcareful _ hcall rfl), fun _ ht => (nomatch ht),
      fun hne => absurd rfl hne⟩
  case h_2 error probe hcall =>
    refine ⟨probes_recorded h hcall rfl rfl (hcareful _ hcall rfl), fun t ht => ?_, fun hne => ?_⟩
    · -- once open, every failure opens the circuit anew
      have ht' : (if breaker.failureThreshold ≤ s.state.failures + 1 then some s.clock
        else s.state.openedAt) = some t := ht
      split_ifs at ht' with hfull
      · exact ht'
      · have hopen : s.state.openedAt ≠ none := by
          rw [ht']
          exact Option.some_ne_none t
        exact absurd (Nat.le_succ_of_le (h.full hopen)) hfull
    · have hne' : (if breaker.failureThreshold ≤ s.state.failures + 1 then some s.clock
        else s.state.openedAt) ≠ none := hne
      split_ifs at hne' with hfull
      · exact hfull
      · exact Nat.le_succ_of_le (h.full hne')
  case h_3 => exact h

theorem Invariant.cancel {s : Breaker} (h : Invariant breaker s) {index : ℕ}
    (hcareful : s.Careful (.cancel index)) : Invariant breaker (s.cancel index) := by
  unfold Breaker.cancel
  split
  case h_1 => exact h
  case h_2 phase probe _ hcall =>
    exact ⟨h.count_set hcall (hcareful _ hcall).symm, h.opened, h.full⟩
  case h_3 => exact h

/-- **A careful step keeps the invariant.** -/
theorem Invariant.step {s : Breaker} {move : Move} (h : Invariant breaker s)
    (hcareful : s.Careful move) : Invariant breaker (s.step breaker move) := by
  cases move with
  | wait seconds nonneg => exact ⟨h.count, h.opened, h.full⟩
  | call =>
    refine ⟨?_, h.opened, h.full⟩
    show (s.calls ++ [_]).countP Call.isProbe = _
    rw [List.countP_append]
    exact h.count
  | enter index => exact h.enter index
  | finish index outcome => exact h.finish index outcome
  | record index => exact h.record hcareful
  | cancel index => exact h.cancel hcareful

theorem Invariant.sound {s : Breaker} (h : Invariant breaker s) : s.Sound breaker where
  exclusive _ := by
    rw [h.count]
    split_ifs <;> omega
  flag := by
    rw [h.count]
    cases s.state.halfOpenInFlight <;> simp
  admits hquiet now _ helapsed := by
    have hnone : s.probes = 0 := by
      refine List.countP_eq_zero.mpr fun call hcall => ?_
      rw [Call.isProbe, hquiet call hcall]
      exact Bool.false_ne_true
    have hflag : s.state.halfOpenInFlight = false := by
      have hcount := h.count
      rw [hnone] at hcount
      cases hst : s.state.halfOpenInFlight with
      | false => rfl
      | true => rw [hst] at hcount; cases hcount
    unfold CircuitBreaker.enter
    rcases hopened : s.state.openedAt with _ | openedAt
    · exact ⟨_, rfl⟩
    · have hover := helapsed openedAt (h.opened openedAt hopened)
      simp only [if_neg (not_lt.mpr hover), hflag, Bool.false_eq_true, if_false]
      exact ⟨_, rfl⟩

theorem cancel_of_inFlight {s : Breaker} {index : ℕ} {call : Call}
    (hcall : s.calls[index]? = some call) (hphase : call.phase.inFlight = true) :
    s.cancel index =
      { s with calls := s.calls.set index { phase := .cancelled, probe := call.probe } } := by
  unfold Breaker.cancel
  rw [hcall]
  obtain ⟨phase, probe⟩ := call
  cases phase with
  | ended outcome => cases hphase
  | _ => rfl

/-- Recording an outcome takes the flag away. -/
theorem record_of_finished {s : Breaker} {index : ℕ} {call : Call}
    (hcall : s.calls[index]? = some call) (hphase : call.phase.finished = true) :
    (s.record breaker index).state.halfOpenInFlight = false ∧
      ∃ outcome, (s.record breaker index).calls =
        s.calls.set index { phase := .ended outcome, probe := call.probe } := by
  unfold Breaker.record
  rw [hcall]
  obtain ⟨phase, probe⟩ := call
  cases phase with
  | returning => exact ⟨rfl, _, rfl⟩
  | raising error => exact ⟨rfl, _, rfl⟩
  | _ => cases hphase

/-- A probe that is cancelled leaves the flag true. -/
theorem Invariant.not_sound_cancel {s : Breaker} (h : Invariant breaker s) {index : ℕ} {call : Call}
    (hcall : s.calls[index]? = some call) (hprobe : call.isProbe = true) :
    ¬ (s.cancel index).Sound breaker := by
  intro hsound
  have hflag := hsound.flag
  rw [cancel_of_inFlight hcall (Bool.and_eq_true_iff.mp hprobe).1] at hflag
  have hset : (s.calls.set index { phase := .cancelled, probe := call.probe }).countP Call.isProbe +
      (if call.isProbe then 1 else 0) = s.calls.countP Call.isProbe + 0 := countP_set hcall _
  have hcount : s.calls.countP Call.isProbe = if s.state.halfOpenInFlight then 1 else 0 := h.count
  rw [hprobe, if_pos rfl, Nat.add_zero, hcount] at hset
  have hpos : (s.state.halfOpenInFlight = true ↔
      0 < (s.calls.set index { phase := .cancelled, probe := call.probe }).countP Call.isProbe) := hflag
  cases hst : s.state.halfOpenInFlight with
  | true =>
    rw [hst, if_pos rfl] at hset
    have := hpos.mp hst
    omega
  | false =>
    rw [hst, if_neg Bool.false_ne_true] at hset
    exact Nat.succ_ne_zero _ hset

/-- A call that ends while a probe runs, and is none itself, takes the flag from it. -/
theorem not_sound_record {s : Breaker} {index : ℕ} {call : Call}
    (hcall : s.calls[index]? = some call) (hfinished : call.phase.finished = true)
    (hprobe : call.probe = false) (hruns : s.probes ≠ 0) :
    ¬ (s.record breaker index).Sound breaker := by
  intro hsound
  obtain ⟨hstate, outcome, hcalls⟩ := record_of_finished hcall hfinished
  have hsame : call.isProbe = false := by
    rw [Call.isProbe, hprobe, Bool.and_false]
  have hset : (s.calls.set index { phase := .ended outcome, probe := call.probe }).countP
      Call.isProbe + (if call.isProbe then 1 else 0) = s.calls.countP Call.isProbe + 0 :=
    countP_set hcall _
  rw [hsame, if_neg Bool.false_ne_true, Nat.add_zero, Nat.add_zero, ← hcalls] at hset
  have hpos : 0 < (s.record breaker index).probes := by
    rw [Breaker.probes, hset]
    exact Nat.pos_of_ne_zero hruns
  rw [hsound.flag.mpr hpos] at hstate
  cases hstate

/-- A careless step leaves the flag wrong. -/
theorem Invariant.not_sound {s : Breaker} {move : Move} (h : Invariant breaker s)
    (hcareless : ¬ s.Careful move) : ¬ (s.step breaker move).Sound breaker := by
  cases move with
  | cancel index =>
    obtain ⟨call, hcall⟩ := not_forall.mp hcareless
    obtain ⟨hcall, hprobe⟩ := Classical.not_imp.mp hcall
    exact h.not_sound_cancel hcall (Bool.not_eq_false _ ▸ hprobe)
  | record index =>
    obtain ⟨call, hcall⟩ := not_forall.mp hcareless
    obtain ⟨hcall, hrest⟩ := Classical.not_imp.mp hcall
    obtain ⟨hfinished, hrest⟩ := Classical.not_imp.mp hrest
    obtain ⟨hprobe, hruns⟩ := Classical.not_imp.mp hrest
    exact not_sound_record hcall hfinished hprobe hruns
  | wait seconds nonneg => exact absurd trivial hcareless
  | call => exact absurd trivial hcareless
  | enter index => exact absurd trivial hcareless
  | finish index outcome => exact absurd trivial hcareless

/-- **When the breaker keeps its promise.**  In a run of calls side by side every state is sound exactly
when no probe is cancelled, and no call that was admitted while the circuit was closed records its outcome
while a probe runs. -/
theorem sound_iff (breaker : CircuitBreaker) (moves : List Move) :
    Always (step breaker) (Sound breaker) {} moves ↔ Throughout (step breaker) Careful {} moves :=
  always_iff_throughout (fun _ _ h hcareful => h.step hcareful) (fun _ h => h.sound)
    (fun _ _ h hcareless => h.not_sound hcareless) invariant_initial moves

/-- A breaker that opens after one failure. -/
def singleFailure : CircuitBreaker where
  name := "disclosure-policy"
  failureThreshold := 1
  threshold_pos := Nat.one_pos
  recovery_pos := by norm_num

/-- A call fails; after the recovery interval a probe starts, and is cancelled. -/
def cancelledProbe : List Move :=
  [.call, .enter 0, .finish 0 (.error (.timeoutError "fetch")), .record 0, .wait 30 (by norm_num),
    .call, .enter 1, .cancel 1]

/-- **A probe that is cancelled closes the circuit to every later call**, however long after. -/
theorem cancelled_probe_blocks :
    ¬ Always (step singleFailure) (Sound singleFailure) {} cancelledProbe ∧
      (run (step singleFailure) {} cancelledProbe).Quiet ∧
      ∀ now, ∃ error, singleFailure.enter now
        (run (step singleFailure) {} cancelledProbe).state = .error error := by
  have hstate : (run (step singleFailure) {} cancelledProbe).state =
      { failures := 1, openedAt := some 0, halfOpenInFlight := true } := by decide +kernel
  have hprobes : (run (step singleFailure) {} cancelledProbe).probes = 0 := by decide +kernel
  refine ⟨fun h => ?_, ?_, fun now => ?_⟩
  · have hsound : (run (step singleFailure) {} cancelledProbe).Sound singleFailure :=
      h.2.2.2.2.2.2.2.2
    have hpos := hsound.flag.mp (by rw [hstate])
    rw [hprobes] at hpos
    exact lt_irrefl 0 hpos
  · unfold Quiet
    decide +kernel
  · rw [hstate]
    unfold CircuitBreaker.enter
    simp only
    split_ifs
    · exact ⟨_, rfl⟩
    · exact ⟨_, rfl⟩

end Breaker

end Resilience
end Scam2Market
