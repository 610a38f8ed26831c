import Scam2Market.Library.OrderedDict
import Scam2Market.Python.Values
import Mathlib.Data.List.Chain
import Mathlib.Data.List.Infix
import Mathlib.Tactic.Common

/-!
# The quality of a source

`ingestion/quality.py`: `SourceQualityTracker.observe`, which counts gaps in the sequence of a source and
keeps the state of its order book.

* `SourceQualityTracker.get_observeAll`: what the tracker says about a source and an asset is what the
  observations of that source and asset make of a fresh `SourceQuality`.
* `evidences`: what each observation shows (a book or not, a gap, its age), and the book state as a run
  over that evidence (`orderbookState_foldl`).
* `bookUnsynchronised_iff`: the exact condition under which no book is called valid while it is
  unsynchronised.  The book before a gap elsewhere, or the one after it, shows a fault itself.
* `validAfterGap`: a gap between two books, at a trade.
-/

namespace Scam2Market
namespace Ingestion

open Library

/-! ## The tracker -/

inductive OrderBookState where
  | valid
  | stale
  | gapDetected
  | resyncing
  | recovered
  deriving DecidableEq, Repr

structure SourceQuality where
  source : String
  assetId : String
  lastEventTime : Option Datetime := none
  lastIngestedAt : Option Datetime := none
  lastSequence : Option ℤ := none
  sequenceGapCount : ℤ := 0
  outOfOrderCount : ℕ := 0
  status : String := "STARTING"
  sourceActive : Bool := false
  sourceIdle : Bool := false
  sourceDegraded : Bool := false
  orderbookState : OrderBookState := .valid
  bookValid : Bool := true
  recoveryUpdates : ℕ := 0
  deriving DecidableEq

/-- The arguments of `observe`. -/
structure Observed where
  source : String
  assetId : String
  eventTime : Datetime
  ingestedAt : Datetime
  sequence : Option ℤ
  isOrderbook : Bool := false

/-- How a sequence number does not follow the last one. -/
inductive SequenceFault where
  | gap (missing : ℤ)
  | outOfOrder
  deriving DecidableEq, Repr

/-- `gap_detected`, and what it is. -/
def sequenceFault (last sequence : Option ℤ) : Option SequenceFault :=
  match sequence, last with
  | some sequence, some last =>
    if last + 1 < sequence then some (.gap (sequence - last - 1))
    else if sequence ≤ last then some .outOfOrder
    else none
  | _, _ => none

/-- `max(sequence, state.last_sequence or sequence)`: zero is falsy. -/
def nextSequence (last sequence : Option ℤ) : Option ℤ :=
  match sequence with
  | none => last
  | some sequence =>
    match last with
    | none => some sequence
    | some last => some (max sequence (if last = 0 then sequence else last))

/-- `max(0.0, (ingested_at - event_time).total_seconds())`. -/
def Observed.age (observed : Observed) : ℚ :=
  max 0 (totalSeconds (observed.ingestedAt - observed.eventTime))

/-- The book state after a book observation, and the counter beside it. -/
def OrderBookState.update (state : OrderBookState) (recoveryUpdates : ℕ) (isStale gapDetected : Bool) :
    OrderBookState × ℕ :=
  if isStale then (stale, 0)
  else if gapDetected then (.gapDetected, 0)
  else match state with
    | .gapDetected => (resyncing, 1)
    | stale => (resyncing, 1)
    | resyncing => (recovered, recoveryUpdates + 1)
    | recovered => (valid, recoveryUpdates)
    | valid => (valid, recoveryUpdates)

/-- The states in which the book is valid input. -/
def OrderBookState.isValid : OrderBookState → Bool
  | valid => true
  | recovered => true
  | _ => false

/-- `observe` on the quality of its source and asset; `threshold` is in seconds. -/
def SourceQuality.observe (threshold : ℤ) (state : SourceQuality) (observed : Observed) :
    SourceQuality :=
  let fault := sequenceFault state.lastSequence observed.sequence
  let isStale := decide (threshold < observed.age)
  let book :=
    if observed.isOrderbook then
      state.orderbookState.update state.recoveryUpdates isStale fault.isSome
    else (state.orderbookState, state.recoveryUpdates)
  let bookValid := if observed.isOrderbook then book.1.isValid else state.bookValid
  let degraded := isStale || fault.isSome || (observed.isOrderbook && !bookValid)
  { state with
    lastEventTime := some (max observed.eventTime (state.lastEventTime.getD observed.eventTime))
    lastIngestedAt := some observed.ingestedAt
    lastSequence := nextSequence state.lastSequence observed.sequence
    sequenceGapCount := match fault with
      | some (.gap missing) => state.sequenceGapCount + missing
      | _ => state.sequenceGapCount
    outOfOrderCount := match fault with
      | some .outOfOrder => state.outOfOrderCount + 1
      | _ => state.outOfOrderCount
    status := if degraded then "DEGRADED" else "HEALTHY"
    sourceActive := true
    sourceIdle := false
    sourceDegraded := degraded
    orderbookState := book.1
    bookValid := bookValid
    recoveryUpdates := book.2 }

structure SourceQualityTracker where
  threshold : ℤ
  states : OrderedDict (String × String) SourceQuality := .empty

namespace SourceQualityTracker

/-- `get(source, asset_id)`. -/
def get (tracker : SourceQualityTracker) (source assetId : String) : Option SourceQuality :=
  tracker.states.get? (source, assetId)

/-- `observe(...)`. -/
def observe (tracker : SourceQualityTracker) (observed : Observed) : SourceQualityTracker :=
  let key := (observed.source, observed.assetId)
  let state := tracker.states.getD key { source := observed.source, assetId := observed.assetId }
  { tracker with states := tracker.states.set key (state.observe tracker.threshold observed) }

/-- A new tracker after the observations. -/
def observeAll (threshold : ℤ) (observations : List Observed) : SourceQualityTracker :=
  observations.foldl observe { threshold := threshold }

end SourceQualityTracker

/-- The observation is one of the source and the asset. -/
def Observed.isOf (source assetId : String) (observed : Observed) : Bool :=
  (observed.source, observed.assetId) = (source, assetId)

/-- The quality of a source and an asset after its observations. -/
def SourceQuality.ofObservations (threshold : ℤ) (source assetId : String)
    (observations : List Observed) : SourceQuality :=
  observations.foldl (SourceQuality.observe threshold) { source := source, assetId := assetId }

namespace SourceQualityTracker

variable {threshold : ℤ} {source assetId : String}

theorem observeAll_append_singleton (observations : List Observed) (observed : Observed) :
    observeAll threshold (observations ++ [observed]) =
      (observeAll threshold observations).observe observed :=
  List.foldl_append

theorem threshold_observeAll (observations : List Observed) :
    (observeAll threshold observations).threshold = threshold := by
  induction observations using List.reverseRecOn with
  | nil => rfl
  | append_singleton observations observed ih =>
    rw [observeAll_append_singleton]
    exact ih

/-- **The tracker keeps its sources and assets apart.** -/
theorem get_observeAll (observations : List Observed) :
    (observeAll threshold observations).get source assetId =
      match observations.filter (Observed.isOf source assetId) with
      | [] => none
      | own => some (SourceQuality.ofObservations threshold source assetId own) := by
  induction observations using List.reverseRecOn with
  | nil => rfl
  | append_singleton observations observed ih =>
    rw [observeAll_append_singleton, List.filter_append]
    have hthreshold : (observeAll threshold observations).threshold = threshold :=
      threshold_observeAll observations
    by_cases hown : Observed.isOf source assetId observed = true
    · obtain ⟨hsource, hasset⟩ := Prod.mk.injEq .. ▸ of_decide_eq_true hown
      rw [List.filter_cons_of_pos hown, List.filter_nil, observe, get, hsource, hasset,
        OrderedDict.get?_set_self, hthreshold, OrderedDict.getD]
      rw [get] at ih
      rw [ih]
      rcases observations.filter (Observed.isOf source assetId) with _ | ⟨first, rest⟩
      · rfl
      · simp only [List.cons_append, SourceQuality.ofObservations, List.foldl_cons,
          List.foldl_append, List.foldl_nil, Option.getD_some]
    · have hkey : (source, assetId) ≠ (observed.source, observed.assetId) := fun hkey =>
        hown (decide_eq_true hkey.symm)
      rw [List.filter_cons_of_neg hown, List.filter_nil, List.append_nil, ← ih, observe, get,
        OrderedDict.get?_set_of_ne _ _ hkey, get]

end SourceQualityTracker

/-! ## What an observation shows -/

/-- What the tracker reads off an observation; `gap` is a gap or a number out of order. -/
structure Evidence where
  isOrderbook : Bool
  gap : Bool
  isStale : Bool
  deriving DecidableEq

def Observed.evidence (threshold : ℤ) (last : Option ℤ) (observed : Observed) : Evidence where
  isOrderbook := observed.isOrderbook
  gap := (sequenceFault last observed.sequence).isSome
  isStale := decide (threshold < observed.age)

/-- What the observations show, after the last sequence number. -/
def evidences (threshold : ℤ) : Option ℤ → List Observed → List Evidence
  | _, [] => []
  | last, observed :: observations =>
    observed.evidence threshold last ::
      evidences threshold (nextSequence last observed.sequence) observations

namespace Evidence

/-- A gap or a number out of order, or a book that is too old. -/
def fault (evidence : Evidence) : Bool :=
  evidence.gap || (evidence.isOrderbook && evidence.isStale)

/-- A fresh book without a new gap. -/
def clean (evidence : Evidence) : Bool :=
  evidence.isOrderbook && !evidence.gap && !evidence.isStale

theorem fault_of_not_clean {evidence : Evidence} (hbook : evidence.isOrderbook = true)
    (hclean : evidence.clean = false) : evidence.fault = true := by
  obtain ⟨isOrderbook, gap, isStale⟩ := evidence
  cases hbook
  cases gap <;> cases isStale <;> first | rfl | cases hclean

theorem fault_eq_false_of_clean {evidence : Evidence} (hclean : evidence.clean = true) :
    evidence.fault = false := by
  obtain ⟨isOrderbook, gap, isStale⟩ := evidence
  cases isOrderbook <;> cases gap <;> cases isStale <;> first | rfl | cases hclean

end Evidence

theorem evidences_append (threshold : ℤ) (last : Option ℤ) (before after : List Observed) :
    ∃ last', evidences threshold last (before ++ after) =
      evidences threshold last before ++ evidences threshold last' after := by
  induction before generalizing last with
  | nil => exact ⟨last, rfl⟩
  | cons observed before ih =>
    obtain ⟨last', hlast'⟩ := ih (nextSequence last observed.sequence)
    exact ⟨last', congrArg (observed.evidence threshold last :: ·) hlast'⟩

@[simp] theorem length_evidences (threshold : ℤ) (last : Option ℤ) (observations : List Observed) :
    (evidences threshold last observations).length = observations.length := by
  induction observations generalizing last with
  | nil => rfl
  | cons observed observations ih => exact congrArg (· + 1) (ih _)

/-! ## The book state -/

namespace OrderBookState

/-- The book state after an observation. -/
def next (state : OrderBookState) (evidence : Evidence) : OrderBookState :=
  if evidence.isOrderbook then (state.update 0 evidence.isStale evidence.gap).1 else state

/-- The last book was refused. -/
def isFaulty : OrderBookState → Bool
  | stale => true
  | gapDetected => true
  | _ => false

theorem update_fst (state : OrderBookState) (recoveryUpdates : ℕ) (isStale gapDetected : Bool) :
    (state.update recoveryUpdates isStale gapDetected).1 = (state.update 0 isStale gapDetected).1 := by
  unfold update
  cases state <;> cases isStale <;> cases gapDetected <;> rfl

theorem next_other {state : OrderBookState} {evidence : Evidence}
    (hother : evidence.isOrderbook = false) : state.next evidence = state := by
  rw [next, hother]
  rfl

theorem isFaulty_next_fault {state : OrderBookState} {evidence : Evidence}
    (hbook : evidence.isOrderbook = true) (hfault : evidence.fault = true) :
    (state.next evidence).isFaulty = true := by
  obtain ⟨isOrderbook, gap, isStale⟩ := evidence
  cases hbook
  cases gap <;> cases isStale <;> first | rfl | cases hfault

/-- A clean book is one step of the recovery. -/
theorem next_clean {state : OrderBookState} {evidence : Evidence} (hclean : evidence.clean = true) :
    state.next evidence =
      match state with
      | gapDetected => resyncing
      | stale => resyncing
      | resyncing => recovered
      | recovered => valid
      | valid => valid := by
  obtain ⟨isOrderbook, gap, isStale⟩ := evidence
  cases isOrderbook <;> cases gap <;> cases isStale <;> first | (cases state <;> rfl) | cases hclean

/-- The books alone move the book state. -/
theorem foldl_next_filter (state : OrderBookState) (seen : List Evidence) :
    (seen.filter Evidence.isOrderbook).foldl next state = seen.foldl next state := by
  induction seen generalizing state with
  | nil => rfl
  | cons evidence seen ih =>
    by_cases hbook : evidence.isOrderbook = true
    · rw [List.filter_cons_of_pos hbook]
      exact ih _
    · rw [List.filter_cons_of_neg hbook, List.foldl_cons, next_other (Bool.eq_false_iff.mpr hbook)]
      exact ih _

end OrderBookState

/-- The book state is a run over what the observations show, and the book is valid in two states. -/
theorem orderbookState_foldl (threshold : ℤ) (state : SourceQuality) (observations : List Observed)
    (hvalid : state.bookValid = state.orderbookState.isValid) :
    (observations.foldl (SourceQuality.observe threshold) state).orderbookState =
        (evidences threshold state.lastSequence observations).foldl OrderBookState.next
          state.orderbookState ∧
      (observations.foldl (SourceQuality.observe threshold) state).bookValid =
        (observations.foldl (SourceQuality.observe threshold) state).orderbookState.isValid := by
  induction observations generalizing state with
  | nil => exact ⟨rfl, hvalid⟩
  | cons observed observations ih =>
    have hnext : (state.observe threshold observed).orderbookState =
        state.orderbookState.next (observed.evidence threshold state.lastSequence) := by
      rw [SourceQuality.observe, OrderBookState.next, Observed.evidence]
      cases observed.isOrderbook with
      | false => rfl
      | true => exact OrderBookState.update_fst _ _ _ _
    have hvalid' : (state.observe threshold observed).bookValid =
        (state.observe threshold observed).orderbookState.isValid := by
      rw [SourceQuality.observe]
      cases observed.isOrderbook with
      | false => exact hvalid
      | true => rfl
    obtain ⟨hstate, hbook⟩ := ih (state.observe threshold observed) hvalid'
    refine ⟨?_, hbook⟩
    rw [List.foldl_cons, hstate, hnext]
    rfl

/-! ## Synchronised books -/

/-- No two books in a row are clean. -/
def NotResynced (after : List Evidence) : Prop :=
  (after.filter Evidence.isOrderbook).IsChain fun first second =>
    ¬ (first.clean = true ∧ second.clean = true)

/-- After a fault a book was seen, and no two clean ones in a row. -/
def Unsynchronised (seen : List Evidence) : Prop :=
  ∃ before evidence after, seen = before ++ evidence :: after ∧ evidence.fault = true ∧
    (∃ book ∈ after, book.isOrderbook = true) ∧ NotResynced after

/-- The book before the end shows a fault. -/
def EndsFaulty (seen : List Evidence) : Prop :=
  ∃ book ∈ (seen.filter Evidence.isOrderbook).getLast?, book.fault = true

/-- A gap that no book shows stands between books of which one shows a fault itself. -/
def GapsShown (seen : List Evidence) : Prop :=
  ∀ before evidence between book after,
    seen = before ++ evidence :: (between ++ book :: after) →
    evidence.isOrderbook = false → evidence.gap = true →
    (∀ other ∈ between, other.isOrderbook = false) → book.clean = true → EndsFaulty before

namespace OrderBookState

/-- The book state remembers whether the last book showed a fault. -/
theorem isFaulty_foldl_iff (seen : List Evidence) :
    (seen.foldl next valid).isFaulty = true ↔ EndsFaulty seen := by
  induction seen using List.reverseRecOn with
  | nil => exact ⟨fun h => (nomatch h), fun ⟨_, h, _⟩ => (nomatch h)⟩
  | append_singleton seen evidence ih =>
    rw [List.foldl_append, EndsFaulty, List.filter_append]
    show (next _ evidence).isFaulty = true ↔ _
    by_cases hbook : evidence.isOrderbook = true
    · rw [List.filter_cons_of_pos hbook, List.filter_nil, List.getLast?_append, List.getLast?_singleton]
      show _ ↔ ∃ book ∈ some evidence, _
      rcases hfault : evidence.fault with _ | _
      · have hclean : evidence.clean = true := by
          rcases hclean : evidence.clean with _ | _
          · rw [Evidence.fault_of_not_clean hbook hclean] at hfault
            cases hfault
          · rfl
        rw [next_clean hclean]
        constructor
        · intro h
          split at h <;> cases h
        · rintro ⟨_, ⟨⟩, h⟩
          rw [hfault] at h
          cases h
      · exact ⟨fun _ => ⟨evidence, rfl, hfault⟩, fun _ => isFaulty_next_fault hbook hfault⟩
    · rw [List.filter_cons_of_neg hbook, List.filter_nil, List.append_nil,
        next_other (Bool.eq_false_iff.mpr hbook)]
      exact ih

/-- The state says how many clean books it has seen: none, or one with no clean one to follow. -/
theorem not_isValid_foldl_books (books : List Evidence) (state : OrderBookState)
    (hbooks : ∀ book ∈ books, book.isOrderbook = true)
    (hchain : books.IsChain fun first second => ¬ (first.clean = true ∧ second.clean = true))
    (hstate : state.isFaulty = true ∨
      state = resyncing ∧ ∀ book ∈ books.head?, book.clean = false) :
    (books.foldl next state).isValid = false := by
  induction books generalizing state with
  | nil =>
    rcases hstate with hfaulty | ⟨rfl, -⟩
    · cases state <;> first | rfl | cases hfaulty
    · rfl
  | cons book books ih =>
    refine ih _ (fun other hother => hbooks other (List.mem_cons_of_mem _ hother)) hchain.tail ?_
    rcases hclean : book.clean with _ | _
    · exact .inl (isFaulty_next_fault (hbooks book List.mem_cons_self)
        (Evidence.fault_of_not_clean (hbooks book List.mem_cons_self) hclean))
    · right
      have hfaulty : state.isFaulty = true := by
        rcases hstate with hfaulty | ⟨-, hhead⟩
        · exact hfaulty
        · rw [hhead book rfl] at hclean
          cases hclean
      constructor
      · rw [next_clean hclean]
        cases state <;> first | rfl | cases hfaulty
      · intro second hsecond
        have hpair := (List.isChain_cons.mp hchain).1 second hsecond
        exact Bool.eq_false_iff.mpr fun hsecond => hpair ⟨hclean, hsecond⟩

/-- A fault is remembered until two clean books in a row are seen. -/
theorem not_isValid_foldl {state : OrderBookState} (hfaulty : state.isFaulty = true)
    {after : List Evidence} (hafter : NotResynced after) :
    (after.foldl next state).isValid = false := by
  rw [← foldl_next_filter]
  exact not_isValid_foldl_books _ state (fun book hbook => (List.mem_filter.mp hbook).2) hafter
    (.inl hfaulty)

end OrderBookState

/-- The observations up to the first book. -/
theorem exists_first_book {after : List Evidence} (hbook : ∃ book ∈ after, book.isOrderbook = true) :
    ∃ between book rest, after = between ++ book :: rest ∧ book.isOrderbook = true ∧
      ∀ other ∈ between, other.isOrderbook = false := by
  induction after with
  | nil => exact absurd hbook (by simp)
  | cons first after ih =>
    rcases hfirst : first.isOrderbook with _ | _
    · obtain ⟨book, hmem, hbook⟩ := hbook
      have hmem : book ∈ after := by
        rcases List.mem_cons.mp hmem with rfl | hmem
        · rw [hfirst] at hbook
          cases hbook
        · exact hmem
      obtain ⟨between, book, rest, rfl, hbook, hbetween⟩ := ih ⟨book, hmem, hbook⟩
      refine ⟨first :: between, book, rest, rfl, hbook, fun other hother => ?_⟩
      rcases List.mem_cons.mp hother with rfl | hother
      · exact hfirst
      · exact hbetween other hother
    · exact ⟨[], first, after, rfl, hfirst, fun _ h => nomatch h⟩

theorem filter_isOrderbook_between {between : List Evidence}
    (hbetween : ∀ other ∈ between, other.isOrderbook = false) :
    between.filter Evidence.isOrderbook = [] :=
  List.filter_eq_nil_iff.mpr fun other hother => by
    rw [hbetween other hother]
    exact Bool.false_ne_true

/-- **The condition, on what the observations show.** -/
theorem gapsShown_iff (observations : List Evidence) :
    (∀ seen rest, observations = seen ++ rest → Unsynchronised seen →
        (seen.foldl OrderBookState.next .valid).isValid = false) ↔ GapsShown observations := by
  constructor
  · intro h before evidence between book after hsplit hother hgap hbetween hclean
    have hbooks : (between ++ [book]).filter Evidence.isOrderbook = [book] := by
      have hbook : book.isOrderbook = true := by
        rw [Evidence.clean, Bool.and_assoc] at hclean
        exact (Bool.and_eq_true_iff.mp hclean).1
      rw [List.filter_append, filter_isOrderbook_between hbetween, List.filter_cons_of_pos hbook]
      rfl
    have hfault : evidence.fault = true := by rw [Evidence.fault, hgap, Bool.true_or]
    have hinvalid := h (before ++ evidence :: (between ++ [book])) after (by simp [hsplit])
      ⟨before, evidence, between ++ [book], rfl, hfault,
        ⟨book, by simp, List.of_mem_filter (hbooks ▸ List.mem_singleton_self book)⟩,
        by rw [NotResynced, hbooks]; exact List.isChain_singleton _⟩
    rw [← OrderBookState.isFaulty_foldl_iff]
    rw [List.foldl_append, List.foldl_cons, OrderBookState.next_other hother,
      ← OrderBookState.foldl_next_filter _ (between ++ [book]), hbooks, List.foldl_cons,
      List.foldl_nil, OrderBookState.next_clean hclean] at hinvalid
    generalize before.foldl OrderBookState.next .valid = state at hinvalid ⊢
    cases state <;> first | rfl | cases hinvalid
  · rintro h seen rest hsplit ⟨before, evidence, after, rfl, hfault, hbook, hafter⟩
    rw [List.foldl_append, List.foldl_cons]
    rcases hkind : evidence.isOrderbook with _ | _
    · obtain ⟨between, book, later, rfl, hbook, hbetween⟩ := exists_first_book hbook
      rw [OrderBookState.next_other hkind]
      rcases hclean : book.clean with _ | _
      · have hlater : NotResynced later := by
          rw [NotResynced, List.filter_append, filter_isOrderbook_between hbetween, List.nil_append,
            List.filter_cons_of_pos hbook] at hafter
          exact hafter.tail
        rw [List.foldl_append, List.foldl_cons]
        exact OrderBookState.not_isValid_foldl (OrderBookState.isFaulty_next_fault hbook
          (Evidence.fault_of_not_clean hbook hclean)) hlater
      · have hgap : evidence.gap = true := by
          rw [Evidence.fault, hkind, Bool.false_and, Bool.or_false] at hfault
          exact hfault
        have hends : EndsFaulty before :=
          h before evidence between book (later ++ rest) (by simp [hsplit]) hkind hgap hbetween hclean
        exact OrderBookState.not_isValid_foldl
          ((OrderBookState.isFaulty_foldl_iff before).mpr hends) hafter
    · exact OrderBookState.not_isValid_foldl (OrderBookState.isFaulty_next_fault hkind hfault) hafter

/-- What the observations of a source and an asset show. -/
def shown (threshold : ℤ) (source assetId : String) (observations : List Observed) : List Evidence :=
  evidences threshold none (observations.filter (Observed.isOf source assetId))

/-- No book is called valid while it is unsynchronised. -/
def NeverValidUnsynchronised (threshold : ℤ) (source assetId : String)
    (observations : List Observed) : Prop :=
  ∀ seen rest quality, observations = seen ++ rest →
    (SourceQualityTracker.observeAll threshold seen).get source assetId = some quality →
    Unsynchronised (shown threshold source assetId seen) → quality.bookValid = false

/-- The book a tracker reports. -/
theorem bookValid_observeAll {threshold : ℤ} {source assetId : String} {observations : List Observed}
    {quality : SourceQuality}
    (hquality : (SourceQualityTracker.observeAll threshold observations).get source assetId =
      some quality) :
    quality.bookValid =
      ((shown threshold source assetId observations).foldl OrderBookState.next .valid).isValid := by
  rw [SourceQualityTracker.get_observeAll] at hquality
  rw [shown]
  rcases hown : observations.filter (Observed.isOf source assetId) with _ | ⟨first, own⟩
  · rw [hown] at hquality
    cases hquality
  · rw [hown] at hquality
    obtain ⟨hstate, hvalid⟩ := orderbookState_foldl threshold
      { source := source, assetId := assetId } (first :: own) rfl
    rw [← Option.some.inj hquality, SourceQuality.ofObservations, hvalid, hstate]

/-- **When no book is valid while unsynchronised.**  For every sequence of observations, of any sources
and assets: a gap or a number out of order at an observation that is no book stands after a book that
shows a fault itself, or before one. -/
theorem bookUnsynchronised_iff (threshold : ℤ) (source assetId : String)
    (observations : List Observed) :
    NeverValidUnsynchronised threshold source assetId observations ↔
      GapsShown (shown threshold source assetId observations) := by
  rw [← gapsShown_iff]
  constructor
  · intro h seen rest hsplit hunsynchronised
    have hown : observations.filter (Observed.isOf source assetId) =
        (observations.filter (Observed.isOf source assetId)).take seen.length ++
          (observations.filter (Observed.isOf source assetId)).drop seen.length :=
      (List.take_append_drop _ _).symm
    obtain ⟨before, after, hobservations, hbefore, -⟩ := List.filter_eq_append_iff.mp hown
    obtain ⟨last', hshown⟩ := evidences_append threshold none
      (before.filter (Observed.isOf source assetId))
      (after.filter (Observed.isOf source assetId))
    have hlength : (before.filter (Observed.isOf source assetId)).length = seen.length := by
      have := congrArg List.length hsplit
      rw [shown, length_evidences, List.length_append] at this
      rw [hbefore, List.length_take]
      omega
    have hseen : shown threshold source assetId before = seen := by
      rw [← List.filter_append, ← hobservations] at hshown
      exact (List.append_inj (hshown.symm.trans hsplit)
        ((length_evidences ..).trans hlength)).1
    subst hseen
    rcases hquality : (SourceQualityTracker.observeAll threshold before).get source assetId with
      _ | quality
    · rw [SourceQualityTracker.get_observeAll] at hquality
      obtain ⟨first, evidence, later, hempty, -⟩ := hunsynchronised
      rw [shown] at hempty
      rcases hfilter : before.filter (Observed.isOf source assetId) with _ | ⟨observed, own⟩
      · rw [hfilter] at hempty
        exact absurd hempty (by simp [evidences])
      · rw [hfilter] at hquality
        cases hquality
    · rw [← bookValid_observeAll hquality]
      exact h before after quality hobservations hquality hunsynchronised
  · intro h seen rest quality hsplit hquality hunsynchronised
    obtain ⟨last', hshown⟩ := evidences_append threshold none
      (seen.filter (Observed.isOf source assetId)) (rest.filter (Observed.isOf source assetId))
    rw [bookValid_observeAll hquality]
    refine h _ (evidences threshold last' (rest.filter (Observed.isOf source assetId))) ?_
      hunsynchronised
    rw [shown, hsplit, List.filter_append, hshown]
    rfl

/-- A book, two lost messages, a trade and a book. -/
def gapAtTrade : List Observed :=
  [⟨"market-replay", "S2MUSDT", 0, 0, some 1, true⟩, ⟨"market-replay", "S2MUSDT", 1, 1, some 4, false⟩,
    ⟨"market-replay", "S2MUSDT", 2, 2, some 5, true⟩]

/-- **The book after the gap is called valid**: the trade showed the gap, not the book. -/
theorem validAfterGap :
    ¬ ∀ observations, NeverValidUnsynchronised 30 "market-replay" "S2MUSDT" observations := by
  intro h
  have hvalid := h gapAtTrade gapAtTrade []
    (SourceQuality.ofObservations 30 "market-replay" "S2MUSDT" gapAtTrade)
    (List.append_nil _).symm (by decide +kernel)
    ⟨[⟨true, false, false⟩], ⟨false, true, false⟩, [⟨true, false, false⟩], by decide +kernel, rfl,
      ⟨_, List.mem_singleton_self _, rfl⟩, List.isChain_singleton _⟩
  exact absurd hvalid (by decide +kernel)

end Ingestion
end Scam2Market
