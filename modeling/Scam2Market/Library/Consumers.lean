import Mathlib.Data.List.Basic
import Mathlib.Logic.Function.Basic
import Mathlib.Logic.Relation
import Scam2Market.Library.KeepFirst
import Scam2Market.Library.Runs

/-!
# Consumers of partitioned logs

A consumer takes the records of each partition in the order of their offsets, handles one after the other,
and commits a record when it has been handled.  The process may stop at any point, also in the middle of a
handler; the next one begins at the committed offsets.

* `Program`: what a handler does to the durable store, one step after another.  `Program.Leaves` is its
  Hoare triple with a crash condition: what it leaves when it is cut off, when it raises, and when it is done.
* `Consumer`: the store, the committed offsets and the stage of the process; `history` is for the statements,
  the records whose handling is done, in this order.
* `Schedule`: each partition in the order of its offsets, without a gap, up to the committed offset at least.
* `Extends`: a log that records are appended to; a schedule of the one is a schedule of the other.
* `Rule`: an invariant of the store and the history that every handler carries over.
* `Consumed.step`, `consumed_run`: what a rule says of every step and run, whatever crashes and interferes.
* `OnceRule`, `effect_once_run`: a handler that does nothing the second time leaves the store of a consumer
  that handles every record once (`HandledOnce`).
-/

namespace Scam2Market
namespace Library

/-- A record of a log. -/
structure Record (π ε : Type) where
  partition : π
  offset : ℕ
  event : ε
  deriving DecidableEq

/-! ## Programs -/

/-- What a handler does to the store.  A step reads the store and changes it at once; the process may stop
between two steps. -/
inductive Program (σ : Type) where
  | done
  | raise
  | step (change : σ → σ) (rest : σ → Program σ)

section Programs

variable {σ μ : Type} {environment : σ → μ → σ} {crash stop post : σ → Prop} {s s' : σ}

/-- The other processes take any number of steps. -/
def Interferes (environment : σ → μ → σ) : σ → σ → Prop :=
  Relation.ReflTransGen fun s s' => ∃ move, s' = environment s move

theorem Interferes.keeps (h : Interferes environment s s') {P : σ → Prop}
    (hP : ∀ move s, P s → P (environment s move)) (hs : P s) : P s' := by
  induction h with
  | refl => exact hs
  | tail _ hstep ih =>
    obtain ⟨move, rfl⟩ := hstep
    exact hP move _ ih

/-- **The triple of a program.**  Wherever it is cut off the store meets `crash`, when it raises `stop`, and
when it is done `post`, whatever the other processes do between its steps. -/
def Program.Leaves (environment : σ → μ → σ) (crash stop post : σ → Prop) : Program σ → σ → Prop
  | .done, s => post s
  | .raise, s => stop s
  | .step change rest, s => crash s ∧ ∀ s', Interferes environment s s' →
      (rest s').Leaves environment crash stop post (change s')

theorem Program.Leaves.interfere {program : Program σ}
    (h : program.Leaves environment crash stop post s)
    (hcrash : ∀ move s, crash s → crash (environment s move))
    (hstop : ∀ move s, stop s → stop (environment s move))
    (hpost : ∀ move s, post s → post (environment s move)) (move : μ) :
    program.Leaves environment crash stop post (environment s move) := by
  cases program with
  | done => exact hpost move s h
  | raise => exact hstop move s h
  | step change rest =>
    refine ⟨hcrash move s h.1, fun s' hs' => h.2 s' ?_⟩
    exact Relation.ReflTransGen.head ⟨move, rfl⟩ hs'

/-- Every step of the program changes the store by `R`. -/
def Program.Changes (R : σ → σ → Prop) : Program σ → Prop
  | .done => True
  | .raise => True
  | .step change rest => ∀ s, R s (change s) ∧ (rest s).Changes R

end Programs

/-! ## The consumer -/

variable {π ε σ ω μ : Type}

inductive ConsumerStage (π ε σ : Type) where
  | polling
  | running (record : Record π ε) (program : Program σ)
  | handled (record : Record π ε)

structure Consumer (π ε σ : Type) where
  store : σ
  committed : π → ℕ := fun _ => 0
  stage : ConsumerStage π ε σ := .polling
  history : List (Record π ε) := []

/-- A move of the process, or of another one.  What the surroundings of a handler answer is given when the
record is fetched. -/
inductive ConsumerMove (π ω μ : Type) where
  | fetch (partition : π) (offset : ℕ) (input : ω)
  | perform
  | commit
  | crash
  | interfere (move : μ)

namespace Consumer

/-- The offset is that of the next record of the partition; offsets may have gaps. -/
def IsNext (log : π → ℕ → Option ε) (committed : π → ℕ) (partition : π) (offset : ℕ) : Prop :=
  committed partition ≤ offset ∧
    ∀ skipped < offset, committed partition ≤ skipped → log partition skipped = none

/-- A property of finitely many offsets. -/
instance (log : π → ℕ → Option ε) (committed : π → ℕ) (partition : π) (offset : ℕ) :
    Decidable (IsNext log committed partition offset) :=
  decidable_of_iff (committed partition ≤ offset ∧ ∀ skipped : Fin offset,
    committed partition ≤ skipped → (log partition skipped).isNone = true) <| by
      refine and_congr_right fun _ => ⟨fun h skipped hlt hle => ?_, fun h skipped hle => ?_⟩
      · exact Option.isNone_iff_eq_none.mp (h ⟨skipped, hlt⟩ hle)
      · exact Option.isNone_iff_eq_none.mpr (h skipped skipped.2 hle)

/-- The process goes on with what is left of a handler. -/
def goOn (s : Consumer π ε σ) (record : Record π ε) (store : σ) : Program σ → Consumer π ε σ
  | .done =>
    { s with store := store, stage := .handled record, history := s.history ++ [record] }
  | .raise => { s with store := store, stage := .polling }
  | program => { s with store := store, stage := .running record program }

variable (log : π → ℕ → Option ε) (handler : Record π ε → ω → Program σ)
  (environment : σ → μ → σ)

/-- One move; a move that is not possible changes nothing. -/
def step [DecidableEq π] (s : Consumer π ε σ) : ConsumerMove π ω μ → Consumer π ε σ
  | .fetch partition offset input =>
    match s.stage, log partition offset with
    | .polling, some event =>
      if IsNext log s.committed partition offset then
        s.goOn ⟨partition, offset, event⟩ s.store (handler ⟨partition, offset, event⟩ input)
      else s
    | _, _ => s
  | .perform =>
    match s.stage with
    | .running record (.step change rest) => s.goOn record (change s.store) (rest s.store)
    | _ => s
  | .commit =>
    match s.stage with
    | .handled record =>
      { s with
        committed := Function.update s.committed record.partition (record.offset + 1)
        stage := .polling }
    | _ => s
  | .crash => { s with stage := .polling }
  | .interfere move => { s with store := environment s.store move }

/-! ## What is handled, and in which order -/

variable {log handler environment}
variable {committed : π → ℕ} {history : List (Record π ε)} {record : Record π ε}

/-- The records of each partition stand in the order of their offsets, the same one perhaps several times.
None below the committed offset is missing, and none is ahead of the next one. -/
structure Schedule (log : π → ℕ → Option ε) (committed : π → ℕ) (history : List (Record π ε)) :
    Prop where
  logged : ∀ record ∈ history, log record.partition record.offset = some record.event
  ordered : history.Pairwise fun a b => a.partition = b.partition → a.offset ≤ b.offset
  complete : ∀ partition offset event, log partition offset = some event →
    offset < committed partition → ⟨partition, offset, event⟩ ∈ history
  frontier : ∀ record ∈ history, record.offset < committed record.partition ∨
    IsNext log committed record.partition record.offset
  behind : ∀ partition, committed partition = 0 ∨
    ∃ record ∈ history, record.partition = partition ∧ committed partition = record.offset + 1

theorem schedule_nil (log : π → ℕ → Option ε) : Schedule log (fun _ => 0) [] where
  logged _ hrecord := absurd hrecord List.not_mem_nil
  ordered := List.Pairwise.nil
  complete _ _ _ _ hlt := absurd hlt (Nat.not_lt_zero _)
  frontier _ hrecord := absurd hrecord List.not_mem_nil
  behind _ := Or.inl rfl

/-- No record stands between the committed offset and the next one. -/
theorem IsNext.le_of_le {partition : π} {offset offset' : ℕ}
    (h : IsNext log committed partition offset) (h' : committed partition ≤ offset')
    (hlogged : log partition offset' ≠ none) : offset ≤ offset' := by
  by_contra hlt
  exact hlogged (h.2 offset' (Nat.lt_of_not_le hlt) h')

theorem Schedule.append (h : Schedule log committed history)
    (hlogged : log record.partition record.offset = some record.event)
    (hnext : IsNext log committed record.partition record.offset) :
    Schedule log committed (history ++ [record]) where
  logged other hother := by
    rcases List.mem_append.mp hother with hold | hnew
    · exact h.logged other hold
    · rw [List.mem_singleton.mp hnew]
      exact hlogged
  ordered := by
    refine List.pairwise_append.mpr ⟨h.ordered, List.pairwise_singleton _ _, ?_⟩
    intro other hother last hlast hpartition
    rw [List.mem_singleton.mp hlast] at hpartition ⊢
    rcases h.frontier other hother with hlt | hahead
    · rw [hpartition] at hlt
      exact Nat.le_trans (Nat.le_of_lt hlt) hnext.1
    · rw [hpartition] at hahead
      refine hahead.le_of_le hnext.1 ?_
      rw [hlogged]
      exact Option.some_ne_none _
  complete partition offset event hevent hlt :=
    List.mem_append_left _ (h.complete partition offset event hevent hlt)
  frontier other hother := by
    rcases List.mem_append.mp hother with hold | hnew
    · exact h.frontier other hold
    · rw [List.mem_singleton.mp hnew]
      exact Or.inr hnext
  behind partition :=
    (h.behind partition).imp_right fun ⟨last, hlast, hcommitted⟩ =>
      ⟨last, List.mem_append_left _ hlast, hcommitted⟩

/-- Committing a record that has been handled leaves nothing behind. -/
theorem Schedule.commit [DecidableEq π] (h : Schedule log committed history) (hrecord : record ∈ history)
    (hnext : IsNext log committed record.partition record.offset) :
    Schedule log (Function.update committed record.partition (record.offset + 1)) history where
  logged := h.logged
  ordered := h.ordered
  complete partition offset event hevent hlt := by
    by_cases hpartition : partition = record.partition
    · subst hpartition
      rw [Function.update_self] at hlt
      by_cases hcommitted : offset < committed record.partition
      · exact h.complete _ offset event hevent hcommitted
      · have hge : record.offset ≤ offset := by
          refine hnext.le_of_le (Nat.le_of_not_lt hcommitted) ?_
          rw [hevent]
          exact Option.some_ne_none _
        have heq : offset = record.offset := Nat.le_antisymm (Nat.le_of_lt_succ hlt) hge
        subst heq
        have hsame : event = record.event :=
          Option.some.inj (hevent.symm.trans (h.logged record hrecord))
        rw [hsame]
        exact hrecord
    · rw [Function.update_of_ne hpartition] at hlt
      exact h.complete partition offset event hevent hlt
  frontier other hother := by
    by_cases hpartition : other.partition = record.partition
    · refine Or.inl ?_
      rw [hpartition, Function.update_self]
      rcases h.frontier other hother with hlt | hahead
      · rw [hpartition] at hlt
        exact Nat.lt_succ_of_le (Nat.le_trans (Nat.le_of_lt hlt) hnext.1)
      · rw [hpartition] at hahead
        refine Nat.lt_succ_of_le (hahead.le_of_le hnext.1 ?_)
        rw [h.logged record hrecord]
        exact Option.some_ne_none _
    · have hsame : Function.update committed record.partition (record.offset + 1) other.partition =
          committed other.partition := Function.update_of_ne hpartition _ _
      rw [IsNext, hsame]
      exact h.frontier other hother
  behind partition := by
    by_cases hpartition : partition = record.partition
    · subst hpartition
      exact Or.inr ⟨record, hrecord, rfl, Function.update_self _ _ _⟩
    · rw [Function.update_of_ne hpartition]
      exact h.behind partition

/-! ## Logs that grow -/

/-- Records were appended: what was logged still is, and what is new stands behind it. -/
structure Extends (log log' : π → ℕ → Option ε) : Prop where
  kept : ∀ partition offset event, log partition offset = some event →
    log' partition offset = some event
  behind : ∀ partition offset event offset' event', log partition offset = some event →
    log' partition offset' = some event' → log partition offset' = none → offset < offset'

variable {log' : π → ℕ → Option ε}

/-- The next record stays the next one. -/
theorem IsNext.of_extends {partition : π} {offset : ℕ} {event : ε}
    (h : IsNext log committed partition offset) (hextends : Extends log log')
    (hlogged : log partition offset = some event) : IsNext log' committed partition offset := by
  refine ⟨h.1, fun skipped hlt hle => ?_⟩
  have hold := h.2 skipped hlt hle
  cases hnew : log' partition skipped with
  | none => rfl
  | some event' =>
    exact absurd (hextends.behind partition offset event skipped event' hlogged hnew hold)
      (Nat.not_lt_of_lt hlt)

theorem Schedule.of_extends (h : Schedule log committed history) (hextends : Extends log log') :
    Schedule log' committed history where
  logged record hrecord := hextends.kept _ _ _ (h.logged record hrecord)
  ordered := h.ordered
  complete partition offset event hevent hlt := by
    cases hold : log partition offset with
    | some event' =>
      have hsame : event' = event :=
        Option.some.inj ((hextends.kept _ _ _ hold).symm.trans hevent)
      rw [hsame] at hold
      exact h.complete partition offset event hold hlt
    | none =>
      -- what is new stands behind the record that was committed last
      rcases h.behind partition with hzero | ⟨last, hlast, rfl, hcommitted⟩
      · exact absurd (hzero ▸ hlt) (Nat.not_lt_zero offset)
      · have hbehind := hextends.behind _ _ _ _ _ (h.logged last hlast) hevent hold
        rw [hcommitted] at hlt
        exact absurd (Nat.le_of_lt_succ hlt) (Nat.not_le_of_lt hbehind)
  frontier record hrecord :=
    (h.frontier record hrecord).imp_right fun hnext =>
      hnext.of_extends hextends (h.logged record hrecord)
  behind := h.behind

/-! ## The rule -/

/-- What is kept: `J` of the history and the store between two records, and `K` while a record is handled.
The other processes keep both.  A handler that is cut off leaves `K` for the history before, one that raises
`J`, and one that is done `J` for the history with its record; where a crash is `safe`, `K` is enough to go on
with. -/
structure Rule (log : π → ℕ → Option ε) (handler : Record π ε → ω → Program σ)
    (environment : σ → μ → σ) (safe : σ → Prop) (J K : List (Record π ε) → σ → Prop) : Prop where
  interfere : ∀ history move s, J history s → J history (environment s move)
  interfere_running : ∀ history move s, K history s → K history (environment s move)
  recover : ∀ history s, K history s → safe s → J history s
  handle : ∀ history record input s committed, Schedule log committed history →
    log record.partition record.offset = some record.event →
    IsNext log committed record.partition record.offset → J history s →
      (handler record input).Leaves environment (K history) (J history) (J (history ++ [record])) s

/-- What is known of the store, and of the record that is being handled. -/
def Underway (log : π → ℕ → Option ε) (environment : σ → μ → σ)
    (J K : List (Record π ε) → σ → Prop) (s : Consumer π ε σ) : ConsumerStage π ε σ → Prop
  | .polling => J s.history s.store
  | .running record program =>
    K s.history s.store ∧ log record.partition record.offset = some record.event ∧
      IsNext log s.committed record.partition record.offset ∧
      program.Leaves environment (K s.history) (J s.history) (J (s.history ++ [record])) s.store
  | .handled record =>
    J s.history s.store ∧ record ∈ s.history ∧
      IsNext log s.committed record.partition record.offset

/-- The invariant of the consumer. -/
structure Consumed (log : π → ℕ → Option ε) (environment : σ → μ → σ)
    (J K : List (Record π ε) → σ → Prop) (s : Consumer π ε σ) : Prop where
  schedule : Schedule log s.committed s.history
  underway : Underway log environment J K s s.stage

/-- A crash in the middle of a handler is safe. -/
def Careful (safe : σ → Prop) (s : Consumer π ε σ) (move : ConsumerMove π ω μ) : Prop :=
  ∀ record program, s.stage = .running record program → move = .crash → safe s.store

variable {safe : σ → Prop} {J K : List (Record π ε) → σ → Prop} {s : Consumer π ε σ}

theorem Consumed.goOn {store : σ} {program : Program σ}
    (hschedule : Schedule log s.committed s.history)
    (hlogged : log record.partition record.offset = some record.event)
    (hnext : IsNext log s.committed record.partition record.offset)
    (hleaves : program.Leaves environment (K s.history) (J s.history) (J (s.history ++ [record])) store) :
    Consumed log environment J K (s.goOn record store program) := by
  cases program with
  | done =>
    exact ⟨hschedule.append hlogged hnext, hleaves,
      List.mem_append_right _ (List.mem_singleton_self record), hnext⟩
  | raise => exact ⟨hschedule, hleaves⟩
  | step change rest => exact ⟨hschedule, hleaves.1, hlogged, hnext, hleaves⟩

/-- **Every careful move keeps the invariant.** -/
theorem Consumed.step [DecidableEq π] (hrule : Rule log handler environment safe J K)
    (h : Consumed log environment J K s) (move : ConsumerMove π ω μ) (hcareful : Careful safe s move) :
    Consumed log environment J K (s.step log handler environment move) := by
  have hunderway := h.underway
  cases move with
  | fetch partition offset input =>
    rw [Consumer.step]
    split
    · next event hstage hevent =>
      rw [hstage] at hunderway
      split_ifs with hnext
      · refine Consumed.goOn h.schedule hevent hnext ?_
        exact hrule.handle s.history _ input s.store s.committed h.schedule hevent hnext hunderway
      · exact h
    · exact h
  | perform =>
    rw [Consumer.step]
    split
    · next record change rest hstage =>
      rw [hstage] at hunderway
      exact Consumed.goOn h.schedule hunderway.2.1 hunderway.2.2.1
        (hunderway.2.2.2.2 s.store Relation.ReflTransGen.refl)
    · exact h
  | commit =>
    rw [Consumer.step]
    split
    · next record hstage =>
      rw [hstage] at hunderway
      exact ⟨h.schedule.commit hunderway.2.1 hunderway.2.2, hunderway.1⟩
    · exact h
  | crash =>
    refine ⟨h.schedule, ?_⟩
    show J s.history s.store
    cases hstage : s.stage with
    | polling =>
      rw [hstage] at hunderway
      exact hunderway
    | running record program =>
      rw [hstage] at hunderway
      exact hrule.recover _ _ hunderway.1 (hcareful record program hstage rfl)
    | handled record =>
      rw [hstage] at hunderway
      exact hunderway.1
  | interfere move =>
    refine ⟨h.schedule, ?_⟩
    show Underway log environment J K _ s.stage
    cases hstage : s.stage with
    | polling =>
      rw [hstage] at hunderway
      exact hrule.interfere _ move _ hunderway
    | running record program =>
      rw [hstage] at hunderway
      exact ⟨hrule.interfere_running _ move _ hunderway.1, hunderway.2.1, hunderway.2.2.1,
        hunderway.2.2.2.interfere (hrule.interfere_running _) (hrule.interfere _)
          (hrule.interfere _) move⟩
    | handled record =>
      rw [hstage] at hunderway
      exact ⟨hrule.interfere _ move _ hunderway.1, hunderway.2⟩

theorem consumed_initial {store : σ} (hstore : J [] store) :
    Consumed log environment J K { store := store } :=
  ⟨schedule_nil log, hstore⟩

/-- The invariant goes over to a log that records were appended to. -/
theorem Consumed.of_extends {log' : π → ℕ → Option ε} (h : Consumed log environment J K s)
    (hextends : Extends log log') : Consumed log' environment J K s := by
  have hunderway := h.underway
  refine ⟨h.schedule.of_extends hextends, ?_⟩
  cases hstage : s.stage with
  | polling =>
    rw [hstage] at hunderway
    exact hunderway
  | running record program =>
    rw [hstage] at hunderway
    obtain ⟨hK, hlogged, hnext, hleaves⟩ := hunderway
    exact ⟨hK, hextends.kept _ _ _ hlogged, hnext.of_extends hextends hlogged, hleaves⟩
  | handled record =>
    rw [hstage] at hunderway
    obtain ⟨hJ, hrecord, hnext⟩ := hunderway
    exact ⟨hJ, hrecord, hnext.of_extends hextends (h.schedule.logged record hrecord)⟩

/-- No record is being handled. -/
def AtRest (s : Consumer π ε σ) : Prop :=
  ∀ record program, s.stage ≠ .running record program

theorem Consumed.holds_of_atRest (h : Consumed log environment J K s) (hrest : s.AtRest) :
    J s.history s.store := by
  have hunderway := h.underway
  cases hstage : s.stage with
  | polling =>
    rw [hstage] at hunderway
    exact hunderway
  | running record program => exact absurd hstage (hrest record program)
  | handled record =>
    rw [hstage] at hunderway
    exact hunderway.1

/-- Between two records a run can be taken up with another invariant. -/
theorem Consumed.of_atRest {J' K' : List (Record π ε) → σ → Prop}
    (h : Consumed log environment J K s) (hrest : s.AtRest) (hstore : J' s.history s.store) :
    Consumed log environment J' K' s := by
  have hunderway := h.underway
  refine ⟨h.schedule, ?_⟩
  cases hstage : s.stage with
  | polling => exact hstore
  | running record program => exact absurd hstage (hrest record program)
  | handled record =>
    rw [hstage] at hunderway
    exact ⟨hstore, hunderway.2⟩

/-- What holds when every crash is safe. -/
theorem Consumed.holds (h : Consumed log environment J J s) : J s.history s.store := by
  have hunderway := h.underway
  cases hstage : s.stage with
  | polling =>
    rw [hstage] at hunderway
    exact hunderway
  | running record program =>
    rw [hstage] at hunderway
    exact hunderway.1
  | handled record =>
    rw [hstage] at hunderway
    exact hunderway.1

/-- **The rule of consumers.**  If every crash is safe, the invariant holds in every state of every run, of
the store and of the records handled so far, which are a schedule of the log. -/
theorem consumed_run [DecidableEq π] (hrule : Rule log handler environment (fun _ => True) J J)
    (h : Consumed log environment J J s) (moves : List (ConsumerMove π ω μ)) :
    Consumed log environment J J (run (Consumer.step log handler environment) s moves) := by
  refine run_invariant (fun s move h => h.step hrule move ?_) h moves
  exact fun _ _ _ _ => trivial

/-! ## What every step of a program does -/

section Moving

variable {R : σ → σ → Prop}

/-- The handler that is under way changes the store by `R`. -/
def Moving (R : σ → σ → Prop) (s : Consumer π ε σ) : Prop :=
  ∀ record program, s.stage = .running record program → program.Changes R

theorem moving_initial {store : σ} : Moving R ({ store := store } : Consumer π ε σ) :=
  fun _ _ hstage => by cases hstage

theorem moving_goOn {store : σ} {program : Program σ} (h : program.Changes R) :
    Moving R (s.goOn record store program) := by
  intro record' program' hstage
  cases program with
  | done => cases hstage
  | raise => cases hstage
  | step change rest =>
    obtain ⟨-, rfl⟩ := ConsumerStage.running.inj hstage
    exact h

theorem store_goOn (s : Consumer π ε σ) (record : Record π ε) (store : σ) (program : Program σ) :
    (s.goOn record store program).store = store := by
  cases program <;> rfl

/-- Every move changes the store by `R`, when handlers and other processes do. -/
theorem Moving.step [DecidableEq π] (hrefl : ∀ s, R s s)
    (hhandler : ∀ record input, (handler record input).Changes R)
    (henvironment : ∀ s move, R s (environment s move)) (h : Moving R s) (move : ConsumerMove π ω μ) :
    Moving R (s.step log handler environment move) ∧
      R s.store (s.step log handler environment move).store := by
  cases move with
  | fetch partition offset input =>
    rw [Consumer.step]
    split
    · split_ifs
      · refine ⟨moving_goOn (hhandler _ input), ?_⟩
        rw [store_goOn]
        exact hrefl s.store
      · exact ⟨h, hrefl s.store⟩
    · exact ⟨h, hrefl s.store⟩
  | perform =>
    rw [Consumer.step]
    split
    · next record change rest hstage =>
      have hchanges := h record _ hstage s.store
      refine ⟨moving_goOn hchanges.2, ?_⟩
      rw [store_goOn]
      exact hchanges.1
    · exact ⟨h, hrefl s.store⟩
  | commit =>
    rw [Consumer.step]
    split
    · exact ⟨fun _ _ hstage => (by cases hstage), hrefl s.store⟩
    · exact ⟨h, hrefl s.store⟩
  | crash => exact ⟨fun _ _ hstage => (by cases hstage), hrefl s.store⟩
  | interfere move => exact ⟨h, henvironment s.store move⟩

end Moving

/-! ## Nobody interferes -/

/-- There is no other process. -/
def alone : σ → Empty → σ :=
  fun _ move => move.elim

theorem eq_of_interferes_alone {s s' : σ} (h : Interferes (@alone σ) s s') : s' = s :=
  h.keeps (P := fun other => other = s) (fun move => move.elim) rfl

/-- A step that nobody interferes with. -/
theorem leaves_step_alone {change : σ → σ} {rest : σ → Program σ} {crash stop post : σ → Prop} {s : σ} :
    (Program.step change rest).Leaves alone crash stop post s ↔
      crash s ∧ (rest s).Leaves alone crash stop post (change s) := by
  refine and_congr_right fun _ => ⟨fun h => h s Relation.ReflTransGen.refl, fun h s' hs' => ?_⟩
  rw [eq_of_interferes_alone hs']
  exact h

/-! ## Handlers that do nothing the second time -/

section Once

variable {κ : Type} [DecidableEq κ] {key : Record π ε → κ}

/-- What a consumer that handles every record once has handled: one record of each key, in the order of the
offsets of each partition, and no key below the committed offsets is missing. -/
structure HandledOnce (log : π → ℕ → Option ε) (key : Record π ε → κ) (committed : π → ℕ)
    (handled : List (Record π ε)) : Prop where
  logged : ∀ record ∈ handled, log record.partition record.offset = some record.event
  distinct : (handled.map key).Nodup
  ordered : handled.Pairwise fun a b => a.partition = b.partition → a.offset ≤ b.offset
  complete : ∀ partition offset event, log partition offset = some event →
    offset < committed partition → ∃ record ∈ handled, key record = key ⟨partition, offset, event⟩

/-- The first record of each key. -/
theorem Schedule.handledOnce (h : Schedule log committed history) (key : Record π ε → κ) :
    HandledOnce log key committed (keepFirst key [] history) where
  logged record hrecord := h.logged record (mem_of_mem_keepFirst hrecord)
  distinct := nodup_map_keepFirst key [] history
  ordered := h.ordered.sublist (keepFirst_sublist key [] history)
  complete partition offset event hevent hlt :=
    exists_mem_keepFirst (h.complete partition offset event hevent hlt) List.not_mem_nil

/-- A handler that adds a record of a new key and does nothing for another. -/
structure OnceRule (log : π → ℕ → Option ε) (handler : Record π ε → ω → Program σ)
    (environment : σ → μ → σ) (key : Record π ε → κ) (J : List (Record π ε) → σ → Prop) : Prop where
  interfere : ∀ handled move s, J handled s → J handled (environment s move)
  new : ∀ handled record input s, log record.partition record.offset = some record.event →
    key record ∉ handled.map key → J handled s →
      (handler record input).Leaves environment (J handled) (J handled) (J (handled ++ [record])) s
  again : ∀ handled record input s, log record.partition record.offset = some record.event →
    key record ∈ handled.map key → J handled s →
      (handler record input).Leaves environment (J handled) (J handled) (J handled) s

theorem OnceRule.rule (h : OnceRule log handler environment key J) :
    Rule log handler environment (fun _ => True)
      (fun history s => J (keepFirst key [] history) s)
      fun history s => J (keepFirst key [] history) s where
  interfere _ := h.interfere _
  interfere_running _ := h.interfere _
  recover _ _ hs _ := hs
  handle history record input s _ _ hlogged _ hs := by
    have hkeys := mem_map_keepFirst key history (key record)
    rw [keepFirst_concat]
    by_cases hmem : key record ∈ history.map key
    · rw [if_pos (Or.inr hmem), List.append_nil]
      exact h.again _ record input s hlogged (hkeys.mpr hmem) hs
    · rw [if_neg (not_or.mpr ⟨List.not_mem_nil, hmem⟩)]
      exact h.new _ record input s hlogged (fun hseen => hmem (hkeys.mp hseen)) hs

/-- **An effect that is not repeated happens once.**  Whatever crashes, the store is that of a consumer
that handles one record of each key. -/
theorem effect_once_run [DecidableEq π] (h : OnceRule log handler environment key J) {store : σ}
    (hstore : J [] store) (moves : List (ConsumerMove π ω μ)) :
    let s := run (Consumer.step log handler environment) { store := store } moves
    ∃ handled, HandledOnce log key s.committed handled ∧ J handled s.store := by
  intro s
  have hinitial : Consumed log environment (fun history s => J (keepFirst key [] history) s)
      (fun history s => J (keepFirst key [] history) s) { store := store } := consumed_initial hstore
  have hconsumed := consumed_run h.rule hinitial moves
  exact ⟨keepFirst key [] s.history, hconsumed.schedule.handledOnce key, hconsumed.holds⟩

end Once

end Consumer

end Library
end Scam2Market
