import Mathlib.Data.List.Basic
import Mathlib.Data.List.Induction
import Mathlib.Tactic.Common

/-!
# Properties of runs

A system takes steps: `step s m` is the state after the move `m`.

* `Always`: a property of every state of a run; `Throughout`: a condition that every step of a run meets,
  in the state it is taken in.
* `run_invariant`: what every step keeps holds at the end of a run.
* `always_of_throughout`: when the steps that meet a condition keep an invariant, the invariant holds
  throughout a run of such steps.
* `throughout_of_always`: when every other step breaks the property, the condition is necessary.
* `always_iff_throughout`: when both hold, the condition is exact;
  `always_iff_throughout_of` asks this only of the steps that are allowed.
* `throughout_of_invariant`: moves that meet the condition whenever an invariant holds, and keep it.
-/

namespace Scam2Market
namespace Library

variable {σ μ : Type*} {step : σ → μ → σ} {I P : σ → Prop} {C : σ → μ → Prop}

/-- The state after the moves. -/
def run (step : σ → μ → σ) (s : σ) (moves : List μ) : σ :=
  moves.foldl step s

/-- A property of every state of a run. -/
def Always (step : σ → μ → σ) (P : σ → Prop) (s : σ) : List μ → Prop
  | [] => P s
  | move :: moves => P s ∧ Always step P (step s move) moves

/-- Every step of a run meets a condition. -/
def Throughout (step : σ → μ → σ) (C : σ → μ → Prop) (s : σ) : List μ → Prop
  | [] => True
  | move :: moves => C s move ∧ Throughout step C (step s move) moves

@[simp] theorem run_nil (s : σ) : run step s [] = s := rfl

@[simp] theorem run_cons (s : σ) (move : μ) (moves : List μ) :
    run step s (move :: moves) = run step (step s move) moves := rfl

theorem run_append (s : σ) (moves moves' : List μ) :
    run step s (moves ++ moves') = run step (run step s moves) moves' :=
  List.foldl_append

theorem throughout_append {s : σ} {moves moves' : List μ} :
    Throughout step C s (moves ++ moves') ↔
      Throughout step C s moves ∧ Throughout step C (run step s moves) moves' := by
  induction moves generalizing s with
  | nil => exact ⟨fun h => ⟨trivial, h⟩, fun h => h.2⟩
  | cons move moves ih =>
    show C s move ∧ Throughout step C _ (moves ++ moves') ↔ _
    rw [ih, ← and_assoc]
    rfl

/-- A condition of every step is one of every step with the moves before it. -/
theorem throughout_iff_split {s : σ} {moves : List μ} :
    Throughout step C s moves ↔
      ∀ before move after, moves = before ++ move :: after → C (run step s before) move := by
  constructor
  · rintro h before move after rfl
    exact (throughout_append.mp h).2.1
  · intro h
    induction moves generalizing s with
    | nil => trivial
    | cons move moves ih =>
      refine ⟨h [] move moves rfl, ih fun before next after hmoves => ?_⟩
      exact h (move :: before) next after (hmoves ▸ rfl)

/-- What every step keeps, every run keeps. -/
theorem run_invariant (hstep : ∀ s move, I s → I (step s move)) {s : σ} (hs : I s)
    (moves : List μ) : I (run step s moves) := by
  induction moves generalizing s with
  | nil => exact hs
  | cons move moves ih => exact ih (hstep s move hs)

/-- What every step keeps about the moves so far and the state they led to holds at the end of a run. -/
theorem run_history {Q : List μ → σ → Prop} {s : σ} (hs : Q [] s)
    (hstep : ∀ moves move, Q moves (run step s moves) →
      Q (moves ++ [move]) (step (run step s moves) move)) (moves : List μ) :
    Q moves (run step s moves) := by
  induction moves using List.reverseRecOn with
  | nil => exact hs
  | append_singleton moves move ih =>
    rw [run_append]
    exact hstep moves move ih

/-- What the steps of a condition keep holds at the end of a run of such steps. -/
theorem run_invariant_of_throughout (hstep : ∀ s move, I s → C s move → I (step s move)) {s : σ}
    (hs : I s) {moves : List μ} (hmoves : Throughout step C s moves) : I (run step s moves) := by
  induction moves generalizing s with
  | nil => exact hs
  | cons move moves ih => exact ih (hstep s move hs hmoves.1) hmoves.2

theorem Always.initial {s : σ} {moves : List μ} (h : Always step P s moves) : P s := by
  cases moves with
  | nil => exact h
  | cons move moves => exact h.1

theorem Always.final {s : σ} {moves : List μ} (h : Always step P s moves) :
    P (run step s moves) := by
  induction moves generalizing s with
  | nil => exact h
  | cons move moves ih => exact ih h.2

/-- **In a run whose steps all meet the condition, the property holds in every state.** -/
theorem always_of_throughout (hstep : ∀ s move, I s → C s move → I (step s move))
    (hI : ∀ s, I s → P s) {s : σ} (hs : I s) {moves : List μ}
    (hmoves : Throughout step C s moves) : Always step P s moves := by
  induction moves generalizing s with
  | nil => exact hI s hs
  | cons move moves ih => exact ⟨hI s hs, ih (hstep s move hs hmoves.1) hmoves.2⟩

theorem throughout_and {D : σ → μ → Prop} {s : σ} {moves : List μ} :
    Throughout step (fun s move => C s move ∧ D s move) s moves ↔
      Throughout step C s moves ∧ Throughout step D s moves := by
  induction moves generalizing s with
  | nil => exact ⟨fun _ => ⟨trivial, trivial⟩, fun _ => trivial⟩
  | cons move moves ih =>
    show (C s move ∧ D s move) ∧ Throughout step _ _ moves ↔ _
    rw [ih]
    exact and_and_and_comm

/-- **The condition is necessary** when every step that does not meet it breaks the property, in runs of
steps that are allowed. -/
theorem throughout_of_always {A : σ → μ → Prop}
    (hstep : ∀ s move, I s → A s move → C s move → I (step s move))
    (hbreak : ∀ s move, I s → A s move → ¬ C s move → ¬ P (step s move)) {s : σ} (hs : I s)
    {moves : List μ} (hmoves : Throughout step A s moves) (h : Always step P s moves) :
    Throughout step C s moves := by
  induction moves generalizing s with
  | nil => trivial
  | cons move moves ih =>
    by_cases hmove : C s move
    · exact ⟨hmove, ih (hstep s move hs hmoves.1 hmove) hmoves.2 h.2⟩
    · exact absurd h.2.initial (hbreak s move hs hmoves.1 hmove)

/-- **The condition is exact** when every step that does not meet it breaks the property, in runs of steps
that are allowed. -/
theorem always_iff_throughout_of {A : σ → μ → Prop}
    (hstep : ∀ s move, I s → A s move → C s move → I (step s move)) (hI : ∀ s, I s → P s)
    (hbreak : ∀ s move, I s → A s move → ¬ C s move → ¬ P (step s move)) {s : σ} (hs : I s)
    {moves : List μ} (hmoves : Throughout step A s moves) :
    Always step P s moves ↔ Throughout step C s moves := by
  refine ⟨throughout_of_always hstep hbreak hs hmoves, fun h => ?_⟩
  exact always_of_throughout (fun s move hIs hboth => hstep s move hIs hboth.1 hboth.2) hI hs
    (throughout_and.mpr ⟨hmoves, h⟩)

theorem Throughout.imp {D : σ → μ → Prop} (h : ∀ s move, C s move → D s move) {s : σ} {moves : List μ}
    (hmoves : Throughout step C s moves) : Throughout step D s moves := by
  induction moves generalizing s with
  | nil => trivial
  | cons move moves ih => exact ⟨h s move hmoves.1, ih hmoves.2⟩

theorem throughout_of_forall (h : ∀ s move, C s move) (s : σ) (moves : List μ) :
    Throughout step C s moves := by
  induction moves generalizing s with
  | nil => trivial
  | cons move moves ih => exact ⟨h s move, ih _⟩

/-- Moves of a kind that keeps an invariant and meets the condition under it. -/
theorem throughout_of_invariant {D : μ → Prop}
    (hstep : ∀ s move, I s → D move → C s move ∧ I (step s move)) {s : σ} (hs : I s) {moves : List μ}
    (hmoves : ∀ move ∈ moves, D move) : Throughout step C s moves := by
  induction moves generalizing s with
  | nil => trivial
  | cons move moves ih =>
    obtain ⟨hmove, hrest⟩ := List.forall_mem_cons.mp hmoves
    obtain ⟨hmeets, hkept⟩ := hstep s move hs hmove
    exact ⟨hmeets, ih hkept hrest⟩

/-- **The condition is exact** when every step that does not meet it breaks the property. -/
theorem always_iff_throughout (hstep : ∀ s move, I s → C s move → I (step s move))
    (hI : ∀ s, I s → P s) (hbreak : ∀ s move, I s → ¬ C s move → ¬ P (step s move)) {s : σ}
    (hs : I s) (moves : List μ) : Always step P s moves ↔ Throughout step C s moves :=
  always_iff_throughout_of (fun s move h _ => hstep s move h) hI
    (fun s move h _ => hbreak s move h) hs
    (throughout_of_forall (fun _ _ => trivial) s moves)

end Library
end Scam2Market
