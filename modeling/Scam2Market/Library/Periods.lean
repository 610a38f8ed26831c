import Mathlib.Order.Lattice
import Mathlib.Order.Max
import Mathlib.Data.Option.Basic
import Mathlib.Tactic.Common

/-!
# Half-open periods

A period starts at an instant and stops before another one, or never.

* `Period.Proper`: the period does not stop before it starts.
* `Period.Apart`: no instant is in both periods.  `apart_iff` says so by the end points, and `Apart.cut`
  that a part of a period is apart from what the period is apart from.
-/

namespace Scam2Market
namespace Library

/-- A half-open period of time; without a stop it does not end. -/
@[ext] structure Period (τ : Type*) where
  start : τ
  stop : Option τ
  deriving DecidableEq

namespace Period

variable {τ : Type*} [LinearOrder τ] {p q : Period τ}

/-- The instant is in the period. -/
def Contains (p : Period τ) (t : τ) : Prop :=
  p.start ≤ t ∧ ∀ stop ∈ p.stop, t < stop

instance (p : Period τ) (t : τ) : Decidable (p.Contains t) :=
  inferInstanceAs (Decidable (_ ∧ _))

/-- The period does not stop before it starts. -/
def Proper (p : Period τ) : Prop :=
  ∀ stop ∈ p.stop, p.start ≤ stop

instance (p : Period τ) : Decidable p.Proper :=
  inferInstanceAs (Decidable (∀ stop ∈ p.stop, p.start ≤ stop))

/-- No instant is in both periods. -/
def Apart (p q : Period τ) : Prop :=
  ∀ t, p.Contains t → ¬ q.Contains t

theorem Apart.symm (h : p.Apart q) : q.Apart p :=
  fun t hq hp => h t hp hq

/-- Periods are apart when one of them has stopped by the time both would have started. -/
theorem apart_iff :
    p.Apart q ↔
      (∃ stop ∈ p.stop, stop ≤ max p.start q.start) ∨
        ∃ stop ∈ q.stop, stop ≤ max p.start q.start := by
  constructor
  · intro h
    by_contra hopen
    simp only [not_or, not_exists, not_and, not_le] at hopen
    -- the later of the two starts is in both
    exact h (max p.start q.start) ⟨le_max_left _ _, hopen.1⟩ ⟨le_max_right _ _, hopen.2⟩
  · rintro (⟨stop, hstop, hle⟩ | ⟨stop, hstop, hle⟩) t hp hq
    · exact absurd (max_le hp.1 hq.1) (not_le.mpr ((hp.2 stop hstop).trans_le hle))
    · exact absurd (max_le hp.1 hq.1) (not_le.mpr ((hq.2 stop hstop).trans_le hle))

/-- The part of the period before an instant. -/
def cut (p : Period τ) (t : τ) : Period τ :=
  { p with stop := some t }

theorem Contains.of_cut {t s : τ} (ht : ∀ stop ∈ p.stop, t < stop) (h : (p.cut t).Contains s) :
    p.Contains s :=
  ⟨h.1, fun stop hstop => (h.2 t rfl).trans (ht stop hstop)⟩

/-- A part of a period is apart from what the period is apart from. -/
theorem Apart.cut (h : p.Apart q) {t : τ} (ht : ∀ stop ∈ p.stop, t < stop) : (p.cut t).Apart q :=
  fun s hs => h s (hs.of_cut ht)

/-- What is cut off at an instant is apart from what starts at it. -/
theorem cut_apart (p : Period τ) (t : τ) (stop : Option τ) : (p.cut t).Apart ⟨t, stop⟩ :=
  fun _ hp hq => absurd hq.1 (not_le.mpr (hp.2 t rfl))

end Period
end Library
end Scam2Market
