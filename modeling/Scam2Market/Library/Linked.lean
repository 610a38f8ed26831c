import Mathlib.Data.List.Basic
import Mathlib.Tactic.Common

/-!
# Linked steps

A list of steps, each with the value before it and the value after it, that leads from one value to
another without a gap.

* `Linked a steps b`: the first step starts at `a`, each step starts where the preceding one ends, and
  `b` is where the last one ends.
* `Linked.concat`: one more step at the end, and `Linked.append_idle`: steps that change nothing.
* `Linked.related`: a preorder that holds along every step holds from the first value to the last.
-/

namespace Scam2Market
namespace Library

variable {α : Type*}

/-- The steps lead from the first value to the last without a gap. -/
inductive Linked : α → List (α × α) → α → Prop
  | nil (a : α) : Linked a [] a
  | cons {a b c : α} {steps : List (α × α)} (h : Linked b steps c) : Linked a ((a, b) :: steps) c

namespace Linked

variable {a b c : α} {steps steps' : List (α × α)}

theorem append (h : Linked a steps b) (h' : Linked b steps' c) : Linked a (steps ++ steps') c := by
  induction h with
  | nil a => exact h'
  | cons _ ih => exact .cons (ih h')

/-- One more step. -/
theorem concat (h : Linked a steps b) (c : α) : Linked a (steps ++ [(b, c)]) c :=
  h.append (.cons (.nil c))

/-- Steps that change nothing. -/
theorem append_idle (h : Linked a steps b) (hidle : ∀ step ∈ steps', step = (b, b)) :
    Linked a (steps ++ steps') b := by
  refine h.append ?_
  induction steps' with
  | nil => exact .nil b
  | cons step steps' ih =>
    rw [hidle step List.mem_cons_self]
    exact .cons (ih fun other hother => hidle other (List.mem_cons_of_mem _ hother))

/-- What relates the ends of every step relates the first value to the last. -/
theorem related {R : α → α → Prop} (hrefl : ∀ a, R a a) (htrans : ∀ a b c, R a b → R b c → R a c)
    (h : Linked a steps b) (hsteps : ∀ step ∈ steps, R step.1 step.2) : R a b := by
  induction h with
  | nil a => exact hrefl a
  | @cons a b c steps _ ih =>
    exact htrans a b c (hsteps (a, b) List.mem_cons_self)
      (ih fun step hstep => hsteps step (List.mem_cons_of_mem _ hstep))

end Linked

end Library
end Scam2Market
