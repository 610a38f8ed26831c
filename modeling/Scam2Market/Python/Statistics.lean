import Mathlib.Data.Nat.Sqrt
import Mathlib.Data.Nat.Size
import Mathlib.Algebra.Order.Field.Rat
import Mathlib.Algebra.BigOperators.Group.List.Basic
import Mathlib.Data.List.MinMax
import Scam2Market.Library.Lists

/-!
# The standard library's statistics

`statistics.fmean` and `statistics.pstdev` on exact numbers, and the built-in `max` and `min` of a
sequence with a default.

The population standard deviation is irrational in general.  The library computes the population
variance as an exact fraction and takes its square root with `_float_sqrt_of_frac`: an integer
square root of the scaled fraction, rounded to odd, which keeps two more bits than a float holds.
The same integer computation is done here; the last conversion to a float is left out, as
everywhere.
-/

namespace Scam2Market

/-- `statistics.fmean(data)`, for data that is not empty. -/
def fmean (data : List ℚ) : ℚ :=
  data.sum / data.length

/-- `_integer_sqrt_of_frac_rto(n, m)`: the square root of `n / m`, rounded to odd. -/
def integerSqrtOfFracRto (n m : ℕ) : ℕ :=
  let a := Nat.sqrt (n / m)
  a ||| (if a * a * m ≠ n then 1 else 0)

/-- `_float_sqrt_of_frac(n, m)`; 109 is twice the precision of a float plus three. -/
def floatSqrtOfFrac (n m : ℕ) : ℚ :=
  let q : ℤ := ((Nat.size n : ℤ) - Nat.size m - 109) / 2
  if 0 ≤ q then
    ((integerSqrtOfFracRto n (m <<< (2 * q.toNat)) <<< q.toNat : ℕ) : ℚ)
  else
    (integerSqrtOfFracRto (n <<< (2 * (-q).toNat)) m : ℚ) / ((1 <<< (-q).toNat : ℕ) : ℚ)

/-- The population variance, as an exact fraction. -/
def pvariance (data : List ℚ) : ℚ :=
  fmean (data.map fun x => (x - fmean data) ^ 2)

/-- `statistics.pstdev(data)`, for data that is not empty. -/
def pstdev (data : List ℚ) : ℚ :=
  floatSqrtOfFrac (pvariance data).num.natAbs (pvariance data).den

/-- `max(values, default=d)`. -/
def maxDefault {α : Type*} [LinearOrder α] (d : α) : List α → α
  | [] => d
  | x :: xs => xs.foldl max x

section MaxDefault

variable {α : Type*} [LinearOrder α] {d x : α} {values values' : List α}

theorem maxDefault_mem (h : values ≠ []) : maxDefault d values ∈ values := by
  cases values with
  | nil => exact absurd rfl h
  | cons x xs =>
    rw [maxDefault]
    rcases Library.foldl_attained (f := max) max_choice xs x with heq | ⟨y, hy, heq⟩
    · rw [heq]
      exact List.mem_cons_self
    · rw [heq]
      exact List.mem_cons_of_mem x hy

theorem le_maxDefault (h : x ∈ values) : x ≤ maxDefault d values := by
  cases values with
  | nil => exact absurd h List.not_mem_nil
  | cons y ys =>
    obtain ⟨hfirst, hrest⟩ := Library.foldl_dominates (f := max) (· ≤ ·) id le_refl
      (fun _ _ _ => le_trans) (fun b a => ⟨le_max_left b a, le_max_right b a⟩) ys y
    exact (List.mem_cons.mp h).elim (fun heq => heq ▸ hfirst) (hrest x)

theorem maxDefault_le {bound : α} (hd : d ≤ bound) (h : ∀ x ∈ values, x ≤ bound) :
    maxDefault d values ≤ bound := by
  cases values with
  | nil => exact hd
  | cons x xs => exact h _ (maxDefault_mem (List.cons_ne_nil x xs))

/-- The order of the values does not matter. -/
theorem maxDefault_perm (h : values.Perm values') : maxDefault d values = maxDefault d values' := by
  by_cases hnil : values = []
  · subst hnil
    rw [List.nil_perm.mp h]
  · have hnil' : values' ≠ [] := fun heq => hnil (List.perm_nil.mp (heq ▸ h))
    exact le_antisymm (le_maxDefault (h.mem_iff.mp (maxDefault_mem hnil)))
      (le_maxDefault (h.mem_iff.mpr (maxDefault_mem hnil')))

end MaxDefault

/-- `min(values, default=d)`. -/
def minDefault {α : Type*} [LinearOrder α] (d : α) : List α → α
  | [] => d
  | x :: xs => xs.foldl min x

end Scam2Market
