import Mathlib.Algebra.BigOperators.Fin
import Mathlib.Algebra.BigOperators.Group.List.Lemmas
import Mathlib.Algebra.Order.BigOperators.Group.Finset
import Mathlib.Algebra.Order.BigOperators.Group.List
import Mathlib.Algebra.Order.Chebyshev
import Mathlib.Algebra.Order.Field.Basic
import Mathlib.Order.Monotone.Basic
import Mathlib.Tactic.Ring
import Scam2Market.Library.Numerals

/-!
# Forecasts and their outcomes

How well a list of forecasts fits what happened, in exact arithmetic.

* `binnedError`: the residuals are summed within bins, and the sums are added up without their signs.  It
  lies between the residuals added up over all bins and the residuals added up without their signs; and it
  is bounded by the squared residuals (`sq_binnedError_le`).
* `winCount`: the pairs in which the first value is the larger one, with a half for a tie.  The pairs won
  and those lost are all pairs; only the order of the values matters (`winCount_map`).
-/

namespace Scam2Market
namespace Library

attribute [local instance] atLeastTwo_two

/-! ## Bins -/

section Bins

variable {α K : Type*} [AddCommMonoid K] {n : ℕ} {binOf : α → ℕ} {f : α → K} {l : List α}

/-- What the bins sum to, all together. -/
theorem sum_bins (hbin : ∀ a ∈ l, binOf a < n) :
    ((List.range n).map fun k => ((l.filter fun a => binOf a = k).map f).sum).sum = (l.map f).sum := by
  induction l with
  | nil => simp
  | cons a l ih =>
    obtain ⟨ha, hl⟩ := List.forall_mem_cons.mp hbin
    -- the value of `a` is counted in its own bin, once
    have hsplit : ∀ k, (((a :: l).filter fun a => binOf a = k).map f).sum =
        (if binOf a = k then f a else 0) + ((l.filter fun a => binOf a = k).map f).sum := by
      intro k
      by_cases hk : binOf a = k
      · simp [hk]
      · simp [hk]
    have hown : ((List.range n).map fun k => if binOf a = k then f a else 0).sum = f a := by
      show ∑ k ∈ Finset.range n, (if binOf a = k then f a else 0) = f a
      rw [Finset.sum_ite_eq, if_pos (Finset.mem_range.mpr ha)]
    rw [List.map_congr_left fun k _ => hsplit k, List.sum_map_add, hown, ih hl, List.map_cons, List.sum_cons]

end Bins

section Ordered

variable {α K : Type*} [Field K] [LinearOrder K] [IsStrictOrderedRing K]
variable {n : ℕ} {binOf : α → ℕ} {r : α → K} {l : List α}

theorem abs_sum_map_le (r : α → K) (l : List α) : |(l.map r).sum| ≤ (l.map fun a => |r a|).sum := by
  rw [← Fin.sum_univ_fun_getElem, ← Fin.sum_univ_fun_getElem]
  exact Finset.abs_sum_le_sum_abs _ _

theorem sq_sum_map_le (r : α → K) (l : List α) :
    (l.map r).sum ^ 2 ≤ l.length * (l.map fun a => r a ^ 2).sum := by
  rw [← Fin.sum_univ_fun_getElem, ← Fin.sum_univ_fun_getElem]
  have hsquare := sq_sum_le_card_mul_sum_sq (s := Finset.univ) (f := fun i : Fin l.length => r l[i])
  rwa [Finset.card_univ, Fintype.card_fin] at hsquare

/-- The residuals, summed within each bin and then added up without their signs. -/
def binnedError (n : ℕ) (binOf : α → ℕ) (r : α → K) (l : List α) : K :=
  ((List.range n).map fun k => |((l.filter fun a => binOf a = k).map r).sum|).sum

theorem binnedError_nonneg (n : ℕ) (binOf : α → ℕ) (r : α → K) (l : List α) :
    0 ≤ binnedError n binOf r l :=
  List.sum_nonneg fun _ h => by
    obtain ⟨k, -, rfl⟩ := List.mem_map.mp h
    exact abs_nonneg _

theorem abs_sum_le_binnedError (hbin : ∀ a ∈ l, binOf a < n) :
    |(l.map r).sum| ≤ binnedError n binOf r l := by
  rw [← sum_bins hbin]
  exact abs_sum_map_le _ _

theorem binnedError_le_sum_abs (hbin : ∀ a ∈ l, binOf a < n) :
    binnedError n binOf r l ≤ (l.map fun a => |r a|).sum := by
  rw [← sum_bins hbin]
  exact List.sum_le_sum fun k _ => abs_sum_map_le _ _

/-- **The binned error is bounded by the squared residuals.** -/
theorem sq_binnedError_le (hbin : ∀ a ∈ l, binOf a < n) :
    binnedError n binOf r l ^ 2 ≤ l.length * (l.map fun a => r a ^ 2).sum := by
  have habs := sq_sum_map_le (fun a => |r a|) l
  simp only [sq_abs] at habs
  exact (pow_le_pow_left₀ (binnedError_nonneg n binOf r l) (binnedError_le_sum_abs hbin) 2).trans habs

end Ordered

/-! ## Pairs won -/

section Pairs

variable {K : Type*} [Field K] [LinearOrder K] {a b : K} {l l' : List K}

/-- What a pair counts. -/
def pairScore (a b : K) : K :=
  if b < a then 1 else if a = b then 1 / 2 else 0

/-- What all pairs count, the first value from the one list and the second from the other. -/
def winCount (l l' : List K) : K :=
  (l.map fun a => (l'.map fun b => pairScore a b).sum).sum

theorem winCount_perm {k k' : List K} (h : l.Perm k) (h' : l'.Perm k') :
    winCount l l' = winCount k k' := by
  rw [winCount, winCount, (h.map _).sum_eq]
  refine congrArg List.sum (List.map_congr_left fun a _ => ?_)
  rw [(h'.map _).sum_eq]

theorem winCount_map_map (f : K → K) (l l' : List K) :
    winCount (l.map f) (l'.map f) =
      (l.map fun a => (l'.map fun b => pairScore (f a) (f b)).sum).sum := by
  simp only [winCount, List.map_map, Function.comp_def]

/-- **Only the order of the values matters.** -/
theorem winCount_map {f : K → K} {s : Set K} (hf : StrictMonoOn f s) (hl : ∀ a ∈ l, a ∈ s)
    (hl' : ∀ b ∈ l', b ∈ s) : winCount (l.map f) (l'.map f) = winCount l l' := by
  rw [winCount_map_map, winCount]
  refine congrArg List.sum (List.map_congr_left fun a ha => ?_)
  refine congrArg List.sum (List.map_congr_left fun b hb => ?_)
  unfold pairScore
  simp only [hf.lt_iff_lt (hl' b hb) (hl a ha), hf.injOn.eq_iff (hl a ha) (hl' b hb)]

variable [IsStrictOrderedRing K]

theorem pairScore_mem (a b : K) : 0 ≤ pairScore a b ∧ pairScore a b ≤ 1 := by
  unfold pairScore
  split_ifs
  · exact ⟨zero_le_one, le_rfl⟩
  · exact ⟨one_half_pos.le, one_half_lt_one.le⟩
  · exact ⟨le_rfl, zero_le_one⟩

theorem pairScore_add_swap (a b : K) : pairScore a b + pairScore b a = 1 := by
  unfold pairScore
  rcases lt_trichotomy a b with hlt | heq | hgt
  · rw [if_neg hlt.not_gt, if_neg hlt.ne, if_pos hlt, zero_add]
  · rw [if_neg heq.not_gt, if_pos heq, if_neg heq.not_lt, if_pos heq.symm, add_halves]
  · rw [if_pos hgt, if_neg hgt.not_gt, if_neg hgt.ne, add_zero]

theorem pairScore_eq_one_iff : pairScore a b = 1 ↔ b < a := by
  unfold pairScore
  split_ifs with hlt heq
  · exact ⟨fun _ => hlt, fun _ => rfl⟩
  · exact ⟨fun h => absurd h one_half_lt_one.ne, fun h => absurd h hlt⟩
  · exact ⟨fun h => absurd h zero_ne_one, fun h => absurd h hlt⟩

omit [IsStrictOrderedRing K] in
theorem winCount_cons_right (l : List K) (b : K) (l' : List K) :
    winCount l (b :: l') = (l.map fun a => pairScore a b).sum + winCount l l' := by
  rw [winCount, winCount, ← List.sum_map_add]
  rfl

/-- **The pairs won and the pairs lost are all pairs.** -/
theorem winCount_add_swap (l l' : List K) : winCount l l' + winCount l' l = l.length * l'.length := by
  induction l with
  | nil =>
    have hnil : winCount l' ([] : List K) = 0 := by simp [winCount]
    rw [hnil, winCount, List.map_nil, List.sum_nil, List.length_nil, Nat.cast_zero, zero_mul, add_zero]
  | cons a l ih =>
    have hpairs : (l'.map fun b => pairScore a b).sum + (l'.map fun b => pairScore b a).sum = l'.length := by
      rw [← List.sum_map_add, List.map_congr_left fun b _ => pairScore_add_swap a b]
      simp
    rw [winCount_cons_right, List.length_cons, Nat.cast_succ, add_mul, one_mul, ← ih, ← hpairs]
    show (l'.map fun b => pairScore a b).sum + winCount l l' + _ = _
    ring

/-- **When the order of the values is turned round, the pairs lost are those that were won.** -/
theorem winCount_map_anti {f : K → K} {s : Set K} (hf : StrictAntiOn f s) (hl : ∀ a ∈ l, a ∈ s)
    (hl' : ∀ b ∈ l', b ∈ s) :
    winCount (l.map f) (l'.map f) + winCount l l' = l.length * l'.length := by
  have hpair : ∀ a ∈ l, ∀ b ∈ l', pairScore (f a) (f b) + pairScore a b = 1 := by
    intro a ha b hb
    have hturned : pairScore (f a) (f b) = pairScore b a := by
      unfold pairScore
      simp only [hf.lt_iff_gt (hl' b hb) (hl a ha), hf.injOn.eq_iff (hl a ha) (hl' b hb), eq_comm]
    rw [hturned, pairScore_add_swap]
  have hrow : ∀ a ∈ l, (l'.map fun b => pairScore (f a) (f b)).sum +
      (l'.map fun b => pairScore a b).sum = l'.length := by
    intro a ha
    rw [← List.sum_map_add, List.map_congr_left (hpair a ha)]
    simp
  rw [winCount_map_map, winCount, ← List.sum_map_add, List.map_congr_left hrow]
  simp

/-- When every pair ties, half of them count. -/
theorem winCount_of_tie (h : ∀ a ∈ l, ∀ b ∈ l', a = b) : winCount l l' = l.length * l'.length / 2 := by
  have hrow : ∀ a ∈ l, (l'.map fun b => pairScore a b).sum = l'.length * (1 / 2) := by
    intro a ha
    have hpair : ∀ b ∈ l', pairScore a b = 1 / 2 := fun b hb => by
      rw [h a ha b hb, pairScore, if_neg (lt_irrefl b), if_pos rfl]
    rw [List.map_congr_left hpair]
    simp
  rw [winCount, List.map_congr_left hrow]
  simp
  ring

theorem winCount_nonneg (l l' : List K) : 0 ≤ winCount l l' := by
  refine List.sum_nonneg fun _ h => ?_
  obtain ⟨a, -, rfl⟩ := List.mem_map.mp h
  refine List.sum_nonneg fun _ h' => ?_
  obtain ⟨b, -, rfl⟩ := List.mem_map.mp h'
  exact (pairScore_mem a b).1

theorem winCount_le (l l' : List K) : winCount l l' ≤ l.length * l'.length := by
  rw [← winCount_add_swap l l']
  exact le_add_of_nonneg_right (winCount_nonneg l' l)

/-- Every pair is won exactly when every first value is larger than every second one. -/
theorem winCount_eq_iff :
    winCount l l' = l.length * l'.length ↔ ∀ a ∈ l, ∀ b ∈ l', b < a := by
  have hinner : ∀ b, 0 ≤ (l.map fun a => pairScore b a).sum := fun b =>
    List.sum_nonneg fun _ h => by
      obtain ⟨a, -, rfl⟩ := List.mem_map.mp h
      exact (pairScore_mem b a).1
  -- a pair is won exactly when it counts nothing the other way round
  have hpair : ∀ a b : K, pairScore b a = 0 ↔ b < a := fun a b => by
    rw [← pairScore_eq_one_iff, ← pairScore_add_swap a b, left_eq_add]
  rw [← winCount_add_swap l l', left_eq_add]
  constructor
  · intro h a ha b hb
    have hrow : (l.map fun a => pairScore b a).sum = 0 :=
      List.all_zero_of_le_zero_le_of_sum_eq_zero
        (fun x hx => by
          obtain ⟨b, -, rfl⟩ := List.mem_map.mp hx
          exact hinner b) h (List.mem_map_of_mem hb)
    refine (hpair a b).mp (List.all_zero_of_le_zero_le_of_sum_eq_zero (fun x hx => ?_) hrow
      (List.mem_map_of_mem ha))
    obtain ⟨a, -, rfl⟩ := List.mem_map.mp hx
    exact (pairScore_mem b a).1
  · intro h
    refine List.sum_eq_zero fun x hx => ?_
    obtain ⟨b, hb, rfl⟩ := List.mem_map.mp hx
    refine List.sum_eq_zero fun y hy => ?_
    obtain ⟨a, ha, rfl⟩ := List.mem_map.mp hy
    exact (hpair a b).mpr (h a ha b hb)

end Pairs

end Library
end Scam2Market
