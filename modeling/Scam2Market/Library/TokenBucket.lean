import Mathlib.Algebra.Order.Field.Basic
import Mathlib.Tactic.Linarith
import Mathlib.Tactic.Ring

/-!
# Token buckets

A bucket gains tokens at a rate, up to its capacity, and a request takes one if there is one.

* `Bucket.Sound`: the tokens are between zero and the capacity.
* `servedBy_le`: from a bucket on, up to some time, no more requests are served than there are tokens and
  tokens gained.  Each request keeps the tokens that are left plus those that are yet to come from rising,
  and one that is served lowers them by one.
* `window_le`: in no window of time are more requests served than the capacity and what the window gains.
* `level_of_idle`: a bucket that has had time to fill up is as good as a new one.
-/

namespace Scam2Market
namespace Library

variable {𝕜 : Type*} [Field 𝕜] [LinearOrder 𝕜]

/-- What a bucket has, and when it had it. -/
structure Bucket (𝕜 : Type*) where
  tokens : 𝕜
  lastRefill : 𝕜

/-- The capacity of buckets, and the rate at which they fill. -/
structure BucketRates (𝕜 : Type*) [Field 𝕜] [LinearOrder 𝕜] where
  capacity : 𝕜
  refill : 𝕜
  one_le_capacity : 1 ≤ capacity
  refill_pos : 0 < refill

namespace BucketRates

variable (rates : BucketRates 𝕜) {bucket : Option (Bucket 𝕜)} {now a b : 𝕜} {times : List 𝕜}

/-- The tokens at a time; a new bucket is full. -/
def level (bucket : Option (Bucket 𝕜)) (now : 𝕜) : 𝕜 :=
  match bucket with
  | none => rates.capacity
  | some bucket => min rates.capacity (bucket.tokens + (now - bucket.lastRefill) * rates.refill)

/-- A request: whether it is served, and the bucket then. -/
def offer (bucket : Option (Bucket 𝕜)) (now : 𝕜) : Bool × Bucket 𝕜 :=
  if 1 ≤ rates.level bucket now then (true, ⟨rates.level bucket now - 1, now⟩)
  else (false, ⟨rates.level bucket now, now⟩)

/-- The requests at some times, and whether they are served. -/
def log (bucket : Option (Bucket 𝕜)) : List 𝕜 → List (𝕜 × Bool)
  | [] => []
  | now :: times =>
    (now, (rates.offer bucket now).1) :: log (some (rates.offer bucket now).2) times

/-- The bucket has no impossible number of tokens, and is not from the future. -/
structure Sound (now : 𝕜) (bucket : Bucket 𝕜) : Prop where
  tokens_nonneg : 0 ≤ bucket.tokens
  tokens_le : bucket.tokens ≤ rates.capacity
  lastRefill_le : bucket.lastRefill ≤ now

/-- A request that is served, at a time between two others. -/
def servedIn (a b : 𝕜) (entry : 𝕜 × Bool) : Bool :=
  entry.2 && decide (a ≤ entry.1) && decide (entry.1 ≤ b)

theorem offer_served (h : 1 ≤ rates.level bucket now) :
    rates.offer bucket now = (true, ⟨rates.level bucket now - 1, now⟩) :=
  if_pos h

theorem offer_refused (h : ¬ 1 ≤ rates.level bucket now) :
    rates.offer bucket now = (false, ⟨rates.level bucket now, now⟩) :=
  if_neg h

theorem offer_lastRefill (bucket : Option (Bucket 𝕜)) (now : 𝕜) :
    (rates.offer bucket now).2.lastRefill = now := by
  by_cases h : 1 ≤ rates.level bucket now
  · rw [rates.offer_served h]
  · rw [rates.offer_refused h]

theorem level_le (bucket : Option (Bucket 𝕜)) (now : 𝕜) : rates.level bucket now ≤ rates.capacity := by
  cases bucket with
  | none => exact le_rfl
  | some bucket => exact min_le_left _ _

variable {rates}

theorem Sound.later {bucket : Bucket 𝕜} (h : rates.Sound a bucket) (hle : a ≤ now) :
    rates.Sound now bucket :=
  ⟨h.tokens_nonneg, h.tokens_le, h.lastRefill_le.trans hle⟩

theorem mem_log {entry : 𝕜 × Bool} (h : entry ∈ rates.log bucket times) : entry.1 ∈ times := by
  induction times generalizing bucket with
  | nil => exact absurd h List.not_mem_nil
  | cons now times ih =>
    rcases List.mem_cons.mp h with rfl | h
    · exact List.mem_cons_self
    · exact List.mem_cons_of_mem now (ih h)

/-- A request is paid with a token. -/
theorem served_add_tokens (bucket : Option (Bucket 𝕜)) (now : 𝕜) :
    (if (rates.offer bucket now).1 then 1 else 0) + (rates.offer bucket now).2.tokens =
      rates.level bucket now := by
  by_cases h : 1 ≤ rates.level bucket now
  · rw [rates.offer_served h]
    exact add_sub_cancel _ _
  · rw [rates.offer_refused h]
    exact zero_add _

/-- The requests that are served up to a time. -/
def servedBy (rates : BucketRates 𝕜) (bucket : Option (Bucket 𝕜)) (times : List 𝕜) (b : 𝕜) : ℕ :=
  (rates.log bucket times).countP fun entry => entry.2 && decide (entry.1 ≤ b)

theorem servedBy_cons (hnow : now ≤ b) :
    (servedBy rates bucket (now :: times) b : 𝕜) = (if (rates.offer bucket now).1 then 1 else 0) +
      servedBy rates (some (rates.offer bucket now).2) times b := by
  rw [servedBy, log, List.countP_cons, ← servedBy, decide_eq_true hnow, Bool.and_true, Nat.cast_add,
    add_comm]
  congr 1
  split_ifs
  · exact Nat.cast_one
  · exact Nat.cast_zero

/-- Once the clock has passed the end, it does not turn back. -/
theorem servedBy_eq_zero (h : ∀ now ∈ times, b < now) : servedBy rates bucket times b = 0 := by
  refine List.countP_eq_zero.mpr fun entry hentry => ?_
  simp [not_le.mpr (h entry.1 (mem_log hentry))]

variable [IsStrictOrderedRing 𝕜]

theorem level_nonneg (h : ∀ x ∈ bucket, rates.Sound now x) : 0 ≤ rates.level bucket now := by
  have hcapacity : 0 ≤ rates.capacity := zero_le_one.trans rates.one_le_capacity
  cases bucket with
  | none => exact hcapacity
  | some bucket =>
    have hbucket := h bucket rfl
    have hgained : 0 ≤ (now - bucket.lastRefill) * rates.refill :=
      mul_nonneg (sub_nonneg.mpr hbucket.lastRefill_le) rates.refill_pos.le
    exact le_min hcapacity (add_nonneg hbucket.tokens_nonneg hgained)

/-- A request keeps the bucket sound. -/
theorem sound_offer (h : ∀ x ∈ bucket, rates.Sound now x) : rates.Sound now (rates.offer bucket now).2 := by
  have hnonneg := level_nonneg h
  have hle := rates.level_le bucket now
  by_cases hserved : 1 ≤ rates.level bucket now
  · rw [rates.offer_served hserved]
    exact ⟨sub_nonneg.mpr hserved, (sub_le_self _ zero_le_one).trans hle, le_rfl⟩
  · rw [rates.offer_refused hserved]
    exact ⟨hnonneg, hle, le_rfl⟩

/-- **A bucket that has had time to fill up** is as good as a new one. -/
theorem level_of_idle {bucket : Bucket 𝕜} (h : rates.Sound now bucket)
    (hidle : rates.capacity ≤ (now - bucket.lastRefill) * rates.refill) :
    rates.level (some bucket) now = rates.level none now :=
  min_eq_left (hidle.trans (le_add_of_nonneg_left h.tokens_nonneg))

/-! ## How many requests are served -/

/-- What holds from the next bucket on holds from the request on. -/
theorem servedBy_step (hnow : now ≤ b)
    (hrest : (servedBy rates (some (rates.offer bucket now).2) times b : 𝕜) ≤
      (rates.offer bucket now).2.tokens + (b - now) * rates.refill) :
    (servedBy rates bucket (now :: times) b : 𝕜) ≤
      rates.level bucket now + (b - now) * rates.refill := by
  have hpaid : (if (rates.offer bucket now).1 then 1 else 0) + (rates.offer bucket now).2.tokens =
      rates.level bucket now := served_add_tokens bucket now
  rw [servedBy_cons hnow]
  linarith

/-- **From a bucket on**: the tokens that there are, and that there will be, are not exceeded. -/
theorem servedBy_le {bucket : Bucket 𝕜} {last : 𝕜} (hlast : bucket.lastRefill = last)
    (hbucket : rates.Sound last bucket) (hb : last ≤ b) (hsorted : (last :: times).Pairwise (· ≤ ·)) :
    (servedBy rates (some bucket) times b : 𝕜) ≤ bucket.tokens + (b - last) * rates.refill := by
  induction times generalizing bucket last with
  | nil =>
    rw [servedBy_eq_zero fun _ h => absurd h List.not_mem_nil, Nat.cast_zero]
    exact add_nonneg hbucket.tokens_nonneg (mul_nonneg (sub_nonneg.mpr hb) rates.refill_pos.le)
  | cons now times ih =>
    obtain ⟨hfirst, hrest⟩ := List.pairwise_cons.mp hsorted
    have hnow : last ≤ now := hfirst now List.mem_cons_self
    by_cases hlate : b < now
    · have hafter : ∀ time ∈ now :: times, b < time := List.forall_mem_cons.mpr
        ⟨hlate, fun time htime => hlate.trans_le ((List.pairwise_cons.mp hrest).1 time htime)⟩
      rw [servedBy_eq_zero hafter, Nat.cast_zero]
      exact add_nonneg hbucket.tokens_nonneg (mul_nonneg (sub_nonneg.mpr hb) rates.refill_pos.le)
    · have hsound : rates.Sound now (rates.offer (some bucket) now).2 :=
        sound_offer fun x hx => Option.some.inj hx ▸ hbucket.later hnow
      have hnext := ih (rates.offer_lastRefill (some bucket) now) hsound (not_lt.mp hlate) hrest
      have hlevel : rates.level (some bucket) now ≤ bucket.tokens + (now - last) * rates.refill :=
        hlast ▸ min_le_right _ _
      calc (servedBy rates (some bucket) (now :: times) b : 𝕜)
          ≤ rates.level (some bucket) now + (b - now) * rates.refill :=
            servedBy_step (not_lt.mp hlate) hnext
        _ ≤ bucket.tokens + (now - last) * rates.refill + (b - now) * rates.refill :=
            add_le_add_left hlevel _
        _ = bucket.tokens + (b - last) * rates.refill := by ring

/-- **In a window of time**, no more requests are served than the capacity and what the window gains. -/
theorem window_le (hab : a ≤ b) {start : 𝕜} (hbucket : ∀ x ∈ bucket, rates.Sound start x)
    (hsorted : (start :: times).Pairwise (· ≤ ·)) :
    ((rates.log bucket times).countP (servedIn a b) : 𝕜) ≤
      rates.capacity + (b - a) * rates.refill := by
  have hcapacity : 0 ≤ rates.capacity := zero_le_one.trans rates.one_le_capacity
  have hgain : 0 ≤ (b - a) * rates.refill := mul_nonneg (sub_nonneg.mpr hab) rates.refill_pos.le
  induction times generalizing bucket start with
  | nil =>
    rw [log, List.countP_nil, Nat.cast_zero]
    exact add_nonneg hcapacity hgain
  | cons now times ih =>
    obtain ⟨hfirst, hrest⟩ := List.pairwise_cons.mp hsorted
    have hsound : rates.Sound now (rates.offer bucket now).2 :=
      sound_offer fun x hx => (hbucket x hx).later (hfirst now List.mem_cons_self)
    by_cases hearly : now < a
    · -- the request is not in the window
      have hnot : servedIn a b (now, (rates.offer bucket now).1) = false := by
        rw [servedIn, decide_eq_false (not_le.mpr hearly), Bool.and_false, Bool.false_and]
      rw [log, List.countP_cons_of_neg (by rw [hnot]; exact Bool.false_ne_true)]
      exact ih (fun x hx => Option.some.inj hx ▸ hsound) hrest
    · have hlater : ∀ time ∈ now :: times, a ≤ time := List.forall_mem_cons.mpr
        ⟨not_lt.mp hearly, fun time htime =>
          (not_lt.mp hearly).trans ((List.pairwise_cons.mp hrest).1 time htime)⟩
      have hserved : (rates.log bucket (now :: times)).countP (servedIn a b) =
          servedBy rates bucket (now :: times) b := by
        refine List.countP_congr fun entry hentry => ?_
        rw [servedIn, decide_eq_true (hlater _ (mem_log hentry)), Bool.and_true]
      rw [hserved]
      by_cases hlate : b < now
      · have hafter : ∀ time ∈ now :: times, b < time := List.forall_mem_cons.mpr
          ⟨hlate, fun time htime => hlate.trans_le ((List.pairwise_cons.mp hrest).1 time htime)⟩
        rw [servedBy_eq_zero hafter, Nat.cast_zero]
        exact add_nonneg hcapacity hgain
      · have hnext := servedBy_le (rates.offer_lastRefill bucket now) hsound (not_lt.mp hlate) hrest
        calc (servedBy rates bucket (now :: times) b : 𝕜)
            ≤ rates.level bucket now + (b - now) * rates.refill :=
              servedBy_step (not_lt.mp hlate) hnext
          _ ≤ rates.capacity + (b - a) * rates.refill := by
              refine add_le_add (rates.level_le bucket now) ?_
              exact mul_le_mul_of_nonneg_right (sub_le_sub_left (not_lt.mp hearly) b)
                rates.refill_pos.le

end BucketRates

end Library
end Scam2Market
