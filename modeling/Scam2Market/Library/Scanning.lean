import Mathlib.Data.List.Basic
import Mathlib.Data.List.DropRight
import Mathlib.Data.List.Infix
import Mathlib.Tactic.Common

/-!
# Scanning a list for matches

A pattern is tried at each place of a list, from left to right.  Where it matches, the scan goes on
behind the match; where it does not, at the next place.

* A `Matcher` sees the element before the place and the list from the place on, and gives the length of
  its match.
* `mem_scanFrom`: the pattern matches where the scan says so.
* `pairwise_scanFrom`: the matches follow one another and do not overlap.
* `scanFrom_append`: a part in which nothing matches is passed over.
* `scan_eq_singleton`: a list with one match.
-/

namespace Scam2Market
namespace Library

variable {α : Type*}

/-- A pattern: the element before the place, the list from the place on, and the length of the match. -/
abbrev Matcher (α : Type*) := Option α → List α → Option ℕ

/-- The element before what follows the list. -/
def lastOr (prev : Option α) (l : List α) : Option α :=
  l.getLast?.or prev

@[simp] theorem lastOr_nil (prev : Option α) : lastOr prev [] = prev := rfl

@[simp] theorem lastOr_cons (prev : Option α) (c : α) (l : List α) :
    lastOr prev (c :: l) = lastOr (some c) l := by
  rw [lastOr, lastOr, List.getLast?_cons]
  cases l.getLast? <;> rfl

/-- The matches from a place on, as their places and lengths; so many elements are passed over first. -/
def scanFrom (m : Matcher α) (start : ℕ) (prev : Option α) (skip : ℕ) : List α → List (ℕ × ℕ)
  | [] =>
    if skip = 0 then (m prev []).toList.map fun n => (start, n)
    else []
  | c :: rest =>
    match skip with
    | skip + 1 => scanFrom m (start + 1) (some c) skip rest
    | 0 =>
      match m prev (c :: rest) with
      | some n => (start, n) :: scanFrom m (start + 1) (some c) (n - 1) rest
      | none => scanFrom m (start + 1) (some c) 0 rest

/-- `finditer`. -/
def scan (m : Matcher α) (l : List α) : List (ℕ × ℕ) :=
  scanFrom m 0 none 0 l

variable {m : Matcher α} {start skip i n : ℕ} {prev : Option α} {l : List α}

theorem scanFrom_skip {c : α} {rest : List α} :
    scanFrom m start prev (skip + 1) (c :: rest) = scanFrom m (start + 1) (some c) skip rest := rfl

theorem scanFrom_of_some {c : α} {rest : List α} (h : m prev (c :: rest) = some n) :
    scanFrom m start prev 0 (c :: rest) =
      (start, n) :: scanFrom m (start + 1) (some c) (n - 1) rest := by
  rw [scanFrom, h]

theorem scanFrom_of_none {c : α} {rest : List α} (h : m prev (c :: rest) = none) :
    scanFrom m start prev 0 (c :: rest) = scanFrom m (start + 1) (some c) 0 rest := by
  rw [scanFrom, h]

/-- **A match is one**: the pattern matches at its place. -/
theorem mem_scanFrom (h : (i, n) ∈ scanFrom m start prev skip l) :
    ∃ front back, l = front ++ back ∧ i = start + front.length ∧ skip ≤ front.length ∧
      m (lastOr prev front) back = some n := by
  induction l generalizing start prev skip with
  | nil =>
    rw [scanFrom] at h
    split_ifs at h with hskip
    · obtain ⟨k, hk, heq⟩ := List.mem_map.mp h
      obtain ⟨rfl, rfl⟩ : start = i ∧ k = n := by simpa using heq
      exact ⟨[], [], rfl, rfl, hskip.le, Option.mem_toList.mp hk⟩
    · exact absurd h List.not_mem_nil
  | cons c rest ih =>
    have hlater : ∀ {skip'}, (i, n) ∈ scanFrom m (start + 1) (some c) skip' rest →
        ∃ front back, c :: rest = front ++ back ∧ i = start + front.length ∧
          skip' + 1 ≤ front.length ∧ m (lastOr prev front) back = some n := by
      intro skip' hmem
      obtain ⟨front, back, rfl, rfl, hskip, hmatch⟩ := ih hmem
      refine ⟨c :: front, back, rfl, ?_, ?_, ?_⟩
      · rw [List.length_cons, Nat.add_assoc, Nat.add_comm 1]
      · exact Nat.succ_le_succ hskip
      · rw [lastOr_cons]
        exact hmatch
    cases skip with
    | succ skip => exact hlater h
    | zero =>
      cases hmatch : m prev (c :: rest) with
      | none =>
        rw [scanFrom_of_none hmatch] at h
        obtain ⟨front, back, hl, hi, -, hm⟩ := hlater h
        exact ⟨front, back, hl, hi, Nat.zero_le _, hm⟩
      | some k =>
        rw [scanFrom_of_some hmatch] at h
        rcases List.mem_cons.mp h with hfirst | hrest
        · obtain ⟨rfl, rfl⟩ : i = start ∧ n = k := by simpa using hfirst
          exact ⟨[], c :: rest, rfl, rfl, le_rfl, hmatch⟩
        · obtain ⟨front, back, hl, hi, -, hm⟩ := hlater hrest
          exact ⟨front, back, hl, hi, Nat.zero_le _, hm⟩

theorem le_of_mem_scanFrom (h : (i, n) ∈ scanFrom m start prev skip l) : start + skip ≤ i := by
  obtain ⟨front, -, -, rfl, hskip, -⟩ := mem_scanFrom h
  exact Nat.add_le_add_left hskip start

/-- **The matches follow one another.** -/
theorem pairwise_scanFrom (m : Matcher α) (start : ℕ) (prev : Option α) (skip : ℕ) (l : List α) :
    (scanFrom m start prev skip l).Pairwise fun a b => a.1 < b.1 ∧ a.1 + a.2 ≤ b.1 := by
  induction l generalizing start prev skip with
  | nil =>
    rw [scanFrom]
    split_ifs
    · cases m prev [] with
      | none => exact List.Pairwise.nil
      | some n => exact List.pairwise_singleton _ _
    · exact List.Pairwise.nil
  | cons c rest ih =>
    cases skip with
    | succ skip => exact ih _ _ _
    | zero =>
      cases hmatch : m prev (c :: rest) with
      | none =>
        rw [scanFrom_of_none hmatch]
        exact ih _ _ _
      | some n =>
        rw [scanFrom_of_some hmatch]
        refine List.pairwise_cons.mpr ⟨fun later hlater => ?_, ih _ _ _⟩
        have hle := le_of_mem_scanFrom hlater
        simp only
        omega

/-- **A part in which nothing matches** is passed over. -/
theorem scanFrom_append {front : List α} (back : List α)
    (h : ∀ done todo, front = done ++ todo → todo ≠ [] → m (lastOr prev done) (todo ++ back) = none) :
    scanFrom m start prev 0 (front ++ back) =
      scanFrom m (start + front.length) (lastOr prev front) 0 back := by
  induction front generalizing start prev with
  | nil => rfl
  | cons c front ih =>
    have hfirst : m prev (c :: (front ++ back)) = none := h [] (c :: front) rfl (List.cons_ne_nil _ _)
    rw [List.cons_append, scanFrom_of_none hfirst, ih, lastOr_cons, List.length_cons, Nat.add_assoc,
      Nat.add_comm 1]
    intro done todo hsplit htodo
    rw [← lastOr_cons prev]
    exact h (c :: done) todo (by rw [hsplit, List.cons_append]) htodo

/-- **A list with one match**: nothing matches before it, and nothing behind it. -/
theorem scan_eq_singleton {front back : List α} (hne : back ≠ [])
    (hfront : ∀ done todo, front = done ++ todo → todo ≠ [] → m (lastOr none done) (todo ++ back) = none)
    (hmatch : m (lastOr none front) back = some n)
    (hback : ∀ done todo prev, back = done ++ todo → n ≤ done.length → m prev todo = none) :
    scan m (front ++ back) = [(front.length, n)] := by
  obtain ⟨c, rest, rfl⟩ := List.exists_cons_of_ne_nil hne
  rw [scan, scanFrom_append _ hfront, scanFrom_of_some hmatch, Nat.zero_add]
  have hnone : scanFrom m (front.length + 1) (some c) (n - 1) rest = [] := by
    refine List.eq_nil_iff_forall_not_mem.mpr fun found hfound => ?_
    obtain ⟨done, todo, hsplit, -, hskip, hlater⟩ := mem_scanFrom (i := found.1) (n := found.2) hfound
    rw [hback (c :: done) todo _ (by rw [hsplit, List.cons_append])] at hlater
    · exact nomatch hlater
    · rw [List.length_cons]
      omega
  rw [hnone]

end Library
end Scam2Market
