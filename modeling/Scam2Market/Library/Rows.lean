import Mathlib.Data.List.MinMax
import Mathlib.Data.List.Sort
import Mathlib.Tactic.Common

/-!
# Tables of rows

A table is a list of rows; the rows have keys.

* `updateWhere`: rewrite the rows that meet a condition.
* `length_filter_key_le_one`, `flatMap_sublist_map`: rows that are joined on a key.
* `lookupBy`: the row with a key, after an update (`lookupBy_update`) and after an insertion
  (`lookupBy_append`).
* `firstWhere`: the first rows, in an order, that meet a condition, and no more than a limit.
* `mem_firstWhere`: a row is among them when no more rows than the limit stand before it;
  `mem_firstWhere_of_not_rel`: also when it stands before one of them.
-/

namespace Scam2Market
namespace Library

variable {α κ : Type*} {p : α → Bool} {f : α → α} {rows : List α} {key : α → κ}

/-- Rewrite the rows that meet a condition. -/
def updateWhere (p : α → Bool) (f : α → α) (rows : List α) : List α :=
  rows.map fun row => if p row then f row else row

theorem mem_updateWhere {b : α} :
    b ∈ updateWhere p f rows ↔ ∃ a ∈ rows, (if p a then f a else a) = b :=
  List.mem_map

theorem mem_updateWhere_of_neg {a : α} (ha : a ∈ rows) (hp : p a = false) :
    a ∈ updateWhere p f rows :=
  mem_updateWhere.mpr ⟨a, ha, if_neg (by simp [hp])⟩

theorem mem_updateWhere_of_pos {a : α} (ha : a ∈ rows) (hp : p a = true) :
    f a ∈ updateWhere p f rows :=
  mem_updateWhere.mpr ⟨a, ha, if_pos hp⟩

/-- A rewriting that keeps the key keeps the keys of the table. -/
theorem map_updateWhere (hkey : ∀ row, key (f row) = key row) :
    (updateWhere p f rows).map key = rows.map key := by
  rw [updateWhere, List.map_map]
  refine List.map_congr_left fun row _ => ?_
  simp only [Function.comp_apply]
  split_ifs
  · exact hkey row
  · rfl

/-- Rows with distinct keys are told apart by them. -/
theorem eq_of_key_eq (hkeys : (rows.map key).Nodup) {a b : α} (ha : a ∈ rows) (hb : b ∈ rows)
    (h : key a = key b) : a = b :=
  List.inj_on_of_nodup_map hkeys ha hb h

section Lookup

variable [DecidableEq κ]

/-- The row with a key. -/
def lookupBy (key : α → κ) (k : κ) (rows : List α) : Option α :=
  rows.find? fun row => key row = k

theorem lookupBy_eq_none_iff {k : κ} : lookupBy key k rows = none ↔ ∀ row ∈ rows, key row ≠ k := by
  rw [lookupBy, List.find?_eq_none]
  exact forall₂_congr fun row _ => not_congr decide_eq_true_iff

theorem of_lookupBy {k : κ} {row : α} (h : lookupBy key k rows = some row) : row ∈ rows ∧ key row = k :=
  ⟨List.mem_of_find?_eq_some h,
    of_decide_eq_true (List.find?_some (p := fun row => decide (key row = k)) h)⟩

theorem lookupBy_cons (key : α → κ) (k : κ) (row : α) (rows : List α) :
    lookupBy key k (row :: rows) = if key row = k then some row else lookupBy key k rows := by
  rw [lookupBy, List.find?_cons]
  split_ifs with hkey <;> simp [hkey, lookupBy]

/-- A row with a new key is inserted. -/
theorem lookupBy_append {row : α} (hnew : ∀ other ∈ rows, key other ≠ key row) (k : κ) :
    lookupBy key k (rows ++ [row]) = if k = key row then some row else lookupBy key k rows := by
  have happend : lookupBy key k (rows ++ [row]) = (lookupBy key k rows).or (lookupBy key k [row]) :=
    List.find?_append
  rw [happend, lookupBy_cons]
  split_ifs with hrow hk hk
  · have hnone : lookupBy key k rows = none :=
      lookupBy_eq_none_iff.mpr fun other hother => hrow ▸ hnew other hother
    rw [hnone, Option.none_or]
  · exact absurd hrow.symm hk
  · exact absurd hk.symm hrow
  · exact Option.or_none

/-- An update of the row with a key. -/
theorem lookupBy_update {f : α → α} {k : κ} (hf : ∀ row, key (f row) = key row) (k' : κ) :
    lookupBy key k' (rows.map fun row => if key row = k then f row else row) =
      if k' = k then (lookupBy key k rows).map f else lookupBy key k' rows := by
  induction rows with
  | nil => simp [lookupBy]
  | cons row rows ih =>
    have hkey : key (if key row = k then f row else row) = key row := by
      split_ifs
      · exact hf row
      · rfl
    rw [List.map_cons, lookupBy_cons, ih, lookupBy_cons, lookupBy_cons, hkey]
    by_cases hk : k' = k
    · subst hk
      by_cases hrow : key row = k'
      · simp [hrow]
      · simp [hrow]
    · by_cases hrow : key row = k'
      · have hne : key row ≠ k := fun h => hk (hrow.symm.trans h)
        simp [hrow, hk]
      · simp [hrow, hk]

end Lookup

/-- The only row with the highest value. -/
theorem argmax_eq_some_of_unique {f : α → ℕ} {a : α} (ha : a ∈ rows) (hmax : ∀ b ∈ rows, f b ≤ f a)
    (hunique : ∀ b ∈ rows, f b = f a → b = a) : rows.argmax f = some a := by
  rcases hargmax : rows.argmax f with _ | b
  · rw [List.argmax_eq_none.mp hargmax] at ha
    exact (List.not_mem_nil ha).elim
  · have hb : b ∈ rows := List.argmax_mem hargmax
    rw [hunique b hb (le_antisymm (hmax b hb) (List.le_of_mem_argmax ha hargmax))]

/-- Distinct rows that are all one are one row at most. -/
theorem length_le_one (hnodup : rows.Nodup) (h : ∀ a ∈ rows, ∀ b ∈ rows, a = b) :
    rows.length ≤ 1 := by
  rcases rows with _ | ⟨a, _ | ⟨b, rest⟩⟩
  · exact Nat.zero_le 1
  · exact le_refl 1
  · have heq : a = b := h a List.mem_cons_self b (List.mem_cons_of_mem a List.mem_cons_self)
    exact absurd (heq ▸ List.mem_cons_self) (List.nodup_cons.mp hnodup).1

/-- At most one row has a key. -/
theorem length_filter_key_le_one [DecidableEq κ] (hkeys : (rows.map key).Nodup) (k : κ) :
    (rows.filter fun row => key row = k).length ≤ 1 := by
  refine length_le_one (hkeys.of_map.filter _) fun a ha b hb => ?_
  obtain ⟨hmem, hk⟩ := List.mem_filter.mp ha
  obtain ⟨hmem', hk'⟩ := List.mem_filter.mp hb
  exact eq_of_key_eq hkeys hmem hmem' ((of_decide_eq_true hk).trans (of_decide_eq_true hk').symm)

/-- A join with at most one row on the other side keeps the keys distinct. -/
theorem flatMap_sublist_map {β : Type*} {f : α → List β} {g : α → β}
    (h : ∀ a ∈ rows, (f a).Sublist [g a]) : (rows.flatMap f).Sublist (rows.map g) := by
  induction rows with
  | nil => exact List.Sublist.slnil
  | cons a rows ih =>
    rw [List.flatMap_cons, List.map_cons, ← List.singleton_append]
    exact (h a List.mem_cons_self).append (ih fun b hb => h b (List.mem_cons_of_mem a hb))

variable {r : α → α → Prop} {limit : ℕ}

/-- What is kept of a sorted list stands before what is not. -/
theorem rel_of_mem_take_of_mem_drop {sorted : List α} (hsorted : sorted.Pairwise r) {a b : α}
    (ha : a ∈ sorted.take limit) (hb : b ∈ sorted.drop limit) : r a b := by
  rw [← List.take_append_drop limit sorted] at hsorted
  exact (List.pairwise_append.mp hsorted).2.2 a ha b hb

variable [DecidableRel r]

/-- The first rows in the order that meet a condition, no more than the limit. -/
def firstWhere (p : α → Bool) (r : α → α → Prop) [DecidableRel r] (limit : ℕ) (rows : List α) :
    List α :=
  ((rows.filter p).insertionSort r).take limit

theorem of_mem_firstWhere {a : α} (h : a ∈ firstWhere p r limit rows) : a ∈ rows ∧ p a = true :=
  List.mem_filter.mp ((List.mem_insertionSort r).mp (List.mem_of_mem_take h))

theorem nodup_map_firstWhere (hkeys : (rows.map key).Nodup) :
    ((firstWhere p r limit rows).map key).Nodup := by
  have hfilter : ((rows.filter p).map key).Nodup :=
    hkeys.sublist (List.filter_sublist.map key)
  have hsorted : (((rows.filter p).insertionSort r).map key).Nodup :=
    ((List.perm_insertionSort r (rows.filter p)).map key).nodup_iff.mpr hfilter
  exact hsorted.sublist ((List.take_sublist limit _).map key)

theorem pairwise_firstWhere [Std.Total r] [IsTrans α r] : (firstWhere p r limit rows).Pairwise r :=
  (List.pairwise_insertionSort r _).sublist (List.take_sublist limit _)

/-- A row that stands before one of the first is one of them. -/
theorem mem_firstWhere_of_not_rel [Std.Total r] [IsTrans α r] {a b : α}
    (hb : b ∈ firstWhere p r limit rows) (ha : a ∈ rows) (hp : p a = true) (hrel : ¬ r b a) :
    a ∈ firstWhere p r limit rows := by
  have hmem : a ∈ (rows.filter p).insertionSort r :=
    (List.mem_insertionSort r).mpr (List.mem_filter.mpr ⟨ha, hp⟩)
  rw [← List.take_append_drop limit ((rows.filter p).insertionSort r)] at hmem
  refine (List.mem_append.mp hmem).resolve_right fun hdrop => hrel ?_
  exact rel_of_mem_take_of_mem_drop (List.pairwise_insertionSort r _) hb hdrop

/-- A row is among the first when, with it, no more rows than the limit stand as early. -/
theorem mem_firstWhere [Std.Total r] [IsTrans α r] {a : α} (ha : a ∈ rows) (hp : p a = true)
    (hlimit : (rows.filter fun b => p b && decide (r b a)).length ≤ limit) :
    a ∈ firstWhere p r limit rows := by
  have hperm : ((rows.filter p).insertionSort r).Perm (rows.filter p) :=
    List.perm_insertionSort r _
  have hmem : a ∈ (rows.filter p).insertionSort r :=
    hperm.mem_iff.mpr (List.mem_filter.mpr ⟨ha, hp⟩)
  obtain ⟨before, after, hsplit⟩ := List.append_of_mem hmem
  have hsorted : (before ++ a :: after).Pairwise r := hsplit ▸ List.pairwise_insertionSort r _
  have hbefore : ∀ b ∈ before, r b a := fun b hb =>
    (List.pairwise_append.mp hsorted).2.2 b hb a List.mem_cons_self
  -- the rows that stand as early are those before it, itself, and those that tie with it
  have hcount : before.length + 1 ≤ limit := by
    have hfilter : ((before ++ a :: after).filter fun b => decide (r b a)).length ≤ limit := by
      rw [← hsplit, (hperm.filter _).length_eq, List.filter_filter]
      simpa only [Bool.and_comm] using hlimit
    have hkept : before.filter (fun b => decide (r b a)) = before :=
      List.filter_eq_self.mpr fun b hb => decide_eq_true (hbefore b hb)
    have hself : (fun b => decide (r b a)) a = true := decide_eq_true (refl_of r a)
    rw [List.filter_append, hkept, List.filter_cons_of_pos (p := fun b => decide (r b a)) hself,
      List.length_append, List.length_cons] at hfilter
    omega
  rw [firstWhere, hsplit]
  refine List.mem_take_iff_getElem.mpr ⟨before.length, ?_, ?_⟩
  · rw [List.length_append, List.length_cons]
    omega
  · rw [List.getElem_append_right (Nat.le_refl _)]
    simp

end Library
end Scam2Market
