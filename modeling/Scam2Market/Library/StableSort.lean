import Mathlib.Data.List.Sort

/-!
# Sorting and selecting

Facts about a stable sort by a total preorder.

* `filter_insertionSort`: selecting and sorting commute, whatever the selection; elements with equal
  keys keep their order.
* `insertionSort_eq_of_perm`: on lists whose elements the preorder tells apart, the sorted list does
  not depend on the order the elements came in.
* `pairwise_insertionSort_iff`: a list that is in another, strict, order stays in it exactly when it was sorted.
* `insertionSort_eq_of_ties`: in general it depends on that order only among elements that tie.

Sorting by a key (`total_byKey`, `isTrans_byKey`) is an instance.
-/

namespace Scam2Market
namespace Library

section Sorting

variable {α : Type*} (r : α → α → Prop) [DecidableRel r]

/-- An element below all others is inserted in front. -/
theorem orderedInsert_of_forall {x : α} {l : List α} (h : ∀ b ∈ l, r x b) :
    l.orderedInsert r x = x :: l := by
  cases l with
  | nil => rfl
  | cons b l => exact List.orderedInsert_cons_of_le r l (h b List.mem_cons_self)

variable [IsTrans α r]

/-- Selecting after inserting into a sorted list. -/
theorem filter_orderedInsert (p : α → Bool) (x : α) {l : List α} (hl : l.Pairwise r) :
    (l.orderedInsert r x).filter p =
      if p x then (l.filter p).orderedInsert r x else l.filter p := by
  induction l with
  | nil =>
    cases hx : p x with
    | true => simp [hx]
    | false => simp [hx]
  | cons b l ih =>
    obtain ⟨hb, hl'⟩ := List.pairwise_cons.mp hl
    by_cases hxb : r x b
    · -- `x` stays in front, and it is below everything that is selected
      rw [List.orderedInsert_cons_of_le r l hxb, List.filter_cons]
      have hall : ∀ c ∈ (b :: l).filter p, r x c := by
        intro c hc
        rcases List.mem_cons.mp (List.mem_of_mem_filter hc) with rfl | hcl
        · exact hxb
        · exact Trans.trans hxb (hb c hcl)
      rw [orderedInsert_of_forall r hall]
    · rw [List.orderedInsert_of_not_le r l hxb, List.filter_cons, ih hl', List.filter_cons]
      cases hpx : p x with
      | true =>
        cases hpb : p b with
        | true =>
          simp only [if_true]
          rw [List.orderedInsert_of_not_le r _ hxb]
        | false => simp
      | false => simp

variable [Std.Total r]

/-- **Selecting and sorting commute.** -/
theorem filter_insertionSort (p : α → Bool) (l : List α) :
    (l.insertionSort r).filter p = (l.filter p).insertionSort r := by
  induction l with
  | nil => rfl
  | cons x l ih =>
    rw [List.insertionSort_cons, filter_orderedInsert r p x (List.pairwise_insertionSort r l), ih,
      List.filter_cons]
    cases p x with
    | true => simp
    | false => simp

/-- **The order of arrival does not matter** when the preorder tells the elements apart. -/
theorem insertionSort_eq_of_perm {l l' : List α} (hperm : l.Perm l')
    (hanti : ∀ a ∈ l, ∀ b ∈ l, r a b → r b a → a = b) :
    l.insertionSort r = l'.insertionSort r := by
  have hsorted : (l.insertionSort r).Perm (l'.insertionSort r) :=
    (List.perm_insertionSort r l).trans (hperm.trans (List.perm_insertionSort r l').symm)
  refine hsorted.eq_of_pairwise (fun a b ha hb hab hba => ?_)
    (List.pairwise_insertionSort r l) (List.pairwise_insertionSort r l')
  have ha' : a ∈ l := (List.mem_insertionSort r).mp ha
  have hb' : b ∈ l := hperm.mem_iff.mpr ((List.mem_insertionSort r).mp hb)
  exact hanti a ha' b hb' hab hba

/-- **Sorting keeps another order** exactly when the list was sorted. -/
theorem pairwise_insertionSort_iff {s : α → α → Prop} (hasymm : ∀ a b, s a b → ¬ s b a) {l : List α}
    (hl : l.Pairwise s) : (l.insertionSort r).Pairwise s ↔ l.Pairwise r := by
  constructor
  · intro h
    have heq : l.insertionSort r = l := (List.perm_insertionSort r l).eq_of_pairwise
      (fun a b _ _ hab hba => absurd hba (hasymm a b hab)) h hl
    exact heq ▸ List.pairwise_insertionSort r l
  · intro h
    rwa [h.insertionSort_eq]

/-- The elements that tie with `a`. -/
def ties (a : α) (l : List α) : List α :=
  l.filter fun b => decide (r a b ∧ r b a)

omit [IsTrans α r] in
/-- A sorted list is determined by its ties. -/
theorem eq_of_ties {l l' : List α} (hl : l.Pairwise r) (hl' : l'.Pairwise r)
    (h : ∀ a, ties r a l = ties r a l') : l = l' := by
  have hrefl : ∀ a, r a a := fun a => (Std.Total.total a a).elim id id
  have hmem : ∀ {m m' : List α}, (∀ a, ties r a m = ties r a m') → ∀ a ∈ m, a ∈ m' := by
    intro m m' hties a ha
    have hself : a ∈ ties r a m := List.mem_filter.mpr ⟨ha, by simp [hrefl a]⟩
    rw [hties a] at hself
    exact List.mem_of_mem_filter hself
  induction l generalizing l' with
  | nil =>
    cases l' with
    | nil => rfl
    | cons b l' => exact absurd (hmem (fun a => (h a).symm) b List.mem_cons_self) List.not_mem_nil
  | cons x l ih =>
    cases l' with
    | nil => exact absurd (hmem h x List.mem_cons_self) List.not_mem_nil
    | cons y l' =>
      obtain ⟨hx, htail⟩ := List.pairwise_cons.mp hl
      obtain ⟨hy, htail'⟩ := List.pairwise_cons.mp hl'
      -- the heads are below each other, so they tie, and each is the first of the same ties
      have hxy : r x y := by
        rcases List.mem_cons.mp (hmem (fun a => (h a).symm) y List.mem_cons_self) with rfl | hmem'
        · exact hrefl y
        · exact hx y hmem'
      have hyx : r y x := by
        rcases List.mem_cons.mp (hmem h x List.mem_cons_self) with rfl | hmem'
        · exact hrefl x
        · exact hy x hmem'
      have hhead := h x
      rw [ties, ties, List.filter_cons_of_pos (by simp [hrefl x]),
        List.filter_cons_of_pos (by simp [hxy, hyx])] at hhead
      obtain ⟨rfl, -⟩ := List.cons.inj hhead
      rw [ih htail htail' fun a => ?_]
      have hboth := h a
      rw [ties, ties, List.filter_cons, List.filter_cons] at hboth
      split_ifs at hboth with hties
      · exact (List.cons.inj hboth).2
      · exact hboth

/-- **Only the order among ties matters.** -/
theorem insertionSort_eq_of_ties {l l' : List α} (h : ∀ a, ties r a l = ties r a l') :
    l.insertionSort r = l'.insertionSort r := by
  refine eq_of_ties r (List.pairwise_insertionSort r l) (List.pairwise_insertionSort r l') fun a => ?_
  rw [ties, ties, filter_insertionSort, filter_insertionSort, ← ties, ← ties, h]

end Sorting

/-! ## Sorting by a key -/

section ByKey

variable {α β : Type*} [LinearOrder β] (f : α → β)

instance total_byKey : Std.Total fun a b : α => f a ≤ f b :=
  ⟨fun a b => le_total (f a) (f b)⟩

instance isTrans_byKey : IsTrans α fun a b : α => f a ≤ f b :=
  ⟨fun _ _ _ hab hbc => le_trans hab hbc⟩

/-- The elements that tie are those with the same key. -/
theorem ties_byKey (a : α) (l : List α) :
    ties (fun a b : α => f a ≤ f b) a l = l.filter fun b => decide (f b = f a) := by
  refine List.filter_congr fun b _ => ?_
  exact decide_eq_decide.mpr ⟨fun h => le_antisymm h.2 h.1, fun h => ⟨h.ge, h.le⟩⟩

end ByKey

end Library
end Scam2Market
