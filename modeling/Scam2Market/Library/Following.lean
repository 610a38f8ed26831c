import Mathlib.Data.List.Perm.Subperm
import Mathlib.Data.Finset.Card
import Mathlib.Data.Finset.Dedup
import Mathlib.Data.Set.Card
import Mathlib.Logic.Relation
import Mathlib.Tactic.Common

/-!
# Following links

A partial function on a type is a graph in which every node has at most one link.  `follow` counts the
links from a node on, until a node has none or its link leads to a node that was seen.

* `follow_of_le`: fuel for the nodes that were not seen is enough.
* `follow_map`: graphs that agree through an injective map have the same counts.  A link from a node to
  itself does not matter.
* `follow_eq_ncard`: what is counted are the nodes that can be reached and were not seen.
-/

namespace Scam2Market
namespace Library

variable {α β : Type*} [DecidableEq α] [DecidableEq β] {next : α → Option α} {next' : β → Option β}
  {fuel : ℕ} {x y : α} {seen : List α}

/-- The number of links from a node on, at most as many as there is fuel. -/
def follow (next : α → Option α) : ℕ → α → List α → ℕ
  | 0, _, _ => 0
  | fuel + 1, x, seen =>
    match next x with
    | none => 0
    | some y => if y ∈ seen then 0 else 1 + follow next fuel y (y :: seen)

theorem follow_of_none (h : next x = none) : follow next (fuel + 1) x seen = 0 := by
  rw [follow, h]

theorem follow_of_mem (h : next x = some y) (hy : y ∈ seen) : follow next (fuel + 1) x seen = 0 := by
  rw [follow, h]
  exact if_pos hy

theorem follow_of_notMem (h : next x = some y) (hy : y ∉ seen) :
    follow next (fuel + 1) x seen = 1 + follow next fuel y (y :: seen) := by
  rw [follow, h]
  exact if_neg hy

theorem follow_pos_iff : 0 < follow next (fuel + 1) x seen ↔ ∃ y, next x = some y ∧ y ∉ seen := by
  constructor
  · intro h
    cases hnext : next x with
    | none => exact absurd h (by rw [follow_of_none hnext]; exact lt_irrefl 0)
    | some y =>
      by_cases hy : y ∈ seen
      · exact absurd h (by rw [follow_of_mem hnext hy]; exact lt_irrefl 0)
      · exact ⟨y, rfl, hy⟩
  · rintro ⟨y, hnext, hy⟩
    rw [follow_of_notMem hnext hy]
    exact Nat.add_pos_left Nat.one_pos _

/-- Once a new node is seen, there are fewer that were not. -/
theorem unseen_of_cons {nodes : Finset α} (hy : y ∈ nodes) (hnew : y ∉ seen)
    (h : (nodes \ seen.toFinset).card ≤ fuel + 1) : (nodes \ (y :: seen).toFinset).card ≤ fuel := by
  have hmem : y ∈ nodes \ seen.toFinset :=
    Finset.mem_sdiff.mpr ⟨hy, fun hseen => hnew (List.mem_toFinset.mp hseen)⟩
  have hsub : nodes \ (y :: seen).toFinset ⊆ (nodes \ seen.toFinset).erase y := by
    intro z hz
    obtain ⟨hz, hnot⟩ := Finset.mem_sdiff.mp hz
    rw [List.toFinset_cons, Finset.mem_insert, not_or] at hnot
    exact Finset.mem_erase.mpr ⟨hnot.1, Finset.mem_sdiff.mpr ⟨hz, hnot.2⟩⟩
  have hcard := Finset.card_le_card hsub
  rw [Finset.card_erase_of_mem hmem] at hcard
  omega

/-- **Enough fuel.**  When the links lead to nodes of a finite set, fuel for those that were not seen is
enough. -/
theorem follow_of_le {nodes : Finset α} (hnodes : ∀ x y, next x = some y → y ∈ nodes)
    (h : (nodes \ seen.toFinset).card ≤ fuel) (more : ℕ) :
    follow next (fuel + more) x seen = follow next fuel x seen := by
  induction fuel generalizing x seen with
  | zero =>
    cases more with
    | zero => rfl
    | succ more =>
      rw [Nat.zero_add]
      cases hnext : next x with
      | none => exact follow_of_none hnext
      | some y =>
        refine follow_of_mem hnext ?_
        have hempty := Finset.card_eq_zero.mp (Nat.le_zero.mp h)
        by_contra hy
        have hmem : y ∈ nodes \ seen.toFinset :=
          Finset.mem_sdiff.mpr ⟨hnodes x y hnext, fun hseen => hy (List.mem_toFinset.mp hseen)⟩
        rw [hempty] at hmem
        exact absurd hmem (Finset.notMem_empty y)
  | succ fuel ih =>
    rw [Nat.add_right_comm]
    cases hnext : next x with
    | none => rw [follow_of_none hnext, follow_of_none hnext]
    | some y =>
      by_cases hy : y ∈ seen
      · rw [follow_of_mem hnext hy, follow_of_mem hnext hy]
      · rw [follow_of_notMem hnext hy, follow_of_notMem hnext hy,
          ih (unseen_of_cons (hnodes x y hnext) hy h)]

/-- **Graphs that agree through a map.**  On the nodes of `p`, the links of one graph are those of the
other, apart from links of a node to itself. -/
theorem follow_map {p : α → Prop} {f : α → β} (hinj : ∀ x y, p x → p y → f x = f y → x = y)
    (hclosed : ∀ x y, p x → next x = some y → p y)
    (hforth : ∀ x y, p x → next x = some y → y ≠ x → next' (f x) = some (f y))
    (hback : ∀ x z, p x → next' (f x) = some z → z ≠ f x → ∃ y, next x = some y ∧ z = f y)
    (hseen : ∀ y ∈ seen, p y) (hx : x ∈ seen) :
    follow next' fuel (f x) (seen.map f) = follow next fuel x seen := by
  induction fuel generalizing x seen with
  | zero => rfl
  | succ fuel ih =>
    have hstop : ∀ {z}, next' (f x) = some z → z ∉ seen.map f → ∃ y, next x = some y ∧ z = f y :=
      fun hz hnot => hback x _ (hseen x hx) hz fun heq => hnot (heq ▸ List.mem_map_of_mem hx)
    cases hnext : next x with
    | none =>
      rw [follow_of_none hnext]
      cases hnext' : next' (f x) with
      | none => exact follow_of_none hnext'
      | some z =>
        refine follow_of_mem hnext' ?_
        by_contra hnot
        obtain ⟨y, hy, -⟩ := hstop hnext' hnot
        exact absurd (hnext.symm.trans hy) (by simp)
    | some y =>
      have hp : p y := hclosed x y (hseen x hx) hnext
      have hmem : f y ∈ seen.map f ↔ y ∈ seen := by
        refine ⟨fun h => ?_, List.mem_map_of_mem⟩
        obtain ⟨z, hz, heq⟩ := List.mem_map.mp h
        exact hinj z y (hseen z hz) hp heq ▸ hz
      by_cases hy : y ∈ seen
      · rw [follow_of_mem hnext hy]
        cases hnext' : next' (f x) with
        | none => exact follow_of_none hnext'
        | some z =>
          refine follow_of_mem hnext' ?_
          by_contra hnot
          obtain ⟨y', hy', rfl⟩ := hstop hnext' hnot
          obtain rfl : y = y' := Option.some.inj (hnext.symm.trans hy')
          exact hnot (hmem.mpr hy)
      · have hne : y ≠ x := fun heq => hy (heq ▸ hx)
        rw [follow_of_notMem hnext hy, follow_of_notMem (hforth x y (hseen x hx) hnext hne)
          fun h => hy (hmem.mp h), ← List.map_cons]
        rw [ih (List.forall_mem_cons.mpr ⟨hp, hseen⟩) List.mem_cons_self]

/-! ## The nodes that can be reached -/

/-- Following the links, one gets from one node to the other. -/
def Reaches (next : α → Option α) : α → α → Prop :=
  Relation.ReflTransGen fun x y => next x = some y

/-- The nodes that can be reached and were not seen. -/
def ahead (next : α → Option α) (x : α) (seen : List α) : Set α :=
  {y | Reaches next x y ∧ y ∉ seen}

omit [DecidableEq α] in
theorem mem_ahead : y ∈ ahead next x seen ↔ Reaches next x y ∧ y ∉ seen :=
  Iff.rfl

omit [DecidableEq α] in
theorem Reaches.eq_or_of_some {z : α} (h : next x = some y) :
    Reaches next x z ↔ z = x ∨ Reaches next y z := by
  constructor
  · intro hz
    refine (Relation.ReflTransGen.cases_head hz).imp Eq.symm fun ⟨w, hw, hrest⟩ => ?_
    obtain rfl : y = w := Option.some.inj (h.symm.trans hw)
    exact hrest
  · rintro (rfl | hz)
    · exact .refl
    · exact .head h hz

omit [DecidableEq α] in
/-- A set of nodes that the links do not leave holds whatever can be reached from it. -/
theorem Reaches.mem_of_closed {s : Set α} (hclosed : ∀ z ∈ s, ∀ w, next z = some w → w ∈ s)
    (hx : x ∈ s) (h : Reaches next x y) : y ∈ s := by
  induction h with
  | refl => exact hx
  | tail _ hlink ih => exact hclosed _ ih _ hlink

omit [DecidableEq α] in
theorem ahead_eq_empty (h : ∀ z ∈ seen, ∀ w, next z = some w → w ∈ seen) (hx : x ∈ seen) :
    ahead next x seen = ∅ :=
  Set.eq_empty_of_forall_notMem fun _ hy => hy.2 (Reaches.mem_of_closed (s := {z | z ∈ seen}) h hx hy.1)

omit [DecidableEq α] in
theorem ahead_of_notMem (h : next x = some y) (hx : x ∈ seen) (hy : y ∉ seen) :
    ahead next x seen = insert y (ahead next y (y :: seen)) := by
  ext z
  rw [mem_ahead, Reaches.eq_or_of_some h, Set.mem_insert_iff, mem_ahead, List.mem_cons, not_or]
  constructor
  · rintro ⟨rfl | hz, hnot⟩
    · exact absurd hx hnot
    · exact (em (z = y)).imp_right fun hne => ⟨hz, hne, hnot⟩
  · rintro (rfl | ⟨hz, -, hnot⟩)
    · exact ⟨Or.inr .refl, hy⟩
    · exact ⟨Or.inr hz, hnot⟩

omit [DecidableEq α] in
theorem ahead_subset {nodes : Finset α} (hnodes : ∀ x y, next x = some y → y ∈ nodes) (hx : x ∈ seen) :
    ahead next x seen ⊆ nodes := by
  rintro y ⟨hreach, hy⟩
  cases hreach with
  | refl => exact absurd hx hy
  | tail _ hlink => exact hnodes _ _ hlink

/-- **What `follow` counts.**  Of the nodes that were seen, the links do not lead out, except at the node
that is being followed. -/
theorem follow_eq_ncard {nodes : Finset α} (hnodes : ∀ x y, next x = some y → y ∈ nodes)
    (hfuel : (nodes \ seen.toFinset).card ≤ fuel) (hx : x ∈ seen)
    (hseen : ∀ z ∈ seen, z ≠ x → ∀ w, next z = some w → w ∈ seen) :
    follow next fuel x seen = (ahead next x seen).ncard := by
  induction fuel generalizing x seen with
  | zero =>
    have hall : ∀ z ∈ seen, ∀ w, next z = some w → w ∈ seen := by
      intro z _ w hlink
      by_contra hw
      have hmem : w ∈ nodes \ seen.toFinset :=
        Finset.mem_sdiff.mpr ⟨hnodes z w hlink, fun h => hw (List.mem_toFinset.mp h)⟩
      rw [Finset.card_eq_zero.mp (Nat.le_zero.mp hfuel)] at hmem
      exact absurd hmem (Finset.notMem_empty w)
    rw [ahead_eq_empty hall hx, Set.ncard_empty]
    rfl
  | succ fuel ih =>
    have hall : (∀ w, next x = some w → w ∈ seen) → ∀ z ∈ seen, ∀ w, next z = some w → w ∈ seen := by
      intro hlast z hz
      by_cases heq : z = x
      · exact heq ▸ hlast
      · exact hseen z hz heq
    cases hnext : next x with
    | none =>
      rw [follow_of_none hnext, ahead_eq_empty (hall (by simp [hnext])) hx, Set.ncard_empty]
    | some y =>
      by_cases hy : y ∈ seen
      · rw [follow_of_mem hnext hy, ahead_eq_empty (hall (by simpa [hnext] using hy)) hx,
          Set.ncard_empty]
      · have hseen' : ∀ z ∈ y :: seen, z ≠ y → ∀ w, next z = some w → w ∈ y :: seen := by
          intro z hz hne w hlink
          by_cases heq : z = x
          · subst heq
            exact Option.some.inj (hnext.symm.trans hlink) ▸ List.mem_cons_self
          · exact List.mem_cons_of_mem y (hseen z ((List.mem_cons.mp hz).resolve_left hne) heq w hlink)
        have hfinite : (ahead next y (y :: seen)).Finite :=
          nodes.finite_toSet.subset (ahead_subset hnodes List.mem_cons_self)
        rw [follow_of_notMem hnext hy, ahead_of_notMem hnext hx hy,
          Set.ncard_insert_of_notMem (fun h => h.2 List.mem_cons_self) hfinite,
          ih (unseen_of_cons (hnodes x y hnext) hy hfuel) List.mem_cons_self hseen', add_comm]

end Library
end Scam2Market
