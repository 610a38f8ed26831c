import Mathlib.Data.List.Perm.Basic
import Mathlib.Data.List.Pairwise
import Mathlib.Tactic.Common

/-!
# Greedy grouping

Items are taken one after another, and each of them joins a group that it fits or opens a group of its
own.

* `Placed`: one item is placed; `Grouped`: the groups of a list of items.
* `Grouped.flatten_perm` and `Grouped.ne_nil`: the groups are a partition of the items.
* `Grouped.pairwise`: what an item that fits has in common with every member, the members of a group
  have in common.
-/

namespace Scam2Market
namespace Library

variable {α : Type*} {Fits : List α → α → Prop}

/-- An item joins a group that it fits, or opens a group. -/
inductive Placed (Fits : List α → α → Prop) : List (List α) → α → List (List α) → Prop
  | joins {before after : List (List α)} {group : List α} {item : α} (hfits : Fits group item) :
      Placed Fits (before ++ group :: after) item (before ++ (group ++ [item]) :: after)
  | opens {groups : List (List α)} {item : α} : Placed Fits groups item (groups ++ [[item]])

/-- The groups that a list of items makes. -/
inductive Grouped (Fits : List α → α → Prop) : List α → List (List α) → Prop
  | nil : Grouped Fits [] []
  | concat {items : List α} {groups groups' : List (List α)} {item : α}
      (hgroups : Grouped Fits items groups) (hplaced : Placed Fits groups item groups') :
      Grouped Fits (items ++ [item]) groups'

theorem Placed.flatten_perm {groups groups' : List (List α)} {item : α}
    (h : Placed Fits groups item groups') : groups'.flatten.Perm (groups.flatten ++ [item]) := by
  cases h with
  | @joins before after group item hfits =>
    simp only [List.flatten_append, List.flatten_cons, List.append_assoc]
    exact (List.perm_append_comm.append_left group).append_left before.flatten
  | opens => simp

theorem Placed.mem {groups groups' : List (List α)} {item : α} (h : Placed Fits groups item groups')
    {group' : List α} (hmem : group' ∈ groups') :
    group' ∈ groups ∨ group' = [item] ∨
      ∃ group ∈ groups, Fits group item ∧ group' = group ++ [item] := by
  cases h with
  | @joins before after group item hfits =>
    rcases List.mem_append.mp hmem with hbefore | htail
    · exact Or.inl (List.mem_append_left _ hbefore)
    rcases List.mem_cons.mp htail with rfl | hafter
    · exact Or.inr (Or.inr ⟨group, List.mem_append_right _ List.mem_cons_self, hfits, rfl⟩)
    · exact Or.inl (List.mem_append_right _ (List.mem_cons_of_mem _ hafter))
  | opens =>
    rcases List.mem_append.mp hmem with hold | hnew
    · exact Or.inl hold
    · exact Or.inr (Or.inl (List.mem_singleton.mp hnew))

namespace Grouped

variable {items : List α} {groups : List (List α)}

/-- Every item is in one group, once. -/
theorem flatten_perm (h : Grouped Fits items groups) : groups.flatten.Perm items := by
  induction h with
  | nil => exact List.Perm.refl _
  | concat hgroups hplaced ih => exact hplaced.flatten_perm.trans (ih.append_right _)

/-- No group is empty. -/
theorem ne_nil (h : Grouped Fits items groups) {group : List α} (hmem : group ∈ groups) :
    group ≠ [] := by
  induction h generalizing group with
  | nil => exact absurd hmem List.not_mem_nil
  | concat hgroups hplaced ih =>
    rcases hplaced.mem hmem with hold | rfl | ⟨old, -, -, rfl⟩
    · exact ih hold
    · exact List.cons_ne_nil _ _
    · exact List.append_ne_nil_of_right_ne_nil _ (List.cons_ne_nil _ _)

/-- What an item has in common with every member of a group that it fits, the members of a group have in
common. -/
theorem pairwise {R : α → α → Prop}
    (hfits : ∀ group item, Fits group item → ∀ member ∈ group, R member item)
    (h : Grouped Fits items groups) {group : List α} (hmem : group ∈ groups) :
    group.Pairwise R := by
  induction h generalizing group with
  | nil => exact absurd hmem List.not_mem_nil
  | concat hgroups hplaced ih =>
    rcases hplaced.mem hmem with hold | rfl | ⟨old, hold, hitem, rfl⟩
    · exact ih hold
    · exact List.pairwise_singleton _ _
    · refine List.pairwise_append.mpr ⟨ih hold, List.pairwise_singleton _ _, ?_⟩
      intro member hmember other hother
      rw [List.mem_singleton.mp hother]
      exact hfits old _ hitem member hmember

end Grouped
end Library
end Scam2Market
