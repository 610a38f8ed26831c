import Mathlib.Data.List.Induction
import Scam2Market.Library.OrderedDict

/-!
# Grouping a list by a key

The groups of a list, in the order in which their keys are first seen; each group keeps the order of
the list.

* `get?_group`: the group of a key is the part of the list with that key.
* `mem_flatMap_group`: what is collected over the groups.
* `filter_flatMap_group`: what is selected from one group only is selected without grouping.
-/

namespace Scam2Market
namespace Library

variable {α β κ : Type*} [DecidableEq κ] (key : α → κ)

/-- The part of a list with a key. -/
def groupOf (k : κ) (l : List α) : List α :=
  l.filter fun a => decide (key a = k)

/-- The groups of a list. -/
def group (l : List α) : OrderedDict κ (List α) :=
  l.foldl (fun groups a => groups.set (key a) (groups.getD (key a) [] ++ [a])) .empty

theorem group_concat (l : List α) (a : α) :
    group key (l ++ [a]) = (group key l).set (key a) ((group key l).getD (key a) [] ++ [a]) := by
  rw [group, List.foldl_append, List.foldl_cons, List.foldl_nil, ← group]

theorem groupOf_concat (k : κ) (l : List α) (a : α) :
    groupOf key k (l ++ [a]) = groupOf key k l ++ if key a = k then [a] else [] := by
  rw [groupOf, List.filter_append, List.filter_singleton]
  simp [groupOf]

/-- The group of a key. -/
theorem get?_group (l : List α) (k : κ) :
    (group key l).get? k = if groupOf key k l = [] then none else some (groupOf key k l) := by
  induction l using List.reverseRecOn with
  | nil => rfl
  | append_singleton l a ih =>
    rw [group_concat, OrderedDict.get?_set, groupOf_concat]
    by_cases hk : k = key a
    · subst hk
      have hgroup : (group key l).getD (key a) [] = groupOf key (key a) l := by
        rw [OrderedDict.getD, ih]
        split_ifs with hnil
        · exact hnil.symm
        · rfl
      rw [if_pos rfl, if_pos rfl, hgroup, if_neg (by simp)]
    · have hother : (if key a = k then [a] else []) = [] := if_neg fun heq => hk heq.symm
      rw [hother, List.append_nil, if_neg hk, ih]

theorem mem_entries_group {l : List α} {k : κ} {rows : List α} :
    (k, rows) ∈ (group key l).entries ↔ groupOf key k l = rows ∧ rows ≠ [] := by
  rw [OrderedDict.mem_entries_iff, get?_group]
  split_ifs with hnil
  · refine iff_of_false (by simp) fun h => h.2 (h.1 ▸ hnil)
  · constructor
    · rintro ⟨rfl⟩
      exact ⟨rfl, hnil⟩
    · rintro ⟨rfl, -⟩
      rfl

variable {key}

omit [DecidableEq κ] in
/-- What is selected of a collection does not see elements that add nothing selected. -/
theorem filter_flatMap_filter {f : α → List β} {p : β → Bool} {kept : α → Bool} {l : List α}
    (h : ∀ a ∈ l, kept a = false → ∀ b ∈ f a, p b = false) :
    (l.flatMap f).filter p = ((l.filter kept).flatMap f).filter p := by
  induction l with
  | nil => rfl
  | cons a l ih =>
    have hrest := ih fun a' ha' => h a' (List.mem_cons_of_mem a ha')
    rw [List.flatMap_cons, List.filter_append, hrest]
    cases hkept : kept a with
    | true => rw [List.filter_cons_of_pos hkept, List.flatMap_cons, List.filter_append]
    | false =>
      have hnone : (f a).filter p = [] := by
        refine List.filter_eq_nil_iff.mpr fun b hb => ?_
        rw [h a List.mem_cons_self hkept b hb]
        exact Bool.false_ne_true
      rw [List.filter_cons_of_neg (by rw [hkept]; exact Bool.false_ne_true), hnone, List.nil_append]

section Select

variable (select : List α → List β)

/-- What is collected over the groups. -/
theorem mem_flatMap_group (hselect : select [] = []) {l : List α} {b : β} :
    b ∈ ((group key l).entries.flatMap fun entry => select entry.2) ↔
      ∃ k, b ∈ select (groupOf key k l) := by
  rw [List.mem_flatMap]
  constructor
  · rintro ⟨⟨k, rows⟩, hentry, hb⟩
    exact ⟨k, ((mem_entries_group key).mp hentry).1 ▸ hb⟩
  · rintro ⟨k, hb⟩
    refine ⟨(k, groupOf key k l), (mem_entries_group key).mpr ⟨rfl, fun hnil => ?_⟩, hb⟩
    rw [hnil, hselect] at hb
    exact absurd hb List.not_mem_nil

/-- What is selected from one group only is selected without grouping. -/
theorem filter_flatMap_group (hselect : select [] = []) {l : List α} {p : β → Bool} {k : κ}
    (hother : ∀ k', k' ≠ k → ∀ b ∈ select (groupOf key k' l), p b = false) :
    ((group key l).entries.flatMap fun entry => select entry.2).filter p =
      (select (groupOf key k l)).filter p := by
  have hrest : ∀ entries ⊆ (group key l).entries, k ∉ entries.map Prod.fst →
      (entries.flatMap fun entry => select entry.2).filter p = [] := by
    intro entries hentries hk
    refine List.filter_eq_nil_iff.mpr fun b hb => ?_
    obtain ⟨⟨k', rows⟩, hentry, hb⟩ := List.mem_flatMap.mp hb
    obtain ⟨rfl, -⟩ := (mem_entries_group key).mp (hentries hentry)
    have hne : k' ≠ k := fun heq => hk (heq ▸ List.mem_map_of_mem (f := Prod.fst) hentry)
    rw [hother k' hne b hb]
    exact Bool.false_ne_true
  by_cases hnil : groupOf key k l = []
  · rw [hnil, hselect, List.filter_nil]
    refine hrest _ (List.Subset.refl _) fun hk => ?_
    obtain ⟨rows, hrows⟩ := OrderedDict.mem_keys_iff.mp hk
    rw [get?_group, if_pos hnil] at hrows
    cases hrows
  · have hentry := (mem_entries_group key).mpr ⟨rfl, hnil⟩
    obtain ⟨before, after, hsplit⟩ := List.append_of_mem hentry
    have hnodup := (group key l).nodup
    rw [hsplit, List.map_append, List.map_cons] at hnodup
    obtain ⟨-, htail, hdisjoint⟩ := List.nodup_append.mp hnodup
    rw [hsplit, List.flatMap_append, List.flatMap_cons, List.filter_append, List.filter_append,
      hrest before ?_ ?_, hrest after ?_ ?_, List.nil_append, List.append_nil]
    · exact fun entry h => hsplit ▸ List.mem_append_right _ (List.mem_cons_of_mem _ h)
    · exact (List.nodup_cons.mp htail).1
    · exact fun entry h => hsplit ▸ List.mem_append_left _ h
    · exact fun hk => hdisjoint k hk k List.mem_cons_self rfl

end Select

end Library
end Scam2Market
