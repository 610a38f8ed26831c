import Mathlib.Data.List.Basic

/-!
# Splitting a list at one of its elements

A log grows at its end, and what holds of an element is said about the elements before it.  So the
split of a longer log is the split of the shorter one, or the new element is the one looked at.

A list with a separator is split at the first one, or at the last one, in one way
(`append_cons_inj_of_notMem_left`, `append_cons_inj_of_notMem_right`).

In a list whose elements have distinct keys, a key picks one element
(`filter_eq_singleton_of_nodup_map`).

A fold that keeps its value or takes that of the next element ends with one of the values
(`foldl_attained`); one that never goes down ends above them all (`foldl_dominates`).
-/

namespace Scam2Market
namespace Library

variable {α : Type*} {l before after : List α} {x y : α}

/-- The last element of a list is the one looked at, or comes after it. -/
theorem concat_eq_append_cons (h : l ++ [x] = before ++ y :: after) :
    (after = [] ∧ y = x ∧ before = l) ∨
      ∃ after', after = after' ++ [x] ∧ l = before ++ y :: after' := by
  rcases List.eq_nil_or_concat' after with rfl | ⟨after', z, rfl⟩
  · obtain ⟨hbefore, hlast⟩ := List.append_inj' h rfl
    exact Or.inl ⟨rfl, (List.cons.inj hlast).1.symm, hbefore.symm⟩
  · have hassoc : l ++ [x] = (before ++ y :: after') ++ [z] := by
      rw [h, List.append_assoc, List.cons_append]
    obtain ⟨hinit, hlast⟩ := List.append_inj' hassoc rfl
    exact Or.inr ⟨after', by rw [(List.cons.inj hlast).1], hinit⟩

/-- A property of every split of a list, one element later. -/
theorem forall_split_concat {P : List α → α → Prop}
    (h : ∀ before y after, l = before ++ y :: after → P before y) (hx : P l x) :
    ∀ before y after, l ++ [x] = before ++ y :: after → P before y := by
  intro before y after hsplit
  rcases concat_eq_append_cons hsplit with ⟨-, rfl, rfl⟩ | ⟨after', -, hinit⟩
  · exact hx
  · exact h before y after' hinit

/-- What stands before the first separator, and what stands after it. -/
theorem append_cons_inj_of_notMem_left {before' after' : List α} (h : x ∉ before) (h' : x ∉ before')
    (heq : before ++ x :: after = before' ++ x :: after') : before = before' ∧ after = after' := by
  induction before generalizing before' with
  | nil =>
    cases before' with
    | nil => exact ⟨rfl, (List.cons.inj heq).2⟩
    | cons y before' => exact absurd ((List.cons.inj heq).1 ▸ List.mem_cons_self) h'
  | cons y before ih =>
    cases before' with
    | nil => exact absurd ((List.cons.inj heq).1 ▸ List.mem_cons_self) h
    | cons z before' =>
      obtain ⟨rfl, htail⟩ := List.cons.inj heq
      obtain ⟨rfl, rfl⟩ := ih (fun hx => h (List.mem_cons_of_mem y hx))
        (fun hx => h' (List.mem_cons_of_mem y hx)) htail
      exact ⟨rfl, rfl⟩

/-- What stands before the last separator, and what stands after it. -/
theorem append_cons_inj_of_notMem_right {before' after' : List α} (h : x ∉ after) (h' : x ∉ after')
    (heq : before ++ x :: after = before' ++ x :: after') : before = before' ∧ after = after' := by
  have hreverse := congrArg List.reverse heq
  simp only [List.reverse_append, List.reverse_cons, List.append_assoc, List.singleton_append]
    at hreverse
  obtain ⟨hafter, hbefore⟩ := append_cons_inj_of_notMem_left
    (fun hx => h (List.mem_reverse.mp hx)) (fun hx => h' (List.mem_reverse.mp hx)) hreverse
  exact ⟨List.reverse_injective hbefore, List.reverse_injective hafter⟩

/-- When keys are distinct, an element is the only one with its key. -/
theorem filter_eq_singleton_of_nodup_map {β : Type*} [DecidableEq β] {f : α → β}
    (h : (l.map f).Nodup) (hmem : x ∈ l) : l.filter (fun y => f y = f x) = [x] := by
  induction l with
  | nil => exact absurd hmem List.not_mem_nil
  | cons y l ih =>
    rw [List.map_cons, List.nodup_cons] at h
    rcases List.mem_cons.mp hmem with rfl | hmem
    · rw [List.filter_cons_of_pos (by simp), List.filter_eq_nil_iff.mpr]
      intro z hz heq
      exact h.1 (List.mem_map.mpr ⟨z, hz, of_decide_eq_true heq⟩)
    · have hne : f y ≠ f x := fun heq => h.1 (heq ▸ List.mem_map_of_mem hmem)
      rw [List.filter_cons_of_neg (by simpa using hne), ih h.2 hmem]

section Folds

variable {β : Type*} {f : β → α → β}

theorem foldl_attained {value : α → β} (hf : ∀ b a, f b a = b ∨ f b a = value a) (l : List α) (b : β) :
    l.foldl f b = b ∨ ∃ a ∈ l, l.foldl f b = value a := by
  induction l generalizing b with
  | nil => exact Or.inl rfl
  | cons a l ih =>
    rcases ih (f b a) with hkept | ⟨a', ha', htaken⟩
    · rcases hf b a with hstep | hstep
      · exact Or.inl (hkept.trans hstep)
      · exact Or.inr ⟨a, List.mem_cons_self, hkept.trans hstep⟩
    · exact Or.inr ⟨a', List.mem_cons_of_mem a ha', htaken⟩

theorem foldl_dominates (R : β → β → Prop) (value : α → β) (hrefl : ∀ b, R b b)
    (htrans : ∀ b b' b'', R b b' → R b' b'' → R b b'')
    (hf : ∀ b a, R b (f b a) ∧ R (value a) (f b a)) (l : List α) (b : β) :
    R b (l.foldl f b) ∧ ∀ a ∈ l, R (value a) (l.foldl f b) := by
  induction l generalizing b with
  | nil => exact ⟨hrefl b, fun _ h => absurd h List.not_mem_nil⟩
  | cons a l ih =>
    obtain ⟨hfirst, hrest⟩ := ih (f b a)
    refine ⟨htrans _ _ _ (hf b a).1 hfirst, fun a' ha' => ?_⟩
    rcases List.mem_cons.mp ha' with rfl | ha'
    · exact htrans _ _ _ (hf b a').2 hfirst
    · exact hrest a' ha'

end Folds

end Library
end Scam2Market
