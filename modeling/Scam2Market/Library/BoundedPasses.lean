import Mathlib.Data.List.Nodup
import Mathlib.Data.List.Perm.Subperm

/-!
# Bounded passes over a list

A list is gone through in passes.  A pass takes the first elements that were not seen, no more than it has
room for, and remembers them before the ones it has seen, as many as it can keep.

* `nextUnseen_eq`: when a first part of the list was seen, a pass takes what comes next.
* `mem_remember`: when the memory is as long as the list, nothing is forgotten.
-/

namespace Scam2Market
namespace Library

variable {α : Type*} [DecidableEq α] {l seen taken : List α} {room limit n : ℕ} {a : α}

/-- The first elements that were not seen. -/
def nextUnseen (seen : List α) (room : ℕ) (l : List α) : List α :=
  (l.filter fun a => a ∉ seen).take room

/-- The elements that were taken, and then those seen before. -/
def remember (limit : ℕ) (taken seen : List α) : List α :=
  (taken ++ seen).eraseDups.take limit

theorem nextUnseen_cons_of_mem (ha : a ∈ seen) :
    nextUnseen seen room (a :: l) = nextUnseen seen room l := by
  rw [nextUnseen, List.filter_cons_of_neg (by simpa using ha), nextUnseen]

theorem nextUnseen_cons_of_notMem (ha : a ∉ seen) :
    nextUnseen seen (room + 1) (a :: l) = a :: nextUnseen seen room l := by
  rw [nextUnseen, List.filter_cons_of_pos (by simpa using ha), List.take_succ_cons, nextUnseen]

/-- A pass takes what comes after the part that was seen. -/
theorem nextUnseen_eq (hl : l.Nodup) (hseen : ∀ a, a ∈ seen ↔ a ∈ l.take n) :
    nextUnseen seen room l = (l.drop n).take room := by
  have hsplit : (l.take n ++ l.drop n).Nodup := by rwa [List.take_append_drop]
  have hdisjoint := (List.nodup_append.mp hsplit).2.2
  have hfilter : l.filter (fun a => a ∉ seen) = l.drop n := by
    conv_lhs => rw [← List.take_append_drop n l]
    rw [List.filter_append, List.filter_eq_nil_iff.mpr, List.nil_append, List.filter_eq_self.mpr]
    · intro a ha
      have hnot : a ∉ seen := fun hmem => hdisjoint a ((hseen a).mp hmem) a ha rfl
      simpa using hnot
    · intro a ha
      have hmem : a ∈ seen := (hseen a).mpr ha
      simpa using hmem
  rw [nextUnseen, hfilter]

theorem mem_of_mem_remember (h : a ∈ remember limit taken seen) : a ∈ taken ∨ a ∈ seen :=
  List.mem_append.mp (List.mem_eraseDups.mp (List.mem_of_mem_take h))

theorem nodup_eraseDups : ∀ l : List α, l.eraseDups.Nodup
  | [] => List.nodup_nil
  | a :: l => by
    rw [List.eraseDups_cons, List.nodup_cons]
    refine ⟨fun ha => ?_, nodup_eraseDups _⟩
    simpa using List.of_mem_filter (List.mem_eraseDups.mp ha)
termination_by l => l.length
decreasing_by exact Nat.lt_succ_of_le (List.length_filter_le _ _)

/-- Nothing is forgotten of a list that is no longer than the memory. -/
theorem mem_remember (hlimit : l.length ≤ limit) (htaken : taken ⊆ l) (hseen : seen ⊆ l) :
    a ∈ remember limit taken seen ↔ a ∈ taken ∨ a ∈ seen := by
  have hsubset : (taken ++ seen).eraseDups ⊆ l := fun b hb => by
    rcases List.mem_append.mp (List.mem_eraseDups.mp hb) with hb | hb
    · exact htaken hb
    · exact hseen hb
  have hlength : (taken ++ seen).eraseDups.length ≤ limit :=
    Nat.le_trans (List.Nodup.length_le_of_subset (nodup_eraseDups _) hsubset) hlimit
  rw [remember, List.take_of_length_le hlength, List.mem_eraseDups, List.mem_append]

end Library
end Scam2Market
