import Mathlib.Data.List.Nodup
import Mathlib.Tactic.Common

/-!
# The first of each key

A loop over a list that passes over the elements whose key it has seen.

* `nodup_map_keepFirst`: the keys of what is kept are distinct.
* `exists_mem_keepFirst`: every key that has not been seen is that of an element that is kept.
-/

namespace Scam2Market
namespace Library

variable {α κ : Type*} [DecidableEq κ] {key : α → κ} {seen : List κ} {l : List α} {a : α}

/-- The elements whose keys have not been seen, nor stand before them. -/
def keepFirst (key : α → κ) (seen : List κ) : List α → List α
  | [] => []
  | a :: rest =>
    if key a ∈ seen then keepFirst key seen rest else a :: keepFirst key (key a :: seen) rest

theorem mem_of_mem_keepFirst (h : a ∈ keepFirst key seen l) : a ∈ l := by
  induction l generalizing seen with
  | nil => exact h
  | cons b rest ih =>
    rw [keepFirst] at h
    split_ifs at h with hb
    · exact List.mem_cons_of_mem b (ih h)
    · rcases List.mem_cons.mp h with rfl | hrest
      · exact List.mem_cons_self
      · exact List.mem_cons_of_mem b (ih hrest)

theorem keepFirst_sublist (key : α → κ) (seen : List κ) (l : List α) :
    (keepFirst key seen l).Sublist l := by
  induction l generalizing seen with
  | nil => exact List.Sublist.slnil
  | cons b rest ih =>
    rw [keepFirst]
    split_ifs
    · exact (ih seen).cons b
    · exact (ih _).cons_cons b

/-- Every key that has not been seen is kept once. -/
theorem exists_mem_keepFirst (ha : a ∈ l) (hkey : key a ∉ seen) :
    ∃ b ∈ keepFirst key seen l, key b = key a := by
  induction l generalizing seen with
  | nil => exact (List.not_mem_nil ha).elim
  | cons b rest ih =>
    rw [keepFirst]
    split_ifs with hb
    · rcases List.mem_cons.mp ha with rfl | hrest
      · exact absurd hb hkey
      · exact ih hrest hkey
    · by_cases heq : key b = key a
      · exact ⟨b, List.mem_cons_self, heq⟩
      · have hrest : a ∈ rest := (List.mem_cons.mp ha).resolve_left fun h => heq (h ▸ rfl)
        have hnew : key a ∉ key b :: seen := fun h =>
          (List.mem_cons.mp h).elim (fun h => heq h.symm) hkey
        obtain ⟨c, hc, hsame⟩ := ih hrest hnew
        exact ⟨c, List.mem_cons_of_mem b hc, hsame⟩

theorem notMem_of_mem_keepFirst (h : a ∈ keepFirst key seen l) : key a ∉ seen := by
  induction l generalizing seen with
  | nil => exact (List.not_mem_nil h).elim
  | cons b rest ih =>
    rw [keepFirst] at h
    split_ifs at h with hb
    · exact ih h
    · rcases List.mem_cons.mp h with rfl | hrest
      · exact hb
      · exact fun hmem => ih hrest (List.mem_cons_of_mem _ hmem)

/-- The keys of what is kept are distinct. -/
theorem nodup_map_keepFirst (key : α → κ) (seen : List κ) (l : List α) :
    ((keepFirst key seen l).map key).Nodup := by
  induction l generalizing seen with
  | nil => exact List.nodup_nil
  | cons b rest ih =>
    rw [keepFirst]
    split_ifs with hb
    · exact ih seen
    · rw [List.map_cons, List.nodup_cons]
      refine ⟨fun hmem => ?_, ih _⟩
      obtain ⟨a, ha, hkey⟩ := List.mem_map.mp hmem
      exact notMem_of_mem_keepFirst ha (hkey ▸ List.mem_cons_self)

/-- The keys of what is kept are the keys of the list. -/
theorem mem_map_keepFirst (key : α → κ) (l : List α) (k : κ) :
    k ∈ (keepFirst key [] l).map key ↔ k ∈ l.map key := by
  constructor
  · intro hmem
    obtain ⟨a, ha, rfl⟩ := List.mem_map.mp hmem
    exact List.mem_map_of_mem (mem_of_mem_keepFirst ha)
  · intro hmem
    obtain ⟨a, ha, rfl⟩ := List.mem_map.mp hmem
    obtain ⟨b, hb, hkey⟩ : ∃ b ∈ keepFirst key [] l, key b = key a :=
      exists_mem_keepFirst ha List.not_mem_nil
    exact List.mem_map.mpr ⟨b, hb, hkey⟩

/-- The last element is kept if its key is new. -/
theorem keepFirst_concat (key : α → κ) (seen : List κ) (l : List α) (a : α) :
    keepFirst key seen (l ++ [a]) =
      keepFirst key seen l ++ if key a ∈ seen ∨ key a ∈ l.map key then [] else [a] := by
  induction l generalizing seen with
  | nil =>
    have hone : keepFirst key seen [a] = if key a ∈ seen then [] else [a] := rfl
    rw [List.nil_append, hone, keepFirst, List.nil_append, List.map_nil]
    simp only [List.not_mem_nil, or_false]
  | cons b rest ih =>
    rw [List.cons_append, keepFirst, keepFirst, List.map_cons]
    by_cases hb : key b ∈ seen
    · rw [if_pos hb, if_pos hb, ih]
      by_cases heq : key a = key b
      · have hseen : key a ∈ seen := heq ▸ hb
        rw [if_pos (Or.inl hseen), if_pos (Or.inl hseen)]
      · simp only [List.mem_cons, heq, false_or]
    · rw [if_neg hb, if_neg hb, ih, List.cons_append]
      simp only [List.mem_cons, or_assoc, or_left_comm]

end Library
end Scam2Market
