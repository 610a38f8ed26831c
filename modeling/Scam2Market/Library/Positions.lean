import Mathlib.Data.List.Chain
import Mathlib.Data.List.Infix
import Mathlib.Data.Int.Basic

/-!
# Numbers without a gap

A list numbered from the front, and a predicate that selects some of its elements.

* `Consecutive`: every number is one more than the one before it.
* `positions`: the numbers of the selected elements.
* `Together`: the selected elements stand next to each other.
* `consecutive_positions_iff`: the numbers are consecutive exactly when the elements stand together.
-/

namespace Scam2Market
namespace Library

/-- Every number is one more than the one before it. -/
def Consecutive (numbers : List ℤ) : Prop :=
  numbers.IsChain fun number next => next = number + 1

variable {α : Type*} (p : α → Bool)

/-- The numbers of the selected elements, the first element having the number `n`. -/
def positions (n : ℤ) : List α → List ℤ
  | [] => []
  | a :: l => if p a then n :: positions (n + 1) l else positions (n + 1) l

/-- The selected elements stand next to each other. -/
def Together (l : List α) : Prop :=
  ∃ before block after, l = before ++ (block ++ after) ∧ (∀ a ∈ before, p a = false) ∧
    (∀ a ∈ block, p a = true) ∧ ∀ a ∈ after, p a = false

variable {p}

theorem positions_cons_of_pos {n : ℤ} {a : α} (l : List α) (h : p a = true) :
    positions p n (a :: l) = n :: positions p (n + 1) l :=
  if_pos h

theorem positions_cons_of_neg {n : ℤ} {a : α} (l : List α) (h : p a = false) :
    positions p n (a :: l) = positions p (n + 1) l :=
  if_neg (by rw [h]; exact Bool.false_ne_true)

theorem le_of_mem_positions {n m : ℤ} {l : List α} (h : m ∈ positions p n l) : n ≤ m := by
  induction l generalizing n with
  | nil => cases h
  | cons a l ih =>
    rcases ha : p a with _ | _
    · rw [positions_cons_of_neg l ha] at h
      have := ih h
      omega
    · rw [positions_cons_of_pos l ha] at h
      rcases List.mem_cons.mp h with rfl | h
      · exact Int.le_refl m
      · have := ih h
        omega

theorem positions_eq_nil_iff {n : ℤ} {l : List α} :
    positions p n l = [] ↔ ∀ a ∈ l, p a = false := by
  induction l generalizing n with
  | nil => simp [positions]
  | cons a l ih =>
    rcases ha : p a with _ | _
    · rw [positions_cons_of_neg l ha, ih, List.forall_mem_cons, ha]
      simp
    · rw [positions_cons_of_pos l ha, List.forall_mem_cons, ha]
      simp

/-- The selected elements of a list stand at its front. -/
def InFront (p : α → Bool) (l : List α) : Prop :=
  ∃ block after, l = block ++ after ∧ (∀ a ∈ block, p a = true) ∧ ∀ a ∈ after, p a = false

theorem inFront_cons_of_pos {a : α} {l : List α} (ha : p a = true) :
    InFront p (a :: l) ↔ InFront p l := by
  constructor
  · rintro ⟨_ | ⟨b, block⟩, after, hsplit, hblock, hafter⟩
    · obtain rfl : a :: l = after := hsplit
      rw [hafter a List.mem_cons_self] at ha
      cases ha
    · obtain ⟨-, rfl⟩ := List.cons.inj hsplit
      exact ⟨block, after, rfl, (List.forall_mem_cons.mp hblock).2, hafter⟩
  · rintro ⟨block, after, rfl, hblock, hafter⟩
    exact ⟨a :: block, after, rfl, List.forall_mem_cons.mpr ⟨ha, hblock⟩, hafter⟩

theorem inFront_cons_of_neg {a : α} {l : List α} (ha : p a = false) :
    InFront p (a :: l) ↔ ∀ b ∈ l, p b = false := by
  constructor
  · rintro ⟨_ | ⟨b, block⟩, after, hsplit, hblock, hafter⟩
    · obtain rfl : a :: l = after := hsplit
      exact (List.forall_mem_cons.mp hafter).2
    · obtain ⟨rfl, -⟩ := List.cons.inj hsplit
      rw [hblock a List.mem_cons_self] at ha
      cases ha
  · intro h
    exact ⟨[], a :: l, rfl, by simp, List.forall_mem_cons.mpr ⟨ha, h⟩⟩

theorem together_cons_of_pos {a : α} {l : List α} (ha : p a = true) :
    Together p (a :: l) ↔ InFront p l := by
  rw [← inFront_cons_of_pos ha]
  constructor
  · rintro ⟨_ | ⟨b, before⟩, block, after, hsplit, hbefore, hblock, hafter⟩
    · exact ⟨block, after, hsplit, hblock, hafter⟩
    · obtain ⟨rfl, -⟩ := List.cons.inj hsplit
      rw [hbefore a List.mem_cons_self] at ha
      cases ha
  · rintro ⟨block, after, hsplit, hblock, hafter⟩
    exact ⟨[], block, after, hsplit, by simp, hblock, hafter⟩

theorem together_cons_of_neg {a : α} {l : List α} (ha : p a = false) :
    Together p (a :: l) ↔ Together p l := by
  constructor
  · rintro ⟨_ | ⟨b, before⟩, block, after, hsplit, hbefore, hblock, hafter⟩
    · have hnone := (inFront_cons_of_neg ha).mp ⟨block, after, hsplit, hblock, hafter⟩
      exact ⟨[], [], l, rfl, by simp, by simp, hnone⟩
    · obtain ⟨-, rfl⟩ := List.cons.inj hsplit
      exact ⟨before, block, after, rfl, (List.forall_mem_cons.mp hbefore).2, hblock, hafter⟩
  · rintro ⟨before, block, after, rfl, hbefore, hblock, hafter⟩
    exact ⟨a :: before, block, after, rfl, List.forall_mem_cons.mpr ⟨ha, hbefore⟩, hblock, hafter⟩

/-- Numbers that go on from the last one: the selected elements stand in front. -/
theorem consecutive_cons_positions_iff {n : ℤ} {l : List α} :
    Consecutive (n :: positions p (n + 1) l) ↔ InFront p l := by
  induction l generalizing n with
  | nil =>
    exact ⟨fun _ => ⟨[], [], rfl, by simp, by simp⟩, fun _ => List.isChain_singleton n⟩
  | cons a l ih =>
    rcases ha : p a with _ | _
    · rw [positions_cons_of_neg l ha, inFront_cons_of_neg ha, ← positions_eq_nil_iff]
      constructor
      · intro h
        rcases hpositions : positions p (n + 1 + 1) l with _ | ⟨m, rest⟩
        · rfl
        · rw [hpositions] at h
          have hm : m = n + 1 := (List.isChain_cons_cons.mp h).1
          have hle : n + 1 + 1 ≤ m := le_of_mem_positions (hpositions ▸ List.mem_cons_self)
          omega
      · intro hnil
        rw [hnil]
        exact List.isChain_singleton n
    · rw [positions_cons_of_pos l ha, inFront_cons_of_pos ha, ← ih]
      exact List.isChain_cons_cons.trans (and_iff_right rfl)

/-- **Consecutive numbers are neighbours.** -/
theorem consecutive_positions_iff {n : ℤ} {l : List α} :
    Consecutive (positions p n l) ↔ Together p l := by
  induction l generalizing n with
  | nil =>
    exact ⟨fun _ => ⟨[], [], [], rfl, by simp, by simp, by simp⟩, fun _ => List.isChain_nil⟩
  | cons a l ih =>
    rcases ha : p a with _ | _
    · rw [positions_cons_of_neg l ha, together_cons_of_neg ha, ih]
    · rw [positions_cons_of_pos l ha, together_cons_of_pos ha, consecutive_cons_positions_iff]

end Library
end Scam2Market
