import Mathlib.Algebra.Order.Group.MinMax

/-!
# Clipping maps

Maps of an ordered group that keep the order and do not enlarge a difference: raising to a floor,
cutting at a cap, and whatever is composed of these.

* `Clipping f`: for `a ≤ b`, `f a ≤ f b` and `f b - f a ≤ b - a`.
* `Clipping.floor`, `Clipping.cap`, `Clipping.comp`, `Clipping.ite`: how such maps are built.
* `Clipping.shift`: what a bounded increase becomes behind a clipping map.
-/

namespace Scam2Market
namespace Library

/-- The map keeps the order and does not enlarge a difference. -/
def Clipping {α : Type*} [AddCommGroup α] [LinearOrder α] (f : α → α) : Prop :=
  ∀ a b, a ≤ b → f a ≤ f b ∧ f b - f a ≤ b - a

namespace Clipping

variable {α : Type*} [AddCommGroup α] [LinearOrder α] {f g : α → α}

theorem monotone (hf : Clipping f) {a b : α} (h : a ≤ b) : f a ≤ f b :=
  (hf a b h).1

theorem id : Clipping (fun a : α => a) := fun _ _ h => ⟨h, le_rfl⟩

theorem comp (hg : Clipping g) (hf : Clipping f) : Clipping (fun a => g (f a)) := by
  intro a b h
  have hfab := hf a b h
  have hgab := hg (f a) (f b) hfab.1
  exact ⟨hgab.1, hgab.2.trans hfab.2⟩

/-- A map that is chosen by a condition. -/
theorem ite (c : Prop) [Decidable c] (hf : c → Clipping f) (hg : ¬ c → Clipping g) :
    Clipping (fun a => if c then f a else g a) := by
  by_cases hc : c
  · simpa only [if_pos hc] using hf hc
  · simpa only [if_neg hc] using hg hc

variable [IsOrderedAddMonoid α]

/-- Raising to a floor. -/
theorem floor (c : α) : Clipping (fun a => max a c) := by
  intro a b h
  show max a c ≤ max b c ∧ max b c - max a c ≤ b - a
  refine ⟨max_le_max_right c h, ?_⟩
  rcases le_total a c with ha | ha
  · rw [max_eq_right ha]
    rcases le_total b c with hb | hb
    · rw [max_eq_right hb, sub_self]
      exact sub_nonneg.mpr h
    · rw [max_eq_left hb]
      exact sub_le_sub_left ha b
  · rw [max_eq_left ha, max_eq_left (ha.trans h)]

/-- Cutting at a cap. -/
theorem cap (c : α) : Clipping (fun a => min a c) := by
  intro a b h
  show min a c ≤ min b c ∧ min b c - min a c ≤ b - a
  refine ⟨min_le_min_right c h, ?_⟩
  rcases le_total b c with hb | hb
  · rw [min_eq_left hb, min_eq_left (h.trans hb)]
  · rw [min_eq_right hb]
    rcases le_total a c with ha | ha
    · rw [min_eq_left ha]
      exact sub_le_sub_right hb a
    · rw [min_eq_right ha, sub_self]
      exact sub_nonneg.mpr h

/-- An increase by at most `d` stays one behind a clipping map. -/
theorem shift (hf : Clipping f) {a b d : α} (h : a ≤ b) (hd : b - a ≤ d) :
    0 ≤ f b - f a ∧ f b - f a ≤ d := by
  obtain ⟨hle, hsub⟩ := hf a b h
  exact ⟨sub_nonneg.mpr hle, hsub.trans hd⟩

end Clipping

/-! ## Clamping -/

/-- The nearest point of an interval. -/
def clampTo {α : Type*} [LinearOrder α] (lo hi a : α) : α :=
  max lo (min hi a)

section Clamp

variable {α : Type*} [LinearOrder α] {lo hi : α}

theorem le_clampTo (a : α) : lo ≤ clampTo lo hi a :=
  le_max_left _ _

theorem clampTo_le (h : lo ≤ hi) (a : α) : clampTo lo hi a ≤ hi :=
  max_le h (min_le_left _ _)

theorem clampTo_mono {a b : α} (h : a ≤ b) : clampTo lo hi a ≤ clampTo lo hi b :=
  max_le_max_left lo (min_le_min_left hi h)

theorem clampTo_of_mem {a : α} (hlo : lo ≤ a) (hhi : a ≤ hi) : clampTo lo hi a = a := by
  rw [clampTo, min_eq_right hhi, max_eq_right hlo]

end Clamp

end Library
end Scam2Market
