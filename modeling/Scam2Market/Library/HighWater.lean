import Mathlib.Data.List.MinMax
import Mathlib.Order.Lattice

/-!
# High-water marks

A reader takes items from a source and keeps the greatest of their times as its mark.  The next time it
asks only for what is newer than the mark.  It may take a part of what is listed.

* `Covers`: every item of the source that is no newer than the mark is known to the reader.
* `Complete`: what a reader leaves out is newer than all that it takes, and it takes something if it has a
  mark.
* `covers_highWater_iff`: the mark still covers the source, and has not gone back, exactly when the
  reader was complete.
-/

namespace Scam2Market
namespace Library

variable {α τ : Type*} [LinearOrder τ] {time : α → τ} {items listed taken known : List α}
  {mark mark' : Option τ}

/-- The greatest time. -/
def highWater (time : α → τ) (taken : List α) : Option τ :=
  (taken.map time).max?

/-- Every item that is no newer than the mark is known. -/
def Covers (time : α → τ) (items known : List α) (mark : Option τ) : Prop :=
  ∀ a ∈ items, ∀ t, mark = some t → time a ≤ t → a ∈ known

/-- The mark is not taken away and does not go back. -/
def Rises (mark mark' : Option τ) : Prop :=
  ∀ t, mark = some t → ∃ t', mark' = some t' ∧ t ≤ t'

/-- A source that is asked with a mark lists what is newer, and nothing that is older. -/
structure Lists (time : α → τ) (items : List α) (mark : Option τ) (listed : List α) : Prop where
  newer : ∀ a ∈ items, (∀ t, mark = some t → t < time a) → a ∈ listed
  mem : ∀ a ∈ listed, a ∈ items
  notOlder : ∀ a ∈ listed, ∀ t, mark = some t → t ≤ time a

/-- Something is taken if there is a mark, and what is left out, and not known, is newer than all that is
taken. -/
def Complete (time : α → τ) (mark : Option τ) (listed taken known : List α) : Prop :=
  (mark ≠ none → taken ≠ []) ∧
    ∀ a ∈ listed, a ∉ taken → a ∉ known → ∀ b ∈ taken, time b < time a

/-! ## The greatest time -/

theorem highWater_eq_none_iff : highWater time taken = none ↔ taken = [] := by
  rw [highWater, List.max?_eq_none_iff, List.map_eq_nil_iff]

theorem highWater_eq_some_iff {t : τ} :
    highWater time taken = some t ↔ (∃ a ∈ taken, time a = t) ∧ ∀ a ∈ taken, time a ≤ t := by
  rw [highWater, List.max?_eq_some_iff, List.mem_map]
  simp only [List.mem_map, forall_exists_index, and_imp, forall_apply_eq_imp_iff₂]

theorem exists_highWater (time : α → τ) (htaken : taken ≠ []) : ∃ t, highWater time taken = some t :=
  Option.ne_none_iff_exists'.mp fun h => htaken (highWater_eq_none_iff.mp h)

theorem Lists.subset (h : Lists time items mark listed) : listed ⊆ items :=
  h.mem

/-! ## Covering -/

theorem Rises.refl (mark : Option τ) : Rises mark mark :=
  fun t h => ⟨t, h, le_refl t⟩

theorem covers_none : Covers time items known none :=
  fun _ _ _ h => nomatch h

/-- A source may lose items, and the reader may learn more. -/
theorem Covers.mono {items' known' : List α} (h : Covers time items known mark)
    (hitems : items' ⊆ items) (hknown : known ⊆ known') : Covers time items' known' mark :=
  fun a ha t ht hle => hknown (h a (hitems ha) t ht hle)

/-- An item that is newer than the mark does not matter. -/
theorem Covers.cons {a : α} (h : Covers time items known mark)
    (ha : ∀ t, mark = some t → t < time a) : Covers time (a :: items) known mark := by
  intro b hb t ht hle
  rcases List.mem_cons.mp hb with rfl | hb
  · exact absurd hle (ha t ht).not_ge
  · exact h b hb t ht hle

/-- **The new mark covers the source and has not gone back** exactly when the reader was complete. -/
theorem covers_highWater_iff (hlists : Lists time items mark listed) (htaken : taken ⊆ listed)
    (hcovers : Covers time items known mark) :
    Rises mark (highWater time taken) ∧ Covers time items (known ++ taken) (highWater time taken) ↔
      Complete time mark listed taken known := by
  constructor
  · rintro ⟨hrises, hafter⟩
    refine ⟨fun hmark hnil => ?_, fun a ha hleft hunknown b hb => ?_⟩
    · obtain ⟨t, ht⟩ := Option.ne_none_iff_exists'.mp hmark
      obtain ⟨t', ht', -⟩ := hrises t ht
      rw [highWater_eq_none_iff.mpr hnil] at ht'
      exact nomatch ht'
    · obtain ⟨t, ht⟩ := exists_highWater time (List.ne_nil_of_mem hb)
      refine lt_of_le_of_lt ((highWater_eq_some_iff.mp ht).2 b hb) (not_le.mp fun hle => ?_)
      rcases List.mem_append.mp (hafter a (hlists.subset ha) t ht hle) with hknown | hnew
      · exact hunknown hknown
      · exact hleft hnew
  · rintro ⟨hsome, hnewer⟩
    constructor
    · intro t ht
      obtain ⟨b, hb⟩ := List.exists_mem_of_ne_nil taken (hsome (by rw [ht]; exact nofun))
      obtain ⟨t', ht'⟩ := exists_highWater time (List.ne_nil_of_mem hb)
      exact ⟨t', ht', (hlists.notOlder b (htaken hb) t ht).trans
        ((highWater_eq_some_iff.mp ht').2 b hb)⟩
    · intro a ha t ht hle
      obtain ⟨⟨b, hb, rfl⟩, -⟩ := highWater_eq_some_iff.mp ht
      by_contra hlost
      obtain ⟨hunknown, hleft⟩ := not_or.mp (mt List.mem_append.mpr hlost)
      -- an item that is not listed is no newer than the old mark
      by_cases hlisted : a ∈ listed
      · exact absurd hle (hnewer a hlisted hleft hunknown b hb).not_ge
      · have hold : ¬ ∀ t, mark = some t → t < time a := fun h => hlisted (hlists.newer a ha h)
        push Not at hold
        obtain ⟨t', ht', hle'⟩ := hold
        exact hunknown (hcovers a ha t' ht' hle')

end Library
end Scam2Market
