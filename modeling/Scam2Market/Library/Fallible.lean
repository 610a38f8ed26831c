import Mathlib.Data.List.Forall2
import Mathlib.Data.List.Perm.Basic
import Mathlib.Tactic.Common

/-!
# Computations that can fail

What it means for a computation in `Except` to succeed, one rule for each way of composing them.

* `bind_eq_ok`: one after the other.
* `mapM_eq_ok`: for every item of a list; the results correspond to the items, and what holds of the
  items passes to the results (`exists_of_mem_mapM`, `exists_result_of_mem`,
  `pairwise_of_mapM`, `flatMap_perm_of_mapM`).
* `foldlM_succeeds`: for one item after another, when every step succeeds under an invariant.
-/

namespace Scam2Market
namespace Library
namespace Fallible

variable {ε α β : Type}

theorem bind_eq_ok {x : Except ε α} {f : α → Except ε β} {b : β} :
    (x >>= f) = .ok b ↔ ∃ a, x = .ok a ∧ f a = .ok b := by
  cases x with
  | error e =>
    refine iff_of_false (fun h => ?_) fun ⟨_, h, _⟩ => ?_
    · cases h
    · cases h
  | ok a => exact ⟨fun h => ⟨a, rfl, h⟩, fun ⟨_, ha, h⟩ => Except.ok.inj ha ▸ h⟩

/-- The results of the items of a list correspond to the items. -/
theorem mapM_eq_ok {f : α → Except ε β} {l : List α} {bs : List β} :
    l.mapM f = .ok bs ↔ List.Forall₂ (fun a b => f a = .ok b) l bs := by
  induction l generalizing bs with
  | nil =>
    rw [List.mapM_nil, List.forall₂_nil_left_iff]
    exact ⟨fun h => (Except.ok.inj h).symm, fun h => h ▸ rfl⟩
  | cons a l ih =>
    rw [List.mapM_cons, bind_eq_ok, List.forall₂_cons_left_iff]
    constructor
    · rintro ⟨b, hb, h⟩
      obtain ⟨rest, hrest, hbs⟩ := bind_eq_ok.mp h
      exact ⟨b, rest, hb, ih.mp hrest, (Except.ok.inj hbs).symm⟩
    · rintro ⟨b, rest, hb, hrest, rfl⟩
      exact ⟨b, hb, bind_eq_ok.mpr ⟨rest, ih.mpr hrest, rfl⟩⟩

/-- Every result is the result of an item. -/
theorem exists_of_mem_mapM {f : α → Except ε β} {l : List α} {bs : List β} (h : l.mapM f = .ok bs)
    {b : β} (hb : b ∈ bs) : ∃ a ∈ l, f a = .ok b := by
  have hall := mapM_eq_ok.mp h
  clear h
  induction hall with
  | nil => exact absurd hb List.not_mem_nil
  | @cons a b' l bs hab _ ih =>
    rcases List.mem_cons.mp hb with rfl | hb
    · exact ⟨a, List.mem_cons_self, hab⟩
    · obtain ⟨a', ha', hab'⟩ := ih hb
      exact ⟨a', List.mem_cons_of_mem a ha', hab'⟩

/-- Every item has a result among the results. -/
theorem exists_result_of_mem {f : α → Except ε β} {l : List α} {bs : List β} (h : l.mapM f = .ok bs)
    {a : α} (ha : a ∈ l) : ∃ b ∈ bs, f a = .ok b := by
  have hall := mapM_eq_ok.mp h
  clear h
  induction hall with
  | nil => exact absurd ha List.not_mem_nil
  | @cons a' b l bs hab _ ih =>
    rcases List.mem_cons.mp ha with rfl | ha
    · exact ⟨b, List.mem_cons_self, hab⟩
    · obtain ⟨b', hb', hab'⟩ := ih ha
      exact ⟨b', List.mem_cons_of_mem b hb', hab'⟩

/-- What relates the items relates the results. -/
theorem pairwise_of_mapM {f : α → Except ε β} {l : List α} {bs : List β} {R : α → α → Prop}
    {S : β → β → Prop} (hRS : ∀ a b a' b', R a a' → f a = .ok b → f a' = .ok b' → S b b')
    (hl : l.Pairwise R) (h : l.mapM f = .ok bs) : bs.Pairwise S := by
  have hall := mapM_eq_ok.mp h
  clear h
  induction hall with
  | nil => exact List.Pairwise.nil
  | @cons a b l bs hab htail ih =>
    obtain ⟨ha, hl⟩ := List.pairwise_cons.mp hl
    refine List.pairwise_cons.mpr ⟨fun b' hb' => ?_, ih hl⟩
    obtain ⟨a', ha', hab'⟩ := exists_of_mem_mapM (mapM_eq_ok.mpr htail) hb'
    exact hRS a b a' b' (ha a' ha') hab hab'

/-- What every result is made of, all results are made of. -/
theorem flatMap_perm_of_mapM {γ : Type} {f : α → Except ε β} {g : α → List γ} {g' : β → List γ}
    {l : List α} {bs : List β} (hg : ∀ a b, f a = .ok b → (g' b).Perm (g a))
    (h : l.mapM f = .ok bs) : (bs.flatMap g').Perm (l.flatMap g) := by
  have hall := mapM_eq_ok.mp h
  clear h
  induction hall with
  | nil => exact List.Perm.refl _
  | @cons a b l bs hab _ ih =>
    rw [List.flatMap_cons, List.flatMap_cons]
    exact (hg a b hab).append ih

/-- What is read of the results can be read of the items. -/
theorem map_eq_of_mapM {γ : Type} {f : α → Except ε β} {g : α → γ} {g' : β → γ} {l : List α}
    {bs : List β} (hg : ∀ a b, f a = .ok b → g' b = g a) (h : l.mapM f = .ok bs) :
    bs.map g' = l.map g := by
  have hall := mapM_eq_ok.mp h
  clear h
  induction hall with
  | nil => rfl
  | @cons a b l bs hab _ ih => rw [List.map_cons, List.map_cons, hg a b hab, ih]

/-- The results, when an item can only have one. -/
theorem eq_map_of_mapM {f : α → Except ε β} {g : α → β} {l : List α} {bs : List β}
    (hg : ∀ a b, f a = .ok b → b = g a) (h : l.mapM f = .ok bs) : bs = l.map g := by
  have hmap : bs.map (fun b => b) = l.map g := map_eq_of_mapM hg h
  rwa [List.map_id'] at hmap

/-- When every item has a result, the list has. -/
theorem mapM_of_forall {f : α → Except ε β} {g : α → β} {l : List α}
    (h : ∀ a ∈ l, f a = .ok (g a)) : l.mapM f = .ok (l.map g) := by
  rw [mapM_eq_ok, List.forall₂_map_right_iff, List.forall₂_same]
  exact h

/-- When every step succeeds under an invariant of the items taken so far, so does the whole. -/
theorem foldlM_succeeds {f : β → α → Except ε β} {I : List α → β → Prop} {l : List α} {b : β}
    (hb : I [] b)
    (hstep : ∀ done a b, done ++ [a] <+: l → I done b → ∃ b', f b a = .ok b' ∧ I (done ++ [a]) b') :
    ∃ b', l.foldlM f b = .ok b' ∧ I l b' := by
  have hgeneral : ∀ (rest done : List α) (b : β), done ++ rest = l → I done b →
      ∃ b', rest.foldlM f b = .ok b' ∧ I (done ++ rest) b' := by
    intro rest
    induction rest with
    | nil =>
      intro done b _ hI
      exact ⟨b, rfl, by rwa [List.append_nil]⟩
    | cons a rest ih =>
      intro done b hsplit hI
      have hpre : done ++ [a] <+: l := ⟨rest, by rw [← hsplit, List.append_assoc, List.singleton_append]⟩
      obtain ⟨b', hb', hI'⟩ := hstep done a b hpre hI
      obtain ⟨b'', hb'', hI''⟩ := ih (done ++ [a]) b'
        (by rw [← hsplit, List.append_assoc, List.singleton_append]) hI'
      refine ⟨b'', ?_, ?_⟩
      · rw [List.foldlM_cons]
        exact bind_eq_ok.mpr ⟨b', hb', hb''⟩
      · rwa [List.append_assoc, List.singleton_append] at hI''
  exact hgeneral l [] b rfl hb

end Fallible
end Library
end Scam2Market
