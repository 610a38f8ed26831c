import Mathlib.Data.List.Chain
import Mathlib.Data.List.Induction
import Mathlib.Order.Basic
import Mathlib.Tactic.Common

/-!
# Greedy packing

Items are put into groups one after the other.  An item begins a new group if the group at hand would be
too large with it.

* `Packed`: what a packing promises.  The groups are the items, in order and cut into pieces; a group that
  is too large has one item, and no group has room for the first item of the next one.
* `packed_pack`: the greedy packing keeps the promise, for any size of a group.
-/

namespace Scam2Market
namespace Library

variable {α : Type*}

/-- The groups that are finished, and the group at hand. -/
structure Packing (α : Type*) where
  finished : List (List α) := []
  current : List α := []

namespace Packing

/-- All groups; the one at hand may have nothing yet. -/
def groups (packing : Packing α) : List (List α) :=
  if packing.current = [] then packing.finished else packing.finished ++ [packing.current]

/-- One more item. -/
def add (size : List α → ℕ) (limit : ℕ) (packing : Packing α) (item : α) : Packing α :=
  if packing.current ≠ [] ∧ limit < size (packing.current ++ [item]) then
    { finished := packing.finished ++ [packing.current], current := [item] }
  else { packing with current := packing.current ++ [item] }

end Packing

/-- The packing of the items. -/
def pack (size : List α → ℕ) (limit : ℕ) (items : List α) : Packing α :=
  items.foldl (Packing.add size limit) {}

/-- What the groups of a packing promise. -/
structure Packed (size : List α → ℕ) (limit : ℕ) (items : List α) (groups : List (List α)) : Prop where
  flatten_eq : groups.flatten = items
  ne_nil : ∀ group ∈ groups, group ≠ []
  fits : ∀ group ∈ groups, size group ≤ limit ∨ ∃ item, group = [item]
  tight : groups.IsChain fun group next => ∀ item ∈ next.head?, limit < size (group ++ [item])

section Packed

variable {size : List α → ℕ} {limit : ℕ} {item : α} {items group : List α} {groups : List (List α)}

theorem packed_nil : Packed size limit ([] : List α) [] where
  flatten_eq := rfl
  ne_nil := fun _ h => absurd h List.not_mem_nil
  fits := fun _ h => absurd h List.not_mem_nil
  tight := List.IsChain.nil

/-- The item goes into the last group. -/
theorem Packed.extend (h : Packed size limit items (groups ++ [group])) (hne : group ≠ [])
    (hfits : size (group ++ [item]) ≤ limit) :
    Packed size limit (items ++ [item]) (groups ++ [group ++ [item]]) where
  flatten_eq := by
    rw [← h.flatten_eq]
    simp only [List.flatten_append, List.flatten_singleton, List.append_assoc]
  ne_nil := by
    intro other hother
    rcases List.mem_append.mp hother with hother | hother
    · exact h.ne_nil other (List.mem_append_left _ hother)
    · rw [List.mem_singleton.mp hother]
      exact List.append_ne_nil_of_right_ne_nil _ (List.cons_ne_nil item [])
  fits := by
    intro other hother
    rcases List.mem_append.mp hother with hother | hother
    · exact h.fits other (List.mem_append_left _ hother)
    · rw [List.mem_singleton.mp hother]
      exact Or.inl hfits
  tight := by
    obtain ⟨hchain, -, hlast⟩ := List.isChain_append.mp h.tight
    refine List.isChain_append.mpr ⟨hchain, List.isChain_singleton _, fun last hmem next hnext => ?_⟩
    obtain rfl : group ++ [item] = next := Option.some.inj hnext
    rw [List.head?_append_of_ne_nil _ hne]
    exact hlast last hmem group rfl

/-- The item begins a group. -/
theorem Packed.start (h : Packed size limit items groups)
    (hfull : ∀ last ∈ groups.getLast?, limit < size (last ++ [item])) :
    Packed size limit (items ++ [item]) (groups ++ [[item]]) where
  flatten_eq := by
    rw [List.flatten_append, h.flatten_eq, List.flatten_singleton]
  ne_nil := by
    intro other hother
    rcases List.mem_append.mp hother with hother | hother
    · exact h.ne_nil other hother
    · rw [List.mem_singleton.mp hother]
      exact List.cons_ne_nil item []
  fits := by
    intro other hother
    rcases List.mem_append.mp hother with hother | hother
    · exact h.fits other hother
    · exact Or.inr ⟨item, List.mem_singleton.mp hother⟩
  tight := by
    refine List.isChain_append.mpr ⟨h.tight, List.isChain_singleton _, fun last hmem next hnext => ?_⟩
    obtain rfl : [item] = next := Option.some.inj hnext
    intro first hfirst
    obtain rfl : item = first := Option.some.inj hfirst
    exact hfull last hmem

/-- Only in the beginning there is no group at hand. -/
def Packing.Begun (packing : Packing α) : Prop :=
  packing.current = [] → packing.finished = []

theorem Packing.begun_add (packing : Packing α) (item : α) :
    (packing.add size limit item).Begun := by
  refine fun h => absurd h ?_
  rw [Packing.add]
  by_cases hfull : packing.current ≠ [] ∧ limit < size (packing.current ++ [item])
  · rw [if_pos hfull]
    exact List.cons_ne_nil item []
  · rw [if_neg hfull]
    exact List.append_ne_nil_of_right_ne_nil _ (List.cons_ne_nil item [])

theorem Packing.groups_of_ne_nil {packing : Packing α} (h : packing.current ≠ []) :
    packing.groups = packing.finished ++ [packing.current] :=
  if_neg h

/-- One item more. -/
theorem Packed.add {packing : Packing α} (h : Packed size limit items packing.groups)
    (hbegun : packing.Begun) :
    Packed size limit (items ++ [item]) (packing.add size limit item).groups := by
  by_cases hempty : packing.current = []
  · have hadd : packing.add size limit item = { finished := [], current := [item] } := by
      rw [Packing.add, if_neg fun hfull => hfull.1 hempty, hempty, hbegun hempty, List.nil_append]
    have hgroups : packing.groups = [] := by
      rw [Packing.groups, if_pos hempty, hbegun hempty]
    rw [hadd, Packing.groups_of_ne_nil (List.cons_ne_nil item [])]
    rw [hgroups] at h
    exact h.start fun _ hlast => nomatch hlast
  · rw [Packing.groups_of_ne_nil hempty] at h
    rw [Packing.add]
    split_ifs with hfull
    · rw [Packing.groups_of_ne_nil (List.cons_ne_nil item [])]
      refine h.start fun last hlast => ?_
      rw [List.getLast?_concat] at hlast
      exact Option.some.inj hlast ▸ hfull.2
    · rw [Packing.groups_of_ne_nil (List.append_ne_nil_of_left_ne_nil hempty [item])]
      exact h.extend hempty (not_lt.mp fun hlarge => hfull ⟨hempty, hlarge⟩)

theorem pack_concat (size : List α → ℕ) (limit : ℕ) (items : List α) (item : α) :
    pack size limit (items ++ [item]) = (pack size limit items).add size limit item :=
  List.foldl_concat ..

/-- **Greedy packing.** -/
theorem packed_pack (size : List α → ℕ) (limit : ℕ) (items : List α) :
    Packed size limit items (pack size limit items).groups := by
  have hall : Packed size limit items (pack size limit items).groups ∧
      (pack size limit items).Begun := by
    induction items using List.reverseRecOn with
    | nil => exact ⟨packed_nil, fun _ => rfl⟩
    | append_singleton items item ih =>
      rw [pack_concat]
      exact ⟨ih.1.add ih.2, Packing.begun_add _ item⟩
  exact hall.1

/-- What is at hand is among the items. -/
theorem mem_of_mem_current (h : item ∈ (pack size limit items).current) : item ∈ items := by
  have hne : (pack size limit items).current ≠ [] := List.ne_nil_of_mem h
  rw [← (packed_pack size limit items).flatten_eq, Packing.groups_of_ne_nil hne]
  exact List.mem_flatten.mpr ⟨_, List.mem_append_right _ (List.mem_singleton_self _), h⟩

end Packed

end Library
end Scam2Market
