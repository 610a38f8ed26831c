import Mathlib.Data.List.Induction
import Mathlib.Order.Lattice
import Scam2Market.Library.Lists

/-!
# Hash chains

A block carries an entry, the hash of the block before it, and its own hash, which is taken of the
other two (`link`).

* `tip link entries`: the hash of the last block of the chain of `entries`.
* `IsChain link blocks`: each block is linked to the tip of the blocks before it.
* `tip_injective`: when `link` has no collisions, the last hash commits to all the entries.
* `IsChain.previous_eq_none_iff` and `IsChain.exists_lower`: when the entries have increasing keys, the
  block with the lowest key is the only one without a predecessor, and every other block is linked to
  the block with the next lower key.
-/

namespace Scam2Market
namespace Library
namespace HashChain

variable {H E K : Type*}

/-- A block of a chain. -/
structure Block (H E : Type*) where
  previous : Option H
  entry : E
  hash : H

variable (link : Option H → E → H)

/-- The hash of the last block of the chain of some entries. -/
def tip (entries : List E) : Option H :=
  entries.foldl (fun previous entry => some (link previous entry)) none

/-- Each block is linked to the tip of the blocks before it. -/
def IsChain (blocks : List (Block H E)) : Prop :=
  ∀ before block after, blocks = before ++ block :: after →
    block.previous = tip link (before.map Block.entry) ∧
      block.hash = link block.previous block.entry

variable {link} {blocks : List (Block H E)} {block : Block H E}

@[simp] theorem tip_nil : tip link [] = none := rfl

@[simp] theorem tip_concat (entries : List E) (entry : E) :
    tip link (entries ++ [entry]) = some (link (tip link entries) entry) := by
  rw [tip, List.foldl_append, List.foldl_cons, List.foldl_nil, tip]

/-- **Commitment.**  Two chains with the same last hash have the same entries. -/
theorem tip_injective
    (hlink : ∀ previous previous' entry entry', link previous entry = link previous' entry' →
      previous = previous' ∧ entry = entry') : Function.Injective (tip link) := by
  intro entries
  induction entries using List.reverseRecOn with
  | nil =>
    intro entries' h
    rcases List.eq_nil_or_concat' entries' with rfl | ⟨init, last, rfl⟩
    · rfl
    · rw [tip_nil, tip_concat] at h
      cases h
  | append_singleton entries entry ih =>
    intro entries' h
    rcases List.eq_nil_or_concat' entries' with rfl | ⟨init, last, rfl⟩
    · rw [tip_nil, tip_concat] at h
      cases h
    · rw [tip_concat, tip_concat] at h
      obtain ⟨hprevious, rfl⟩ := hlink _ _ _ _ (Option.some.inj h)
      rw [ih hprevious]

theorem isChain_nil : IsChain link ([] : List (Block H E)) := by
  intro before block after h
  exact absurd h (by simp)

/-- A block that is linked to the tip goes on with the chain. -/
theorem IsChain.concat (h : IsChain link blocks)
    (hprevious : block.previous = tip link (blocks.map Block.entry))
    (hhash : block.hash = link block.previous block.entry) : IsChain link (blocks ++ [block]) :=
  forall_split_concat h ⟨hprevious, hhash⟩

/-- The tip is the hash of the last block. -/
theorem IsChain.tip_eq (h : IsChain link blocks) :
    tip link (blocks.map Block.entry) = blocks.getLast?.map Block.hash := by
  rcases List.eq_nil_or_concat' blocks with rfl | ⟨init, last, rfl⟩
  · rfl
  · obtain ⟨hprevious, hhash⟩ := h init last [] rfl
    rw [List.map_append, List.map_singleton, tip_concat, List.getLast?_concat, ← hprevious, ← hhash]
    rfl

theorem IsChain.of_append {after : List (Block H E)} (h : IsChain link (blocks ++ after)) :
    IsChain link blocks := by
  intro before block later hsplit
  exact h before block (later ++ after) (by rw [hsplit, List.append_assoc, List.cons_append])

/-! ## Chains in the order of a key -/

section Keys

variable [LinearOrder K] {key : E → K}

/-- Only the block with the lowest key has no predecessor. -/
theorem IsChain.previous_eq_none_iff (h : IsChain link blocks)
    (hsorted : blocks.Pairwise fun a b => key a.entry < key b.entry) (hmem : block ∈ blocks) :
    block.previous = none ↔ ∀ other ∈ blocks, key block.entry ≤ key other.entry := by
  obtain ⟨before, after, rfl⟩ := List.append_of_mem hmem
  obtain ⟨-, htail, hbefore⟩ := List.pairwise_append.mp hsorted
  obtain ⟨hafter, -⟩ := List.pairwise_cons.mp htail
  rw [(h before block after rfl).1]
  rcases List.eq_nil_or_concat' before with rfl | ⟨init, last, rfl⟩
  · refine iff_of_true rfl fun other hother => ?_
    rcases List.mem_cons.mp hother with rfl | hother
    · exact le_rfl
    · exact le_of_lt (hafter other hother)
  · rw [List.map_append, List.map_singleton, tip_concat]
    refine iff_of_false (Option.some_ne_none _) fun hleast => ?_
    have hlast : last ∈ init ++ [last] := List.mem_append_right _ List.mem_cons_self
    exact absurd (hbefore last hlast block List.mem_cons_self)
      (not_lt.mpr (hleast last (List.mem_append_left _ hlast)))

/-- Every other block is linked to the block with the next lower key. -/
theorem IsChain.exists_lower (h : IsChain link blocks)
    (hsorted : blocks.Pairwise fun a b => key a.entry < key b.entry) (hmem : block ∈ blocks)
    {hash : H} (hprevious : block.previous = some hash) :
    ∃ lower ∈ blocks, lower.hash = hash ∧ key lower.entry < key block.entry ∧
      ∀ other ∈ blocks, key other.entry < key block.entry → key other.entry ≤ key lower.entry := by
  obtain ⟨before, after, rfl⟩ := List.append_of_mem hmem
  obtain ⟨hbeforeSorted, htail, hbefore⟩ := List.pairwise_append.mp hsorted
  obtain ⟨hafter, -⟩ := List.pairwise_cons.mp htail
  rw [(h before block after rfl).1] at hprevious
  rcases List.eq_nil_or_concat' before with rfl | ⟨init, last, rfl⟩
  · exact absurd hprevious (by simp)
  · have hlast : last ∈ init ++ [last] := List.mem_append_right _ List.mem_cons_self
    rw [h.of_append.tip_eq, List.getLast?_concat] at hprevious
    refine ⟨last, List.mem_append_left _ hlast, Option.some.inj hprevious,
      hbefore last hlast block List.mem_cons_self, fun other hother hlt => ?_⟩
    rcases List.mem_append.mp hother with hother | hother
    · rcases List.mem_append.mp hother with hinit | hother
      · exact le_of_lt ((List.pairwise_append.mp hbeforeSorted).2.2 other hinit last
          List.mem_cons_self)
      · rw [List.mem_singleton.mp hother]
    · rcases List.mem_cons.mp hother with rfl | hother
      · exact absurd hlt (lt_irrefl _)
      · exact absurd (hafter other hother) (not_lt.mpr (le_of_lt hlt))

end Keys

end HashChain
end Library
end Scam2Market
