import Scam2Market.Library.Positions
import Scam2Market.Ingestion.Quality

/-!
# What the gap count says about a feed

The tracker reads the sequence numbers of a source and an asset one after the other.

* `numbersOf`: these numbers.
* `ShowsLoss`: a complete feed shows no gap, and a feed that lost some messages of an asset in a row shows
  how many.
* `showsLoss_iff`: it does exactly when the numbers of each source and asset are consecutive.
-/

namespace Scam2Market
namespace Ingestion

open Library

/-- Every observation has a number. -/
def Numbered (observations : List Observed) : Prop :=
  ∀ observed ∈ observations, ∃ number, observed.sequence = some number

/-- The sequence numbers, in the order in which they are observed. -/
def numbers (observations : List Observed) : List ℤ :=
  observations.filterMap Observed.sequence

/-- The sequence numbers of a source and an asset. -/
def numbersOf (source assetId : String) (observations : List Observed) : List ℤ :=
  numbers (observations.filter (Observed.isOf source assetId))

/-- A complete feed shows no gap, and a gap is as long as what was lost in a row between two messages of a
source and an asset that were not. -/
structure ShowsLoss (threshold : ℤ) (observations : List Observed) : Prop where
  complete : ∀ source assetId quality,
    (SourceQualityTracker.observeAll threshold observations).get source assetId = some quality →
    quality.sequenceGapCount = 0 ∧ quality.outOfOrderCount = 0
  lost : ∀ source assetId before dropped after kept quality,
    observations.filter (Observed.isOf source assetId) = before ++ (dropped ++ after) →
    before ≠ [] → dropped ≠ [] → after ≠ [] → kept.Sublist observations →
    kept.filter (Observed.isOf source assetId) = before ++ after →
    (SourceQualityTracker.observeAll threshold kept).get source assetId = some quality →
    quality.sequenceGapCount = dropped.length

/-! ## One number after the other -/

theorem numbers_cons {observed : Observed} {number : ℤ} (hnumber : observed.sequence = some number)
    (observations : List Observed) :
    numbers (observed :: observations) = number :: numbers observations :=
  List.filterMap_cons_some hnumber

theorem length_numbers {observations : List Observed} (hnumbered : Numbered observations) :
    (numbers observations).length = observations.length := by
  induction observations with
  | nil => rfl
  | cons observed observations ih =>
    obtain ⟨number, hnumber⟩ := hnumbered observed List.mem_cons_self
    rw [numbers_cons hnumber, List.length_cons, List.length_cons,
      ih fun other hother => hnumbered other (List.mem_cons_of_mem _ hother)]

/-- The counts did not move. -/
def SameCounts (state state' : SourceQuality) : Prop :=
  state'.sequenceGapCount = state.sequenceGapCount ∧ state'.outOfOrderCount = state.outOfOrderCount

/-- The counts do not fall. -/
def CountsLe (state state' : SourceQuality) : Prop :=
  state.sequenceGapCount ≤ state'.sequenceGapCount ∧ state.outOfOrderCount ≤ state'.outOfOrderCount

section Observe

variable (threshold : ℤ) {state : SourceQuality} {observed : Observed} {last number : ℤ}

/-- The first number. -/
theorem observe_first (hlast : state.lastSequence = none) (hnumber : observed.sequence = some number) :
    SameCounts state (state.observe threshold observed) ∧
      (state.observe threshold observed).lastSequence = some number := by
  simp [SameCounts, SourceQuality.observe, hlast, hnumber, sequenceFault, nextSequence]

/-- The number after the last one. -/
theorem observe_next (hlast : state.lastSequence = some last)
    (hnumber : observed.sequence = some (last + 1)) :
    SameCounts state (state.observe threshold observed) ∧
      (state.observe threshold observed).lastSequence = some (last + 1) := by
  have hfault : sequenceFault (some last) (some (last + 1)) = none := by
    rw [sequenceFault, if_neg (lt_irrefl _), if_neg (by omega)]
  have hnext : nextSequence (some last) (some (last + 1)) = some (last + 1) := by
    simp only [nextSequence]
    split_ifs
    · rw [max_self]
    · rw [max_eq_left (by omega)]
  simp [SameCounts, SourceQuality.observe, hlast, hnumber, hfault, hnext]

/-- A number past the next one. -/
theorem observe_gap (hlast : state.lastSequence = some last) (hnumber : observed.sequence = some number)
    (hgap : last + 1 < number) :
    (state.observe threshold observed).sequenceGapCount =
        state.sequenceGapCount + (number - last - 1) ∧
      (state.observe threshold observed).outOfOrderCount = state.outOfOrderCount ∧
      (state.observe threshold observed).lastSequence = some number := by
  have hfault : sequenceFault (some last) (some number) = some (.gap (number - last - 1)) := by
    rw [sequenceFault, if_pos hgap]
  have hnext : nextSequence (some last) (some number) = some number := by
    simp only [nextSequence]
    split_ifs
    · rw [max_self]
    · rw [max_eq_left (by omega)]
  simp [SourceQuality.observe, hlast, hnumber, hfault, hnext]

/-- Any other number is counted. -/
theorem observe_other (hlast : state.lastSequence = some last) (hnumber : observed.sequence = some number)
    (hother : number ≠ last + 1) :
    CountsLe state (state.observe threshold observed) ∧
      ¬ SameCounts state (state.observe threshold observed) := by
  by_cases hgap : last + 1 < number
  · obtain ⟨hcount, horder, -⟩ := observe_gap threshold hlast hnumber hgap
    unfold CountsLe SameCounts
    omega
  · have hfault : sequenceFault (some last) (some number) = some .outOfOrder := by
      rw [sequenceFault, if_neg hgap, if_pos (by omega)]
    unfold CountsLe SameCounts
    simp only [SourceQuality.observe, hlast, hnumber, hfault]
    omega

theorem observe_lastSequence (observed : Observed) (hlast : state.lastSequence = some last) :
    ∃ last', (state.observe threshold observed).lastSequence = some last' := by
  simp only [SourceQuality.observe, hlast]
  rcases observed.sequence with _ | number
  · exact ⟨last, rfl⟩
  · exact ⟨_, rfl⟩

end Observe

theorem SameCounts.le {state state' : SourceQuality} (h : SameCounts state state') :
    CountsLe state state' :=
  ⟨h.1.ge, h.2.ge⟩

variable {threshold : ℤ}

/-- Counts only grow. -/
theorem countsLe_foldl (threshold : ℤ) {observations : List Observed} (hnumbered : Numbered observations)
    {state : SourceQuality} {last : ℤ} (hlast : state.lastSequence = some last) :
    CountsLe state (observations.foldl (SourceQuality.observe threshold) state) := by
  induction observations generalizing state last with
  | nil => exact ⟨le_rfl, le_rfl⟩
  | cons observed observations ih =>
    obtain ⟨number, hnumber⟩ := hnumbered observed List.mem_cons_self
    obtain ⟨last', hlast'⟩ := observe_lastSequence threshold observed hlast
    have hrest := ih (fun other hother => hnumbered other (List.mem_cons_of_mem _ hother)) hlast'
    have hfirst : CountsLe state (state.observe threshold observed) := by
      by_cases hnext : number = last + 1
      · exact (observe_next threshold hlast (hnext ▸ hnumber)).1.le
      · exact (observe_other threshold hlast hnumber hnext).1
    exact ⟨hfirst.1.trans hrest.1, hfirst.2.trans hrest.2⟩

/-- Consecutive numbers leave the counts alone. -/
theorem sameCounts_of_consecutive {observations : List Observed} (hnumbered : Numbered observations)
    {state : SourceQuality} {last : ℤ} (hlast : state.lastSequence = some last) {rest : List ℤ}
    (hconsecutive : Consecutive (last :: (numbers observations ++ rest))) :
    ∃ last', (observations.foldl (SourceQuality.observe threshold) state).lastSequence = some last' ∧
      SameCounts state (observations.foldl (SourceQuality.observe threshold) state) ∧
      Consecutive (last' :: rest) := by
  induction observations generalizing state last with
  | nil => exact ⟨last, hlast, ⟨rfl, rfl⟩, hconsecutive⟩
  | cons observed observations ih =>
    obtain ⟨number, hnumber⟩ := hnumbered observed List.mem_cons_self
    rw [numbers_cons hnumber] at hconsecutive
    obtain ⟨hnext, hconsecutive⟩ := List.isChain_cons_cons.mp hconsecutive
    subst hnext
    obtain ⟨hsame, hlast'⟩ := observe_next threshold hlast hnumber
    obtain ⟨last', hfinal, hcounts, hrest⟩ :=
      ih (fun other hother => hnumbered other (List.mem_cons_of_mem _ hother)) hlast' hconsecutive
    exact ⟨last', hfinal, ⟨hcounts.1.trans hsame.1, hcounts.2.trans hsame.2⟩, hrest⟩

/-- Counts that did not move saw consecutive numbers. -/
theorem consecutive_of_sameCounts (threshold : ℤ) {observations : List Observed} (hnumbered : Numbered observations)
    {state : SourceQuality} {last : ℤ} (hlast : state.lastSequence = some last)
    (hsame : SameCounts state (observations.foldl (SourceQuality.observe threshold) state)) :
    Consecutive (last :: numbers observations) := by
  induction observations generalizing state last with
  | nil => exact List.isChain_singleton last
  | cons observed observations ih =>
    obtain ⟨number, hnumber⟩ := hnumbered observed List.mem_cons_self
    have hrest : Numbered observations := fun other hother =>
      hnumbered other (List.mem_cons_of_mem _ hother)
    rw [numbers_cons hnumber]
    by_cases hnext : number = last + 1
    · subst hnext
      obtain ⟨hfirst, hlast'⟩ := observe_next threshold hlast hnumber
      refine List.isChain_cons_cons.mpr ⟨rfl, ih hrest hlast' ?_⟩
      exact ⟨hsame.1.trans hfirst.1.symm, hsame.2.trans hfirst.2.symm⟩
    · obtain ⟨hle, hne⟩ := observe_other threshold hlast hnumber hnext
      obtain ⟨last', hlast'⟩ :=
        observe_lastSequence threshold observed hlast
      have hle' := countsLe_foldl threshold hrest hlast'
      exact absurd ⟨le_antisymm (hle'.1.trans hsame.1.le) hle.1,
        le_antisymm (hle'.2.trans hsame.2.le) hle.2⟩ hne

/-- Where consecutive numbers go on after some of them. -/
theorem consecutive_skip {last number : ℤ} {dropped after : List ℤ}
    (h : Consecutive (last :: (dropped ++ number :: after))) :
    number = last + dropped.length + 1 ∧ Consecutive (number :: after) := by
  induction dropped generalizing last with
  | nil =>
    obtain ⟨hnext, hafter⟩ := List.isChain_cons_cons.mp h
    exact ⟨by simpa using hnext, hafter⟩
  | cons next dropped ih =>
    obtain ⟨hnext, hrest⟩ := List.isChain_cons_cons.mp h
    obtain ⟨hnumber, hafter⟩ := ih hrest
    refine ⟨?_, hafter⟩
    rw [hnumber, hnext, List.length_cons]
    push_cast
    ring

/-! ## A tracker -/

theorem Numbered.filter {observations : List Observed} (hnumbered : Numbered observations)
    (p : Observed → Bool) : Numbered (observations.filter p) :=
  fun observed hobserved => hnumbered observed (List.mem_of_mem_filter hobserved)

/-- The observations of a source and an asset, when there are some. -/
theorem exists_of_get_observeAll {source assetId : String} {observations : List Observed}
    {quality : SourceQuality}
    (hquality : (SourceQualityTracker.observeAll threshold observations).get source assetId =
      some quality) :
    ∃ first own, observations.filter (Observed.isOf source assetId) = first :: own ∧
      quality = own.foldl (SourceQuality.observe threshold)
        (SourceQuality.observe threshold { source := source, assetId := assetId } first) := by
  rw [SourceQualityTracker.get_observeAll] at hquality
  rcases hown : observations.filter (Observed.isOf source assetId) with _ | ⟨first, own⟩
  · rw [hown] at hquality
    cases hquality
  · rw [hown] at hquality
    exact ⟨first, own, rfl, (Option.some.inj hquality).symm⟩

/-- What is lost in a row is what the next number is ahead. -/
theorem sequenceGapCount_dropped {before dropped after : List Observed} {next : Observed}
    (hbefore : Numbered before) (hdropped : Numbered dropped) (hafter : Numbered (next :: after))
    (hlost : dropped ≠ []) {state : SourceQuality} {last : ℤ} (hlast : state.lastSequence = some last)
    (hconsecutive : Consecutive (last :: numbers (before ++ (dropped ++ next :: after)))) :
    ((before ++ next :: after).foldl (SourceQuality.observe threshold) state).sequenceGapCount =
      state.sequenceGapCount + dropped.length := by
  obtain ⟨number, hnumber⟩ := hafter next List.mem_cons_self
  have hnumbers : numbers (before ++ (dropped ++ next :: after)) =
      numbers before ++ (numbers dropped ++ number :: numbers after) := by
    rw [← numbers_cons hnumber, numbers, List.filterMap_append, List.filterMap_append]
    rfl
  rw [hnumbers] at hconsecutive
  obtain ⟨last', hlast', hsame, hrest⟩ := sameCounts_of_consecutive hbefore hlast hconsecutive
  obtain ⟨hskip, htail⟩ := consecutive_skip hrest
  rw [length_numbers hdropped] at hskip
  have hpos : 0 < dropped.length := List.length_pos_iff.mpr hlost
  obtain ⟨hcount, -, hnext⟩ := observe_gap threshold hlast' hnumber (by omega)
  rw [← List.append_nil (numbers after)] at htail
  obtain ⟨-, -, hlater, -⟩ := sameCounts_of_consecutive
    (fun other hother => hafter other (List.mem_cons_of_mem _ hother)) hnext htail
  rw [List.foldl_append, List.foldl_cons, hlater.1, hcount, hsame.1]
  omega

/-- The counts of a source and an asset are zero exactly when its numbers are consecutive. -/
theorem counts_eq_zero_iff {source assetId : String} {first : Observed} {own : List Observed}
    (hown : Numbered (first :: own)) :
    ((SourceQuality.ofObservations threshold source assetId (first :: own)).sequenceGapCount = 0 ∧
      (SourceQuality.ofObservations threshold source assetId (first :: own)).outOfOrderCount = 0) ↔
      Consecutive (numbers (first :: own)) := by
  obtain ⟨number, hnumber⟩ := hown first List.mem_cons_self
  have hrest : Numbered own := fun other hother => hown other (List.mem_cons_of_mem _ hother)
  obtain ⟨hfirst, hlast⟩ := observe_first threshold
    (rfl : ({ source := source, assetId := assetId } : SourceQuality).lastSequence = none) hnumber
  rw [numbers_cons hnumber]
  constructor
  · rintro ⟨hgap, horder⟩
    exact consecutive_of_sameCounts threshold hrest hlast
      ⟨hgap.trans hfirst.1.symm, horder.trans hfirst.2.symm⟩
  · intro hconsecutive
    rw [← List.append_nil (numbers own)] at hconsecutive
    obtain ⟨-, -, hsame, -⟩ := sameCounts_of_consecutive hrest hlast hconsecutive
    exact ⟨hsame.1.trans hfirst.1, hsame.2.trans hfirst.2⟩

/-- **When the gap count says what was lost.** -/
theorem showsLoss_iff (threshold : ℤ) {observations : List Observed}
    (hnumbered : Numbered observations) :
    ShowsLoss threshold observations ↔
      ∀ source assetId, Consecutive (numbersOf source assetId observations) := by
  constructor
  · intro h source assetId
    rw [numbersOf]
    rcases hobservations : observations.filter (Observed.isOf source assetId) with _ | ⟨first, own⟩
    · exact List.isChain_nil
    · have hown := hobservations ▸ hnumbered.filter (Observed.isOf source assetId)
      refine (counts_eq_zero_iff hown).mp (h.complete source assetId
        (SourceQuality.ofObservations threshold source assetId (first :: own)) ?_)
      rw [SourceQualityTracker.get_observeAll, hobservations]
  · intro h
    refine ⟨fun source assetId quality hquality => ?_, ?_⟩
    · obtain ⟨first, own, hobservations, rfl⟩ := exists_of_get_observeAll hquality
      have hown := hobservations ▸ hnumbered.filter (Observed.isOf source assetId)
      exact (counts_eq_zero_iff hown).mpr (hobservations ▸ h source assetId)
    · intro source assetId before dropped after kept quality hobservations hbefore hdropped hafter
        _ hkept hquality
      obtain ⟨first, before, rfl⟩ := List.exists_cons_of_ne_nil hbefore
      obtain ⟨next, after, rfl⟩ := List.exists_cons_of_ne_nil hafter
      have hown := hobservations ▸ hnumbered.filter (Observed.isOf source assetId)
      obtain ⟨first', rest, hfilter, rfl⟩ := exists_of_get_observeAll hquality
      obtain ⟨rfl, rfl⟩ := List.cons.inj (hkept.symm.trans hfilter)
      obtain ⟨number, hnumber⟩ := hown first List.mem_cons_self
      obtain ⟨hfirst, hlast⟩ := observe_first threshold
        (rfl : ({ source := source, assetId := assetId } : SourceQuality).lastSequence = none) hnumber
      have hconsecutive := h source assetId
      rw [numbersOf, hobservations, List.cons_append, numbers_cons hnumber] at hconsecutive
      refine (sequenceGapCount_dropped (fun other hother => hown other (by simp [hother]))
        (fun other hother => hown other (by simp [hother]))
        (fun other hother => hown other (by simp [List.mem_cons.mp hother])) hdropped hlast
        hconsecutive).trans ?_
      rw [hfirst.1]
      exact zero_add _

end Ingestion
end Scam2Market
