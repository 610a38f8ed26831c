import Scam2Market.Library.Positions
import Mathlib.Algebra.Order.Ring.Int
import Mathlib.Data.List.Chain
import Mathlib.Data.List.Pairwise
import Mathlib.Tactic.Common

/-!
# Reading with a cursor

A loop over entries that have numbers.  An entry that is not newer than the cursor is skipped, any other one
is read, and the cursor is moved to it at once.  The loop stops at the first entry that is malformed.

* `readNew`: the loop; `newer?`: the entries it reads.
* `Whole`: no entry is malformed, and `exists_readNew_iff`: then the loop comes to an end.
* `Advances`: a new entry stands before the first malformed one, and `cursor_readNew_iff`: otherwise the
  cursor stays.
* `NumberedFrom`: the entries have consecutive numbers, and `consecutive_newer`: so have those that are read.
-/

namespace Scam2Market
namespace Library

/-- The number of an entry and what it says; either may be malformed. -/
structure CursorEntry (ε β : Type*) where
  number : Except ε ℤ
  content : Except ε β

variable {ε β : Type*}

/-- The loop: what it reads, and the cursor; `floor` stands for the cursor when there is none. -/
def readNew (floor : ℤ) (cursor : Option ℤ) :
    List (CursorEntry ε β) → Except ε (List (ℤ × β)) × Option ℤ
  | [] => (.ok [], cursor)
  | entry :: entries =>
    match entry.number with
    | .error error => (.error error, cursor)
    | .ok number =>
      if number ≤ cursor.getD floor then readNew floor cursor entries
      else
        match entry.content with
        | .error error => (.error error, cursor)
        | .ok content =>
          let rest := readNew floor (some number) entries
          (rest.1.map fun items => (number, content) :: items, rest.2)

namespace CursorEntry

variable {mark : ℤ} {entry : CursorEntry ε β} {entries : List (CursorEntry ε β)}

/-- The entry is not newer than the cursor. -/
def Old (mark : ℤ) (entry : CursorEntry ε β) : Prop :=
  ∃ number, entry.number = .ok number ∧ number ≤ mark

/-- What a well-formed entry says that is newer than the cursor. -/
def newer? (mark : ℤ) (entry : CursorEntry ε β) : Option (ℤ × β) :=
  match entry.number, entry.content with
  | .ok number, .ok content => if mark < number then some (number, content) else none
  | _, _ => none

/-- Every entry is old, or new and well-formed. -/
def Whole (mark : ℤ) (entries : List (CursorEntry ε β)) : Prop :=
  ∀ entry ∈ entries, entry.Old mark ∨ (entry.newer? mark).isSome

/-- A new entry stands before the first malformed one. -/
def Advances (mark : ℤ) (entries : List (CursorEntry ε β)) : Prop :=
  ∃ old entry rest, entries = old ++ entry :: rest ∧ (∀ entry ∈ old, entry.Old mark) ∧
    (entry.newer? mark).isSome

/-- The numbers rise. -/
def Rising (entries : List (CursorEntry ε β)) : Prop :=
  entries.Pairwise fun entry entry' => ∀ number number', entry.number = .ok number →
    entry'.number = .ok number' → number < number'

/-- The numbers are consecutive. -/
def NumberedFrom : ℤ → List (CursorEntry ε β) → Prop
  | _, [] => True
  | n, entry :: entries => (∀ number, entry.number = .ok number → number = n) ∧ NumberedFrom (n + 1) entries

theorem newer?_eq_some_iff {item : ℤ × β} :
    entry.newer? mark = some item ↔
      entry.number = .ok item.1 ∧ entry.content = .ok item.2 ∧ mark < item.1 := by
  unfold newer?
  rcases entry.number with error | number
  · simp
  rcases entry.content with error | content
  · simp
  simp only [Option.ite_none_right_eq_some, Except.ok.injEq]
  constructor
  · rintro ⟨hlt, ⟨⟩⟩
    exact ⟨rfl, rfl, hlt⟩
  · rintro ⟨rfl, rfl, hlt⟩
    exact ⟨hlt, rfl⟩

theorem Old.newer?_eq_none (h : entry.Old mark) : entry.newer? mark = none := by
  obtain ⟨number, hnumber, hle⟩ := h
  refine Option.eq_none_iff_forall_ne_some.mpr fun item hitem => ?_
  obtain ⟨hnumber', -, hlt⟩ := newer?_eq_some_iff.mp hitem
  rw [hnumber] at hnumber'
  cases hnumber'
  exact absurd hlt (not_lt_of_ge hle)

theorem isSome_newer?_iff :
    (entry.newer? mark).isSome ↔ ∃ number content, entry.number = .ok number ∧ entry.content = .ok content ∧
      mark < number := by
  rw [Option.isSome_iff_exists]
  constructor
  · rintro ⟨⟨number, content⟩, hitem⟩
    exact ⟨number, content, newer?_eq_some_iff.mp hitem⟩
  · rintro ⟨number, content, hitem⟩
    exact ⟨(number, content), newer?_eq_some_iff.mpr hitem⟩

/-- To an entry that is newer than both, two cursors are one. -/
theorem newer?_congr {mark' : ℤ} (h : ∀ number, entry.number = .ok number → mark < number)
    (h' : ∀ number, entry.number = .ok number → mark' < number) :
    entry.newer? mark = entry.newer? mark' := by
  ext item
  rw [newer?_eq_some_iff, newer?_eq_some_iff]
  constructor
  · exact fun hitem => ⟨hitem.1, hitem.2.1, h' _ hitem.1⟩
  · exact fun hitem => ⟨hitem.1, hitem.2.1, h _ hitem.1⟩

/-! ## The first entry -/

theorem advances_cons_of_old (hold : entry.Old mark) :
    Advances mark (entry :: entries) ↔ Advances mark entries := by
  constructor
  · rintro ⟨old, first, rest, hsplit, hall, hfirst⟩
    rcases old with _ | ⟨entry', old⟩
    · obtain ⟨rfl, rfl⟩ := List.cons_eq_cons.mp hsplit
      rw [hold.newer?_eq_none] at hfirst
      cases hfirst
    · obtain ⟨rfl, rfl⟩ := List.cons_eq_cons.mp hsplit
      exact ⟨old, first, rest, rfl, fun e he => hall e (List.mem_cons_of_mem _ he), hfirst⟩
  · rintro ⟨old, first, rest, rfl, hall, hfirst⟩
    exact ⟨entry :: old, first, rest, rfl, List.forall_mem_cons.mpr ⟨hold, hall⟩, hfirst⟩

theorem advances_cons_of_newer (hnew : (entry.newer? mark).isSome) : Advances mark (entry :: entries) :=
  ⟨[], entry, entries, rfl, fun _ h => (List.not_mem_nil h).elim, hnew⟩

theorem not_advances_cons (hold : ¬ entry.Old mark) (hnew : ¬ (entry.newer? mark).isSome) :
    ¬ Advances mark (entry :: entries) := by
  rintro ⟨old, first, rest, hsplit, hall, hfirst⟩
  rcases old with _ | ⟨entry', old⟩
  · obtain ⟨rfl, rfl⟩ := List.cons_eq_cons.mp hsplit
    exact hnew hfirst
  · obtain ⟨rfl, rfl⟩ := List.cons_eq_cons.mp hsplit
    exact hold (hall _ List.mem_cons_self)

theorem whole_cons :
    Whole mark (entry :: entries) ↔ (entry.Old mark ∨ (entry.newer? mark).isSome) ∧ Whole mark entries :=
  List.forall_mem_cons

theorem not_advances_nil : ¬ Advances mark ([] : List (CursorEntry ε β)) := by
  rintro ⟨old, first, rest, hsplit, -⟩
  exact absurd hsplit (List.append_ne_nil_of_right_ne_nil old (List.cons_ne_nil _ _)).symm

end CursorEntry

/-! ## The loop -/

section Loop

open CursorEntry

variable {floor number : ℤ} {cursor : Option ℤ} {entry : CursorEntry ε β}
  {entries : List (CursorEntry ε β)}

theorem readNew_cons_of_old (hold : entry.Old (cursor.getD floor)) :
    readNew floor cursor (entry :: entries) = readNew floor cursor entries := by
  obtain ⟨number, hnumber, hle⟩ := hold
  rw [readNew, hnumber]
  exact if_pos hle

theorem readNew_cons_of_newer {content : β} (h : entry.newer? (cursor.getD floor) = some (number, content)) :
    readNew floor cursor (entry :: entries) =
      ((readNew floor (some number) entries).1.map fun items => (number, content) :: items,
        (readNew floor (some number) entries).2) := by
  obtain ⟨hnumber, hcontent, hlt⟩ := newer?_eq_some_iff.mp h
  dsimp only at hnumber hcontent hlt
  rw [readNew, hnumber, hcontent]
  exact if_neg (not_le_of_gt hlt)

/-- The loop stops at a malformed entry, and leaves the cursor where it is. -/
theorem readNew_cons_of_malformed (entries : List (CursorEntry ε β)) (hold : ¬ entry.Old (cursor.getD floor))
    (hnew : ¬ (entry.newer? (cursor.getD floor)).isSome) :
    ∃ error, readNew floor cursor (entry :: entries) = (.error error, cursor) := by
  rw [readNew]
  rcases hnumber : entry.number with error | number
  · exact ⟨error, rfl⟩
  · have hlt : cursor.getD floor < number := not_le.mp fun hle => hold ⟨number, hnumber, hle⟩
    rcases hcontent : entry.content with error | content
    · exact ⟨error, if_neg (not_le_of_gt hlt)⟩
    · exact absurd (isSome_newer?_iff.mpr ⟨number, content, hnumber, hcontent, hlt⟩) hnew

/-- The cursor does not go back. -/
theorem le_cursor_readNew (floor number : ℤ) (entries : List (CursorEntry ε β)) :
    ∃ number', (readNew floor (some number) entries).2 = some number' ∧ number ≤ number' := by
  induction entries generalizing number with
  | nil => exact ⟨number, rfl, le_refl _⟩
  | cons entry entries ih =>
    by_cases hold : entry.Old ((some number).getD floor)
    · rw [readNew_cons_of_old hold]
      exact ih number
    by_cases hnew : (entry.newer? ((some number).getD floor)).isSome
    · obtain ⟨⟨next, content⟩, hitem⟩ := Option.isSome_iff_exists.mp hnew
      rw [readNew_cons_of_newer hitem]
      obtain ⟨number', hcursor, hle⟩ := ih next
      exact ⟨number', hcursor, (newer?_eq_some_iff.mp hitem).2.2.le.trans hle⟩
    · obtain ⟨error, heq⟩ := readNew_cons_of_malformed entries hold hnew
      rw [heq]
      exact ⟨number, rfl, le_refl _⟩

/-- **The cursor stays** exactly when no new entry stands before the first malformed one. -/
theorem cursor_readNew_iff :
    (readNew floor cursor entries).2 = cursor ↔ ¬ Advances (cursor.getD floor) entries := by
  induction entries with
  | nil => exact iff_of_true rfl not_advances_nil
  | cons entry entries ih =>
    by_cases hold : entry.Old (cursor.getD floor)
    · rw [readNew_cons_of_old hold, advances_cons_of_old hold]
      exact ih
    by_cases hnew : (entry.newer? (cursor.getD floor)).isSome
    · refine iff_of_false (fun hcursor => ?_) (not_not.mpr (advances_cons_of_newer hnew))
      obtain ⟨⟨number, content⟩, hitem⟩ := Option.isSome_iff_exists.mp hnew
      rw [readNew_cons_of_newer hitem] at hcursor
      obtain ⟨number', hnumber', hle⟩ := le_cursor_readNew floor number entries
      have hlt : cursor.getD floor < number := (newer?_eq_some_iff.mp hitem).2.2
      rw [← hcursor, hnumber'] at hlt
      exact absurd hlt (not_lt_of_ge hle)
    · refine iff_of_true ?_ (not_advances_cons hold hnew)
      obtain ⟨error, heq⟩ := readNew_cons_of_malformed entries hold hnew
      rw [heq]

/-- Behind an entry that is read, every well-formed entry is new, for the cursor before and the one after. -/
theorem newer_of_rising {number' : ℤ} (h : Rising (entry :: entries)) (hnumber : entry.number = .ok number)
    (hle : number' ≤ number) {other : CursorEntry ε β} (hother : other ∈ entries) :
    ¬ other.Old number' ∧ other.newer? number' = other.newer? number := by
  have hlt : ∀ next, other.number = .ok next → number < next := fun next hnext =>
    (List.pairwise_cons.mp h).1 other hother number next hnumber hnext
  refine ⟨?_, newer?_congr (fun next hnext => hle.trans_lt (hlt next hnext)) hlt⟩
  rintro ⟨next, hnext, hold⟩
  exact absurd (hle.trans_lt (hlt next hnext)) (not_lt_of_ge hold)

theorem whole_of_rising {number' : ℤ} (h : Rising (entry :: entries)) (hnumber : entry.number = .ok number)
    (hle : number' ≤ number) : Whole number' entries ↔ Whole number entries := by
  refine forall₂_congr fun other hother => ?_
  obtain ⟨hold', hnewer⟩ := newer_of_rising h hnumber hle hother
  obtain ⟨hold, -⟩ := newer_of_rising h hnumber le_rfl hother
  rw [hnewer, or_iff_right hold', or_iff_right hold]

/-- **What the loop reads.** -/
theorem readNew_of_whole (h : Rising entries) (hwhole : Whole (cursor.getD floor) entries) :
    readNew floor cursor entries = (.ok (entries.filterMap (newer? (cursor.getD floor))),
      ((entries.filterMap (newer? (cursor.getD floor))).getLast?.map Prod.fst).or cursor) := by
  induction entries generalizing cursor with
  | nil => rfl
  | cons entry entries ih =>
    obtain ⟨hfirst, hrest⟩ := whole_cons.mp hwhole
    have htail : Rising entries := (List.pairwise_cons.mp h).2
    by_cases hold : entry.Old (cursor.getD floor)
    · rw [readNew_cons_of_old hold, List.filterMap_cons_none hold.newer?_eq_none]
      exact ih htail hrest
    · obtain ⟨⟨number, content⟩, hitem⟩ := Option.isSome_iff_exists.mp (hfirst.resolve_left hold)
      obtain ⟨hnumber, -, hlt⟩ := newer?_eq_some_iff.mp hitem
      have hsame : entries.filterMap (newer? (cursor.getD floor)) = entries.filterMap (newer? number) :=
        List.filterMap_congr fun other hother => (newer_of_rising h hnumber hlt.le hother).2
      have hrest' : Whole ((some number).getD floor) entries := (whole_of_rising h hnumber hlt.le).mp hrest
      have hread := ih htail hrest'
      rw [readNew_cons_of_newer hitem, hread, List.filterMap_cons_some hitem, hsame, List.getLast?_cons]
      refine Prod.ext rfl ?_
      show ((entries.filterMap (newer? number)).getLast?.map Prod.fst).or (some number) = _
      rcases (entries.filterMap (newer? number)).getLast? with _ | last
      · rfl
      · rfl

theorem readNew_of_not_whole (h : Rising entries) (hwhole : ¬ Whole (cursor.getD floor) entries) :
    ∃ error, (readNew floor cursor entries).1 = .error error := by
  induction entries generalizing cursor with
  | nil => exact absurd (fun _ hmem => (List.not_mem_nil hmem).elim) hwhole
  | cons entry entries ih =>
    have htail : Rising entries := (List.pairwise_cons.mp h).2
    by_cases hold : entry.Old (cursor.getD floor)
    · rw [readNew_cons_of_old hold]
      exact ih htail fun hrest => hwhole (whole_cons.mpr ⟨Or.inl hold, hrest⟩)
    by_cases hnew : (entry.newer? (cursor.getD floor)).isSome
    · obtain ⟨⟨number, content⟩, hitem⟩ := Option.isSome_iff_exists.mp hnew
      obtain ⟨hnumber, -, hlt⟩ := newer?_eq_some_iff.mp hitem
      have hrest' : ¬ Whole ((some number).getD floor) entries := fun hrest =>
        hwhole (whole_cons.mpr ⟨Or.inr hnew, (whole_of_rising h hnumber hlt.le).mpr hrest⟩)
      obtain ⟨error, herror⟩ := ih htail hrest'
      rw [readNew_cons_of_newer hitem, herror]
      exact ⟨error, rfl⟩
    · obtain ⟨error, heq⟩ := readNew_cons_of_malformed entries hold hnew
      rw [heq]
      exact ⟨error, rfl⟩

/-! ## Numbers -/

theorem CursorEntry.NumberedFrom.le_of_mem {n : ℤ} (h : NumberedFrom n entries) {entry : CursorEntry ε β}
    (hentry : entry ∈ entries) {number : ℤ} (hnumber : entry.number = .ok number) : n ≤ number := by
  induction entries generalizing n with
  | nil => exact (List.not_mem_nil hentry).elim
  | cons first entries ih =>
    rcases List.mem_cons.mp hentry with rfl | hentry
    · exact (h.1 number hnumber).ge
    · exact (lt_add_one n).le.trans (ih h.2 hentry)

theorem CursorEntry.NumberedFrom.rising {n : ℤ} (h : NumberedFrom n entries) : Rising entries := by
  induction entries generalizing n with
  | nil => exact List.Pairwise.nil
  | cons first entries ih =>
    refine List.pairwise_cons.mpr ⟨fun other hother number number' hnumber hnumber' => ?_, ih h.2⟩
    rw [h.1 number hnumber]
    exact (lt_add_one n).trans_le (h.2.le_of_mem hother hnumber')

/-- **What is read has consecutive numbers**, from the first number on if that is newer than the cursor. -/
theorem consecutive_newer {n : ℤ} {mark : ℤ} (h : NumberedFrom n entries) (hwhole : Whole mark entries) :
    Consecutive ((entries.filterMap (newer? mark)).map Prod.fst) ∧
      (mark < n → Consecutive ((n - 1) :: (entries.filterMap (newer? mark)).map Prod.fst)) := by
  induction entries generalizing n with
  | nil => exact ⟨List.isChain_nil, fun _ => List.isChain_singleton _⟩
  | cons entry entries ih =>
    obtain ⟨hfirst, hrest⟩ := whole_cons.mp hwhole
    obtain ⟨hchain, hchain'⟩ := ih h.2 hrest
    rcases hfirst with hold | hnew
    · rw [List.filterMap_cons_none hold.newer?_eq_none]
      refine ⟨hchain, fun hlt => ?_⟩
      obtain ⟨number, hnumber, hle⟩ := hold
      rw [h.1 number hnumber] at hle
      exact absurd hlt (not_lt_of_ge hle)
    · obtain ⟨⟨number, content⟩, hitem⟩ := Option.isSome_iff_exists.mp hnew
      obtain ⟨hnumber, -, hlt⟩ := newer?_eq_some_iff.mp hitem
      obtain rfl : number = n := h.1 number hnumber
      rw [List.filterMap_cons_some hitem, List.map_cons]
      have hrest' := hchain' (hlt.trans (lt_add_one _))
      rw [add_sub_cancel_right] at hrest'
      exact ⟨hrest', fun _ => List.isChain_cons_cons.mpr ⟨(sub_add_cancel _ _).symm, hrest'⟩⟩

/-- What is read is newer than the cursor, and rises. -/
theorem isChain_newer {mark : ℤ} (h : Rising entries) :
    (mark :: (entries.filterMap (newer? mark)).map Prod.fst).IsChain (· < ·) := by
  rw [List.isChain_iff_pairwise, List.pairwise_cons]
  constructor
  · intro number hnumber
    obtain ⟨item, hitem, rfl⟩ := List.mem_map.mp hnumber
    obtain ⟨entry, -, hnewer⟩ := List.mem_filterMap.mp hitem
    exact (newer?_eq_some_iff.mp hnewer).2.2
  · rw [List.pairwise_map, List.pairwise_filterMap]
    refine h.imp fun hlt item hitem item' hitem' => ?_
    exact hlt _ _ (newer?_eq_some_iff.mp hitem).1 (newer?_eq_some_iff.mp hitem').1

/-- What was read before ends at the cursor, and what is read now goes on from it. -/
theorem isChain_append_of_cursor {R : ℤ → ℤ → Prop} {numbers numbers' : List ℤ} (h : numbers.IsChain R)
    (hcursor : numbers.getLast? = cursor) (h' : numbers'.IsChain R)
    (hnext : ∀ last, cursor = some last → (last :: numbers').IsChain R) : (numbers ++ numbers').IsChain R := by
  refine List.isChain_append.mpr ⟨h, h', fun last hlast next hnumber => ?_⟩
  have hchain := hnext last (hcursor.symm.trans hlast)
  rcases numbers' with _ | ⟨first, rest⟩
  · cases hnumber
  · cases hnumber
    exact (List.isChain_cons_cons.mp hchain).1

end Loop

end Library
end Scam2Market
