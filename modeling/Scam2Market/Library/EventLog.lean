import Mathlib.Data.List.Pairwise
import Mathlib.Data.List.Infix
import Mathlib.Order.Lattice
import Mathlib.Tactic.Common

/-!
# Logs with increasing keys

Entries are added at the end of a log under keys that increase, and old entries are cut off.

* `Increasing`; `lastKey`: the key of the last entry; `after key`: the entries beyond a key, and how it
  meets adding (`after_append`), reading on from an entry (`after_of_split`) and cutting
  (`after_eq_of_suffix`).
* `Follows`: what a reader has seen since a key, with no entry missing up to where it stands; it keeps
  following when an entry is added (`Follows.append`) and when it reads the next one (`Follows.next`).
-/

namespace Scam2Market
namespace Library

variable {κ α : Type*} [LinearOrder κ] {log : List (κ × α)} {key key' : κ} {entry : κ × α}

/-- The keys increase. -/
def Increasing (log : List (κ × α)) : Prop :=
  log.Pairwise fun a b => a.1 < b.1

/-- The entries beyond a key. -/
def after (key : κ) (log : List (κ × α)) : List (κ × α) :=
  log.filter fun entry => key < entry.1

/-- The key of the last entry, or the one before any. -/
def lastKey (start : κ) (log : List (κ × α)) : κ :=
  (log.getLast?.map Prod.fst).getD start

theorem mem_after : entry ∈ after key log ↔ entry ∈ log ∧ key < entry.1 := by
  rw [after, List.mem_filter, decide_eq_true_iff]

theorem after_append (log' : List (κ × α)) : after key (log ++ log') = after key log ++ after key log' :=
  List.filter_append log log'

theorem after_cons_of_lt (h : key < entry.1) : after key (entry :: log) = entry :: after key log :=
  List.filter_cons_of_pos (decide_eq_true h)

theorem after_cons_of_le (h : entry.1 ≤ key) : after key (entry :: log) = after key log :=
  List.filter_cons_of_neg (by rw [decide_eq_true_iff]; exact not_lt.mpr h)

theorem after_eq_nil (h : ∀ entry ∈ log, entry.1 ≤ key) : after key log = [] :=
  List.filter_eq_nil_iff.mpr fun entry hentry => by
    rw [decide_eq_true_iff]
    exact not_lt.mpr (h entry hentry)

theorem after_eq_self (h : ∀ entry ∈ log, key < entry.1) : after key log = log :=
  List.filter_eq_self.mpr fun entry hentry => decide_eq_true (h entry hentry)

/-- Entries that are not beyond a key can be passed over. -/
theorem after_dropWhile (key : κ) (log : List (κ × α)) :
    after key (log.dropWhile fun entry => entry.1 ≤ key) = after key log := by
  induction log with
  | nil => rfl
  | cons entry log ih =>
    rcases le_or_gt entry.1 key with hle | hlt
    · rw [List.dropWhile_cons, if_pos (decide_eq_true hle), ih, after_cons_of_le hle]
    · rw [List.dropWhile_cons, if_neg (by rw [decide_eq_true_iff]; exact not_le.mpr hlt)]

/-- Beyond a key that is beyond another. -/
theorem after_after (h : key ≤ key') : after key' (after key log) = after key' log := by
  rw [after, after, List.filter_filter]
  refine List.filter_congr fun entry _ => ?_
  by_cases hentry : key' < entry.1
  · simp [hentry, h.trans_lt hentry]
  · simp [hentry]

theorem Increasing.after (h : Increasing log) : Increasing (after key log) :=
  List.Pairwise.filter _ h

theorem Increasing.append (h : Increasing log) (hnew : ∀ other ∈ log, other.1 < entry.1) :
    Increasing (log ++ [entry]) := by
  refine List.pairwise_append.mpr ⟨h, List.pairwise_singleton _ _, fun other hother other' hother' => ?_⟩
  rw [List.mem_singleton.mp hother']
  exact hnew other hother

omit [LinearOrder κ] in
theorem lastKey_append (start : κ) : lastKey start (log ++ [entry]) = entry.1 := by
  rw [lastKey, List.getLast?_concat]
  rfl

/-- No key is beyond the last. -/
theorem Increasing.le_lastKey (h : Increasing log) (start : κ) :
    ∀ entry ∈ log, entry.1 ≤ lastKey start log := by
  rcases List.eq_nil_or_concat log with rfl | ⟨before, last, rfl⟩
  · exact fun _ h => absurd h List.not_mem_nil
  · intro entry hentry
    rw [List.concat_eq_append] at h hentry ⊢
    rw [lastKey_append]
    rcases List.mem_append.mp hentry with hbefore | hend
    · exact ((List.pairwise_append.mp h).2.2 entry hbefore last List.mem_cons_self).le
    · exact (List.mem_singleton.mp hend) ▸ le_rfl

/-- Whoever has read up to an entry goes on with what is beyond it. -/
theorem after_of_split {before rest : List (κ × α)} (h : Increasing (before ++ entry :: rest)) :
    Library.after entry.1 (before ++ entry :: rest) = rest := by
  obtain ⟨-, hrest, hbefore⟩ := List.pairwise_append.mp h
  rw [after_append, after_eq_nil fun other hother => (hbefore other hother entry List.mem_cons_self).le,
    List.nil_append, after_cons_of_le le_rfl,
    after_eq_self fun other hother => (List.pairwise_cons.mp hrest).1 other hother]

/-- When every entry beyond a key is kept, nothing beyond it is cut off. -/
theorem after_eq_of_suffix {kept : List (κ × α)} (h : Increasing log) (hsuffix : kept <:+ log)
    (hkept : ∀ entry ∈ log, key < entry.1 → entry ∈ kept) :
    Library.after key kept = Library.after key log := by
  obtain ⟨cut, rfl⟩ := hsuffix
  obtain ⟨-, -, hcut⟩ := List.pairwise_append.mp h
  have hnone : Library.after key cut = [] := by
    refine after_eq_nil fun entry hentry => not_lt.mp fun hlt => ?_
    have hmem : entry ∈ kept := hkept entry (List.mem_append_left _ hentry) hlt
    exact lt_irrefl _ (hcut entry hentry entry hmem)
  rw [after_append, hnone, List.nil_append]

/-! ## Readers -/

/-- A reader that has begun at `p` and stands at `key` has seen everything between. -/
structure Follows (start : κ) (log seen : List (κ × α)) (p key : κ) : Prop where
  le : p ≤ key
  known : key = p ∨ key ≤ lastKey start log
  seen_append : seen ++ Library.after key log = Library.after p log

namespace Follows

variable {start p : κ} {seen pending : List (κ × α)}

theorem begins (start : κ) (log : List (κ × α)) (p : κ) : Follows start log [] p p :=
  ⟨le_rfl, Or.inl rfl, rfl⟩

theorem isPrefix (h : Follows start log seen p key) : seen <+: Library.after p log :=
  ⟨_, h.seen_append⟩

/-- An entry is added at the end of the log. -/
theorem append (h : Follows start log seen p key) (hnew : lastKey start log < entry.1) :
    Follows start (log ++ [entry]) seen p key := by
  refine ⟨h.le, h.known.imp id fun hle => ?_, ?_⟩
  · rw [lastKey_append]
    exact hle.trans hnew.le
  · rw [after_append, after_append, ← List.append_assoc, h.seen_append]
    congr 1
    rcases lt_or_ge key entry.1 with hlt | hge
    · rw [after_cons_of_lt hlt, after_cons_of_lt (h.le.trans_lt hlt)]
      rfl
    · rcases h.known with rfl | hle
      · rfl
      · exact absurd (hge.trans hle) (not_le.mpr hnew)

/-- The reader takes the next entry. -/
theorem next (hlog : Increasing log) (h : Follows start log seen p key)
    (hnext : entry :: pending <+: Library.after key log) :
    Follows start log (seen ++ [entry]) p entry.1 ∧ pending <+: Library.after entry.1 log := by
  obtain ⟨rest, hrest⟩ := hnext
  have hmem : entry ∈ Library.after key log := hrest ▸ List.mem_cons_self
  obtain ⟨hin, hlt⟩ := mem_after.mp hmem
  have htail : Library.after entry.1 log = pending ++ rest := by
    rw [← after_after hlt.le, ← hrest, List.cons_append]
    have hincreasing : Increasing ([] ++ entry :: (pending ++ rest)) := by
      rw [List.nil_append, ← List.cons_append, hrest]
      exact hlog.after
    exact after_of_split hincreasing
  refine ⟨⟨h.le.trans hlt.le, Or.inr (hlog.le_lastKey start entry hin), ?_⟩, ?_⟩
  · rw [htail, List.append_assoc, List.singleton_append, ← List.cons_append, hrest, h.seen_append]
  · rw [htail]
    exact List.prefix_append _ _

end Follows
end Library
end Scam2Market
