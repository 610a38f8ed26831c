import Mathlib.Data.List.Induction
import Mathlib.Data.List.Nodup
import Mathlib.Data.List.Sort

/-!
# Insertion-ordered dictionaries

A dictionary that iterates in the order in which its keys were first written: an association list
without repeated keys.  Writing to a key that is present replaces its value in place, writing to a
new key appends.

* `OrderedDict.get?`, `set`, `getD`: reading and writing, with `get?_set_self` and `get?_set_of_ne`.
* `OrderedDict.keys_set`: the order of the keys, and `mem_entries_iff`: the items are the bindings.
* `OrderedDict.restrict`: the part of a dictionary over the keys of a predicate.  Reading a kept key
  does not see the restriction (`get?_restrict`), a write to a kept key commutes with it
  (`restrict_set_of_pos`) and a write elsewhere is invisible (`restrict_set_of_neg`).
* `OrderedDict.ofEntries`: writing the items of a list one after the other, the last value winning;
  it rebuilds a dictionary from its items (`ofEntries_entries`), tabulates a function
  (`get?_ofEntries_map`), and holds nothing else (`mem_of_get?_ofEntries`).
* `OrderedDict.Related`: the same keys in the same order, with related values.
-/

namespace Scam2Market
namespace Library

/-- A dictionary in insertion order: items with pairwise distinct keys. -/
structure OrderedDict (α β : Type*) where
  entries : List (α × β)
  nodup : (entries.map Prod.fst).Nodup

namespace OrderedDict

variable {α β : Type*}

theorem ext {d e : OrderedDict α β} (h : d.entries = e.entries) : d = e := by
  cases d
  cases e
  congr

/-- The dictionary without keys. -/
def empty : OrderedDict α β :=
  ⟨[], List.nodup_nil⟩

/-- The keys, in insertion order. -/
def keys (d : OrderedDict α β) : List α :=
  d.entries.map Prod.fst

@[simp] theorem entries_empty : (empty : OrderedDict α β).entries = [] := rfl

@[simp] theorem keys_empty : (empty : OrderedDict α β).keys = [] := rfl

theorem nodup_keys (d : OrderedDict α β) : d.keys.Nodup :=
  d.nodup

section Access

variable [DecidableEq α]

/-- The first value bound to a key in a list of items. -/
def assocGet? (k : α) : List (α × β) → Option β
  | [] => none
  | e :: l => if e.1 = k then some e.2 else assocGet? k l

/-- Replace the value of a key in place, or append it. -/
def assocSet (k : α) (v : β) : List (α × β) → List (α × β)
  | [] => [(k, v)]
  | e :: l => if e.1 = k then (k, v) :: l else e :: assocSet k v l

theorem map_fst_assocSet (k : α) (v : β) (l : List (α × β)) :
    (assocSet k v l).map Prod.fst =
      if k ∈ l.map Prod.fst then l.map Prod.fst else l.map Prod.fst ++ [k] := by
  induction l with
  | nil => simp [assocSet]
  | cons e l ih =>
    by_cases h : e.1 = k
    · simp [assocSet, h]
    · have h' : k ≠ e.1 := fun hk => h hk.symm
      by_cases hk : k ∈ l.map Prod.fst
      · simp [assocSet, h, ih, hk]
      · simp [assocSet, h, h', ih, hk]

theorem nodup_assocSet (k : α) (v : β) {l : List (α × β)} (h : (l.map Prod.fst).Nodup) :
    ((assocSet k v l).map Prod.fst).Nodup := by
  rw [map_fst_assocSet]
  split_ifs with hk
  · exact h
  · exact List.nodup_append.mpr ⟨h, List.nodup_singleton k, fun a ha b hb hab => by
      rw [List.mem_singleton] at hb
      exact hk (hb ▸ hab ▸ ha)⟩

/-- The value bound to a key. -/
def get? (d : OrderedDict α β) (k : α) : Option β :=
  assocGet? k d.entries

/-- The value bound to a key, or a default. -/
def getD (d : OrderedDict α β) (k : α) (v : β) : β :=
  (d.get? k).getD v

/-- Bind a key to a value. -/
def set (d : OrderedDict α β) (k : α) (v : β) : OrderedDict α β :=
  ⟨assocSet k v d.entries, nodup_assocSet k v d.nodup⟩

@[simp] theorem get?_empty (k : α) : (empty : OrderedDict α β).get? k = none := rfl

@[simp] theorem getD_empty (k : α) (v : β) : (empty : OrderedDict α β).getD k v = v := rfl

theorem getD_of_get?_eq_some {d : OrderedDict α β} {k : α} {v w : β} (h : d.get? k = some v) :
    d.getD k w = v := by
  rw [getD, h, Option.getD_some]

@[simp] theorem get?_set_self (d : OrderedDict α β) (k : α) (v : β) :
    (d.set k v).get? k = some v := by
  obtain ⟨l, hl⟩ := d
  show assocGet? k (assocSet k v l) = some v
  clear hl
  induction l with
  | nil => simp [assocSet, assocGet?]
  | cons e l ih =>
    by_cases h : e.1 = k
    · simp [assocSet, assocGet?, h]
    · simp [assocSet, assocGet?, h, ih]

theorem get?_set_of_ne (d : OrderedDict α β) {k k' : α} (v : β) (h : k' ≠ k) :
    (d.set k v).get? k' = d.get? k' := by
  obtain ⟨l, hl⟩ := d
  show assocGet? k' (assocSet k v l) = assocGet? k' l
  clear hl
  induction l with
  | nil => simp [assocSet, assocGet?, h.symm]
  | cons e l ih =>
    by_cases he : e.1 = k
    · simp [assocSet, assocGet?, he, h.symm]
    · simp [assocSet, assocGet?, he, ih]

theorem get?_set (d : OrderedDict α β) (k k' : α) (v : β) :
    (d.set k v).get? k' = if k' = k then some v else d.get? k' := by
  by_cases h : k' = k
  · rw [if_pos h, h, get?_set_self]
  · rw [if_neg h, get?_set_of_ne d v h]

@[simp] theorem getD_set_self (d : OrderedDict α β) (k : α) (v w : β) :
    (d.set k v).getD k w = v :=
  getD_of_get?_eq_some (get?_set_self d k v)

theorem getD_set_of_ne (d : OrderedDict α β) {k k' : α} (v w : β) (h : k' ≠ k) :
    (d.set k v).getD k' w = d.getD k' w := by
  rw [getD, getD, get?_set_of_ne d v h]

/-- Writing what is there changes nothing. -/
theorem set_of_get?_eq_some {d : OrderedDict α β} {k : α} {v : β} (h : d.get? k = some v) :
    d.set k v = d := by
  obtain ⟨l, hl⟩ := d
  apply ext
  show assocSet k v l = l
  change assocGet? k l = some v at h
  clear hl
  induction l with
  | nil => exact absurd h (by simp [assocGet?])
  | cons e l ih =>
    by_cases he : e.1 = k
    · rw [assocGet?, if_pos he] at h
      rw [assocSet, if_pos he, ← Option.some.inj h, ← he]
    · rw [assocGet?, if_neg he] at h
      rw [assocSet, if_neg he, ih h]

theorem keys_set (d : OrderedDict α β) (k : α) (v : β) :
    (d.set k v).keys = if k ∈ d.keys then d.keys else d.keys ++ [k] :=
  map_fst_assocSet k v d.entries

theorem mem_keys_set {d : OrderedDict α β} {k k' : α} {v : β} :
    k' ∈ (d.set k v).keys ↔ k' ∈ d.keys ∨ k' = k := by
  rw [keys_set]
  split_ifs with h
  · exact ⟨Or.inl, fun h' => h'.elim id fun hk => hk ▸ h⟩
  · rw [List.mem_append, List.mem_singleton]

/-- The items of a dictionary are its bindings. -/
theorem mem_entries_iff {d : OrderedDict α β} {k : α} {v : β} :
    (k, v) ∈ d.entries ↔ d.get? k = some v := by
  obtain ⟨l, hl⟩ := d
  show (k, v) ∈ l ↔ assocGet? k l = some v
  induction l with
  | nil => simp [assocGet?]
  | cons e l ih =>
    rw [List.map_cons, List.nodup_cons] at hl
    rw [List.mem_cons, ih hl.2]
    by_cases h : e.1 = k
    · have hnone : assocGet? k l ≠ some v := fun hs =>
        hl.1 (h ▸ List.mem_map_of_mem (f := Prod.fst) ((ih hl.2).mpr hs))
      simp only [assocGet?, h, if_true, Option.some.injEq, hnone, or_false]
      constructor
      · rintro rfl
        rfl
      · rintro rfl
        rw [← h]
    · have hne : (k, v) ≠ e := fun he => h (he ▸ rfl)
      simp [assocGet?, h, hne]

theorem mem_keys_iff {d : OrderedDict α β} {k : α} : k ∈ d.keys ↔ ∃ v, d.get? k = some v := by
  rw [keys, List.mem_map]
  constructor
  · rintro ⟨⟨k', v⟩, hmem, rfl⟩
    exact ⟨v, mem_entries_iff.mp hmem⟩
  · rintro ⟨v, hv⟩
    exact ⟨(k, v), mem_entries_iff.mpr hv, rfl⟩

theorem get?_eq_none_iff {d : OrderedDict α β} {k : α} : d.get? k = none ↔ k ∉ d.keys := by
  rw [mem_keys_iff, Option.eq_none_iff_forall_ne_some]
  exact ⟨fun h ⟨v, hv⟩ => h v hv, fun h v hv => h ⟨v, hv⟩⟩

theorem mem_values_iff {d : OrderedDict α β} {v : β} :
    v ∈ d.entries.map Prod.snd ↔ ∃ k, d.get? k = some v := by
  rw [List.mem_map]
  constructor
  · rintro ⟨⟨k, w⟩, hmem, rfl⟩
    exact ⟨k, mem_entries_iff.mp hmem⟩
  · rintro ⟨k, hk⟩
    exact ⟨(k, v), mem_entries_iff.mpr hk, rfl⟩

/-- A query for values that only the value of one key satisfies. -/
theorem filter_values_eq {d : OrderedDict α β} {k : α} {p : β → Bool}
    (h : ∀ k' v, d.get? k' = some v → (p v = true ↔ k' = k)) :
    (d.entries.map Prod.snd).filter p = (d.get? k).toList := by
  have hother : ∀ l : List (α × β), l ⊆ d.entries → k ∉ l.map Prod.fst →
      (l.map Prod.snd).filter p = [] := by
    intro l hl hk
    refine List.filter_eq_nil_iff.mpr fun v hv hp => ?_
    obtain ⟨⟨k', w⟩, hmem, rfl⟩ := List.mem_map.mp hv
    have hkey : k' = k := (h k' w (mem_entries_iff.mp (hl hmem))).mp hp
    exact hk (hkey ▸ List.mem_map_of_mem (f := Prod.fst) hmem)
  cases hget : d.get? k with
  | none => exact hother d.entries (List.Subset.refl _) (get?_eq_none_iff.mp hget)
  | some v =>
    obtain ⟨before, after, hsplit⟩ := List.append_of_mem (mem_entries_iff.mpr hget)
    have hnodup := d.nodup
    rw [hsplit, List.map_append, List.map_cons] at hnodup
    obtain ⟨-, htail, hdisjoint⟩ := List.nodup_append.mp hnodup
    have hbefore : k ∉ before.map Prod.fst := fun hk =>
      hdisjoint k hk k List.mem_cons_self rfl
    have hsub : ∀ e, e ∈ before ∨ e ∈ after → e ∈ d.entries := by
      intro e he
      rw [hsplit, List.mem_append, List.mem_cons]
      exact he.imp_right Or.inr
    rw [hsplit, List.map_append, List.filter_append, List.map_cons,
      List.filter_cons_of_pos ((h k v hget).mpr rfl),
      hother before (fun e he => hsub e (Or.inl he)) hbefore,
      hother after (fun e he => hsub e (Or.inr he)) (List.nodup_cons.mp htail).1]
    rfl

theorem find?_values_eq {d : OrderedDict α β} {k : α} {p : β → Bool}
    (h : ∀ k' v, d.get? k' = some v → (p v = true ↔ k' = k)) :
    (d.entries.map Prod.snd).find? p = d.get? k := by
  rw [← List.head?_filter, filter_values_eq h, Option.head?_toList]

end Access

/-! ## Restriction to a set of keys -/

section Restrict

variable (p : α → Bool)

/-- The part of a dictionary whose keys satisfy `p`. -/
def restrict (d : OrderedDict α β) : OrderedDict α β :=
  ⟨d.entries.filter fun e => p e.1, d.nodup.sublist (List.filter_sublist.map Prod.fst)⟩

@[simp] theorem entries_restrict (d : OrderedDict α β) :
    (d.restrict p).entries = d.entries.filter fun e => p e.1 := rfl

theorem keys_restrict (d : OrderedDict α β) : (d.restrict p).keys = d.keys.filter p := by
  show (d.entries.filter fun e => p e.1).map Prod.fst = (d.entries.map Prod.fst).filter p
  rw [List.filter_map]
  rfl

variable [DecidableEq α] {p}

theorem get?_restrict (d : OrderedDict α β) {k : α} (h : p k = true) :
    (d.restrict p).get? k = d.get? k := by
  obtain ⟨l, hl⟩ := d
  show assocGet? k (l.filter fun e => p e.1) = assocGet? k l
  clear hl
  induction l with
  | nil => rfl
  | cons e l ih =>
    by_cases he : e.1 = k
    · have hp : p e.1 = true := he ▸ h
      rw [List.filter_cons_of_pos (by simpa using hp)]
      simp [assocGet?, he]
    · by_cases hp : p e.1 = true
      · rw [List.filter_cons_of_pos (by simpa using hp)]
        simp [assocGet?, he, ih]
      · rw [List.filter_cons_of_neg (by simpa using hp), ih]
        simp [assocGet?, he]

theorem getD_restrict (d : OrderedDict α β) {k : α} (v : β) (h : p k = true) :
    (d.restrict p).getD k v = d.getD k v := by
  rw [getD, getD, get?_restrict d h]

theorem restrict_set_of_pos (d : OrderedDict α β) {k : α} (v : β) (h : p k = true) :
    (d.set k v).restrict p = (d.restrict p).set k v := by
  obtain ⟨l, hl⟩ := d
  apply ext
  show (assocSet k v l).filter (fun e => p e.1) = assocSet k v (l.filter fun e => p e.1)
  clear hl
  induction l with
  | nil => simp [assocSet, h]
  | cons e l ih =>
    by_cases he : e.1 = k
    · have hp : p e.1 = true := he ▸ h
      simp [assocSet, he, h]
    · by_cases hp : p e.1 = true
      · simp [assocSet, he, hp, ih]
      · simp [assocSet, he, hp, ih]

theorem restrict_set_of_neg (d : OrderedDict α β) {k : α} (v : β) (h : p k = false) :
    (d.set k v).restrict p = d.restrict p := by
  obtain ⟨l, hl⟩ := d
  apply ext
  show (assocSet k v l).filter (fun e => p e.1) = l.filter fun e => p e.1
  clear hl
  induction l with
  | nil => simp [assocSet, h]
  | cons e l ih =>
    by_cases he : e.1 = k
    · have hp : p e.1 = false := he ▸ h
      simp [assocSet, he, h]
    · simp [assocSet, he, List.filter_cons, ih]

end Restrict

/-! ## Writing a list of items -/

section OfEntries

variable [DecidableEq α]

/-- Write the items of a list one after the other. -/
def ofEntries (l : List (α × β)) : OrderedDict α β :=
  l.foldl (fun d e => d.set e.1 e.2) empty

theorem get?_foldl_set_of_not_mem {l : List (α × β)} {k : α} (h : k ∉ l.map Prod.fst)
    (d : OrderedDict α β) : (l.foldl (fun d e => d.set e.1 e.2) d).get? k = d.get? k := by
  induction l generalizing d with
  | nil => rfl
  | cons e l ih =>
    rw [List.map_cons, List.mem_cons, not_or] at h
    rw [List.foldl_cons, ih h.2, get?_set_of_ne d e.2 h.1]

/-- What is read after a key was written does not depend on what was there. -/
theorem get?_foldl_set_of_mem {l : List (α × β)} {k : α} (h : k ∈ l.map Prod.fst) :
    ∃ v, (k, v) ∈ l ∧
      ∀ d : OrderedDict α β, (l.foldl (fun d e => d.set e.1 e.2) d).get? k = some v := by
  induction l with
  | nil => exact absurd h List.not_mem_nil
  | cons e l ih =>
    by_cases hl : k ∈ l.map Prod.fst
    · obtain ⟨v, hmem, hget⟩ := ih hl
      exact ⟨v, List.mem_cons_of_mem e hmem, fun d => hget (d.set e.1 e.2)⟩
    · have hk : k = e.1 := (List.mem_cons.mp h).resolve_right hl
      refine ⟨e.2, List.mem_cons.mpr (Or.inl (by rw [hk])), fun d => ?_⟩
      rw [List.foldl_cons, get?_foldl_set_of_not_mem hl, hk, get?_set_self]

theorem assocSet_of_not_mem {k : α} (v : β) {l : List (α × β)} (h : k ∉ l.map Prod.fst) :
    assocSet k v l = l ++ [(k, v)] := by
  induction l with
  | nil => rfl
  | cons e l ih =>
    rw [List.map_cons, List.mem_cons, not_or] at h
    rw [assocSet, if_neg fun he => h.1 he.symm, ih h.2, List.cons_append]

theorem entries_foldl_set (d : OrderedDict α β) (l : List (α × β))
    (h : ((d.entries ++ l).map Prod.fst).Nodup) :
    (l.foldl (fun d e => d.set e.1 e.2) d).entries = d.entries ++ l := by
  induction l generalizing d with
  | nil => simp
  | cons e l ih =>
    have hset : (d.set e.1 e.2).entries = d.entries ++ [e] := by
      refine assocSet_of_not_mem e.2 fun hmem => ?_
      rw [List.map_append, List.map_cons] at h
      exact (List.nodup_append.mp h).2.2 e.1 hmem e.1 List.mem_cons_self rfl
    rw [List.foldl_cons, ih (d.set e.1 e.2) (by rw [hset]; simpa using h), hset]
    simp

/-- Items with distinct keys are the items of their dictionary. -/
theorem entries_ofEntries {l : List (α × β)} (h : (l.map Prod.fst).Nodup) :
    (ofEntries l).entries = l := by
  rw [ofEntries, entries_foldl_set _ _ (by simpa using h), entries_empty, List.nil_append]

/-- A dictionary is rebuilt from its items. -/
theorem ofEntries_entries (d : OrderedDict α β) : ofEntries d.entries = d :=
  ext (entries_ofEntries d.nodup)

/-- What is read is what was written last, if anything was. -/
theorem get?_foldl_set (l : List (α × β)) (d : OrderedDict α β) (k : α) :
    (l.foldl (fun d e => d.set e.1 e.2) d).get? k =
      ((l.filter fun e => e.1 = k).getLast?.map Prod.snd).or (d.get? k) := by
  induction l using List.reverseRecOn with
  | nil => rfl
  | append_singleton l e ih =>
    rw [List.foldl_append, List.foldl_cons, List.foldl_nil, get?_set, List.filter_append,
      List.filter_singleton]
    by_cases hk : k = e.1
    · rw [if_pos hk, decide_eq_true hk.symm]
      simp
    · rw [if_neg hk, decide_eq_false (Ne.symm hk), ih]
      simp

theorem get?_foldl_set_map (f : α → β) (l : List α) (d : OrderedDict α β) (k : α) :
    ((l.map fun a => (a, f a)).foldl (fun d e => d.set e.1 e.2) d).get? k =
      if k ∈ l then some (f k) else d.get? k := by
  induction l generalizing d with
  | nil => rfl
  | cons a l ih =>
    rw [List.map_cons, List.foldl_cons, ih, get?_set]
    by_cases hk : k ∈ l
    · rw [if_pos hk, if_pos (List.mem_cons_of_mem a hk)]
    · by_cases hka : k = a
      · rw [if_neg hk, if_pos hka, if_pos (hka ▸ List.mem_cons_self), hka]
      · have hmem : k ∉ a :: l := by
          rw [List.mem_cons]
          exact not_or.mpr ⟨hka, hk⟩
        rw [if_neg hk, if_neg hka, if_neg hmem]

/-- The dictionary that binds each key of a list to its value under a function. -/
theorem get?_ofEntries_map (f : α → β) (l : List α) (k : α) :
    (ofEntries (l.map fun a => (a, f a))).get? k = if k ∈ l then some (f k) else none :=
  get?_foldl_set_map f l empty k

/-- What is read back was written. -/
theorem mem_of_get?_ofEntries {l : List (α × β)} {k : α} {v : β}
    (h : (ofEntries l).get? k = some v) : (k, v) ∈ l := by
  have hfold : ∀ (l : List (α × β)) (d : OrderedDict α β),
      (l.foldl (fun d e => d.set e.1 e.2) d).get? k = some v →
        (k, v) ∈ l ∨ d.get? k = some v := by
    intro l
    induction l with
    | nil => exact fun d hd => Or.inr hd
    | cons e l ih =>
      intro d hd
      rcases ih (d.set e.1 e.2) hd with hmem | hset
      · exact Or.inl (List.mem_cons_of_mem e hmem)
      · rw [get?_set] at hset
        split_ifs at hset with hk
        · refine Or.inl (List.mem_cons.mpr (Or.inl ?_))
          rw [hk, ← Option.some.inj hset]
        · exact Or.inr hset
  rcases hfold l empty h with hmem | hempty
  · exact hmem
  · exact absurd hempty (by rw [get?_empty]; simp)

theorem length_entries_set_le (d : OrderedDict α β) (k : α) (v : β) :
    (d.set k v).entries.length ≤ d.entries.length + 1 := by
  have hlen : ∀ e : OrderedDict α β, e.entries.length = e.keys.length := fun e =>
    (List.length_map Prod.fst).symm
  rw [hlen, hlen, keys_set]
  split_ifs
  · omega
  · rw [List.length_append, List.length_singleton]

/-- A dictionary has at most as many items as were written. -/
theorem length_ofEntries_le (l : List (α × β)) : (ofEntries l).entries.length ≤ l.length := by
  have hfold : ∀ (l : List (α × β)) (d : OrderedDict α β),
      (l.foldl (fun d e => d.set e.1 e.2) d).entries.length ≤ d.entries.length + l.length := by
    intro l
    induction l with
    | nil => exact fun d => le_rfl
    | cons e l ih =>
      intro d
      have h1 := ih (d.set e.1 e.2)
      have h2 := length_entries_set_le d e.1 e.2
      rw [List.foldl_cons, List.length_cons]
      omega
  have h := hfold l empty
  rw [entries_empty, List.length_nil] at h
  rw [ofEntries]
  omega

/-- The keys do not depend on what is written to them. -/
theorem keys_ofEntries_map_congr {γ : Type*} (f : α → β) (g : α → γ) (l : List α) :
    (ofEntries (l.map fun a => (a, f a))).keys = (ofEntries (l.map fun a => (a, g a))).keys := by
  have hfold : ∀ (l : List α) (d : OrderedDict α β) (e : OrderedDict α γ), d.keys = e.keys →
      ((l.map fun a => (a, f a)).foldl (fun d e => d.set e.1 e.2) d).keys =
        ((l.map fun a => (a, g a)).foldl (fun d e => d.set e.1 e.2) e).keys := by
    intro l
    induction l with
    | nil => exact fun _ _ h => h
    | cons a l ih =>
      intro d e h
      refine ih (d.set a (f a)) (e.set a (g a)) ?_
      rw [keys_set, keys_set, h]
  exact hfold l empty empty rfl

end OfEntries

/-! ## Related dictionaries -/

section Related

variable {γ : Type*} {R : β → γ → Prop}

/-- Items with the same key and related values. -/
def RelatedItems (R : β → γ → Prop) (item : α × β) (item' : α × γ) : Prop :=
  item.1 = item'.1 ∧ R item.2 item'.2

/-- The same keys in the same order, with related values. -/
def Related (R : β → γ → Prop) (d : OrderedDict α β) (e : OrderedDict α γ) : Prop :=
  List.Forall₂ (RelatedItems R) d.entries e.entries

variable [DecidableEq α] {d : OrderedDict α β} {e : OrderedDict α γ}

theorem Related.set (h : Related R d e) (k : α) {v : β} {w : γ} (hvw : R v w) :
    Related R (d.set k v) (e.set k w) := by
  obtain ⟨l, hl⟩ := d
  obtain ⟨m, hm⟩ := e
  show List.Forall₂ (RelatedItems R) (assocSet k v l) (assocSet k w m)
  replace h : List.Forall₂ (RelatedItems R) l m := h
  clear hl hm
  induction h with
  | nil => exact .cons ⟨rfl, hvw⟩ .nil
  | @cons item item' l m hitem hrest ih =>
    by_cases hk : item.1 = k
    · rw [assocSet, assocSet, if_pos hk, if_pos (hitem.1 ▸ hk)]
      exact .cons ⟨rfl, hvw⟩ hrest
    · rw [assocSet, assocSet, if_neg hk, if_neg (hitem.1 ▸ hk)]
      exact .cons hitem ih

/-- Writing related items one after the other. -/
theorem related_ofEntries {l : List (α × β)} {m : List (α × γ)}
    (h : List.Forall₂ (RelatedItems R) l m) : Related R (ofEntries l) (ofEntries m) := by
  have hfold : ∀ {d : OrderedDict α β} {e : OrderedDict α γ}, Related R d e →
      Related R (l.foldl (fun d e => d.set e.1 e.2) d) (m.foldl (fun d e => d.set e.1 e.2) e) := by
    induction h with
    | nil => exact fun hde => hde
    | @cons item item' l m hitem _ ih =>
      intro d e hde
      rw [List.foldl_cons, List.foldl_cons, ← hitem.1]
      exact ih (hde.set item.1 hitem.2)
  exact hfold .nil

/-- Reading related dictionaries gives related values. -/
theorem Related.get? (h : Related R d e) (k : α) : Option.Rel R (d.get? k) (e.get? k) := by
  obtain ⟨l, hl⟩ := d
  obtain ⟨m, hm⟩ := e
  show Option.Rel R (assocGet? k l) (assocGet? k m)
  replace h : List.Forall₂ (RelatedItems R) l m := h
  clear hl hm
  induction h with
  | nil => exact .none
  | @cons item item' l m hitem _ ih =>
    by_cases hk : item.1 = k
    · rw [assocGet?, assocGet?, if_pos hk, if_pos (hitem.1 ▸ hk)]
      exact .some hitem.2
    · rw [assocGet?, assocGet?, if_neg hk, if_neg (hitem.1 ▸ hk)]
      exact ih

end Related

end OrderedDict

end Library
end Scam2Market
