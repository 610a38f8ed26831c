import Mathlib.Data.List.DropRight
import Mathlib.Data.List.Infix

/-!
# Tokens of a list

A list is split where a predicate fails, and the pieces are trimmed at both ends.

* `mem_splitOnP`: a piece stands in the list, and nothing in it splits.
* `splitOnP_surround`: around a part that is not split, one piece has the part and what is attached to it;
  the others stand before or behind.
* `trim_surround`: what is trimmed off does not matter.
* `trim_append`: around a part whose ends stay, each side is trimmed for itself.
-/

namespace Scam2Market
namespace Library

variable {α : Type*} {p : α → Bool} {a b l w x : List α}

/-! ## Splitting -/

theorem not_of_dropWhile_eq_cons {c : α} {rest : List α} (h : l.dropWhile p = c :: rest) :
    p c = false := by
  have hhead := List.head_dropWhile_not p (l := l) (by rw [h]; exact List.cons_ne_nil c rest)
  simpa only [h, List.head_cons] using hhead

/-- Where a list is split first. -/
theorem takeWhile_cases (p : α → Bool) (l : List α) :
    (∀ c ∈ l, p c = true) ∨ ∃ c rest, p c = false ∧ l = l.takeWhile p ++ c :: rest := by
  cases hrest : l.dropWhile p with
  | nil => exact Or.inl (List.dropWhile_eq_nil_iff.mp hrest)
  | cons c rest =>
    have hsplit : l = l.takeWhile p ++ c :: rest := by
      rw [← hrest, List.takeWhile_append_dropWhile]
    exact Or.inr ⟨c, rest, not_of_dropWhile_eq_cons hrest, hsplit⟩

/-- Where a list is split last. -/
theorem rtakeWhile_cases (p : α → Bool) (l : List α) :
    (∀ c ∈ l, p c = true) ∨ ∃ front c, p c = false ∧ l = front ++ c :: l.rtakeWhile p := by
  rcases takeWhile_cases p l.reverse with hall | ⟨c, rest, hc, hsplit⟩
  · exact Or.inl fun c hc => hall c (List.mem_reverse.mpr hc)
  · refine Or.inr ⟨rest.reverse, c, hc, ?_⟩
    have hreverse := congrArg List.reverse hsplit
    rw [List.reverse_reverse] at hreverse
    rw [List.rtakeWhile]
    simpa using hreverse

theorem notSplit_iff {c : α} : (!p c) = false ↔ p c = true := by
  rw [Bool.not_eq_false']

/-- The pieces of a list that begins with a part that is not split. -/
theorem splitOnP_append (hw : ∀ c ∈ w, p c = true) (b : List α) :
    ∃ back, (w ++ b).splitOnP (fun c => !p c) = (w ++ b.takeWhile p) :: back ∧
      ∀ x ∈ back, ∃ c rest, b = b.takeWhile p ++ c :: rest ∧ x ∈ rest.splitOnP fun c => !p c := by
  have hfirst : ∀ c ∈ w ++ b.takeWhile p, (!p c) = false := by
    intro c hc
    rcases List.mem_append.mp hc with hc | hc
    · exact notSplit_iff.mpr (hw c hc)
    · exact notSplit_iff.mpr (List.mem_takeWhile_imp hc)
  rcases takeWhile_cases p b with hall | ⟨c, rest, hc, hsplit⟩
  · have hb : b.takeWhile p = b := List.takeWhile_eq_self_iff.mpr hall
    rw [hb] at hfirst ⊢
    exact ⟨[], List.splitOnP_eq_singleton hfirst, fun _ h => absurd h List.not_mem_nil⟩
  · refine ⟨rest.splitOnP fun c => !p c, ?_, fun x hx => ⟨c, rest, hsplit, hx⟩⟩
    conv_lhs => rw [hsplit, ← List.append_assoc]
    exact List.splitOnP_append_cons_of_forall_mem hfirst c (by rw [hc]; rfl) rest

/-- A piece stands in the list, and nothing in it splits. -/
theorem mem_splitOnP (hx : x ∈ l.splitOnP fun c => !p c) : x <:+: l ∧ ∀ c ∈ x, p c = true := by
  induction hn : l.length using Nat.strong_induction_on generalizing l with
  | _ n ih =>
    obtain ⟨back, hpieces, hback⟩ := splitOnP_append (p := p) (fun _ h => absurd h List.not_mem_nil) l
    rw [List.nil_append, List.nil_append] at hpieces
    rw [hpieces] at hx
    rcases List.mem_cons.mp hx with rfl | hx
    · exact ⟨(List.takeWhile_prefix p).isInfix, fun c hc => List.mem_takeWhile_imp hc⟩
    · obtain ⟨c, rest, hsplit, hx⟩ := hback x hx
      have hlength : rest.length < n := by
        rw [← hn, hsplit]
        simp only [List.length_append, List.length_cons]
        omega
      obtain ⟨hstands, hall⟩ := ih rest.length hlength hx rfl
      refine ⟨hstands.trans ?_, hall⟩
      rw [hsplit]
      exact ⟨l.takeWhile p ++ [c], [], by simp⟩

/-- What does not split stands in a piece. -/
theorem exists_mem_splitOnP {c : α} (hc : c ∈ l) (hp : p c = true) :
    ∃ x ∈ l.splitOnP fun c => !p c, c ∈ x := by
  induction l with
  | nil => exact absurd hc List.not_mem_nil
  | cons d l ih =>
    obtain ⟨first, rest, hpieces⟩ := List.exists_cons_of_ne_nil (List.splitOnP_ne_nil (fun c => !p c) l)
    rw [List.splitOnP_cons_eq_if_modifyHead]
    split_ifs with hd
    · have hmem : c ∈ l := by
        refine (List.mem_cons.mp hc).resolve_left fun h => ?_
        rw [← h, hp] at hd
        exact nomatch hd
      obtain ⟨x, hx, hcx⟩ := ih hmem
      exact ⟨x, List.mem_cons_of_mem _ hx, hcx⟩
    · rw [hpieces, List.modifyHead_cons]
      rcases List.mem_cons.mp hc with rfl | hmem
      · exact ⟨c :: first, List.mem_cons_self, List.mem_cons_self⟩
      · obtain ⟨x, hx, hcx⟩ := ih hmem
        rw [hpieces] at hx
        rcases List.mem_cons.mp hx with rfl | hx
        · exact ⟨d :: x, List.mem_cons_self, List.mem_cons_of_mem _ hcx⟩
        · exact ⟨x, List.mem_cons_of_mem _ hx, hcx⟩

/-- **The pieces around a part that is not split**: one has the part with what is attached to it, and the
others stand before or behind. -/
theorem splitOnP_surround (a b : List α) (hw : ∀ c ∈ w, p c = true) :
    ∃ front back, (a ++ w ++ b).splitOnP (fun c => !p c) =
        front ++ (a.rtakeWhile p ++ w ++ b.takeWhile p) :: back ∧
      (∀ x ∈ front, x <:+: a) ∧ ∀ x ∈ back, x <:+: b := by
  have hback {m : List α} (hm : ∀ c ∈ m, p c = true) :
      ∃ back, (m ++ b).splitOnP (fun c => !p c) = (m ++ b.takeWhile p) :: back ∧
        ∀ x ∈ back, x <:+: b := by
    obtain ⟨back, hpieces, hback⟩ := splitOnP_append hm b
    refine ⟨back, hpieces, fun x hx => ?_⟩
    obtain ⟨c, rest, hsplit, hx⟩ := hback x hx
    refine (mem_splitOnP hx).1.trans ?_
    rw [hsplit]
    exact ⟨b.takeWhile p ++ [c], [], by simp⟩
  have hattached : ∀ c ∈ a.rtakeWhile p ++ w, p c = true := by
    intro c hc
    rcases List.mem_append.mp hc with hc | hc
    · exact List.mem_rtakeWhile_imp hc
    · exact hw c hc
  obtain ⟨back, hpieces, hstands⟩ := hback hattached
  rcases rtakeWhile_cases p a with hall | ⟨front, c, hc, hsplit⟩
  · refine ⟨[], back, ?_, fun _ h => absurd h List.not_mem_nil, hstands⟩
    rw [List.rtakeWhile_eq_self_iff.mpr hall] at hpieces ⊢
    exact hpieces
  · refine ⟨front.splitOnP fun c => !p c, back, ?_, fun x hx => ?_, hstands⟩
    · conv_lhs => rw [hsplit, List.append_assoc, List.append_assoc, List.cons_append]
      rw [List.splitOnP_append_cons _ _ (by rw [hc]; rfl), ← List.append_assoc, hpieces]
    · refine (mem_splitOnP hx).1.trans ?_
      rw [hsplit]
      exact (List.prefix_append front _).isInfix

/-- The first piece and the last one. -/
theorem ends_mem_splitOnP (p : α → Bool) (l : List α) :
    l.takeWhile p ∈ l.splitOnP (fun c => !p c) ∧ l.rtakeWhile p ∈ l.splitOnP (fun c => !p c) := by
  have hnone : ∀ c ∈ ([] : List α), p c = true := fun _ h => absurd h List.not_mem_nil
  constructor
  · obtain ⟨front, back, hpieces, -⟩ := splitOnP_surround [] l hnone
    simp only [List.rtakeWhile_nil, List.nil_append] at hpieces
    rw [hpieces]
    exact List.mem_append_right _ List.mem_cons_self
  · obtain ⟨front, back, hpieces, -⟩ := splitOnP_surround l [] hnone
    simp only [List.takeWhile_nil, List.append_nil] at hpieces
    rw [hpieces]
    exact List.mem_append_right _ List.mem_cons_self

theorem splitOnP_ne [DecidableEq α] (d : α) (l : List α) :
    (l.splitOnP fun c => !(c != d)) = l.splitOn d := by
  rw [List.splitOn_eq_splitOnP]
  exact congrArg (List.splitOnP · l) (funext fun c => by rw [bne, Bool.not_not])

/-- What is not the separator stands in a piece. -/
theorem exists_mem_splitOn [DecidableEq α] {c d : α} (hc : c ∈ l) (hne : c ≠ d) :
    ∃ x ∈ l.splitOn d, c ∈ x := by
  rw [← splitOnP_ne]
  exact exists_mem_splitOnP hc (bne_iff_ne.mpr hne)

/-! ## Trimming -/

/-- The list without what a predicate accepts at its ends. -/
def trim (p : α → Bool) (l : List α) : List α :=
  ((l.dropWhile p).reverse.dropWhile p).reverse

theorem trim_within (p : α → Bool) (l : List α) : trim p l <:+: l :=
  ((List.rdropWhile_prefix p (l.dropWhile p)).isInfix).trans (List.dropWhile_suffix p).isInfix

/-- **What is trimmed off does not matter.** -/
theorem trim_surround (ha : ∀ c ∈ a, p c = true) (hb : ∀ c ∈ b, p c = true) (w : List α) :
    trim p (a ++ w ++ b) = trim p w := by
  have hb' : ∀ c ∈ b.reverse, p c = true := fun c hc => hb c (List.mem_reverse.mp hc)
  rw [trim, trim, List.append_assoc, List.dropWhile_append_of_pos ha, List.dropWhile_append]
  split_ifs with hempty
  · rw [List.isEmpty_iff.mp hempty, List.dropWhile_eq_nil_iff.mpr hb]
  · rw [List.reverse_append, List.dropWhile_append_of_pos hb']

theorem trim_eq_self (hhead : ∀ c, w.head? = some c → p c = false)
    (hlast : ∀ c, w.getLast? = some c → p c = false) : trim p w = w := by
  have hfront : w.dropWhile p = w := by
    cases w with
    | nil => rfl
    | cons c w => rw [List.dropWhile_cons, hhead c rfl]; rfl
  have hrear : w.reverse.dropWhile p = w.reverse := by
    rw [List.getLast?_eq_head?_reverse] at hlast
    cases hreverse : w.reverse with
    | nil => rfl
    | cons c rest => rw [List.dropWhile_cons, hlast c (by rw [hreverse]; rfl)]; rfl
  rw [trim, hfront, hrear, List.reverse_reverse]

/-- **Around a part whose ends stay**, each side is trimmed for itself. -/
theorem trim_append (hne : w ≠ []) (hhead : ∀ c, w.head? = some c → p c = false)
    (hlast : ∀ c, w.getLast? = some c → p c = false) (a b : List α) :
    trim p (a ++ w ++ b) = a.dropWhile p ++ w ++ b.rdropWhile p := by
  have hstays {x y : List α} (hx : x ≠ []) (h : ∀ c, x.head? = some c → p c = false) :
      (y ++ x).dropWhile p = y.dropWhile p ++ x := by
    obtain ⟨c, rest, rfl⟩ := List.exists_cons_of_ne_nil hx
    have hc : ¬ p c = true := Bool.not_eq_true _ ▸ h c rfl
    rw [List.dropWhile_append, List.dropWhile_cons_of_neg hc]
    split_ifs with hempty
    · rw [List.isEmpty_iff.mp hempty, List.nil_append]
    · rfl
  have hfront : (a ++ w ++ b).dropWhile p = a.dropWhile p ++ w ++ b := by
    rw [List.append_assoc, hstays (List.append_ne_nil_of_left_ne_nil hne b), List.append_assoc]
    intro c hc
    rw [List.head?_append_of_ne_nil w hne] at hc
    exact hhead c hc
  have hrear : (a.dropWhile p ++ w).reverse ≠ [] := by
    simp only [ne_eq, List.reverse_eq_nil_iff, List.append_eq_nil_iff, hne, and_false, not_false_eq_true]
  rw [trim, hfront, List.reverse_append, hstays hrear, List.reverse_append, List.reverse_reverse]
  · rfl
  · intro c hc
    rw [List.head?_reverse, List.getLast?_append_of_ne_nil _ hne] at hc
    exact hlast c hc

/-- What is left has no end that would be trimmed off. -/
theorem ends_trim (p : α → Bool) (l : List α) :
    (∀ c, (trim p l).head? = some c → p c = false) ∧
      ∀ c, (trim p l).getLast? = some c → p c = false := by
  constructor
  · intro c hc
    have hprefix : trim p l <+: l.dropWhile p := List.rdropWhile_prefix p (l.dropWhile p)
    obtain ⟨rest, hrest⟩ := hprefix
    have hfront : (l.dropWhile p).head? = some c := by
      rw [← hrest, List.head?_append, hc]
      rfl
    obtain ⟨back, hback⟩ := List.head?_eq_some_iff.mp hfront
    exact not_of_dropWhile_eq_cons hback
  · intro c hc
    rw [trim, List.getLast?_reverse] at hc
    obtain ⟨back, hback⟩ := List.head?_eq_some_iff.mp hc
    exact not_of_dropWhile_eq_cons hback

theorem trim_eq_nil (h : ∀ c ∈ l, p c = true) : trim p l = [] := by
  rw [trim, List.dropWhile_eq_nil_iff.mpr h]
  rfl

/-- What is not trimmed off stays. -/
theorem mem_trim {c : α} (hc : c ∈ l) (hp : p c = false) : c ∈ trim p l := by
  have hkeeps : ∀ l : List α, c ∈ l → c ∈ l.dropWhile p := by
    intro l hl
    rw [← List.takeWhile_append_dropWhile (p := p) (l := l)] at hl
    refine (List.mem_append.mp hl).resolve_left fun h => ?_
    rw [List.mem_takeWhile_imp h] at hp
    exact nomatch hp
  rw [trim, List.mem_reverse]
  exact hkeeps _ (List.mem_reverse.mpr (hkeeps l hc))

end Library
end Scam2Market
