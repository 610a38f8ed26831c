import Mathlib.Data.List.Induction
import Scam2Market.Library.Lists
import Scam2Market.Library.Procedure

/-!
# The last writer of a register

Calls of several owners write one register, and the last write wins.  Some of the calls are mine
(`p`), and `W l x` says that the call `x` writes the register when the calls of `l` went before it.

* `Restored p W l`: every write of another owner is followed by a write of mine.  How it changes with
  one more call depends only on whether that call writes (`restored_concat_of_quiet`) and whose it is
  (`restored_concat_of_write`).
* `runAll_register_iff`: when values tell their owner, the register holds what it holds in the run of
  my calls alone if and only if the run is restored.
-/

namespace Scam2Market
namespace Library

/-- Every write of another owner is followed by a write of mine. -/
def Restored {ι : Type*} (p : ι → Bool) (W : List ι → ι → Prop) (l : List ι) : Prop :=
  ∀ before x after, l = before ++ x :: after → p x = false → W before x →
    ∃ mid y rest, after = mid ++ y :: rest ∧ p y = true ∧ W (before ++ x :: mid) y

section Restored

variable {ι : Type*} {p : ι → Bool} {W : List ι → ι → Prop} {l : List ι} {x : ι}

theorem restored_nil : Restored p W [] := by
  intro before x after h
  exact absurd h (by simp)

/-- A call that does not write changes nothing. -/
theorem restored_concat_of_quiet (h : ¬ W l x) : Restored p W (l ++ [x]) ↔ Restored p W l := by
  constructor
  · intro hres before y after hl hy hW
    obtain ⟨mid, z, rest, heq, hz, hWz⟩ := hres before y (after ++ [x])
      (by rw [hl, List.append_assoc, List.cons_append]) hy hW
    rcases concat_eq_append_cons heq with ⟨-, rfl, rfl⟩ | ⟨rest', -, hafter⟩
    · exact absurd (hl ▸ hWz) h
    · exact ⟨mid, z, rest', hafter, hz, hWz⟩
  · intro hres before y after hl hy hW
    rcases concat_eq_append_cons hl with ⟨-, rfl, rfl⟩ | ⟨after', rfl, hinit⟩
    · exact absurd hW h
    · obtain ⟨mid, z, rest, heq, hz, hWz⟩ := hres before y after' hinit hy hW
      refine ⟨mid, z, rest ++ [x], ?_, hz, hWz⟩
      rw [heq, List.append_assoc, List.cons_append]

/-- After a call that writes, the run is restored if the call is mine. -/
theorem restored_concat_of_write (h : W l x) : Restored p W (l ++ [x]) ↔ p x = true := by
  constructor
  · intro hres
    by_contra hx
    obtain ⟨mid, y, rest, heq, -⟩ := hres l x [] rfl (Bool.eq_false_iff.mpr hx) h
    exact absurd heq (by simp)
  · intro hx before y after hl hy hW
    rcases concat_eq_append_cons hl with ⟨-, rfl, -⟩ | ⟨after', rfl, hinit⟩
    · exact absurd hx (by rw [hy]; decide)
    · exact ⟨after', x, [], rfl, hx, hinit ▸ h⟩

end Restored

namespace Procedure

variable {σ ε α ι β : Type} {f : ι → Procedure σ ε α}

/-- **The last writer.**  `V` relates the states of a run and of the run of my calls alone.  A call
of mine that writes writes the same value of mine in both; a call of another owner that writes writes
a value that is not mine.  Then the register is the same in both runs exactly when the run is
restored. -/
theorem runAll_register_iff {V : List ι → σ → σ → Prop} {p : ι → Bool} {W : List ι → ι → Prop}
    {obs : σ → Option β} {own : β → Prop} {s₀ : σ} {xs : List ι}
    (hV : V [] s₀ s₀) (hobs : obs s₀ = none)
    (hmine : ∀ l, ∀ x ∈ xs, ∀ s t a s', p x = true → V l s t → f x s = (.ok a, s') →
      V (l ++ [x]) s' (f x t).2 ∧
        (W l x → ∃ b, own b ∧ obs s' = some b ∧ obs (f x t).2 = some b) ∧
        (¬ W l x → obs s' = obs s ∧ obs (f x t).2 = obs t))
    (hother : ∀ l, ∀ x ∈ xs, ∀ s t a s', p x = false → V l s t → f x s = (.ok a, s') →
      V (l ++ [x]) s' t ∧
        (W l x → ∃ b, ¬ own b ∧ obs s' = some b) ∧
        (¬ W l x → obs s' = obs s))
    (hok : AllOk (runAll f xs s₀).1) :
    obs (runAll f xs s₀).2 = obs (runAll f (xs.filter p) s₀).2 ↔ Restored p W xs := by
  -- the value is the same, or it is the value of another owner that nothing has replaced
  have hrun : V xs (runAll f xs s₀).2 (runAll f (xs.filter p) s₀).2 ∧
      (∀ b, obs (runAll f (xs.filter p) s₀).2 = some b → own b) ∧
      ((Restored p W xs ∧ obs (runAll f xs s₀).2 = obs (runAll f (xs.filter p) s₀).2) ∨
        (¬ Restored p W xs ∧ ∃ b, ¬ own b ∧ obs (runAll f xs s₀).2 = some b)) := by
    induction xs using List.reverseRecOn with
    | nil =>
      refine ⟨hV, fun b hb => ?_, Or.inl ⟨restored_nil, rfl⟩⟩
      exact absurd hb (by simp [hobs])
    | append_singleton l x ih =>
      obtain ⟨hokl, a, ha⟩ := allOk_concat.mp hok
      obtain ⟨hVl, hown, hcase⟩ := ih
        (fun l' y hy => hmine l' y (List.mem_append_left _ hy))
        (fun l' y hy => hother l' y (List.mem_append_left _ hy)) hokl
      have hx : x ∈ l ++ [x] := List.mem_append_right _ List.mem_cons_self
      by_cases hp : p x = true
      · obtain ⟨hV', hwrite, hquiet⟩ := hmine l x hx _ _ a _ hp hVl ha
        have hfilter : (runAll f ((l ++ [x]).filter p) s₀).2 =
            (f x (runAll f (l.filter p) s₀).2).2 := by
          rw [List.filter_append, List.filter_cons_of_pos hp, List.filter_nil, runAll_concat]
        rw [runAll_concat, hfilter]
        refine ⟨hV', ?_⟩
        by_cases hW : W l x
        · obtain ⟨b, hb, hs, ht⟩ := hwrite hW
          refine ⟨fun c hc => ?_, Or.inl ⟨(restored_concat_of_write hW).mpr hp, hs.trans ht.symm⟩⟩
          rw [← Option.some.inj (ht.symm.trans hc)]
          exact hb
        · obtain ⟨hs, ht⟩ := hquiet hW
          rw [hs, ht, restored_concat_of_quiet hW]
          exact ⟨hown, hcase⟩
      · have hp' : p x = false := Bool.eq_false_iff.mpr hp
        obtain ⟨hV', hwrite, hquiet⟩ := hother l x hx _ _ a _ hp' hVl ha
        have hfilter : (l ++ [x]).filter p = l.filter p := by
          rw [List.filter_append, List.filter_cons_of_neg hp, List.filter_nil, List.append_nil]
        rw [runAll_concat, hfilter]
        refine ⟨hV', hown, ?_⟩
        by_cases hW : W l x
        · exact Or.inr ⟨fun hres => hp ((restored_concat_of_write hW).mp hres), hwrite hW⟩
        · rw [hquiet hW, restored_concat_of_quiet hW]
          exact hcase
  obtain ⟨-, hown, ⟨hres, heq⟩ | ⟨hres, b, hb, hs⟩⟩ := hrun
  · exact iff_of_true heq hres
  · refine iff_of_false (fun heq => ?_) hres
    exact hb (hown b (heq.symm.trans hs))

end Procedure

end Library
end Scam2Market
