import Mathlib.Data.List.Basic
import Mathlib.Data.List.Induction
import Mathlib.Order.Defs.Unbundled

/-!
# Procedures over a mutable state

A procedure reads and writes a state and either returns a value or raises.  What it wrote before it
raised stays written, as in an imperative program: only a transaction is rolled back.

* `Procedure`, with `reading`, `modify`, `raise`, `ofExcept` and the two loops `forEach` (stops at
  the first exception) and `flatForEach` (also concatenates what the iterations return).
* `Procedure.Keeps R p`: whatever happens, `p` ends in a state related by `R` to the one it started
  in.  For a reflexive and transitive `R` the rule goes through sequencing and loops.
* `Procedure.Succeeds I p`: from a state of `I`, `p` returns and ends in a state of `I`.
* `Procedure.Yields I Q p`: when `p` returns from a state of `I`, it ends in a state of `I` and returns
  an element of `Q`.
* `Procedure.within`: a procedure on a part of the state.
* `Procedure.atomically`: a procedure as a transaction, for a state that can be rolled back.
* `Procedure.Agree V p q`: from states related by `V`, `p` and `q` have the same outcome and end in
  states related by `V`.  This is the two-run rule for noninterference.
* `runAll`: a caller that makes one call after the other, whatever the calls raise, with
  `runAll_invariant`, `runAll_invariant_of_ok` and `runAll_agree_filter`.
* `traceAll`: the calls of a run with their outcomes, with `traceAll_invariant`.
-/

namespace Scam2Market
namespace Library

/-- A computation over the state `σ` that returns an `α` or raises an `ε`, and leaves a state in
both cases. -/
def Procedure (σ ε α : Type) : Type :=
  σ → Except ε α × σ

namespace Procedure

variable {σ ε α β ι : Type}

/-- Return a value. -/
def ret (a : α) : Procedure σ ε α := fun s => (.ok a, s)

/-- Run one procedure, then another; an exception of the first is passed on. -/
def seq (p : Procedure σ ε α) (f : α → Procedure σ ε β) : Procedure σ ε β := fun s =>
  match p s with
  | (.ok a, s') => f a s'
  | (.error e, s') => (.error e, s')

instance : Monad (Procedure σ ε) where
  pure := ret
  bind := seq

/-- Raise an exception. -/
def raise (e : ε) : Procedure σ ε α := fun s => (.error e, s)

/-- Read the state. -/
def reading (f : σ → α) : Procedure σ ε α := fun s => (.ok (f s), s)

/-- Write the state. -/
def modify (f : σ → σ) : Procedure σ ε Unit := fun s => (.ok (), f s)

/-- Return the value of an expression, or raise what its evaluation raises. -/
def ofExcept (x : Except ε α) : Procedure σ ε α := fun s => (x, s)

/-- `for x in xs: f x`, collecting the results. -/
def forEach (f : ι → Procedure σ ε α) : List ι → Procedure σ ε (List α)
  | [] => pure []
  | x :: xs => do
    let a ← f x
    let as ← forEach f xs
    pure (a :: as)

/-- `for x in xs: result.extend(f x)`. -/
def flatForEach (f : ι → Procedure σ ε (List α)) (xs : List ι) : Procedure σ ε (List α) := do
  let as ← forEach f xs
  pure as.flatten

@[simp] theorem pure_apply (a : α) (s : σ) :
    (pure a : Procedure σ ε α) s = (.ok a, s) := rfl

@[simp] theorem raise_apply (e : ε) (s : σ) :
    (raise e : Procedure σ ε α) s = (.error e, s) := rfl

@[simp] theorem reading_apply (f : σ → α) (s : σ) :
    (reading f : Procedure σ ε α) s = (.ok (f s), s) := rfl

@[simp] theorem modify_apply (f : σ → σ) (s : σ) :
    (modify f : Procedure σ ε Unit) s = (.ok (), f s) := rfl

@[simp] theorem ofExcept_apply (x : Except ε α) (s : σ) :
    (ofExcept x : Procedure σ ε α) s = (x, s) := rfl

theorem bind_apply (p : Procedure σ ε α) (f : α → Procedure σ ε β) (s : σ) :
    (p >>= f) s =
      match p s with
      | (.ok a, s') => f a s'
      | (.error e, s') => (.error e, s') := rfl

@[simp] theorem reading_bind (f : σ → α) (g : α → Procedure σ ε β) (s : σ) :
    (reading f >>= g) s = g (f s) s := rfl

@[simp] theorem modify_bind (f : σ → σ) (g : Unit → Procedure σ ε β) (s : σ) :
    (modify f >>= g) s = g () (f s) := rfl

@[simp] theorem pure_bind (a : α) (g : α → Procedure σ ε β) (s : σ) :
    ((pure a : Procedure σ ε α) >>= g) s = g a s := rfl

theorem bind_of_ok {p : Procedure σ ε α} {f : α → Procedure σ ε β} {s s' : σ} {a : α}
    (h : p s = (.ok a, s')) : (p >>= f) s = f a s' := by
  rw [bind_apply, h]

theorem bind_of_error {p : Procedure σ ε α} {f : α → Procedure σ ε β} {s s' : σ} {e : ε}
    (h : p s = (.error e, s')) : (p >>= f) s = (.error e, s') := by
  rw [bind_apply, h]

/-- Converting the result does not touch the state. -/
theorem bind_pure_snd (p : Procedure σ ε α) (g : α → β) (s : σ) :
    ((p >>= fun a => pure (g a)) s).2 = (p s).2 := by
  rw [bind_apply]
  rcases p s with ⟨e | a, s'⟩ <;> rfl

/-- A sequence returns exactly when both parts do. -/
theorem bind_eq_ok {p : Procedure σ ε α} {f : α → Procedure σ ε β} {s s'' : σ} {b : β} :
    (p >>= f) s = (.ok b, s'') ↔ ∃ a s', p s = (.ok a, s') ∧ f a s' = (.ok b, s'') := by
  constructor
  · intro h
    rcases hp : p s with ⟨a | a, s'⟩
    · rw [bind_of_error hp] at h
      exact absurd (congrArg Prod.fst h) (by simp)
    · rw [bind_of_ok hp] at h
      exact ⟨_, _, rfl, h⟩
  · rintro ⟨a, s', hp, hf⟩
    rw [bind_of_ok hp, hf]

theorem map_of_ok {p : Procedure σ ε α} {f : α → β} {s s' : σ} {a : α} (h : p s = (.ok a, s')) :
    (f <$> p) s = (.ok (f a), s') :=
  bind_of_ok h

theorem map_eq_ok {p : Procedure σ ε α} {f : α → β} {s s' : σ} {b : β}
    (h : (f <$> p) s = (.ok b, s')) : ∃ a, p s = (.ok a, s') ∧ f a = b := by
  obtain ⟨a, mid, hp, hpure⟩ := bind_eq_ok.mp h
  obtain ⟨hres, rfl⟩ := Prod.mk.inj hpure
  exact ⟨a, hp, Except.ok.inj hres⟩

theorem forEach_cons (f : ι → Procedure σ ε α) (x : ι) (xs : List ι) :
    forEach f (x :: xs) = f x >>= fun a => forEach f xs >>= fun as => pure (a :: as) := rfl

theorem forEach_cons_eq_ok {f : ι → Procedure σ ε α} {x : ι} {xs : List ι} {s s'' : σ}
    {bs : List α} :
    forEach f (x :: xs) s = (.ok bs, s'') ↔
      ∃ a as s', f x s = (.ok a, s') ∧ forEach f xs s' = (.ok as, s'') ∧ bs = a :: as := by
  rw [forEach_cons, bind_eq_ok]
  constructor
  · rintro ⟨a, s', hf, h⟩
    obtain ⟨as, t, hfor, hret⟩ := bind_eq_ok.mp h
    obtain ⟨rfl, rfl⟩ : a :: as = bs ∧ t = s'' := by simpa using hret
    exact ⟨a, as, s', hf, hfor, rfl⟩
  · rintro ⟨a, as, s', hf, hfor, rfl⟩
    exact ⟨a, s', hf, bind_eq_ok.mpr ⟨as, s'', hfor, rfl⟩⟩

theorem flatForEach_eq_ok {f : ι → Procedure σ ε (List α)} {xs : List ι} {s s' : σ}
    {bs : List α} :
    flatForEach f xs s = (.ok bs, s') ↔ ∃ as, forEach f xs s = (.ok as, s') ∧ bs = as.flatten := by
  rw [flatForEach, bind_eq_ok]
  constructor
  · rintro ⟨as, t, hfor, hret⟩
    obtain ⟨rfl, rfl⟩ : as.flatten = bs ∧ t = s' := by simpa using hret
    exact ⟨as, hfor, rfl⟩
  · rintro ⟨as, hfor, rfl⟩
    exact ⟨as, s', hfor, rfl⟩

/-- **The loop rule.**  An invariant of the items still to do and the state, kept by every
iteration that returns, holds with nothing left to do when the loop returns. -/
theorem forEach_invariant {f : ι → Procedure σ ε α} {P : List ι → σ → Prop}
    (hstep : ∀ x xs s a s', P (x :: xs) s → f x s = (.ok a, s') → P xs s') :
    ∀ {xs : List ι} {s s' : σ} {as : List α}, P xs s → forEach f xs s = (.ok as, s') → P [] s'
  | [], s, s', as, hP, h => by
    obtain ⟨-, rfl⟩ : as = [] ∧ s = s' := by simpa [forEach, eq_comm] using h
    exact hP
  | x :: xs, s, s', as, hP, h => by
    obtain ⟨a, bs, t, hf, hfor, -⟩ := forEach_cons_eq_ok.mp h
    exact forEach_invariant hstep (hstep x xs s a t hP hf) hfor

theorem forEach_congr {f g : ι → Procedure σ ε α} {xs : List ι} (h : ∀ x ∈ xs, f x = g x) :
    forEach f xs = forEach g xs := by
  induction xs with
  | nil => rfl
  | cons x xs ih =>
    rw [forEach_cons, forEach_cons, h x List.mem_cons_self,
      ih fun y hy => h y (List.mem_cons_of_mem x hy)]

theorem forEach_map {κ : Type} (f : ι → Procedure σ ε α) (g : κ → ι) (xs : List κ) :
    forEach f (xs.map g) = forEach (fun x => f (g x)) xs := by
  induction xs with
  | nil => rfl
  | cons x xs ih => rw [List.map_cons, forEach_cons, forEach_cons, ih]

/-! ## What every outcome keeps -/

/-- Whether it returns or raises, `p` ends in a state related by `R` to the one it started in. -/
def Keeps (R : σ → σ → Prop) (p : Procedure σ ε α) : Prop :=
  ∀ s, R s (p s).2

section Keeps

variable {R : σ → σ → Prop}

theorem keeps_ofExcept [Std.Refl R] (x : Except ε α) : Keeps R (ofExcept x : Procedure σ ε α) :=
  fun s => Std.Refl.refl s

theorem keeps_reading [Std.Refl R] (f : σ → α) : Keeps R (reading f : Procedure σ ε α) :=
  fun s => Std.Refl.refl s

theorem keeps_pure [Std.Refl R] (a : α) : Keeps R (pure a : Procedure σ ε α) :=
  fun s => Std.Refl.refl s

theorem keeps_raise [Std.Refl R] (e : ε) : Keeps R (raise e : Procedure σ ε α) :=
  fun s => Std.Refl.refl s

theorem keeps_modify {f : σ → σ} (h : ∀ s, R s (f s)) : Keeps R (modify f : Procedure σ ε Unit) :=
  h

theorem keeps_bind [IsTrans σ R] {p : Procedure σ ε α} {f : α → Procedure σ ε β}
    (hp : Keeps R p) (hf : ∀ a, Keeps R (f a)) : Keeps R (p >>= f) := by
  intro s
  have hps := hp s
  rcases h : p s with ⟨e | a, s'⟩
  · rw [bind_of_error h]
    rwa [h] at hps
  · rw [bind_of_ok h]
    rw [h] at hps
    exact Trans.trans hps (hf a s')

theorem keeps_forEach [Std.Refl R] [IsTrans σ R] {f : ι → Procedure σ ε α} {xs : List ι}
    (hf : ∀ x ∈ xs, Keeps R (f x)) : Keeps R (forEach f xs) := by
  induction xs with
  | nil => exact keeps_pure []
  | cons x xs ih =>
    have ih' := ih fun y hy => hf y (List.mem_cons_of_mem x hy)
    exact keeps_bind (hf x List.mem_cons_self) fun a => keeps_bind ih' fun _ => keeps_pure _

theorem keeps_flatForEach [Std.Refl R] [IsTrans σ R] {f : ι → Procedure σ ε (List α)}
    {xs : List ι} (hf : ∀ x ∈ xs, Keeps R (f x)) : Keeps R (flatForEach f xs) :=
  keeps_bind (keeps_forEach hf) fun _ => keeps_pure _

end Keeps

/-! ## Procedures that do not raise -/

/-- From every state of `I`, `p` returns and ends in a state of `I`. -/
def Succeeds (I : σ → Prop) (p : Procedure σ ε α) : Prop :=
  ∀ s, I s → ∃ a s', p s = (.ok a, s') ∧ I s'

section Succeeds

variable {I : σ → Prop}

theorem succeeds_pure (a : α) : Succeeds I (pure a : Procedure σ ε α) :=
  fun s hs => ⟨a, s, rfl, hs⟩

theorem succeeds_modify {f : σ → σ} (h : ∀ s, I s → I (f s)) :
    Succeeds I (modify f : Procedure σ ε Unit) :=
  fun s hs => ⟨(), f s, rfl, h s hs⟩

theorem succeeds_bind {p : Procedure σ ε α} {f : α → Procedure σ ε β} (hp : Succeeds I p)
    (hf : ∀ a, Succeeds I (f a)) : Succeeds I (p >>= f) := by
  intro s hs
  obtain ⟨a, s', hps, hs'⟩ := hp s hs
  obtain ⟨b, s'', hfs, hs''⟩ := hf a s' hs'
  exact ⟨b, s'', by rw [bind_of_ok hps, hfs], hs''⟩

theorem succeeds_forEach {f : ι → Procedure σ ε α} {xs : List ι}
    (hf : ∀ x ∈ xs, Succeeds I (f x)) : Succeeds I (forEach f xs) := by
  induction xs with
  | nil => exact succeeds_pure []
  | cons x xs ih =>
    have ih' := ih fun y hy => hf y (List.mem_cons_of_mem x hy)
    exact succeeds_bind (hf x List.mem_cons_self) fun a =>
      succeeds_bind ih' fun _ => succeeds_pure _

theorem succeeds_flatForEach {f : ι → Procedure σ ε (List α)} {xs : List ι}
    (hf : ∀ x ∈ xs, Succeeds I (f x)) : Succeeds I (flatForEach f xs) :=
  succeeds_bind (succeeds_forEach hf) fun _ => succeeds_pure _

end Succeeds

/-! ## What a procedure returns -/

/-- When `p` returns from a state of `I`, it ends in a state of `I` and returns an element of `Q`. -/
def Yields (I : σ → Prop) (Q : α → Prop) (p : Procedure σ ε α) : Prop :=
  ∀ s a s', I s → p s = (.ok a, s') → I s' ∧ Q a

section Yields

variable {I : σ → Prop}

theorem yields_pure {Q : α → Prop} {a : α} (h : Q a) :
    Yields I Q (pure a : Procedure σ ε α) := by
  intro s b s' hs hp
  obtain ⟨rfl, rfl⟩ : a = b ∧ s = s' := by simpa using hp
  exact ⟨hs, h⟩

theorem yields_modify {f : σ → σ} (h : ∀ s, I s → I (f s)) :
    Yields I (fun _ => True) (modify f : Procedure σ ε Unit) := by
  intro s b s' hs hp
  obtain rfl : f s = s' := congrArg Prod.snd hp
  exact ⟨h s hs, trivial⟩

theorem yields_reading {f : σ → α} {Q : α → Prop} (h : ∀ s, I s → Q (f s)) :
    Yields I Q (reading f : Procedure σ ε α) := by
  intro s b s' hs hp
  obtain ⟨rfl, rfl⟩ : f s = b ∧ s = s' := by simpa using hp
  exact ⟨hs, h s hs⟩

theorem Yields.weaken {Q R : α → Prop} {p : Procedure σ ε α} (h : Yields I Q p)
    (hQR : ∀ a, Q a → R a) : Yields I R p :=
  fun s a s' hs hp => (h s a s' hs hp).imp_right (hQR a)

theorem yields_bind {Q : α → Prop} {R : β → Prop} {p : Procedure σ ε α}
    {f : α → Procedure σ ε β} (hp : Yields I Q p) (hf : ∀ a, Q a → Yields I R (f a)) :
    Yields I R (p >>= f) := by
  intro s b s'' hs h
  obtain ⟨a, s', hps, hfs⟩ := bind_eq_ok.mp h
  obtain ⟨hs', ha⟩ := hp s a s' hs hps
  exact hf a ha s' b s'' hs' hfs

/-- A loop returns one result for each item. -/
theorem yields_forEach {Q : ι → α → Prop} {f : ι → Procedure σ ε α} {xs : List ι}
    (hf : ∀ x ∈ xs, Yields I (Q x) (f x)) : Yields I (List.Forall₂ Q xs) (forEach f xs) := by
  induction xs with
  | nil => exact yields_pure List.Forall₂.nil
  | cons x xs ih =>
    have ih' := ih fun y hy => hf y (List.mem_cons_of_mem x hy)
    exact yields_bind (hf x List.mem_cons_self) fun a ha =>
      yields_bind ih' fun as has => yields_pure (List.Forall₂.cons ha has)

/-- What holds of the result of every item holds of every result. -/
theorem yields_forEach_all {Q : α → Prop} {f : ι → Procedure σ ε α} {xs : List ι}
    (hf : ∀ x ∈ xs, Yields I Q (f x)) : Yields I (fun as => ∀ a ∈ as, Q a) (forEach f xs) := by
  refine (yields_forEach hf).weaken fun as has => ?_
  clear hf
  induction has with
  | nil => simp
  | cons ha _ ih => exact List.forall_mem_cons.mpr ⟨ha, ih⟩

/-- What a loop concatenates comes from its items, and nothing of it is lost. -/
theorem yields_flatForEach {Q : ι → List α → Prop} {f : ι → Procedure σ ε (List α)} {xs : List ι}
    (hf : ∀ x ∈ xs, Yields I (Q x) (f x)) :
    Yields I (fun bs => (∀ b ∈ bs, ∃ x ∈ xs, ∃ a, Q x a ∧ b ∈ a) ∧
      ∀ x ∈ xs, ∃ a, Q x a ∧ a ⊆ bs) (flatForEach f xs) := by
  refine yields_bind (yields_forEach hf) fun as has => yields_pure ?_
  clear hf
  induction has with
  | nil => simp
  | @cons x a xs as ha _ ih =>
    rw [List.flatten_cons]
    constructor
    · intro b hb
      rcases List.mem_append.mp hb with hb | hb
      · exact ⟨x, List.mem_cons_self, a, ha, hb⟩
      · obtain ⟨y, hy, c, hc, hbc⟩ := ih.1 b hb
        exact ⟨y, List.mem_cons_of_mem x hy, c, hc, hbc⟩
    · intro y hy
      rcases List.mem_cons.mp hy with rfl | hy
      · exact ⟨a, ha, List.subset_append_left _ _⟩
      · obtain ⟨c, hc, hsub⟩ := ih.2 y hy
        exact ⟨c, hc, List.Subset.trans hsub (List.subset_append_right _ _)⟩

end Yields

/-! ## What a procedure adds to a list -/

/-- Whenever `p` returns, `view` has grown by the results that `q` selects. -/
def Appends (view : σ → List α) (q : α → Bool) (p : Procedure σ ε (List α)) : Prop :=
  ∀ s as s', p s = (.ok as, s') → view s' = view s ++ as.filter q

section Appends

variable {view : σ → List α} {q : α → Bool}

theorem appends_nil : Appends view q (pure [] : Procedure σ ε (List α)) := by
  intro s as s' h
  obtain ⟨rfl, rfl⟩ : [] = as ∧ s = s' := by simpa using h
  exact (List.append_nil _).symm

/-- A procedure that leaves the list alone may come before. -/
theorem appends_bind {p : Procedure σ ε β} {f : β → Procedure σ ε (List α)}
    (hp : ∀ s b s', p s = (.ok b, s') → view s' = view s) (hf : ∀ b, Appends view q (f b)) :
    Appends view q (p >>= f) := by
  intro s as s'' h
  obtain ⟨b, s', hps, hfs⟩ := bind_eq_ok.mp h
  rw [hf b s' as s'' hfs, hp s b s' hps]

theorem appends_reading_bind {g : σ → β} {f : β → Procedure σ ε (List α)}
    (hf : ∀ b, Appends view q (f b)) : Appends view q (reading g >>= f) :=
  appends_bind (fun s b s' h => by rw [show s = s' from congrArg Prod.snd h]) hf

theorem appends_modify_bind {g : σ → σ} {f : Unit → Procedure σ ε (List α)}
    (hg : ∀ s, view (g s) = view s) (hf : Appends view q (f ())) : Appends view q (modify g >>= f) :=
  appends_bind (fun s b s' h => by rw [← hg s, show g s = s' from congrArg Prod.snd h]) fun _ => hf

/-- Two parts add what each of them adds. -/
theorem appends_append {p p' : Procedure σ ε (List α)} (hp : Appends view q p)
    (hp' : Appends view q p') :
    Appends view q (p >>= fun as => p' >>= fun bs => pure (as ++ bs)) := by
  intro s cs s'' h
  obtain ⟨as, s₁, hps, hrest⟩ := bind_eq_ok.mp h
  obtain ⟨bs, s₂, hps', hret⟩ := bind_eq_ok.mp hrest
  obtain ⟨rfl, rfl⟩ : as ++ bs = cs ∧ s₂ = s'' := by simpa using hret
  rw [hp' s₁ bs s₂ hps', hp s as s₁ hps, List.filter_append, List.append_assoc]

theorem appends_forEach {f : ι → Procedure σ ε α} {xs : List ι}
    (hf : ∀ x ∈ xs, ∀ s a s', f x s = (.ok a, s') → view s' = view s ++ [a].filter q) :
    Appends view q (forEach f xs) := by
  induction xs with
  | nil => exact appends_nil
  | cons x xs ih =>
    intro s as s'' h
    obtain ⟨a, bs, s', hfx, hfor, rfl⟩ := forEach_cons_eq_ok.mp h
    rw [ih (fun y hy => hf y (List.mem_cons_of_mem x hy)) s' bs s'' hfor,
      hf x List.mem_cons_self s a s' hfx, List.append_assoc, ← List.filter_append]
    rfl

theorem appends_flatForEach {f : ι → Procedure σ ε (List α)} {xs : List ι}
    (hf : ∀ x ∈ xs, Appends view q (f x)) : Appends view q (flatForEach f xs) := by
  intro s as s' h
  obtain ⟨found, hfor, rfl⟩ := flatForEach_eq_ok.mp h
  clear h
  induction xs generalizing s found with
  | nil =>
    obtain ⟨rfl, rfl⟩ : [] = found ∧ s = s' := by simpa [forEach] using hfor
    exact (List.append_nil _).symm
  | cons x xs ih =>
    obtain ⟨a, bs, t, hfx, hrest, rfl⟩ := forEach_cons_eq_ok.mp hfor
    rw [ih (fun y hy => hf y (List.mem_cons_of_mem x hy)) t bs hrest, hf x List.mem_cons_self s a t hfx,
      List.append_assoc, ← List.filter_append, List.flatten_cons]

end Appends

/-! ## A part of the state -/

/-- Run a procedure on a part of the state. -/
def within {τ : Type} (get : τ → σ) (put : σ → τ → τ) (p : Procedure σ ε α) :
    Procedure τ ε α := fun t =>
  ((p (get t)).1, put (p (get t)).2 t)

theorem within_apply {τ : Type} (get : τ → σ) (put : σ → τ → τ) (p : Procedure σ ε α) (t : τ) :
    within get put p t = ((p (get t)).1, put (p (get t)).2 t) := rfl

theorem within_eq_ok {τ : Type} {get : τ → σ} {put : σ → τ → τ} {p : Procedure σ ε α} {t t' : τ}
    {a : α} : within get put p t = (.ok a, t') ↔ ∃ s, p (get t) = (.ok a, s) ∧ t' = put s t := by
  rw [within_apply]
  constructor
  · intro h
    obtain ⟨hres, hput⟩ := Prod.mk.inj h
    exact ⟨_, Prod.ext hres rfl, hput.symm⟩
  · rintro ⟨s, hp, rfl⟩
    rw [hp]

/-! ## Transactions -/

/-- Run a procedure as one transaction: when it raises, nothing of what it wrote stays. -/
def atomically (p : Procedure σ ε α) : Procedure σ ε α := fun s =>
  match p s with
  | (.ok a, s') => (.ok a, s')
  | (.error e, _) => (.error e, s)

theorem atomically_of_ok {p : Procedure σ ε α} {s s' : σ} {a : α} (h : p s = (.ok a, s')) :
    atomically p s = (.ok a, s') := by
  rw [atomically, h]

/-- A transaction is rolled back, or does what its procedure does. -/
theorem atomically_cases (p : Procedure σ ε α) (s : σ) :
    (∃ e, atomically p s = (.error e, s)) ∨
      ∃ a s', p s = (.ok a, s') ∧ atomically p s = (.ok a, s') := by
  rcases h : p s with ⟨e | a, s'⟩
  · refine Or.inl ⟨e, ?_⟩
    rw [atomically, h]
  · exact Or.inr ⟨a, s', rfl, atomically_of_ok h⟩

/-! ## Two runs -/

/-- From states related by `V` the two procedures have the same outcome, and the states they leave
are related by `V`. -/
def Agree (V : σ → σ → Prop) (p q : Procedure σ ε α) : Prop :=
  ∀ s t, V s t → (p s).1 = (q t).1 ∧ V (p s).2 (q t).2

section Agree

variable {V : σ → σ → Prop}

theorem agree_pure (a : α) : Agree V (pure a : Procedure σ ε α) (pure a) :=
  fun _ _ h => ⟨rfl, h⟩

theorem agree_raise (e : ε) : Agree V (raise e : Procedure σ ε α) (raise e) :=
  fun _ _ h => ⟨rfl, h⟩

theorem agree_ofExcept (x : Except ε α) : Agree V (ofExcept x : Procedure σ ε α) (ofExcept x) :=
  fun _ _ h => ⟨rfl, h⟩

theorem agree_reading {f g : σ → α} (h : ∀ s t, V s t → f s = g t) :
    Agree V (reading f : Procedure σ ε α) (reading g) :=
  fun s t hV => ⟨congrArg Except.ok (h s t hV), hV⟩

theorem agree_modify {f g : σ → σ} (h : ∀ s t, V s t → V (f s) (g t)) :
    Agree V (modify f : Procedure σ ε Unit) (modify g) :=
  fun s t hV => ⟨rfl, h s t hV⟩

theorem agree_bind {p q : Procedure σ ε α} {f g : α → Procedure σ ε β} (hp : Agree V p q)
    (hf : ∀ a, Agree V (f a) (g a)) : Agree V (p >>= f) (q >>= g) := by
  intro s t hV
  obtain ⟨hres, hst⟩ := hp s t hV
  rcases h : p s with ⟨e | a, s'⟩ <;> rcases h' : q t with ⟨e' | a', t'⟩ <;>
    rw [h, h'] at hres hst
  · rw [bind_of_error h, bind_of_error h']
    exact ⟨by rw [Except.error.inj hres], hst⟩
  · exact absurd hres (by simp)
  · exact absurd hres (by simp)
  · rw [bind_of_ok h, bind_of_ok h']
    obtain rfl : a = a' := Except.ok.inj hres
    exact hf a s' t' hst

theorem agree_forEach {f g : ι → Procedure σ ε α} {xs : List ι}
    (hf : ∀ x ∈ xs, Agree V (f x) (g x)) : Agree V (forEach f xs) (forEach g xs) := by
  induction xs with
  | nil => exact agree_pure []
  | cons x xs ih =>
    have ih' := ih fun y hy => hf y (List.mem_cons_of_mem x hy)
    exact agree_bind (hf x List.mem_cons_self) fun a => agree_bind ih' fun _ => agree_pure _

theorem agree_flatForEach {f g : ι → Procedure σ ε (List α)} {xs : List ι}
    (hf : ∀ x ∈ xs, Agree V (f x) (g x)) : Agree V (flatForEach f xs) (flatForEach g xs) :=
  agree_bind (agree_forEach hf) fun _ => agree_pure _

end Agree

/-- Iterations that do nothing can be left out. -/
theorem flatForEach_filter {f : ι → Procedure σ ε (List α)} {p : ι → Bool}
    (h : ∀ x, p x = false → f x = pure []) (xs : List ι) :
    flatForEach f xs = flatForEach f (xs.filter p) := by
  funext s
  suffices hsuff : ∀ s : σ, (∃ as bs, as.flatten = bs.flatten ∧
      (∃ t, forEach f xs s = (.ok as, t) ∧ forEach f (xs.filter p) s = (.ok bs, t))) ∨
      ∃ e t, forEach f xs s = (.error e, t) ∧ forEach f (xs.filter p) s = (.error e, t) by
    rcases hsuff s with ⟨as, bs, hab, t, ha, hb⟩ | ⟨e, t, ha, hb⟩
    · rw [flatForEach, flatForEach, bind_of_ok ha, bind_of_ok hb, hab]
    · rw [flatForEach, flatForEach, bind_of_error ha, bind_of_error hb]
  induction xs with
  | nil => exact fun s => Or.inl ⟨[], [], rfl, s, rfl, rfl⟩
  | cons x xs ih =>
    intro s
    by_cases hx : p x = true
    · rw [List.filter_cons_of_pos hx, forEach_cons, forEach_cons]
      rcases hfx : f x s with ⟨e | a, s'⟩
      · exact Or.inr ⟨e, s', bind_of_error hfx, bind_of_error hfx⟩
      · rw [bind_of_ok hfx, bind_of_ok hfx]
        rcases ih s' with ⟨as, bs, hab, t, ha, hb⟩ | ⟨e, t, ha, hb⟩
        · exact Or.inl ⟨a :: as, a :: bs, by simp [hab], t, by rw [bind_of_ok ha]; rfl,
            by rw [bind_of_ok hb]; rfl⟩
        · exact Or.inr ⟨e, t, bind_of_error ha, bind_of_error hb⟩
    · have hxf : p x = false := Bool.eq_false_iff.mpr hx
      rw [List.filter_cons_of_neg hx, forEach_cons, h x hxf, pure_bind]
      rcases ih s with ⟨as, bs, hab, t, ha, hb⟩ | ⟨e, t, ha, hb⟩
      · exact Or.inl ⟨[] :: as, bs, by simp [hab], t, by rw [bind_of_ok ha]; rfl, hb⟩
      · exact Or.inr ⟨e, t, bind_of_error ha, hb⟩

/-! ## Runs -/

/-- One call after the other from a state, whatever the calls raise: the outcomes in order and the
last state. -/
def runAll (f : ι → Procedure σ ε α) : List ι → σ → List (Except ε α) × σ
  | [], s => ([], s)
  | x :: xs, s => ((f x s).1 :: (runAll f xs (f x s).2).1, (runAll f xs (f x s).2).2)

/-- Every call of a run returned. -/
def AllOk (outcomes : List (Except ε α)) : Prop :=
  ∀ r ∈ outcomes, ∃ a, r = .ok a

section Runs

variable {f : ι → Procedure σ ε α}

@[simp] theorem runAll_nil (s : σ) : runAll f [] s = ([], s) := rfl

theorem runAll_cons (x : ι) (xs : List ι) (s : σ) :
    runAll f (x :: xs) s =
      ((f x s).1 :: (runAll f xs (f x s).2).1, (runAll f xs (f x s).2).2) := rfl

theorem runAll_append (xs ys : List ι) (s : σ) :
    runAll f (xs ++ ys) s =
      ((runAll f xs s).1 ++ (runAll f ys (runAll f xs s).2).1,
        (runAll f ys (runAll f xs s).2).2) := by
  induction xs generalizing s with
  | nil => rfl
  | cons x xs ih => rw [List.cons_append, runAll_cons, ih, runAll_cons, List.cons_append]

theorem runAll_concat (xs : List ι) (x : ι) (s : σ) :
    (runAll f (xs ++ [x]) s).2 = (f x (runAll f xs s).2).2 := by
  rw [runAll_append]
  rfl

theorem length_runAll (xs : List ι) (s : σ) : (runAll f xs s).1.length = xs.length := by
  induction xs generalizing s with
  | nil => rfl
  | cons x xs ih => rw [runAll_cons, List.length_cons, List.length_cons, ih]

/-- The calls of a run, each with its outcome. -/
def traceAll (f : ι → Procedure σ ε α) (xs : List ι) (s : σ) : List (ι × Except ε α) :=
  xs.zip (runAll f xs s).1

@[simp] theorem traceAll_nil (s : σ) : traceAll f [] s = [] := rfl

theorem traceAll_cons (x : ι) (xs : List ι) (s : σ) :
    traceAll f (x :: xs) s = (x, (f x s).1) :: traceAll f xs (f x s).2 := rfl

theorem traceAll_append (xs ys : List ι) (s : σ) :
    traceAll f (xs ++ ys) s = traceAll f xs s ++ traceAll f ys (runAll f xs s).2 := by
  rw [traceAll, runAll_append, List.zip_append (length_runAll xs s).symm]
  rfl

theorem traceAll_concat (xs : List ι) (x : ι) (s : σ) :
    traceAll f (xs ++ [x]) s = traceAll f xs s ++ [(x, (f x (runAll f xs s).2).1)] :=
  traceAll_append xs [x] s

/-- **The run rule.**  What every call keeps holds after every run. -/
theorem runAll_invariant {P : σ → Prop} {xs : List ι} {s : σ} (hs : P s)
    (hstep : ∀ x ∈ xs, ∀ s, P s → P (f x s).2) : P (runAll f xs s).2 := by
  induction xs generalizing s with
  | nil => exact hs
  | cons x xs ih =>
    exact ih (hstep x List.mem_cons_self s hs) fun y hy => hstep y (List.mem_cons_of_mem x hy)

/-- **The run rule for traces.**  What every call keeps about the calls so far, their outcomes and
the state, holds after every run. -/
theorem traceAll_invariant {P : List (ι × Except ε α) → σ → Prop} {xs : List ι} {s : σ}
    (hs : P [] s)
    (hstep : ∀ x ∈ xs, ∀ trace s, P trace s → P (trace ++ [(x, (f x s).1)]) (f x s).2) :
    P (traceAll f xs s) (runAll f xs s).2 := by
  induction xs using List.reverseRecOn with
  | nil => exact hs
  | append_singleton xs x ih =>
    rw [traceAll_concat, runAll_concat]
    exact hstep x (List.mem_append_right xs List.mem_cons_self) _ _ <|
      ih fun y hy => hstep y (List.mem_append_left [x] hy)

theorem AllOk.tail {x : ι} {xs : List ι} {s : σ} (h : AllOk (runAll f (x :: xs) s).1) :
    AllOk (runAll f xs (f x s).2).1 :=
  fun r hr => h r (List.mem_cons_of_mem _ hr)

theorem AllOk.head {x : ι} {xs : List ι} {s : σ} (h : AllOk (runAll f (x :: xs) s).1) :
    ∃ a, f x s = (.ok a, (f x s).2) := by
  obtain ⟨a, ha⟩ := h (f x s).1 List.mem_cons_self
  exact ⟨a, by rw [← ha]⟩

/-- The run rule for a caller none of whose calls raises: what every call that returns keeps holds
after the run. -/
theorem runAll_invariant_of_ok {P : σ → Prop} {xs : List ι} {s : σ} (hs : P s)
    (hok : AllOk (runAll f xs s).1)
    (hstep : ∀ x ∈ xs, ∀ s a s', P s → f x s = (.ok a, s') → P s') : P (runAll f xs s).2 := by
  induction xs generalizing s with
  | nil => exact hs
  | cons x xs ih =>
    obtain ⟨a, ha⟩ := hok.head
    exact ih (hstep x List.mem_cons_self s a _ hs ha) hok.tail fun y hy =>
      hstep y (List.mem_cons_of_mem x hy)

theorem allOk_concat {xs : List ι} {x : ι} {s : σ} :
    AllOk (runAll f (xs ++ [x]) s).1 ↔
      AllOk (runAll f xs s).1 ∧ ∃ a, f x (runAll f xs s).2 = (.ok a, (f x (runAll f xs s).2).2) := by
  rw [runAll_append]
  constructor
  · intro h
    refine ⟨fun r hr => h r (List.mem_append_left _ hr), ?_⟩
    obtain ⟨a, ha⟩ := h (f x (runAll f xs s).2).1 (List.mem_append_right _ List.mem_cons_self)
    exact ⟨a, by rw [← ha]⟩
  · rintro ⟨h, a, ha⟩ r hr
    rcases List.mem_append.mp hr with hr | hr
    · exact h r hr
    · exact ⟨a, by rw [List.mem_singleton.mp hr, ha]⟩

/-- A loop over calls that do not raise makes the calls of the run. -/
theorem forEach_of_allOk {xs : List ι} {s : σ} (h : AllOk (runAll f xs s).1) :
    ∃ as, forEach f xs s = (.ok as, (runAll f xs s).2) := by
  induction xs generalizing s with
  | nil => exact ⟨[], rfl⟩
  | cons x xs ih =>
    obtain ⟨a, ha⟩ := h.head
    obtain ⟨as, has⟩ := ih h.tail
    exact ⟨a :: as, forEach_cons_eq_ok.mpr ⟨a, as, _, ha, has, rfl⟩⟩

/-- Calls that do not raise in the states they keep: no call of the run raises. -/
theorem allOk_runAll {I : σ → Prop} {xs : List ι} (hf : ∀ x ∈ xs, Succeeds I (f x)) {s : σ}
    (hs : I s) : AllOk (runAll f xs s).1 := by
  induction xs generalizing s with
  | nil => exact fun r hr => absurd hr List.not_mem_nil
  | cons x xs ih =>
    obtain ⟨a, s', hfx, hs'⟩ := hf x List.mem_cons_self s hs
    intro r hr
    rw [runAll_cons, hfx, List.mem_cons] at hr
    rcases hr with rfl | hr
    · exact ⟨a, rfl⟩
    · exact ih (fun y hy => hf y (List.mem_cons_of_mem x hy)) hs' r hr

/-- The outcomes of the calls whose arguments satisfy `p`. -/
def outcomesOf (f : ι → Procedure σ ε α) (p : ι → Bool) : List ι → σ → List (Except ε α)
  | [], _ => []
  | x :: xs, s =>
    if p x then (f x s).1 :: outcomesOf f p xs (f x s).2 else outcomesOf f p xs (f x s).2

/-- A view that the calls outside `p` leave alone, and that the calls of `p` keep, is kept when the
calls outside `p` are deleted. -/
theorem runAll_relate_filter {V : σ → σ → Prop} {p : ι → Bool} {xs : List ι}
    (hout : ∀ x ∈ xs, p x = false → ∀ s t, V s t → V (f x s).2 t)
    (hin : ∀ x ∈ xs, p x = true → ∀ s t, V s t → V (f x s).2 (f x t).2) {s t : σ} (hV : V s t) :
    V (runAll f xs s).2 (runAll f (xs.filter p) t).2 := by
  induction xs generalizing s t with
  | nil => exact hV
  | cons x xs ih =>
    have ih' : ∀ {s t : σ}, V s t → V (runAll f xs s).2 (runAll f (xs.filter p) t).2 :=
      ih (fun y hy => hout y (List.mem_cons_of_mem x hy)) fun y hy =>
        hin y (List.mem_cons_of_mem x hy)
    by_cases hx : p x = true
    · rw [List.filter_cons_of_pos hx]
      exact ih' (hin x List.mem_cons_self hx s t hV)
    · rw [List.filter_cons_of_neg hx]
      exact ih' (hout x List.mem_cons_self (Bool.eq_false_iff.mpr hx) s t hV)

/-- **Noninterference of runs.**  When the calls outside `p` leave the view alone and the calls of
`p` see nothing but the view, deleting the calls outside `p` changes neither the outcomes of the
others nor the view. -/
theorem runAll_agree_filter {V : σ → σ → Prop} {p : ι → Bool} {xs : List ι}
    (hout : ∀ x ∈ xs, p x = false → ∀ s t, V s t → V (f x s).2 t)
    (hin : ∀ x ∈ xs, p x = true → Agree V (f x) (f x)) {s t : σ} (hV : V s t) :
    outcomesOf f p xs s = (runAll f (xs.filter p) t).1 ∧
      V (runAll f xs s).2 (runAll f (xs.filter p) t).2 := by
  refine ⟨?_, runAll_relate_filter hout (fun x hx hp s t hst => (hin x hx hp s t hst).2) hV⟩
  induction xs generalizing s t with
  | nil => rfl
  | cons x xs ih =>
    have ih' : ∀ {s t : σ}, V s t → outcomesOf f p xs s = (runAll f (xs.filter p) t).1 :=
      ih (fun y hy => hout y (List.mem_cons_of_mem x hy)) fun y hy =>
        hin y (List.mem_cons_of_mem x hy)
    by_cases hx : p x = true
    · obtain ⟨hres, hst⟩ := hin x List.mem_cons_self hx s t hV
      rw [List.filter_cons_of_pos hx, runAll_cons, outcomesOf, if_pos hx, hres, ih' hst]
    · have hst := hout x List.mem_cons_self (Bool.eq_false_iff.mpr hx) s t hV
      rw [List.filter_cons_of_neg hx, outcomesOf, if_neg hx, ih' hst]

end Runs

end Procedure

/-- Evaluating the items of a list one after the other returns when each of them does. -/
theorem mapM_succeeds {ε α β : Type} {f : α → Except ε β} {l : List α}
    (h : ∀ a ∈ l, ∃ b, f a = .ok b) : ∃ bs, l.mapM f = .ok bs := by
  induction l with
  | nil => exact ⟨[], rfl⟩
  | cons a l ih =>
    obtain ⟨b, hb⟩ := h a List.mem_cons_self
    obtain ⟨bs, hbs⟩ := ih fun c hc => h c (List.mem_cons_of_mem a hc)
    refine ⟨b :: bs, ?_⟩
    rw [List.mapM_cons, hb, hbs]
    rfl

end Library
end Scam2Market
