import Scam2Market.Library.Transactions

/-!
# What concurrent transactions guarantee each other

The rule of rely and guarantee for transactions at READ COMMITTED.

* `Transaction.Keeps R I P s`: from a moment at which the state is `s`, the transaction commits only writes
  that keep `I` and take the state to one that is `R`-related to it, and what it then returns satisfies `P`;
  it may rely on every state that it meets being related to `s` and satisfying `I`.  So what it has read
  and what only grows it may use.
* `guaranteed_run`: when every handler keeps its guarantee, so does every interleaving of them.
* `always_iff_never_stale`: a property that some commits break, and no others, holds as long as none of them
  is made, and no longer.
-/

namespace Scam2Market
namespace Library

variable {ι κ σ ε α ρ : Type} {R : σ → σ → Prop} {I : σ → Prop} {P : α → σ → Prop} {s s' : σ}

namespace Transaction

/-- What the transaction relies on and guarantees, seen from the state `s`. -/
def Keeps (R : σ → σ → Prop) (I : σ → Prop) (P : α → σ → Prop) (s : σ) : Transaction κ σ ε α → Prop
  | select next => ∀ s', R s s' → I s' → (next s').Keeps R I P s'
  | lock _ next => ∀ s', R s s' → I s' → (next s').Keeps R I P s'
  | commit write value => ∀ s' s'', R s s' → I s' → write s' = .ok s'' → R s' s'' ∧ I s'' ∧ P value s''
  | raise _ => True

theorem keeps_select {next : σ → Transaction κ σ ε α}
    (h : ∀ s', R s s' → I s' → (next s').Keeps R I P s') : (select next).Keeps R I P s :=
  h

/-- What others do does not hurt. -/
theorem Keeps.of_related (htrans : ∀ a b c, R a b → R b c → R a c) (hR : R s s')
    {transaction : Transaction κ σ ε α} (h : transaction.Keeps R I P s) : transaction.Keeps R I P s' := by
  cases transaction with
  | select next => exact fun t ht => h t (htrans s s' t hR ht)
  | lock key next => exact fun t ht => h t (htrans s s' t hR ht)
  | commit write value => exact fun t t' ht => h t t' (htrans s s' t hR ht)
  | raise error => trivial

/-- Every write that the transaction can commit is of a kind. -/
def Commits (C : (σ → Except ε σ) → Prop) : Transaction κ σ ε α → Prop
  | select next => ∀ s, (next s).Commits C
  | lock _ next => ∀ s, (next s).Commits C
  | commit write _ => C write
  | raise _ => True

end Transaction

namespace Database

/-- What holds in a run: the state satisfies the invariant and is related to the first one, every request
that runs keeps its guarantee, and what a request has returned satisfies what was promised of it. -/
structure Guaranteed (R : σ → σ → Prop) (I : σ → Prop) (P : ι → α → σ → Prop) (first : σ)
    (db : Database ι κ σ ε α) : Prop where
  related : R first db.state
  holds : I db.state
  running : ∀ i transaction, db.session i = .running transaction → transaction.Keeps R I (P i) db.state
  returned : ∀ i value, db.session i = .succeeded value → P i value db.state

/-- What a family of guarantees has to satisfy. -/
structure Lasting (R : σ → σ → Prop) (I : σ → Prop) (P : ι → α → σ → Prop) : Prop where
  refl : ∀ s, R s s
  trans : ∀ s s' s'', R s s' → R s' s'' → R s s''
  kept : ∀ i value s s', P i value s → R s s' → I s' → P i value s'

variable [DecidableEq ι] [DecidableEq κ] {row : κ → σ → Option ρ} {db db' : Database ι κ σ ε α}
  {i : ι} {move : Move ι} {first : σ} {P : ι → α → σ → Prop}

omit [DecidableEq κ] in
theorem Guaranteed.goOn (h : Guaranteed R I P first db) {transaction : Transaction κ σ ε α}
    (hkeeps : transaction.Keeps R I (P i) db.state) : Guaranteed R I P first (db.goOn i transaction) := by
  refine ⟨h.related, h.holds, fun j transaction' hsession => ?_, fun j value hsession => ?_⟩
  · by_cases hj : j = i
    · subst hj
      rw [session_goOn_self] at hsession
      rw [← Session.running.inj hsession]
      exact hkeeps
    · rw [session_goOn_of_ne hj] at hsession
      exact h.running j transaction' hsession
  · by_cases hj : j = i
    · rw [hj, session_goOn_self] at hsession
      cases hsession
    · rw [session_goOn_of_ne hj] at hsession
      exact h.returned j value hsession

omit [DecidableEq κ] in
theorem Guaranteed.stop (h : Guaranteed R I P first db) {session : Session κ σ ε α}
    (hstopped : session.Stopped) : Guaranteed R I P first (db.stop i session) := by
  refine ⟨h.related, h.holds, fun j transaction hsession => ?_, fun j value hsession => ?_⟩
  · by_cases hj : j = i
    · rw [hj, session_stop_self] at hsession
      rw [hsession] at hstopped
      exact hstopped.elim
    · rw [session_stop_of_ne hj] at hsession
      exact h.running j transaction hsession
  · by_cases hj : j = i
    · rw [hj, session_stop_self] at hsession
      rw [hsession] at hstopped
      exact hstopped.elim
    · rw [session_stop_of_ne hj] at hsession
      exact h.returned j value hsession

omit [DecidableEq κ] in
/-- A commit that keeps the guarantee leaves those of the others. -/
theorem Guaranteed.succeed (hlasting : Lasting R I P) (h : Guaranteed R I P first db) {state : σ}
    {value : α} (hR : R db.state state) (hI : I state) (hP : P i value state) :
    Guaranteed R I P first (db.succeed i state value) := by
  refine ⟨hlasting.trans _ _ _ h.related hR, hI, fun j transaction hsession => ?_,
    fun j value' hsession => ?_⟩
  · by_cases hj : j = i
    · rw [hj, session_succeed_self] at hsession
      cases hsession
    · rw [session_succeed_of_ne hj] at hsession
      exact (h.running j transaction hsession).of_related hlasting.trans hR
  · by_cases hj : j = i
    · subst hj
      rw [session_succeed_self] at hsession
      rw [← Session.succeeded.inj hsession]
      exact hP
    · rw [session_succeed_of_ne hj] at hsession
      exact hlasting.kept j value' _ _ (h.returned j value' hsession) hR hI

theorem Guaranteed.effect (hlasting : Lasting R I P) (h : Guaranteed R I P first db)
    (heffect : Effect row db move db') : Guaranteed R I P first db' := by
  cases heffect with
  | idle => exact h
  | select hrunning => exact h.goOn (h.running _ _ hrunning db.state (hlasting.refl _) h.holds)
  | pass hrunning _ => exact h.goOn (h.running _ _ hrunning db.state (hlasting.refl _) h.holds)
  | @acquire i key next hrunning _ _ =>
    have hacquire : Guaranteed R I P first (db.acquire i key) :=
      ⟨h.related, h.holds, h.running, h.returned⟩
    exact hacquire.goOn (h.running _ _ hrunning db.state (hlasting.refl _) h.holds)
  | stop _ hstopped => exact h.stop hstopped
  | succeed hrunning hwrite =>
    obtain ⟨hR, hI, hP⟩ := h.running _ _ hrunning db.state _ (hlasting.refl _) h.holds hwrite
    exact h.succeed hlasting hR hI hP

omit [DecidableEq ι] [DecidableEq κ] in
theorem guaranteed_initial (hlasting : Lasting R I P) {handler : ι → Transaction κ σ ε α} (hI : I first)
    (hkeeps : ∀ i, (handler i).Keeps R I (P i) first) :
    Guaranteed R I P first (initial handler first : Database ι κ σ ε α) := by
  refine ⟨hlasting.refl first, hI, fun i transaction hsession => ?_, fun i value hsession => ?_⟩
  · rw [← Session.running.inj hsession]
    exact hkeeps i
  · cases hsession

/-- **When every handler keeps its guarantee, every interleaving does.** -/
theorem guaranteed_run (hlasting : Lasting R I P) (row : κ → σ → Option ρ)
    {handler : ι → Transaction κ σ ε α} (hI : I first)
    (hkeeps : ∀ i, (handler i).Keeps R I (P i) first) (moves : List (Move ι)) :
    Guaranteed R I P first (run (step row) (initial handler first) moves) :=
  run_invariant (fun db move h => h.effect hlasting (effect_step row db move))
    (guaranteed_initial hlasting hI hkeeps) moves

/-! ## Commits that break a property -/

section Breaks

variable {C : (σ → Except ε σ) → Prop} {Q : σ → Prop} {Stale : (σ → Except ε σ) → σ → Prop}

/-- Whatever still runs commits writes of the kind only. -/
def Committing (C : (σ → Except ε σ) → Prop) (db : Database ι κ σ ε α) : Prop :=
  ∀ i transaction, db.session i = .running transaction → transaction.Commits C

/-- The step commits a write that is stale for the state it meets. -/
def CommitsStale (Stale : (σ → Except ε σ) → σ → Prop) (db : Database ι κ σ ε α) : Move ι → Prop
  | .advance i => ∃ write value s', db.session i = .running (.commit write value) ∧
      write db.state = .ok s' ∧ Stale write db.state
  | .abort _ => False

omit [DecidableEq κ] in
theorem Committing.goOn (h : Committing C db) {transaction : Transaction κ σ ε α}
    (hcommits : transaction.Commits C) : Committing C (db.goOn i transaction) := by
  intro j transaction' hsession
  by_cases hj : j = i
  · subst hj
    rw [session_goOn_self] at hsession
    rw [← Session.running.inj hsession]
    exact hcommits
  · rw [session_goOn_of_ne hj] at hsession
    exact h j transaction' hsession

theorem Committing.effect (h : Committing C db) (heffect : Effect row db move db') : Committing C db' := by
  cases heffect with
  | idle => exact h
  | select hrunning => exact h.goOn (h _ _ hrunning db.state)
  | pass hrunning _ => exact h.goOn (h _ _ hrunning db.state)
  | @acquire i key next hrunning _ _ =>
    have hacquire : Committing C (db.acquire i key) := h
    exact hacquire.goOn (h _ _ hrunning db.state)
  | @stop _ i _ session _ hstopped =>
    intro j transaction hsession
    by_cases hj : j = i
    · rw [hj, session_stop_self] at hsession
      rw [hsession] at hstopped
      exact hstopped.elim
    · rw [session_stop_of_ne hj] at hsession
      exact h j transaction hsession
  | @succeed i _ _ _ _ _ =>
    intro j transaction hsession
    by_cases hj : j = i
    · rw [hj, session_succeed_self] at hsession
      cases hsession
    · rw [session_succeed_of_ne hj] at hsession
      exact h j transaction hsession

omit [DecidableEq ι] [DecidableEq κ] in
/-- A commit that meets no constraint is stale exactly when its write is. -/
theorem commitsStale_iff {write : σ → Except ε σ} {value : α} {s' : σ}
    (hsession : db.session i = .running (.commit write value)) (hwrite : write db.state = .ok s') :
    CommitsStale Stale db (.advance i) ↔ Stale write db.state := by
  constructor
  · rintro ⟨write', value', s'', hsession', -, hstale⟩
    rw [hsession] at hsession'
    obtain ⟨rfl, -⟩ := Transaction.commit.inj (Session.running.inj hsession')
    exact hstale
  · exact fun hstale => ⟨write, value, s', hsession, hwrite, hstale⟩

omit [DecidableEq ι] [DecidableEq κ] in
/-- A step that does not commit is not stale. -/
theorem not_commitsStale (h : ∀ write value s', db.session i = .running (.commit write value) →
    write db.state ≠ .ok s') : ¬ CommitsStale Stale db (.advance i) :=
  fun ⟨write, value, s', hsession, hwrite, _⟩ => h write value s' hsession hwrite

/-- What a step does to a property that only stale commits break. -/
theorem Guaranteed.step_state_iff (hlasting : Lasting R I P) (hguaranteed : Guaranteed R I P first db)
    (hcommitting : Committing C db)
    (hbreak : ∀ write s s', C write → R s s' → I s → I s' → Q s → write s = .ok s' →
      (Q s' ↔ ¬ Stale write s))
    (hQ : Q db.state) (move : Move ι) :
    Q (db.step row move).state ↔ ¬ CommitsStale Stale db move := by
  have hquiet : ∀ {i : ι} {transaction : Transaction κ σ ε α},
      db.session i = .running transaction → (∀ write value, transaction ≠ .commit write value) →
      ¬ CommitsStale Stale db (.advance i) := by
    intro i transaction hsession hne
    refine not_commitsStale fun write value s' hsession' => ?_
    rw [hsession] at hsession'
    exact absurd (Session.running.inj hsession') (hne write value)
  have hended : ∀ {i : ι}, (∀ transaction, db.session i ≠ .running transaction) →
      ¬ CommitsStale Stale db (.advance i) := fun hne =>
    not_commitsStale fun write value _ hsession => absurd hsession (hne _)
  cases move with
  | abort i =>
    refine iff_of_true ?_ not_false
    rw [step]
    cases hsession : db.session i <;> exact hQ
  | advance i =>
    cases hsession : db.session i with
    | succeeded value =>
      simp only [step, hsession]
      exact iff_of_true hQ (hended fun _ h => by rw [hsession] at h; cases h)
    | failed error =>
      simp only [step, hsession]
      exact iff_of_true hQ (hended fun _ h => by rw [hsession] at h; cases h)
    | aborted =>
      simp only [step, hsession]
      exact iff_of_true hQ (hended fun _ h => by rw [hsession] at h; cases h)
    | running transaction =>
      cases transaction with
      | select next =>
        simp only [step, hsession]
        exact iff_of_true hQ (hquiet hsession fun _ _ h => by cases h)
      | raise error =>
        simp only [step, hsession]
        exact iff_of_true hQ (hquiet hsession fun _ _ h => by cases h)
      | lock key next =>
        simp only [step, hsession]
        refine iff_of_true ?_ (hquiet hsession fun _ _ h => by cases h)
        split_ifs <;> exact hQ
      | commit write value =>
        cases hwrite : write db.state with
        | error error =>
          simp only [step, hsession, hwrite]
          refine iff_of_true hQ (not_commitsStale fun write' value' s' hsession' => ?_)
          rw [hsession] at hsession'
          obtain ⟨rfl, -⟩ := Transaction.commit.inj (Session.running.inj hsession')
          rw [hwrite]
          exact fun h => by cases h
        | ok s' =>
          simp only [step, hsession, hwrite]
          rw [commitsStale_iff hsession hwrite]
          have hI := hguaranteed.holds
          obtain ⟨hR, hI', -⟩ :=
            hguaranteed.running i _ hsession db.state s' (hlasting.refl _) hI hwrite
          exact hbreak write db.state s' (hcommitting i _ hsession) hR hI hI' hQ hwrite

/-- **A property that only stale commits break holds as long as none is made, and no longer.** -/
theorem always_iff_never_stale (hlasting : Lasting R I P) (row : κ → σ → Option ρ)
    {handler : ι → Transaction κ σ ε α} (hI : I first)
    (hkeeps : ∀ i, (handler i).Keeps R I (P i) first) (hcommits : ∀ i, (handler i).Commits C)
    (hQ : Q first)
    (hbreak : ∀ write s s', C write → R s s' → I s → I s' → Q s → write s = .ok s' →
      (Q s' ↔ ¬ Stale write s))
    (moves : List (Move ι)) :
    Always (step row) (fun db => Q db.state) (initial handler first) moves ↔
      Throughout (step row) (fun db move => ¬ CommitsStale Stale db move) (initial handler first) moves := by
  have hcommitting : Committing C (initial handler first : Database ι κ σ ε α) := by
    intro i transaction hsession
    rw [← Session.running.inj hsession]
    exact hcommits i
  refine always_iff_throughout
    (I := fun db => Guaranteed R I P first db ∧ Committing C db ∧ Q db.state) ?_ (fun _ h => h.2.2) ?_
    ⟨guaranteed_initial hlasting hI hkeeps, hcommitting, hQ⟩ moves
  · intro db move h hfresh
    exact ⟨h.1.effect hlasting (effect_step row db move), h.2.1.effect (effect_step row db move),
      (h.1.step_state_iff hlasting h.2.1 hbreak h.2.2 move).mpr hfresh⟩
  · intro db move h hstale hstill
    exact hstale ((h.1.step_state_iff hlasting h.2.1 hbreak h.2.2 move).mp hstill)

end Breaks

end Database

end Library
end Scam2Market
