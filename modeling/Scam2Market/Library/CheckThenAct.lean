import Scam2Market.Library.Transactions

/-!
# Check, then act

Requests that read a row without a lock, refuse unless it is pending, and then write it as decided.  Each
request decides one row; any number of them run beside each other.

* `checkThenAct`: such a request.
* `DecidedOnce`: at most one request for a row succeeds, and the row keeps what that request wrote.
* `Overwrites`: a request commits on a row that has been decided since it was read.
* `decidedOnce_iff`: the first holds in every state of a run exactly when the second happens in no step.
-/

namespace Scam2Market
namespace Library

variable {ι κ σ ε ρ β : Type}

/-- The rest of the request, with the row that was read. -/
def actOn (pending : ρ → Bool) (absent decided : ε) (key : κ) (write : ρ → σ → Except ε σ) :
    Option ρ → Transaction κ σ ε Unit
  | none => .raise absent
  | some r => if pending r then .lock key fun _ => .commit (write r) () else .raise decided

/-- Read the row of the key, refuse unless it is pending, and then write with what was read. -/
def checkThenAct (row : κ → σ → Option ρ) (pending : ρ → Bool) (absent decided : ε) (key : κ)
    (write : ρ → σ → Except ε σ) : Transaction κ σ ε Unit :=
  .select fun s => actOn pending absent decided key write (row key s)

/-- What the write of a request does: its row is decided, with the verdict of the request, and no other
row is touched. -/
structure Decides (row : κ → σ → Option ρ) (pending : ρ → Bool) (verdict : ρ → β) (key : κ)
    (write : ρ → σ → Except ε σ) (written : β) : Prop where
  own : ∀ found s s' r, write found s = .ok s' → row key s = some r →
    ∃ r', row key s' = some r' ∧ pending r' = false ∧ verdict r' = written
  other : ∀ found s s', write found s = .ok s' → ∀ key' ≠ key, row key' s' = row key' s

namespace Database

variable [DecidableEq ι] [DecidableEq κ] {row : κ → σ → Option ρ} {pending : ρ → Bool}
  {verdict : ρ → β} {absent decided : ε} {key : ι → κ} {write : ι → ρ → σ → Except ε σ}
  {written : ι → β}
  {db db' : Database ι κ σ ε Unit} {i j : ι} {move : Move ι}

omit [DecidableEq ι] [DecidableEq κ] in
/-- The request has found its row pending and has not ended. -/
def Underway (key : ι → κ) (write : ι → ρ → σ → Except ε σ) (db : Database ι κ σ ε Unit) (i : ι) :
    Prop :=
  ∃ found, db.session i = .running (.lock (key i) fun _ => .commit (write i found) ()) ∨
    db.session i = .running (.commit (write i found) ())

omit [DecidableEq ι] [DecidableEq κ] in
/-- At most one request for a row succeeds, and the row keeps its verdict. -/
structure DecidedOnce (row : κ → σ → Option ρ) (verdict : ρ → β) (key : ι → κ) (written : ι → β)
    (db : Database ι κ σ ε Unit) : Prop where
  once : ∀ i j, db.session i = .succeeded () → db.session j = .succeeded () → key i = key j → i = j
  kept : ∀ i, db.session i = .succeeded () →
    ∃ r, row (key i) db.state = some r ∧ verdict r = written i

omit [DecidableEq ι] [DecidableEq κ] in
/-- The step commits a request whose row has been decided since it was read. -/
def Overwrites (row : κ → σ → Option ρ) (pending : ρ → Bool) (key : ι → κ)
    (write : ι → ρ → σ → Except ε σ) (db : Database ι κ σ ε Unit) : Move ι → Prop
  | .advance i => ∃ found s' r, db.session i = .running (.commit (write i found) ()) ∧
      write i found db.state = .ok s' ∧ row (key i) db.state = some r ∧ pending r = false
  | .abort _ => False

omit [DecidableEq ι] [DecidableEq κ] in
/-- What holds while nothing is overwritten. -/
structure Reviewing (row : κ → σ → Option ρ) (pending : ρ → Bool) (verdict : ρ → β) (absent decided : ε)
    (key : ι → κ) (write : ι → ρ → σ → Except ε σ) (written : ι → β) (db : Database ι κ σ ε Unit) :
    Prop where
  stage : ∀ i transaction, db.session i = .running transaction →
    transaction = checkThenAct row pending absent decided (key i) (write i) ∨
      Underway key write db i ∨ ∃ error, transaction = .raise error
  found : ∀ i, Underway key write db i → ∃ r, row (key i) db.state = some r ∧
    (pending r = true ∨ ∃ j, key j = key i ∧ db.session j = .succeeded ())
  kept : ∀ i, db.session i = .succeeded () →
    ∃ r, row (key i) db.state = some r ∧ pending r = false ∧ verdict r = written i
  once : ∀ i j, db.session i = .succeeded () → db.session j = .succeeded () → key i = key j → i = j

namespace Reviewing

variable (h : Reviewing row pending verdict absent decided key write written db)
include h

omit [DecidableEq ι] [DecidableEq κ] in
theorem decidedOnce : DecidedOnce row verdict key written db :=
  ⟨h.once, fun i hsession => (h.kept i hsession).imp fun _ hr => ⟨hr.1, hr.2.2⟩⟩

omit [DecidableEq ι] [DecidableEq κ] in
/-- A step that commits nothing: the requests that are under way found their rows. -/
theorem of_quiet (hstate : db'.state = db.state)
    (hsession : ∀ j transaction, db'.session j = .running transaction →
      transaction = checkThenAct row pending absent decided (key j) (write j) ∨
        Underway key write db' j ∨ ∃ error, transaction = .raise error)
    (hunderway : ∀ j, Underway key write db' j → Underway key write db j ∨
      ∃ r, row (key j) db.state = some r ∧ pending r = true)
    (hsucceeded : ∀ j, db'.session j = .succeeded () ↔ db.session j = .succeeded ()) :
    Reviewing row pending verdict absent decided key write written db' where
  stage := hsession
  found := fun j hj => by
    rw [hstate]
    rcases hunderway j hj with hbefore | ⟨r, hr, hpending⟩
    · obtain ⟨r, hr, hcase⟩ := h.found j hbefore
      exact ⟨r, hr, hcase.imp_right fun ⟨k, hkey, hk⟩ => ⟨k, hkey, (hsucceeded k).mpr hk⟩⟩
    · exact ⟨r, hr, Or.inl hpending⟩
  kept := fun j hj => by
    rw [hstate]
    exact h.kept j ((hsucceeded j).mp hj)
  once := fun i j hi hj => h.once i j ((hsucceeded i).mp hi) ((hsucceeded j).mp hj)

/-- A request that was running goes on. -/
theorem goOn {before transaction : Transaction κ σ ε Unit} (hrunning : db.session i = .running before)
    (hstage : (∃ found, transaction = .lock (key i) (fun _ => .commit (write i found) ()) ∨
      transaction = .commit (write i found) ()) ∨ ∃ error, transaction = .raise error)
    (hfound : (∃ error, transaction = .raise error) ∨ Underway key write db i ∨
      ∃ r, row (key i) db.state = some r ∧ pending r = true) :
    Reviewing row pending verdict absent decided key write written (db.goOn i transaction) := by
  have hself := session_goOn_self db i transaction
  refine h.of_quiet rfl (fun j transaction' hsession => ?_) (fun j hj => ?_) fun j => ?_
  · by_cases hij : j = i
    · subst hij
      rw [hself] at hsession
      rw [← Session.running.inj hsession]
      rcases hstage with ⟨found, hlock | hcommit⟩ | hraise
      · exact Or.inr (Or.inl ⟨found, Or.inl (hlock ▸ hself)⟩)
      · exact Or.inr (Or.inl ⟨found, Or.inr (hcommit ▸ hself)⟩)
      · exact Or.inr (Or.inr hraise)
    · rw [session_goOn_of_ne hij] at hsession
      rw [Underway, session_goOn_of_ne hij]
      exact h.stage j transaction' hsession
  · by_cases hij : j = i
    · subst hij
      refine hfound.resolve_left ?_
      rintro ⟨error, rfl⟩
      rw [Underway, hself] at hj
      obtain ⟨found, hlock | hcommit⟩ := hj
      · exact nomatch hlock
      · exact nomatch hcommit
    · rw [Underway, session_goOn_of_ne hij] at hj
      exact Or.inl hj
  · by_cases hij : j = i
    · subst hij
      rw [hself, hrunning]
      exact iff_of_false (fun heq => nomatch heq) fun heq => nomatch heq
    · rw [session_goOn_of_ne hij]

/-- A request ends without a commit. -/
theorem stop {before : Transaction κ σ ε Unit} {session : Session κ σ ε Unit}
    (hrunning : db.session i = .running before) (hstopped : session.Stopped) :
    Reviewing row pending verdict absent decided key write written (db.stop i session) := by
  have hself : ∀ session', (db.stop i session).session i = session' → session'.Stopped := by
    rintro session' rfl
    rw [session_stop_self]
    exact hstopped
  have hrunning' : ∀ transaction, (db.stop i session).session i ≠ .running transaction :=
    fun transaction heq => hself _ heq
  have hsucceeded : (db.stop i session).session i ≠ .succeeded () := fun heq => hself _ heq
  refine h.of_quiet rfl (fun j transaction' hsession => ?_) (fun j hj => ?_) fun j => ?_
  · by_cases hij : j = i
    · subst hij
      exact absurd hsession (hrunning' _)
    · rw [session_stop_of_ne hij] at hsession
      rw [Underway, session_stop_of_ne hij]
      exact h.stage j transaction' hsession
  · by_cases hij : j = i
    · subst hij
      obtain ⟨found, hlock | hcommit⟩ := hj
      · exact absurd hlock (hrunning' _)
      · exact absurd hcommit (hrunning' _)
    · rw [Underway, session_stop_of_ne hij] at hj
      exact Or.inl hj
  · by_cases hij : j = i
    · subst hij
      refine iff_of_false hsucceeded fun heq => ?_
      rw [hrunning] at heq
      exact nomatch heq
    · rw [session_stop_of_ne hij]

/-- A request commits on a row that is still pending. -/
theorem succeed (hwrites : ∀ i, Decides row pending verdict (key i) (write i) (written i)) {s' : σ}
    {found : ρ} (hrunning : db.session i = .running (.commit (write i found) ()))
    (hwrite : write i found db.state = .ok s')
    (hpending : ∀ r, row (key i) db.state = some r → pending r = true) :
    Reviewing row pending verdict absent decided key write written (db.succeed i s' ()) := by
  have hself := session_succeed_self db i s' ()
  obtain ⟨r, hr, -⟩ := h.found i ⟨found, Or.inr hrunning⟩
  obtain ⟨r', hr', hdecided, hverdict⟩ := (hwrites i).own found db.state s' r hwrite hr
  -- nothing has succeeded for the row before, since it is pending
  have hfirst : ∀ j, db.session j = .succeeded () → key j ≠ key i := by
    intro j hj hkey
    obtain ⟨other, hother, hdone, -⟩ := h.kept j hj
    rw [hkey] at hother
    rw [hpending other hother] at hdone
    exact nomatch hdone
  have hrow : ∀ j, key j ≠ key i → row (key j) s' = row (key j) db.state := fun j hj =>
    (hwrites i).other found db.state s' hwrite (key j) hj
  have hsucceeded : ∀ j, (db.succeed i s' ()).session j = .succeeded () →
      j = i ∨ db.session j = .succeeded () := by
    intro j hj
    by_cases hij : j = i
    · exact Or.inl hij
    · rw [session_succeed_of_ne hij] at hj
      exact Or.inr hj
  refine ⟨fun j transaction hsession => ?_, fun j hj => ?_, fun j hj => ?_, fun j k hj hk hkey => ?_⟩
  · by_cases hij : j = i
    · rw [hij, hself] at hsession
      exact nomatch hsession
    · rw [session_succeed_of_ne hij] at hsession
      rw [Underway, session_succeed_of_ne hij]
      exact h.stage j transaction hsession
  · by_cases hij : j = i
    · subst hij
      rw [Underway, hself] at hj
      obtain ⟨found, hlock | hcommit⟩ := hj
      · exact nomatch hlock
      · exact nomatch hcommit
    · rw [Underway, session_succeed_of_ne hij] at hj
      by_cases hkey : key j = key i
      · exact ⟨r', hkey ▸ hr', Or.inr ⟨i, hkey.symm, hself⟩⟩
      · obtain ⟨other, hother, hcase⟩ := h.found j hj
        refine ⟨other, (hrow j hkey).trans hother, hcase.imp_right ?_⟩
        rintro ⟨k, hk, hdone⟩
        refine ⟨k, hk, ?_⟩
        rw [session_succeed_of_ne fun heq => hkey (hk.symm.trans (congrArg key heq))]
        exact hdone
  · rcases hsucceeded j hj with rfl | hbefore
    · exact ⟨r', hr', hdecided, hverdict⟩
    · show ∃ r, row (key j) s' = some r ∧ _
      rw [hrow j (hfirst j hbefore)]
      exact h.kept j hbefore
  · rcases hsucceeded j hj with rfl | hbefore
    · rcases hsucceeded k hk with rfl | hbefore'
      · rfl
      · exact absurd hkey.symm (hfirst k hbefore')
    · rcases hsucceeded k hk with rfl | hbefore'
      · exact absurd hkey (hfirst j hbefore)
      · exact h.once j k hbefore hbefore' hkey

end Reviewing

omit [DecidableEq ι] [DecidableEq κ] in
/-- A request that waits for a lock has found its row and will commit. -/
theorem Reviewing.of_lock (h : Reviewing row pending verdict absent decided key write written db)
    {key' : κ} {next : σ → Transaction κ σ ε Unit}
    (hsession : db.session i = .running (.lock key' next)) :
    (∃ found, next = fun _ => .commit (write i found) ()) ∧ Underway key write db i := by
  rcases h.stage i _ hsession with hstart | hunderway | ⟨error, hraise⟩
  · exact nomatch hstart
  · refine ⟨?_, hunderway⟩
    obtain ⟨found, hlock | hcommit⟩ := hunderway
    · rw [hsession] at hlock
      exact ⟨found, (Transaction.lock.inj (Session.running.inj hlock)).2⟩
    · rw [hsession] at hcommit
      exact nomatch hcommit
  · exact nomatch hraise

omit [DecidableEq ι] [DecidableEq κ] in
/-- A request that commits makes its own write. -/
theorem Reviewing.of_commit (h : Reviewing row pending verdict absent decided key write written db)
    {write' : σ → Except ε σ} {value : Unit}
    (hsession : db.session i = .running (.commit write' value)) : ∃ found, write' = write i found := by
  rcases h.stage i _ hsession with hstart | ⟨found, hlock | hcommit⟩ | ⟨error, hraise⟩
  · exact nomatch hstart
  · rw [hsession] at hlock
    exact nomatch hlock
  · rw [hsession] at hcommit
    exact ⟨found, (Transaction.commit.inj (Session.running.inj hcommit)).1⟩
  · exact nomatch hraise

/-- A step that overwrites nothing. -/
theorem Reviewing.step (hwrites : ∀ i, Decides row pending verdict (key i) (write i) (written i))
    (h : Reviewing row pending verdict absent decided key write written db)
    (hkeeps : ¬ Overwrites row pending key write db move) :
    Reviewing row pending verdict absent decided key write written (db.step row move) := by
  have heffect := effect_step row db move
  generalize hnext : db.step row move = next at heffect
  cases heffect with
  | idle => exact h
  | @select i next hsession =>
    rcases h.stage i _ hsession with hstart | hunderway | ⟨error, hraise⟩
    · obtain rfl := Transaction.select.inj hstart
      dsimp only
      cases hrow : row (key i) db.state with
      | none => exact h.goOn hsession (Or.inr ⟨absent, rfl⟩) (Or.inl ⟨absent, rfl⟩)
      | some found =>
        by_cases hpending : pending found = true
        · rw [actOn, if_pos hpending]
          exact h.goOn hsession (Or.inl ⟨found, Or.inl rfl⟩) (Or.inr (Or.inr ⟨found, hrow, hpending⟩))
        · rw [actOn, if_neg hpending]
          exact h.goOn hsession (Or.inr ⟨decided, rfl⟩) (Or.inl ⟨decided, rfl⟩)
    · rw [Underway, hsession] at hunderway
      obtain ⟨found, hlock | hcommit⟩ := hunderway
      · exact nomatch hlock
      · exact nomatch hcommit
    · exact nomatch hraise
  | @pass i key' next hsession hrow =>
    obtain ⟨⟨found, rfl⟩, hunderway⟩ := h.of_lock hsession
    exact h.goOn hsession (Or.inl ⟨found, Or.inr rfl⟩) (Or.inr (Or.inl hunderway))
  | @acquire i key' next hsession hrow hfree =>
    obtain ⟨⟨found, rfl⟩, hunderway⟩ := h.of_lock hsession
    have hacquire : Reviewing row pending verdict absent decided key write written
        (db.acquire i key') := ⟨h.stage, h.found, h.kept, h.once⟩
    exact hacquire.goOn hsession (Or.inl ⟨found, Or.inr rfl⟩) (Or.inr (Or.inl hunderway))
  | @stop _ i transaction session hsession hstopped => exact h.stop hsession hstopped
  | @succeed i write' value s' hsession hwrite =>
    obtain ⟨found, rfl⟩ := h.of_commit hsession
    refine h.succeed hwrites hsession hwrite fun r hr => ?_
    by_contra hdone
    exact hkeeps ⟨found, s', r, hsession, hwrite, hr, Bool.eq_false_iff.mpr hdone⟩

/-- A step that overwrites a decision makes a second request succeed. -/
theorem Reviewing.not_decidedOnce_step
    (h : Reviewing row pending verdict absent decided key write written db)
    (hoverwrites : Overwrites row pending key write db move) :
    ¬ DecidedOnce row verdict key written (db.step row move) := by
  cases move with
  | abort i => exact hoverwrites.elim
  | advance i =>
    obtain ⟨found, s', r, hsession, hwrite, hr, hdone⟩ := hoverwrites
    have hstep : db.step row (.advance i) = db.succeed i s' () := by
      simp only [Database.step, hsession, hwrite]
    obtain ⟨other, hother, hcase⟩ := h.found i ⟨found, Or.inr hsession⟩
    rcases hcase with hpending | ⟨j, hkey, hj⟩
    · rw [← Option.some.inj (hr.symm.trans hother), hdone] at hpending
      cases hpending
    · intro honce
      have hne : j ≠ i := by
        rintro rfl
        rw [hsession] at hj
        cases hj
      rw [hstep] at honce
      refine hne (honce.once j i ?_ (session_succeed_self db i s' ()) hkey)
      rw [session_succeed_of_ne hne]
      exact hj

omit [DecidableEq ι] [DecidableEq κ] in
theorem reviewing_initial (row : κ → σ → Option ρ) (pending : ρ → Bool) (verdict : ρ → β)
    (absent decided : ε) (key : ι → κ) (write : ι → ρ → σ → Except ε σ) (written : ι → β) (state : σ) :
    Reviewing row pending verdict absent decided key write written
      (initial (fun i => checkThenAct row pending absent decided (key i) (write i)) state) where
  stage := fun _ _ hsession => Or.inl (Session.running.inj hsession).symm
  found := by
    rintro i ⟨found, hlock | hcommit⟩
    · exact nomatch hlock
    · exact nomatch hcommit
  kept := fun _ hi => nomatch hi
  once := fun _ _ hi => nomatch hi

/-- **A row is decided once as long as no decision is overwritten**, and no longer. -/
theorem decidedOnce_iff (hwrites : ∀ i, Decides row pending verdict (key i) (write i) (written i))
    (absent decided : ε) (state : σ) (moves : List (Move ι)) :
    Always (step row) (DecidedOnce row verdict key written)
        (initial (fun i => checkThenAct row pending absent decided (key i) (write i)) state) moves ↔
      Throughout (step row) (fun db move => ¬ Overwrites row pending key write db move)
        (initial (fun i => checkThenAct row pending absent decided (key i) (write i)) state) moves :=
  always_iff_throughout
    (I := Reviewing row pending verdict absent decided key write written)
    (fun _ _ h hkeeps => h.step hwrites hkeeps) (fun _ h => h.decidedOnce)
    (fun _ _ h hoverwrites => h.not_decidedOnce_step (not_not.mp hoverwrites))
    (reviewing_initial row pending verdict absent decided key write written state) moves

end Database

end Library
end Scam2Market
