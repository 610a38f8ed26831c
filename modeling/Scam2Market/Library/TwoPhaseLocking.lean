import Scam2Market.Library.Transactions

/-!
# Two-phase locking

When every transaction writes only rows that it has locked, or that are new, a transaction that reads
only rows that it has locked does what it would do alone on the state its predecessor left, whatever
runs beside it.

* `Transaction.Respects`: the rows that are there and are not held are not written.
* `Transaction.TwoPhase`: what is read and matters are the rows held; a row that is not there to be
  locked dooms the transaction.
* `Transaction.selectForUpdate`: a `SELECT ... FOR UPDATE`, which looks for rows, locks them and looks at
  them again.
* `Agree`: two states with the same held rows.
* `Database.Guarded`: in a run of transactions that respect the locks, the rows that are held are there
  and every running transaction goes on respecting them.
* `Database.Faithful`: the rest of a two-phase transaction does, on every state with the same held rows,
  what the whole does.
* `serialisable`: every entry of the log of a two-phase request is the request alone.
-/

namespace Scam2Market
namespace Library

variable {ι κ σ ε α ρ : Type} {row : κ → σ → Option ρ}

/-- The rows of some keys are the same. -/
def Agree (row : κ → σ → Option ρ) (keys : Set κ) (s s' : σ) : Prop :=
  ∀ key ∈ keys, row key s = row key s'

namespace Transaction

/-- A transaction that holds some rows writes no other row that is there. -/
def Respects (row : κ → σ → Option ρ) : Set κ → Transaction κ σ ε α → Prop
  | held, select next => ∀ s, (next s).Respects row held
  | held, lock key next => ∀ s, (row key s = none → (next s).Respects row held) ∧
      (row key s ≠ none → (next s).Respects row (insert key held))
  | held, commit write _ => ∀ s s', write s = .ok s' →
      ∀ key ∉ held, row key s ≠ none → row key s' = row key s
  | _, raise _ => True

/-- A transaction that will not commit. -/
def Doomed : Transaction κ σ ε α → Prop
  | select next => ∀ s, (next s).Doomed
  | lock _ next => ∀ s, (next s).Doomed
  | commit _ _ => False
  | raise _ => True

/-- A transaction that holds some rows is doomed, or goes on depending on rows it holds only. -/
def TwoPhase (row : κ → σ → Option ρ) : Set κ → Transaction κ σ ε α → Prop
  | held, select next => ∀ s, (next s).Doomed ∨
      (∀ s', Agree row held s s' → (next s).alone s' = (next s').alone s') ∧
        (next s).TwoPhase row held
  | held, lock key next => ∀ s, (next s).Doomed ∨ row key s ≠ none ∧
      (∀ s', Agree row (insert key held) s s' → (next s).alone s' = (next s').alone s') ∧
        (next s).TwoPhase row (insert key held)
  | _, commit _ _ => True
  | _, raise _ => True

variable {held : Set κ} {key : κ} {f : Option ρ → Transaction κ σ ε α}

/-- A transaction that goes on with the row it has locked. -/
theorem respects_lock (hnone : (f none).Respects row held)
    (hsome : ∀ r, (f (some r)).Respects row (insert key held)) :
    (lock key fun s => f (row key s)).Respects row held := by
  intro s
  cases hrow : row key s with
  | none =>
    simp only [hrow]
    exact ⟨fun _ => hnone, fun hne => absurd rfl hne⟩
  | some r =>
    simp only [hrow]
    exact ⟨fun heq => by simp at heq, fun _ => hsome r⟩

theorem twoPhase_lock (hnone : (f none).Doomed)
    (hsome : ∀ r, (f (some r)).TwoPhase row (insert key held)) :
    (lock key fun s => f (row key s)).TwoPhase row held := by
  intro s
  cases hrow : row key s with
  | none =>
    simp only [hrow]
    exact Or.inl hnone
  | some r =>
    simp only [hrow]
    refine Or.inr ⟨Option.some_ne_none r, fun s' hagree => ?_, hsome r⟩
    rw [← hagree key (Set.mem_insert key held), hrow]

/-! ### `SELECT ... FOR UPDATE` -/

variable {τ : Type} {find : σ → Option τ} {g : Option τ → Transaction κ σ ε α} {keys : List κ}

/-- Lock the rows that were found, one after the other, and look again. -/
def lockFound (find : σ → Option τ) (g : Option τ → Transaction κ σ ε α) :
    List κ → σ → Transaction κ σ ε α
  | [], s => g (find s)
  | key :: keys, s => if (find s).isNone then g none else lock key (lockFound find g keys)

/-- `SELECT ... FOR UPDATE` of a row, or of a join of rows. -/
def selectForUpdate (find : σ → Option τ) (keys : List κ) (g : Option τ → Transaction κ σ ε α) :
    Transaction κ σ ε α :=
  select (lockFound find g keys)

theorem lockFound_of_none {s : σ} (h : find s = none) : lockFound find g keys s = g none := by
  cases keys with
  | nil => rw [lockFound, h]
  | cons key keys => rw [lockFound, h, Option.isNone_none, if_pos rfl]

theorem alone_lockFound (s : σ) : (lockFound find g keys s).alone s = (g (find s)).alone s := by
  induction keys with
  | nil => rfl
  | cons key keys ih =>
    rw [lockFound]
    cases hfind : find s with
    | none => rfl
    | some r =>
      rw [hfind] at ih
      exact ih

theorem alone_selectForUpdate (s : σ) :
    (selectForUpdate find keys g).alone s = (g (find s)).alone s :=
  alone_lockFound s

theorem doomed_lockFound (h : ∀ r, (g r).Doomed) (s : σ) : (lockFound find g keys s).Doomed := by
  induction keys generalizing s with
  | nil => exact h _
  | cons key keys ih =>
    rw [lockFound]
    split_ifs
    · exact h none
    · exact ih

theorem doomed_selectForUpdate (h : ∀ r, (g r).Doomed) : (selectForUpdate find keys g).Doomed :=
  doomed_lockFound h

theorem held_cons : {key' | key' ∈ keys} ∪ insert key held = {key' | key' ∈ key :: keys} ∪ held := by
  ext key'
  simp only [Set.mem_union, Set.mem_ofPred_eq, Set.mem_insert_iff, List.mem_cons]
  tauto

theorem respects_lockFound (hnone : ∀ held, (g none).Respects row held)
    (hsome : ∀ r, (g (some r)).Respects row ({key | key ∈ keys} ∪ held))
    (hthere : ∀ s r, find s = some r → ∀ key ∈ keys, row key s ≠ none) (s : σ) :
    (lockFound find g keys s).Respects row held := by
  induction keys generalizing s held with
  | nil =>
    rw [lockFound]
    cases find s with
    | none => exact hnone held
    | some r => exact (by simpa using hsome r)
  | cons key keys ih =>
    rw [lockFound]
    split_ifs
    · exact hnone held
    · refine fun s' => ⟨fun hrow => ?_, fun hrow => ?_⟩
      · cases hfind : find s' with
        | none =>
          rw [lockFound_of_none hfind]
          exact hnone held
        | some r => exact absurd hrow (hthere s' r hfind key List.mem_cons_self)
      · refine ih (fun r => ?_) (fun s r hfind key' hkey' =>
          hthere s r hfind key' (List.mem_cons_of_mem key hkey')) s'
        rw [held_cons]
        exact hsome r

/-- A request that goes on with rows it has locked. -/
theorem respects_selectForUpdate (hnone : ∀ held, (g none).Respects row held)
    (hsome : ∀ r, (g (some r)).Respects row ({key | key ∈ keys} ∪ held))
    (hthere : ∀ s r, find s = some r → ∀ key ∈ keys, row key s ≠ none) :
    (selectForUpdate find keys g).Respects row held :=
  respects_lockFound hnone hsome hthere

theorem twoPhase_lockFound (hnone : (g none).Doomed)
    (hsome : ∀ r, (g (some r)).TwoPhase row ({key | key ∈ keys} ∪ held))
    (hthere : ∀ s r, find s = some r → ∀ key ∈ keys, row key s ≠ none)
    (hfind : ∀ s s', Agree row ({key | key ∈ keys} ∪ held) s s' → find s = find s') (s : σ) :
    (lockFound find g keys s).Doomed ∨
      (∀ s', Agree row held s s' →
        (lockFound find g keys s).alone s' = (lockFound find g keys s').alone s') ∧
      (lockFound find g keys s).TwoPhase row held := by
  induction keys generalizing s held with
  | nil =>
    cases hs : find s with
    | none =>
      rw [lockFound_of_none hs]
      exact Or.inl hnone
    | some r =>
      refine Or.inr ⟨fun s' hagree => ?_, ?_⟩
      · rw [lockFound, lockFound, hfind s s' (by simpa using hagree)]
      · rw [lockFound, hs]
        exact (by simpa using hsome r)
  | cons key keys ih =>
    cases hs : find s with
    | none =>
      rw [lockFound_of_none hs]
      exact Or.inl hnone
    | some r =>
      have hlock : lockFound find g (key :: keys) s = lock key (lockFound find g keys) := by
        rw [lockFound, hs]
        rfl
      rw [hlock]
      refine Or.inr ⟨fun s' _ => ?_, fun s' => ?_⟩
      · rw [alone, alone_lockFound, alone_lockFound]
      · cases hs' : find s' with
        | none =>
          rw [lockFound_of_none hs']
          exact Or.inl hnone
        | some r' =>
          have hrest := ih (fun r => held_cons ▸ hsome r) (fun s r hr key' hkey' =>
            hthere s r hr key' (List.mem_cons_of_mem key hkey')) (held_cons ▸ hfind) s'
          exact hrest.imp_right fun hrest =>
            ⟨hthere s' r' hs' key List.mem_cons_self, hrest.1, hrest.2⟩

/-- A request that depends on the rows it looks for, and locks them all. -/
theorem twoPhase_selectForUpdate (hnone : (g none).Doomed)
    (hsome : ∀ r, (g (some r)).TwoPhase row ({key | key ∈ keys} ∪ held))
    (hthere : ∀ s r, find s = some r → ∀ key ∈ keys, row key s ≠ none)
    (hfind : ∀ s s', Agree row ({key | key ∈ keys} ∪ held) s s' → find s = find s') :
    (selectForUpdate find keys g).TwoPhase row held :=
  twoPhase_lockFound hnone hsome hthere hfind

end Transaction

namespace Database

variable [DecidableEq ι] [DecidableEq κ]
variable {db db' : Database ι κ σ ε α} {handler : ι → Transaction κ σ ε α} {i j : ι} {key : κ} {move : Move ι}

omit [DecidableEq ι] [DecidableEq κ] in
/-- The rows that a request holds. -/
def held (db : Database ι κ σ ε α) (i : ι) : Set κ :=
  {key | db.holder key = some i}

/-! ## Rows held -/

omit [DecidableEq κ] in
theorem held_goOn (db : Database ι κ σ ε α) (i j : ι) (transaction : Transaction κ σ ε α) :
    (db.goOn i transaction).held j = db.held j := rfl

omit [DecidableEq ι] in
theorem held_acquire_self (db : Database ι κ σ ε α) (i : ι) (key : κ) :
    (db.acquire i key).held i = insert key (db.held i) := by
  ext other
  by_cases h : other = key
  · subst h
    simp [held, acquire]
  · simp [held, acquire, h]

omit [DecidableEq ι] in
theorem held_acquire_of_ne (hfree : db.holder key = none ∨ db.holder key = some i) (hj : j ≠ i) :
    (db.acquire i key).held j = db.held j := by
  ext other
  by_cases h : other = key
  · subst h
    rcases hfree with hnone | hown
    · simp [held, acquire, hnone, hj.symm]
    · simp [held, acquire, hown, hj.symm]
  · simp [held, acquire, h]

omit [DecidableEq κ] in
theorem mem_held_of_release (h : db.release i key = some j) : key ∈ db.held j ∧ j ≠ i := by
  rw [release] at h
  split_ifs at h with hown
  refine ⟨h, ?_⟩
  rintro rfl
  exact hown h

omit [DecidableEq κ] in
theorem release_of_mem_held (h : key ∈ db.held j) (hj : j ≠ i) : db.release i key = some j := by
  have hheld : db.holder key = some j := h
  rw [release, if_neg fun hown => hj ?_, hheld]
  rw [hheld] at hown
  exact Option.some.inj hown

omit [DecidableEq κ] in
theorem held_stop_of_ne (session : Session κ σ ε α) (hj : j ≠ i) :
    (db.stop i session).held j = db.held j :=
  Set.ext fun _ => ⟨fun h => (mem_held_of_release h).1, fun h => release_of_mem_held h hj⟩

omit [DecidableEq κ] in
theorem held_succeed_of_ne (state : σ) (value : α) (hj : j ≠ i) :
    (db.succeed i state value).held j = db.held j :=
  Set.ext fun _ => ⟨fun h => (mem_held_of_release h).1, fun h => release_of_mem_held h hj⟩

/-! ## Transactions that respect the locks -/

/-- The rows held are there, and every running transaction respects them. -/
structure Guarded (row : κ → σ → Option ρ) (db : Database ι κ σ ε α) : Prop where
  present : ∀ i, ∀ key ∈ db.held i, row key db.state ≠ none
  respects : ∀ i transaction, db.session i = .running transaction →
    transaction.Respects row (db.held i)

theorem Guarded.goOn (h : Guarded row db) {transaction : Transaction κ σ ε α}
    (hrespects : transaction.Respects row (db.held i)) : Guarded row (db.goOn i transaction) := by
  refine ⟨h.present, fun j transaction' hsession => ?_⟩
  by_cases hj : j = i
  · subst hj
    rw [session_goOn_self] at hsession
    rw [← Session.running.inj hsession]
    exact hrespects
  · rw [session_goOn_of_ne hj] at hsession
    exact h.respects j transaction' hsession

omit [DecidableEq ι] [DecidableEq κ] in
/-- What another request commits leaves the rows held. -/
theorem Guarded.row_eq (h : Guarded row db) {write : σ → Except ε σ} {value : α} {state : σ}
    (hsession : db.session i = .running (.commit write value)) (hwrite : write db.state = .ok state)
    (hj : j ≠ i) (hheld : key ∈ db.held j) : row key state = row key db.state := by
  refine h.respects i _ hsession db.state state hwrite key (fun hown => ?_) (h.present j key hheld)
  have hsome : some i = some j := hown.symm.trans hheld
  exact hj (Option.some.inj hsome).symm

theorem Guarded.effect (h : Guarded row db) (heffect : Effect row db move db') : Guarded row db' := by
  cases heffect with
  | idle => exact h
  | select hrunning => exact h.goOn (h.respects _ _ hrunning db.state)
  | pass hrunning hrow => exact h.goOn ((h.respects _ _ hrunning db.state).1 hrow)
  | @acquire i key next hrunning hrow hfree =>
    have hnext := (h.respects i _ hrunning db.state).2 hrow
    refine ⟨fun j other hother => ?_, fun j transaction hsession => ?_⟩
    · by_cases hj : j = i
      · subst hj
        rw [held_goOn, held_acquire_self] at hother
        rcases hother with rfl | hold
        · exact hrow
        · exact h.present j other hold
      · rw [held_goOn, held_acquire_of_ne hfree hj] at hother
        exact h.present j other hother
    · by_cases hj : j = i
      · subst hj
        rw [session_goOn_self] at hsession
        rw [held_goOn, held_acquire_self, ← Session.running.inj hsession]
        exact hnext
      · rw [session_goOn_of_ne hj] at hsession
        rw [held_goOn, held_acquire_of_ne hfree hj]
        exact h.respects j transaction hsession
  | @stop _ i transaction session hrunning hstopped =>
    refine ⟨fun j key hkey => h.present j key (mem_held_of_release hkey).1,
      fun j transaction' hsession => ?_⟩
    by_cases hj : j = i
    · rw [hj, session_stop_self] at hsession
      rw [hsession] at hstopped
      exact hstopped.elim
    · rw [session_stop_of_ne hj] at hsession
      rw [held_stop_of_ne session hj]
      exact h.respects j transaction' hsession
  | @succeed i write value state hrunning hwrite =>
    refine ⟨fun j key hkey => ?_, fun j transaction' hsession => ?_⟩
    · obtain ⟨hheld, hj⟩ := mem_held_of_release hkey
      show row key state ≠ none
      rw [h.row_eq hrunning hwrite hj hheld]
      exact h.present j key hheld
    · by_cases hj : j = i
      · rw [hj, session_succeed_self] at hsession
        exact nomatch hsession
      · rw [session_succeed_of_ne hj] at hsession
        rw [held_succeed_of_ne state value hj]
        exact h.respects j transaction' hsession

theorem guarded_run (hrespects : ∀ i, (handler i).Respects row ∅) (state : σ)
    (moves : List (Move ι)) : Guarded row (run (step row) (initial handler state) moves) := by
  have hheld : ∀ i, (initial handler state).held i = ∅ := fun i =>
    Set.eq_empty_of_forall_notMem fun _ h => nomatch h
  refine run_invariant (fun db move h => h.effect (effect_step row db move))
    ⟨fun i key hkey => ?_, fun i transaction hsession => ?_⟩ moves
  · rw [hheld] at hkey
    exact hkey.elim
  · rw [hheld, ← Session.running.inj hsession]
    exact hrespects i

/-! ## Two-phase transactions -/

/-- A two-phase request: its rest does what the whole does, and what it has committed it has done
alone. -/
structure Faithful (row : κ → σ → Option ρ) (whole : Transaction κ σ ε α) (i : ι)
    (db : Database ι κ σ ε α) : Prop where
  rest : ∀ transaction, db.session i = .running transaction → transaction.Doomed ∨
    transaction.TwoPhase row (db.held i) ∧
      ∀ s, Agree row (db.held i) db.state s → transaction.alone s = whole.alone s
  logged : ∀ commit ∈ db.log, commit.request = i →
    ∃ value, db.session i = .succeeded value ∧ whole.alone commit.before = .ok (value, commit.after)

variable {whole : Transaction κ σ ε α}

omit [DecidableEq ι] [DecidableEq κ] in
/-- A running request has committed nothing. -/
theorem Faithful.not_logged (h : Faithful row whole i db) {transaction : Transaction κ σ ε α}
    (hrunning : db.session i = .running transaction) :
    ∀ commit ∈ db.log, commit.request ≠ i := by
  intro commit hcommit hrequest
  obtain ⟨value, hsession, -⟩ := h.logged commit hcommit hrequest
  rw [hrunning] at hsession
  exact nomatch hsession

/-- The request itself goes on. -/
theorem Faithful.goOn_self (hlog : ∀ commit ∈ db.log, commit.request ≠ i)
    {transaction : Transaction κ σ ε α}
    (hrest : transaction.Doomed ∨ transaction.TwoPhase row (db.held i) ∧
      ∀ s, Agree row (db.held i) db.state s → transaction.alone s = whole.alone s) :
    Faithful row whole i (db.goOn i transaction) := by
  refine ⟨fun transaction' hsession => ?_, fun commit hcommit hrequest =>
    absurd hrequest (hlog commit hcommit)⟩
  rw [session_goOn_self] at hsession
  rw [← Session.running.inj hsession]
  exact hrest

omit [DecidableEq ι] [DecidableEq κ] in
/-- A step of another request. -/
theorem Faithful.of_other (h : Faithful row whole i db) (hsession : db'.session i = db.session i)
    (hheld : db'.held i = db.held i) (hrows : Agree row (db.held i) db'.state db.state)
    (hlog : ∀ commit ∈ db'.log, commit.request = i → commit ∈ db.log) :
    Faithful row whole i db' := by
  refine ⟨fun transaction hrunning => ?_, fun commit hcommit hrequest => ?_⟩
  · rw [hheld]
    refine (h.rest transaction (hsession ▸ hrunning)).imp_right fun hrest => ⟨hrest.1, ?_⟩
    exact fun s hagree => hrest.2 s fun key hkey => (hrows key hkey).symm.trans (hagree key hkey)
  · rw [hsession]
    exact h.logged commit (hlog commit hcommit hrequest) hrequest

theorem Faithful.effect (h : Faithful row whole i db) (hguarded : Guarded row db)
    (heffect : Effect row db move db') : Faithful row whole i db' := by
  cases heffect with
  | idle => exact h
  | @select j next hrunning =>
    by_cases hj : i = j
    · subst hj
      refine goOn_self (h.not_logged hrunning) ?_
      rcases h.rest _ hrunning with hdoomed | ⟨htwoPhase, hrest⟩
      · exact Or.inl (hdoomed db.state)
      · refine (htwoPhase db.state).imp_right fun hnext => ⟨hnext.2, fun s hagree => ?_⟩
        rw [hnext.1 s hagree]
        exact hrest s hagree
    · exact h.of_other (session_goOn_of_ne hj) rfl (fun _ _ => rfl) fun _ hcommit _ => hcommit
  | @pass j key next hrunning hrow =>
    by_cases hj : i = j
    · subst hj
      refine goOn_self (h.not_logged hrunning) (Or.inl ?_)
      rcases h.rest _ hrunning with hdoomed | ⟨htwoPhase, -⟩
      · exact hdoomed db.state
      · exact (htwoPhase db.state).resolve_right fun hthere => hthere.1 hrow
    · exact h.of_other (session_goOn_of_ne hj) rfl (fun _ _ => rfl) fun _ hcommit _ => hcommit
  | @acquire j key next hrunning hrow hfree =>
    by_cases hj : i = j
    · subst hj
      have hlog : ∀ commit ∈ (db.acquire i key).log, commit.request ≠ i := h.not_logged hrunning
      refine goOn_self hlog ?_
      rw [held_acquire_self]
      rcases h.rest _ hrunning with hdoomed | ⟨htwoPhase, hrest⟩
      · exact Or.inl (hdoomed db.state)
      · refine (htwoPhase db.state).imp_right fun hnext => ⟨hnext.2.2, fun s hagree => ?_⟩
        rw [hnext.2.1 s hagree]
        exact hrest s fun other hother => hagree other (Set.mem_insert_of_mem key hother)
    · exact h.of_other (session_goOn_of_ne hj) (held_acquire_of_ne hfree hj) (fun _ _ => rfl)
        fun _ hcommit _ => hcommit
  | @stop _ j transaction session hrunning hstopped =>
    by_cases hj : i = j
    · subst hj
      refine ⟨fun transaction' hsession => ?_, fun commit hcommit hrequest =>
        absurd hrequest (h.not_logged hrunning commit hcommit)⟩
      rw [session_stop_self] at hsession
      rw [hsession] at hstopped
      exact hstopped.elim
    · exact h.of_other (session_stop_of_ne hj) (held_stop_of_ne session hj) (fun _ _ => rfl)
        fun _ hcommit _ => hcommit
  | @succeed j write value state hrunning hwrite =>
    by_cases hj : i = j
    · subst hj
      refine ⟨fun transaction' hsession => ?_, fun commit hcommit hrequest => ?_⟩
      · rw [session_succeed_self] at hsession
        exact nomatch hsession
      · refine ⟨value, session_succeed_self db i state value, ?_⟩
        rcases List.mem_append.mp hcommit with hold | hnew
        · exact absurd hrequest (h.not_logged hrunning commit hold)
        · obtain ⟨-, hrest⟩ := (h.rest _ hrunning).resolve_left id
          rw [List.mem_singleton.mp hnew, ← hrest db.state fun _ _ => rfl, Transaction.alone, hwrite]
          rfl
    · refine h.of_other (session_succeed_of_ne hj) (held_succeed_of_ne state value hj)
        (fun key hkey => hguarded.row_eq hrunning hwrite hj hkey) fun commit hcommit hrequest => ?_
      rcases List.mem_append.mp hcommit with hold | hnew
      · exact hold
      · rw [List.mem_singleton.mp hnew] at hrequest
        exact absurd hrequest.symm hj

/-- **Two-phase locking serialises.**  When all requests respect the locks, each entry of the log that
belongs to a two-phase request is what the request does alone on the state before it. -/
theorem serialisable (hrespects : ∀ i, (handler i).Respects row ∅) (state : σ)
    (moves : List (Move ι)) (htwoPhase : (handler i).TwoPhase row ∅) :
    Faithful row (handler i) i (run (step row) (initial handler state) moves) := by
  have hheld : (initial handler state).held i = ∅ :=
    Set.eq_empty_of_forall_notMem fun _ h => nomatch h
  have hboth : ∀ (db : Database ι κ σ ε α) (move : Move ι),
      Guarded row db ∧ Faithful row (handler i) i db →
        Guarded row (db.step row move) ∧ Faithful row (handler i) i (db.step row move) :=
    fun db move h => ⟨h.1.effect (effect_step row db move),
      h.2.effect h.1 (effect_step row db move)⟩
  refine (run_invariant (I := fun db => Guarded row db ∧ Faithful row (handler i) i db) hboth
    ⟨guarded_run hrespects state [], fun transaction hsession => Or.inr ?_,
      fun commit hcommit => absurd hcommit List.not_mem_nil⟩ moves).2
  rw [run_nil, hheld, ← Session.running.inj hsession]
  exact ⟨htwoPhase, fun _ _ => rfl⟩

end Database

end Library
end Scam2Market
