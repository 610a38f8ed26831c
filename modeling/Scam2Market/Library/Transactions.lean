import Mathlib.Logic.Function.Basic
import Mathlib.Data.List.Nodup
import Mathlib.Data.Set.Insert
import Scam2Market.Library.Linked
import Scam2Market.Library.Runs

/-!
# Concurrent transactions

Transactions on one database at READ COMMITTED.  A statement reads the committed state of the moment it
runs in, `lock` first waits until no other transaction holds the row, and the locks of a transaction are
kept until it ends.  What a transaction writes becomes visible when it commits, in one step.

* `Transaction`: what a transaction still has to do; `Transaction.alone` runs it without any other.
* `Database`: the committed state, who holds which row, how far every request is, and a log of the
  commits.  `Database.step` is one step of one request, and any list of moves is an interleaving.
* `Effect`: all that a step can do.
* `logged_run`: the log is the history of the committed state, with one entry for each request that
  succeeded.
* `returned_run`: what a transaction returns that begins with a `SELECT` goes back to a state that the run
  has passed through.
-/

namespace Scam2Market
namespace Library

/-- What a transaction still has to do.  The keys name the rows that can be locked. -/
inductive Transaction (κ σ ε α : Type) where
  /-- `SELECT`. -/
  | select (next : σ → Transaction κ σ ε α)
  /-- `SELECT ... FOR UPDATE`, or the lock that an `UPDATE` takes. -/
  | lock (key : κ) (next : σ → Transaction κ σ ε α)
  /-- The writes, which a constraint may refuse, and `COMMIT`. -/
  | commit (write : σ → Except ε σ) (value : α)
  /-- An exception, and `ROLLBACK`. -/
  | raise (error : ε)

namespace Transaction

variable {κ σ ε α : Type}

/-- The value and the new state, when no other transaction runs. -/
def alone : Transaction κ σ ε α → σ → Except ε (α × σ)
  | select next, s => (next s).alone s
  | lock _ next, s => (next s).alone s
  | commit write value, s => (write s).map fun s' => (value, s')
  | raise error, _ => .error error

/-- Every write of the transaction is related to the state it is made in. -/
def Writes (W : σ → σ → Prop) : Transaction κ σ ε α → Prop
  | select next => ∀ s, (next s).Writes W
  | lock _ next => ∀ s, (next s).Writes W
  | commit write _ => ∀ s s', write s = .ok s' → W s s'
  | raise _ => True

theorem alone_commit_eq_ok {write : σ → Except ε σ} {value value' : α} {s s' : σ}
    (h : (commit write value : Transaction κ σ ε α).alone s = .ok (value', s')) :
    write s = .ok s' := by
  rw [alone] at h
  cases hwrite : write s with
  | error error =>
    rw [hwrite] at h
    exact nomatch h
  | ok after =>
    rw [hwrite] at h
    exact congrArg Except.ok (congrArg Prod.snd (Except.ok.inj h))

theorem Writes.mono {W W' : σ → σ → Prop} (hW : ∀ s s', W s s' → W' s s')
    {transaction : Transaction κ σ ε α} (h : transaction.Writes W) : transaction.Writes W' := by
  induction transaction with
  | select next ih => exact fun s => ih s (h s)
  | lock key next ih => exact fun s => ih s (h s)
  | commit write value => exact fun s s' hwrite => hW s s' (h s s' hwrite)
  | raise error => trivial

theorem writes_of_forall {W : σ → σ → Prop} (hW : ∀ s s', W s s') (transaction : Transaction κ σ ε α) :
    transaction.Writes W := by
  induction transaction with
  | select next ih => exact ih
  | lock key next ih => exact ih
  | commit write value => exact fun s s' _ => hW s s'
  | raise error => trivial

/-- Every value the transaction can return has the property. -/
def Returns (P : α → Prop) : Transaction κ σ ε α → Prop
  | select next => ∀ s, (next s).Returns P
  | lock _ next => ∀ s, (next s).Returns P
  | commit _ value => P value
  | raise _ => True

theorem Returns.mono {P Q : α → Prop} (hPQ : ∀ value, P value → Q value)
    {transaction : Transaction κ σ ε α} (h : transaction.Returns P) : transaction.Returns Q := by
  induction transaction with
  | select next ih => exact fun s => ih s (h s)
  | lock key next ih => exact fun s => ih s (h s)
  | commit write value => exact hPQ value h
  | raise error => trivial

end Transaction

/-- How far a request is. -/
inductive Session (κ σ ε α : Type) where
  | running (transaction : Transaction κ σ ε α)
  | succeeded (value : α)
  | failed (error : ε)
  | aborted

namespace Session

variable {κ σ ε α : Type}

/-- The value that a request has returned. -/
def value? : Session κ σ ε α → Option α
  | succeeded value => some value
  | _ => none

/-- The request did not commit and will not. -/
def Stopped : Session κ σ ε α → Prop
  | failed _ => True
  | aborted => True
  | _ => False

end Session

/-- A commit: the request, and the committed state before and after it. -/
structure Commit (ι σ : Type) where
  request : ι
  before : σ
  after : σ

/-- A database and the requests on it. -/
structure Database (ι κ σ ε α : Type) where
  state : σ
  holder : κ → Option ι
  session : ι → Session κ σ ε α
  log : List (Commit ι σ)

/-- A request takes its next step, or is cut off. -/
inductive Move (ι : Type) where
  | advance (request : ι)
  | abort (request : ι)
  deriving DecidableEq

namespace Database

variable {ι κ σ ε α ρ : Type}

/-- No request has begun. -/
def initial (handler : ι → Transaction κ σ ε α) (state : σ) : Database ι κ σ ε α where
  state := state
  holder := fun _ => none
  session := fun i => .running (handler i)
  log := []

section Steps

variable [DecidableEq ι] [DecidableEq κ]

/-- The locks of a request that has ended are gone. -/
def release (db : Database ι κ σ ε α) (i : ι) : κ → Option ι := fun key =>
  if db.holder key = some i then none else db.holder key

/-- The request goes on with what it still has to do. -/
def goOn (db : Database ι κ σ ε α) (i : ι) (transaction : Transaction κ σ ε α) :
    Database ι κ σ ε α :=
  { db with session := Function.update db.session i (.running transaction) }

/-- The request ends without a commit. -/
def stop (db : Database ι κ σ ε α) (i : ι) (session : Session κ σ ε α) : Database ι κ σ ε α :=
  { db with holder := db.release i, session := Function.update db.session i session }

/-- The request takes the lock of a row. -/
def acquire (db : Database ι κ σ ε α) (i : ι) (key : κ) : Database ι κ σ ε α :=
  { db with holder := Function.update db.holder key (some i) }

/-- The request commits a new state. -/
def succeed (db : Database ι κ σ ε α) (i : ι) (state : σ) (value : α) : Database ι κ σ ε α where
  state := state
  holder := db.release i
  session := Function.update db.session i (.succeeded value)
  log := db.log ++ [⟨i, db.state, state⟩]

/-- One step; `row` reads the row of a key.  A lock on a row that is not there is not taken. -/
def step (row : κ → σ → Option ρ) (db : Database ι κ σ ε α) : Move ι → Database ι κ σ ε α
  | .advance i =>
    match db.session i with
    | .running (.select next) => db.goOn i (next db.state)
    | .running (.lock key next) =>
      if (row key db.state).isNone then db.goOn i (next db.state)
      else if db.holder key = none ∨ db.holder key = some i then
        (db.acquire i key).goOn i (next db.state)
      else db
    | .running (.commit write value) =>
      match write db.state with
      | .ok state => db.succeed i state value
      | .error error => db.stop i (.failed error)
    | .running (.raise error) => db.stop i (.failed error)
    | _ => db
  | .abort i =>
    match db.session i with
    | .running _ => db.stop i .aborted
    | _ => db

/-- All that a step can do. -/
inductive Effect (row : κ → σ → Option ρ) (db : Database ι κ σ ε α) :
    Move ι → Database ι κ σ ε α → Prop
  | idle {move : Move ι} : Effect row db move db
  | select {i : ι} {next : σ → Transaction κ σ ε α}
      (hsession : db.session i = .running (.select next)) :
      Effect row db (.advance i) (db.goOn i (next db.state))
  | pass {i : ι} {key : κ} {next : σ → Transaction κ σ ε α}
      (hsession : db.session i = .running (.lock key next)) (hrow : row key db.state = none) :
      Effect row db (.advance i) (db.goOn i (next db.state))
  | acquire {i : ι} {key : κ} {next : σ → Transaction κ σ ε α}
      (hsession : db.session i = .running (.lock key next)) (hrow : row key db.state ≠ none)
      (hfree : db.holder key = none ∨ db.holder key = some i) :
      Effect row db (.advance i) ((db.acquire i key).goOn i (next db.state))
  | succeed {i : ι} {write : σ → Except ε σ} {value : α} {state : σ}
      (hsession : db.session i = .running (.commit write value)) (hwrite : write db.state = .ok state) :
      Effect row db (.advance i) (db.succeed i state value)
  | stop {move : Move ι} {i : ι} {transaction : Transaction κ σ ε α} {session : Session κ σ ε α}
      (hsession : db.session i = .running transaction) (hstopped : session.Stopped) :
      Effect row db move (db.stop i session)

theorem effect_step (row : κ → σ → Option ρ) (db : Database ι κ σ ε α) (move : Move ι) :
    Effect row db move (db.step row move) := by
  cases move with
  | abort i =>
    rw [step]
    cases hsession : db.session i with
    | running transaction => exact .stop hsession trivial
    | succeeded value => exact .idle
    | failed error => exact .idle
    | aborted => exact .idle
  | advance i =>
    rw [step]
    cases hsession : db.session i with
    | succeeded value => exact .idle
    | failed error => exact .idle
    | aborted => exact .idle
    | running transaction =>
      cases transaction with
      | select next => exact .select hsession
      | raise error => exact .stop hsession trivial
      | commit write value =>
        cases hwrite : write db.state with
        | ok state =>
          simp only [hwrite]
          exact .succeed hsession hwrite
        | error error =>
          simp only [hwrite]
          exact .stop hsession trivial
      | lock key next =>
        simp only
        split_ifs with hrow hfree
        · exact .pass hsession (Option.isNone_iff_eq_none.mp hrow)
        · exact .acquire hsession (fun hnone => hrow (Option.isNone_iff_eq_none.mpr hnone)) hfree
        · exact .idle

variable {row : κ → σ → Option ρ} {db db' : Database ι κ σ ε α} {i j : ι} {key : κ} {move : Move ι}

/-! ## Sessions -/

omit [DecidableEq κ] in
theorem session_goOn_self (db : Database ι κ σ ε α) (i : ι) (transaction : Transaction κ σ ε α) :
    (db.goOn i transaction).session i = .running transaction :=
  Function.update_self ..

omit [DecidableEq κ] in
theorem session_goOn_of_ne {transaction : Transaction κ σ ε α} (h : j ≠ i) :
    (db.goOn i transaction).session j = db.session j :=
  Function.update_of_ne h ..

omit [DecidableEq κ] in
theorem session_stop_self (db : Database ι κ σ ε α) (i : ι) (session : Session κ σ ε α) :
    (db.stop i session).session i = session :=
  Function.update_self ..

omit [DecidableEq κ] in
theorem session_stop_of_ne {session : Session κ σ ε α} (h : j ≠ i) :
    (db.stop i session).session j = db.session j :=
  Function.update_of_ne h ..

omit [DecidableEq κ] in
theorem session_succeed_self (db : Database ι κ σ ε α) (i : ι) (state : σ) (value : α) :
    (db.succeed i state value).session i = .succeeded value :=
  Function.update_self ..

omit [DecidableEq κ] in
theorem session_succeed_of_ne {state : σ} {value : α} (h : j ≠ i) :
    (db.succeed i state value).session j = db.session j :=
  Function.update_of_ne h ..

/-- A request that has ended stays as it is. -/
theorem Effect.session_of_not_running (h : Effect row db move db')
    (hsession : ∀ transaction, db.session j ≠ .running transaction) :
    db'.session j = db.session j := by
  cases h with
  | idle => rfl
  | select hrunning => exact session_goOn_of_ne fun heq => hsession _ (heq ▸ hrunning)
  | pass hrunning _ => exact session_goOn_of_ne fun heq => hsession _ (heq ▸ hrunning)
  | acquire hrunning _ _ => exact session_goOn_of_ne fun heq => hsession _ (heq ▸ hrunning)
  | succeed hrunning _ => exact session_succeed_of_ne fun heq => hsession _ (heq ▸ hrunning)
  | stop hrunning _ => exact session_stop_of_ne fun heq => hsession _ (heq ▸ hrunning)

theorem Effect.succeeded (h : Effect row db move db') {value : α}
    (hsession : db.session j = .succeeded value) : db'.session j = .succeeded value := by
  have hended : ∀ transaction, db.session j ≠ .running transaction := by
    intro transaction heq
    rw [hsession] at heq
    exact nomatch heq
  rw [h.session_of_not_running hended, hsession]

/-! ## The log -/

/-- The log is the history of the committed state, with an entry for each request that succeeded. -/
structure Logged (state : σ) (db : Database ι κ σ ε α) : Prop where
  linked : Linked state (db.log.map fun commit => (commit.before, commit.after)) db.state
  nodup : (db.log.map Commit.request).Nodup
  succeeded : ∀ commit ∈ db.log, ∃ value, db.session commit.request = .succeeded value
  complete : ∀ j value, db.session j = .succeeded value → ∃ commit ∈ db.log, commit.request = j

omit [DecidableEq ι] [DecidableEq κ] in
theorem logged_initial (handler : ι → Transaction κ σ ε α) (state : σ) :
    Logged state (initial handler state) where
  linked := .nil state
  nodup := List.nodup_nil
  succeeded := fun _ h => absurd h List.not_mem_nil
  complete := fun _ _ h => nomatch h

/-- A step that commits nothing. -/
theorem Logged.of_quiet {state : σ} (h : Logged state db) (heffect : Effect row db move db')
    (hstate : db'.state = db.state) (hlog : db'.log = db.log)
    (hsucceeded : ∀ j value, db'.session j = .succeeded value → db.session j = .succeeded value) :
    Logged state db' where
  linked := by
    rw [hstate, hlog]
    exact h.linked
  nodup := by
    rw [hlog]
    exact h.nodup
  succeeded := fun commit hcommit => by
    rw [hlog] at hcommit
    exact (h.succeeded commit hcommit).imp fun _ hsession => heffect.succeeded hsession
  complete := fun j value hsession => by
    rw [hlog]
    exact h.complete j value (hsucceeded j value hsession)

theorem Logged.effect {state : σ} (h : Logged state db) (heffect : Effect row db move db') :
    Logged state db' := by
  have hgoOn : ∀ (db : Database ι κ σ ε α) i transaction j value,
      (db.goOn i transaction).session j = .succeeded value → db.session j = .succeeded value := by
    intro db i transaction j value hsession
    by_cases hj : j = i
    · rw [hj, session_goOn_self] at hsession
      exact nomatch hsession
    · rwa [session_goOn_of_ne hj] at hsession
  cases hcase : heffect with
  | idle => exact h
  | select _ => exact h.of_quiet heffect rfl rfl (hgoOn _ _ _)
  | pass _ _ => exact h.of_quiet heffect rfl rfl (hgoOn _ _ _)
  | acquire _ _ _ => exact h.of_quiet heffect rfl rfl (hgoOn _ _ _)
  | @stop _ i transaction session hrunning hstopped =>
    refine h.of_quiet heffect rfl rfl fun j value hsession => ?_
    by_cases hj : j = i
    · rw [hj, session_stop_self] at hsession
      rw [hsession] at hstopped
      exact hstopped.elim
    · rwa [session_stop_of_ne hj] at hsession
  | @succeed i write value state' hrunning hwrite =>
    -- the request was running, so it is not in the log yet
    have hfresh : i ∉ db.log.map Commit.request := by
      intro hmem
      obtain ⟨commit, hcommit, rfl⟩ := List.mem_map.mp hmem
      obtain ⟨value', hsession⟩ := h.succeeded commit hcommit
      rw [hrunning] at hsession
      exact nomatch hsession
    refine ⟨?_, ?_, fun commit hcommit => ?_, fun j value' hsession => ?_⟩
    · show Linked state ((db.log ++ [_]).map _) state'
      rw [List.map_append, List.map_singleton]
      exact h.linked.concat state'
    · show ((db.log ++ [_]).map Commit.request).Nodup
      rw [List.map_append, List.map_singleton]
      refine List.nodup_append.mpr ⟨h.nodup, List.nodup_singleton i, fun a ha b hb hab => hfresh ?_⟩
      rw [hab, List.mem_singleton.mp hb] at ha
      exact ha
    · rcases List.mem_append.mp hcommit with hold | hnew
      · exact (h.succeeded commit hold).imp fun _ hsession => heffect.succeeded hsession
      · rw [List.mem_singleton.mp hnew]
        exact ⟨value, session_succeed_self db i state' value⟩
    · by_cases hj : j = i
      · exact ⟨_, List.mem_append_right _ (List.mem_singleton_self _), hj.symm⟩
      · rw [session_succeed_of_ne hj] at hsession
        obtain ⟨commit, hcommit, hrequest⟩ := h.complete j value' hsession
        exact ⟨commit, List.mem_append_left _ hcommit, hrequest⟩

/-- **The log of a run is the history of its committed state.** -/
theorem logged_run (row : κ → σ → Option ρ) (handler : ι → Transaction κ σ ε α) (state : σ)
    (moves : List (Move ι)) : Logged state (run (step row) (initial handler state) moves) :=
  run_invariant (fun db move h => h.effect (effect_step row db move))
    (logged_initial handler state) moves

/-! ## What is written -/

/-- What a request still writes, and what the requests of the log have written. -/
structure Written (W : ι → σ → σ → Prop) (db : Database ι κ σ ε α) : Prop where
  running : ∀ i transaction, db.session i = .running transaction → transaction.Writes (W i)
  logged : ∀ commit ∈ db.log, W commit.request commit.before commit.after

theorem Written.goOn {W : ι → σ → σ → Prop} (h : Written W db) {i : ι}
    {transaction : Transaction κ σ ε α} (hwrites : transaction.Writes (W i)) :
    Written W (db.goOn i transaction) := by
  refine ⟨fun j transaction' hsession => ?_, h.logged⟩
  by_cases hj : j = i
  · subst hj
    rw [session_goOn_self] at hsession
    rw [← Session.running.inj hsession]
    exact hwrites
  · rw [session_goOn_of_ne hj] at hsession
    exact h.running j transaction' hsession

theorem Written.effect {W : ι → σ → σ → Prop} (h : Written W db) (heffect : Effect row db move db') :
    Written W db' := by
  cases heffect with
  | idle => exact h
  | select hrunning => exact h.goOn (h.running _ _ hrunning db.state)
  | pass hrunning _ => exact h.goOn (h.running _ _ hrunning db.state)
  | @acquire i key next hrunning _ _ =>
    have hacquire : Written W (db.acquire i key) := ⟨h.running, h.logged⟩
    exact hacquire.goOn (h.running _ _ hrunning db.state)
  | @stop _ i transaction session hrunning hstopped =>
    refine ⟨fun j transaction' hsession => ?_, h.logged⟩
    by_cases hj : j = i
    · rw [hj, session_stop_self] at hsession
      rw [hsession] at hstopped
      exact hstopped.elim
    · rw [session_stop_of_ne hj] at hsession
      exact h.running j transaction' hsession
  | @succeed i write value state hrunning hwrite =>
    refine ⟨fun j transaction' hsession => ?_, fun commit hcommit => ?_⟩
    · by_cases hj : j = i
      · rw [hj, session_succeed_self] at hsession
        exact nomatch hsession
      · rw [session_succeed_of_ne hj] at hsession
        exact h.running j transaction' hsession
    · rcases List.mem_append.mp hcommit with hold | hnew
      · exact h.logged commit hold
      · rw [List.mem_singleton.mp hnew]
        exact h.running i _ hrunning db.state state hwrite

/-- **Every entry of the log is a write of its request.** -/
theorem written_run {W : ι → σ → σ → Prop} (row : κ → σ → Option ρ)
    {handler : ι → Transaction κ σ ε α} (hwrites : ∀ i, (handler i).Writes (W i)) (state : σ)
    (moves : List (Move ι)) : Written W (run (step row) (initial handler state) moves) := by
  refine run_invariant (fun db move h => h.effect (effect_step row db move)) ⟨fun i t ht => ?_,
    fun _ h => absurd h List.not_mem_nil⟩ moves
  rw [← Session.running.inj ht]
  exact hwrites i

/-! ## What is returned -/

/-- What a request can still return, or has returned. -/
structure Returned (P : α → Prop) (i : ι) (db : Database ι κ σ ε α) : Prop where
  running : ∀ transaction, db.session i = .running transaction → transaction.Returns P
  succeeded : ∀ value, db.session i = .succeeded value → P value

omit [DecidableEq ι] [DecidableEq κ] in
theorem Returned.mono {P Q : α → Prop} (hPQ : ∀ value, P value → Q value) (h : Returned P i db) :
    Returned Q i db :=
  ⟨fun transaction hsession => (h.running transaction hsession).mono hPQ,
    fun value hsession => hPQ value (h.succeeded value hsession)⟩

omit [DecidableEq κ] in
theorem Returned.of_goOn {P : α → Prop} {transaction : Transaction κ σ ε α}
    (h : transaction.Returns P) : Returned P i (db.goOn i transaction) := by
  refine ⟨fun transaction' hsession => ?_, fun value hsession => ?_⟩
  · rw [session_goOn_self] at hsession
    rw [← Session.running.inj hsession]
    exact h
  · rw [session_goOn_self] at hsession
    exact nomatch hsession

omit [DecidableEq κ] in
theorem Returned.of_stop {P : α → Prop} {session : Session κ σ ε α} (hstopped : session.Stopped) :
    Returned P i (db.stop i session) := by
  refine ⟨fun transaction hsession => ?_, fun value hsession => ?_⟩
  all_goals
    rw [session_stop_self] at hsession
    rw [hsession] at hstopped
    exact hstopped.elim

omit [DecidableEq ι] [DecidableEq κ] in
theorem Returned.of_session {P : α → Prop} (h : Returned P i db)
    (hsession : db'.session i = db.session i) : Returned P i db' := by
  refine ⟨fun transaction hrunning => ?_, fun value hsucceeded => ?_⟩
  · exact h.running transaction (hsession ▸ hrunning)
  · exact h.succeeded value (hsession ▸ hsucceeded)

theorem Returned.effect {P : α → Prop} (h : Returned P i db) (heffect : Effect row db move db') :
    Returned P i db' := by
  cases heffect with
  | idle => exact h
  | @select j next hrunning =>
    by_cases hj : i = j
    · subst hj
      exact .of_goOn (h.running _ hrunning db.state)
    · exact h.of_session (session_goOn_of_ne hj)
  | @pass j key next hrunning hrow =>
    by_cases hj : i = j
    · subst hj
      exact .of_goOn (h.running _ hrunning db.state)
    · exact h.of_session (session_goOn_of_ne hj)
  | @acquire j key next hrunning hrow hfree =>
    by_cases hj : i = j
    · subst hj
      exact .of_goOn (h.running _ hrunning db.state)
    · exact h.of_session (session_goOn_of_ne hj)
  | @stop _ j transaction session hrunning hstopped =>
    by_cases hj : i = j
    · subst hj
      exact .of_stop hstopped
    · exact h.of_session (session_stop_of_ne hj)
  | @succeed j write value state hrunning hwrite =>
    by_cases hj : i = j
    · subst hj
      refine ⟨fun transaction' hsession => ?_, fun value' hsession => ?_⟩
      · rw [session_succeed_self] at hsession
        exact nomatch hsession
      · rw [session_succeed_self] at hsession
        rw [← Session.succeeded.inj hsession]
        exact h.running _ hrunning
    · exact h.of_session (session_succeed_of_ne hj)

/-- **What a request returns goes back to the state its `SELECT` has read**, which the run has passed
through. -/
theorem returned_run (handler : ι → Transaction κ σ ε α) {next : σ → Transaction κ σ ε α}
    {P : σ → α → Prop} (hhandler : handler i = .select next)
    (hreturns : ∀ s, (next s).Returns (P s)) (state : σ) (moves : List (Move ι)) {value : α}
    (hvalue : (run (step row) (initial handler state) moves).session i = .succeeded value) :
    ∃ before, before <+: moves ∧
      P (run (step row) (initial handler state) before).state value := by
  let read (moves : List (Move ι)) (value : α) : Prop :=
    ∃ before, before <+: moves ∧ P (run (step row) (initial handler state) before).state value
  have hread : ∀ moves move value, read moves value → read (moves ++ [move]) value :=
    fun moves move value ⟨before, hpre, h⟩ => ⟨before, hpre.trans (List.prefix_append ..), h⟩
  -- the request has not begun, or what it returns goes back to a state that was read
  let stage (moves : List (Move ι)) (db : Database ι κ σ ε α) : Prop :=
    db.session i = .running (.select next) ∨ Returned (read moves) i db
  have hstep : ∀ moves move, stage moves (run (step row) (initial handler state) moves) →
      stage (moves ++ [move]) (step row (run (step row) (initial handler state) moves) move) := by
    intro moves move hbefore
    rcases hbefore with hstart | hreturned
    · have heffect := effect_step row (run (step row) (initial handler state) moves) move
      generalize hnext : (run (step row) (initial handler state) moves).step row move = db' at heffect
      cases heffect with
      | idle => exact Or.inl hstart
      | @select j next' hrunning =>
        by_cases hj : i = j
        · subst hj
          rw [hstart] at hrunning
          rw [← Transaction.select.inj (Session.running.inj hrunning)]
          refine Or.inr (.of_goOn ((hreturns _).mono fun value hvalue => ?_))
          exact ⟨moves, List.prefix_append .., hvalue⟩
        · exact Or.inl ((session_goOn_of_ne hj).trans hstart)
      | @pass j key next' hrunning hrow =>
        refine Or.inl ((session_goOn_of_ne ?_).trans hstart)
        rintro rfl
        rw [hstart] at hrunning
        exact nomatch hrunning
      | @acquire j key next' hrunning hrow hfree =>
        refine Or.inl ((session_goOn_of_ne ?_).trans hstart)
        rintro rfl
        rw [hstart] at hrunning
        exact nomatch hrunning
      | @stop _ j transaction session hrunning hstopped =>
        by_cases hj : i = j
        · subst hj
          exact Or.inr (.of_stop hstopped)
        · exact Or.inl ((session_stop_of_ne hj).trans hstart)
      | @succeed j write value state' hrunning hwrite =>
        refine Or.inl ((session_succeed_of_ne ?_).trans hstart)
        rintro rfl
        rw [hstart] at hrunning
        exact nomatch hrunning
    · exact Or.inr ((hreturned.effect (effect_step row _ move)).mono (hread moves move))
  have hstart : stage [] (initial handler state) := Or.inl (congrArg Session.running hhandler)
  rcases run_history hstart hstep moves with hrunning | hreturned
  · rw [hvalue] at hrunning
    exact nomatch hrunning
  · exact hreturned.succeeded value hvalue

end Steps

end Database

end Library
end Scam2Market
