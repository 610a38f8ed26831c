import Scam2Market.Library.TwoPhaseLocking
import Scam2Market.Api.Investigations

/-!
# Updates of investigations are serialisable

Any number of updates run beside each other.  An update reads the row it has locked and writes no other,
so by two-phase locking the log of the commits is a serial history (`applied_of_mem_log`): each update that
succeeded found the version it expected in the state its predecessor left, and raised it by one, with one
event.

`closed_at` is set when an investigation is closed and never cleared.  It is set exactly on the closed
investigations as long as no update reopens one: `consistent_iff_never_reopened`.
-/

namespace Scam2Market
namespace Api

open Library (Linked Transaction Session Commit Database Move Always Throughout)

/-! ## One update -/

open InvestigationTables (row)

variable {request : UpdateRequest} {before after : InvestigationTables}

/-- What an update does: it finds the version it expects, raises it by one and adds its event. -/
def UpdateRequest.Applies (request : UpdateRequest) (before after : InvestigationTables) : Prop :=
  ∃ investigation, before.investigations request.investigationId = some investigation ∧
    investigation.version = request.body.expectedVersion ∧
    after = before.updated request investigation

theorem flush_eq_ok {investigation : InvestigationModel}
    (h : before.flush request investigation = .ok after) :
    after = before.updated request investigation := by
  rw [InvestigationTables.flush] at h
  split_ifs at h
  exact (Except.ok.inj h).symm

theorem applies_of_alone {value : Unit}
    (h : (updateInvestigation request).alone before = .ok (value, after)) :
    request.Applies before after := by
  rw [updateInvestigation, Transaction.alone] at h
  cases hrow : row request.investigationId before with
  | none =>
    rw [hrow] at h
    cases h
  | some investigation =>
    rw [hrow, updateFound] at h
    split_ifs at h with hversion
    · cases h
    · rw [Transaction.alone] at h
      cases hflush : before.flush request investigation with
      | error error =>
        rw [hflush] at h
        cases h
      | ok after' =>
        rw [hflush] at h
        have hafter : after' = after := congrArg Prod.snd (Except.ok.inj h)
        rw [← hafter]
        exact ⟨investigation, hrow, not_not.mp hversion, flush_eq_ok hflush⟩

/-- An update writes the row it has locked. -/
theorem respects_updateInvestigation (request : UpdateRequest) :
    (updateInvestigation request).Respects row ∅ := by
  refine Transaction.respects_lock trivial fun investigation => ?_
  rw [updateFound]
  split_ifs
  · trivial
  · intro s s' hwrite id hid _
    rw [flush_eq_ok hwrite]
    exact Function.update_of_ne (fun heq => hid (Set.mem_insert_iff.mpr (Or.inl heq))) ..

/-- An update reads the row it has locked. -/
theorem twoPhase_updateInvestigation (request : UpdateRequest) :
    (updateInvestigation request).TwoPhase row ∅ := by
  refine Transaction.twoPhase_lock trivial fun investigation => ?_
  rw [updateFound]
  split_ifs <;> trivial

/-! ## Versions and events -/

/-- The number of `UPDATED` events of an investigation. -/
def InvestigationTables.updatedCount (tables : InvestigationTables) (id : InvestigationId) : ℕ :=
  (tables.events.filter fun event =>
    event.investigationId = id ∧ event.eventType = "UPDATED").length

/-- There is one event for each version that was made in between. -/
def Counted (before after : InvestigationTables) : Prop :=
  ∀ id investigation, before.investigations id = some investigation →
    ∃ investigation', after.investigations id = some investigation' ∧
      investigation'.version + before.updatedCount id =
        investigation.version + after.updatedCount id

theorem Counted.refl (tables : InvestigationTables) : Counted tables tables :=
  fun _ investigation h => ⟨investigation, h, rfl⟩

theorem Counted.trans {a b c : InvestigationTables} (h : Counted a b) (h' : Counted b c) :
    Counted a c := by
  intro id investigation hrow
  obtain ⟨second, hsecond, hcount⟩ := h id investigation hrow
  obtain ⟨third, hthird, hcount'⟩ := h' id second hsecond
  exact ⟨third, hthird, by omega⟩

theorem UpdateRequest.Applies.counted (h : request.Applies before after) : Counted before after := by
  obtain ⟨found, hfound, -, rfl⟩ := h
  intro id investigation hrow
  by_cases hid : id = request.investigationId
  · subst hid
    refine ⟨request.body.apply request.now found, Function.update_self .., ?_⟩
    have hsame : found = investigation := Option.some.inj (hfound.symm.trans hrow)
    simp [InvestigationTables.updatedCount, InvestigationTables.updated, InvestigationUpdate.apply,
      hsame]
    omega
  · refine ⟨investigation, (Function.update_of_ne hid ..).trans hrow, ?_⟩
    simp [InvestigationTables.updatedCount, InvestigationTables.updated, Ne.symm hid]

/-! ## Closing -/

/-- `closed_at` is set exactly on the closed investigations. -/
def InvestigationTables.Consistent (tables : InvestigationTables) : Prop :=
  ∀ id investigation, tables.investigations id = some investigation →
    (investigation.closedAt.isSome ↔ investigation.status = .closed)

/-- The request asks for another status than CLOSED. -/
def UpdateRequest.Opens (request : UpdateRequest) : Prop :=
  ∃ status ∈ request.body.status, status ≠ .closed

theorem consistent_updated {investigation : InvestigationModel} (h : before.Consistent)
    (hrow : before.investigations request.investigationId = some investigation)
    (hopens : ¬ (investigation.status = .closed ∧ request.Opens)) :
    (before.updated request investigation).Consistent := by
  intro id other hother
  by_cases hid : id = request.investigationId
  · subst hid
    rw [InvestigationTables.updated] at hother
    simp only [Function.update_self, Option.some.injEq] at hother
    rw [← hother]
    have hbefore := h _ _ hrow
    cases hstatus : request.body.status with
    | none =>
      simp only [InvestigationUpdate.apply, hstatus, Option.getD_none, reduceCtorEq, if_false]
      exact hbefore
    | some status =>
      by_cases hclosed : status = .closed
      · simp [InvestigationUpdate.apply, hstatus, hclosed]
      · have hopen : investigation.status ≠ .closed := fun heq =>
          hopens ⟨heq, status, hstatus, hclosed⟩
        have hnone : investigation.closedAt.isSome = false := by
          rw [Bool.eq_false_iff]
          exact fun hsome => hopen (hbefore.mp hsome)
        simp [InvestigationUpdate.apply, hstatus, hclosed, hnone]
  · exact h id other ((Function.update_of_ne hid ..).symm.trans hother)

/-- An investigation that is reopened keeps its `closed_at`. -/
theorem not_consistent_updated {investigation : InvestigationModel} (h : before.Consistent)
    (hrow : before.investigations request.investigationId = some investigation)
    (hclosed : investigation.status = .closed) (hopens : request.Opens) :
    ¬ (before.updated request investigation).Consistent := by
  intro hafter
  obtain ⟨status, hstatus, hne⟩ := hopens
  have hset := (h _ _ hrow).mpr hclosed
  have hiff := hafter request.investigationId (request.body.apply request.now investigation)
    (Function.update_self ..)
  simp [InvestigationUpdate.apply, Option.mem_def.mp hstatus, hne, hset] at hiff

/-! ## Every interleaving -/

section Runs

variable {ι : Type} [DecidableEq ι] {requests : ι → UpdateRequest}

/-- The database that the updates run on. -/
abbrev UpdateDatabase (ι : Type) : Type :=
  Database ι InvestigationId InvestigationTables RequestError Unit

/-- Updates that have not begun. -/
def updates (requests : ι → UpdateRequest) (tables : InvestigationTables) : UpdateDatabase ι :=
  .initial (fun i => updateInvestigation (requests i)) tables

variable {tables : InvestigationTables} {db : UpdateDatabase ι}

/-- What locking gives in every state. -/
structure Sound (requests : ι → UpdateRequest) (tables : InvestigationTables)
    (db : UpdateDatabase ι) : Prop where
  logged : db.Logged tables
  guarded : Database.Guarded row db
  faithful : ∀ i, Database.Faithful row (updateInvestigation (requests i)) i db

theorem sound_updates (requests : ι → UpdateRequest) (tables : InvestigationTables) :
    Sound requests tables (updates requests tables) where
  logged := Database.logged_initial _ tables
  guarded := Database.guarded_run (fun i => respects_updateInvestigation (requests i)) tables []
  faithful := fun i => Database.serialisable (fun i => respects_updateInvestigation (requests i))
    tables [] (twoPhase_updateInvestigation (requests i))

theorem Sound.step (h : Sound requests tables db) (move : Move ι) :
    Sound requests tables (db.step row move) where
  logged := h.logged.effect (Database.effect_step row db move)
  guarded := h.guarded.effect (Database.effect_step row db move)
  faithful := fun i => (h.faithful i).effect h.guarded (Database.effect_step row db move)

/-- Every commit is the whole update, on the state its predecessor left. -/
theorem Sound.applied (h : Sound requests tables db) {commit : Commit ι InvestigationTables}
    (hcommit : commit ∈ db.log) : (requests commit.request).Applies commit.before commit.after := by
  obtain ⟨value, -, halone⟩ := (h.faithful commit.request).logged commit hcommit rfl
  exact applies_of_alone halone

/-- A step that commits applies its request to the committed state. -/
theorem Sound.applies_step (h : Sound requests tables db) {i : ι} {value : Unit}
    {write : InvestigationTables → Except RequestError InvestigationTables}
    (hsession : db.session i = .running (.commit write value)) (hwrite : write db.state = .ok after) :
    (requests i).Applies db.state after := by
  have hstep : db.step row (.advance i) = db.succeed i after value := by
    simp only [Database.step, hsession, hwrite]
  have hnext := h.step (.advance i)
  rw [hstep] at hnext
  exact hnext.applied (List.mem_append_right _ (List.mem_singleton_self _))

/-- The updates that succeeded are a serial history, each found the version it expected and raised it by
one with one event, the others changed nothing, and `closed_at` tells the closed investigations. -/
structure Serialisable (requests : ι → UpdateRequest) (tables : InvestigationTables)
    (db : UpdateDatabase ι) : Prop where
  linked : Linked tables (db.log.map fun commit => (commit.before, commit.after)) db.state
  nodup : (db.log.map Commit.request).Nodup
  succeeded : ∀ i, db.session i = .succeeded () ↔ i ∈ db.log.map Commit.request
  applied : ∀ commit ∈ db.log, (requests commit.request).Applies commit.before commit.after
  counted : Counted tables db.state
  consistent : db.state.Consistent

theorem Sound.serialisable (h : Sound requests tables db) (hconsistent : db.state.Consistent) :
    Serialisable requests tables db where
  linked := h.logged.linked
  nodup := h.logged.nodup
  succeeded := fun i => by
    constructor
    · intro hsession
      obtain ⟨commit, hcommit, hrequest⟩ := h.logged.complete i () hsession
      exact List.mem_map.mpr ⟨commit, hcommit, hrequest⟩
    · intro hmem
      obtain ⟨commit, hcommit, rfl⟩ := List.mem_map.mp hmem
      exact (h.logged.succeeded commit hcommit).choose_spec
  applied := fun _ hcommit => h.applied hcommit
  counted := h.logged.linked.related Counted.refl (fun _ _ _ => Counted.trans) fun step hstep => by
    obtain ⟨commit, hcommit, rfl⟩ := List.mem_map.mp hstep
    exact (h.applied hcommit).counted
  consistent := hconsistent

/-- The step commits an update that takes a closed investigation to another status. -/
def Reopens (requests : ι → UpdateRequest) (db : UpdateDatabase ι) : Move ι → Prop
  | .advance i => ∃ write after investigation,
      db.session i = .running (.commit write ()) ∧ write db.state = .ok after ∧
      db.state.investigations (requests i).investigationId = some investigation ∧
      investigation.status = .closed ∧ (requests i).Opens
  | .abort _ => False

theorem Sound.consistent_step (h : Sound requests tables db) (hconsistent : db.state.Consistent)
    {move : Move ι} (hkeeps : ¬ Reopens requests db move) :
    (db.step row move).state.Consistent := by
  have heffect := Database.effect_step row db move
  generalize hnext : db.step row move = next at heffect
  cases heffect with
  | idle => exact hconsistent
  | select _ => exact hconsistent
  | pass _ _ => exact hconsistent
  | acquire _ _ _ => exact hconsistent
  | stop _ _ => exact hconsistent
  | @succeed i write value after hsession hwrite =>
    obtain ⟨investigation, hrow, -, hafter⟩ := h.applies_step hsession hwrite
    show after.Consistent
    rw [hafter]
    exact consistent_updated hconsistent hrow fun hreopens =>
      hkeeps ⟨write, after, investigation, hsession, hwrite, hrow, hreopens.1, hreopens.2⟩

theorem Sound.not_consistent_step (h : Sound requests tables db) (hconsistent : db.state.Consistent)
    {move : Move ι} (hreopens : Reopens requests db move) :
    ¬ (db.step row move).state.Consistent := by
  cases move with
  | abort i => exact hreopens.elim
  | advance i =>
    obtain ⟨write, after, investigation, hsession, hwrite, hrow, hclosed, hopens⟩ := hreopens
    obtain ⟨found, hfound, -, hafter⟩ := h.applies_step hsession hwrite
    have hstep : (db.step row (.advance i)).state = after := by
      simp only [Database.step, hsession, hwrite, Database.succeed]
    rw [hstep, hafter]
    rw [← Option.some.inj (hfound.symm.trans hrow)] at hclosed
    exact not_consistent_updated hconsistent hfound hclosed hopens

/-- **Updates are serialisable, and consistent as long as nothing is reopened.**  From a consistent state,
every state of a run is a serial history of the updates that succeeded with consistent investigations, if
and only if no step of the run commits an update that takes a closed investigation to another status. -/
theorem serialisable_iff_never_reopened (requests : ι → UpdateRequest) (tables : InvestigationTables)
    (hconsistent : tables.Consistent) (moves : List (Move ι)) :
    Always (Database.step row) (Serialisable requests tables) (updates requests tables) moves ↔
      Throughout (Database.step row) (fun db move => ¬ Reopens requests db move)
        (updates requests tables) moves := by
  refine Library.always_iff_throughout
    (I := fun db => Sound requests tables db ∧ db.state.Consistent)
    (fun db move h hkeeps => ⟨h.1.step move, h.1.consistent_step h.2 hkeeps⟩)
    (fun db h => h.1.serialisable h.2) (fun db move h hreopens hserialisable => ?_)
    ⟨sound_updates requests tables, hconsistent⟩ moves
  exact h.1.not_consistent_step h.2 (not_not.mp hreopens) hserialisable.consistent

end Runs

/-- One investigation that has just been opened. -/
def openedTables : InvestigationTables where
  investigations := fun id => if id = 0 then some {} else none

/-- An analyst closes the investigation. -/
def closing : UpdateRequest where
  investigationId := 0
  body := { status := some .closed, expectedVersion := 1 }
  actorId := "analyst"
  now := 1

/-- And another one reopens it. -/
def reopening : UpdateRequest where
  investigationId := 0
  body := { status := some .triage, expectedVersion := 2 }
  actorId := "reviewer"
  now := 2

theorem consistent_openedTables : openedTables.Consistent := by
  intro id investigation hrow
  simp only [openedTables] at hrow
  split_ifs at hrow
  rw [← Option.some.inj hrow]
  decide

/-- Two analysts close the investigation at the same time: one of them succeeds. -/
theorem serialisable_closing_twice :
    Always (Database.step row) (Serialisable (fun _ : Fin 2 => closing) openedTables)
      (updates (fun _ => closing) openedTables)
      [.advance 0, .advance 1, .advance 0, .advance 1, .advance 1] := by
  refine (serialisable_iff_never_reopened (fun _ => closing) openedTables consistent_openedTables
    _).mpr (Library.throughout_iff_split.mpr fun _ move _ _ hreopens => ?_)
  cases move with
  | abort i => exact hreopens
  | advance i =>
    obtain ⟨-, -, -, -, -, -, -, status, hstatus, hne⟩ := hreopens
    exact hne (Option.some.inj (Option.mem_def.mp hstatus)).symm

/-- An investigation that was closed and then reopened still says when it was closed. -/
theorem reopened_keeps_closed_at :
    openedTables.Consistent ∧ ∃ investigation,
      (Library.run (Database.step row)
        (updates (fun i : Fin 2 => if i = 0 then closing else reopening) openedTables)
        [.advance 0, .advance 0, .advance 1, .advance 1]).state.investigations 0 =
          some investigation ∧
      investigation.version = 3 ∧ investigation.status = .triage ∧
      ¬ (investigation.closedAt.isSome ↔ investigation.status = .closed) := by
  refine ⟨consistent_openedTables, { status := .triage, version := 3, closedAt := some 1 }, ?_,
    rfl, rfl, by decide⟩
  decide +kernel

end Api
end Scam2Market
