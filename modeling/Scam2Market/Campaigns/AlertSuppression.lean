import Scam2Market.Campaigns.Runs

/-!
# Suppression of alerts

* `RowLaw`: what a row of the history of an alert says about its trigger, and whether it was emitted.
* `SuppressionLaw`: the row, the history and the events of an alert after its triggers.
* `suppressionLaw_run`: the law holds for every alert after every run.

A trigger is suppressed by the time of the last row that was emitted, whatever the order of the times
of the triggers is, so no assumption about these times is needed.
-/

namespace Scam2Market
namespace Campaigns

open Intelligence (RiskLevel)
open Library.Cooldown (Entry levels run)
open Library.Procedure
open SqlCampaignRepository
open Streaming (EventType)

/-! ## What was emitted -/

/-- The rows of a history that were not suppressed. -/
def emittedRows (history : List AlertStateHistoryModel) : List AlertStateHistoryModel :=
  history.filter fun row => decide (row.suppressionReason = none)

/-- The time of the last row that was emitted. -/
def lastEmittedAt (history : List AlertStateHistoryModel) : Option Datetime :=
  (emittedRows history).getLast?.map AlertStateHistoryModel.changedAt

/-- The type of the event that a row stands for. -/
def emittedType (row : AlertStateHistoryModel) : EventType :=
  noticeType (noticeOf row)

/-- A row of the history, for the trigger after `earlier`, when the rows before it are `before`. -/
structure RowLaw (repo : SqlCampaignRepository) (earlier : List (Datetime × RiskLevel))
    (trigger : Datetime × RiskLevel) (before : List AlertStateHistoryModel)
    (row : AlertStateHistoryModel) : Prop where
  changedAt : row.changedAt = trigger.1
  first : row.fromSeverity = none ↔ earlier = []
  fromSeverity : ∀ level ∈ row.fromSeverity, IsGreatest (levels earlier) level
  toSeverity : IsGreatest (levels (earlier ++ [trigger])) row.toSeverity
  created : row.fromSeverity = none →
    emittedType row = .alertCreated ∧ row.suppressionReason = none
  raised : ∀ level ∈ row.fromSeverity, level < row.toSeverity →
    emittedType row = .alertSeverityChanged ∧ row.suppressionReason = none
  refreshed : ∀ level ∈ row.fromSeverity, row.toSeverity = level →
    emittedType row = .alertRefreshed ∧
      (row.suppressionReason = none ↔
        ∀ last ∈ lastEmittedAt before, repo.suppression ≤ row.changedAt - last) ∧
      (row.suppressionReason ≠ none → row.suppressionReason = some "COOLDOWN")

/-- An alert after its triggers. -/
structure SuppressionLaw (repo : SqlCampaignRepository) (triggers : List (Datetime × RiskLevel))
    (id : AlertId) (t : Tables) : Prop where
  atMostOne : (t.alertRows id).length ≤ 1
  isEmpty : t.alertRows id = [] ↔ triggers = []
  severity : ∀ alert ∈ t.alertRows id, IsGreatest (levels triggers) alert.severity
  occurrenceCount : ∀ alert ∈ t.alertRows id, alert.occurrenceCount = (t.alertHistoryOf id).length
  version : ∀ alert ∈ t.alertRows id, alert.version = (t.alertHistoryOf id).length
  length_eq : (t.alertHistoryOf id).length = triggers.length
  rows : ∀ before row after, t.alertHistoryOf id = before ++ row :: after →
    ∃ earlier trigger later, triggers = earlier ++ trigger :: later ∧
      earlier.length = before.length ∧ RowLaw repo earlier trigger before row
  lastNotifiedAt : ∀ alert ∈ t.alertRows id,
    alert.lastNotifiedAt = lastEmittedAt (t.alertHistoryOf id)
  events : t.alertEvents id =
    (emittedRows (t.alertHistoryOf id)).map fun row => (emittedType row, row.changedAt)

/-! ## Rows and entries -/

variable {repo : SqlCampaignRepository} {triggers : List (Datetime × RiskLevel)} {id : AlertId}
  {t : Tables}

/-- The rows that were emitted are the entries that were not suppressed. -/
theorem map_entryOf_emittedRows (history : List AlertStateHistoryModel) :
    (emittedRows history).map entryOf =
      (history.map entryOf).filter fun entry => !entry.suppressed := by
  rw [List.filter_map]
  have hsame : ((fun entry : Entry Datetime RiskLevel => !entry.suppressed) ∘ entryOf) =
      fun row => decide (row.suppressionReason = none) := by
    funext row
    cases h : row.suppressionReason <;> simp [entryOf, h]
  rw [hsame]
  rfl

theorem lastEmittedAt_eq (history : List AlertStateHistoryModel) :
    lastEmittedAt history = Library.Cooldown.lastNotified (history.map entryOf) := by
  rw [Library.Cooldown.lastNotified, ← map_entryOf_emittedRows, List.getLast?_map, Option.map_map]
  rfl

/-- **A row of the history.** -/
theorem FollowsAlert.rowLaw (h : FollowsAlert repo id triggers t)
    {before after : List AlertStateHistoryModel} {row : AlertStateHistoryModel}
    (hsplit : t.alertHistoryOf id = before ++ row :: after) :
    ∃ earlier trigger later, triggers = earlier ++ trigger :: later ∧
      earlier.length = before.length ∧ RowLaw repo earlier trigger before row := by
  have hlog : (run repo.suppression triggers).2 =
      before.map entryOf ++ entryOf row :: after.map entryOf := by
    rw [← h.history, hsplit, List.map_append, List.map_cons]
  obtain ⟨earlier, trigger, later, htriggers, hbefore, hentry⟩ := Library.Cooldown.log_split hlog
  have hlength : earlier.length = before.length := by
    rw [← Library.Cooldown.length_log repo.suppression earlier, hbefore, List.length_map]
  have hmem : row ∈ t.alertHistoryOf id := by
    rw [hsplit]
    exact List.mem_append_right _ List.mem_cons_self
  have htime : row.changedAt = trigger.1 :=
    (congrArg Entry.time hentry).trans (Library.Cooldown.time_respond _ _ _)
  have hfrom : row.fromSeverity = (run repo.suppression earlier).1.map Library.Cooldown.Alarm.level :=
    (congrArg Entry.before hentry).trans (Library.Cooldown.before_respond _ _ _)
  have hto : row.toSeverity =
      (Library.Cooldown.respond repo.suppression (run repo.suppression earlier).1 trigger).1.level :=
    (congrArg Entry.after hentry).trans (Library.Cooldown.after_respond _ _ _)
  have hnotice := Library.Cooldown.notice_eq hlog
  have hcreated : row.fromSeverity = none → noticeOf row = .created := by
    intro hnone
    rw [show (entryOf row).before = none from hnone] at hnotice
    exact hnotice
  have hrefreshed : ∀ level ∈ row.fromSeverity, row.toSeverity = level →
      noticeOf row = .refreshed := by
    intro level hmem heq
    rw [show (entryOf row).before = some level from hmem] at hnotice
    exact hnotice.trans (if_pos heq)
  have hraised : ∀ level ∈ row.fromSeverity, row.toSeverity ≠ level → noticeOf row = .raised := by
    intro level hmem hne
    rw [show (entryOf row).before = some level from hmem] at hnotice
    exact hnotice.trans (if_neg hne)
  have hsuppressed : row.suppressionReason = none ↔ ¬ (noticeOf row = .refreshed ∧
      ∃ last ∈ lastEmittedAt before, row.changedAt - last < repo.suppression) := by
    rw [lastEmittedAt_eq, ← Option.not_isSome_iff_eq_none]
    exact not_congr (Library.Cooldown.suppressed_iff hlog)
  refine ⟨earlier, trigger, later, htriggers, hlength, htime, ?_, ?_, ?_, ?_, ?_, ?_⟩
  · rw [hfrom, Option.map_eq_none_iff]
    exact Library.Cooldown.alarm_eq_none_iff
  · intro level hfound
    rw [hfrom] at hfound
    obtain ⟨alarm, halarm, rfl⟩ := Option.map_eq_some_iff.mp hfound
    exact Library.Cooldown.level_run halarm
  · rw [hto]
    exact Library.Cooldown.level_run (Library.Cooldown.alarm_concat earlier trigger)
  · intro hnone
    rw [emittedType, hsuppressed, hcreated hnone]
    exact ⟨rfl, fun hboth => absurd hboth.1 (by decide)⟩
  · intro level hfound hlt
    rw [emittedType, hsuppressed, hraised level hfound hlt.ne']
    exact ⟨rfl, fun hboth => absurd hboth.1 (by decide)⟩
  · intro level hfound heq
    have hnow := hrefreshed level hfound heq
    refine ⟨congrArg noticeType hnow, ?_, ?_⟩
    · rw [hsuppressed, hnow]
      simp
    · intro hsome
      obtain ⟨text, htext⟩ := Option.ne_none_iff_exists'.mp hsome
      rw [htext, h.reason row hmem text htext]

/-! ## The law -/

/-- **An alert that follows its triggers keeps the law.** -/
theorem suppressionLaw_of_follows {allTriggers : AlertId → List (Datetime × RiskLevel)}
    (hfollows : Follows repo allTriggers t) (id : AlertId) :
    SuppressionLaw repo (allTriggers id) id t := by
  have h := hfollows id
  have hrows := alertRows_eq hfollows id
  have hlength : (t.alertHistoryOf id).length = (allTriggers id).length := by
    rw [← Library.Cooldown.length_log repo.suppression, ← h.history, List.length_map]
  have hstanding : ∀ alert ∈ t.alertRows id, ∃ alarm,
      (run repo.suppression (allTriggers id)).1 = some alarm ∧
        AlertStanding id (allTriggers id).length alert alarm := by
    intro alert halert
    rw [hrows, Option.mem_toList] at halert
    have hrel := h.row
    rw [Option.mem_def.mp halert] at hrel
    cases hrun : (run repo.suppression (allTriggers id)).1 with
    | none =>
      rw [hrun] at hrel
      cases hrel
    | some alarm =>
      rw [hrun] at hrel
      cases hrel with
      | some hstanding => exact ⟨alarm, rfl, hstanding⟩
  refine ⟨?_, ?_, ?_, ?_, ?_, hlength, ?_, ?_, ?_⟩
  · rw [hrows]
    cases t.alerts.get? id <;> simp
  · have hnone : (run repo.suppression (allTriggers id)).1 = none ↔ allTriggers id = [] :=
      Library.Cooldown.alarm_eq_none_iff
    rw [hrows, ← hnone]
    have hrel := h.row
    generalize t.alerts.get? id = found at hrel
    generalize (run repo.suppression (allTriggers id)).1 = alarm at hrel
    cases hrel with
    | none => simp
    | some => simp
  · intro alert halert
    obtain ⟨alarm, hrun, hstanding⟩ := hstanding alert halert
    rw [hstanding.severity]
    exact Library.Cooldown.level_run hrun
  · intro alert halert
    obtain ⟨alarm, -, hstanding⟩ := hstanding alert halert
    rw [hstanding.occurrenceCount, hlength]
  · intro alert halert
    obtain ⟨alarm, -, hstanding⟩ := hstanding alert halert
    rw [hstanding.version, hlength]
  · intro before row after hsplit
    exact h.rowLaw hsplit
  · intro alert halert
    obtain ⟨alarm, hrun, hstanding⟩ := hstanding alert halert
    rw [hstanding.lastNotifiedAt, lastEmittedAt_eq, h.history,
      ← Library.Cooldown.notifiedAt_run, hrun]
    rfl
  · rw [h.events, ← h.history, ← map_entryOf_emittedRows, List.map_map]
    rfl

/-- The triggers of an alert in a run begin with those of a part of the run. -/
theorem triggersBy_prefix (repo : SqlCampaignRepository) {earlier calls : List Call}
    (hearlier : earlier <+: calls) (id : AlertId) :
    triggersBy (traceAll repo.perform earlier .empty) id <+:
      triggersBy (traceAll repo.perform calls .empty) id := by
  obtain ⟨later, rfl⟩ := hearlier
  rw [traceAll_append, triggersBy, triggersBy, appliedTo, appliedTo, List.filterMap_append,
    triggersOf, triggersOf, List.flatMap_append]
  exact List.prefix_append _ _

/-- **Suppression of alerts.**  After every run, every alert keeps the law, and its severity has not
decreased since any earlier part of the run. -/
theorem suppressionLaw_run (repo : SqlCampaignRepository) (calls : List Call) (id : AlertId) :
    SuppressionLaw repo (triggersBy (traceAll repo.perform calls .empty) id) id
        (runAll repo.perform calls .empty).2 ∧
      ∀ earlier, earlier <+: calls →
        ∀ alert ∈ (runAll repo.perform earlier .empty).2.alertRows id,
          ∃ alert' ∈ (runAll repo.perform calls .empty).2.alertRows id,
            alert.severity ≤ alert'.severity := by
  have hlaw := suppressionLaw_of_follows (follows_run repo calls) id
  refine ⟨hlaw, fun earlier hsplit alert halert => ?_⟩
  have hearlier := suppressionLaw_of_follows (follows_run repo earlier) id
  have htriggers := triggersBy_prefix repo hsplit id
  have hne : (runAll repo.perform calls .empty).2.alertRows id ≠ [] := by
    intro hnil
    rw [hlaw.isEmpty.mp hnil, List.prefix_nil, ← hearlier.isEmpty] at htriggers
    rw [htriggers] at halert
    exact absurd halert List.not_mem_nil
  obtain ⟨alert', halert'⟩ := List.exists_mem_of_ne_nil _ hne
  exact ⟨alert', halert', (hearlier.severity alert halert).mono (hlaw.severity alert' halert')
    (Library.Cooldown.levels_mono htriggers)⟩

end Campaigns
end Scam2Market
