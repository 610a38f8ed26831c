import Mathlib.Data.List.Basic
import Mathlib.Data.List.Induction
import Mathlib.Order.Bounds.Basic
import Scam2Market.Library.Lists

/-!
# Notifications with a cooldown

A notifier of one alarm takes triggers, each at a time and with a level.  It keeps the highest level,
and logs every trigger.  A trigger that raises the level is always notified.  One that does not is
notified again only when the cooldown has passed since the last notification, and suppressed
otherwise.

* `respond`: what one trigger does.  `run`: the alarm and the log after a list of triggers.
* `log_split`: an entry of a log is the response to its own trigger, in the state that the earlier
  triggers have left.
* `level_run`: the level is the greatest one so far, so it never decreases (`level_run_append`).
* `notifiedAt_run`: the time of the alarm is that of the last entry that was not suppressed.

Times need a difference and an order, levels an order.
-/

namespace Scam2Market
namespace Library
namespace Cooldown

variable {T α : Type*}

/-- An alarm that has been triggered. -/
structure Alarm (T α : Type*) where
  level : α
  notifiedAt : T

/-- What a trigger means for the alarm. -/
inductive Notice where
  | created
  | raised
  | refreshed
  deriving DecidableEq, Repr

/-- What is logged about a trigger. -/
@[ext]
structure Entry (T α : Type*) where
  time : T
  before : Option α
  after : α
  notice : Notice
  suppressed : Bool

section Respond

variable [LinearOrder T] [Sub T] [LinearOrder α]

/-- What one trigger does to the alarm, and what is logged about it. -/
def respond (cooldown : T) (alarm : Option (Alarm T α)) (trigger : T × α) :
    Alarm T α × Entry T α :=
  match alarm with
  | none =>
    ({ level := trigger.2, notifiedAt := trigger.1 },
      { time := trigger.1, before := none, after := trigger.2, notice := .created,
        suppressed := false })
  | some alarm =>
    let level := max alarm.level trigger.2
    let notice := if level = alarm.level then Notice.refreshed else .raised
    let suppressed :=
      decide (notice = .refreshed) && decide (trigger.1 - alarm.notifiedAt < cooldown)
    ({ level := level, notifiedAt := if suppressed then alarm.notifiedAt else trigger.1 },
      { time := trigger.1, before := some alarm.level, after := level, notice := notice,
        suppressed := suppressed })

/-- The alarm and the log after one more trigger. -/
def advance (cooldown : T) (state : Option (Alarm T α) × List (Entry T α)) (trigger : T × α) :
    Option (Alarm T α) × List (Entry T α) :=
  (some (respond cooldown state.1 trigger).1, state.2 ++ [(respond cooldown state.1 trigger).2])

/-- The alarm and the log after a list of triggers. -/
def run (cooldown : T) (triggers : List (T × α)) : Option (Alarm T α) × List (Entry T α) :=
  triggers.foldl (advance cooldown) (none, [])

/-- The time of the last entry that was not suppressed. -/
def lastNotified (log : List (Entry T α)) : Option T :=
  ((log.filter fun entry => !entry.suppressed).getLast?).map Entry.time

variable {cooldown : T} {triggers : List (T × α)}

@[simp] theorem run_nil : run cooldown ([] : List (T × α)) = (none, []) := rfl

theorem run_concat (triggers : List (T × α)) (trigger : T × α) :
    run cooldown (triggers ++ [trigger]) = advance cooldown (run cooldown triggers) trigger := by
  rw [run, List.foldl_append, List.foldl_cons, List.foldl_nil, run]

theorem log_concat (triggers : List (T × α)) (trigger : T × α) :
    (run cooldown (triggers ++ [trigger])).2 = (run cooldown triggers).2 ++
      [(respond cooldown (run cooldown triggers).1 trigger).2] := by
  rw [run_concat, advance]

theorem alarm_concat (triggers : List (T × α)) (trigger : T × α) :
    (run cooldown (triggers ++ [trigger])).1 =
      some (respond cooldown (run cooldown triggers).1 trigger).1 := by
  rw [run_concat, advance]

section

variable (cooldown) (alarm : Option (Alarm T α)) (trigger : T × α)

@[simp] theorem time_respond : (respond cooldown alarm trigger).2.time = trigger.1 := by
  cases alarm <;> rfl

@[simp] theorem before_respond :
    (respond cooldown alarm trigger).2.before = alarm.map Alarm.level := by
  cases alarm <;> rfl

@[simp] theorem after_respond :
    (respond cooldown alarm trigger).2.after = (respond cooldown alarm trigger).1.level := by
  cases alarm <;> rfl

theorem level_respond :
    (respond cooldown alarm trigger).1.level =
      (alarm.map Alarm.level).elim trigger.2 fun level => max level trigger.2 := by
  cases alarm <;> rfl

end

/-- There is an alarm once there is a trigger. -/
theorem alarm_eq_none_iff : (run cooldown triggers).1 = none ↔ triggers = [] := by
  rcases List.eq_nil_or_concat' triggers with rfl | ⟨earlier, trigger, rfl⟩
  · exact iff_of_true rfl rfl
  · rw [alarm_concat]
    exact iff_of_false (Option.some_ne_none _) (by simp)

/-- Every trigger is logged. -/
theorem times_run (cooldown : T) (triggers : List (T × α)) :
    (run cooldown triggers).2.map Entry.time = triggers.map Prod.fst := by
  induction triggers using List.reverseRecOn with
  | nil => rfl
  | append_singleton triggers trigger ih =>
    rw [log_concat, List.map_append, List.map_append, ih, List.map_singleton, time_respond,
      List.map_singleton]

theorem length_log (cooldown : T) (triggers : List (T × α)) :
    (run cooldown triggers).2.length = triggers.length := by
  have h := congrArg List.length (times_run cooldown triggers)
  rwa [List.length_map, List.length_map] at h

/-- **Entries and triggers.**  An entry is the response to its own trigger, after the earlier ones. -/
theorem log_split {before after : List (Entry T α)} {entry : Entry T α}
    (h : (run cooldown triggers).2 = before ++ entry :: after) :
    ∃ earlier trigger later, triggers = earlier ++ trigger :: later ∧
      (run cooldown earlier).2 = before ∧
      entry = (respond cooldown (run cooldown earlier).1 trigger).2 := by
  induction triggers using List.reverseRecOn generalizing after with
  | nil => exact absurd h (by simp)
  | append_singleton triggers trigger ih =>
    rw [log_concat] at h
    rcases concat_eq_append_cons h with ⟨-, rfl, rfl⟩ | ⟨after', -, hinit⟩
    · exact ⟨triggers, trigger, [], rfl, rfl, rfl⟩
    · obtain ⟨earlier, found, later, htriggers, hbefore, hentry⟩ := ih hinit
      refine ⟨earlier, found, later ++ [trigger], ?_, hbefore, hentry⟩
      rw [htriggers, List.append_assoc, List.cons_append]

/-! ## Levels -/

/-- The levels of the triggers. -/
def levels (triggers : List (T × α)) : Set α :=
  {level | ∃ trigger ∈ triggers, trigger.2 = level}

omit [LinearOrder T] [Sub T] [LinearOrder α] in
theorem levels_concat (triggers : List (T × α)) (trigger : T × α) :
    levels (triggers ++ [trigger]) = insert trigger.2 (levels triggers) := by
  ext level
  simp only [levels, List.mem_append, List.mem_singleton, Set.mem_insert_iff, Set.mem_ofPred_eq]
  constructor
  · rintro ⟨other, hmem | rfl, hlevel⟩
    · exact Or.inr ⟨other, hmem, hlevel⟩
    · exact Or.inl hlevel.symm
  · rintro (rfl | ⟨other, hmem, hlevel⟩)
    · exact ⟨trigger, Or.inr rfl, rfl⟩
    · exact ⟨other, Or.inl hmem, hlevel⟩

omit [LinearOrder T] [Sub T] [LinearOrder α] in
theorem levels_mono {earlier triggers : List (T × α)} (h : earlier <+: triggers) :
    levels earlier ⊆ levels triggers := by
  rintro level ⟨trigger, hmem, hlevel⟩
  exact ⟨trigger, h.subset hmem, hlevel⟩

/-- **The level is the greatest one so far.** -/
theorem level_run {alarm : Alarm T α} (h : (run cooldown triggers).1 = some alarm) :
    IsGreatest (levels triggers) alarm.level := by
  induction triggers using List.reverseRecOn generalizing alarm with
  | nil => exact absurd h (by simp)
  | append_singleton triggers trigger ih =>
    rw [alarm_concat] at h
    have hlevel := level_respond cooldown (run cooldown triggers).1 trigger
    rw [Option.some.inj h] at hlevel
    rw [hlevel, levels_concat]
    cases hprior : (run cooldown triggers).1 with
    | none =>
      obtain rfl := alarm_eq_none_iff.mp hprior
      simp [levels]
    | some prior =>
      rw [Option.map_some, Option.elim_some, max_comm]
      exact (ih hprior).insert trigger.2

/-- The level never decreases. -/
theorem level_run_mono {earlier : List (T × α)} {alarm alarm' : Alarm T α}
    (hearlier : earlier <+: triggers) (h : (run cooldown earlier).1 = some alarm)
    (h' : (run cooldown triggers).1 = some alarm') : alarm.level ≤ alarm'.level :=
  (level_run h).mono (level_run h') (levels_mono hearlier)

/-! ## Times -/

/-- **The alarm knows when it was last notified.** -/
theorem notifiedAt_run (triggers : List (T × α)) :
    (run cooldown triggers).1.map Alarm.notifiedAt = lastNotified (run cooldown triggers).2 := by
  induction triggers using List.reverseRecOn with
  | nil => rfl
  | append_singleton triggers trigger ih =>
    rw [alarm_concat, log_concat, lastNotified, List.filter_append, Option.map_some]
    rw [lastNotified] at ih
    cases hprior : (run cooldown triggers).1 with
    | none => simp [respond]
    | some prior =>
      rw [hprior, Option.map_some] at ih
      by_cases hsuppressed : (respond cooldown (some prior) trigger).2.suppressed = true
      · have hsame : (respond cooldown (some prior) trigger).1.notifiedAt = prior.notifiedAt :=
          if_pos hsuppressed
        rw [hsame, ih, List.filter_cons_of_neg (by simp [hsuppressed]), List.filter_nil,
          List.append_nil]
      · have hnow : (respond cooldown (some prior) trigger).1.notifiedAt = trigger.1 :=
          if_neg hsuppressed
        rw [hnow, List.filter_cons_of_pos (by simp [hsuppressed]), List.filter_nil,
          List.getLast?_concat, Option.map_some, time_respond]

/-! ## Suppression -/

/-- **When a trigger is suppressed.**  It does not raise the level, and the cooldown has not passed
since the last notification. -/
theorem suppressed_iff {before after : List (Entry T α)} {entry : Entry T α}
    (h : (run cooldown triggers).2 = before ++ entry :: after) :
    entry.suppressed = true ↔ entry.notice = .refreshed ∧
      ∃ last ∈ lastNotified before, entry.time - last < cooldown := by
  obtain ⟨earlier, trigger, later, -, rfl, rfl⟩ := log_split h
  rw [← notifiedAt_run]
  cases (run cooldown earlier).1 with
  | none => simp [respond]
  | some alarm => simp [respond]

/-- What an entry says about the level. -/
theorem notice_eq {before after : List (Entry T α)} {entry : Entry T α}
    (h : (run cooldown triggers).2 = before ++ entry :: after) :
    entry.notice = match entry.before with
      | none => .created
      | some level => if entry.after = level then .refreshed else .raised := by
  obtain ⟨earlier, trigger, later, -, rfl, rfl⟩ := log_split h
  cases (run cooldown earlier).1 with
  | none => rfl
  | some alarm => rfl

end Respond

end Cooldown
end Library
end Scam2Market
