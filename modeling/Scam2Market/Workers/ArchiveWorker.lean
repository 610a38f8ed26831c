import Scam2Market.Library.Consumers
import Scam2Market.Python.Isoformat

/-!
# The archive worker

The loop of `workers/archive_worker.py` over `ParquetRawEventArchive` of `ingestion/archive.py`, the
checkpoints and `EventConsumer`: the record is written, the checkpoint is saved, the offset is committed.

* `destination`: where the object of an event lies.  Paths are joined as `pathlib` joins them.
* `writeSync`: an object that exists is left as it is; otherwise the file is created (`torn`) and then
  written.  When the writer raises it removes the file; when the process is killed nobody does.
* `archived_run`: what lies below the offsets has an object, and an object never changes.
* `intact_iff`: no object stays torn if and only if the process is never killed in the middle of a write.
* `archived_as_is`: in such a run every record below the offsets is archived as it is.
-/

namespace Scam2Market
namespace Workers

open Library
open Library.Consumer

/-! ## Events and paths -/

/-- The types of the events of the four topics. -/
inductive RawEventType where
  | marketTradeReceived
  | marketCandleClosed
  | marketOrderbookUpdated
  | socialPostReceived
  deriving DecidableEq

/-- `event.event_type in MARKET_EVENT_TYPES`. -/
def RawEventType.isMarket : RawEventType → Bool
  | socialPostReceived => false
  | _ => true

/-- What the archive reads of an event, and the rest of its envelope; all of it stands in the row. -/
structure RawEvent (β : Type) where
  eventId : String
  eventType : RawEventType
  source : String
  eventTime : Datetime
  envelope : β
  deriving DecidableEq

/-- The parts of a path, one after the other; the root of an absolute path is its first part. -/
abbrev PurePath := List (List Char)

/-- The parts of a segment.  Empty parts and dots say nothing. -/
def pathParts (segment : List Char) : PurePath :=
  (segment.splitOn '/').filter fun part => part ≠ [] ∧ part ≠ ['.']

/-- `path / segment`; an absolute segment takes the place of the path. -/
def joinpath (path : PurePath) (segment : String) : PurePath :=
  if segment.toList.head? = some '/' then ['/'] :: pathParts segment.toList
  else path ++ pathParts segment.toList

/-- `event_time.date().isoformat()`. -/
def dateText (eventTime : Datetime) : String :=
  String.ofList ((secondsText (eventTime / 1000000)).take 10)

variable {β : Type}

/-- `"market" if event.event_type in MARKET_EVENT_TYPES else "social"`. -/
def RawEvent.stream (event : RawEvent β) : String :=
  if event.eventType.isMarket then "market" else "social"

/-- `self._root / stream / f"date=..." / f"source=..." / f"{event.event_id}.parquet"`. -/
def destination (root : PurePath) (event : RawEvent β) : PurePath :=
  joinpath (joinpath (joinpath (joinpath root event.stream)
    ("date=" ++ dateText event.eventTime)) ("source=" ++ event.source)) (event.eventId ++ ".parquet")

/-! ## The store -/

/-- A file that has been created, or an object with its row. -/
inductive ParquetObject (β : Type) where
  | torn
  | written (event : RawEvent β)
  deriving DecidableEq

/-- A topic and the number of a partition, and the records of the partitions. -/
abbrev ArchiveLog (β : Type) := String × ℕ → ℕ → Option (RawEvent β)

structure ArchiveStore (β : Type) where
  objects : PurePath → Option (ParquetObject β) := fun _ => none
  lastDurableOffset : String × ℕ → Option ℕ := fun _ => none

namespace ArchiveStore

def put (s : ArchiveStore β) (path : PurePath) (object : Option (ParquetObject β)) :
    ArchiveStore β :=
  { s with objects := Function.update s.objects path object }

/-- `SqlWorkerCheckpointRepository.save(...)`. -/
def save (s : ArchiveStore β) (partition : String × ℕ) (offset : ℕ) : ArchiveStore β :=
  let durable := match s.lastDurableOffset partition with
    | none => offset
    | some lastDurable => max lastDurable offset
  { s with lastDurableOffset := Function.update s.lastDurableOffset partition (some durable) }

/-- Some object has been created and not yet written. -/
def HalfWritten (s : ArchiveStore β) : Prop :=
  ∃ path, s.objects path = some .torn

end ArchiveStore

/-! ## The worker -/

abbrev RawRecord (β : Type) := Record (String × ℕ) (RawEvent β)

/-- `checkpoints.save(...)`, the last step before the commit. -/
def saveCheckpoint (record : RawRecord β) : Program (ArchiveStore β) :=
  .step (fun s => s.save record.partition record.offset) fun _ => .done

/-- `archive.write(stream, event)` and what follows; `fails` says whether the writer raises. -/
def writeSync (root : PurePath) (record : RawRecord β) (fails : Bool) : Program (ArchiveStore β) :=
  let path := destination root record.event
  .step (fun s => if (s.objects path).isSome then s else s.put path (some .torn)) fun s =>
    if (s.objects path).isSome then saveCheckpoint record
    else if fails then .step (fun s => s.put path none) fun _ => .raise
    else .step (fun s => s.put path (some (.written record.event))) fun _ => saveCheckpoint record

abbrev ArchiveWorker (β : Type) := Consumer (String × ℕ) (RawEvent β) (ArchiveStore β)

abbrev ArchiveMove := ConsumerMove (String × ℕ) Bool Empty

/-- Nothing has been archived, nothing committed. -/
def initialArchive : ArchiveWorker β :=
  { store := {} }

/-- One move of the worker. -/
def archiveStep (root : PurePath) (log : ArchiveLog β) :
    ArchiveWorker β → ArchiveMove → ArchiveWorker β :=
  Consumer.step log (writeSync root) alone

/-- Between two records no object is torn. -/
def Intact (s : ArchiveWorker β) : Prop :=
  s.AtRest → ¬ s.store.HalfWritten

/-- The process is not killed in the middle of a write. -/
def NotKilledWriting (s : ArchiveWorker β) (move : ArchiveMove) : Prop :=
  move = .crash → ¬ s.store.HalfWritten

/-- The offset is below the committed one, or not above the one the checkpoint calls durable. -/
def IsArchived (s : ArchiveWorker β) (partition : String × ℕ) (offset : ℕ) : Prop :=
  offset < s.committed partition ∨
    ∃ durable, s.store.lastDurableOffset partition = some durable ∧ offset ≤ durable

/-! ## Where the objects lie -/

/-- A segment without a slash is one part, unless it is empty or a dot. -/
theorem pathParts_of_plain {segment : List Char} (hplain : '/' ∉ segment) (hempty : segment ≠ [])
    (hdot : segment ≠ ['.']) : pathParts segment = [segment] := by
  have hsplit : segment.splitOn '/' = [segment] := by
    refine List.splitOn_eq_singleton_of_beq_eq_false fun c hc => ?_
    exact beq_false_of_ne fun heq => hplain (heq ▸ hc)
  have hkept : (segment ≠ [] ∧ segment ≠ ['.']) := ⟨hempty, hdot⟩
  rw [pathParts, hsplit, List.filter_cons, if_pos (decide_eq_true hkept), List.filter_nil]

/-- A segment of more than one character without a slash is attached to the path. -/
theorem joinpath_of_plain {path : PurePath} {segment : String} (hplain : '/' ∉ segment.toList)
    (hlength : 2 ≤ segment.toList.length) : joinpath path segment = path ++ [segment.toList] := by
  have hempty : segment.toList ≠ [] := fun h => by
    rw [h] at hlength
    exact absurd hlength (by decide)
  have hdot : segment.toList ≠ ['.'] := fun h => by
    rw [h] at hlength
    exact absurd hlength (by decide)
  have hroot : segment.toList.head? ≠ some '/' := fun h => hplain (List.mem_of_head? h)
  rw [joinpath, if_neg hroot, pathParts_of_plain hplain hempty hdot]

/-- An event whose source and id are no paths of their own. -/
def RawEvent.PlainNames (event : RawEvent β) : Prop :=
  '/' ∉ event.source.toList ∧ '/' ∉ event.eventId.toList

/-- The source and the id of an event are found again in its path. -/
theorem destination_inj {root : PurePath} {a b : RawEvent β} (ha : a.PlainNames) (hb : b.PlainNames)
    (h : destination root a = destination root b) : a.source = b.source ∧ a.eventId = b.eventId := by
  have hsource : ∀ event : RawEvent β, event.PlainNames →
      '/' ∉ ("source=" ++ event.source).toList ∧ 2 ≤ ("source=" ++ event.source).toList.length := by
    intro event hplain
    rw [String.toList_append, List.mem_append, List.length_append]
    refine ⟨not_or.mpr ⟨by decide, hplain.1⟩, ?_⟩
    exact Nat.le_add_right_of_le (by decide)
  have hid : ∀ event : RawEvent β, event.PlainNames →
      '/' ∉ (event.eventId ++ ".parquet").toList ∧
        2 ≤ (event.eventId ++ ".parquet").toList.length := by
    intro event hplain
    rw [String.toList_append, List.mem_append, List.length_append]
    refine ⟨not_or.mpr ⟨hplain.2, by decide⟩, ?_⟩
    exact Nat.le_add_left_of_le (by decide)
  rw [destination, destination, joinpath_of_plain (hid a ha).1 (hid a ha).2,
    joinpath_of_plain (hid b hb).1 (hid b hb).2, joinpath_of_plain (hsource a ha).1 (hsource a ha).2,
    joinpath_of_plain (hsource b hb).1 (hsource b hb).2] at h
  obtain ⟨hfront, hlast⟩ := List.append_inj' h rfl
  obtain ⟨-, hmiddle⟩ := List.append_inj' hfront rfl
  have hsources := String.toList_injective (List.singleton_injective hmiddle)
  have hids := String.toList_injective (List.singleton_injective hlast)
  exact ⟨String.append_right_inj _ |>.mp hsources, String.append_left_inj _ |>.mp hids⟩

/-! ## What a record leaves -/

variable {root : PurePath} {log : ArchiveLog β} {s : ArchiveStore β} {path : PurePath}
  {record : RawRecord β} {history : List (RawRecord β)}

namespace ArchiveStore

theorem objects_put_self (s : ArchiveStore β) (path : PurePath) (object : Option (ParquetObject β)) :
    (s.put path object).objects path = object :=
  Function.update_self _ _ _

theorem objects_put_of_ne {path path' : PurePath} (h : path' ≠ path)
    (object : Option (ParquetObject β)) : (s.put path object).objects path' = s.objects path' :=
  Function.update_of_ne h _ _

theorem put_put (s : ArchiveStore β) (path : PurePath) (object object' : Option (ParquetObject β)) :
    (s.put path object).put path object' = s.put path object' := by
  rw [put, put, put, Function.update_idem]

/-- What a saved checkpoint calls durable is not above the offset, or was durable before. -/
theorem le_of_save {partition : String × ℕ} {offset durable below : ℕ}
    (h : (s.save partition offset).lastDurableOffset partition = some durable) (hle : below ≤ durable) :
    below ≤ offset ∨ ∃ last, s.lastDurableOffset partition = some last ∧ below ≤ last := by
  cases hlast : s.lastDurableOffset partition with
  | none =>
    simp only [save, hlast, Function.update_self, Option.some.injEq] at h
    exact Or.inl (le_of_le_of_eq hle h.symm)
  | some last =>
    simp only [save, hlast, Function.update_self, Option.some.injEq] at h
    rcases Nat.le_total last offset with hmax | hmax
    · exact Or.inl (le_of_le_of_eq hle (h.symm.trans (Nat.max_eq_right hmax)))
    · exact Or.inr ⟨last, rfl, le_of_le_of_eq hle (h.symm.trans (Nat.max_eq_left hmax))⟩

theorem lastDurableOffset_save_of_ne {partition partition' : String × ℕ} (h : partition' ≠ partition)
    (offset : ℕ) :
    (s.save partition offset).lastDurableOffset partition' = s.lastDurableOffset partition' :=
  Function.update_of_ne h _ _

/-- Removing a file that was not there changes nothing. -/
theorem put_none (h : s.objects path = none) : s.put path none = s := by
  rw [put, ← h, Function.update_eq_self]

end ArchiveStore

/-- A rule for the handler of the worker: what it leaves follows from what becomes of the store when the
object is found, when the file is created, and when it is written. -/
theorem leaves_writeSync {crash stop post : ArchiveStore β → Prop} {fails : Bool} (hs : crash s)
    (hfound : (s.objects (destination root record.event)).isSome = true →
      post (s.save record.partition record.offset))
    (hcreated : s.objects (destination root record.event) = none →
      let path := destination root record.event
      crash (s.put path (some .torn)) ∧ stop s ∧ crash (s.put path (some (.written record.event))) ∧
        post ((s.put path (some (.written record.event))).save record.partition record.offset)) :
    (writeSync root record fails).Leaves alone crash stop post s := by
  refine leaves_step_alone.mpr ⟨hs, ?_⟩
  by_cases hobject : (s.objects (destination root record.event)).isSome = true
  · rw [if_pos hobject, if_pos hobject]
    exact leaves_step_alone.mpr ⟨hs, hfound hobject⟩
  · have hnone := Option.not_isSome_iff_eq_none.mp hobject
    obtain ⟨htorn, hstop, hwritten, hpost⟩ := hcreated hnone
    rw [if_neg hobject, if_neg hobject]
    cases fails with
    | true =>
      refine leaves_step_alone.mpr ⟨htorn, ?_⟩
      rw [ArchiveStore.put_put, ArchiveStore.put_none hnone]
      exact hstop
    | false =>
      refine leaves_step_alone.mpr ⟨htorn, ?_⟩
      rw [ArchiveStore.put_put]
      exact leaves_step_alone.mpr ⟨hwritten, hpost⟩

/-! ## What lies below the offsets -/

/-- Every record handled has an object, so has every one that the checkpoint calls durable, and every row
is that of an event of the log, at its place. -/
structure Archived (root : PurePath) (log : ArchiveLog β) (history : List (RawRecord β))
    (s : ArchiveStore β) : Prop where
  present : ∀ record ∈ history, (s.objects (destination root record.event)).isSome = true
  durable : ∀ partition durable, s.lastDurableOffset partition = some durable → ∀ offset ≤ durable,
    ∀ event, log partition offset = some event →
      (s.objects (destination root event)).isSome = true
  sound : ∀ path event, s.objects path = some (.written event) →
    path = destination root event ∧ ∃ partition offset, log partition offset = some event

theorem Archived.put (h : Archived root log history s) {object : ParquetObject β}
    (hobject : ∀ event, object = .written event → path = destination root event ∧
      ∃ partition offset, log partition offset = some event) :
    Archived root log history (s.put path (some object)) := by
  have hkept : ∀ path', (s.objects path').isSome = true →
      ((s.put path (some object)).objects path').isSome = true := by
    intro path' hsome
    by_cases heq : path' = path
    · rw [heq, ArchiveStore.objects_put_self]
      rfl
    · rw [ArchiveStore.objects_put_of_ne heq]
      exact hsome
  refine ⟨fun record hrecord => hkept _ (h.present record hrecord), ?_, fun path' event hrow => ?_⟩
  · intro partition durable hdurable offset hle event hevent
    exact hkept _ (h.durable partition durable hdurable offset hle event hevent)
  · by_cases heq : path' = path
    · rw [heq, ArchiveStore.objects_put_self] at hrow
      rw [heq]
      exact hobject event (Option.some.inj hrow)
    · rw [ArchiveStore.objects_put_of_ne heq] at hrow
      exact h.sound path' event hrow

/-- Saving the checkpoint of a record whose object is there. -/
theorem Archived.save (h : Archived root log history s) {committed : String × ℕ → ℕ}
    (hschedule : Schedule log committed history)
    (hlogged : log record.partition record.offset = some record.event)
    (hnext : IsNext log committed record.partition record.offset)
    (hobject : (s.objects (destination root record.event)).isSome = true) :
    Archived root log (history ++ [record]) (s.save record.partition record.offset) := by
  have hbelow : ∀ offset ≤ record.offset, ∀ event, log record.partition offset = some event →
      (s.objects (destination root event)).isSome = true := by
    intro offset hle event hevent
    by_cases hlt : offset < committed record.partition
    · exact h.present ⟨record.partition, offset, event⟩
        (hschedule.complete record.partition offset event hevent hlt)
    · have hge : record.offset ≤ offset := by
        refine hnext.le_of_le (Nat.le_of_not_lt hlt) ?_
        rw [hevent]
        exact Option.some_ne_none _
      rw [Nat.le_antisymm hle hge, hlogged] at hevent
      rw [← Option.some.inj hevent]
      exact hobject
  refine ⟨fun other hother => ?_, ?_, h.sound⟩
  · rcases List.mem_append.mp hother with hold | hnew
    · exact h.present other hold
    · rw [List.mem_singleton.mp hnew]
      exact hobject
  · intro partition durable hdurable offset hle event hevent
    by_cases hpartition : partition = record.partition
    · subst hpartition
      rcases ArchiveStore.le_of_save hdurable hle with hbefore | ⟨last, hlast, hbefore⟩
      · exact hbelow offset hbefore event hevent
      · exact h.durable record.partition last hlast offset hbefore event hevent
    · rw [ArchiveStore.lastDurableOffset_save_of_ne hpartition] at hdurable
      exact h.durable partition durable hdurable offset hle event hevent

theorem rule_archived (root : PurePath) (log : ArchiveLog β) :
    Rule log (writeSync root) alone (fun _ => True) (Archived root log) (Archived root log) where
  interfere _ move := move.elim
  interfere_running _ move := move.elim
  recover _ _ hs _ := hs
  handle history record fails s committed hschedule hlogged hnext hs := by
    have hrow : ∀ event, ParquetObject.written record.event = .written event →
        destination root record.event = destination root event ∧
          ∃ partition offset, log partition offset = some event := by
      intro event heq
      rw [← ParquetObject.written.inj heq]
      exact ⟨rfl, record.partition, record.offset, hlogged⟩
    refine leaves_writeSync hs (fun hfound => hs.save hschedule hlogged hnext hfound) ?_
    intro hnone
    refine ⟨hs.put (fun event h => absurd h (by simp)), hs, hs.put hrow, ?_⟩
    refine (hs.put hrow).save hschedule hlogged hnext ?_
    rw [ArchiveStore.objects_put_self]
    rfl

/-! ## Objects never change -/

/-- An object that is there before a record is handled is there after it, whole or torn. -/
theorem rule_kept (root : PurePath) (log : ArchiveLog β) (path : PurePath) (object : ParquetObject β) :
    Rule log (writeSync root) alone (fun _ => True) (fun _ s => s.objects path = some object)
      fun _ s => s.objects path = some object where
  interfere _ move := move.elim
  interfere_running _ move := move.elim
  recover _ _ hs _ := hs
  handle history record fails s committed _ _ _ hs := by
    refine leaves_writeSync hs (fun _ => hs) fun hnone => ?_
    have hne : path ≠ destination root record.event := fun heq => by
      rw [heq, hnone] at hs
      exact absurd hs (by simp)
    have hkept : ∀ other, (s.put (destination root record.event) other).objects path = some object :=
      fun other => (ArchiveStore.objects_put_of_ne hne other).trans hs
    exact ⟨hkept _, hs, hkept _, hkept _⟩

theorem consumed_archiveWorker (root : PurePath) (log : ArchiveLog β) (moves : List ArchiveMove) :
    Consumed log alone (Archived root log) (Archived root log)
      (run (archiveStep root log) initialArchive moves) := by
  refine consumed_run (rule_archived root log) (consumed_initial ⟨?_, ?_, ?_⟩) moves
  · exact fun record hrecord => absurd hrecord List.not_mem_nil
  · exact fun partition durable hdurable => absurd hdurable (by simp)
  · exact fun path event hevent => absurd hevent (by simp)

/-- What lies below the offsets has an object. -/
theorem isSome_of_isArchived {s : ArchiveWorker β} (h : Consumed log alone (Archived root log)
      (Archived root log) s) {partition : String × ℕ} {offset : ℕ} {event : RawEvent β}
    (hevent : log partition offset = some event) (harchived : IsArchived s partition offset) :
    (s.store.objects (destination root event)).isSome = true := by
  rcases harchived with hcommitted | ⟨durable, hdurable, hle⟩
  · exact h.holds.present ⟨partition, offset, event⟩
      (h.schedule.complete partition offset event hevent hcommitted)
  · exact h.holds.durable partition durable hdurable offset hle event hevent

/-- No object is torn, unless the process stops in the middle of a write. -/
theorem rule_intact (root : PurePath) (log : ArchiveLog β) :
    Rule log (writeSync root) alone (fun s => ¬ s.HalfWritten) (fun _ s => ¬ s.HalfWritten)
      fun _ _ => True where
  interfere _ move := move.elim
  interfere_running _ move := move.elim
  recover _ _ _ hs := hs
  handle history record fails s committed _ _ _ hs := by
    refine leaves_writeSync trivial (fun _ => hs) fun _ => ⟨trivial, hs, trivial, ?_⟩
    rintro ⟨path, htorn⟩
    by_cases heq : path = destination root record.event
    · subst heq
      exact absurd ((ArchiveStore.objects_put_self _ _ _).symm.trans htorn) (by simp)
    · exact hs ⟨path, (ArchiveStore.objects_put_of_ne heq _).symm.trans htorn⟩

/-- The invariant of the rule. -/
def ConsumedIntact (log : ArchiveLog β) (s : ArchiveWorker β) : Prop :=
  Consumed log alone (fun _ s => ¬ s.HalfWritten) (fun _ _ => True) s

theorem consumedIntact_initialArchive (log : ArchiveLog β) : ConsumedIntact log initialArchive := by
  refine consumed_initial ?_
  rintro ⟨path, htorn⟩
  exact absurd htorn (by simp)

theorem ConsumedIntact.step {s : ArchiveWorker β} {move : ArchiveMove} (h : ConsumedIntact log s)
    (hmove : NotKilledWriting s move) : ConsumedIntact log (archiveStep root log s move) :=
  Consumed.step (rule_intact root log) h move fun _ _ _ hcrash => hmove hcrash

/-- **No object stays torn exactly if the process is never killed in the middle of a write.** -/
theorem intact_iff (root : PurePath) (log : ArchiveLog β) (moves : List ArchiveMove) :
    Always (archiveStep root log) Intact initialArchive moves ↔
      Throughout (archiveStep root log) NotKilledWriting initialArchive moves := by
  refine always_iff_throughout (I := ConsumedIntact log) (fun s move hs hmove => hs.step hmove)
    (fun s hs hrest => Consumed.holds_of_atRest hs hrest) (fun s move _ hkilled hintact => ?_)
    (consumedIntact_initialArchive log) moves
  obtain ⟨hcrash, htorn⟩ := Classical.not_imp.mp hkilled
  subst hcrash
  refine hintact (fun record program hstage => ?_) (Classical.not_not.mp htorn)
  exact absurd hstage (by simp [archiveStep, Consumer.step])

/-- **Every event below the offsets is archived as it is**, if no two events share an id, no source and no id
has a slash, and the process is never killed in the middle of a write. -/
theorem archived_as_is (root : PurePath) (log : ArchiveLog β) (moves : List ArchiveMove)
    (hplain : ∀ partition offset event, log partition offset = some event → event.PlainNames)
    (hid : ∀ partition offset event partition' offset' event', log partition offset = some event →
      log partition' offset' = some event' → event.eventId = event'.eventId → event = event')
    (hmoves : Throughout (archiveStep root log) NotKilledWriting initialArchive moves)
    (hrest : (run (archiveStep root log) initialArchive moves).AtRest) {partition : String × ℕ}
    {offset : ℕ} {event : RawEvent β} (hevent : log partition offset = some event)
    (harchived : IsArchived (run (archiveStep root log) initialArchive moves) partition offset) :
    (run (archiveStep root log) initialArchive moves).store.objects (destination root event) =
      some (.written event) := by
  have hconsumed := consumed_archiveWorker root log moves
  have hkept : ConsumedIntact log (run (archiveStep root log) initialArchive moves) :=
    run_invariant_of_throughout (I := ConsumedIntact log) (fun s move hs hmove => hs.step hmove)
      (consumedIntact_initialArchive log) hmoves
  have hintact := Consumed.holds_of_atRest hkept hrest
  obtain ⟨object, hobject⟩ := Option.isSome_iff_exists.mp
    (isSome_of_isArchived hconsumed hevent harchived)
  cases object with
  | torn => exact absurd ⟨destination root event, hobject⟩ hintact
  | written other =>
    obtain ⟨hpath, partition', offset', hother⟩ := hconsumed.holds.sound _ other hobject
    have hsame := (destination_inj (hplain _ _ _ hevent) (hplain _ _ _ hother) hpath).2
    rw [hobject, hid _ _ _ _ _ _ hevent hother hsame]

/-! ## A torn object is taken for the whole one -/

/-- One trade, in the first partition of its topic. -/
def oneTrade : RawEvent Unit where
  eventId := "trade-1"
  eventType := .marketTradeReceived
  source := "binance"
  eventTime := 0
  envelope := ()

def oneTradeLog (partition : String × ℕ) (offset : ℕ) : Option (RawEvent Unit) :=
  if partition = ("market.trades.v1", 0) ∧ offset = 0 then some oneTrade else none

/-- The process is killed in the middle of the write, and the next one goes on. -/
def killedWriting : List ArchiveMove :=
  [.fetch ("market.trades.v1", 0) 0 false, .perform, .crash, .fetch ("market.trades.v1", 0) 0 false,
    .perform, .perform, .commit]

/-- The trade is committed, and its object is torn for ever. -/
example : (run (archiveStep [] oneTradeLog) initialArchive killedWriting).committed
      ("market.trades.v1", 0) = 1 ∧
    (run (archiveStep [] oneTradeLog) initialArchive killedWriting).store.objects
      (destination [] oneTrade) = some .torn := by
  decide +kernel

end Workers
end Scam2Market
