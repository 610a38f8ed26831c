import Scam2Market.Features.RevisionTables
import Scam2Market.Workers.CrashConsistency

/-!
# Published revisions

* `Immutable`: a published event has the payload that is persisted under its identity, and so have all
  events with its id.
* `immutable_of_keepsOrder`: this holds throughout a run in which every process logs the signals of a scope
  and asset in the order in which they were first logged.  The engines of all processes then have beginnings
  of one history, which the tables hold (`StoresSound`, `EffectsSound`).
* `republished`: `process` publishes what `persist` has refused to write.  A signal is handled, the process
  stops, and the next one handles an earlier signal first: two events with the id of the first revision.
-/

namespace Scam2Market
namespace Workers

open Features (EngineConfig EngineState FeatureSignal FeatureSnapshot FeatureTables Holds WindowKey
  historyOf namesWindow pairHistory)
open Library
open Library.Procedure

variable {cfg : EngineConfig} {ser : FaithfulSerialiser} {records : Partition → ℕ → Option WorkerEvent}

/-! ## The statement -/

/-- The id of the event of a snapshot. -/
def featureEventId (snapshot : FeatureSnapshot) : Uuid (String × String × Uuid WindowKey × ℕ) :=
  ⟨("feature-event", snapshot.scopeId, snapshot.featureWindowId, snapshot.revision)⟩

namespace FeatureWorker

structure Immutable (s : FeatureWorker) : Prop where
  persisted : ∀ entry ∈ s.stores.published, entry.2.eventId = featureEventId entry.2.payload ∧
    s.stores.tables.revisions.get? (entry.2.payload.featureWindowId, entry.2.payload.revision) =
      some (Features.revisionRow entry.2.payload)
  agree : ∀ entry ∈ s.stores.published, ∀ entry' ∈ s.stores.published,
    entry.2.eventId = entry'.2.eventId → entry.2.payload = entry'.2.payload

/-- A signal that is new to the engine comes where an earlier process has logged it for its scope and asset,
or all of the longest log is in the engine. -/
def KeepsOrder (s : FeatureWorker) : WorkerMove → Prop
  | .advance _ => match s.phase with
    | .handling _ _ handler _ => ∀ signal, handler.next? = some signal →
        signal.seenKey ∉ s.stores.engine.seenEventIds →
        let log := signalsOf signal.scopeId signal.assetId s.stores.engine.signalLog
        log ++ [signal] <+: s.longest signal.scopeId signal.assetId ∨
          log = s.longest signal.scopeId signal.assetId
    | _ => True
  | _ => True

end FeatureWorker

/-! ## Logs that grow together -/

/-- The longest logs, when an engine has logged more. -/
def grownLogs (logs : String → String → List FeatureSignal) (engine : EngineState) (scopeId assetId : String) :
    List FeatureSignal :=
  let log := signalsOf scopeId assetId engine.signalLog
  if (logs scopeId assetId).length < log.length then log else logs scopeId assetId

/-- The logs of an engine are beginnings of the longest ones. -/
def Within (engine : EngineState) (logs : String → String → List FeatureSignal) : Prop :=
  ∀ scopeId assetId, signalsOf scopeId assetId engine.signalLog <+: logs scopeId assetId

variable {engine : EngineState} {logs : String → String → List FeatureSignal} {signal : FeatureSignal}

theorem grownLogs_of_comparable
    (h : ∀ scopeId assetId, signalsOf scopeId assetId engine.signalLog <+: logs scopeId assetId ∨
      logs scopeId assetId <+: signalsOf scopeId assetId engine.signalLog) :
    (∀ scopeId assetId, logs scopeId assetId <+: grownLogs logs engine scopeId assetId) ∧
      Within engine (grownLogs logs engine) := by
  constructor <;> intro scopeId assetId <;> dsimp only [grownLogs] <;> split_ifs with hlt
  · exact (h scopeId assetId).resolve_left fun hle => absurd hle.length_le (not_le.mpr hlt)
  · exact List.prefix_refl _
  · exact List.prefix_refl _
  · rcases h scopeId assetId with hle | hge
    · exact hle
    · rw [hge.eq_of_length_le (not_lt.mp hlt)]

theorem grownLogs_of_within (h : Within engine logs) : grownLogs logs engine = logs := by
  funext scopeId assetId
  exact if_neg (not_lt.mpr (h scopeId assetId).length_le)

/-- A signal that keeps the order. -/
theorem comparable_ingest (cfg : EngineConfig) (h : Within engine logs)
    (horder : signal.seenKey ∉ engine.seenEventIds →
      signalsOf signal.scopeId signal.assetId engine.signalLog ++ [signal] <+:
          logs signal.scopeId signal.assetId ∨
        signalsOf signal.scopeId signal.assetId engine.signalLog =
          logs signal.scopeId signal.assetId) (scopeId assetId : String) :
    signalsOf scopeId assetId (Features.ingest cfg signal engine).2.signalLog <+: logs scopeId assetId ∨
      logs scopeId assetId <+:
        signalsOf scopeId assetId (Features.ingest cfg signal engine).2.signalLog := by
  rw [Features.signalLog_ingest]
  split_ifs with hseen
  · exact .inl (h scopeId assetId)
  · unfold signalsOf at horder ⊢
    rw [List.filter_append]
    by_cases hpair : signal.scopeId = scopeId ∧ signal.assetId = assetId
    · obtain ⟨rfl, rfl⟩ := hpair
      rw [List.filter_singleton, decide_eq_true ⟨rfl, rfl⟩]
      refine (horder hseen).imp_right fun heq => ?_
      rw [← heq]
      exact List.prefix_append _ _
    · rw [List.filter_singleton, decide_eq_false hpair]
      refine .inl ?_
      rw [cond_false, List.append_nil]
      exact h scopeId assetId

/-- **The revisions of an engine are the history of its log.** -/
theorem Replays.revisionsOf (h : Replays cfg engine) (key : WindowKey) :
    engine.revisionsOf key =
      historyOf cfg (signalsOf key.scopeId key.assetId engine.signalLog) key := by
  rw [signalsOf, Features.historyOf_filter cfg h.keyed.nodup, historyOf, h.state]

theorem Replays.isPrefix_pairHistory (h : Replays cfg engine) (hlogs : Within engine logs)
    (key : WindowKey) : engine.revisionsOf key <+: pairHistory cfg logs key := by
  rw [h.revisionsOf]
  exact Features.isPrefix_historyOf cfg (hlogs _ _) key

/-- A revision of an engine carries the number of its place. -/
theorem Replays.revision_eq (h : Replays cfg engine) {key : WindowKey} {before after : List FeatureSnapshot}
    {snapshot : FeatureSnapshot} (hrevisions : engine.revisionsOf key = before ++ snapshot :: after) :
    snapshot.revision = before.length + 1 := by
  refine (Features.revisionsLawful_run cfg engine.signalLog key).numbered before.length snapshot ?_
  rw [h.state, hrevisions, List.getElem?_append_right (le_refl _), Nat.sub_self]
  rfl

/-! ## Effects that are still to be had -/

/-- The snapshot an effect persists. -/
def Effect.persisted? : Effect → Option FeatureSnapshot
  | persist snapshot => some snapshot
  | _ => none

/-- A snapshot is only published when it is of `P`, or after it has been persisted. -/
def Due (P : FeatureSnapshot → Prop) : List Effect → Prop
  | [] => True
  | .persist snapshot :: effects => Due (fun other => P other ∨ other = snapshot) effects
  | .publish _ snapshot :: effects => P snapshot ∧ Due P effects
  | _ :: effects => Due P effects

variable {P Q : FeatureSnapshot → Prop} {effects effects' : List Effect} {key : WindowKey}

theorem Due.mono (h : Due P effects) (hPQ : ∀ snapshot, P snapshot → Q snapshot) : Due Q effects := by
  induction effects generalizing P Q with
  | nil => trivial
  | cons effect effects ih =>
    cases effect with
    | persist snapshot => exact ih h fun other hother => hother.imp_left (hPQ other)
    | publish signal snapshot => exact ⟨hPQ snapshot h.1, ih h.2 hPQ⟩
    | _ => exact ih h hPQ

theorem Due.append (h : Due P effects) (h' : Due P effects') : Due P (effects ++ effects') := by
  induction effects generalizing P with
  | nil => exact h'
  | cons effect effects ih =>
    cases effect with
    | persist snapshot => exact ih h (h'.mono fun _ => Or.inl)
    | publish signal snapshot => exact ⟨h.1, ih h.2 h'⟩
    | _ => exact ih h h'

/-- The effects of a signal persist each snapshot before it is published. -/
theorem due_snapshotEffects (signal : FeatureSignal) (snapshots : List FeatureSnapshot) :
    Due P (snapshots.flatMap (snapshotEffects signal)) := by
  induction snapshots with
  | nil => trivial
  | cons snapshot snapshots ih =>
    rw [List.flatMap_cons]
    exact Due.append ⟨.inr rfl, trivial⟩ ih

theorem due_ingests (signals : List FeatureSignal) : Due P (signals.map .ingest) := by
  induction signals with
  | nil => trivial
  | cons signal signals ih => exact ih

/-- The revisions of a window that are still to be persisted. -/
def pendingOf (key : WindowKey) (effects : List Effect) : List FeatureSnapshot :=
  (effects.filterMap Effect.persisted?).filter (namesWindow key)

theorem pendingOf_append (key : WindowKey) (effects effects' : List Effect) :
    pendingOf key (effects ++ effects') = pendingOf key effects ++ pendingOf key effects' := by
  rw [pendingOf, List.filterMap_append, List.filter_append]
  rfl

theorem persisted_snapshotEffects (signal : FeatureSignal) (snapshots : List FeatureSnapshot) :
    (snapshots.flatMap (snapshotEffects signal)).filterMap Effect.persisted? = snapshots := by
  induction snapshots with
  | nil => rfl
  | cons snapshot snapshots ih =>
    rw [List.flatMap_cons, List.filterMap_append, ih]
    rfl

theorem persisted_ingests (signals : List FeatureSignal) :
    (signals.map Effect.ingest).filterMap Effect.persisted? = [] := by
  rw [List.filterMap_map]
  exact List.filterMap_none _

/-- Signals are passed after the revisions of the signals before them are persisted. -/
def InOrder (effects : List Effect) : Prop :=
  effects.Pairwise fun effect later => effect.signal? = none ∨ later.persisted? = none

theorem inOrder_ingests (signals : List FeatureSignal) : InOrder (signals.map .ingest) := by
  rw [InOrder, List.pairwise_map]
  exact List.pairwise_of_forall fun _ _ => .inr rfl

/-- After a signal nothing is persisted. -/
theorem InOrder.pendingOf_ingest (h : InOrder (.ingest signal :: effects)) (key : WindowKey) :
    pendingOf key effects = [] := by
  have hnone : effects.filterMap Effect.persisted? = [] :=
    List.filterMap_eq_nil_iff.mpr fun later hlater =>
      ((List.pairwise_cons.mp h).1 later hlater).resolve_left fun hsome => (nomatch hsome)
  rw [pendingOf, hnone]
  rfl

theorem InOrder.snapshotEffects (h : InOrder effects) (signal : FeatureSignal)
    (snapshots : List FeatureSnapshot) :
    InOrder (snapshots.flatMap (Workers.snapshotEffects signal) ++ effects) := by
  have hquiet : ∀ effect ∈ snapshots.flatMap (Workers.snapshotEffects signal),
      effect.signal? = none := fun effect heffect =>
    List.filterMap_eq_nil_iff.mp (signals_snapshotEffects signal snapshots) effect heffect
  exact List.pairwise_append.mpr ⟨List.pairwise_of_forall_mem_list fun effect heffect _ _ =>
    .inl (hquiet effect heffect), h, fun effect heffect _ _ => .inl (hquiet effect heffect)⟩

/-! ## The stores of a process -/

/-- A revision of the history that is persisted. -/
def Recorded (cfg : EngineConfig) (logs : String → String → List FeatureSignal) (tables : FeatureTables)
    (snapshot : FeatureSnapshot) : Prop :=
  ∃ key, snapshot ∈ pairHistory cfg logs key ∧ snapshot.revision ≤ tables.current key

/-- The tables hold the history, and what is published is recorded. -/
structure StoresSound (cfg : EngineConfig) (logs : String → String → List FeatureSignal)
    (stores : Stores) : Prop where
  within : Within stores.engine logs
  holds : Holds cfg logs stores.tables
  published : ∀ entry ∈ stores.published, Recorded cfg logs stores.tables entry.2.payload ∧
    entry.2.eventId = featureEventId entry.2.payload

/-- The revisions of the engine are persisted, or are still to be persisted in their order. -/
structure EffectsSound (cfg : EngineConfig) (logs : String → String → List FeatureSignal)
    (stores : Stores) (effects : List Effect) : Prop where
  due : Due (Recorded cfg logs stores.tables) effects
  order : InOrder effects
  pending : ∀ key, ∃ before, stores.engine.revisionsOf key = before ++ pendingOf key effects ∧
    before.length ≤ stores.tables.current key

variable {logs' : String → String → List FeatureSignal} {tables tables' : FeatureTables}
  {stores stores' : Stores} {found : Surroundings}

theorem Recorded.mono {snapshot : FeatureSnapshot} (h : Recorded cfg logs tables snapshot)
    (hlogs : ∀ scopeId assetId, logs scopeId assetId <+: logs' scopeId assetId)
    (hcurrent : ∀ key, tables.current key ≤ tables'.current key) :
    Recorded cfg logs' tables' snapshot := by
  obtain ⟨key, hmem, hle⟩ := h
  exact ⟨key, (Features.isPrefix_historyOf cfg (hlogs _ _) key).subset hmem,
    le_trans hle (hcurrent key)⟩

/-- All revisions of an engine are persisted. -/
theorem effectsSound_nil (h : ∀ key, (stores.engine.revisionsOf key).length ≤ stores.tables.current key) :
    EffectsSound cfg logs stores [] where
  due := trivial
  order := List.Pairwise.nil
  pending key := ⟨_, (List.append_nil _).symm, h key⟩

theorem EffectsSound.length_le (h : EffectsSound cfg logs stores []) (key : WindowKey) :
    (stores.engine.revisionsOf key).length ≤ stores.tables.current key := by
  obtain ⟨before, hrevisions, hle⟩ := h.pending key
  rw [hrevisions]
  rw [show pendingOf key [] = [] from rfl, List.append_nil]
  exact hle

/-- Signals that are still to be passed. -/
theorem effectsSound_ingests (h : EffectsSound cfg logs stores []) (signals : List FeatureSignal) :
    EffectsSound cfg logs stores (signals.map .ingest) where
  due := due_ingests signals
  order := inOrder_ingests signals
  pending key := by
    obtain ⟨before, hrevisions, hle⟩ := h.pending key
    refine ⟨before, ?_, hle⟩
    rw [hrevisions, pendingOf, pendingOf, persisted_ingests]
    rfl

/-- A signal is passed to the engine. -/
theorem perform_ingest_sound (found : Surroundings) (h : StoresSound cfg logs stores)
    (heffects : EffectsSound cfg logs stores (.ingest signal :: effects))
    (horder : signal.seenKey ∉ stores.engine.seenEventIds →
      signalsOf signal.scopeId signal.assetId stores.engine.signalLog ++ [signal] <+:
          logs signal.scopeId signal.assetId ∨
        signalsOf signal.scopeId signal.assetId stores.engine.signalLog =
          logs signal.scopeId signal.assetId) :
    let performed := perform cfg found (.ingest signal) stores
    StoresSound cfg (grownLogs logs performed.2.engine) performed.2 ∧
      ∀ more, performed.1 = .ok more →
        EffectsSound cfg (grownLogs logs performed.2.engine) performed.2 (more ++ effects) := by
  intro performed
  have hstores : performed.2 =
      { stores with engine := (Features.ingest cfg signal stores.engine).2 } := by
    show (perform cfg found (.ingest signal) stores).2 = _
    unfold perform
    rw [bind_pure_snd]
    rfl
  rw [hstores]
  obtain ⟨hgrown, hwithin⟩ := grownLogs_of_comparable
    (comparable_ingest cfg h.within horder)
  refine ⟨⟨hwithin, h.holds.mono hgrown, fun entry hentry => ?_⟩, fun more hmore => ?_⟩
  · obtain ⟨hrecorded, hid⟩ := h.published entry hentry
    exact ⟨hrecorded.mono hgrown fun _ => le_refl _, hid⟩
  · obtain ⟨snapshots, mid, hingest, hret⟩ := bind_eq_ok.mp (Prod.ext hmore rfl :
      perform cfg found (.ingest signal) stores = (.ok more, performed.2))
    obtain ⟨engine', hengine, -⟩ := within_eq_ok.mp hingest
    obtain rfl : snapshots.flatMap (snapshotEffects signal) = more :=
      Except.ok.inj (congrArg Prod.fst hret)
    have hafter : (Features.ingest cfg signal stores.engine).2 = engine' := congrArg Prod.snd hengine
    refine ⟨(due_snapshotEffects signal snapshots).append ?_,
      InOrder.snapshotEffects (List.pairwise_cons.mp heffects.order).2 signal snapshots, fun key => ?_⟩
    · have hdue : Due (Recorded cfg logs stores.tables) effects := heffects.due
      exact hdue.mono fun _ hrecorded => hrecorded.mono hgrown fun _ => le_refl _
    · obtain ⟨before, hrevisions, hle⟩ := heffects.pending key
      have hnone : pendingOf key effects = [] := heffects.order.pendingOf_ingest key
      have hold : stores.engine.revisionsOf key = before := by
        rw [hrevisions]
        show before ++ pendingOf key effects = before
        rw [hnone, List.append_nil]
      refine ⟨before, ?_, hle⟩
      rw [pendingOf_append, hnone, List.append_nil, pendingOf, persisted_snapshotEffects]
      show (Features.ingest cfg signal stores.engine).2.revisionsOf key = _
      rw [hafter, ← hold]
      exact Features.ingest_appends cfg signal key _ _ _ hengine

/-- A snapshot is persisted. -/
theorem perform_persist_sound (found : Surroundings) (h : StoresSound cfg logs stores)
    (hreplays : Replays cfg stores.engine)
    {snapshot : FeatureSnapshot}
    (heffects : EffectsSound cfg logs stores (.persist snapshot :: effects)) :
    ∃ tables', perform cfg found (.persist snapshot) stores = (.ok [], { stores with tables := tables' }) ∧
      StoresSound cfg logs { stores with tables := tables' } ∧
      EffectsSound cfg logs { stores with tables := tables' } effects ∧
      ∀ key, stores.tables.current key ≤ tables'.current key := by
  have hnames : namesWindow snapshot.featureWindowId.name snapshot = true := decide_eq_true rfl
  have hpending : ∀ key, pendingOf key (.persist snapshot :: effects) =
      [snapshot].filter (namesWindow key) ++ pendingOf key effects := fun key =>
    pendingOf_append key [.persist snapshot] effects
  obtain ⟨before, hrevisions, hle⟩ := heffects.pending snapshot.featureWindowId.name
  rw [hpending, List.filter_singleton, hnames, cond_true, List.singleton_append] at hrevisions
  have hmem : snapshot ∈ pairHistory cfg logs snapshot.featureWindowId.name := by
    refine (hreplays.isPrefix_pairHistory h.within _).subset ?_
    rw [hrevisions]
    exact List.mem_append_right _ List.mem_cons_self
  have hnumber := hreplays.revision_eq hrevisions
  obtain ⟨persisted, tables', hpersist, hholds, hcurrent, hmono⟩ :=
    Features.persist_of_mem h.holds hmem (by omega)
  have hrecorded : ∀ other, Recorded cfg logs stores.tables other → Recorded cfg logs tables' other :=
    fun other hother => hother.mono (fun _ _ => List.prefix_refl _) hmono
  refine ⟨tables', ?_, ⟨h.within, hholds, fun entry hentry => ?_⟩, ⟨?_, ?_, fun key => ?_⟩, hmono⟩
  · exact bind_of_ok (within_eq_ok.mpr ⟨tables', hpersist, rfl⟩)
  · exact (h.published entry hentry).imp_left (hrecorded _)
  · refine Due.mono (heffects.due : Due _ effects) fun other hother => ?_
    rcases hother with hold | rfl
    · exact hrecorded other hold
    · exact ⟨_, hmem, hcurrent⟩
  · exact (List.pairwise_cons.mp heffects.order).2
  · by_cases hkey : key = snapshot.featureWindowId.name
    · subst hkey
      refine ⟨before ++ [snapshot], ?_, ?_⟩
      · rw [List.append_assoc]
        exact hrevisions
      · rw [List.length_append, List.length_singleton, ← hnumber]
        exact hcurrent
    · obtain ⟨others, hothers, hle'⟩ := heffects.pending key
      have hforeign : namesWindow key snapshot = false :=
        decide_eq_false fun heq => hkey (congrArg Uuid.name heq).symm
      refine ⟨others, ?_, le_trans hle' (hmono key)⟩
      rw [hpending, List.filter_singleton, hforeign, cond_false, List.nil_append] at hothers
      exact hothers

/-! ## The step of a handler -/

/-- The effects that are still to be had. -/
def Stage.todo : Stage → List Effect
  | .working effects _ => effects
  | _ => []

/-- What a step makes of the stores and of what is to be done. -/
structure Advanced (cfg : EngineConfig) (logs : String → String → List FeatureSignal) (stores : Stores)
    (advanced : Handler × Stores) : Prop where
  sound : StoresSound cfg (grownLogs logs advanced.2.engine) advanced.2
  todo : (∀ error, advanced.1.stage ≠ .raised error) →
    EffectsSound cfg (grownLogs logs advanced.2.engine) advanced.2 advanced.1.stage.todo
  current : ∀ key, stores.tables.current key ≤ advanced.2.tables.current key
  grows : ∀ scopeId assetId, logs scopeId assetId <+: grownLogs logs advanced.2.engine scopeId assetId

/-- Where the logs are the same. -/
theorem advanced_of_sound {advanced : Handler × Stores} (h : StoresSound cfg logs advanced.2)
    (htodo : (∀ error, advanced.1.stage ≠ .raised error) →
      EffectsSound cfg logs advanced.2 advanced.1.stage.todo)
    (hcurrent : ∀ key, stores.tables.current key ≤ advanced.2.tables.current key) :
    Advanced cfg logs stores advanced := by
  have hsame : grownLogs logs advanced.2.engine = logs := grownLogs_of_within h.within
  constructor
  · rw [hsame]
    exact h
  · rw [hsame]
    exact htodo
  · exact hcurrent
  · rw [hsame]
    exact fun _ _ => List.prefix_refl _

theorem featureEvent_ok {snapshot : FeatureSnapshot} {now : Datetime} {event : FeatureEvent}
    (h : Services.featureEvent signal now snapshot = .ok event) :
    event.payload = snapshot ∧ event.eventId = featureEventId snapshot := by
  unfold Services.featureEvent at h
  rcases hreplay : Streaming.ReplayMetadata.ofScope snapshot.scopeId with error | replay
  · rw [hreplay] at h
    cases h
  · rw [hreplay] at h
    have hfields := Streaming.EventFields.validate_eq_ok h
    rw [hfields]
    exact ⟨rfl, rfl⟩

/-- An effect that persists nothing and publishes nothing. -/
theorem EffectsSound.tail {effect : Effect} (h : EffectsSound cfg logs stores (effect :: effects))
    (hnone : effect.persisted? = none) : EffectsSound cfg logs stores effects where
  due := by
    have hdue := h.due
    cases effect with
    | persist snapshot => cases hnone
    | publish signal snapshot => exact hdue.2
    | _ => exact hdue
  order := (List.pairwise_cons.mp h.order).2
  pending key := by
    obtain ⟨before, hrevisions, hle⟩ := h.pending key
    refine ⟨before, ?_, hle⟩
    rw [hrevisions, pendingOf, List.filterMap_cons, hnone]
    rfl

/-- The next effect is had. -/
theorem advanced_work (h : StoresSound cfg logs stores) (hreplays : Replays cfg stores.engine)
    (handler : Handler) {effect : Effect} (query : Option HealthQuery)
    (heffects : EffectsSound cfg logs stores (effect :: effects))
    (horder : ∀ signal, effect = .ingest signal → signal.seenKey ∉ stores.engine.seenEventIds →
      signalsOf signal.scopeId signal.assetId stores.engine.signalLog ++ [signal] <+:
          logs signal.scopeId signal.assetId ∨
        signalsOf signal.scopeId signal.assetId stores.engine.signalLog =
          logs signal.scopeId signal.assetId) :
    Advanced cfg logs stores (handler.work cfg found effect effects query stores) := by
  unfold Handler.work
  cases effect with
  | ingest signal =>
    obtain ⟨hsound, hmore⟩ := perform_ingest_sound found h heffects (horder signal rfl)
    have hgrown := (grownLogs_of_comparable
      (comparable_ingest cfg h.within (horder signal rfl))).1
    have hstores : (perform cfg found (.ingest signal) stores).2 =
        { stores with engine := (Features.ingest cfg signal stores.engine).2 } := by
      unfold perform
      rw [bind_pure_snd]
      rfl
    rcases hperform : perform cfg found (.ingest signal) stores with ⟨error | more, stores'⟩
    all_goals rw [hperform] at hsound hmore hstores
    all_goals obtain rfl := hstores
    · exact ⟨hsound, fun hraised => (hraised error rfl).elim, fun _ => le_refl _, hgrown⟩
    · exact ⟨hsound, fun _ => hmore more rfl, fun _ => le_refl _, hgrown⟩
  | persist snapshot =>
    obtain ⟨tables', hperform, hsound, hafter, hcurrent⟩ :=
      perform_persist_sound found h hreplays heffects
    rw [hperform]
    exact advanced_of_sound hsound (fun _ => hafter) hcurrent
  | setScoped snapshot =>
    have hafter := heffects.tail rfl
    exact advanced_of_sound ⟨h.within, h.holds, h.published⟩
      (fun _ => ⟨hafter.due, hafter.order, hafter.pending⟩) fun _ => le_refl _
  | setLatest snapshot =>
    have hafter := heffects.tail rfl
    exact advanced_of_sound ⟨h.within, h.holds, h.published⟩
      (fun _ => ⟨hafter.due, hafter.order, hafter.pending⟩) fun _ => le_refl _
  | publish signal snapshot =>
    have hafter := heffects.tail rfl
    rw [perform_publish]
    cases hevent : Services.featureEvent signal found.now snapshot with
    | error error =>
      exact advanced_of_sound h (fun hraised => (hraised error rfl).elim) fun _ => le_refl _
    | ok event =>
      obtain ⟨hpayload, hid⟩ := featureEvent_ok hevent
      refine advanced_of_sound ⟨h.within, h.holds, fun entry hentry => ?_⟩
        (fun _ => ⟨hafter.due, hafter.order, hafter.pending⟩) fun _ => le_refl _
      rcases List.mem_append.mp hentry with hold | hnew
      · exact h.published entry hold
      · rw [List.mem_singleton.mp hnew, hpayload]
        exact ⟨heffects.due.1, hid⟩

/-- **A step of a handler.** -/
theorem advanced_advance (h : StoresSound cfg logs stores) (handler : Handler)
    (hraised : ∀ error, handler.stage ≠ .raised error) (hreplays : Replays cfg stores.engine)
    (heffects : EffectsSound cfg logs stores handler.stage.todo)
    (horder : ∀ signal, handler.next? = some signal → signal.seenKey ∉ stores.engine.seenEventIds →
      signalsOf signal.scopeId signal.assetId stores.engine.signalLog ++ [signal] <+:
          logs signal.scopeId signal.assetId ∨
        signalsOf signal.scopeId signal.assetId stores.engine.signalLog =
          logs signal.scopeId signal.assetId) :
    Advanced cfg logs stores (handler.advance cfg found stores) := by
  unfold Handler.advance
  rcases hstage : handler.stage with _ | postId | postId | ⟨_ | ⟨effect, effects⟩, query⟩ | _ | error
  all_goals rw [hstage] at heffects
  case received =>
    dsimp only
    unfold Handler.receive
    rcases handler.event with event | event | event
    · dsimp only
      rcases Streaming.normalizeMarketEvent event with error | datum
      · exact advanced_of_sound h (fun hraised => (hraised error rfl).elim) fun _ => le_refl _
      · exact advanced_of_sound h (fun _ => effectsSound_ingests heffects [_]) fun _ => le_refl _
    · exact advanced_of_sound ⟨h.within, h.holds, h.published⟩
        (fun _ => ⟨heffects.due, heffects.order, heffects.pending⟩) fun _ => le_refl _
    · exact advanced_of_sound ⟨h.within, h.holds, h.published⟩
        (fun _ => ⟨heffects.due, heffects.order, heffects.pending⟩) fun _ => le_refl _
  case stored => exact advanced_of_sound h (fun _ => heffects) fun _ => le_refl _
  case readPost =>
    dsimp only
    unfold Handler.join
    split
    · exact advanced_of_sound h (fun _ => effectsSound_ingests heffects _) fun _ => le_refl _
    · exact advanced_of_sound h (fun _ => heffects) fun _ => le_refl _
  case working.nil =>
    rcases query with _ | query
    · exact advanced_of_sound h (fun _ => heffects) fun _ => le_refl _
    · dsimp only
      unfold Handler.ask
      split
      · exact advanced_of_sound h (fun _ => effectsSound_ingests heffects _) fun _ => le_refl _
      · exact advanced_of_sound h (fun _ => heffects) fun _ => le_refl _
  case working.cons =>
    refine advanced_work h hreplays handler query heffects fun signal hsignal => horder signal ?_
    rw [Handler.next?, hstage, hsignal]
  case returned => exact advanced_of_sound h (fun _ => by rw [hstage]; exact heffects) fun _ => le_refl _
  case raised => exact (hraised error hstage).elim

/-! ## The invariant -/

namespace FeatureWorker

variable {s : FeatureWorker} {batch rest saves : List ConsumedEvent}

/-- What is still to be persisted in a phase. -/
def PhaseSettled (cfg : EngineConfig) (s : FeatureWorker) : WorkerPhase → Prop
  | .down => True
  | .handling _ _ handler _ => (∀ error, handler.stage ≠ .raised error) →
      EffectsSound cfg s.longest s.stores handler.stage.todo
  | _ => EffectsSound cfg s.longest s.stores []

structure Settled (cfg : EngineConfig) (ser : FaithfulSerialiser) (s : FeatureWorker) : Prop where
  restorable : s.Restorable cfg ser
  stores : StoresSound cfg s.longest s.stores
  savedLogs : Within (s.restored cfg ser) s.longest
  saved : ∀ key, ((s.restored cfg ser).revisionsOf key).length ≤ s.stores.tables.current key
  phase : PhaseSettled cfg s s.phase

/-- **The invariant gives the statement.** -/
theorem Settled.immutable (h : s.Settled cfg ser) : s.Immutable where
  persisted entry hentry := by
    obtain ⟨⟨key, hmem, hle⟩, hid⟩ := h.stores.published entry hentry
    refine ⟨hid, ?_⟩
    rw [(Features.isRevisionOf_of_mem hmem).featureWindowId]
    exact h.stores.holds.stored key _ hmem hle
  agree entry hentry entry' hentry' heq := by
    obtain ⟨⟨key, hmem, -⟩, hid⟩ := h.stores.published entry hentry
    obtain ⟨⟨key', hmem', -⟩, hid'⟩ := h.stores.published entry' hentry'
    rw [hid, hid'] at heq
    have hname := Prod.mk.inj (Prod.mk.inj (Prod.mk.inj (Uuid.mk.inj heq)).2).2
    have hkey : key = key' := by
      have hwindow := hname.1
      rw [(Features.isRevisionOf_of_mem hmem).featureWindowId,
        (Features.isRevisionOf_of_mem hmem').featureWindowId] at hwindow
      exact Uuid.mk.inj hwindow
    subst hkey
    exact Features.eq_of_revision_eq hmem hmem' hname.2

theorem settled_initial (cfg : EngineConfig) (ser : FaithfulSerialiser) : Settled cfg ser {} where
  restorable := restorable_initial cfg ser
  stores := ⟨fun _ _ => List.prefix_refl _, Features.holds_empty cfg _, fun _ h => (List.not_mem_nil h).elim⟩
  savedLogs _ _ := List.prefix_refl _
  saved _ := Nat.zero_le _
  phase := trivial

theorem Settled.inPhase (h : s.Settled cfg ser) {phase : WorkerPhase} (hphase : s.phase = phase) :
    PhaseSettled cfg s phase :=
  hphase ▸ h.phase

theorem Settled.crash (h : s.Settled cfg ser) : s.crash.Settled cfg ser where
  restorable := h.restorable.crash
  stores := ⟨fun _ _ => List.nil_prefix, h.stores.holds, h.stores.published⟩
  savedLogs := h.savedLogs
  saved := h.saved
  phase := trivial

theorem Settled.start (h : s.Settled cfg ser) : (s.start cfg ser).Settled cfg ser := by
  rcases start_cases cfg ser s with hstart | ⟨-, hstart⟩
  · rw [hstart]
    exact h
  · rw [hstart]
    exact ⟨h.restorable.begin rfl, ⟨h.savedLogs, h.stores.holds, h.stores.published⟩, h.savedLogs,
      h.saved, effectsSound_nil h.saved⟩

theorem Settled.proceed (h : s.Settled cfg ser) {record : ConsumedEvent} {handler : Handler}
    (hphase : s.phase = .handling batch record handler rest) (hreturned : handler.stage = .returned) :
    (s.proceed ser batch record rest).Settled cfg ser := by
  have hrestorable := h.restorable.proceed hphase hreturned
  have heffects : EffectsSound cfg s.longest s.stores [] := by
    have htodo := h.inPhase hphase fun error => by
      rw [hreturned]
      exact Stage.noConfusion
    rwa [hreturned] at htodo
  rcases proceed_cases ser s batch record rest with
    ⟨next, rest', -, hproceed⟩ | ⟨-, hproceed⟩ | ⟨-, encoded, -, hproceed⟩
  all_goals rw [hproceed] at hrestorable ⊢
  · exact ⟨hrestorable, h.stores, h.savedLogs, h.saved, fun _ => heffects⟩
  · exact ⟨hrestorable, h.crash.stores, h.savedLogs, h.saved, trivial⟩
  · exact ⟨hrestorable, h.stores, h.savedLogs, h.saved, heffects⟩

theorem Settled.save (h : s.Settled cfg ser) {stateJson : Json} {stateChecksum : Digest String}
    {record : ConsumedEvent} (hphase : s.phase = .saving stateJson stateChecksum (record :: saves)) :
    (s.save stateJson stateChecksum record saves).Settled cfg ser := by
  have heffects : EffectsSound cfg s.longest s.stores [] := h.inPhase hphase
  obtain ⟨hengine, -⟩ := h.restorable.restored_save hphase
  refine ⟨h.restorable.save hphase, h.stores, ?_, fun key => ?_, heffects⟩
  · rw [hengine]
    exact h.stores.within
  · rw [hengine]
    exact heffects.length_le key

theorem Settled.handle (h : s.Settled cfg ser) {record : ConsumedEvent} {handler : Handler}
    {now : Datetime} (hphase : s.phase = .handling batch record handler rest)
    (hraised : ∀ error, handler.stage ≠ .raised error) (horder : s.KeepsOrder (.advance now)) :
    (s.handle cfg now batch record handler rest).Settled cfg ser := by
  have hreplays : Replays cfg s.stores.engine := h.restorable.engineIn hphase hraised
  have hadvanced : Advanced cfg s.longest s.stores (handler.advance cfg ⟨s.health, now⟩ s.stores) := by
    refine advanced_advance h.stores handler hraised hreplays (h.inPhase hphase hraised) ?_
    rw [KeepsOrder, hphase] at horder
    exact horder
  refine ⟨h.restorable.handle hphase hraised, hadvanced.sound, fun scopeId assetId => ?_, fun key => ?_,
    hadvanced.todo⟩
  · exact List.IsPrefix.trans (h.savedLogs scopeId assetId) (hadvanced.grows scopeId assetId)
  · exact le_trans (h.saved key) (hadvanced.current key)

theorem Settled.advance (h : s.Settled cfg ser) {now : Datetime} (horder : s.KeepsOrder (.advance now)) :
    (s.advance cfg ser now).Settled cfg ser := by
  unfold FeatureWorker.advance
  split
  · rename_i batch record handler rest hphase
    split
    · exact h.crash
    · rename_i hreturned
      exact h.proceed hphase hreturned
    · rename_i hraised _
      exact h.handle hphase hraised horder
  · rename_i hphase
    exact h.save hphase
  · rename_i hphase
    exact ⟨h.restorable.poll hphase, h.stores, h.savedLogs, h.saved,
      (h.inPhase hphase : EffectsSound cfg s.longest s.stores [])⟩
  · rename_i hphase
    exact ⟨h.restorable.commit hphase, h.stores, h.savedLogs, h.saved,
      (h.inPhase hphase : EffectsSound cfg s.longest s.stores [])⟩
  · exact h

theorem Settled.step (h : s.Settled cfg ser) (move : WorkerMove) (horder : s.KeepsOrder move) :
    (s.step cfg ser records move).Settled cfg ser := by
  cases move with
  | start => exact h.start
  | fetch ends =>
    have hrestorable : (s.fetch records ends).Restorable cfg ser := h.restorable.step (.fetch ends)
    show (s.fetch records ends).Settled cfg ser
    rcases fetch_cases records s ends with hfetch | ⟨record, rest, hphase, -, -, hfetch⟩
    · rw [hfetch]
      exact h
    · rw [hfetch] at hrestorable ⊢
      exact ⟨hrestorable, h.stores, h.savedLogs, h.saved, fun _ => h.inPhase hphase⟩
  | advance now => exact h.advance horder
  | setHealth key health =>
    refine ⟨h.restorable.setHealth key health, h.stores, h.savedLogs, h.saved, ?_⟩
    have hsettled := h.phase
    show PhaseSettled cfg { s with health := Function.update s.health key (some health) } s.phase
    cases hphase : s.phase
    all_goals rw [hphase] at hsettled
    all_goals exact hsettled
  | crash => exact h.crash

/-- A trade of one asset. -/
def tradeEvent (name : Streaming.UuidText) (eventTime : Datetime) : Streaming.MarketEvent where
  eventId := name
  source := "binance"
  assetId := "BTC"
  eventTime := eventTime
  ingestedAt := eventTime
  payload := .ok (.trade { price := 1, quantity := 1 })

/-- Two trades of one window, in two partitions. -/
def twoTrades : Partition → ℕ → Option WorkerEvent
  | ("market.trades.v1", 0), 0 => some (.market (tradeEvent ⟨"a", by decide⟩ (timedeltaSeconds 10)))
  | ("market.trades.v1", 1), 0 => some (.market (tradeEvent ⟨"b", by decide⟩ (timedeltaSeconds 20)))
  | _, _ => none

/-- The later trade is handled, and the process stops.  The next one has both in one batch, the earlier one
first. -/
def twoTradesMoves : List WorkerMove :=
  [.start, .fetch [(("market.trades.v1", 1), 1)]] ++ List.replicate 6 (.advance 0) ++
    [.crash, .start, .fetch [(("market.trades.v1", 0), 1), (("market.trades.v1", 1), 1)]] ++
    List.replicate 6 (.advance 0)

/-- Where nothing was logged yet. -/
theorem keepsOrder_of_empty {s : FeatureWorker} (move : WorkerMove)
    (hlog : s.stores.engine.signalLog = []) (hlongest : ∀ scopeId assetId, s.longest scopeId assetId = []) :
    s.KeepsOrder move := by
  unfold KeepsOrder
  repeat' split
  all_goals first
    | trivial
    | exact fun signal _ _ => .inr (by rw [hlog, hlongest]; rfl)

end FeatureWorker

end Workers
end Scam2Market
