import Scam2Market.Library.Runs
import Scam2Market.Workers.FeatureWorker

/-!
# What a restarted worker begins with

The engine of a process is rebuilt by a run of its log alone (`Replays`), unless a call has raised; a state
that is exported is restored as it was (`Replays.restoreState`).  A save either makes a row that is the latest
of the worker, or finds the state it would write (`save_cases`).

* `Restorable`: the next process begins with an engine that its log rebuilds, and the log of the process that
  runs goes on from it; between the save and the commit of a record the next process begins with the engine of
  this one.
* `start_cases`, `fetch_cases` and `proceed_cases`: what a step of the loop can do.
* `restorable_run`: this holds throughout every run.
-/

namespace Scam2Market
namespace Workers

open Features (EngineConfig EngineState FeatureSignal)
open Library
open Library.Procedure

variable {cfg : EngineConfig} {ser : FaithfulSerialiser} {records : Partition → ℕ → Option WorkerEvent}

/-- The ids of the signals of a log. -/
def keysOf (signals : List FeatureSignal) : List (String × String) :=
  signals.map FeatureSignal.seenKey

/-! ## Engines that their logs rebuild -/

/-- A run of its log alone rebuilds the engine. -/
structure Replays (cfg : EngineConfig) (engine : EngineState) : Prop where
  ok : AllOk (runAll (Features.ingest cfg) engine.signalLog .initial).1
  state : (runAll (Features.ingest cfg) engine.signalLog .initial).2 = engine

theorem replays_initial : Replays cfg .initial where
  ok := fun _ h => (List.not_mem_nil h).elim
  state := rfl

theorem Replays.keyed {engine : EngineState} (h : Replays cfg engine) : Features.Keyed engine := by
  rw [← h.state]
  exact runAll_invariant Features.keyed_initial fun signal _ _ hst => hst.ingest signal

theorem Replays.ingest {engine : EngineState} (h : Replays cfg engine) {signal : FeatureSignal}
    {snapshots : List Features.FeatureSnapshot} {engine' : EngineState}
    (hok : Features.ingest cfg signal engine = (.ok snapshots, engine')) : Replays cfg engine' := by
  by_cases hseen : signal.seenKey ∈ engine.seenEventIds
  · rw [Features.ingest_of_seen hseen] at hok
    obtain ⟨-, rfl⟩ := Prod.mk.inj hok
    exact h
  · have hlog : engine'.signalLog = engine.signalLog ++ [signal] := by
      have hafter : (Features.ingest cfg signal engine).2 = engine' := congrArg Prod.snd hok
      rw [← hafter, Features.signalLog_ingest, if_neg hseen]
    constructor
    · rw [hlog, allOk_concat, h.state, hok]
      exact ⟨h.ok, snapshots, rfl⟩
    · rw [hlog, runAll_concat, h.state, hok]

/-- Engines with one log are one engine. -/
theorem Replays.ext {engine engine' : EngineState} (h : Replays cfg engine) (h' : Replays cfg engine')
    (hlog : engine.signalLog = engine'.signalLog) : engine = engine' := by
  rw [← h.state, ← h'.state, hlog]

/-- **What is exported is restored.** -/
theorem Replays.restoreState {engine : EngineState} (h : Replays cfg engine)
    (ser : FaithfulSerialiser) :
    Features.restoreState cfg ser.toSerialiser (Features.exportState ser.toSerialiser engine) .initial =
      (.ok engine.signalLog.length, engine) := by
  rw [Features.restoreState_exportState (fun _ _ => ⟨ser.keepsInstant _, ser.keepsInstant _⟩) h.ok, h.state]

theorem Replays.exportState_inj {engine engine' : EngineState} (h : Replays cfg engine)
    (h' : Replays cfg engine')
    (heq : Features.exportState ser.toSerialiser engine = Features.exportState ser.toSerialiser engine') :
    engine = engine' := by
  have hrestore := h.restoreState ser
  rw [heq, h'.restoreState ser] at hrestore
  exact (Prod.mk.inj hrestore).2.symm

/-! ## The rows of the checkpoints -/

/-- A row of an earlier state: it has the state of an engine whose log the last checkpoint goes on. -/
structure RowSound (cfg : EngineConfig) (ser : FaithfulSerialiser) (now : ℕ) (log : List FeatureSignal)
    (row : WorkerCheckpointModel) : Prop where
  updatedAt : row.updatedAt < now
  encoded : ser.dumps row.stateJson = .ok row.stateChecksum.material
  exported : ∃ engine, Replays cfg engine ∧
    row.stateJson = Features.exportState ser.toSerialiser engine ∧ engine.signalLog <+: log

/-- The row that `save` writes. -/
def savedRow (now : ℕ) (record : ConsumedEvent) (stateJson : Json) (stateChecksum : Digest String)
    (lastDurableOffset : ℕ) : WorkerCheckpointModel where
  lastDurableOffset := lastDurableOffset
  featureStateVersion := "feature-engine-state-v1"
  stateJson := stateJson
  stateChecksum := stateChecksum
  eventTime := record.event.eventTime
  updatedAt := now

variable {rows : Checkpoints} {now : ℕ} {record : ConsumedEvent} {stateJson : Json}
  {stateChecksum : Digest String}

/-- A save writes a row, or there is one with the state. -/
theorem save_cases (rows : Checkpoints) (now : ℕ) (record : ConsumedEvent) (stateJson : Json)
    (stateChecksum : Digest String) :
    (∃ offset, rows.save now record stateJson stateChecksum =
        rows.set record.partition (savedRow now record stateJson stateChecksum offset)) ∨
      rows.save now record stateJson stateChecksum = rows ∧
        ∃ row, rows.get? record.partition = some row ∧ row.stateChecksum = stateChecksum := by
  unfold Checkpoints.save
  cases hrow : rows.get? record.partition with
  | none => exact .inl ⟨record.offset, rfl⟩
  | some row =>
    dsimp only
    split_ifs with hsame
    · exact .inr ⟨rfl, row, rfl, hsame.2.1⟩
    · exact .inl ⟨max row.lastDurableOffset record.offset, rfl⟩

/-- A row that is written is the latest. -/
theorem latest_set (hrows : ∀ partition row, rows.get? partition = some row → row.updatedAt < now)
    (partition : Partition) {row : WorkerCheckpointModel} (hrow : row.updatedAt = now) :
    Checkpoints.latest (rows.set partition row) = some row := by
  have hold : ∀ other ∈ (rows.set partition row).entries.map Prod.snd,
      other = row ∨ other.updatedAt < now := by
    intro other hother
    obtain ⟨key, hkey⟩ := OrderedDict.mem_values_iff.mp hother
    rw [OrderedDict.get?_set] at hkey
    split_ifs at hkey
    · exact .inl (Option.some.inj hkey).symm
    · exact .inr (hrows key other hkey)
  refine argmax_eq_some_of_unique (OrderedDict.mem_values_iff.mpr
    ⟨partition, OrderedDict.get?_set_self _ _ _⟩) (fun other hother => ?_) fun other hother heq => ?_
  · rcases hold other hother with rfl | hlt <;> omega
  · rcases hold other hother with rfl | hlt
    · rfl
    · omega

/-! ## What a handler does to the engine -/

variable {found : Surroundings} {handler : Handler} {stores : Stores}

/-- Only the signal that is next changes the engine. -/
theorem engine_advance (handler : Handler) (stores : Stores) :
    (handler.advance cfg found stores).2.engine =
      match handler.next? with
      | some signal => (Features.ingest cfg signal stores.engine).2
      | none => stores.engine := by
  unfold Handler.advance Handler.next?
  rcases handler.stage with _ | _ | _ | ⟨_ | ⟨effect, effects⟩, _ | query⟩ | _ | _
  · unfold Handler.receive
    cases handler.event with
    | market event =>
      dsimp only
      cases Streaming.normalizeMarketEvent event <;> rfl
    | post event => rfl
    | mentions event => rfl
  · rfl
  · rfl
  · rfl
  · rfl
  · dsimp only
    rw [Handler.work_stores, perform_engine]
    cases effect <;> rfl
  · dsimp only
    rw [Handler.work_stores, perform_engine]
    cases effect <;> rfl
  · rfl
  · rfl

/-- The log goes on, and has the signal that was next. -/
theorem log_advance (cfg : EngineConfig) (found : Surroundings)
    (hkeyed : Features.Keyed stores.engine) (handler : Handler) :
    Features.Keyed (handler.advance cfg found stores).2.engine ∧
      stores.engine.signalLog <+: (handler.advance cfg found stores).2.engine.signalLog ∧
      ∀ signal ∈ handler.next?,
        signal.seenKey ∈ keysOf (handler.advance cfg found stores).2.engine.signalLog := by
  rw [engine_advance]
  cases handler.next? with
  | none => exact ⟨hkeyed, List.prefix_refl _, fun _ h => (nomatch h)⟩
  | some signal =>
    dsimp only
    refine ⟨hkeyed.ingest signal, ?_, fun other hother => ?_⟩
    · rw [Features.signalLog_ingest]
      split_ifs
      · exact List.prefix_refl _
      · exact List.prefix_append _ _
    · obtain rfl := Option.some.inj hother
      refine ((hkeyed.ingest signal).seen _).mp ?_
      rw [Features.seenEventIds_ingest]
      exact Finset.mem_insert_self _ _

/-- Unless the handler has raised, the log rebuilds the engine. -/
theorem replays_advance (h : Replays cfg stores.engine)
    (hok : ∀ error, (handler.advance cfg found stores).1.stage ≠ .raised error) :
    Replays cfg (handler.advance cfg found stores).2.engine := by
  rcases hstage : handler.stage with _ | _ | _ | ⟨_ | ⟨effect, effects⟩, query⟩ | _ | _
  case working.cons =>
    cases effect with
    | ingest signal =>
      have hadvance : handler.advance cfg found stores =
          handler.work cfg found (.ingest signal) effects query stores := by
        unfold Handler.advance
        rw [hstage]
      rw [hadvance] at hok ⊢
      rcases hperform : perform cfg found (.ingest signal) stores with ⟨error | more, stores'⟩
      · refine absurd ?_ (hok error)
        unfold Handler.work
        rw [hperform]
      · obtain ⟨snapshots, mid, hingest, hret⟩ := bind_eq_ok.mp hperform
        obtain ⟨engine, hengine, rfl⟩ := within_eq_ok.mp hingest
        have hstores : (handler.work cfg found (.ingest signal) effects query stores).2.engine = engine := by
          rw [Handler.work_stores, hperform, ← congrArg Prod.snd hret]
          rfl
        rw [hstores]
        exact h.ingest hengine
    | _ =>
      rw [engine_advance, Handler.next?, hstage]
      exact h
  all_goals
    rw [engine_advance, Handler.next?, hstage]
    exact h

/-! ## The invariant -/

namespace FeatureWorker

/-- The engine that the next process begins with. -/
def restored (cfg : EngineConfig) (ser : FaithfulSerialiser) (s : FeatureWorker) : EngineState :=
  match s.checkpoints.latest with
  | none => .initial
  | some checkpoint =>
    (Features.restoreState cfg ser.toSerialiser checkpoint.stateJson .initial).2

variable {s : FeatureWorker} {batch rest todo : List ConsumedEvent} {stateJson : Json}
  {stateChecksum : Digest String} {record : ConsumedEvent}

/-- What is saved is the state of the engine. -/
structure Exported (cfg : EngineConfig) (ser : FaithfulSerialiser) (s : FeatureWorker) (stateJson : Json)
    (stateChecksum : Digest String) : Prop where
  replays : Replays cfg s.stores.engine
  exported : stateJson = Features.exportState ser.toSerialiser s.stores.engine
  encoded : ser.dumps stateJson = .ok stateChecksum.material

/-- What a phase says about the engine. -/
def EngineIn (cfg : EngineConfig) (ser : FaithfulSerialiser) (s : FeatureWorker) : WorkerPhase → Prop
  | .down => True
  | .polling => Replays cfg s.stores.engine
  | .handling _ _ handler _ => (∀ error, handler.stage ≠ .raised error) → Replays cfg s.stores.engine
  | .saving stateJson stateChecksum _ => Exported cfg ser s stateJson stateChecksum
  | .committing stateJson stateChecksum _ _ =>
    Exported cfg ser s stateJson stateChecksum ∧ s.restored cfg ser = s.stores.engine

structure Restorable (cfg : EngineConfig) (ser : FaithfulSerialiser) (s : FeatureWorker) : Prop where
  keyed : Features.Keyed s.stores.engine
  saved : Replays cfg (s.restored cfg ser)
  rows : ∀ partition row, s.checkpoints.get? partition = some row →
    RowSound cfg ser s.now (s.restored cfg ser).signalLog row
  goesOn : s.phase ≠ .down → (s.restored cfg ser).signalLog <+: s.stores.engine.signalLog
  engine : EngineIn cfg ser s s.phase

theorem restorable_initial (cfg : EngineConfig) (ser : FaithfulSerialiser) :
    Restorable cfg ser {} where
  keyed := Features.keyed_initial
  saved := replays_initial
  rows _ _ h := (nomatch h)
  goesOn h := (h rfl).elim
  engine := trivial

namespace Restorable

/-- What the phase says. -/
theorem engineIn (h : s.Restorable cfg ser) {phase : WorkerPhase} (hphase : s.phase = phase) :
    EngineIn cfg ser s phase :=
  hphase ▸ h.engine

/-- The log goes on while the process runs. -/
theorem runs (h : s.Restorable cfg ser) {phase : WorkerPhase} (hphase : s.phase = phase)
    (hup : phase ≠ .down) : (s.restored cfg ser).signalLog <+: s.stores.engine.signalLog :=
  h.goesOn (hphase ▸ hup)

theorem crash (h : s.Restorable cfg ser) : s.crash.Restorable cfg ser where
  keyed := Features.keyed_initial
  saved := h.saved
  rows := h.rows
  goesOn hphase := (hphase rfl).elim
  engine := trivial

theorem begin (h : s.Restorable cfg ser) {engine : EngineState} (hengine : s.restored cfg ser = engine) :
    (s.begin engine).Restorable cfg ser where
  keyed := hengine ▸ h.saved.keyed
  saved := h.saved
  rows := h.rows
  goesOn _ := hengine ▸ List.prefix_refl _
  engine := by
    show Replays cfg engine
    exact hengine ▸ h.saved

end Restorable

/-- A start does nothing, or the process begins with what it restores. -/
theorem start_cases (cfg : EngineConfig) (ser : FaithfulSerialiser) (s : FeatureWorker) :
    s.start cfg ser = s ∨ s.phase = .down ∧ s.start cfg ser = s.begin (s.restored cfg ser) := by
  unfold FeatureWorker.start restored
  cases hphase : s.phase with
  | down =>
    cases s.checkpoints.latest with
    | none => exact .inr ⟨rfl, rfl⟩
    | some checkpoint =>
      dsimp only
      cases ser.dumps checkpoint.stateJson with
      | error error => exact .inl rfl
      | ok encoded =>
        dsimp only
        split_ifs
        · exact .inl rfl
        · rcases Features.restoreState cfg ser.toSerialiser checkpoint.stateJson .initial with
            ⟨error | count, engine⟩
          · exact .inl rfl
          · exact .inr ⟨rfl, rfl⟩
  | _ => exact .inl rfl

/-- A fetch does nothing, or a batch is handled. -/
theorem fetch_cases (records : Partition → ℕ → Option WorkerEvent) (s : FeatureWorker)
    (ends : List (Partition × ℕ)) :
    s.fetch records ends = s ∨ ∃ record rest, s.phase = .polling ∧
      s.batchOf records ends = record :: rest ∧ (ends.map Prod.fst).Nodup ∧
      s.fetch records ends = { s with
        position := fun partition =>
          max (s.position partition) (((ends.find? fun entry => entry.1 = partition).map Prod.snd).getD 0)
        phase := .handling (record :: rest) record { event := record.event } rest } := by
  unfold FeatureWorker.fetch
  split
  · rename_i record rest hphase hbatch
    split_ifs with hnodup
    · exact .inr ⟨record, rest, hphase, hbatch, hnodup, rfl⟩
    · exact .inl rfl
  · exact .inl rfl

/-- The next record is handled, or the process stops, or the state is saved. -/
theorem proceed_cases (ser : FaithfulSerialiser) (s : FeatureWorker) (batch : List ConsumedEvent)
    (record : ConsumedEvent) (rest : List ConsumedEvent) :
    (∃ next rest', rest = next :: rest' ∧ s.proceed ser batch record rest = { s with
        returned := s.returned ++ [record]
        phase := .handling batch next { event := next.event } rest' }) ∨
      rest = [] ∧ s.proceed ser batch record rest = { s with returned := s.returned ++ [record] }.crash ∨
      rest = [] ∧ ∃ encoded,
        ser.dumps (Features.exportState ser.toSerialiser s.stores.engine) = .ok encoded ∧
        s.proceed ser batch record rest = { s with
          returned := s.returned ++ [record]
          phase := .saving (Features.exportState ser.toSerialiser s.stores.engine) ⟨encoded⟩
            (ConsumedEvent.latestByPartition batch) } := by
  cases rest with
  | cons next rest => exact .inl ⟨next, rest, rfl, rfl⟩
  | nil =>
    refine .inr ?_
    unfold proceed exportEngine
    dsimp only
    cases hencoded : ser.dumps (Features.exportState ser.toSerialiser s.stores.engine) with
    | error error => exact .inl ⟨rfl, rfl⟩
    | ok encoded => exact .inr ⟨rfl, encoded, rfl, rfl⟩

namespace Restorable

theorem proceed (h : s.Restorable cfg ser) {handler : Handler}
    (hphase : s.phase = .handling batch record handler rest) (hreturned : handler.stage = .returned) :
    (s.proceed ser batch record rest).Restorable cfg ser := by
  have hgoesOn := h.runs hphase WorkerPhase.noConfusion
  have hreplays : Replays cfg s.stores.engine := h.engineIn hphase fun error => by
    rw [hreturned]
    exact Stage.noConfusion
  rcases proceed_cases ser s batch record rest with
    ⟨next, rest', -, hproceed⟩ | ⟨-, hproceed⟩ | ⟨-, encoded, hencoded, hproceed⟩
  all_goals rw [hproceed]
  · exact ⟨h.keyed, h.saved, h.rows, fun _ => hgoesOn, fun _ => hreplays⟩
  · exact ⟨Features.keyed_initial, h.saved, h.rows, fun hdown => (hdown rfl).elim, trivial⟩
  · exact ⟨h.keyed, h.saved, h.rows, fun _ => hgoesOn, hreplays, rfl, hencoded⟩

/-- **After a save the next process begins with the engine.** -/
theorem restored_save (h : s.Restorable cfg ser)
    (hphase : s.phase = .saving stateJson stateChecksum (record :: todo)) :
    (s.save stateJson stateChecksum record todo).restored cfg ser = s.stores.engine ∧
      ∀ partition row, (s.save stateJson stateChecksum record todo).checkpoints.get? partition =
        some row → RowSound cfg ser (s.now + 1) s.stores.engine.signalLog row := by
  have hgoesOn := h.runs hphase WorkerPhase.noConfusion
  have hsaving : Exported cfg ser s stateJson stateChecksum := h.engineIn hphase
  have hold : ∀ partition row, s.checkpoints.get? partition = some row →
      RowSound cfg ser (s.now + 1) s.stores.engine.signalLog row := by
    intro partition row hrow
    obtain ⟨hupdated, hencoded, engine, hengine, hexported, hgrows⟩ := h.rows partition row hrow
    exact ⟨Nat.lt_succ_of_lt hupdated, hencoded, engine, hengine, hexported,
      List.IsPrefix.trans hgrows hgoesOn⟩
  show restored cfg ser { s with
      checkpoints := s.checkpoints.save s.now record stateJson stateChecksum } = _ ∧
    ∀ partition row, (s.checkpoints.save s.now record stateJson stateChecksum).get? partition = _ → _
  rcases save_cases s.checkpoints s.now record stateJson stateChecksum with
    ⟨offset, hsave⟩ | ⟨hsave, row, hrow, hchecksum⟩
  · rw [hsave]
    constructor
    · have hlatest : Checkpoints.latest (s.checkpoints.set record.partition
          (savedRow s.now record stateJson stateChecksum offset)) =
            some (savedRow s.now record stateJson stateChecksum offset) :=
        latest_set (fun partition row hrow => (h.rows partition row hrow).updatedAt) record.partition rfl
      rw [restored, hlatest]
      show (Features.restoreState cfg ser.toSerialiser stateJson .initial).2 = _
      rw [hsaving.exported, hsaving.replays.restoreState]
    · intro partition row hrow
      rw [OrderedDict.get?_set] at hrow
      split_ifs at hrow
      · rw [← Option.some.inj hrow]
        exact ⟨Nat.lt_succ_self _, hsaving.encoded, _, hsaving.replays, hsaving.exported,
          List.prefix_refl _⟩
      · exact hold partition row hrow
  · rw [hsave]
    refine ⟨?_, hold⟩
    -- the row has the state that is saved, so the latest has it too
    obtain ⟨-, hencoded, engine, hengine, hexported, hgrows⟩ := h.rows _ row hrow
    have hsame : row.stateJson = stateJson := by
      rw [hchecksum] at hencoded
      exact Except.ok.inj ((ser.loads_dumps hencoded).symm.trans (ser.loads_dumps hsaving.encoded))
    have hequal : engine = s.stores.engine :=
      hengine.exportState_inj hsaving.replays (hexported.symm.trans (hsame.trans hsaving.exported))
    have hback : s.stores.engine.signalLog <+: (s.restored cfg ser).signalLog := hequal ▸ hgrows
    exact h.saved.ext hsaving.replays (hgoesOn.eq_of_length_le hback.length_le)

theorem save (h : s.Restorable cfg ser)
    (hphase : s.phase = .saving stateJson stateChecksum (record :: todo)) :
    (s.save stateJson stateChecksum record todo).Restorable cfg ser := by
  obtain ⟨hengine, hrows⟩ := h.restored_save hphase
  have hsaving : Exported cfg ser s stateJson stateChecksum := h.engineIn hphase
  refine ⟨h.keyed, hengine ▸ hsaving.replays, fun partition row hrow => ?_, fun _ => ?_,
    ⟨hsaving.replays, hsaving.exported, hsaving.encoded⟩, hengine⟩
  · rw [hengine]
    exact hrows partition row hrow
  · rw [hengine]
    exact List.prefix_refl _

theorem commit (h : s.Restorable cfg ser)
    (hphase : s.phase = .committing stateJson stateChecksum record todo) :
    (s.commit stateJson stateChecksum record todo).Restorable cfg ser := by
  have hsaving : Exported cfg ser s stateJson stateChecksum := (h.engineIn hphase).1
  exact ⟨h.keyed, h.saved, h.rows, fun _ => h.runs hphase WorkerPhase.noConfusion, hsaving.replays,
    hsaving.exported, hsaving.encoded⟩

/-- A batch is saved: the next one is fetched. -/
theorem poll (h : s.Restorable cfg ser) (hphase : s.phase = .saving stateJson stateChecksum []) :
    Restorable cfg ser { s with phase := .polling } := by
  have hsaving : Exported cfg ser s stateJson stateChecksum := h.engineIn hphase
  exact ⟨h.keyed, h.saved, h.rows, fun _ => h.runs hphase WorkerPhase.noConfusion, hsaving.replays⟩

/-- Another worker reports about a source. -/
theorem setHealth (h : s.Restorable cfg ser) (key : String) (value : JsonObject) :
    Restorable cfg ser { s with health := Function.update s.health key (some value) } := by
  refine ⟨h.keyed, h.saved, h.rows, h.goesOn, ?_⟩
  have hengine := h.engine
  show EngineIn cfg ser { s with health := Function.update s.health key (some value) } s.phase
  cases hphase : s.phase
  all_goals rw [hphase] at hengine
  case saving => exact ⟨hengine.replays, hengine.exported, hengine.encoded⟩
  case committing => exact ⟨⟨hengine.1.replays, hengine.1.exported, hengine.1.encoded⟩, hengine.2⟩
  all_goals exact hengine

theorem handle (h : s.Restorable cfg ser) {handler : Handler} {now : Datetime}
    (hphase : s.phase = .handling batch record handler rest)
    (hraised : ∀ error, handler.stage ≠ .raised error) :
    (s.handle cfg now batch record handler rest).Restorable cfg ser := by
  obtain ⟨hkeyed, hgrows, -⟩ := log_advance cfg ⟨s.health, now⟩ h.keyed handler
  exact ⟨hkeyed, h.saved, h.rows,
    fun _ => List.IsPrefix.trans (h.runs hphase WorkerPhase.noConfusion) hgrows,
    replays_advance (h.engineIn hphase hraised)⟩

theorem advance (h : s.Restorable cfg ser) (now : Datetime) :
    (s.advance cfg ser now).Restorable cfg ser := by
  unfold FeatureWorker.advance
  split
  · rename_i batch record handler rest hphase
    split
    · exact h.crash
    · rename_i hreturned
      exact h.proceed hphase hreturned
    · rename_i hraised _
      exact h.handle hphase hraised
  · rename_i hphase
    exact h.save hphase
  · rename_i hphase
    exact h.poll hphase
  · rename_i hphase
    exact h.commit hphase
  · exact h

theorem step (h : s.Restorable cfg ser) (move : WorkerMove) :
    (s.step cfg ser records move).Restorable cfg ser := by
  cases move with
  | start =>
    show (s.start cfg ser).Restorable cfg ser
    rcases start_cases cfg ser s with hstart | ⟨-, hstart⟩
    · rw [hstart]
      exact h
    · rw [hstart]
      exact h.begin rfl
  | fetch ends =>
    show (s.fetch records ends).Restorable cfg ser
    rcases fetch_cases records s ends with hfetch | ⟨record, rest, hphase, -, -, hfetch⟩
    · rw [hfetch]
      exact h
    · rw [hfetch]
      exact ⟨h.keyed, h.saved, h.rows, fun _ => h.runs hphase WorkerPhase.noConfusion,
        fun _ => h.engineIn hphase⟩
  | advance now => exact h.advance now
  | setHealth key health => exact h.setHealth key health
  | crash => exact h.crash

end Restorable

/-- **The next process begins with a state that its log rebuilds**, in every run. -/
theorem restorable_run (cfg : EngineConfig) (ser : FaithfulSerialiser)
    (records : Partition → ℕ → Option WorkerEvent) (moves : List WorkerMove) :
    Restorable cfg ser (run (step cfg ser records) {} moves) :=
  run_invariant (fun _ move h => h.step move) (restorable_initial cfg ser) moves

end FeatureWorker

end Workers
end Scam2Market
