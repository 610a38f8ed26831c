import Scam2Market.Features.Returned
import Scam2Market.Features.Totality
import Scam2Market.Intelligence.FusionSteps
import Scam2Market.Services.Calls

/-!
# What a call does

* `perform_engine`: a call changes the engine as `ingest` does, or not at all.
* `ServiceCall.Names`: the keys of the online state that a call is about.  A call writes no others
  (`perform_online_of_not_names`), and every value it writes belongs to its scope.
* `processSignal_ok` and `scoreSnapshot_cases`: what a call has written.
* `succeeds_perform`: calls with well-formed arguments return.
-/

namespace Scam2Market
namespace Services

open Features (EngineConfig EngineState FeatureSignal FeatureSnapshot RevisionFor StoredKnown)
open Intelligence (FusionEngine FusionResult)
open Library (OrderedDict)
open Library.Procedure
open Streaming (EventFields ReplayMetadata)

variable {cfg : EngineConfig} {service : DetectionService} {signal : FeatureSignal}
  {arguments : ScoreArguments} {now : Datetime}

/-! ## Storing snapshots -/

/-- What is written to the online state for a list of snapshots. -/
def snapshotWrites (snapshots : List FeatureSnapshot) : List (String × StateRecord) :=
  snapshots.flatMap fun snapshot =>
    [(scopedFeaturesKey snapshot.scopeId snapshot.assetId snapshot.intervalSeconds,
        .features snapshot),
      (latestFeaturesKey snapshot.assetId snapshot.intervalSeconds, .features snapshot)]

/-- Write items to the online state. -/
def writeOnline (online : OrderedDict String StateRecord) (writes : List (String × StateRecord)) :
    OrderedDict String StateRecord :=
  writes.foldl (fun d e => d.set e.1 e.2) online

theorem persistSnapshot_engine (snapshot : FeatureSnapshot) (st : ServiceState) :
    (persistSnapshot snapshot st).engine = st.engine := by
  unfold persistSnapshot
  split <;> rfl

theorem persistSnapshot_online (snapshot : FeatureSnapshot) (st : ServiceState) :
    (persistSnapshot snapshot st).online = st.online := by
  unfold persistSnapshot
  split <;> rfl

/-- A snapshot is stored before its event is made. -/
theorem storeSnapshot_state (snapshot : FeatureSnapshot) (st : ServiceState) :
    (storeSnapshot signal now snapshot st).2.engine = st.engine ∧
      (storeSnapshot signal now snapshot st).2.online =
        writeOnline st.online (snapshotWrites [snapshot]) := by
  unfold storeSnapshot
  simp only [modify_bind]
  rw [bind_apply, ofExcept_apply]
  cases featureEvent signal now snapshot with
  | error e =>
    exact ⟨persistSnapshot_engine snapshot st, by
      simp [setJson_online, persistSnapshot_online, writeOnline, snapshotWrites]⟩
  | ok event =>
    exact ⟨persistSnapshot_engine snapshot st, by
      simp [setJson_online, persistSnapshot_online, writeOnline, snapshotWrites]⟩

theorem storeSnapshot_outcome (snapshot : FeatureSnapshot) (st : ServiceState) :
    (storeSnapshot signal now snapshot st).1 =
      (featureEvent signal now snapshot).map fun _ => () := by
  unfold storeSnapshot
  simp only [modify_bind]
  rw [bind_apply, ofExcept_apply]
  cases featureEvent signal now snapshot <;> rfl

theorem snapshotWrites_cons (snapshot : FeatureSnapshot) (snapshots : List FeatureSnapshot) :
    snapshotWrites (snapshot :: snapshots) =
      snapshotWrites [snapshot] ++ snapshotWrites snapshots := by
  simp [snapshotWrites]

/-- Storing snapshots does not touch the engine. -/
theorem forEach_storeSnapshot_engine (snapshots : List FeatureSnapshot) (st : ServiceState) :
    (forEach (storeSnapshot signal now) snapshots st).2.engine = st.engine := by
  let R : ServiceState → ServiceState → Prop := fun s t => t.engine = s.engine
  have : Std.Refl R := ⟨fun _ => rfl⟩
  have : IsTrans ServiceState R := ⟨fun _ _ _ hab hbc => hbc.trans hab⟩
  have hloop : Keeps R (forEach (storeSnapshot signal now) snapshots) :=
    keeps_forEach fun snapshot _ s => (storeSnapshot_state snapshot s).1
  exact hloop st

/-- When the loop returns, every snapshot is stored. -/
theorem forEach_storeSnapshot_ok {snapshots : List FeatureSnapshot} {st st' : ServiceState}
    {units : List Unit} (h : forEach (storeSnapshot signal now) snapshots st = (.ok units, st')) :
    st'.online = writeOnline st.online (snapshotWrites snapshots) := by
  induction snapshots generalizing st units with
  | nil =>
    obtain ⟨-, rfl⟩ : units = [] ∧ st = st' := by simpa [forEach, eq_comm] using h
    rfl
  | cons snapshot snapshots ih =>
    obtain ⟨done, rest, mid, hstore, hloop, -⟩ := forEach_cons_eq_ok.mp h
    have hmid : mid.online = writeOnline st.online (snapshotWrites [snapshot]) := by
      rw [← (storeSnapshot_state snapshot st).2, hstore]
    rw [ih hloop, hmid, snapshotWrites_cons]
    exact (List.foldl_append ..).symm

/-- The loop has the same outcome from every state. -/
theorem forEach_storeSnapshot_outcome {snapshots : List FeatureSnapshot} (st st' : ServiceState) :
    (forEach (storeSnapshot signal now) snapshots st).1 =
      (forEach (storeSnapshot signal now) snapshots st').1 := by
  have hagree : Agree (fun _ _ => True) (forEach (storeSnapshot signal now) snapshots)
      (forEach (storeSnapshot signal now) snapshots) :=
    agree_forEach fun snapshot _ s t _ =>
      ⟨by rw [storeSnapshot_outcome, storeSnapshot_outcome], trivial⟩
  exact (hagree st st' trivial).1

/-! ## The keys of a call -/

/-- The calls of a key: those of its asset, for one of the registered intervals or for the score. -/
def ServiceCall.Names (cfg : EngineConfig) (key : String) : ServiceCall → Prop
  | .process signal _ => ∃ interval ∈ cfg.intervals,
      key = scopedFeaturesKey signal.scopeId signal.assetId interval ∨
        key = latestFeaturesKey signal.assetId interval
  | .score arguments _ =>
      key = latestScoreKey arguments.snapshot.assetId ∨
        key = scopedScoreKey arguments.snapshot.scopeId arguments.snapshot.assetId

/-- The keys written for the snapshots of a call are those of the call. -/
theorem names_of_mem_snapshotWrites (now : Datetime) {snapshots : List FeatureSnapshot}
    (h : ∀ snapshot ∈ snapshots, RevisionFor cfg signal snapshot) {write : String × StateRecord}
    (hwrite : write ∈ snapshotWrites snapshots) :
    (ServiceCall.process signal now).Names cfg write.1 ∧ write.2.scopeId = signal.scopeId := by
  obtain ⟨snapshot, hsnapshot, hmem⟩ := List.mem_flatMap.mp hwrite
  have hrev := h snapshot hsnapshot
  simp only [List.mem_cons, List.not_mem_nil, or_false] at hmem
  rcases hmem with rfl | rfl
  · refine ⟨⟨snapshot.intervalSeconds, hrev.interval, Or.inl ?_⟩, hrev.scopeId⟩
    rw [hrev.scopeId, hrev.assetId]
  · refine ⟨⟨snapshot.intervalSeconds, hrev.interval, Or.inr ?_⟩, hrev.scopeId⟩
    rw [hrev.assetId]

/-- All the keys of a call are written when there is a snapshot for each interval. -/
theorem mem_snapshotWrites_of_names {snapshots : List FeatureSnapshot}
    (h : ∀ snapshot ∈ snapshots, RevisionFor cfg signal snapshot)
    (hall : ∀ interval ∈ cfg.intervals, ∃ snapshot ∈ snapshots, snapshot.intervalSeconds = interval)
    {key : String} (hkey : (ServiceCall.process signal now).Names cfg key) :
    key ∈ (snapshotWrites snapshots).map Prod.fst := by
  obtain ⟨interval, hinterval, hform⟩ := hkey
  obtain ⟨snapshot, hsnapshot, rfl⟩ := hall interval hinterval
  have hrev := h snapshot hsnapshot
  rw [← hrev.scopeId, ← hrev.assetId] at hform
  rcases hform with rfl | rfl
  · exact List.mem_map.mpr ⟨_, List.mem_flatMap.mpr ⟨snapshot, hsnapshot, List.mem_cons_self⟩, rfl⟩
  · exact List.mem_map.mpr ⟨_, List.mem_flatMap.mpr ⟨snapshot, hsnapshot,
      List.mem_cons_of_mem _ List.mem_cons_self⟩, rfl⟩

/-! ## Processing a signal -/

/-- What the feature service makes of the outcome of the engine. -/
theorem processSignal_cases (cfg : EngineConfig) (signal : FeatureSignal) (now : Datetime)
    (st : ServiceState) :
    (∃ e, (Features.ingest cfg signal st.engine).1 = .error e ∧
        processSignal cfg signal now st =
          (.error e, { st with engine := (Features.ingest cfg signal st.engine).2 })) ∨
      ∃ snapshots, (Features.ingest cfg signal st.engine).1 = .ok snapshots ∧
        processSignal cfg signal now st =
          (forEach (storeSnapshot signal now) snapshots >>= fun _ => pure snapshots)
            { st with engine := (Features.ingest cfg signal st.engine).2 } := by
  unfold processSignal onEngine
  rcases hres : (Features.ingest cfg signal st.engine).1 with e | snapshots
  · refine Or.inl ⟨e, rfl, bind_of_error ?_⟩
    rw [within_apply, hres]
  · refine Or.inr ⟨snapshots, rfl, bind_of_ok ?_⟩
    rw [within_apply, hres]

/-- A call that returns has stored what the engine returned. -/
theorem processSignal_ok {st st' : ServiceState} {snapshots : List FeatureSnapshot}
    (h : processSignal cfg signal now st = (.ok snapshots, st')) :
    (Features.ingest cfg signal st.engine).1 = .ok snapshots ∧
      (∀ st, ∃ units, (forEach (storeSnapshot signal now) snapshots st).1 = .ok units) ∧
      st'.online = writeOnline st.online (snapshotWrites snapshots) := by
  rcases processSignal_cases cfg signal now st with ⟨e, -, herr⟩ | ⟨found, hres, hok⟩
  · rw [herr] at h
    exact absurd (congrArg Prod.fst h) (by simp)
  · rw [hok] at h
    obtain ⟨units, mid, hloop, hpure⟩ := bind_eq_ok.mp h
    obtain ⟨rfl, rfl⟩ : found = snapshots ∧ mid = st' := by simpa using hpure
    have honline := forEach_storeSnapshot_ok hloop
    refine ⟨hres, fun t => ⟨units, ?_⟩, honline⟩
    rw [forEach_storeSnapshot_outcome t, hloop]

/-- From a state in which the engine returns the same, the same is stored. -/
theorem processSignal_online {snapshots : List FeatureSnapshot} {st : ServiceState}
    (hres : (Features.ingest cfg signal st.engine).1 = .ok snapshots)
    (hstore : ∀ st, ∃ units, (forEach (storeSnapshot signal now) snapshots st).1 = .ok units) :
    (processSignal cfg signal now st).2.online =
      writeOnline st.online (snapshotWrites snapshots) := by
  rcases processSignal_cases cfg signal now st with ⟨e, herr, -⟩ | ⟨found, hfound, hok⟩
  · exact absurd (herr.symm.trans hres) (by simp)
  · obtain rfl : found = snapshots := Except.ok.inj (hfound.symm.trans hres)
    rw [hok, bind_pure_snd _ fun _ => found]
    obtain ⟨units, hunits⟩ := hstore { st with engine := (Features.ingest cfg signal st.engine).2 }
    rcases hloop : forEach (storeSnapshot signal now) found
      { st with engine := (Features.ingest cfg signal st.engine).2 } with ⟨res, mid⟩
    rw [hloop] at hunits
    obtain rfl : res = .ok units := hunits
    have honline := forEach_storeSnapshot_ok hloop
    exact honline

theorem processSignal_engine (st : ServiceState) :
    (processSignal cfg signal now st).2.engine = (Features.ingest cfg signal st.engine).2 := by
  rcases processSignal_cases cfg signal now st with ⟨e, -, herr⟩ | ⟨snapshots, -, hok⟩
  · rw [herr]
  · rw [hok, bind_pure_snd _ fun _ => snapshots, forEach_storeSnapshot_engine]

/-! ## Scoring a snapshot -/

/-- What is written to the online state for a score. -/
def scoreWrites (arguments : ScoreArguments) (result : FusionResult) :
    List (String × StateRecord) :=
  [(latestScoreKey arguments.snapshot.assetId, .score result),
    (scopedScoreKey arguments.snapshot.scopeId arguments.snapshot.assetId, .score result)]

/-- Two states with the same engine and the same online state. -/
def SameOnline (s t : ServiceState) : Prop :=
  t.engine = s.engine ∧ t.online = s.online

instance : Std.Refl SameOnline :=
  ⟨fun _ => ⟨rfl, rfl⟩⟩

instance : IsTrans ServiceState SameOnline :=
  ⟨fun _ _ _ hab hbc => ⟨hbc.1.trans hab.1, hbc.2.trans hab.2⟩⟩

theorem persistResult_state (result : FusionResult) (st : ServiceState) :
    ∃ persisted st', persistResult result st = (.ok persisted, st') ∧ SameOnline st st' := by
  unfold persistResult
  rw [reading_bind]
  split_ifs
  · exact ⟨false, st, rfl, rfl, rfl⟩
  · exact ⟨true, _, rfl, rfl, rfl⟩

theorem keeps_publishResult (persisted : Bool) (snapshot : FeatureSnapshot)
    (result : FusionResult) : Keeps SameOnline (publishResult persisted snapshot result) := by
  unfold publishResult
  split_ifs
  · exact keeps_bind (keeps_ofExcept _) fun _ => keeps_modify fun _ => ⟨rfl, rfl⟩
  · exact keeps_pure _

/-- What the detection service does, whether the event is refused or not. -/
theorem scoreSnapshot_cases (service : DetectionService) (arguments : ScoreArguments)
    (now : Datetime) (st : ServiceState) :
    (∃ e, service.scored arguments now = .error e ∧
        scoreSnapshot service arguments now st = (.error e, st)) ∨
      ∃ result, service.scored arguments now = .ok result ∧
        (scoreSnapshot service arguments now st).2.engine = st.engine ∧
        (scoreSnapshot service arguments now st).2.online =
          writeOnline st.online (scoreWrites arguments result) := by
  unfold scoreSnapshot
  cases hres : service.scored arguments now with
  | error e => exact Or.inl ⟨e, rfl, rfl⟩
  | ok result =>
    refine Or.inr ⟨result, rfl, ?_⟩
    obtain ⟨persisted, mid, hpersist, hengine, honline⟩ := persistResult_state result st
    have hok : (ofExcept (.ok result) : ServiceM FusionResult) st = (.ok result, st) := rfl
    rw [bind_of_ok hok, bind_of_ok hpersist, modify_bind, modify_bind]
    have htail : Keeps SameOnline
        (publishResult persisted arguments.snapshot result >>= fun _ => pure result) :=
      keeps_bind (keeps_publishResult _ _ _) fun _ => keeps_pure _
    obtain ⟨hengine', honline'⟩ := htail
      (setJson (scopedScoreKey arguments.snapshot.scopeId arguments.snapshot.assetId)
        (.score result) (setJson (latestScoreKey arguments.snapshot.assetId) (.score result) mid))
    refine ⟨hengine'.trans hengine, honline'.trans ?_⟩
    rw [setJson_online, setJson_online, honline]
    rfl

theorem scored_eq_ok {result : FusionResult} :
    service.scored arguments now = .ok result ↔
      ∃ fused, service.fusion.fuse (DetectionService.fusionInputs arguments)
          (service.resolveThreat arguments now) now = .ok fused ∧
        service.named arguments now fused = result := by
  unfold DetectionService.scored
  rcases service.fusion.fuse (DetectionService.fusionInputs arguments)
    (service.resolveThreat arguments now) now with e | fused
  · simp [bind, Except.bind]
  · simp [bind, Except.bind, pure, Except.pure]

/-- A score belongs to the scope of its snapshot, and names the model. -/
theorem scored_fields {result : FusionResult} (h : service.scored arguments now = .ok result) :
    result.scopeId = arguments.snapshot.scopeId ∧ result.baseModelVersion = "fusion-v2" := by
  obtain ⟨fused, hfuse, rfl⟩ := scored_eq_ok.mp h
  obtain ⟨components, -, hfields⟩ := FusionEngine.fuse_eq_ok.mp hfuse
  show fused.scopeId = _ ∧ fused.baseModelVersion = _
  rw [hfields]
  exact ⟨rfl, rfl⟩

/-! ## Any call -/

/-- The signal of a call of the feature service. -/
def ServiceCall.signal? : ServiceCall → Option FeatureSignal
  | .process signal _ => some signal
  | .score _ _ => none

/-- The engine after a call. -/
def ServiceCall.engineAfter (cfg : EngineConfig) (call : ServiceCall) (engine : EngineState) :
    EngineState :=
  match call with
  | .process signal _ => (Features.ingest cfg signal engine).2
  | .score _ _ => engine

theorem perform_engine (call : ServiceCall) (st : ServiceState) :
    (perform cfg service call st).2.engine = call.engineAfter cfg st.engine := by
  cases call with
  | process signal now =>
    rw [perform, bind_pure_snd _ fun _ => (), processSignal_engine]
    rfl
  | score arguments now =>
    rw [perform, bind_pure_snd _ fun _ => ()]
    rcases scoreSnapshot_cases service arguments now st with ⟨e, -, h⟩ | ⟨result, -, hengine, -⟩
    · rw [h]
      rfl
    · exact hengine

/-- What is read under a key after the same writes depends only on what was read before. -/
theorem get?_writeOnline_congr {d e : OrderedDict String StateRecord} {key : String}
    (h : d.get? key = e.get? key) (writes : List (String × StateRecord)) :
    (writeOnline d writes).get? key = (writeOnline e writes).get? key := by
  by_cases hkey : key ∈ writes.map Prod.fst
  · obtain ⟨v, -, hget⟩ := OrderedDict.get?_foldl_set_of_mem hkey
    exact (hget d).trans (hget e).symm
  · exact (OrderedDict.get?_foldl_set_of_not_mem hkey d).trans
      (h.trans (OrderedDict.get?_foldl_set_of_not_mem hkey e).symm)

/-- A call, whether it returns or raises, makes of two states that agree about a key two states that
agree about it, when the engine returns the same in both. -/
theorem perform_online_congr {call : ServiceCall} {s t : ServiceState} {key : String}
    (hkey : s.online.get? key = t.online.get? key)
    (hres : ∀ signal ∈ call.signal?,
      (Features.ingest cfg signal s.engine).1 = (Features.ingest cfg signal t.engine).1) :
    (perform cfg service call s).2.online.get? key =
      (perform cfg service call t).2.online.get? key := by
  cases call with
  | process signal now =>
    have hsame := hres signal rfl
    rw [perform, bind_pure_snd _ fun _ => (), bind_pure_snd _ fun _ => ()]
    rcases processSignal_cases cfg signal now s with ⟨e, he, hs⟩ | ⟨snapshots, hok, hs⟩
    · rcases processSignal_cases cfg signal now t with ⟨e', -, ht⟩ | ⟨_, hok', -⟩
      · rw [hs, ht]
        exact hkey
      · exact absurd (he.symm.trans (hsame.trans hok')) (by simp)
    · rcases processSignal_cases cfg signal now t with ⟨e', he', -⟩ | ⟨snapshots', hok', ht⟩
      · exact absurd (hok.symm.trans (hsame.trans he')) (by simp)
      · obtain rfl : snapshots = snapshots' :=
          Except.ok.inj (hok.symm.trans (hsame.trans hok'))
        have hagree : Agree (fun s t : ServiceState => s.online.get? key = t.online.get? key)
            (forEach (storeSnapshot signal now) snapshots)
            (forEach (storeSnapshot signal now) snapshots) := by
          refine agree_forEach fun snapshot _ s t hst => ⟨?_, ?_⟩
          · rw [storeSnapshot_outcome, storeSnapshot_outcome]
          · rw [(storeSnapshot_state snapshot s).2, (storeSnapshot_state snapshot t).2]
            exact get?_writeOnline_congr hst _
        rw [hs, ht, bind_pure_snd _ fun _ => snapshots, bind_pure_snd _ fun _ => snapshots]
        exact (hagree { s with engine := (Features.ingest cfg signal s.engine).2 }
          { t with engine := (Features.ingest cfg signal t.engine).2 } hkey).2
  | score arguments now =>
    rw [perform, bind_pure_snd _ fun _ => (), bind_pure_snd _ fun _ => ()]
    rcases scoreSnapshot_cases service arguments now s with ⟨e, he, hs⟩ | ⟨result, hok, -, hs⟩
    · rcases scoreSnapshot_cases service arguments now t with ⟨e', -, ht⟩ | ⟨_, hok', -, -⟩
      · rw [hs, ht]
        exact hkey
      · exact absurd (he.symm.trans hok') (by simp)
    · rcases scoreSnapshot_cases service arguments now t with ⟨e', he', -⟩ | ⟨result', hok', -, ht⟩
      · exact absurd (hok.symm.trans he') (by simp)
      · obtain rfl : result = result' := Except.ok.inj (hok.symm.trans hok')
        rw [hs, ht]
        exact get?_writeOnline_congr hkey _

/-- Whatever the engine returns are revisions of windows of the signal. -/
theorem revisionFor_of_ingest {engine : EngineState} (hknown : StoredKnown cfg engine)
    {snapshots : List FeatureSnapshot}
    (h : (Features.ingest cfg signal engine).1 = .ok snapshots) :
    ∀ snapshot ∈ snapshots, RevisionFor cfg signal snapshot := by
  by_cases hseen : signal.seenKey ∈ engine.seenEventIds
  · rw [Features.ingest_of_seen hseen] at h
    rw [← Except.ok.inj h]
    simp
  · exact (Features.ingest_returns hknown hseen (Prod.ext h rfl)).1

/-- A call, whether it returns or raises, writes no key but its own. -/
theorem perform_online_of_not_names {call : ServiceCall} {st : ServiceState} {key : String}
    (hknown : StoredKnown cfg st.engine) (hkey : ¬ call.Names cfg key) :
    (perform cfg service call st).2.online.get? key = st.online.get? key := by
  cases call with
  | process signal now =>
    rw [perform, bind_pure_snd _ fun _ => ()]
    rcases processSignal_cases cfg signal now st with ⟨e, -, hst⟩ | ⟨snapshots, hok, hst⟩
    · rw [hst]
    · let R : ServiceState → ServiceState → Prop := fun s t =>
        t.online.get? key = s.online.get? key
      have : Std.Refl R := ⟨fun _ => rfl⟩
      have : IsTrans ServiceState R := ⟨fun _ _ _ hab hbc => hbc.trans hab⟩
      have hrev := revisionFor_of_ingest hknown hok
      have hloop : Keeps R (forEach (storeSnapshot signal now) snapshots) := by
        refine keeps_forEach fun snapshot hmem s => ?_
        show (storeSnapshot signal now snapshot s).2.online.get? key = s.online.get? key
        rw [(storeSnapshot_state snapshot s).2]
        refine OrderedDict.get?_foldl_set_of_not_mem (fun hwrite => ?_) _
        obtain ⟨write, hin, rfl⟩ := List.mem_map.mp hwrite
        refine hkey (names_of_mem_snapshotWrites now (fun other hother => ?_) hin).1
        rw [List.mem_singleton.mp hother]
        exact hrev snapshot hmem
      rw [hst, bind_pure_snd _ fun _ => snapshots]
      exact hloop _
  | score arguments now =>
    rw [perform, bind_pure_snd _ fun _ => ()]
    rcases scoreSnapshot_cases service arguments now st with ⟨e, -, hst⟩ | ⟨result, -, -, hst⟩
    · rw [hst]
    · rw [hst]
      refine OrderedDict.get?_foldl_set_of_not_mem (fun hwrite => hkey ?_) _
      simpa [scoreWrites, ServiceCall.Names] using hwrite

/-! ## Calls that return -/

/-- A service whose fusion engine returns on scores. -/
structure DetectionService.Sound (service : DetectionService) : Prop where
  weights : service.fusion.weights.Positive
  threatUpliftCap : 0 ≤ service.fusion.threatUpliftCap
  high : 0.01 ≤ service.fusion.thresholds.high

/-- The scope and the asset have names, the values of a signal have the shape of their producer, and
the enrichments of a score are scores. -/
def ServiceCall.WellFormed : ServiceCall → Prop
  | .process signal _ =>
      signal.WellShaped ∧ signal.scopeId ≠ "" ∧ isBlank signal.assetId = false
  | .score arguments _ =>
      (∀ q ∈ arguments.claimRisk, Intelligence.InUnit q) ∧
        (∀ q ∈ arguments.graphScore, Intelligence.InUnit q) ∧
          arguments.snapshot.scopeId ≠ "" ∧ isBlank arguments.snapshot.assetId = false

/-- The engine has signals for its revisions, and windows of registered intervals only. -/
def Ready (cfg : EngineConfig) (st : ServiceState) : Prop :=
  Features.Supplied st.engine ∧ StoredKnown cfg st.engine

theorem featureEvent_succeeds (signal : FeatureSignal) (now : Datetime)
    {snapshot : FeatureSnapshot} (hscope : snapshot.scopeId ≠ "")
    (hasset : isBlank snapshot.assetId = false) :
    ∃ event, featureEvent signal now snapshot = .ok event := by
  have hsource : isBlank "feature-window-engine-v1" = false := by decide
  obtain ⟨replay, hreplay⟩ := ReplayMetadata.ofScope_succeeds hscope
  unfold featureEvent
  rw [hreplay]
  exact EventFields.validate_succeeds le_rfl hsource hasset

theorem succeeds_processSignal (hcfg : cfg.Registered) (hshape : signal.WellShaped)
    (hscope : signal.scopeId ≠ "") (hasset : isBlank signal.assetId = false) :
    Succeeds (Ready cfg) (processSignal cfg signal now) := by
  intro st hready
  obtain ⟨snapshots, engine, hingest, hsupplied⟩ :=
    Features.succeeds_ingest hcfg hshape st.engine hready.1
  have hknown : StoredKnown cfg engine := by
    have hstored := Features.storedKnown_ingest signal hready.2
    rwa [hingest] at hstored
  have hrev := revisionFor_of_ingest hready.2 (congrArg Prod.fst hingest)
  have hloop : Succeeds (Ready cfg) (forEach (storeSnapshot signal now) snapshots) := by
    refine succeeds_forEach fun snapshot hmem s hs => ?_
    obtain ⟨event, hevent⟩ := featureEvent_succeeds signal now
      (by rw [(hrev snapshot hmem).scopeId]; exact hscope)
      (by rw [(hrev snapshot hmem).assetId]; exact hasset)
    have hres : (storeSnapshot signal now snapshot s).1 = .ok () := by
      rw [storeSnapshot_outcome, hevent]
      rfl
    refine ⟨(), _, Prod.ext hres rfl, ?_⟩
    unfold Ready
    rw [(storeSnapshot_state snapshot s).1]
    exact hs
  obtain ⟨units, st', hst', hready'⟩ := hloop { st with engine := engine } ⟨hsupplied, hknown⟩
  refine ⟨snapshots, st', ?_, hready'⟩
  unfold processSignal onEngine
  rw [bind_of_ok (within_eq_ok.mpr ⟨engine, hingest, rfl⟩), bind_of_ok hst']
  rfl

theorem scored_succeeds (now : Datetime) (hservice : service.Sound)
    (hclaim : ∀ q ∈ arguments.claimRisk, Intelligence.InUnit q)
    (hgraph : ∀ q ∈ arguments.graphScore, Intelligence.InUnit q) :
    ∃ result, service.scored arguments now = .ok result := by
  have hinputs : (DetectionService.fusionInputs arguments).InRange :=
    { outputs := Intelligence.detectorOutputs_mem arguments.snapshot
      claimRisk := hclaim
      graphScore := hgraph
      marketRegimeConfidence := Intelligence.classifyRegime_mem arguments.snapshot
      liquidityConfidence := Intelligence.classifyLiquidity_mem arguments.snapshot }
  obtain ⟨fused, hfused⟩ := FusionEngine.fuse_returns hservice.weights hservice.threatUpliftCap
    hservice.high hinputs (service.resolveThreat arguments now) now
  unfold DetectionService.scored
  rw [hfused]
  exact ⟨_, rfl⟩

theorem succeeds_publishResult {snapshot : FeatureSnapshot} {result : FusionResult}
    (persisted : Bool) (hscope : snapshot.scopeId ≠ "") (hasset : isBlank snapshot.assetId = false)
    (hsource : isBlank result.baseModelVersion = false) :
    Succeeds (Ready cfg) (publishResult persisted snapshot result) := by
  unfold publishResult
  split_ifs
  · obtain ⟨replay, hreplay⟩ := ReplayMetadata.ofScope_succeeds hscope
    have hevent : ∃ event, scoreEvent snapshot result = .ok event := by
      unfold scoreEvent
      rw [hreplay]
      exact EventFields.validate_succeeds le_rfl hsource hasset
    obtain ⟨event, hevent⟩ := hevent
    intro st hst
    rw [hevent]
    exact ⟨(), _, rfl, hst⟩
  · exact succeeds_pure ()

theorem succeeds_scoreSnapshot (hservice : service.Sound)
    (hclaim : ∀ q ∈ arguments.claimRisk, Intelligence.InUnit q)
    (hgraph : ∀ q ∈ arguments.graphScore, Intelligence.InUnit q)
    (hscope : arguments.snapshot.scopeId ≠ "")
    (hasset : isBlank arguments.snapshot.assetId = false) :
    Succeeds (Ready cfg) (scoreSnapshot service arguments now) := by
  obtain ⟨result, hscored⟩ := scored_succeeds now hservice hclaim hgraph
  have hsource : isBlank result.baseModelVersion = false := by
    rw [(scored_fields hscored).2]
    decide
  have hpersist : Succeeds (Ready cfg) (persistResult result) := by
    intro st hst
    obtain ⟨persisted, st', h, hengine, -⟩ := persistResult_state result st
    refine ⟨persisted, st', h, ?_⟩
    unfold Ready
    rw [hengine]
    exact hst
  have hrest : Succeeds (Ready cfg) (persistResult result >>= fun persisted =>
      modify (setJson (latestScoreKey arguments.snapshot.assetId) (.score result)) >>= fun _ =>
        modify (setJson (scopedScoreKey arguments.snapshot.scopeId arguments.snapshot.assetId)
          (.score result)) >>= fun _ =>
          publishResult persisted arguments.snapshot result >>= fun _ => pure result) :=
    succeeds_bind hpersist fun persisted =>
      succeeds_bind (succeeds_modify fun _ hst => hst) fun _ =>
        succeeds_bind (succeeds_modify fun _ hst => hst) fun _ =>
          succeeds_bind (succeeds_publishResult persisted hscope hasset hsource) fun _ =>
            succeeds_pure result
  intro st hst
  unfold scoreSnapshot
  rw [hscored]
  exact hrest st hst

/-- **A call returns** when its arguments are well formed. -/
theorem succeeds_perform (hcfg : cfg.Registered) (hservice : service.Sound) {call : ServiceCall}
    (hcall : call.WellFormed) : Succeeds (Ready cfg) (perform cfg service call) := by
  cases call with
  | process signal now =>
    obtain ⟨hshape, hscope, hasset⟩ := hcall
    exact succeeds_bind (succeeds_processSignal hcfg hshape hscope hasset) fun _ => succeeds_pure ()
  | score arguments now =>
    obtain ⟨hclaim, hgraph, hscope, hasset⟩ := hcall
    exact succeeds_bind (succeeds_scoreSnapshot hservice hclaim hgraph hscope hasset) fun _ =>
      succeeds_pure ()

end Services
end Scam2Market
