import Scam2Market.Features.Isolation
import Scam2Market.Library.LastWriter
import Scam2Market.Services.CallEffects

/-!
# Replays and the online state of LIVE

The keys without a scope serve readers that name none, and every scope writes them.  So what they
hold is what LIVE has computed only as long as LIVE writes last.

* `Related` relates a state of a run to the state of the run of its LIVE calls: the engines look the
  same to LIVE.
* `perform_writes`: what a call that returns writes.
* `online_state_iff`: a key holds what it holds in the run of the LIVE calls alone if and only if
  every replay call that rewrites it is followed by a LIVE call that rewrites it.
-/

namespace Scam2Market
namespace Services

open Features (EngineConfig EngineState FeatureSignal FeatureSnapshot SameView StoredKnown)
open Library (OrderedDict Restored)
open Library.Procedure

variable {cfg : EngineConfig} {service : DetectionService}

/-- The signals of the calls of a run. -/
def signalsOf (calls : List ServiceCall) : List FeatureSignal :=
  calls.filterMap ServiceCall.signal?

/-- Calls of the LIVE scope. -/
def ServiceCall.isLive (call : ServiceCall) : Bool :=
  decide (call.scopeId = "LIVE")

/-- The pairs of LIVE. -/
def isLive (scopeId _assetId : String) : Bool :=
  decide (scopeId = "LIVE")

/-- A call rewrites a key when the key is one of its own, and its signal, if it has one, is not a
redelivery: no earlier call has processed a signal of that scope with that event id. -/
def ServiceCall.Rewrites (cfg : EngineConfig) (key : String) (earlier : List ServiceCall)
    (call : ServiceCall) : Prop :=
  call.Names cfg key ∧
    ∀ signal ∈ call.signal?, signal.seenKey ∉ (signalsOf earlier).map FeatureSignal.seenKey

/-- The engine after the calls of `earlier`: it has seen the signals among them, and has stored
signals in windows of registered intervals only. -/
structure Tracked (cfg : EngineConfig) (earlier : List ServiceCall) (engine : EngineState) :
    Prop where
  stored : StoredKnown cfg engine
  seen : ∀ id, id ∈ engine.seenEventIds ↔ id ∈ (signalsOf earlier).map FeatureSignal.seenKey

/-- The state `s` after the calls of `earlier`, and the state `t` after the LIVE calls among them. -/
structure Related (cfg : EngineConfig) (run : List FeatureSignal) (earlier : List ServiceCall)
    (s t : ServiceState) : Prop where
  view : SameView isLive run s.engine t.engine
  tracked : Tracked cfg earlier s.engine

variable {run : List FeatureSignal} {earlier : List ServiceCall} {s t : ServiceState}

theorem tracked_initial : Tracked cfg [] .initial where
  stored := Features.storedKnown_initial
  seen := by simp [Features.EngineState.initial, signalsOf]

/-- Event ids are counted within a scope, so LIVE and replays do not share any. -/
theorem idsRespect_isLive (run : List FeatureSignal) : Features.IdsRespect isLive run := by
  intro a _ b _ h
  have hscope : a.scopeId = b.scopeId := congrArg Prod.fst h
  show isLive a.scopeId a.assetId = isLive b.scopeId b.assetId
  rw [isLive, isLive, hscope]

theorem storedKnown_engineAfter (call : ServiceCall) {engine : EngineState}
    (h : StoredKnown cfg engine) : StoredKnown cfg (call.engineAfter cfg engine) := by
  cases call with
  | process signal now => exact Features.storedKnown_ingest signal h
  | score arguments now => exact h

theorem tracked_engineAfter (call : ServiceCall) {engine : EngineState}
    (h : Tracked cfg earlier engine) :
    Tracked cfg (earlier ++ [call]) (call.engineAfter cfg engine) := by
  have hsignals : signalsOf (earlier ++ [call]) = signalsOf earlier ++ call.signal?.toList := by
    rw [signalsOf, List.filterMap_append, signalsOf]
    cases hcall : call.signal? <;> simp [hcall]
  cases call with
  | process signal now =>
    refine ⟨storedKnown_engineAfter _ h.stored, fun id => ?_⟩
    rw [hsignals, List.map_append, List.mem_append, ← h.seen, ServiceCall.engineAfter,
      Features.seenEventIds_ingest, Finset.mem_insert, or_comm]
    simp [ServiceCall.signal?]
  | score arguments now =>
    refine ⟨h.stored, fun id => ?_⟩
    rw [hsignals, List.map_append, List.mem_append, ← h.seen]
    simp [ServiceCall.engineAfter, ServiceCall.signal?]

theorem tracked_run (calls : List ServiceCall) :
    Tracked cfg calls (runAll (perform cfg service) calls .initial).2.engine := by
  induction calls using List.reverseRecOn with
  | nil => exact tracked_initial
  | append_singleton earlier call ih =>
    rw [runAll_concat, perform_engine]
    exact tracked_engineAfter call ih

/-- The engine answers the signal of a LIVE call in the same way in states that look the same to
LIVE. -/
theorem ingest_outcome_live {call : ServiceCall} (hrun : ∀ signal ∈ call.signal?, signal ∈ run)
    (hlive : call.isLive = true) {a b : EngineState} (h : SameView isLive run a b) :
    ∀ signal ∈ call.signal?, (Features.ingest cfg signal a).1 =
      (Features.ingest cfg signal b).1 := by
  intro signal hsignal
  cases call with
  | process other now =>
    obtain rfl : other = signal := Option.some.inj hsignal
    exact (Features.agree_ingest (P := isLive) (hrun other rfl) hlive a b h).1
  | score arguments now => exact absurd hsignal (Option.not_mem_none signal)

/-- After a LIVE call on both, the engines look the same to LIVE. -/
theorem sameView_live {call : ServiceCall} (hrun : ∀ signal ∈ call.signal?, signal ∈ run)
    (hlive : call.isLive = true) {a b : EngineState} (h : SameView isLive run a b) :
    SameView isLive run (call.engineAfter cfg a) (call.engineAfter cfg b) := by
  cases call with
  | process signal now =>
    exact (Features.agree_ingest (P := isLive) (hrun signal rfl) hlive a b h).2
  | score arguments now => exact h

/-- A replay call does not change what LIVE sees of the engine. -/
theorem sameView_replay {call : ServiceCall} (hrun : ∀ signal ∈ call.signal?, signal ∈ run)
    (hlive : call.isLive = false) (a : EngineState) :
    SameView isLive run (call.engineAfter cfg a) a := by
  cases call with
  | process signal now =>
    exact Features.sameView_ingest (idsRespect_isLive run) (hrun signal rfl) hlive a
  | score arguments now => exact SameView.refl a

/-- **What a call that returns writes**: values of its scope, under exactly the keys it rewrites, and
the same values from every state in which the engine answers the same. -/
theorem perform_writes {call : ServiceCall} {s' : ServiceState}
    (htracked : Tracked cfg earlier s.engine)
    (h : perform cfg service call s = (.ok (), s')) :
    ∃ writes, s'.online = writeOnline s.online writes ∧
      (∀ write ∈ writes, write.2.scopeId = call.scopeId) ∧
      (∀ key, key ∈ writes.map Prod.fst ↔ call.Rewrites cfg key earlier) ∧
      ∀ t : ServiceState,
        (∀ signal ∈ call.signal?, (Features.ingest cfg signal t.engine).1 =
          (Features.ingest cfg signal s.engine).1) →
        (perform cfg service call t).2.online = writeOnline t.online writes := by
  cases call with
  | process signal now =>
    obtain ⟨snapshots, mid, hprocess, hpure⟩ := bind_eq_ok.mp h
    obtain rfl : mid = s' := congrArg Prod.snd hpure
    obtain ⟨hres, hstore, honline⟩ := processSignal_ok hprocess
    have hrev := revisionFor_of_ingest htracked.stored hres
    refine ⟨snapshotWrites snapshots, honline,
      fun write hwrite => (names_of_mem_snapshotWrites now hrev hwrite).2, ?_, ?_⟩
    · intro key
      constructor
      · intro hkey
        obtain ⟨write, hwrite, rfl⟩ := List.mem_map.mp hkey
        refine ⟨(names_of_mem_snapshotWrites now hrev hwrite).1, fun other hother => ?_⟩
        obtain rfl : signal = other := Option.some.inj hother
        -- a redelivered signal returns no snapshots
        intro hold
        rw [Features.ingest_of_seen ((htracked.seen _).mpr hold)] at hres
        obtain rfl : [] = snapshots := Except.ok.inj hres
        exact List.not_mem_nil hwrite
      · rintro ⟨hnames, hnew⟩
        have hfresh : signal.seenKey ∉ s.engine.seenEventIds := fun hold =>
          hnew signal rfl ((htracked.seen _).mp hold)
        exact mem_snapshotWrites_of_names hrev
          (Features.ingest_returns htracked.stored hfresh (Prod.ext hres rfl)).2 hnames
    · intro t hsame
      rw [perform, bind_pure_snd _ fun _ => ()]
      exact processSignal_online ((hsame signal rfl).trans hres) hstore
  | score arguments now =>
    obtain ⟨result, mid, hscore, hpure⟩ := bind_eq_ok.mp h
    obtain rfl : mid = s' := congrArg Prod.snd hpure
    rcases scoreSnapshot_cases service arguments now s with ⟨e, -, herr⟩ | ⟨found, hok, -, honline⟩
    · exact absurd (congrArg Prod.fst (herr.symm.trans hscore)) (by simp)
    · rw [hscore] at honline
      refine ⟨scoreWrites arguments found, honline, fun write hwrite => ?_, fun key => ?_, ?_⟩
      · simp only [scoreWrites, List.mem_cons, List.not_mem_nil, or_false] at hwrite
        rcases hwrite with rfl | rfl <;> exact (scored_fields hok).1
      · simp [scoreWrites, ServiceCall.Rewrites, ServiceCall.Names, ServiceCall.signal?]
      · intro t _
        rw [perform, bind_pure_snd _ fun _ => ()]
        rcases scoreSnapshot_cases service arguments now t with ⟨e, herr, -⟩ | ⟨found', hok', -, ht⟩
        · exact absurd (herr.symm.trans hok) (by simp)
        · obtain rfl : found = found' := Except.ok.inj (hok.symm.trans hok')
          exact ht

/-- **A LIVE call and a key.**  It keeps the relation, and puts the same value of LIVE under the key
in both states when it rewrites it. -/
theorem register_live (service : DetectionService) (key : String) {call : ServiceCall}
    {s' : ServiceState} (hrun : ∀ signal ∈ call.signal?, signal ∈ run)
    (hlive : call.isLive = true) (h : Related cfg run earlier s t)
    (hs : perform cfg service call s = (.ok (), s')) :
    Related cfg run (earlier ++ [call]) s' (perform cfg service call t).2 ∧
      (call.Rewrites cfg key earlier → ∃ value : StateRecord, value.scopeId = "LIVE" ∧
        s'.online.get? key = some value ∧
          (perform cfg service call t).2.online.get? key = some value) ∧
      (¬ call.Rewrites cfg key earlier → s'.online.get? key = s.online.get? key ∧
        (perform cfg service call t).2.online.get? key = t.online.get? key) := by
  obtain ⟨writes, honline, hscope, hkeys, hsame⟩ := perform_writes h.tracked hs
  have ht := hsame t fun signal hsignal =>
    (ingest_outcome_live hrun hlive h.view signal hsignal).symm
  have hengine : (perform cfg service call s).2.engine = call.engineAfter cfg s.engine :=
    perform_engine call s
  rw [hs] at hengine
  refine ⟨⟨?_, ?_⟩, fun hW => ?_, fun hW => ?_⟩
  · rw [hengine, perform_engine]
    exact sameView_live hrun hlive h.view
  · rw [hengine]
    exact tracked_engineAfter call h.tracked
  · obtain ⟨value, hmem, hget⟩ := OrderedDict.get?_foldl_set_of_mem ((hkeys key).mpr hW)
    refine ⟨value, (hscope _ hmem).trans (of_decide_eq_true hlive), ?_, ?_⟩
    · rw [honline]
      exact hget s.online
    · rw [ht]
      exact hget t.online
  · have hnot : key ∉ writes.map Prod.fst := fun hmem => hW ((hkeys key).mp hmem)
    rw [honline, ht]
    exact ⟨OrderedDict.get?_foldl_set_of_not_mem hnot _,
      OrderedDict.get?_foldl_set_of_not_mem hnot _⟩

/-- **A replay call and a key.**  It keeps the relation to the state it does not act on, and puts a
value that is not of LIVE under the key when it rewrites it. -/
theorem register_replay (service : DetectionService) (key : String) {call : ServiceCall}
    {s' : ServiceState} (hrun : ∀ signal ∈ call.signal?, signal ∈ run)
    (hlive : call.isLive = false) (h : Related cfg run earlier s t)
    (hs : perform cfg service call s = (.ok (), s')) :
    Related cfg run (earlier ++ [call]) s' t ∧
      (call.Rewrites cfg key earlier → ∃ value : StateRecord, ¬ value.scopeId = "LIVE" ∧
        s'.online.get? key = some value) ∧
      (¬ call.Rewrites cfg key earlier → s'.online.get? key = s.online.get? key) := by
  obtain ⟨writes, honline, hscope, hkeys, -⟩ := perform_writes h.tracked hs
  have hengine : (perform cfg service call s).2.engine = call.engineAfter cfg s.engine :=
    perform_engine call s
  rw [hs] at hengine
  refine ⟨⟨?_, ?_⟩, fun hW => ?_, fun hW => ?_⟩
  · rw [hengine]
    exact (sameView_replay hrun hlive s.engine).trans h.view
  · rw [hengine]
    exact tracked_engineAfter call h.tracked
  · obtain ⟨value, hmem, hget⟩ := OrderedDict.get?_foldl_set_of_mem ((hkeys key).mpr hW)
    refine ⟨value, ?_, ?_⟩
    · rw [hscope _ hmem]
      exact of_decide_eq_false hlive
    · rw [honline]
      exact hget s.online
  · have hnot : key ∉ writes.map Prod.fst := fun hmem => hW ((hkeys key).mp hmem)
    rw [honline]
    exact OrderedDict.get?_foldl_set_of_not_mem hnot _

/-- **The online state is isolated exactly when LIVE writes last.**  Calls with well-formed arguments
return.  When the calls of a run return, a key holds what it holds in the run of the LIVE calls alone
if and only if every replay call that rewrites it is followed by a LIVE call that rewrites it.  And
whether calls return or raise, a key that no replay call is about is not touched by replays. -/
theorem online_state_iff (cfg : EngineConfig) (service : DetectionService)
    (calls : List ServiceCall) :
    let mixed := runAll (perform cfg service) calls .initial
    let live := runAll (perform cfg service) (calls.filter ServiceCall.isLive) .initial
    (cfg.Registered → service.Sound → (∀ call ∈ calls, call.WellFormed) → AllOk mixed.1) ∧
    (AllOk mixed.1 → ∀ key, mixed.2.online.get? key = live.2.online.get? key ↔
      Restored ServiceCall.isLive (ServiceCall.Rewrites cfg key) calls) ∧
    ∀ key, (∀ call ∈ calls, call.isLive = false → ¬ call.Names cfg key) →
      mixed.2.online.get? key = live.2.online.get? key := by
  intro mixed live
  have hsignals : ∀ call ∈ calls, ∀ signal ∈ call.signal?, signal ∈ signalsOf calls :=
    fun call hcall signal hsignal => List.mem_filterMap.mpr ⟨call, hcall, hsignal⟩
  have hrelated : Related cfg (signalsOf calls) [] .initial .initial :=
    ⟨SameView.refl _, tracked_initial⟩
  refine ⟨fun hcfg hservice hcalls => ?_, fun hok key => ?_, fun key hkey => ?_⟩
  · exact allOk_runAll (fun call hcall => succeeds_perform hcfg hservice (hcalls call hcall))
      ⟨Features.supplied_initial, Features.storedKnown_initial⟩
  · exact runAll_register_iff hrelated rfl
      (fun earlier call hcall s t _ s' hlive hV hs =>
        register_live service key (hsignals call hcall) hlive hV hs)
      (fun earlier call hcall s t _ s' hlive hV hs =>
        register_replay service key (hsignals call hcall) hlive hV hs) hok
  · -- what the engines show to LIVE and what is under the key stay the same
    let V : ServiceState → ServiceState → Prop := fun s t =>
      (SameView isLive (signalsOf calls) s.engine t.engine ∧ StoredKnown cfg s.engine) ∧
        s.online.get? key = t.online.get? key
    have hinitial : V .initial .initial :=
      ⟨⟨SameView.refl _, Features.storedKnown_initial⟩, rfl⟩
    have hreplay : ∀ call ∈ calls, call.isLive = false → ∀ s t, V s t →
        V (perform cfg service call s).2 t := by
      rintro call hcall hlive s t ⟨hengine, hsame⟩
      refine ⟨?_, ?_⟩
      · rw [perform_engine]
        exact ⟨(sameView_replay (hsignals call hcall) hlive s.engine).trans hengine.1,
          storedKnown_engineAfter call hengine.2⟩
      · exact (perform_online_of_not_names hengine.2 (hkey call hcall hlive)).trans hsame
    have hlive : ∀ call ∈ calls, call.isLive = true → ∀ s t, V s t →
        V (perform cfg service call s).2 (perform cfg service call t).2 := by
      rintro call hcall hlive s t ⟨hengine, hsame⟩
      refine ⟨?_, ?_⟩
      · rw [perform_engine, perform_engine]
        exact ⟨sameView_live (hsignals call hcall) hlive hengine.1,
          storedKnown_engineAfter call hengine.2⟩
      · refine perform_online_congr hsame fun signal hsignal => ?_
        exact ingest_outcome_live (hsignals call hcall) hlive hengine.1 signal hsignal
    exact (runAll_relate_filter hreplay hlive hinitial).2

/-! ## A replay after LIVE -/

/-- A key that the last call rewrites holds a value of the scope of that call. -/
theorem scopeId_of_rewrites {calls : List ServiceCall} {call : ServiceCall} {key : String}
    (hok : AllOk (runAll (perform cfg service) (calls ++ [call]) .initial).1)
    (hW : call.Rewrites cfg key calls) :
    ∃ value : StateRecord, value.scopeId = call.scopeId ∧
      (runAll (perform cfg service) (calls ++ [call]) .initial).2.online.get? key = some value := by
  obtain ⟨-, answer, hlast⟩ := allOk_concat.mp hok
  obtain ⟨writes, honline, hscope, hkeys, -⟩ := perform_writes (tracked_run calls) hlast
  obtain ⟨value, hmem, hget⟩ := OrderedDict.get?_foldl_set_of_mem ((hkeys key).mpr hW)
  refine ⟨value, hscope _ hmem, ?_⟩
  rw [runAll_concat, honline]
  exact hget _

/-- Processing a trade of a scope that has a name. -/
theorem wellFormed_trade {scopeId : String} (hscope : scopeId ≠ "") (now : Datetime) :
    (ServiceCall.process { Features.tradeSignal "trade-1" Features.testStart with
      scopeId := scopeId } now).WellFormed := by
  refine ⟨fun hkind => ?_, hscope, ?_⟩
  · exact absurd hkind (by simp [Features.tradeSignal])
  · show isBlank "S2MUSDT" = false
    decide

theorem sound_default : ({} : DetectionService).Sound where
  weights := Intelligence.positive_default
  threatUpliftCap := by norm_num
  high := by norm_num

/-- A trade of LIVE and then the same trade in a replay: the key without a scope holds what the
replay has computed. -/
theorem replay_overwrites_live :
    let live := ServiceCall.process (Features.tradeSignal "trade-1" Features.testStart) 0
    let replay := ServiceCall.process
      { Features.tradeSignal "trade-1" Features.testStart with scopeId := "replay-1" } 0
    let mixed := (runAll (perform Features.marketOnly {}) [live, replay] .initial).2
    let alone := (runAll (perform Features.marketOnly {})
      ([live, replay].filter ServiceCall.isLive) .initial).2
    let key := latestFeaturesKey "S2MUSDT" 60
    mixed.online.get? key ≠ alone.online.get? key ∧
      (mixed.online.get? key).map StateRecord.scopeId = some "replay-1" := by
  intro live replay mixed alone key
  have hlive : live.WellFormed := wellFormed_trade (by decide) 0
  have hreplay : replay.WellFormed := wellFormed_trade (by decide) 0
  have hreturns : ∀ calls : List ServiceCall, (∀ call ∈ calls, call.WellFormed) →
      AllOk (runAll (perform Features.marketOnly {}) calls .initial).1 := fun calls hcalls =>
    allOk_runAll (fun call hcall => succeeds_perform ⟨rfl, by decide⟩ sound_default
      (hcalls call hcall)) ⟨Features.supplied_initial, Features.storedKnown_initial⟩
  have hnames : ∀ scopeId : String, (ServiceCall.process
      { Features.tradeSignal "trade-1" Features.testStart with scopeId := scopeId } 0).Names
        Features.marketOnly key := fun _ => ⟨60, List.mem_cons_self, Or.inr rfl⟩
  obtain ⟨a, hscope, ha⟩ := scopeId_of_rewrites
    (hreturns ([] ++ [live]) (by simpa using hlive))
    ⟨hnames "LIVE", fun signal hsignal => List.not_mem_nil⟩
  obtain ⟨b, hscope', hb⟩ := scopeId_of_rewrites
    (hreturns ([live] ++ [replay]) (by simpa using ⟨hlive, hreplay⟩))
    ⟨hnames "replay-1", fun signal hsignal => by
      obtain rfl : _ = signal := Option.some.inj hsignal
      decide⟩
  have hfilter : [live, replay].filter ServiceCall.isLive = [live] := rfl
  refine ⟨fun heq => ?_, ?_⟩
  · have hsame : a = b := by
      refine Option.some.inj (ha.symm.trans (Eq.trans ?_ hb))
      rw [← hfilter]
      exact heq.symm
    rw [hsame, hscope'] at hscope
    exact absurd hscope (by decide)
  · show (mixed.online.get? key).map StateRecord.scopeId = some "replay-1"
    rw [show mixed.online.get? key = some b from hb, Option.map_some, hscope']
    rfl

end Services
end Scam2Market
