import Scam2Market.Library.Runs
import Scam2Market.Features.Latest
import Scam2Market.Features.Signals
import Scam2Market.Services.CallEffects

/-!
# The online latest features

Calls of `FeatureWindowService.process`, one after the other.  A call stores the snapshots that the
engine returns in their order, so the last one of an interval stays.

* `LatestAgrees`: for every scope, asset and interval, `latest` of the engine is what is online.
* `NamesApart`: the keys a call writes are not those of another asset.
* `latest_agrees_iff`: in a run of calls that return, the two agree after each call if and only if no
  call closes a window before that of its signal and the names stay apart.

The engine puts the windows that a call closes after those it rebuilt.  They are earlier ones, and
`process` does not compare a snapshot with what is stored.
-/

namespace Scam2Market
namespace Services

open Features (EngineConfig EngineState FeatureSignal FeatureSnapshot IsRevisionOf Overdue RevisionFor
  Shaped WindowKey lastOf)
open Library (Always OrderedDict Throughout)
open Library.Procedure

variable {cfg : EngineConfig} {signal : FeatureSignal} {now : Datetime} {st st' : ServiceState}
  {snapshots : List FeatureSnapshot}

/-! ## Keys -/

theorem toList_scopedFeaturesKey (scopeId assetId : String) (interval : ℕ) :
    (scopedFeaturesKey scopeId assetId interval).toList =
      "latest:features:".toList ++
        ((scopeId.toList ++ ':' :: assetId.toList) ++ ':' :: interval.repr.toList) := by
  show ("latest:features:" ++ scopeId ++ ":" ++ assetId ++ ":" ++ interval.repr).toList = _
  simp only [String.toList_append, List.append_assoc]
  rfl

theorem toList_latestFeaturesKey (assetId : String) (interval : ℕ) :
    (latestFeaturesKey assetId interval).toList =
      "latest:features:".toList ++ (assetId.toList ++ ':' :: interval.repr.toList) := by
  show ("latest:features:" ++ assetId ++ ":" ++ interval.repr).toList = _
  simp only [String.toList_append, List.append_assoc]
  rfl

/-- The keys of one asset with scope are told apart by the interval. -/
theorem scopedFeaturesKey_inj {scopeId assetId : String} {interval interval' : ℕ} :
    scopedFeaturesKey scopeId assetId interval = scopedFeaturesKey scopeId assetId interval' ↔
      interval = interval' := by
  refine ⟨fun h => ?_, fun h => h ▸ rfl⟩
  have hlist := congrArg String.toList h
  rw [toList_scopedFeaturesKey, toList_scopedFeaturesKey, List.append_cancel_left_eq] at hlist
  obtain ⟨-, hinterval⟩ := Library.append_cons_inj_of_notMem_right
    (Features.colon_notMem_repr interval) (Features.colon_notMem_repr interval') hlist
  exact Features.repr_injective (String.toList_injective hinterval)

/-- The key with scope is longer than the one without. -/
theorem latestFeaturesKey_ne_scopedFeaturesKey (scopeId assetId : String) (interval interval' : ℕ) :
    latestFeaturesKey assetId interval' ≠ scopedFeaturesKey scopeId assetId interval := by
  intro h
  have hlist := congrArg String.toList h
  rw [toList_latestFeaturesKey, toList_scopedFeaturesKey, List.append_cancel_left_eq] at hlist
  have hfront := (Library.append_cons_inj_of_notMem_right (Features.colon_notMem_repr interval')
    (Features.colon_notMem_repr interval) hlist).1
  have hlength := congrArg List.length hfront
  simp only [List.length_append, List.length_cons] at hlength
  omega

/-! ## What stays of the snapshots of a call -/

/-- Under the key with scope, the last snapshot of the interval stays. -/
theorem get?_writeOnline_scoped (h : ∀ snapshot ∈ snapshots, RevisionFor cfg signal snapshot)
    (online : OrderedDict String StateRecord) (interval : ℕ) :
    (writeOnline online (snapshotWrites snapshots)).get?
        (scopedFeaturesKey signal.scopeId signal.assetId interval) =
      ((lastOf interval snapshots).map StateRecord.features).or
        (online.get? (scopedFeaturesKey signal.scopeId signal.assetId interval)) := by
  have hwrites : (snapshotWrites snapshots).filter
      (fun write => write.1 = scopedFeaturesKey signal.scopeId signal.assetId interval) =
        (snapshots.filter fun snapshot => snapshot.intervalSeconds = interval).map
          fun snapshot => (scopedFeaturesKey signal.scopeId signal.assetId interval,
            StateRecord.features snapshot) := by
    clear online
    induction snapshots with
    | nil => rfl
    | cons snapshot snapshots ih =>
      obtain ⟨hfirst, hrest⟩ := List.forall_mem_cons.mp h
      have hunscoped := latestFeaturesKey_ne_scopedFeaturesKey signal.scopeId signal.assetId
        interval snapshot.intervalSeconds
      rw [snapshotWrites_cons, List.filter_append, ih hrest, List.filter_cons]
      simp only [snapshotWrites, List.flatMap_cons, List.flatMap_nil, List.append_nil,
        hfirst.scopeId, hfirst.assetId, List.filter_cons, List.filter_nil, hunscoped,
        scopedFeaturesKey_inj, decide_false, Bool.false_eq_true, if_false]
      by_cases hinterval : snapshot.intervalSeconds = interval
      · simp [hinterval]
      · simp [hinterval]
  rw [writeOnline, OrderedDict.get?_foldl_set, hwrites, List.getLast?_map, Option.map_map]
  rfl

/-- Under each key that a call writes stands a snapshot of the asset of its signal. -/
theorem get?_writeOnline_of_names (h : ∀ snapshot ∈ snapshots, RevisionFor cfg signal snapshot)
    {key : String} (hkey : key ∈ (snapshotWrites snapshots).map Prod.fst)
    (online : OrderedDict String StateRecord) :
    ∃ snapshot, (writeOnline online (snapshotWrites snapshots)).get? key = some (.features snapshot) ∧
      snapshot.scopeId = signal.scopeId ∧ snapshot.assetId = signal.assetId := by
  obtain ⟨value, hmem, hget⟩ := OrderedDict.get?_foldl_set_of_mem hkey
  obtain ⟨snapshot, hsnapshot, hwrite⟩ := List.mem_flatMap.mp hmem
  have hvalue : value = .features snapshot := by
    simp only [List.mem_cons, Prod.mk.injEq, List.not_mem_nil, or_false] at hwrite
    exact hwrite.elim And.right And.right
  exact ⟨snapshot, hvalue ▸ hget online, (h snapshot hsnapshot).scopeId,
    (h snapshot hsnapshot).assetId⟩

/-! ## Calls -/

/-- The state after a call, and the instant the call is made at. -/
def processed (cfg : EngineConfig) (st : ServiceState) (call : FeatureSignal × Datetime) :
    ServiceState :=
  (processSignal cfg call.1 call.2 st).2

/-- The call returns. -/
def Returned (cfg : EngineConfig) (st : ServiceState) (call : FeatureSignal × Datetime) : Prop :=
  ∃ snapshots, (processSignal cfg call.1 call.2 st).1 = .ok snapshots

/-- What the engine has as the latest is what is online. -/
def LatestAgrees (st : ServiceState) : Prop :=
  ∀ scopeId assetId interval snapshot,
    Features.latest st.engine assetId interval scopeId = some snapshot →
      st.online.get? (scopedFeaturesKey scopeId assetId interval) = some (.features snapshot)

/-- The keys written for a signal are not those of the windows of another scope or asset. -/
def NamesApart (cfg : EngineConfig) (signal : FeatureSignal) (st : EngineState) : Prop :=
  ∀ scopeId assetId interval, Features.latest st assetId interval scopeId ≠ none →
    (scopeId ≠ signal.scopeId ∨ assetId ≠ signal.assetId) →
      ∀ own ∈ cfg.intervals,
        scopedFeaturesKey scopeId assetId interval ≠
            scopedFeaturesKey signal.scopeId signal.assetId own ∧
          scopedFeaturesKey scopeId assetId interval ≠ latestFeaturesKey signal.assetId own

/-- The signal is a duplicate, or it closes no window before its own and its keys are its own. -/
def KeepsLatest (cfg : EngineConfig) (st : ServiceState) (call : FeatureSignal × Datetime) : Prop :=
  call.1.seenKey ∈ st.engine.seenEventIds ∨
    (∀ key, ¬ Overdue cfg call.1 st.engine key) ∧ NamesApart cfg call.1 st.engine

/-- The windows are in shape, and the latest are online. -/
structure Current (cfg : EngineConfig) (st : ServiceState) : Prop where
  shaped : Shaped cfg st.engine
  agrees : LatestAgrees st

theorem current_initial : Current cfg .initial where
  shaped := Features.shaped_initial
  agrees _ _ _ _ h := absurd h (by simp [Features.latest, Features.latestOf, ServiceState.initial,
    EngineState.initial, OrderedDict.empty])

/-- What is stored when a call returns. -/
theorem processed_of_returned {call : FeatureSignal × Datetime} (h : Returned cfg st call) :
    ∃ snapshots, Features.ingest cfg call.1 st.engine =
        (.ok snapshots, (processed cfg st call).engine) ∧
      (processed cfg st call).online = writeOnline st.online (snapshotWrites snapshots) := by
  obtain ⟨snapshots, hok⟩ := h
  obtain ⟨hingest, -, honline⟩ := processSignal_ok (Prod.ext hok rfl)
  exact ⟨snapshots, Prod.ext hingest (processSignal_engine st).symm, honline⟩

theorem shaped_processed {call : FeatureSignal × Datetime} (hs : Shaped cfg st.engine) :
    Shaped cfg (processed cfg st call).engine := by
  unfold processed
  rw [processSignal_engine]
  exact Features.shaped_ingest hs

/-- **A call that meets the condition keeps the agreement.** -/
theorem current_processed {call : FeatureSignal × Datetime} (h : Current cfg st)
    (hreturned : Returned cfg st call) (hcall : KeepsLatest cfg st call) :
    Current cfg (processed cfg st call) := by
  obtain ⟨snapshots, hingest, honline⟩ := processed_of_returned hreturned
  refine ⟨shaped_processed h.shaped, fun scopeId assetId interval snapshot hlatest => ?_⟩
  by_cases hseen : call.1.seenKey ∈ st.engine.seenEventIds
  · obtain ⟨hnil, hengine⟩ := Prod.mk.inj ((Features.ingest_of_seen hseen).symm.trans hingest)
    obtain rfl := Except.ok.inj hnil
    rw [← hengine] at hlatest
    rw [honline]
    exact h.agrees scopeId assetId interval snapshot hlatest
  · obtain ⟨hquiet, happart⟩ := hcall.resolve_left hseen
    obtain ⟨hfor, -⟩ := Features.ingest_returns h.shaped.stored hseen hingest
    obtain ⟨changed, finalized, rfl, hemits⟩ := Features.ingest_emits h.shaped hseen hingest
    obtain rfl : finalized = [] := List.eq_nil_iff_forall_not_mem.mpr fun found hfound => by
      obtain ⟨key, hkey, -⟩ := hemits.swept found hfound
      exact hquiet key hkey
    rw [List.append_nil] at hfor honline
    rw [honline]
    by_cases hown : scopeId = call.1.scopeId ∧ assetId = call.1.assetId
    · obtain ⟨rfl, rfl⟩ := hown
      obtain ⟨key, hgreatest, -, -, rfl, -⟩ :=
        (Features.latest_eq_some_iff (shaped_processed h.shaped)).mp hlatest
      obtain ⟨last, hlast, hcurrent, -⟩ := hemits.latest key.interval
        ((shaped_processed h.shaped).interval key hgreatest.mem)
      rw [get?_writeOnline_scoped hfor, hlast, ← hlatest.symm.trans hcurrent]
      rfl
    · have hother : scopeId ≠ call.1.scopeId ∨ assetId ≠ call.1.assetId :=
        not_and_or.mp hown
      rw [hemits.others scopeId assetId interval hother] at hlatest
      rw [← h.agrees scopeId assetId interval snapshot hlatest]
      refine OrderedDict.get?_foldl_set_of_not_mem (fun hwritten => ?_) st.online
      obtain ⟨write, hwrite, hkey⟩ := List.mem_map.mp hwritten
      obtain ⟨⟨own, hinterval, hform⟩, -⟩ := names_of_mem_snapshotWrites call.2 hfor hwrite
      obtain ⟨hscoped, hunscoped⟩ := happart scopeId assetId interval
        (hlatest ▸ Option.some_ne_none snapshot) hother own hinterval
      rw [hkey] at hform
      exact hform.elim hscoped hunscoped

/-- **A call that does not meet the condition breaks the agreement.**  It closes a window before that of
its signal, which is then stored in place of the latest, or it writes the key of another asset. -/
theorem not_latestAgrees_processed {call : FeatureSignal × Datetime} (h : Current cfg st)
    (hreturned : Returned cfg st call) (hcall : ¬ KeepsLatest cfg st call) :
    ¬ LatestAgrees (processed cfg st call) := by
  intro hagrees
  obtain ⟨hseen, hbroken⟩ := not_or.mp hcall
  obtain ⟨snapshots, hingest, honline⟩ := processed_of_returned hreturned
  obtain ⟨hfor, hall⟩ := Features.ingest_returns h.shaped.stored hseen hingest
  obtain ⟨changed, finalized, rfl, hemits⟩ := Features.ingest_emits h.shaped hseen hingest
  have hquiet : ∀ key, ¬ Overdue cfg call.1 st.engine key := by
    intro key hkey
    obtain ⟨closed, hclosed, hrevision⟩ := hemits.overdue key hkey
    have hinterval : key.interval ∈ cfg.intervals :=
      hrevision.intervalSeconds ▸ (hfor closed (List.mem_append_right changed hclosed)).interval
    obtain ⟨last, -, hlatest, hstart⟩ := hemits.latest key.interval hinterval
    have hsome : lastOf key.interval finalized ≠ none := fun hnone =>
      Features.lastOf_eq_none_iff.mp hnone closed hclosed hrevision.intervalSeconds
    obtain ⟨stored, hstored⟩ := Option.ne_none_iff_exists'.mp hsome
    have honlineLast := hagrees _ _ _ last hlatest
    rw [honline, get?_writeOnline_scoped hfor, Features.lastOf_append, hstored] at honlineLast
    obtain rfl : stored = last := by simpa using honlineLast
    obtain ⟨hmem, hstoredInterval⟩ := List.mem_filter.mp (List.mem_of_getLast? hstored)
    obtain ⟨early, hearly, hrevision'⟩ := hemits.swept stored hmem
    have hsame : early.interval = key.interval :=
      hrevision'.intervalSeconds.symm.trans (of_decide_eq_true hstoredInterval)
    have hbefore := hearly.early
    rw [hsame, ← hrevision'.windowStart] at hbefore
    exact absurd hstart (not_le.mpr hbefore)
  refine hbroken ⟨hquiet, fun scopeId assetId interval hpresent hother own hown => ?_⟩
  obtain ⟨snapshot, hlatest⟩ := Option.ne_none_iff_exists'.mp hpresent
  have hkept := hlatest
  rw [← hemits.others scopeId assetId interval hother] at hlatest
  obtain ⟨key, -, hscope, hasset, -, hrevised⟩ :=
    (Features.latest_eq_some_iff h.shaped).mp hkept
  have hrevision := IsRevisionOf.of_getLast? h.shaped hrevised
  -- a key of the call holds a snapshot of its signal
  have hclash : scopedFeaturesKey scopeId assetId interval ∉
      (snapshotWrites (changed ++ finalized)).map Prod.fst := by
    intro hwritten
    obtain ⟨found, hget, hfoundScope, hfoundAsset⟩ :=
      get?_writeOnline_of_names hfor hwritten st.online
    have honlineLatest := hagrees scopeId assetId interval snapshot hlatest
    rw [honline, hget] at honlineLatest
    obtain rfl : found = snapshot := by simpa using honlineLatest
    rcases hother with hne | hne
    · exact hne (hscope.symm.trans (hrevision.scopeId.symm.trans hfoundScope))
    · exact hne (hasset.symm.trans (hrevision.assetId.symm.trans hfoundAsset))
  have hnames : ¬ (ServiceCall.process call.1 call.2).Names cfg
      (scopedFeaturesKey scopeId assetId interval) := fun h =>
    hclash (mem_snapshotWrites_of_names hfor hall h)
  exact ⟨fun heq => hnames ⟨own, hown, Or.inl heq⟩, fun heq => hnames ⟨own, hown, Or.inr heq⟩⟩

/-- **The online latest features.**  In a run of calls that return, what the engine has as the latest is
online after each call if and only if every call meets the condition. -/
theorem latest_agrees_iff (cfg : EngineConfig) (calls : List (FeatureSignal × Datetime))
    (hcalls : Throughout (processed cfg) (Returned cfg) .initial calls) :
    Always (processed cfg) LatestAgrees .initial calls ↔
      Throughout (processed cfg) (KeepsLatest cfg) .initial calls :=
  Library.always_iff_throughout_of (fun _ _ h hreturned hcall => current_processed h hreturned hcall)
    (fun _ h => h.agrees) (fun _ _ h hreturned hcall => not_latestAgrees_processed h hreturned hcall)
    current_initial hcalls

/-! ## Calls that return -/

/-- Calls with well-formed arguments return. -/
theorem throughout_returned (hcfg : cfg.Registered) (hready : Ready cfg st)
    {calls : List (FeatureSignal × Datetime)}
    (hcalls : ∀ call ∈ calls, (ServiceCall.process call.1 call.2).WellFormed) :
    Throughout (processed cfg) (Returned cfg) st calls := by
  refine Library.throughout_of_invariant (fun s call hs hcall => ?_) hready hcalls
  obtain ⟨hshape, hscope, hasset⟩ := hcall
  have hsucceeds : Succeeds (Ready cfg) (processSignal cfg call.1 call.2) :=
    succeeds_processSignal hcfg hshape hscope hasset
  obtain ⟨snapshots, s', h, hs'⟩ := hsucceeds s hs
  have hprocessed : processed cfg s call = s' := congrArg Prod.snd h
  exact ⟨⟨snapshots, congrArg Prod.fst h⟩, hprocessed ▸ hs'⟩

theorem wellFormed_tradeSignal (eventId : String) (eventTime now : Datetime) :
    (ServiceCall.process (Features.tradeSignal eventId eventTime) now).WellFormed := by
  refine ⟨fun hkind => absurd hkind (by simp [Features.tradeSignal]), ?_, ?_⟩
  · show "LIVE" ≠ ""
    decide
  · show isBlank "S2MUSDT" = false
    decide

/-- A trade, delivered twice. -/
theorem latest_agrees_iff_redelivered :
    Always (processed Features.marketOnly) LatestAgrees .initial
      [(Features.tradeSignal "trade-1" Features.testStart, 0),
        (Features.tradeSignal "trade-1" Features.testStart, 0)] := by
  have hreturned : Throughout (processed Features.marketOnly) (Returned Features.marketOnly) .initial
      [(Features.tradeSignal "trade-1" Features.testStart, 0),
        (Features.tradeSignal "trade-1" Features.testStart, 0)] := by
    refine throughout_returned ⟨rfl, by decide⟩
      ⟨Features.supplied_initial, Features.storedKnown_initial⟩ fun call hcall => ?_
    obtain rfl : call = (Features.tradeSignal "trade-1" Features.testStart, 0) := by
      simpa using hcall
    exact wellFormed_tradeSignal _ _ 0
  refine (latest_agrees_iff Features.marketOnly _ hreturned).mpr
    ⟨Or.inr ⟨fun key hkey => ?_, fun _ _ _ hlatest => ?_⟩, Or.inl (by decide +kernel), trivial⟩
  · obtain ⟨last, hlast, -⟩ := hkey.isOpen
    exact absurd (Features.mem_keys_of_getLast? hlast) List.not_mem_nil
  · exact absurd rfl hlatest

/-- Two trades, two minutes apart.  The second closes the window of the first and stores it last, so
that an old window is online. -/
theorem closed_window_replaces_latest :
    let first := Features.tradeSignal "trade-1" Features.testStart
    let second := Features.tradeSignal "trade-2" (Features.testStart + timedeltaSeconds 120)
    let st := processed Features.marketOnly
      (processed Features.marketOnly .initial (first, 0)) (second, 0)
    Throughout (processed Features.marketOnly) (Returned Features.marketOnly) .initial
        [(first, 0), (second, 0)] ∧
      (Features.latest st.engine "S2MUSDT" 60 "LIVE").map (fun snapshot => snapshot.windowStart) =
        some (Features.testStart + timedeltaSeconds 120) ∧
      ((st.online.get? (scopedFeaturesKey "LIVE" "S2MUSDT" 60)).bind fun record => match record with
        | .features snapshot => some snapshot.windowStart
        | .score _ => none) = some Features.testStart ∧
      ¬ Always (processed Features.marketOnly) LatestAgrees .initial [(first, 0), (second, 0)] := by
  intro first second st
  have hreturned : Throughout (processed Features.marketOnly) (Returned Features.marketOnly) .initial
      [(first, 0), (second, 0)] := by
    refine throughout_returned ⟨rfl, by decide⟩
      ⟨Features.supplied_initial, Features.storedKnown_initial⟩ fun call hcall => ?_
    rcases List.mem_pair.mp hcall with rfl | rfl
    · exact wellFormed_tradeSignal _ _ 0
    · exact wellFormed_tradeSignal _ _ 0
  have hlatest : (Features.latest st.engine "S2MUSDT" 60 "LIVE").map (fun snapshot => snapshot.windowStart) =
      some (Features.testStart + timedeltaSeconds 120) := by
    decide +kernel
  have honline : ((st.online.get? (scopedFeaturesKey "LIVE" "S2MUSDT" 60)).bind fun record =>
      match record with
      | .features snapshot => some snapshot.windowStart
      | .score _ => none) = some Features.testStart := by
    decide +kernel
  refine ⟨hreturned, hlatest, honline, fun halways => ?_⟩
  obtain ⟨snapshot, hsnapshot, hstart⟩ := Option.map_eq_some_iff.mp hlatest
  have hagrees := halways.2.2 "LIVE" "S2MUSDT" 60 snapshot hsnapshot
  rw [show st.online.get? (scopedFeaturesKey "LIVE" "S2MUSDT" 60) = some (.features snapshot) from
    hagrees, Option.bind_some] at honline
  exact absurd (hstart.symm.trans (Option.some.inj honline)) (by decide)

end Services
end Scam2Market
