import Scam2Market.Features.Totality

/-!
# Incremental equals batch

Signals arrive one at a time and in any order.  The last revision of a window nevertheless holds
what one computes from scratch from the set of all signals.

* `WindowKey.Contains`, `windowSignals`, `earlierStarts` and `batchInputs` say what is computed from
  scratch; they mention neither the engine nor an order of arrival.
* `FreshAt`: the last revision of a window agrees with the signals stored now.  A new signal makes
  its own window and the later windows of the interval stale (`Fresh` carries the set of stale
  windows), and `ingestInterval` rebuilds exactly these.
* `EventsOf`: the stored signals are those of the log, window by window.
* `last_revision_eq_batch` puts the two together.
-/

namespace Scam2Market
namespace Features

open Library
open Library.Procedure

variable {cfg : EngineConfig}

/-! ## From scratch -/

/-- A signal of the scope and asset of a window, between its start and its end. -/
def WindowKey.Contains (key : WindowKey) (signal : FeatureSignal) : Prop :=
  signal.scopeId = key.scopeId ∧ signal.assetId = key.assetId ∧
    key.windowStart ≤ signal.eventTime ∧ signal.eventTime < key.windowEnd

instance (key : WindowKey) (signal : FeatureSignal) : Decidable (key.Contains signal) :=
  inferInstanceAs (Decidable (signal.scopeId = key.scopeId ∧ signal.assetId = key.assetId ∧
    key.windowStart ≤ signal.eventTime ∧ signal.eventTime < key.windowEnd))

/-- Windows start at the multiples of their interval. -/
def WindowKey.Aligned (key : WindowKey) : Prop :=
  ∃ n : ℤ, key.windowStart = timedeltaSeconds (key.interval * n)

/-- The signals of a window, in order. -/
def windowSignals (signals : List FeatureSignal) (key : WindowKey) : List FeatureSignal :=
  sortSignals (signals.filter fun signal => key.Contains signal)

/-- The starts of the earlier windows with signals, in order. -/
def earlierStarts (signals : List FeatureSignal) (key : WindowKey) : List Datetime :=
  ((signals.filter fun signal => decide (signal.scopeId = key.scopeId ∧
      signal.assetId = key.assetId ∧ floorWindow signal.eventTime key.interval < key.windowStart)).map
    fun signal => floorWindow signal.eventTime key.interval).dedup.insertionSort (· ≤ ·)

/-- The same window at another start. -/
def WindowKey.at (key : WindowKey) (start : Datetime) : WindowKey :=
  { key with windowStart := start }

/-- What the formulas of a window read, from the set of all signals. -/
def batchInputs (signals : List FeatureSignal) (key : WindowKey) : WindowInputs where
  windowStart := key.windowStart
  windowEnd := key.windowEnd
  events := windowSignals signals key
  trailingVolumes := lastTwenty ((earlierStarts signals key).map fun start =>
    rawVolume (windowSignals signals (key.at start)))
  priorWindowCount := (earlierStarts signals key).length

/-! ## Windows of signals -/

/-- After the epoch, the window of an instant starts at a multiple of the interval and the instant
lies between its start and its end. -/
theorem floorWindow_spec {value : ℤ} (htime : 0 ≤ value) {interval : ℕ}
    (hpos : 0 < interval) :
    ∃ n : ℤ, floorWindow value interval = timedeltaSeconds (interval * n) ∧
      timedeltaSeconds (interval * n) ≤ value ∧
        value < timedeltaSeconds (interval * n) + timedeltaSeconds interval := by
  have hi : (0 : ℤ) < interval := by exact_mod_cast hpos
  have hdiv : value.tdiv 1000000 = value / 1000000 := Int.tdiv_eq_ediv_of_nonneg htime
  have hsec := Int.mul_ediv_add_emod (value / 1000000) interval
  have hr := Int.emod_nonneg (value / 1000000) hi.ne'
  have hr' := Int.emod_lt_of_pos (value / 1000000) hi
  have hsplit := Int.mul_ediv_add_emod value 1000000
  have hm := Int.emod_nonneg value (b := 1000000) (by omega)
  have hm' := Int.emod_lt_of_pos value (b := 1000000) (by omega)
  refine ⟨value / 1000000 / interval, ?_, ?_, ?_⟩
  · unfold floorWindow
    simp only [hdiv]
    congr 1
    omega
  · show (interval * (value / 1000000 / interval) * 1000000 : ℤ) ≤ value
    omega
  · show value < (interval * (value / 1000000 / interval) * 1000000 + interval * 1000000 : ℤ)
    omega

/-- An instant lies in one window only. -/
theorem multiple_unique {value : ℤ} {interval : ℕ} (hpos : 0 < interval) {m n : ℤ}
    (hm : timedeltaSeconds (interval * m) ≤ value)
    (hn : value < timedeltaSeconds (interval * n) + timedeltaSeconds interval) : m ≤ n := by
  have hi : (0 : ℤ) < interval := by exact_mod_cast hpos
  have hm' : (interval * m * 1000000 : ℤ) ≤ value := hm
  have hn' : value < (interval * n * 1000000 + interval * 1000000 : ℤ) := hn
  have hlt : (interval : ℤ) * m < interval * (n + 1) := by
    rw [mul_add, mul_one]
    omega
  have h := lt_of_mul_lt_mul_left hlt hi.le
  omega

/-- After the epoch, the window of a signal is the aligned window that contains it. -/
theorem windowKey_eq_iff {signal : FeatureSignal} (htime : 0 ≤ signal.eventTime) {key : WindowKey}
    (hpos : 0 < key.interval) :
    signal.windowKey key.interval = key ↔ key.Aligned ∧ key.Contains signal := by
  obtain ⟨n, hfloor, hlo, hhi⟩ := floorWindow_spec htime hpos
  constructor
  · intro h
    have hstart : key.windowStart = timedeltaSeconds (key.interval * n) := by
      rw [← h]
      exact hfloor
    have hscope : signal.scopeId = key.scopeId := congrArg WindowKey.scopeId h
    have hasset : signal.assetId = key.assetId := congrArg WindowKey.assetId h
    refine ⟨⟨n, hstart⟩, hscope, hasset, ?_, ?_⟩
    · rw [hstart]
      exact hlo
    · rw [WindowKey.windowEnd, hstart]
      exact hhi
  · rintro ⟨⟨m, hm⟩, hscope, hasset, hlo', hhi'⟩
    rw [WindowKey.windowEnd, hm] at hhi'
    rw [hm] at hlo'
    have hmn : m = n := le_antisymm (multiple_unique hpos hlo' hhi) (multiple_unique hpos hlo hhi')
    obtain ⟨scopeId, assetId, start, interval⟩ := key
    unfold FeatureSignal.windowKey
    simp only at hfloor hscope hasset hm ⊢
    rw [hfloor, hscope, hasset, hm, hmn]

/-! ## The stored signals -/

/-- The windows of the engine with a signal put into its window of an interval. -/
def storeIn (signal : FeatureSignal) (events : OrderedDict WindowKey (List FeatureSignal))
    (interval : ℕ) : OrderedDict WindowKey (List FeatureSignal) :=
  events.set (signal.windowKey interval)
    (events.getD (signal.windowKey interval) [] ++ [signal])

theorem get?_foldl_storeIn (signal : FeatureSignal) {intervals : List ℕ} (hnodup : intervals.Nodup)
    (events : OrderedDict WindowKey (List FeatureSignal)) (key : WindowKey) :
    (intervals.foldl (storeIn signal) events).get? key =
      if key.interval ∈ intervals ∧ signal.windowKey key.interval = key then
        some (events.getD key [] ++ [signal])
      else events.get? key := by
  induction intervals generalizing events with
  | nil => simp
  | cons interval intervals ih =>
    obtain ⟨hout, hnodup'⟩ := List.nodup_cons.mp hnodup
    rw [List.foldl_cons, ih hnodup']
    by_cases hown : signal.windowKey interval = key
    · -- the window of the first interval; it is not written again
      have hint : key.interval = interval := by rw [← hown]; rfl
      have hne : ¬ (key.interval ∈ intervals ∧ signal.windowKey key.interval = key) := by
        rintro ⟨hmem, -⟩
        exact hout (hint ▸ hmem)
      have hcond : key.interval ∈ interval :: intervals ∧ signal.windowKey key.interval = key := by
        rw [hint]
        exact ⟨List.mem_cons_self, hown⟩
      rw [if_neg hne, if_pos hcond, storeIn, hown, OrderedDict.get?_set_self]
    · have hget : (storeIn signal events interval).get? key = events.get? key :=
        OrderedDict.get?_set_of_ne _ _ fun heq => hown heq.symm
      have hiff : (key.interval ∈ interval :: intervals ∧ signal.windowKey key.interval = key) ↔
          (key.interval ∈ intervals ∧ signal.windowKey key.interval = key) := by
        rw [List.mem_cons]
        constructor
        · rintro ⟨rfl | hmem, hkey⟩
          · exact absurd hkey hown
          · exact ⟨hmem, hkey⟩
        · rintro ⟨hmem, hkey⟩
          exact ⟨Or.inr hmem, hkey⟩
      rw [hget, OrderedDict.getD, hget, OrderedDict.getD]
      simp only [hiff]

/-- The signals of a log in a window of the engine, in the order of arrival. -/
def arrivals (log : List FeatureSignal) (key : WindowKey) : List FeatureSignal :=
  log.filter fun signal => signal.windowKey key.interval = key

/-- The stored signals are those of the log. -/
def EventsOf (cfg : EngineConfig) (log : List FeatureSignal)
    (events : OrderedDict WindowKey (List FeatureSignal)) : Prop :=
  ∀ key, events.get? key =
    if key.interval ∈ cfg.intervals ∧ arrivals log key ≠ [] then some (arrivals log key) else none

theorem EventsOf.getD {log : List FeatureSignal}
    {events : OrderedDict WindowKey (List FeatureSignal)} (h : EventsOf cfg log events)
    {key : WindowKey} (hmem : key.interval ∈ cfg.intervals) :
    events.getD key [] = arrivals log key := by
  unfold OrderedDict.getD
  rw [h key]
  by_cases hne : arrivals log key = []
  · rw [if_neg fun hc => hc.2 hne, hne]
    rfl
  · rw [if_pos ⟨hmem, hne⟩]
    rfl

theorem eventsOf_foldl_storeIn (hnodup : cfg.intervals.Nodup) {log : List FeatureSignal}
    {events : OrderedDict WindowKey (List FeatureSignal)} (h : EventsOf cfg log events)
    (signal : FeatureSignal) :
    EventsOf cfg (log ++ [signal]) (cfg.intervals.foldl (storeIn signal) events) := by
  intro key
  have harr : arrivals (log ++ [signal]) key =
      arrivals log key ++ if signal.windowKey key.interval = key then [signal] else [] := by
    unfold arrivals
    rw [List.filter_append, List.filter_singleton]
    by_cases hkey : signal.windowKey key.interval = key
    · rw [if_pos hkey, decide_eq_true hkey]
      rfl
    · rw [if_neg hkey, decide_eq_false hkey]
      rfl
  rw [get?_foldl_storeIn signal hnodup, harr]
  by_cases hkey : signal.windowKey key.interval = key
  · by_cases hmem : key.interval ∈ cfg.intervals
    · rw [if_pos ⟨hmem, hkey⟩, if_pos hkey, h.getD hmem, if_pos ⟨hmem, by simp⟩]
    · rw [if_neg fun hc => hmem hc.1, if_neg fun hc => hmem hc.1, h key, if_neg fun hc => hmem hc.1]
  · rw [if_neg fun hc => hkey hc.2, if_neg hkey, List.append_nil, h key]

/-! ## Stale and fresh windows -/

/-- The last revision of a window agrees with the signals stored now. -/
def FreshAt (st : EngineState) (key : WindowKey) : Prop :=
  ∀ stored, st.events.get? key = some stored →
    ∃ last, (st.revisionsOf key).getLast? = some last ∧
      last.lineage = lineageOf key last.revision (sortSignals stored) ∧
        ∀ name ∈ intrinsicNames,
          last.features name = (windowInputs st.events key (sortSignals stored)).feature name

/-- All windows but the stale ones are fresh. -/
def Fresh (stale : WindowKey → Prop) (st : EngineState) : Prop :=
  ∀ key, ¬ stale key → FreshAt st key

theorem computeFeatures_intrinsic {st : EngineState} {key : WindowKey}
    {signals : List FeatureSignal} {features : FeatureValues}
    (h : computeFeatures st key signals = .ok features) :
    ∀ name ∈ intrinsicNames, features name = (windowInputs st.events key signals).feature name := by
  intro name hname
  unfold computeFeatures at h
  simp only at h
  rcases hurls : socialUrls (windowInputs st.events key signals).social with e | urls
  · rw [hurls] at h
    exact absurd h (by simp [bind, Except.bind])
  · rcases htags : hashtagCount (windowInputs st.events key signals).social with e | tags
    · rw [hurls, htags] at h
      exact absurd h (by simp [bind, Except.bind])
    · rw [hurls, htags] at h
      rw [← Except.ok.inj h]
      simp only [intrinsicNames, List.mem_cons, List.not_mem_nil, or_false] at hname
      rcases hname with rfl | rfl | rfl | rfl | rfl | rfl | rfl | rfl | rfl | rfl | rfl | rfl | rfl |
        rfl | rfl <;> rfl

/-- A window that was just built is fresh. -/
theorem Built.freshAt_self {key : WindowKey} {forceFinal : Bool} {s s' : EngineState}
    {snapshot : FeatureSnapshot} (hb : Built cfg key forceFinal s snapshot s') : FreshAt s' key := by
  obtain ⟨stored, mark, t, hstored, -, ht, hmake, -⟩ := id hb
  obtain ⟨features, hcompute, hfields⟩ := makeSnapshot_eq_ok hmake
  have hrev : snapshot.revision = (s.revisionsOf key).length + 1 := by rw [hfields]; rfl
  intro stored' hstored'
  rw [hb.events, hstored] at hstored'
  obtain rfl := Option.some.inj hstored'
  refine ⟨snapshot, ?_, ?_, fun name hname => ?_⟩
  · rw [hb.revisionsOf_self, List.getLast?_concat]
  · rw [hrev, hfields]
    rfl
  · have hval : snapshot.features name = features name := by rw [hfields]; rfl
    rw [hval, computeFeatures_intrinsic hcompute name hname, hb.events, ht.events]

theorem Built.freshAt_of_ne {key : WindowKey} {forceFinal : Bool} {s s' : EngineState}
    {snapshot : FeatureSnapshot} (hb : Built cfg key forceFinal s snapshot s') {key' : WindowKey}
    (hne : key' ≠ key) (h : FreshAt s key') : FreshAt s' key' := by
  intro stored hstored
  rw [hb.events] at hstored ⊢
  rw [hb.revisionsOf_of_ne hne]
  exact h stored hstored

/-- A build makes its window fresh and no other window stale. -/
theorem Built.fresh {stale stale' : WindowKey → Prop} {key : WindowKey} {forceFinal : Bool}
    {s s' : EngineState} {snapshot : FeatureSnapshot} (hb : Built cfg key forceFinal s snapshot s')
    (hs : Fresh stale s) (hstale : ∀ key', key' ≠ key → stale key' → stale' key') :
    Fresh stale' s' := by
  intro key' hkey'
  by_cases heq : key' = key
  · rw [heq]
    exact hb.freshAt_self
  · exact hb.freshAt_of_ne heq (hs key' fun h => hkey' (hstale key' heq h))

/-- A new signal makes its own window and the later ones stale, and no others. -/
theorem fresh_appendEvent {key : WindowKey} {signal : FeatureSignal} {s : EngineState}
    (hs : Fresh (fun _ => False) s) :
    Fresh (fun key' => key' = key ∨ isEarlier key' key = true) (appendEvent key signal s) := by
  intro key' hkey' stored hstored
  obtain ⟨hne, hearlier⟩ := not_or.mp hkey'
  have hget : (appendEvent key signal s).events.get? key' = s.events.get? key' :=
    OrderedDict.get?_set_of_ne _ _ hne
  rw [hget] at hstored
  obtain ⟨last, hlast, hlineage, hfeatures⟩ := hs key' (fun h => h) stored hstored
  refine ⟨last, hlast, hlineage, fun name hname => ?_⟩
  rw [hfeatures name hname]
  exact congrArg (fun w => WindowInputs.feature w name)
    (windowInputs_set s.events (Bool.eq_false_iff.mpr hearlier) _ _).symm

/-- No window is stale. -/
abbrev AllFresh (st : EngineState) : Prop :=
  Fresh (fun _ => False) st

/-- Rebuilding the stale windows makes everything fresh. -/
theorem allFresh_of_rebuild {keys : List WindowKey} {s s' : EngineState}
    {snapshots : List FeatureSnapshot} (hs : Fresh (fun key => key ∈ keys) s)
    (h : forEach (rebuildDownstream cfg) keys s = (.ok snapshots, s')) :
    AllFresh s' ∧ s'.events = s.events := by
  have hstep : ∀ key keys t snapshot t',
      (Fresh (fun key' => key' ∈ key :: keys) t ∧ t.events = s.events) →
      rebuildDownstream cfg key t = (.ok snapshot, t') →
      Fresh (fun key' => key' ∈ keys) t' ∧ t'.events = s.events := by
    rintro key keys t snapshot t' ⟨hfresh, hev⟩ hround
    have hb := buildRevision_ok (rebuildDownstream_apply key t ▸ hround)
    refine ⟨hb.fresh hfresh fun key' hne hmem => ?_, hb.events.trans hev⟩
    exact (List.mem_cons.mp hmem).resolve_left hne
  obtain ⟨hfresh, hev⟩ := forEach_invariant
    (P := fun keys t => Fresh (fun key' => key' ∈ keys) t ∧ t.events = s.events)
    hstep ⟨hs, rfl⟩ h
  exact ⟨fun key _ => hfresh key List.not_mem_nil, hev⟩

/-- **One interval.**  The signal is stored, and everything it made stale is rebuilt. -/
theorem allFresh_ingestInterval {signal : FeatureSignal} {interval : ℕ} {s s' : EngineState}
    {snapshots : List FeatureSnapshot} (hs : AllFresh s)
    (h : ingestInterval cfg signal interval s = (.ok snapshots, s')) :
    AllFresh s' ∧ s'.events = storeIn signal s.events interval := by
  unfold ingestInterval at h
  simp only [modify_bind] at h
  obtain ⟨own, t, hown, h⟩ := bind_eq_ok.mp h
  rw [reading_bind] at h
  obtain ⟨rebuilt, u, hrebuilt, hret⟩ := bind_eq_ok.mp h
  obtain rfl : u = s' := congrArg Prod.snd hret
  have hb := buildRevision_ok hown
  -- after the build of its own window the later windows are stale
  have hlater : Fresh (fun key => isEarlier key (signal.windowKey interval) = true) t :=
    hb.fresh (fresh_appendEvent hs) fun key hne hstale => hstale.resolve_left hne
  -- and those with signals are among the windows that are rebuilt
  have hdown : Fresh (fun key => key ∈ downstreamKeys t (signal.windowKey interval)) t := by
    intro key hkey
    by_cases hearlier : isEarlier key (signal.windowKey interval) = true
    · intro stored hstored
      exfalso
      obtain ⟨hscope, hasset, hint, hstart⟩ := isEarlier_iff.mp hearlier
      have hne : key ≠ signal.windowKey interval := by
        intro heq
        rw [heq] at hstart
        exact lt_irrefl _ hstart
      have hold : s.events.get? key = some stored := by
        rw [← hstored, hb.events]
        exact (OrderedDict.get?_set_of_ne _ _ hne).symm
      obtain ⟨last, hlast, -⟩ := hs key (fun h => h) stored hold
      refine hkey (mem_downstreamKeys.mpr ⟨?_, hscope.symm, hasset.symm, hint.symm, hstart⟩)
      have hrev : t.revisionsOf key = s.revisionsOf key := hb.revisionsOf_of_ne hne
      by_contra hout
      rw [← hrev, EngineState.revisionsOf, OrderedDict.getD,
        OrderedDict.get?_eq_none_iff.mpr hout] at hlast
      exact absurd hlast (by simp)
    · exact hlater key hearlier
  obtain ⟨hfresh, hev⟩ := allFresh_of_rebuild hdown hrebuilt
  exact ⟨hfresh, hev.trans hb.events⟩

/-- The sweep stores nothing and makes nothing stale. -/
theorem allFresh_finalizeEligible {scopeId assetId : String} {s s' : EngineState}
    {snapshots : List FeatureSnapshot} (hs : AllFresh s)
    (h : finalizeEligible cfg scopeId assetId s = (.ok snapshots, s')) :
    AllFresh s' ∧ s'.events = s.events := by
  have hquery : ∀ key' asset' t u, Queried cfg key' asset' t u →
      AllFresh t ∧ t.events = s.events → AllFresh u ∧ u.events = s.events := by
    rintro _ _ t u hu ⟨hfresh, hev⟩
    refine ⟨fun key hkey stored hstored => ?_, hu.events.trans hev⟩
    rw [hu.events] at hstored ⊢
    rw [hu.revisionsOf]
    exact hfresh key hkey stored hstored
  have hfinal : AllFresh (finalizeEligible cfg scopeId assetId s).2 ∧
      (finalizeEligible cfg scopeId assetId s).2.events = s.events := by
    refine finalizeEligible_of_watermark (P := fun t => AllFresh t ∧ t.events = s.events)
      (fun key _ _ t ht => ?_) ?_
    · rcases buildRevision_cases cfg key true t with ⟨e, u, hu, he⟩ | ⟨snapshot, u, hb, hok⟩
      · rw [he]
        exact hquery _ _ t u hu ht
      · rw [hok]
        exact ⟨hb.fresh ht.1 fun _ _ hstale => hstale, hb.events.trans ht.2⟩
    · obtain ⟨t, ht, hwm⟩ := watermark_apply cfg scopeId assetId s
      rw [hwm]
      exact hquery _ _ s t ht ⟨hs, rfl⟩
  rw [h] at hfinal
  exact hfinal

/-! ## Runs -/

/-- The invariant of the runs: the stored signals are those of the log, and no window is stale. -/
def InStep (cfg : EngineConfig) (st : EngineState) : Prop :=
  EventsOf cfg st.signalLog st.events ∧ AllFresh st

theorem inStep_ingest (hnodup : cfg.intervals.Nodup) {signal : FeatureSignal} {s s' : EngineState}
    {snapshots : List FeatureSnapshot} (hs : InStep cfg s)
    (h : ingest cfg signal s = (.ok snapshots, s')) : InStep cfg s' := by
  by_cases hseen : signal.seenKey ∈ s.seenEventIds
  · rw [ingest_of_seen hseen] at h
    obtain rfl : s = s' := congrArg Prod.snd h
    exact hs
  · have hlog : s'.signalLog = s.signalLog ++ [signal] := by
      have hsteps : EngineSteps cfg signal (register signal s) (ingest cfg signal s).2 :=
        ingest_steps hseen
      rw [h] at hsteps
      exact hsteps.marked.signalLog
    rw [ingest_of_new hseen] at h
    obtain ⟨changed, t, hchanged, h⟩ := bind_eq_ok.mp h
    obtain ⟨finalized, u, hfinal, hret⟩ := bind_eq_ok.mp h
    obtain rfl : u = s' := congrArg Prod.snd hret
    obtain ⟨parts, hloop, -⟩ := flatForEach_eq_ok.mp hchanged
    -- the loop: what is left to store turns the present windows into the final ones
    let Stored : List ℕ → EngineState → Prop := fun intervals t => AllFresh t ∧
      intervals.foldl (storeIn signal) t.events = cfg.intervals.foldl (storeIn signal) s.events
    have hstep : ∀ interval intervals t snapshots t', Stored (interval :: intervals) t →
        ingestInterval cfg signal interval t = (.ok snapshots, t') → Stored intervals t' := by
      intro interval intervals t snapshots t' ht hround
      obtain ⟨hfresh, hev⟩ := allFresh_ingestInterval ht.1 hround
      refine ⟨hfresh, ?_⟩
      rw [hev, ← ht.2, List.foldl_cons]
    have hstart : Stored cfg.intervals (register signal s) := ⟨hs.2, rfl⟩
    have hinv := forEach_invariant hstep hstart hloop
    obtain ⟨hfresh, hev⟩ := allFresh_finalizeEligible hinv.1 hfinal
    refine ⟨?_, hfresh⟩
    rw [hlog, hev, show t.events = _ from hinv.2]
    exact eventsOf_foldl_storeIn hnodup hs.1 signal

theorem inStep_run (hnodup : cfg.intervals.Nodup) {run : List FeatureSignal}
    (hok : AllOk (runAll (ingest cfg) run .initial).1) :
    InStep cfg (runAll (ingest cfg) run .initial).2 := by
  have hinitial : InStep cfg .initial := by
    refine ⟨fun key => ?_, fun key _ stored hstored => absurd hstored ?_⟩
    · rw [if_neg fun hc => hc.2 rfl]
      rfl
    · simp [EngineState.initial]
  exact runAll_invariant_of_ok hinitial hok fun _ _ _ _ _ hs h => inStep_ingest hnodup hs h

/-- Signals with different ids are all logged, in the order of arrival. -/
theorem signalLog_run (cfg : EngineConfig) {run : List FeatureSignal} {s : EngineState}
    (hnodup : (run.map FeatureSignal.seenKey).Nodup)
    (hnew : ∀ signal ∈ run, signal.seenKey ∉ s.seenEventIds) :
    (runAll (ingest cfg) run s).2.signalLog = s.signalLog ++ run := by
  induction run generalizing s with
  | nil => exact (List.append_nil _).symm
  | cons signal run ih =>
    rw [List.map_cons, List.nodup_cons] at hnodup
    have hsteps : EngineSteps cfg signal (register signal s) (ingest cfg signal s).2 :=
      ingest_steps (hnew signal List.mem_cons_self)
    have hmarked := hsteps.marked
    have hlog : (ingest cfg signal s).2.signalLog = s.signalLog ++ [signal] := hmarked.signalLog
    have hseen : (ingest cfg signal s).2.seenEventIds = insert signal.seenKey s.seenEventIds :=
      hmarked.seenEventIds
    rw [runAll_cons, ih hnodup.2, hlog, List.append_assoc]
    · rfl
    · intro other hother
      rw [hseen, Finset.mem_insert, not_or]
      refine ⟨fun heq => hnodup.1 ?_, hnew other (List.mem_cons_of_mem signal hother)⟩
      rw [← heq]
      exact List.mem_map_of_mem hother

/-! ## The stored signals from scratch -/

instance : Std.Total FeatureSignal.Before :=
  ⟨fun a b => by
    rcases lt_trichotomy a.eventTime b.eventTime with h | h | h
    · exact Or.inl (Or.inl h)
    · rcases le_total a.eventId b.eventId with hid | hid
      · exact Or.inl (Or.inr ⟨h, hid⟩)
      · exact Or.inr (Or.inr ⟨h.symm, hid⟩)
    · exact Or.inr (Or.inl h)⟩

instance : IsTrans FeatureSignal FeatureSignal.Before :=
  ⟨fun a b c hab hbc => by
    rcases hab with hab | ⟨hab, hid⟩
    · rcases hbc with hbc | ⟨hbc, -⟩
      · exact Or.inl (hab.trans hbc)
      · exact Or.inl (hbc ▸ hab)
    · rcases hbc with hbc | ⟨hbc, hid'⟩
      · exact Or.inl (hab ▸ hbc)
      · exact Or.inr ⟨hab.trans hbc, hid.trans hid'⟩⟩

section FromScratch

variable {signals order : List FeatureSignal}

theorem mem_arrivals {signal : FeatureSignal} {key : WindowKey} :
    signal ∈ arrivals order key ↔ signal ∈ order ∧ signal.windowKey key.interval = key := by
  rw [arrivals, List.mem_filter, decide_eq_true_iff]

/-- The stored signals of a window, sorted, are those one finds in the set of all signals. -/
theorem sortSignals_arrivals (hperm : order.Perm signals)
    (htime : ∀ signal ∈ signals, 0 ≤ signal.eventTime)
    (hids : (signals.map FeatureSignal.seenKey).Nodup) {key : WindowKey} (hpos : 0 < key.interval)
    (haligned : key.Aligned) : sortSignals (arrivals order key) = windowSignals signals key := by
  have hmem : ∀ signal ∈ order, signal.windowKey key.interval = key ↔ key.Contains signal := by
    intro signal hsignal
    rw [windowKey_eq_iff (htime signal (hperm.mem_iff.mp hsignal)) hpos]
    exact and_iff_right haligned
  have hfilter : arrivals order key = order.filter fun signal => key.Contains signal := by
    unfold arrivals
    refine List.filter_congr fun signal hsignal => ?_
    rw [decide_eq_decide]
    exact hmem signal hsignal
  rw [hfilter]
  unfold sortSignals windowSignals
  refine insertionSort_eq_of_perm _ (hperm.filter _) fun a ha b hb hab hba => ?_
  -- two signals of the window that precede each other have the same time and the same id
  obtain ⟨ha, hca⟩ := List.mem_filter.mp ha
  obtain ⟨hb, hcb⟩ := List.mem_filter.mp hb
  have hscope : a.scopeId = b.scopeId :=
    (of_decide_eq_true hca).1.trans (of_decide_eq_true hcb).1.symm
  have hid : a.eventId = b.eventId := by
    rcases hab with hab | ⟨hab, hid⟩
    · rcases hba with hba | ⟨hba, -⟩
      · exact absurd hab (lt_asymm hba)
      · exact absurd hab (hba ▸ lt_irrefl _)
    · rcases hba with hba | ⟨-, hid'⟩
      · exact absurd hba (hab ▸ lt_irrefl _)
      · exact le_antisymm hid hid'
  exact List.inj_on_of_nodup_map hids (hperm.mem_iff.mp ha) (hperm.mem_iff.mp hb)
    (Prod.ext hscope hid)

variable {events : OrderedDict WindowKey (List FeatureSignal)}

/-- The earlier windows of the engine, by their start. -/
def earlierItems (events : OrderedDict WindowKey (List FeatureSignal)) (key : WindowKey) :
    List (WindowKey × List FeatureSignal) :=
  (byStart events.entries).filter fun item => isEarlier key item.1

theorem mem_earlierItems {key : WindowKey} {item : WindowKey × List FeatureSignal} :
    item ∈ earlierItems events key ↔
      events.get? item.1 = some item.2 ∧ isEarlier key item.1 = true := by
  rw [earlierItems, List.mem_filter, byStart, List.mem_insertionSort, ← OrderedDict.mem_entries_iff]

/-- An earlier window of the engine holds the signals of an aligned window. -/
theorem arrivals_of_mem_earlierItems (hev : EventsOf cfg order events) (hperm : order.Perm signals)
    (htime : ∀ signal ∈ signals, 0 ≤ signal.eventTime) {key : WindowKey} (hpos : 0 < key.interval)
    {item : WindowKey × List FeatureSignal} (hitem : item ∈ earlierItems events key) :
    item.1 = key.at item.1.windowStart ∧ item.2 = arrivals order item.1 ∧ item.1.Aligned ∧
      ∃ signal ∈ signals, signal.windowKey key.interval = item.1 := by
  obtain ⟨hget, hearlier⟩ := mem_earlierItems.mp hitem
  obtain ⟨hscope, hasset, hint, -⟩ := isEarlier_iff.mp hearlier
  rw [hev item.1] at hget
  by_cases hcond : item.1.interval ∈ cfg.intervals ∧ arrivals order item.1 ≠ []
  · rw [if_pos hcond] at hget
    obtain ⟨signal, hsignal⟩ := List.exists_mem_of_ne_nil _ hcond.2
    obtain ⟨hmem, hkey⟩ := mem_arrivals.mp hsignal
    have hmem' : signal ∈ signals := hperm.mem_iff.mp hmem
    have hpos' : 0 < item.1.interval := by
      rw [hint]
      exact hpos
    refine ⟨?_, (Option.some.inj hget).symm, ((windowKey_eq_iff (htime signal hmem') hpos').mp hkey).1,
      signal, hmem', by rw [← hint]; exact hkey⟩
    obtain ⟨⟨scopeId, assetId, start, interval⟩, stored⟩ := item
    obtain ⟨keyScope, keyAsset, keyStart, keyInterval⟩ := key
    simp only at hscope hasset hint
    rw [hscope, hasset, hint]
    rfl
  · rw [if_neg hcond] at hget
    exact absurd hget (by simp)

/-- The starts of the earlier windows of the engine are those one finds in the set of signals. -/
theorem starts_earlierItems (hev : EventsOf cfg order events) (hperm : order.Perm signals)
    (htime : ∀ signal ∈ signals, 0 ≤ signal.eventTime) {key : WindowKey}
    (hmem : key.interval ∈ cfg.intervals) :
    (earlierItems events key).map (fun item => item.1.windowStart) = earlierStarts signals key := by
  have hpos := cfg.intervals_pos key.interval hmem
  have hsorted : ((earlierItems events key).map fun item => item.1.windowStart).Pairwise
      (· ≤ ·) := by
    rw [List.pairwise_map]
    exact (List.pairwise_insertionSort _ _).sublist List.filter_sublist
  have hnodup : ((earlierItems events key).map fun item => item.1.windowStart).Nodup := by
    have hkeys : (earlierItems events key).Nodup := by
      have hentries : events.entries.Nodup := events.nodup.of_map
      exact ((List.perm_insertionSort _ _).nodup_iff.mpr hentries).filter _
    refine hkeys.map_on fun a ha b hb hab => ?_
    obtain ⟨hka, -⟩ := arrivals_of_mem_earlierItems hev hperm htime hpos ha
    obtain ⟨hkb, -⟩ := arrivals_of_mem_earlierItems hev hperm htime hpos hb
    have hkey : a.1 = b.1 := by rw [hka, hkb, hab]
    have hga := (mem_earlierItems.mp ha).1
    rw [hkey, (mem_earlierItems.mp hb).1] at hga
    exact Prod.ext hkey (Option.some.inj hga).symm
  have hiff : ∀ start, start ∈ (earlierItems events key).map (fun item => item.1.windowStart) ↔
      start ∈ earlierStarts signals key := by
    intro start
    rw [earlierStarts, List.mem_insertionSort, List.mem_dedup, List.mem_map, List.mem_map]
    constructor
    · rintro ⟨item, hitem, rfl⟩
      obtain ⟨-, -, -, signal, hsignal, hkey⟩ :=
        arrivals_of_mem_earlierItems hev hperm htime hpos hitem
      obtain ⟨hscope, hasset, -, hlt⟩ := isEarlier_iff.mp (mem_earlierItems.mp hitem).2
      have hstart : floorWindow signal.eventTime key.interval = item.1.windowStart :=
        congrArg WindowKey.windowStart hkey
      refine ⟨signal, List.mem_filter.mpr ⟨hsignal, decide_eq_true ⟨?_, ?_, ?_⟩⟩, hstart⟩
      · rw [← hscope, ← hkey]
        rfl
      · rw [← hasset, ← hkey]
        rfl
      · rw [hstart]
        exact hlt
    · rintro ⟨signal, hsignal, rfl⟩
      obtain ⟨hsignal, hcond⟩ := List.mem_filter.mp hsignal
      obtain ⟨hscope, hasset, hlt⟩ := of_decide_eq_true hcond
      have harr : signal ∈ arrivals order (signal.windowKey key.interval) :=
        mem_arrivals.mpr ⟨hperm.mem_iff.mpr hsignal, rfl⟩
      refine ⟨(signal.windowKey key.interval, arrivals order (signal.windowKey key.interval)),
        mem_earlierItems.mpr ⟨?_, isEarlier_iff.mpr ⟨hscope, hasset, rfl, hlt⟩⟩, rfl⟩
      rw [hev, if_pos ⟨hmem, List.ne_nil_of_mem harr⟩]
  have hsorted' : (earlierStarts signals key).Pairwise (· ≤ ·) := List.pairwise_insertionSort _ _
  have hnodup' : (earlierStarts signals key).Nodup :=
    (List.perm_insertionSort _ _).nodup_iff.mpr (List.nodup_dedup _)
  exact ((List.perm_ext_iff_of_nodup hnodup hnodup').mpr hiff).eq_of_pairwise
    (fun a b _ _ hab hba => le_antisymm hab hba) hsorted hsorted'

/-- **What the engine reads is what one reads from scratch.** -/
theorem windowInputs_eq_batchInputs (hev : EventsOf cfg order events) (hperm : order.Perm signals)
    (htime : ∀ signal ∈ signals, 0 ≤ signal.eventTime)
    (hids : (signals.map FeatureSignal.seenKey).Nodup) {key : WindowKey}
    (hmem : key.interval ∈ cfg.intervals) (haligned : key.Aligned) :
    windowInputs events key (sortSignals (arrivals order key)) = batchInputs signals key := by
  have hpos := cfg.intervals_pos key.interval hmem
  have hstarts := starts_earlierItems hev hperm htime hmem
  have htrailing : trailingVolumes events key = lastTwenty ((earlierStarts signals key).map
      fun start => rawVolume (windowSignals signals (key.at start))) := by
    unfold trailingVolumes
    rw [← hstarts, List.map_map]
    refine congrArg lastTwenty (List.map_congr_left fun item hitem => ?_)
    obtain ⟨hkey, hstored, haligned', -⟩ :=
      arrivals_of_mem_earlierItems hev hperm htime hpos hitem
    have hpos' : 0 < item.1.interval := by
      rw [hkey]
      exact hpos
    show rawVolume item.2 = rawVolume (windowSignals signals (key.at item.1.windowStart))
    rw [← hkey, ← sortSignals_arrivals hperm htime hids hpos' haligned', ← hstored]
    exact rawVolume_perm (List.perm_insertionSort _ _).symm
  have hprior : priorWindowCount events key = (earlierStarts signals key).length := by
    have hlen := congrArg List.length hstarts
    rw [List.length_map] at hlen
    rw [← hlen, earlierItems, ← List.countP_eq_length_filter, byStart,
      (List.perm_insertionSort _ _).countP_eq]
    unfold priorWindowCount OrderedDict.keys
    rw [List.countP_map]
    rfl
  rw [windowInputs, batchInputs, sortSignals_arrivals hperm htime hids hpos haligned, htrailing,
    hprior]

end FromScratch

/-- **Incremental equals batch.**  Let the signals of a finite set, whose event times are not before
the epoch and whose event ids are unique within a scope, arrive in any order.

* With a registered configuration and well-shaped signals no call raises.
* If no call raises, the last revision of every window with a signal carries the lineage of exactly
  the signals of the window, sorted, and the features computed from scratch. -/
theorem last_revision_eq_batch (cfg : EngineConfig) (hnodup : cfg.intervals.Nodup)
    (signals order : List FeatureSignal) (hperm : order.Perm signals)
    (htime : ∀ signal ∈ signals, 0 ≤ signal.eventTime)
    (hids : (signals.map FeatureSignal.seenKey).Nodup) :
    (cfg.Registered → (∀ signal ∈ signals, signal.WellShaped) →
      AllOk (runAll (ingest cfg) order .initial).1) ∧
    (AllOk (runAll (ingest cfg) order .initial).1 →
      ∀ key : WindowKey, key.interval ∈ cfg.intervals → key.Aligned →
        (∃ signal ∈ signals, key.Contains signal) →
        ∃ last, ((runAll (ingest cfg) order .initial).2.revisionsOf key).getLast? = some last ∧
          last.lineage.sourceEventIds =
            (windowSignals signals key).map FeatureSignal.eventId ∧
          last.lineage.sourceHash = ⟨windowSignals signals key⟩ ∧
          last.lineage.sourceCount = (windowSignals signals key).length ∧
          last.lineage.sourceEventMinTime =
            (windowSignals signals key).head?.map FeatureSignal.eventTime ∧
          last.lineage.sourceEventMaxTime =
            (windowSignals signals key).getLast?.map FeatureSignal.eventTime ∧
          ∀ name ∈ intrinsicNames,
            last.features name = (batchInputs signals key).feature name) := by
  refine ⟨fun hcfg hshape => ?_, fun hok key hmem haligned hsignal => ?_⟩
  · exact allOk_runAll_ingest hcfg fun signal hsignal => hshape signal (hperm.mem_iff.mp hsignal)
  · have hlog : (runAll (ingest cfg) order .initial).2.signalLog = order := by
      refine (signalLog_run cfg ?_ fun signal _ => ?_).trans (List.nil_append _)
      · exact ((hperm.map _).nodup_iff).mpr hids
      · exact Finset.notMem_empty _
    obtain ⟨hev, hfresh⟩ := inStep_run hnodup hok
    rw [hlog] at hev
    have hpos := cfg.intervals_pos key.interval hmem
    have hsorted := sortSignals_arrivals hperm htime hids hpos haligned
    obtain ⟨signal, hsignal, hcontains⟩ := hsignal
    have harr : signal ∈ arrivals order key := mem_arrivals.mpr ⟨hperm.mem_iff.mpr hsignal,
      (windowKey_eq_iff (htime signal hsignal) hpos).mpr ⟨haligned, hcontains⟩⟩
    have hstored : (runAll (ingest cfg) order .initial).2.events.get? key =
        some (arrivals order key) := by
      rw [hev key, if_pos ⟨hmem, List.ne_nil_of_mem harr⟩]
    obtain ⟨last, hlast, hlineage, hfeatures⟩ := hfresh key (fun h => h) _ hstored
    rw [hsorted] at hlineage
    refine ⟨last, hlast, ?_, ?_, ?_, ?_, ?_, fun name hname => ?_⟩
    · rw [hlineage]
      rfl
    · rw [hlineage]
      rfl
    · rw [hlineage]
      rfl
    · rw [hlineage]
      rfl
    · rw [hlineage]
      rfl
    · rw [hfeatures name hname, windowInputs_eq_batchInputs hev hperm htime hids hmem haligned]

/-- The trades of `test_relative_volume_uses_trailing_baseline_and_late_event_cascades`, by time. -/
def cascadeTrades : List FeatureSignal :=
  [tradeSignal "baseline" testStart,
    tradeSignal "late-baseline" (testStart + timedeltaSeconds 30),
    tradeSignal "pump" (testStart + timedeltaSeconds 60) 500,
    tradeSignal "watermark" (testStart + timedeltaSeconds 180)]

/-- The same trades in the order of the test: the late one comes last. -/
def cascadeOrder : List FeatureSignal :=
  [tradeSignal "baseline" testStart,
    tradeSignal "pump" (testStart + timedeltaSeconds 60) 500,
    tradeSignal "watermark" (testStart + timedeltaSeconds 180),
    tradeSignal "late-baseline" (testStart + timedeltaSeconds 30)]

/-- The late trade is counted in the baseline of the window after its own. -/
theorem last_revision_eq_batch_cascade :
    ∃ last, ((runAll (ingest marketOnly) cascadeOrder .initial).2.revisionsOf
        ⟨"LIVE", "S2MUSDT", testStart + timedeltaSeconds 60, 60⟩).getLast? = some last ∧
      last.lineage.sourceEventIds = ["pump"] ∧
      last.features .relativeVolume = some (5 / 2) := by
  have hperm : cascadeOrder.Perm cascadeTrades := by
    refine List.Perm.cons _ ?_
    exact (List.perm_append_comm : ([tradeSignal "pump" (testStart + timedeltaSeconds 60) 500,
      tradeSignal "watermark" (testStart + timedeltaSeconds 180)] ++
        [tradeSignal "late-baseline" (testStart + timedeltaSeconds 30)]).Perm _)
  have htime : ∀ signal ∈ cascadeTrades, 0 ≤ signal.eventTime := by
    simp only [cascadeTrades, List.forall_mem_cons, tradeSignal]
    decide
  have hshape : ∀ signal ∈ cascadeTrades, signal.WellShaped := by
    simp only [cascadeTrades, List.forall_mem_cons, tradeSignal, FeatureSignal.WellShaped]
    simp
  obtain ⟨hok, hbatch⟩ := last_revision_eq_batch marketOnly (by decide) cascadeTrades cascadeOrder
    hperm htime (by decide)
  obtain ⟨last, hlast, hids, -, -, -, -, hfeatures⟩ :=
    hbatch (hok ⟨rfl, by decide⟩ hshape)
      ⟨"LIVE", "S2MUSDT", testStart + timedeltaSeconds 60, 60⟩ (by decide) ⟨29454481, by decide⟩
      ⟨_, List.mem_cons_of_mem _ (List.mem_cons_of_mem _ List.mem_cons_self), by decide⟩
  refine ⟨last, hlast, ?_, ?_⟩
  · rw [hids]
    decide
  · rw [hfeatures .relativeVolume (by decide)]
    decide +kernel

end Features
end Scam2Market
