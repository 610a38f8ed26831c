import Scam2Market.Library.Runs
import Scam2Market.Features.Finalisation

/-!
# The fusion watermark along a run

`ingest` and `watermarks` of `features/engine.py`, called in any order, without signals about the quality of
the data.  The watermark of an idle source follows the newest event of its asset; a signal of the source
wakes it, and its own newest event counts again.

* `Undegraded`: no source is degraded, and a source that is marked idle has been quiet for too long, so its
  watermark is a function of two instants (`markOf`).
* `Lowers`: a signal wakes a required source, and its time less the lateness is below the fusion watermark.
* `fusion_watermark`: once there is a fusion watermark there always is one; a call lowers it exactly in the
  case above, and it never falls by as much as the time after which a source is idle.
* `wokenSource`: the fusion watermark goes back.
-/

namespace Scam2Market
namespace Features

open Library
open Library.Procedure

variable {cfg : EngineConfig}

/-! ## Calls -/

/-- A call of the engine. -/
inductive EngineCall where
  | ingest (signal : FeatureSignal)
  | watermarks (scopeId assetId : String)

/-- The state after a call, whatever its outcome. -/
def EngineCall.apply (cfg : EngineConfig) (st : EngineState) : EngineCall → EngineState
  | .ingest signal => (Features.ingest cfg signal st).2
  | .watermarks scopeId assetId => (Features.watermarks cfg scopeId assetId st).2

/-- The state of a new engine after the calls. -/
def afterCalls (cfg : EngineConfig) (calls : List EngineCall) : EngineState :=
  run (EngineCall.apply cfg) .initial calls

/-- The call ingests no signal about the quality of the data. -/
def EngineCall.QualityFree : EngineCall → Prop
  | .ingest signal => signal.kind ≠ .dataQuality
  | .watermarks _ _ => True

/-! ## The newest event of an asset -/

theorem globalMax_eq_some_iff {st : EngineState} {scopeId assetId : String} {latest : Datetime} :
    globalMax st scopeId assetId = some latest ↔
      (∃ domain, st.maxEventTime.get? (scopeId, assetId, domain) = some latest) ∧
        ∀ domain time, st.maxEventTime.get? (scopeId, assetId, domain) = some time →
          time ≤ latest := by
  have hmem : ∀ time, (time ∈ st.maxEventTime.entries.filterMap fun item =>
      if item.1.1 = scopeId ∧ item.1.2.1 = assetId then some item.2 else none) ↔
        ∃ domain, st.maxEventTime.get? (scopeId, assetId, domain) = some time := by
    intro time
    rw [List.mem_filterMap]
    constructor
    · rintro ⟨⟨⟨scope, asset, domain⟩, value⟩, hitem, hvalue⟩
      split_ifs at hvalue with hkey
      obtain ⟨rfl, rfl⟩ := hkey
      obtain rfl := Option.some.inj hvalue
      exact ⟨domain, OrderedDict.mem_entries_iff.mp hitem⟩
    · rintro ⟨domain, hget⟩
      exact ⟨((scopeId, assetId, domain), time), OrderedDict.mem_entries_iff.mpr hget,
        if_pos ⟨rfl, rfl⟩⟩
  rw [globalMax, List.max?_eq_some_iff, hmem]
  refine and_congr_right fun _ => ⟨fun h domain time hget => ?_, fun h time htime => ?_⟩
  · exact h time ((hmem time).mpr ⟨domain, hget⟩)
  · obtain ⟨domain, hget⟩ := (hmem time).mp htime
    exact h domain time hget

/-- An asset with an event has a newest one. -/
theorem exists_globalMax {st : EngineState} {scopeId assetId : String} {domain : SourceDomain}
    {time : Datetime} (htime : st.maxEventTime.get? (scopeId, assetId, domain) = some time) :
    ∃ latest, globalMax st scopeId assetId = some latest ∧ time ≤ latest := by
  rcases hlatest : globalMax st scopeId assetId with _ | latest
  · rw [globalMax, List.max?_eq_none_iff] at hlatest
    refine absurd hlatest (List.ne_nil_of_mem (a := time) ?_)
    exact List.mem_filterMap.mpr ⟨((scopeId, assetId, domain), time),
      OrderedDict.mem_entries_iff.mpr htime, if_pos ⟨rfl, rfl⟩⟩
  · exact ⟨latest, rfl, (globalMax_eq_some_iff.mp hlatest).2 domain time htime⟩

/-- The newest event of the signal's source, after the signal. -/
theorem maxEventTime_register (signal : FeatureSignal) (st : EngineState) (key : SourceKey) :
    (register signal st).maxEventTime.get? key =
      if key = signal.sourceKey then
        some (max signal.eventTime (st.maxEventTime.getD signal.sourceKey signal.eventTime))
      else st.maxEventTime.get? key :=
  OrderedDict.get?_set _ _ _ _

/-- The newest event of an asset, after a signal. -/
theorem globalMax_register {signal : FeatureSignal} {st : EngineState} {scopeId assetId : String}
    {latest : Datetime} (hlatest : globalMax st scopeId assetId = some latest) :
    globalMax (register signal st) scopeId assetId =
      some (if signal.scopeId = scopeId ∧ signal.assetId = assetId then max latest signal.eventTime
        else latest) := by
  obtain ⟨⟨domain, hdomain⟩, hbound⟩ := globalMax_eq_some_iff.mp hlatest
  have hkey : ∀ domain, (scopeId, assetId, domain) = signal.sourceKey →
      signal.scopeId = scopeId ∧ signal.assetId = assetId ∧ signal.sourceDomain = domain :=
    fun domain h => ⟨(Prod.mk.inj h).1.symm, (Prod.mk.inj (Prod.mk.inj h).2).1.symm,
      (Prod.mk.inj (Prod.mk.inj h).2).2.symm⟩
  split_ifs with hown
  · obtain ⟨rfl, rfl⟩ := hown
    refine globalMax_eq_some_iff.mpr ⟨?_, fun domain' time htime => ?_⟩
    · rcases le_total signal.eventTime latest with hle | hle
      · rw [max_eq_left hle]
        refine ⟨domain, ?_⟩
        rw [maxEventTime_register]
        split_ifs with hsource
        · rw [← hsource, OrderedDict.getD, hdomain, Option.getD_some, max_eq_right hle]
        · exact hdomain
      · rw [max_eq_right hle]
        refine ⟨signal.sourceDomain, ?_⟩
        refine (maxEventTime_register signal st signal.sourceKey).trans ?_
        rw [if_pos rfl, OrderedDict.getD]
        rcases htime : st.maxEventTime.get? signal.sourceKey with _ | time
        · rw [Option.getD_none, max_self]
        · have := hbound _ _ htime
          rw [Option.getD_some, max_eq_left (this.trans hle)]
    · rw [maxEventTime_register] at htime
      split_ifs at htime with hsource
      · rw [← Option.some.inj htime, OrderedDict.getD]
        rcases hstored : st.maxEventTime.get? signal.sourceKey with _ | stored
        · rw [Option.getD_none, max_self]
          exact le_max_right _ _
        · rw [Option.getD_some]
          exact max_le (le_max_right _ _) ((hbound _ _ hstored).trans (le_max_left _ _))
      · exact (hbound _ _ htime).trans (le_max_left _ _)
  · have hother : ∀ domain, (scopeId, assetId, domain) ≠ signal.sourceKey := fun domain h =>
      hown ⟨(hkey domain h).1, (hkey domain h).2.1⟩
    refine globalMax_eq_some_iff.mpr ⟨⟨domain, ?_⟩, fun domain' time htime => ?_⟩
    · rw [maxEventTime_register, if_neg (hother domain), hdomain]
    · rw [maxEventTime_register, if_neg (hother domain')] at htime
      exact hbound domain' time htime

/-! ## The watermark of a source -/

/-- The watermark of a source whose newest event is `newest`, when that of its asset is `latest`. -/
def markOf (cfg : EngineConfig) (latest newest : Datetime) : Datetime :=
  if cfg.sourceIdleAfter ≤ latest - newest then latest - cfg.allowedLateness
  else newest - cfg.allowedLateness

theorem markOf_le {latest newest : Datetime} (h : newest ≤ latest) :
    markOf cfg latest newest ≤ latest - cfg.allowedLateness := by
  unfold markOf
  split_ifs
  · exact le_rfl
  · exact sub_le_sub_right h _

/-- A watermark is less than the idle time behind the newest event. -/
theorem markOf_bound (cfg : EngineConfig) (latest newest : Datetime) :
    markOf cfg latest newest = latest - cfg.allowedLateness ∨
      latest - cfg.allowedLateness - cfg.sourceIdleAfter < markOf cfg latest newest := by
  unfold markOf
  split_ifs with hidle
  · exact .inl rfl
  · exact .inr (by linarith [not_le.mp hidle])

/-- Where another event moves the newest one of the asset, no watermark goes back. -/
theorem markOf_le_of_le {latest latest' newest : Datetime} (hlatest : latest ≤ latest')
    (hnewest : newest ≤ latest) : markOf cfg latest newest ≤ markOf cfg latest' newest := by
  unfold markOf
  split_ifs
  · exact sub_le_sub_right hlatest _
  · linarith
  · exact sub_le_sub_right (hnewest.trans hlatest) _
  · exact le_rfl

/-- An own event moves the watermark on, unless it wakes the source and is older than the newest one. -/
theorem markOf_le_max {latest newest time mark : Datetime} (hnewest : newest ≤ latest)
    (hmark : mark ≤ markOf cfg latest newest)
    (hlowers : ¬ (cfg.sourceIdleAfter ≤ latest - newest ∧ latest - time < cfg.sourceIdleAfter ∧
      time - cfg.allowedLateness < mark)) :
    mark ≤ markOf cfg (max latest time) (max time newest) := by
  unfold markOf at hmark ⊢
  rcases le_total time latest with hle | hle
  · rw [max_eq_left hle]
    by_cases hidle' : cfg.sourceIdleAfter ≤ latest - max time newest
    · rw [if_pos hidle']
      split_ifs at hmark
      · exact hmark
      · exact hmark.trans (sub_le_sub_right hnewest _)
    · rw [if_neg hidle']
      by_cases hidle : cfg.sourceIdleAfter ≤ latest - newest
      · have hlate : latest - time < cfg.sourceIdleAfter := by
          rcases le_total time newest with h | h
          · rw [max_eq_right h] at hidle'
            exact absurd hidle hidle'
          · rw [max_eq_left h] at hidle'
            exact not_le.mp hidle'
        have hmark' : mark ≤ time - cfg.allowedLateness :=
          not_lt.mp fun h => hlowers ⟨hidle, hlate, h⟩
        exact hmark'.trans (sub_le_sub_right (le_max_left _ _) _)
      · rw [if_neg hidle] at hmark
        exact hmark.trans (sub_le_sub_right (le_max_right _ _) _)
  · rw [max_eq_right hle, max_eq_left (hnewest.trans hle), ite_self]
    split_ifs at hmark
    · exact hmark.trans (sub_le_sub_right hle _)
    · exact hmark.trans (sub_le_sub_right (hnewest.trans hle) _)

/-- An own event that wakes the source takes the watermark back to it. -/
theorem markOf_of_wakes {latest newest time : Datetime}
    (hidle : cfg.sourceIdleAfter ≤ latest - newest) (hlate : latest - time < cfg.sourceIdleAfter)
    (hle : time ≤ latest) :
    markOf cfg (max latest time) (max time newest) = time - cfg.allowedLateness := by
  have hnewest : newest ≤ time := by linarith
  rw [markOf, max_eq_left hle, max_eq_left hnewest, if_neg (not_le.mpr hlate)]

/-- No source is degraded, and a source that is marked idle has been quiet for too long. -/
structure Undegraded (cfg : EngineConfig) (st : EngineState) : Prop where
  observed : SourcesObserved st
  degraded : ∀ key state, st.sourceStates.get? key = some state → state.degraded = false
  idle : ∀ key state, st.sourceStates.get? key = some state → state.idle = true →
    quietTooLong cfg (globalMax st key.1 key.2.1) (st.maxEventTime.get? key) = true

theorem undegraded_initial : Undegraded cfg .initial where
  observed _ _ h := nomatch h
  degraded _ _ h := nomatch h
  idle _ _ h := nomatch h

theorem Undegraded.marked {s t : EngineState} (h : Undegraded cfg s) {scopeId assetId : String}
    (hmarked : Marked cfg scopeId assetId s t) : Undegraded cfg t where
  observed := sourcesObserved_of_marked hmarked h.observed
  degraded key state hstate := by
    rcases hmarked.sources key with heq | ⟨state', -, -, hstate', -, ht⟩
    · exact h.degraded key state (heq ▸ hstate)
    · rw [ht] at hstate
      rw [← Option.some.inj hstate]
      exact h.degraded key state' hstate'
  idle key state hstate hidle := by
    rw [globalMax_congr hmarked.maxEventTime, hmarked.maxEventTime]
    rcases hmarked.sources key with heq | ⟨state', -, -, hstate', hbecomes, -⟩
    · exact h.idle key state (heq ▸ hstate) hidle
    · exact (Bool.and_eq_true_iff.mp hbecomes).2

/-- What a state says about a source that has flags. -/
theorem Undegraded.domainMark {st : EngineState} (h : Undegraded cfg st) {scopeId assetId : String}
    {domain : SourceDomain} {state : SourceState}
    (hstate : st.sourceStates.get? (scopeId, assetId, domain) = some state) :
    ∃ latest newest, globalMax st scopeId assetId = some latest ∧
      st.maxEventTime.get? (scopeId, assetId, domain) = some newest ∧ newest ≤ latest ∧
      Features.domainMark cfg st scopeId assetId domain = some (markOf cfg latest newest) := by
  obtain ⟨newest, hnewest⟩ := h.observed _ _ hstate
  obtain ⟨latest, hlatest, hle⟩ := exists_globalMax hnewest
  refine ⟨latest, newest, hlatest, hnewest, hle, ?_⟩
  have hidle := h.idle _ _ hstate
  rw [hlatest, hnewest] at hidle
  have hquiet : quietTooLong cfg (some latest) (some newest) =
      decide (cfg.sourceIdleAfter ≤ latest - newest) := rfl
  rw [hquiet] at hidle
  rw [Features.domainMark, hstate, hlatest, hnewest, domainWatermark, markOf]
  simp only [h.degraded _ _ hstate, hquiet, Bool.false_eq_true, if_false, decide_eq_true_eq]
  split_ifs with hlong hflag
  · rfl
  · exact absurd (of_decide_eq_true (hidle hflag.1)) hlong
  · rfl

theorem Undegraded.register {st : EngineState} (h : Undegraded cfg st) {signal : FeatureSignal}
    (hkind : signal.kind ≠ .dataQuality) : Undegraded cfg (Features.register signal st) := by
  have hstates : ∀ key, (Features.register signal st).sourceStates.get? key =
      if key = signal.sourceKey then
        some (sourceStateAfter signal (st.sourceStates.getD signal.sourceKey ⟨true, false, false⟩))
      else st.sourceStates.get? key := fun key => OrderedDict.get?_set _ _ _ _
  refine ⟨sourcesObserved_register h.observed, fun key state hstate => ?_,
    fun key state hstate hidle => ?_⟩
  · rw [hstates] at hstate
    split_ifs at hstate
    · rw [← Option.some.inj hstate, sourceStateAfter, if_neg hkind, OrderedDict.getD]
      rcases hold : st.sourceStates.get? signal.sourceKey with _ | state'
      · rfl
      · show state'.degraded = false
        exact h.degraded _ _ hold
    · exact h.degraded key state hstate
  · rw [hstates] at hstate
    split_ifs at hstate with hkey
    · rw [← Option.some.inj hstate, sourceStateAfter, if_neg hkind] at hidle
      cases hidle
    · have hquiet := h.idle key state hstate hidle
      rw [maxEventTime_register, if_neg hkey]
      rcases hlatest : globalMax st key.1 key.2.1 with _ | latest
      · rw [hlatest] at hquiet
        cases hquiet
      · rcases hnewest : st.maxEventTime.get? key with _ | newest
        · rw [hlatest, hnewest] at hquiet
          cases hquiet
        · rw [hlatest, hnewest] at hquiet
          have hlong : cfg.sourceIdleAfter ≤ latest - newest := of_decide_eq_true hquiet
          rw [globalMax_register hlatest]
          refine decide_eq_true (hlong.trans (sub_le_sub_right ?_ _))
          split_ifs
          · exact le_max_left _ _
          · exact le_rfl

/-! ## The least watermark -/

/-- The watermarks there are, one for each required domain at most. -/
def available (cfg : EngineConfig) (mark : SourceDomain → Option Datetime) : List Datetime :=
  (OrderedDict.ofEntries (cfg.requiredDomains.map fun domain =>
    (domain, mark domain))).entries.filterMap Prod.snd

section Least

variable {mark mark' : SourceDomain → Option Datetime} {least : Datetime}

theorem get?_marks {domain : SourceDomain} {stored : Option Datetime}
    (hitem : (domain, stored) ∈ (OrderedDict.ofEntries (cfg.requiredDomains.map fun domain =>
      (domain, mark domain))).entries) : domain ∈ cfg.requiredDomains ∧ stored = mark domain := by
  have hstored := OrderedDict.mem_entries_iff.mp hitem
  rw [OrderedDict.get?_ofEntries_map mark cfg.requiredDomains] at hstored
  split_ifs at hstored with hmem
  exact ⟨hmem, (Option.some.inj hstored).symm⟩

theorem mem_available_iff {value : Datetime} :
    value ∈ available cfg mark ↔ ∃ domain ∈ cfg.requiredDomains, mark domain = some value := by
  rw [available, List.mem_filterMap]
  constructor
  · rintro ⟨⟨domain, stored⟩, hitem, hvalue⟩
    obtain ⟨hmem, rfl⟩ := get?_marks hitem
    exact ⟨domain, hmem, hvalue⟩
  · rintro ⟨domain, hmem, hvalue⟩
    refine ⟨(domain, some value), OrderedDict.mem_entries_iff.mpr ?_, rfl⟩
    rw [OrderedDict.get?_ofEntries_map mark cfg.requiredDomains, if_pos hmem, hvalue]

theorem length_available (hall : ∀ domain ∈ cfg.requiredDomains, (mark domain).isSome = true) :
    (available cfg mark).length = (OrderedDict.ofEntries (cfg.requiredDomains.map fun domain =>
      (domain, mark domain))).keys.length := by
  rw [available, OrderedDict.keys, List.length_map, List.filterMap_length_eq_length]
  rintro ⟨domain, stored⟩ hitem
  obtain ⟨hmem, rfl⟩ := get?_marks hitem
  exact hall domain hmem

theorem fusionWatermark_marks (mark : SourceDomain → Option Datetime) :
    fusionWatermark cfg (.ofEntries (cfg.requiredDomains.map fun domain => (domain, mark domain))) =
      if (available cfg mark).length = cfg.requiredDomains.length then
        match (available cfg mark).min? with
        | some least => .ok (some least)
        | none => .error (.valueError "min() arg is an empty sequence")
      else .ok none := rfl

theorem fusionWatermark_eq_some_iff :
    fusionWatermark cfg (.ofEntries (cfg.requiredDomains.map fun domain => (domain, mark domain))) =
        .ok (some least) ↔
      (available cfg mark).length = cfg.requiredDomains.length ∧
        (available cfg mark).min? = some least := by
  rw [fusionWatermark_marks]
  split_ifs with hcount
  · rcases (available cfg mark).min? with _ | least'
    · simp
    · simp [hcount]
  · simp [hcount]

/-- The fusion watermark is one of the marks, and no mark is less. -/
theorem least_of_fusionWatermark
    (h : fusionWatermark cfg (.ofEntries (cfg.requiredDomains.map fun domain =>
      (domain, mark domain))) = .ok (some least)) :
    (∃ domain ∈ cfg.requiredDomains, mark domain = some least) ∧
      ∀ domain ∈ cfg.requiredDomains, ∀ value, mark domain = some value → least ≤ value := by
  obtain ⟨hmem, hle⟩ := List.min?_eq_some_iff.mp (fusionWatermark_eq_some_iff.mp h).2
  refine ⟨mem_available_iff.mp hmem, fun domain hdomain value hvalue => ?_⟩
  exact hle value (mem_available_iff.mpr ⟨domain, hdomain, hvalue⟩)

/-- When there is one, other marks of all required domains have one too. -/
theorem exists_fusionWatermark
    (h : fusionWatermark cfg (.ofEntries (cfg.requiredDomains.map fun domain =>
      (domain, mark domain))) = .ok (some least))
    (hall : ∀ domain ∈ cfg.requiredDomains, (mark domain).isSome = true)
    (hall' : ∀ domain ∈ cfg.requiredDomains, (mark' domain).isSome = true) :
    ∃ least', fusionWatermark cfg (.ofEntries (cfg.requiredDomains.map fun domain =>
      (domain, mark' domain))) = .ok (some least') := by
  obtain ⟨hcount, -⟩ := fusionWatermark_eq_some_iff.mp h
  have hcount' : (available cfg mark').length = cfg.requiredDomains.length := by
    rw [length_available hall', OrderedDict.keys_ofEntries_map_congr mark' mark cfg.requiredDomains,
      ← length_available hall, hcount]
  obtain ⟨domain, hdomain, -⟩ := (least_of_fusionWatermark h).1
  obtain ⟨value, hvalue⟩ := Option.isSome_iff_exists.mp (hall' domain hdomain)
  rcases hmin : (available cfg mark').min? with _ | least'
  · have hmem : value ∈ available cfg mark' := mem_available_iff.mpr ⟨domain, hdomain, hvalue⟩
    rw [List.min?_eq_none_iff.mp hmin] at hmem
    cases hmem
  · exact ⟨least', fusionWatermark_eq_some_iff.mpr ⟨hcount', hmin⟩⟩

end Least

/-! ## Along a run -/

/-- The signal is new and wakes a required source: its own newest event counts again, and lies below the
fusion watermark. -/
def Lowers (cfg : EngineConfig) (st : EngineState) (scopeId assetId : String)
    (signal : FeatureSignal) : Prop :=
  signal.seenKey ∉ st.seenEventIds ∧ signal.scopeId = scopeId ∧ signal.assetId = assetId ∧
    signal.sourceDomain ∈ cfg.requiredDomains ∧
    ∃ latest newest mark, globalMax st scopeId assetId = some latest ∧
      st.maxEventTime.get? signal.sourceKey = some newest ∧
      (watermark cfg scopeId assetId st).1 = .ok (some mark) ∧
      cfg.sourceIdleAfter ≤ latest - newest ∧ latest - signal.eventTime < cfg.sourceIdleAfter ∧
      signal.eventTime - cfg.allowedLateness < mark

/-- The mark of a required domain when there is a fusion watermark. -/
theorem Undegraded.required {st : EngineState} (h : Undegraded cfg st) {scopeId assetId : String}
    {mark : Datetime} (hmark : fusionOf cfg st scopeId assetId = .ok (some mark))
    {domain : SourceDomain} (hdomain : domain ∈ cfg.requiredDomains) :
    ∃ latest newest, globalMax st scopeId assetId = some latest ∧
      st.maxEventTime.get? (scopeId, assetId, domain) = some newest ∧ newest ≤ latest ∧
      Features.domainMark cfg st scopeId assetId domain = some (markOf cfg latest newest) ∧
      mark ≤ markOf cfg latest newest ∧ mark ≤ latest - cfg.allowedLateness := by
  obtain ⟨value, hvalue⟩ := domainMark_of_fusionOf hmark domain hdomain
  rcases hstate : st.sourceStates.get? (scopeId, assetId, domain) with _ | state
  · rw [Features.domainMark, hstate] at hvalue
    cases hvalue
  · obtain ⟨latest, newest, hlatest, hnewest, hle, hdomainMark⟩ := h.domainMark hstate
    have hleast := (least_of_fusionWatermark hmark).2 domain hdomain _ hdomainMark
    exact ⟨latest, newest, hlatest, hnewest, hle, hdomainMark, hleast,
      hleast.trans (markOf_le hle)⟩

/-- The mark of a required domain after a signal. -/
theorem Undegraded.required_register {st : EngineState} (h : Undegraded cfg st)
    {signal : FeatureSignal} (hkind : signal.kind ≠ .dataQuality) {scopeId assetId : String}
    {mark : Datetime} (hmark : fusionOf cfg st scopeId assetId = .ok (some mark))
    {domain : SourceDomain} (hdomain : domain ∈ cfg.requiredDomains) :
    ∃ latest newest, globalMax st scopeId assetId = some latest ∧
      st.maxEventTime.get? (scopeId, assetId, domain) = some newest ∧ newest ≤ latest ∧
      mark ≤ markOf cfg latest newest ∧
      Features.domainMark cfg (Features.register signal st) scopeId assetId domain =
        some (markOf cfg
          (if signal.scopeId = scopeId ∧ signal.assetId = assetId then max latest signal.eventTime
            else latest)
          (if (scopeId, assetId, domain) = signal.sourceKey then max signal.eventTime newest
            else newest)) := by
  obtain ⟨latest, newest, hlatest, hnewest, hle, hdomainMark, hleast, -⟩ := h.required hmark hdomain
  refine ⟨latest, newest, hlatest, hnewest, hle, hleast, ?_⟩
  obtain ⟨state, hstate⟩ : ∃ state, (Features.register signal st).sourceStates.get?
      (scopeId, assetId, domain) = some state := by
    have hset : (Features.register signal st).sourceStates.get? (scopeId, assetId, domain) =
        if (scopeId, assetId, domain) = signal.sourceKey then
          some (sourceStateAfter signal (st.sourceStates.getD signal.sourceKey ⟨true, false, false⟩))
        else st.sourceStates.get? (scopeId, assetId, domain) := OrderedDict.get?_set _ _ _ _
    rw [hset]
    split_ifs
    · exact ⟨_, rfl⟩
    · rcases hstored : st.sourceStates.get? (scopeId, assetId, domain) with _ | state
      · rw [Features.domainMark, hstored] at hdomainMark
        cases hdomainMark
      · exact ⟨state, rfl⟩
  obtain ⟨latest', newest', hlatest', hnewest', -, hdomainMark'⟩ :=
    (h.register hkind).domainMark hstate
  rw [globalMax_register hlatest] at hlatest'
  rw [maxEventTime_register, OrderedDict.getD] at hnewest'
  have hsame : newest' = if (scopeId, assetId, domain) = signal.sourceKey then
      max signal.eventTime newest else newest := by
    split_ifs at hnewest' ⊢ with hkey
    · rw [← hkey, hnewest, Option.getD_some] at hnewest'
      exact (Option.some.inj hnewest').symm
    · exact Option.some.inj (hnewest'.symm.trans hnewest)
  rw [hdomainMark', ← Option.some.inj hlatest', hsame]

/-- The fusion watermark after a signal. -/
theorem Undegraded.fusionOf_register {st : EngineState} (h : Undegraded cfg st)
    {signal : FeatureSignal} (hkind : signal.kind ≠ .dataQuality)
    (hnew : signal.seenKey ∉ st.seenEventIds) {scopeId assetId : String} {mark : Datetime}
    (hmark : fusionOf cfg st scopeId assetId = .ok (some mark)) :
    ∃ mark', fusionOf cfg (Features.register signal st) scopeId assetId = .ok (some mark') ∧
      (mark' < mark ↔ Lowers cfg st scopeId assetId signal) := by
  have hisSome : ∀ domain ∈ cfg.requiredDomains,
      (Features.domainMark cfg (Features.register signal st) scopeId assetId domain).isSome = true := by
    intro domain hdomain
    obtain ⟨latest, newest, -, -, -, -, hmark'⟩ := h.required_register hkind hmark hdomain
    rw [hmark']
    rfl
  obtain ⟨mark', hmark'⟩ := exists_fusionWatermark hmark (fun domain hdomain => by
    obtain ⟨latest, newest, -, -, -, hdomainMark, -⟩ := h.required hmark hdomain
    rw [hdomainMark]
    rfl) hisSome
  obtain ⟨⟨least, hleast, hleastMark⟩, hbound⟩ := least_of_fusionWatermark hmark'
  refine ⟨mark', hmark', ?_, ?_⟩
  · intro hlower
    by_contra hlowers
    refine absurd hlower (not_lt.mpr ?_)
    obtain ⟨latest, newest, hlatest, hnewest, hle, hbefore, hafter⟩ :=
      h.required_register hkind hmark hleast
    rw [hleastMark] at hafter
    rw [Option.some.inj hafter]
    by_cases hown : signal.scopeId = scopeId ∧ signal.assetId = assetId
    · rw [if_pos hown]
      split_ifs with hkey
      · refine markOf_le_max hle hbefore fun ⟨hidle, hlate, hbelow⟩ => hlowers ?_
        have hdomain : least = signal.sourceDomain := (Prod.mk.inj (Prod.mk.inj hkey).2).2
        exact ⟨hnew, hown.1, hown.2, hdomain ▸ hleast, latest, newest, mark, hlatest,
          hkey ▸ hnewest, (watermark_fst ..).trans hmark, hidle, hlate, hbelow⟩
      · exact hbefore.trans (markOf_le_of_le (le_max_left _ _) hle)
    · have hkey : (scopeId, assetId, least) ≠ signal.sourceKey := fun hkey =>
        hown ⟨(Prod.mk.inj hkey).1.symm, (Prod.mk.inj (Prod.mk.inj hkey).2).1.symm⟩
      rw [if_neg hown, if_neg hkey]
      exact hbefore
  · rintro ⟨-, rfl, rfl, hdomain, latest, newest, mark₀, hlatest, hnewest, hmark₀, hidle, hlate,
      hbelow⟩
    obtain rfl : mark₀ = mark := by
      rw [watermark_fst, hmark] at hmark₀
      exact (Option.some.inj (Except.ok.inj hmark₀)).symm
    obtain ⟨latest', newest', hlatest', hnewest', hle, hbefore, hafter⟩ :=
      h.required_register hkind hmark hdomain
    obtain rfl : latest' = latest := Option.some.inj (hlatest'.symm.trans hlatest)
    obtain rfl : newest' = newest := Option.some.inj (hnewest'.symm.trans hnewest)
    have hold : signal.eventTime ≤ latest' := by
      have hle' := hbefore.trans (markOf_le hle)
      linarith
    have hkey : (signal.scopeId, signal.assetId, signal.sourceDomain) = signal.sourceKey := rfl
    rw [if_pos ⟨rfl, rfl⟩, if_pos hkey, markOf_of_wakes hidle hlate hold] at hafter
    exact (hbound _ hdomain _ hafter).trans_lt hbelow

/-- The newest event of an asset does not get older. -/
theorem globalMax_apply (cfg : EngineConfig) {st : EngineState} {scopeId assetId : String} {latest : Datetime}
    (hlatest : globalMax st scopeId assetId = some latest) (call : EngineCall) :
    ∃ latest', globalMax (call.apply cfg st) scopeId assetId = some latest' ∧ latest ≤ latest' := by
  cases call with
  | watermarks scope asset =>
    refine ⟨latest, ?_, le_rfl⟩
    exact (globalMax_congr (queried_watermarks cfg scope asset st).maxEventTime _ _).trans hlatest
  | ingest signal =>
    by_cases hseen : signal.seenKey ∈ st.seenEventIds
    · refine ⟨latest, ?_, le_rfl⟩
      rw [EngineCall.apply, ingest_of_seen hseen, hlatest]
    · rw [EngineCall.apply, globalMax_congr (ingest_steps hseen).marked.maxEventTime,
        globalMax_register hlatest]
      refine ⟨_, rfl, ?_⟩
      split_ifs
      · exact le_max_left _ _
      · exact le_rfl

/-- The call does not lower the fusion watermark of a scope and asset. -/
def EngineCall.KeepsUp (cfg : EngineConfig) (scopeId assetId : String) (st : EngineState) :
    EngineCall → Prop
  | .ingest signal => ¬ Lowers cfg st scopeId assetId signal
  | .watermarks _ _ => True

theorem Undegraded.apply {st : EngineState} (h : Undegraded cfg st) {call : EngineCall}
    (hcall : call.QualityFree) : Undegraded cfg (call.apply cfg st) := by
  cases call with
  | watermarks scopeId assetId => exact h.marked (queried_watermarks cfg scopeId assetId st).toMarked
  | ingest signal =>
    by_cases hseen : signal.seenKey ∈ st.seenEventIds
    · rw [EngineCall.apply, ingest_of_seen hseen]
      exact h
    · exact (h.register hcall).marked (ingest_steps hseen).marked

/-- **What a call does to the fusion watermark.** -/
theorem Undegraded.fusionOf_apply {st : EngineState} (h : Undegraded cfg st) {call : EngineCall}
    (hcall : call.QualityFree) {scopeId assetId : String} {mark : Datetime}
    (hmark : fusionOf cfg st scopeId assetId = .ok (some mark)) :
    ∃ mark', fusionOf cfg (call.apply cfg st) scopeId assetId = .ok (some mark') ∧
      (mark' < mark ↔ ¬ call.KeepsUp cfg scopeId assetId st) := by
  cases call with
  | watermarks scope asset =>
    refine ⟨mark, ?_, iff_of_false (lt_irrefl _) (not_not.mpr trivial)⟩
    exact (fusionOf_eq_of_marked (queried_watermarks cfg scope asset st).toMarked _ _).trans hmark
  | ingest signal =>
    by_cases hseen : signal.seenKey ∈ st.seenEventIds
    · refine ⟨mark, ?_, iff_of_false (lt_irrefl _) (not_not.mpr fun hlowers => hlowers.1 hseen)⟩
      rw [EngineCall.apply, ingest_of_seen hseen, hmark]
    · obtain ⟨mark', hmark', hiff⟩ := h.fusionOf_register hcall hseen hmark
      refine ⟨mark', ?_, hiff.trans not_not.symm⟩
      exact (fusionOf_eq_of_marked (ingest_steps hseen).marked _ _).trans hmark'

/-- Once there is a fusion watermark there is one after every call; it is above every instant that is the
idle time and the lateness behind the newest event. -/
theorem Undegraded.fusionOf_run {st : EngineState} (h : Undegraded cfg st) {calls : List EngineCall}
    (hcalls : ∀ call ∈ calls, call.QualityFree) {scopeId assetId : String} {mark latest : Datetime}
    (hmark : fusionOf cfg st scopeId assetId = .ok (some mark))
    (hlatest : globalMax st scopeId assetId = some latest) :
    Undegraded cfg (run (EngineCall.apply cfg) st calls) ∧
      (∃ latest', globalMax (run (EngineCall.apply cfg) st calls) scopeId assetId = some latest' ∧
        latest ≤ latest') ∧
      ∃ mark', fusionOf cfg (run (EngineCall.apply cfg) st calls) scopeId assetId =
          .ok (some mark') ∧
        (Throughout (EngineCall.apply cfg) (EngineCall.KeepsUp cfg scopeId assetId) st calls →
          mark ≤ mark') := by
  induction calls generalizing st mark latest with
  | nil => exact ⟨h, ⟨latest, hlatest, le_rfl⟩, mark, hmark, fun _ => le_rfl⟩
  | cons call calls ih =>
    have hcall := hcalls call List.mem_cons_self
    obtain ⟨mark₁, hmark₁, hiff⟩ := h.fusionOf_apply hcall hmark
    obtain ⟨latest₁, hlatest₁, hle₁⟩ := globalMax_apply cfg hlatest call
    obtain ⟨hend, ⟨latest', hlatest', hle'⟩, mark', hmark', hkeeps⟩ := ih (h.apply hcall)
      (fun other hother => hcalls other (List.mem_cons_of_mem _ hother)) hmark₁ hlatest₁
    refine ⟨hend, ⟨latest', hlatest', hle₁.trans hle'⟩, mark', hmark', fun hall => ?_⟩
    have hfirst : mark ≤ mark₁ := not_lt.mp fun hlt => hiff.mp hlt hall.1
    exact hfirst.trans (hkeeps hall.2)

theorem undegraded_afterCalls {calls : List EngineCall}
    (hcalls : ∀ call ∈ calls, call.QualityFree) : Undegraded cfg (afterCalls cfg calls) := by
  unfold afterCalls
  induction calls using List.reverseRecOn with
  | nil => exact undegraded_initial
  | append_singleton calls call ih =>
    rw [run_append]
    exact (ih fun other hother => hcalls other (List.mem_append_left _ hother)).apply
      (hcalls call (by simp))

/-- **The fusion watermark along a run.**  Once there is one, for every further calls:

1. there is one after them, and it is no less, or less by less than the idle time;
2. it is no less when none of these calls wakes a required source with an event whose time less the
   lateness is below the watermark then;
3. a call that does lowers it, and no other does. -/
theorem fusion_watermark (cfg : EngineConfig) {before after : List EngineCall}
    (hcalls : ∀ call ∈ before ++ after, call.QualityFree) {scopeId assetId : String} {mark : Datetime}
    (hmark : (watermark cfg scopeId assetId (afterCalls cfg before)).1 = .ok (some mark)) :
    ∃ mark', (watermark cfg scopeId assetId (afterCalls cfg (before ++ after))).1 =
        .ok (some mark') ∧
      (mark ≤ mark' ∨ mark - cfg.sourceIdleAfter < mark') ∧
      (Throughout (EngineCall.apply cfg) (EngineCall.KeepsUp cfg scopeId assetId)
        (afterCalls cfg before) after → mark ≤ mark') ∧
      ∀ call : EngineCall, call.QualityFree → ∃ next,
        (watermark cfg scopeId assetId (call.apply cfg (afterCalls cfg (before ++ after)))).1 =
          .ok (some next) ∧
        (next < mark' ↔ ¬ call.KeepsUp cfg scopeId assetId (afterCalls cfg (before ++ after))) := by
  have hbefore : Undegraded cfg (afterCalls cfg before) :=
    undegraded_afterCalls fun call hcall => hcalls call (List.mem_append_left _ hcall)
  rw [watermark_fst] at hmark
  obtain ⟨⟨domain, hdomain, -⟩, -⟩ := least_of_fusionWatermark hmark
  obtain ⟨latest, -, hlatest, -, -, -, -, hahead⟩ := hbefore.required hmark hdomain
  obtain ⟨hend, ⟨latest', hlatest', hle⟩, mark', hmark', hkeeps⟩ := hbefore.fusionOf_run
    (fun call hcall => hcalls call (List.mem_append_right _ hcall)) hmark hlatest
  have hrun : run (EngineCall.apply cfg) (afterCalls cfg before) after =
      afterCalls cfg (before ++ after) := (run_append _ before after).symm
  rw [hrun] at hend hlatest' hmark'
  simp only [watermark_fst]
  refine ⟨mark', hmark', ?_, hkeeps, fun call hcall => hend.fusionOf_apply hcall hmark'⟩
  obtain ⟨⟨least, hleast, hleastMark⟩, -⟩ := least_of_fusionWatermark hmark'
  obtain ⟨latest₁, newest, hlatest₁, -, -, hdomainMark, -, -⟩ := hend.required hmark' hleast
  obtain rfl : latest₁ = latest' := Option.some.inj (hlatest₁.symm.trans hlatest')
  rw [hleastMark] at hdomainMark
  rw [Option.some.inj hdomainMark]
  rcases markOf_bound cfg latest₁ newest with heq | hlt
  · exact .inl (by linarith)
  · exact .inr (by linarith)

/-- A minute of idle time, no lateness. -/
def idleAfterMinute : EngineConfig where
  intervals := [60]
  intervals_ne := minute_ne_nil
  intervals_pos := minute_pos
  allowedLateness := 0
  sourceIdleAfter := timedeltaSeconds 60

/-- A post about the asset of the tests. -/
def actorPost (eventId : String) (eventTime : Datetime) : FeatureSignal where
  eventId := eventId
  assetId := "S2MUSDT"
  eventTime := eventTime
  ingestedAt := eventTime
  kind := .socialPost
  sourceDomain := .social
  values := .ofFields [("author_id", .str "actor-1")]

/-- A trade and a post, and a trade two minutes later: the social source is idle. -/
def quietSource : List EngineCall :=
  [.ingest (tradeSignal "market-start" testStart), .ingest (actorPost "social-start" testStart),
    .ingest (tradeSignal "market-future" (testStart + timedeltaSeconds 120))]

/-- A post half a minute before the last trade. -/
def wokenSource : EngineCall :=
  .ingest (actorPost "social-late" (testStart + timedeltaSeconds 90))

theorem qualityFree_quietSource : ∀ call ∈ quietSource ++ [wokenSource], call.QualityFree := by
  intro call hcall
  simp only [quietSource, wokenSource, List.cons_append, List.nil_append, List.mem_cons,
    List.not_mem_nil, or_false] at hcall
  rcases hcall with rfl | rfl | rfl | rfl <;> exact fun h => nomatch h

theorem mark_quietSource :
    (watermark idleAfterMinute "LIVE" "S2MUSDT" (afterCalls idleAfterMinute quietSource)).1 =
      .ok (some (testStart + timedeltaSeconds 120)) := by
  decide +kernel

/-- **The fusion watermark goes back** when the social source wakes. -/
theorem watermark_goes_back :
    ¬ ∀ (cfg : EngineConfig) (before after : List EngineCall) (scopeId assetId : String)
      (mark mark' : Datetime), (∀ call ∈ before ++ after, call.QualityFree) →
      (watermark cfg scopeId assetId (afterCalls cfg before)).1 = .ok (some mark) →
      (watermark cfg scopeId assetId (afterCalls cfg (before ++ after))).1 = .ok (some mark') →
      mark ≤ mark' := by
  intro h
  have hback : (watermark idleAfterMinute "LIVE" "S2MUSDT"
      (afterCalls idleAfterMinute (quietSource ++ [wokenSource]))).1 =
      .ok (some (testStart + timedeltaSeconds 90)) := by decide +kernel
  have hle := h idleAfterMinute quietSource [wokenSource] "LIVE" "S2MUSDT" _ _
    qualityFree_quietSource mark_quietSource hback
  exact absurd hle (by decide)

/-- The watermark of the idle source's asset stays within the idle time. -/
theorem fusion_watermark_woken :
    ∃ mark', (watermark idleAfterMinute "LIVE" "S2MUSDT"
        (afterCalls idleAfterMinute (quietSource ++ [wokenSource]))).1 = .ok (some mark') ∧
      (testStart + timedeltaSeconds 120 ≤ mark' ∨
        testStart + timedeltaSeconds 120 - timedeltaSeconds 60 < mark') := by
  obtain ⟨mark', hmark', hbound, -, -⟩ :=
    fusion_watermark idleAfterMinute qualityFree_quietSource mark_quietSource
  exact ⟨mark', hmark', hbound⟩

end Features
end Scam2Market
