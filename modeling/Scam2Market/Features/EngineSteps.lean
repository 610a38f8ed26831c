import Scam2Market.Features.Engine
import Scam2Market.Library.Lists
import Scam2Market.Library.StableSort
import Mathlib.Logic.Relation
import Mathlib.Tactic.Ring
import Mathlib.Tactic.Push

/-!
# What a step of the engine does

Every method of the engine is a sequence of three kinds of steps: a query of the watermarks, a
signal put into a window, and one revision appended to a window.

* `Marked` is what a query may change: the idle flags of sources that have been quiet for too long.
  The watermarks do not see the marks (`fusionOf_eq_of_marked`), so they stay the same for as long
  as no signal is registered.
* `watermark_apply`, `buildRevision_ok` and `buildRevision_cases` say everything a query and a build
  do, whatever the outcome; `makeSnapshot_eq_ok` says what a revision holds.
* `EngineStep` is the step relation and `ingest_steps` decomposes a call; what every step keeps,
  every call keeps (`EngineSteps.invariant`).
* `Keyed`: the log has one signal for each id that was seen.
-/

namespace Scam2Market
namespace Features

open Library
open Library.Procedure

variable {cfg : EngineConfig}

/-! ## Queries of the watermarks -/

/-- What a state is after queries of the watermarks of a scope and asset: every source is in the
state it was in, or it is one of theirs, has been quiet for too long and is marked idle. -/
structure Marked (cfg : EngineConfig) (scopeId assetId : String) (s t : EngineState) : Prop where
  maxEventTime : t.maxEventTime = s.maxEventTime
  seenEventIds : t.seenEventIds = s.seenEventIds
  authorFirstSeen : t.authorFirstSeen = s.authorFirstSeen
  signalLog : t.signalLog = s.signalLog
  sources : ∀ key : SourceKey,
    t.sourceStates.get? key = s.sourceStates.get? key ∨
      ∃ state, key.1 = scopeId ∧ key.2.1 = assetId ∧ s.sourceStates.get? key = some state ∧
        becomesIdle cfg (globalMax s key.1 key.2.1) (some state) (s.maxEventTime.get? key) = true ∧
        t.sourceStates.get? key = some { state with active := true, idle := true }

theorem globalMax_congr {s t : EngineState} (h : t.maxEventTime = s.maxEventTime)
    (scopeId assetId : String) : globalMax t scopeId assetId = globalMax s scopeId assetId := by
  rw [globalMax, globalMax, h]

section Marked

variable {scopeId assetId : String}

theorem Marked.refl (s : EngineState) : Marked cfg scopeId assetId s s :=
  ⟨rfl, rfl, rfl, rfl, fun _ => Or.inl rfl⟩

theorem Marked.trans {s t u : EngineState} (hst : Marked cfg scopeId assetId s t)
    (htu : Marked cfg scopeId assetId t u) : Marked cfg scopeId assetId s u := by
  refine ⟨htu.maxEventTime.trans hst.maxEventTime, htu.seenEventIds.trans hst.seenEventIds,
    htu.authorFirstSeen.trans hst.authorFirstSeen, htu.signalLog.trans hst.signalLog,
    fun key => ?_⟩
  have hmax := globalMax_congr hst.maxEventTime key.1 key.2.1
  rcases htu.sources key with hu | ⟨state, hscope, hasset, hstate, hidle, hu⟩
  · rw [hu]
    exact hst.sources key
  · rw [hmax, hst.maxEventTime] at hidle
    rcases hst.sources key with ht | ⟨state', -, -, hstate', hidle', ht⟩
    · exact Or.inr ⟨state, hscope, hasset, ht ▸ hstate, hidle, hu⟩
    · -- marked twice
      obtain rfl : { state' with active := true, idle := true } = state :=
        Option.some.inj (ht.symm.trans hstate)
      exact Or.inr ⟨state', hscope, hasset, hstate', hidle', hu⟩

/-- A mark does not change the watermark of the source: it is looked at before the flag. -/
theorem domainWatermark_of_becomesIdle {latest maximum : Option Datetime} {state : SourceState}
    (h : becomesIdle cfg latest (some state) maximum = true) :
    domainWatermark cfg latest (some { state with active := true, idle := true }) maximum =
      domainWatermark cfg latest (some state) maximum := by
  obtain ⟨hdeg, hquiet⟩ : state.degraded = false ∧ quietTooLong cfg latest maximum = true := by
    simpa [becomesIdle] using h
  simp only [domainWatermark, hdeg, hquiet, if_true]

/-- The watermark of a domain in a state. -/
def domainMark (cfg : EngineConfig) (st : EngineState) (scopeId assetId : String)
    (domain : SourceDomain) : Option Datetime :=
  domainWatermark cfg (globalMax st scopeId assetId)
    (st.sourceStates.get? (scopeId, assetId, domain))
    (st.maxEventTime.get? (scopeId, assetId, domain))

/-- The fusion watermark of a state. -/
def fusionOf (cfg : EngineConfig) (st : EngineState) (scopeId assetId : String) :
    Except PyError (Option Datetime) :=
  fusionWatermark cfg (.ofEntries (cfg.requiredDomains.map fun domain =>
    (domain, domainMark cfg st scopeId assetId domain)))

theorem domainMark_eq_of_marked {s t : EngineState} (h : Marked cfg scopeId assetId s t)
    (scopeId' assetId' : String) (domain : SourceDomain) :
    domainMark cfg t scopeId' assetId' domain = domainMark cfg s scopeId' assetId' domain := by
  unfold domainMark
  rw [globalMax_congr h.maxEventTime, h.maxEventTime]
  rcases h.sources (scopeId', assetId', domain) with ht | ⟨state, -, -, hs, hidle, ht⟩
  · rw [ht]
  · rw [ht, hs, domainWatermark_of_becomesIdle hidle]

/-- **The watermarks do not see the idle marks.** -/
theorem fusionOf_eq_of_marked {s t : EngineState} (h : Marked cfg scopeId assetId s t)
    (scopeId' assetId' : String) :
    fusionOf cfg t scopeId' assetId' = fusionOf cfg s scopeId' assetId' := by
  unfold fusionOf
  simp only [domainMark_eq_of_marked h]

/-- What queries of the watermarks of a scope and asset change. -/
structure Queried (cfg : EngineConfig) (scopeId assetId : String) (s t : EngineState) : Prop
    extends Marked cfg scopeId assetId s t where
  events : t.events = s.events
  revisions : t.revisions = s.revisions

theorem Queried.refl (s : EngineState) : Queried cfg scopeId assetId s s :=
  ⟨Marked.refl s, rfl, rfl⟩

theorem Queried.trans {s t u : EngineState} (hst : Queried cfg scopeId assetId s t)
    (htu : Queried cfg scopeId assetId t u) : Queried cfg scopeId assetId s u :=
  ⟨hst.toMarked.trans htu.toMarked, htu.events.trans hst.events,
    htu.revisions.trans hst.revisions⟩

end Marked

theorem Queried.revisionsOf {scopeId assetId : String} {s t : EngineState}
    (h : Queried cfg scopeId assetId s t) (key : WindowKey) :
    t.revisionsOf key = s.revisionsOf key := by
  rw [EngineState.revisionsOf, h.revisions]
  rfl

/-- Marking a source that has been quiet for too long. -/
theorem queried_markIdle {st : EngineState} {key : SourceKey}
    (h : becomesIdle cfg (globalMax st key.1 key.2.1) (st.sourceStates.get? key)
      (st.maxEventTime.get? key) = true) : Queried cfg key.1 key.2.1 st (markIdle key st) := by
  rcases hst : st.sourceStates.get? key with _ | state
  · rw [hst] at h
    exact absurd h (by simp [becomesIdle])
  · rw [hst] at h
    have hmark : markIdle key st = { st with
        sourceStates := st.sourceStates.set key { state with active := true, idle := true } } := by
      rw [markIdle, hst]
    rw [hmark]
    refine ⟨⟨rfl, rfl, rfl, rfl, fun key' => ?_⟩, rfl, rfl⟩
    by_cases hkey : key' = key
    · subst hkey
      exact Or.inr ⟨state, rfl, rfl, hst, h, OrderedDict.get?_set_self _ _ _⟩
    · exact Or.inl (OrderedDict.get?_set_of_ne _ _ hkey)

theorem watermarkOf_apply (cfg : EngineConfig) (scopeId assetId : String) (domain : SourceDomain) (st : EngineState) :
    watermarkOf cfg scopeId assetId (globalMax st scopeId assetId) domain st =
      (.ok (domain, domainMark cfg st scopeId assetId domain),
        if becomesIdle cfg (globalMax st scopeId assetId)
            (st.sourceStates.get? (scopeId, assetId, domain))
            (st.maxEventTime.get? (scopeId, assetId, domain)) then
          markIdle (scopeId, assetId, domain) st
        else st) := rfl

/-- A round marks at most its own source. -/
theorem queried_watermarkOf (cfg : EngineConfig) (scopeId assetId : String) (domain : SourceDomain)
    (st : EngineState) : Queried cfg scopeId assetId st
      (watermarkOf cfg scopeId assetId (globalMax st scopeId assetId) domain st).2 := by
  rw [watermarkOf_apply]
  by_cases hidle : becomesIdle cfg (globalMax st scopeId assetId)
      (st.sourceStates.get? (scopeId, assetId, domain))
      (st.maxEventTime.get? (scopeId, assetId, domain)) = true
  · rw [if_pos hidle]
    exact queried_markIdle hidle
  · rw [if_neg hidle]
    exact Queried.refl st

theorem forEach_watermarkOf (cfg : EngineConfig) (scopeId assetId : String)
    (domains : List SourceDomain) :
    ∀ st : EngineState, ∃ t, Queried cfg scopeId assetId st t ∧
      forEach (watermarkOf cfg scopeId assetId (globalMax st scopeId assetId)) domains st =
        (.ok (domains.map fun domain => (domain, domainMark cfg st scopeId assetId domain)),
          t) := by
  induction domains with
  | nil => exact fun st => ⟨st, Queried.refl st, rfl⟩
  | cons domain domains ih =>
    intro st
    let st' := (watermarkOf cfg scopeId assetId (globalMax st scopeId assetId) domain st).2
    have hround : watermarkOf cfg scopeId assetId (globalMax st scopeId assetId) domain st =
        (.ok (domain, domainMark cfg st scopeId assetId domain), st') :=
      Prod.ext (by rw [watermarkOf_apply]) rfl
    have hst' : Queried cfg scopeId assetId st st' :=
      queried_watermarkOf cfg scopeId assetId domain st
    -- the other rounds compute what they would have computed without the mark
    obtain ⟨t, ht, hrest⟩ := ih st'
    simp only [globalMax_congr hst'.maxEventTime, domainMark_eq_of_marked hst'.toMarked] at hrest
    refine ⟨t, hst'.trans ht, ?_⟩
    rw [forEach_cons, bind_of_ok hround, bind_of_ok hrest]
    rfl

/-- A query of the watermarks at most marks sources idle. -/
theorem queried_watermarks (cfg : EngineConfig) (scopeId assetId : String) (st : EngineState) :
    Queried cfg scopeId assetId st (watermarks cfg scopeId assetId st).2 := by
  obtain ⟨t, ht, hloop⟩ := forEach_watermarkOf cfg scopeId assetId cfg.requiredDomains st
  rw [watermarks, reading_bind, bind_of_ok hloop, bind_apply, ofExcept_apply]
  rcases fusionWatermark cfg _ with e | mark
  · exact ht
  · exact ht

/-- A query of the fusion watermark returns that of the state, and at most marks sources idle. -/
theorem watermark_apply (cfg : EngineConfig) (scopeId assetId : String) (st : EngineState) :
    ∃ t, Queried cfg scopeId assetId st t ∧
      watermark cfg scopeId assetId st = (fusionOf cfg st scopeId assetId, t) := by
  obtain ⟨t, ht, hloop⟩ := forEach_watermarkOf cfg scopeId assetId cfg.requiredDomains st
  refine ⟨t, ht, ?_⟩
  have hall : watermarks cfg scopeId assetId st =
      (ofExcept (fusionOf cfg st scopeId assetId) >>= fun fusion =>
        pure ⟨.ofEntries (cfg.requiredDomains.map fun domain =>
          (domain, domainMark cfg st scopeId assetId domain)), fusion⟩) t := by
    rw [watermarks, reading_bind, bind_of_ok hloop]
    rfl
  rw [watermark, bind_apply, hall, bind_apply, ofExcept_apply]
  rcases fusionOf cfg st scopeId assetId with e | mark
  · rfl
  · rfl

/-! ## What the formulas read -/

theorem filter_filter_of_imp {α : Type} {p q : α → Bool} (h : ∀ a, p a = true → q a = true)
    (l : List α) : (l.filter q).filter p = l.filter p := by
  rw [List.filter_filter]
  refine List.filter_congr fun a _ => ?_
  cases hp : p a with
  | true => simp [h a hp]
  | false => simp

/-- The formulas of a window see no other windows than the earlier ones. -/
theorem windowInputs_restrict (events : OrderedDict WindowKey (List FeatureSignal))
    {key : WindowKey} {p : WindowKey → Bool}
    (hp : ∀ candidate, isEarlier key candidate = true → p candidate = true)
    (signals : List FeatureSignal) :
    windowInputs (events.restrict p) key signals = windowInputs events key signals := by
  have htrailing : trailingVolumes (events.restrict p) key = trailingVolumes events key := by
    unfold trailingVolumes byStart
    rw [filter_insertionSort, filter_insertionSort, OrderedDict.entries_restrict,
      filter_filter_of_imp fun item hitem => hp item.1 hitem]
  have hprior : priorWindowCount (events.restrict p) key = priorWindowCount events key := by
    unfold priorWindowCount
    rw [OrderedDict.keys_restrict, List.countP_eq_length_filter, List.countP_eq_length_filter,
      filter_filter_of_imp hp]
  rw [windowInputs, windowInputs, htrailing, hprior]

/-- Writing into a window that is not earlier is not seen. -/
theorem windowInputs_set (events : OrderedDict WindowKey (List FeatureSignal))
    {key key' : WindowKey} (h : isEarlier key key' = false) (stored signals : List FeatureSignal) :
    windowInputs (events.set key' stored) key signals = windowInputs events key signals := by
  rw [← windowInputs_restrict (events.set key' stored) (fun _ hc => hc),
    OrderedDict.restrict_set_of_neg _ _ h, windowInputs_restrict events fun _ hc => hc]

/-- The length of a window is its interval. -/
theorem intervalSeconds_eq (key : WindowKey) :
    intervalSeconds key.windowStart key.windowEnd = key.interval := by
  have hlen : totalSeconds (key.windowEnd - key.windowStart) = ((key.interval : ℤ) : ℚ) := by
    unfold totalSeconds WindowKey.windowEnd timedeltaSeconds
    push_cast
    ring
  unfold intervalSeconds truncate
  rw [hlen, Rat.num_intCast, Rat.den_intCast]
  simp

theorem isEarlier_iff {key candidate : WindowKey} : isEarlier key candidate = true ↔
    candidate.scopeId = key.scopeId ∧ candidate.assetId = key.assetId ∧
      candidate.interval = key.interval ∧ candidate.windowStart < key.windowStart := by
  unfold isEarlier
  rw [decide_eq_true_iff, intervalSeconds_eq, Nat.cast_inj]

/-! ## Building a revision -/

/-- What a new revision holds. -/
theorem makeSnapshot_eq_ok {st : EngineState} {key : WindowKey} {signals : List FeatureSignal}
    {prior : List FeatureSnapshot} {shouldFinalize : Bool} {snapshot : FeatureSnapshot}
    (h : makeSnapshot cfg st key signals prior shouldFinalize = .ok snapshot) :
    ∃ features, computeFeatures st key signals = .ok features ∧
      snapshot.toSnapshotFields = snapshotFields cfg key signals prior shouldFinalize features := by
  unfold makeSnapshot at h
  rcases hf : computeFeatures st key signals with e | features
  · rw [hf] at h
    exact absurd h (by simp [bind, Except.bind])
  · rw [hf] at h
    exact ⟨features, rfl, SnapshotFields.validate_eq_ok h⟩

/-- The fusion watermark of the window's scope and asset has passed its end. -/
def Passed (cfg : EngineConfig) (st : EngineState) (key : WindowKey) : Prop :=
  ∃ mark, fusionOf cfg st key.scopeId key.assetId = .ok (some mark) ∧ key.windowEnd ≤ mark

theorem passed_iff_of_marked {scopeId assetId : String} {s t : EngineState}
    (h : Marked cfg scopeId assetId s t) {key : WindowKey} :
    Passed cfg t key ↔ Passed cfg s key := by
  unfold Passed
  rw [fusionOf_eq_of_marked h]

/-- What a build did when it returned `snapshot`. -/
structure Built (cfg : EngineConfig) (key : WindowKey) (forceFinal : Bool) (s : EngineState)
    (snapshot : FeatureSnapshot) (s' : EngineState) : Prop where
  intro ::
  steps : ∃ events mark t, s.events.get? key = some events ∧
    fusionOf cfg s key.scopeId key.assetId = .ok mark ∧
    Queried cfg key.scopeId key.assetId s t ∧
    makeSnapshot cfg t key (sortSignals events) (s.revisionsOf key)
      (forceFinal || hasPassed mark key.windowEnd) = .ok snapshot ∧
    s' = appendRevision key snapshot t

/-- **Everything a build does**: it raises and has only queried the watermarks, or it appends one
revision made of the signals of the window. -/
theorem buildRevision_cases (cfg : EngineConfig) (key : WindowKey) (forceFinal : Bool)
    (s : EngineState) :
    (∃ e t, Queried cfg key.scopeId key.assetId s t ∧
        buildRevision cfg key forceFinal s = (.error e, t)) ∨
      ∃ snapshot s', Built cfg key forceFinal s snapshot s' ∧
        buildRevision cfg key forceFinal s = (.ok snapshot, s') := by
  unfold buildRevision
  rw [reading_bind]
  rcases hev : s.events.get? key with _ | events
  · exact Or.inl ⟨.keyError "window", s, Queried.refl s, rfl⟩
  · obtain ⟨t, ht, hwm⟩ := watermark_apply cfg key.scopeId key.assetId s
    simp only [reading_bind]
    rcases hf : fusionOf cfg s key.scopeId key.assetId with e | mark
    · rw [hf] at hwm
      exact Or.inl ⟨e, t, ht, bind_of_error hwm⟩
    · rw [hf] at hwm
      rw [bind_of_ok hwm, reading_bind, bind_apply, ofExcept_apply]
      rcases hmk : makeSnapshot cfg t key (sortSignals events) (s.revisionsOf key)
        (forceFinal || hasPassed mark key.windowEnd) with e | snapshot
      · exact Or.inl ⟨e, t, ht, rfl⟩
      · exact Or.inr ⟨snapshot, appendRevision key snapshot t,
          ⟨events, mark, t, hev, hf, ht, hmk, rfl⟩, rfl⟩

theorem buildRevision_ok {key : WindowKey} {forceFinal : Bool} {s s' : EngineState}
    {snapshot : FeatureSnapshot} (h : buildRevision cfg key forceFinal s = (.ok snapshot, s')) :
    Built cfg key forceFinal s snapshot s' := by
  rcases buildRevision_cases cfg key forceFinal s with ⟨e, t, -, he⟩ | ⟨_, _, hb, hok⟩
  · rw [he] at h
    exact absurd (congrArg Prod.fst h) (by simp)
  · rw [hok] at h
    obtain ⟨rfl, rfl⟩ : _ = snapshot ∧ _ = s' := by simpa using h
    exact hb

namespace Built

variable {key : WindowKey} {forceFinal : Bool} {s s' : EngineState} {snapshot : FeatureSnapshot}

theorem marked (h : Built cfg key forceFinal s snapshot s') :
    Marked cfg key.scopeId key.assetId s s' := by
  obtain ⟨-, -, t, -, -, ht, -, rfl⟩ := h
  exact ⟨ht.maxEventTime, ht.seenEventIds, ht.authorFirstSeen, ht.signalLog, ht.sources⟩

theorem events (h : Built cfg key forceFinal s snapshot s') : s'.events = s.events := by
  obtain ⟨-, -, t, -, -, ht, -, rfl⟩ := h
  exact ht.events

theorem revisions (h : Built cfg key forceFinal s snapshot s') :
    s'.revisions = s.revisions.set key (s.revisionsOf key ++ [snapshot]) := by
  obtain ⟨-, -, t, -, -, ht, -, rfl⟩ := h
  show t.revisions.set key (t.revisions.getD key [] ++ [snapshot]) = _
  rw [ht.revisions]
  rfl

/-- The window has one revision more. -/
theorem revisionsOf_self (h : Built cfg key forceFinal s snapshot s') :
    s'.revisionsOf key = s.revisionsOf key ++ [snapshot] := by
  rw [EngineState.revisionsOf, h.revisions, OrderedDict.getD_set_self]

/-- The other windows are as they were. -/
theorem revisionsOf_of_ne (h : Built cfg key forceFinal s snapshot s') {key' : WindowKey}
    (hne : key' ≠ key) : s'.revisionsOf key' = s.revisionsOf key' := by
  rw [EngineState.revisionsOf, h.revisions, OrderedDict.getD_set_of_ne _ _ _ hne]
  rfl

end Built

/-! ## Steps -/

/-- One step of the handling of a signal: a query, the signal put into one of its windows, or a
build.  A build is forced only when the window was final or when its end has passed. -/
inductive EngineStep (cfg : EngineConfig) (signal : FeatureSignal) :
    EngineState → EngineState → Prop where
  | query {s t : EngineState} (h : Queried cfg signal.scopeId signal.assetId s t) :
      EngineStep cfg signal s t
  | event {s : EngineState} (interval : ℕ) (h : interval ∈ cfg.intervals) :
      EngineStep cfg signal s (appendEvent (signal.windowKey interval) signal s)
  | build {s s' : EngineState} (key : WindowKey) (forceFinal : Bool) (snapshot : FeatureSnapshot)
      (hscope : key.scopeId = signal.scopeId) (hasset : key.assetId = signal.assetId)
      (hforce : forceFinal = true → s.lastIsFinal key = true ∨ Passed cfg s key)
      (h : buildRevision cfg key forceFinal s = (.ok snapshot, s')) : EngineStep cfg signal s s'

/-- The steps of a call. -/
abbrev EngineSteps (cfg : EngineConfig) (signal : FeatureSignal) :
    EngineState → EngineState → Prop :=
  Relation.ReflTransGen (EngineStep cfg signal)

variable {signal : FeatureSignal}

instance : Std.Refl (EngineSteps cfg signal) :=
  ⟨fun _ => Relation.ReflTransGen.refl⟩

instance : IsTrans EngineState (EngineSteps cfg signal) :=
  ⟨fun _ _ _ => Relation.ReflTransGen.trans⟩

/-- **The step rule.**  What every step keeps, the steps of a call keep. -/
theorem EngineSteps.invariant {P : EngineState → Prop}
    (hstep : ∀ s t, EngineStep cfg signal s t → P s → P t) {s t : EngineState}
    (h : EngineSteps cfg signal s t) (hs : P s) : P t := by
  induction h with
  | refl => exact hs
  | tail _ hlast ih => exact hstep _ _ hlast ih

theorem EngineStep.marked {s t : EngineState} (h : EngineStep cfg signal s t) :
    Marked cfg signal.scopeId signal.assetId s t := by
  cases h with
  | query h => exact h.toMarked
  | event => exact ⟨rfl, rfl, rfl, rfl, fun _ => Or.inl rfl⟩
  | build key forceFinal snapshot hscope hasset hforce h =>
    rw [← hscope, ← hasset]
    exact (buildRevision_ok h).marked

theorem EngineSteps.marked {s t : EngineState} (h : EngineSteps cfg signal s t) :
    Marked cfg signal.scopeId signal.assetId s t :=
  h.invariant (fun _ _ hstep hst => hst.trans hstep.marked) (Marked.refl s)

theorem steps_buildRevision {key : WindowKey} {forceFinal : Bool} {s : EngineState}
    (hscope : key.scopeId = signal.scopeId) (hasset : key.assetId = signal.assetId)
    (hforce : forceFinal = true → s.lastIsFinal key = true ∨ Passed cfg s key) :
    EngineSteps cfg signal s (buildRevision cfg key forceFinal s).2 := by
  rcases buildRevision_cases cfg key forceFinal s with ⟨e, t, ht, he⟩ | ⟨snapshot, s', -, hok⟩
  · rw [he]
    rw [hscope, hasset] at ht
    exact .single (.query ht)
  · rw [hok]
    exact .single (.build key forceFinal snapshot hscope hasset hforce hok)

theorem rebuildDownstream_apply (key : WindowKey) (s : EngineState) :
    rebuildDownstream cfg key s = buildRevision cfg key (s.lastIsFinal key) s := rfl

theorem mem_downstreamKeys {st : EngineState} {key candidate : WindowKey} :
    candidate ∈ downstreamKeys st key ↔ candidate ∈ st.revisions.keys ∧
      candidate.scopeId = key.scopeId ∧ candidate.assetId = key.assetId ∧
        candidate.interval = key.interval ∧ key.windowStart < candidate.windowStart := by
  rw [downstreamKeys, List.mem_insertionSort, List.mem_filter, decide_eq_true_iff]

theorem steps_ingestInterval {interval : ℕ} (hmem : interval ∈ cfg.intervals) :
    Keeps (EngineSteps cfg signal) (ingestInterval cfg signal interval) := by
  refine keeps_bind (keeps_modify fun s => .single (.event interval hmem)) fun _ => ?_
  refine keeps_bind (fun s => steps_buildRevision rfl rfl (by simp)) fun own => ?_
  intro s
  rw [reading_bind]
  refine keeps_bind (keeps_forEach fun key hkey s' => ?_) (fun _ => keeps_pure _) s
  obtain ⟨-, hscope, hasset, -, -⟩ := mem_downstreamKeys.mp hkey
  rw [rebuildDownstream_apply]
  exact steps_buildRevision hscope hasset Or.inl

/-- A round of the sweep, while the fusion watermark is the one the sweep has read. -/
theorem steps_finalizeIfEligible {mark : Datetime} {key : WindowKey} {s : EngineState}
    (hmark : fusionOf cfg s signal.scopeId signal.assetId = .ok (some mark)) :
    EngineSteps cfg signal s
      (finalizeIfEligible cfg signal.scopeId signal.assetId mark key s).2 := by
  unfold finalizeIfEligible
  by_cases hkey : key.scopeId ≠ signal.scopeId ∨ key.assetId ≠ signal.assetId
  · rw [if_pos hkey]
    exact .refl
  · rw [if_neg hkey, reading_bind]
    obtain ⟨hscope, hasset⟩ := not_or.mp hkey
    rw [not_not] at hscope hasset
    split_ifs with hfinal hend
    · exact .refl
    · have hpassed : Passed cfg s key := ⟨mark, by rw [hscope, hasset]; exact hmark, hend⟩
      rw [bind_apply]
      have hbuild : EngineSteps cfg signal s (buildRevision cfg key true s).2 :=
        steps_buildRevision hscope hasset fun _ => Or.inr hpassed
      rcases hb : buildRevision cfg key true s with ⟨e | snapshot, s'⟩
      · rwa [hb] at hbuild
      · rwa [hb] at hbuild
    · exact .refl

theorem steps_finalizeEligible :
    Keeps (EngineSteps cfg signal) (finalizeEligible cfg signal.scopeId signal.assetId) := by
  intro s
  obtain ⟨t, ht, hwm⟩ := watermark_apply cfg signal.scopeId signal.assetId s
  have hquery : EngineSteps cfg signal s t := .single (.query ht)
  unfold finalizeEligible
  rcases hf : fusionOf cfg s signal.scopeId signal.assetId with e | mark
  · rw [hf] at hwm
    rw [bind_of_error hwm]
    exact hquery
  · rw [hf] at hwm
    rw [bind_of_ok hwm]
    cases mark with
    | none => exact hquery
    | some mark =>
      -- the relation of the loop: steps, for as long as the watermark is `mark`
      let R : EngineState → EngineState → Prop := fun s t =>
        fusionOf cfg s signal.scopeId signal.assetId = .ok (some mark) → EngineSteps cfg signal s t
      have : Std.Refl R := ⟨fun _ _ => .refl⟩
      have : IsTrans EngineState R := ⟨fun a b c hab hbc ha =>
        (hab ha).trans (hbc (by rw [fusionOf_eq_of_marked (hab ha).marked, ha]))⟩
      have hloop : Keeps R (flatForEach
          (finalizeIfEligible cfg signal.scopeId signal.assetId mark) t.revisions.keys) :=
        keeps_flatForEach fun key _ s hs => steps_finalizeIfEligible hs
      exact hquery.trans (hloop t (by rw [fusionOf_eq_of_marked ht.toMarked, hf]))

/-- What every build keeps, a round of the sweep keeps. -/
theorem keeps_finalizeIfEligible {R : EngineState → EngineState → Prop} [Std.Refl R]
    [IsTrans EngineState R] {scopeId assetId : String}
    (hbuild : ∀ key, key.scopeId = scopeId → key.assetId = assetId →
      Keeps R (buildRevision cfg key true)) (mark : Datetime) (key : WindowKey) :
    Keeps R (finalizeIfEligible cfg scopeId assetId mark key) := by
  unfold finalizeIfEligible
  by_cases hkey : key.scopeId ≠ scopeId ∨ key.assetId ≠ assetId
  · rw [if_pos hkey]
    exact keeps_pure []
  · rw [if_neg hkey]
    obtain ⟨hscope, hasset⟩ := not_or.mp hkey
    rw [not_not] at hscope hasset
    refine keeps_bind (keeps_reading _) fun isFinal => ?_
    split_ifs
    · exact keeps_pure []
    · exact keeps_bind (hbuild key hscope hasset) fun _ => keeps_pure _
    · exact keeps_pure []

/-- What the query of the sweep establishes and its builds keep, the sweep establishes. -/
theorem finalizeEligible_of_watermark {scopeId assetId : String} {P : EngineState → Prop}
    (hbuild : ∀ key, key.scopeId = scopeId → key.assetId = assetId →
      ∀ s, P s → P (buildRevision cfg key true s).2) {s : EngineState}
    (hs : P (watermark cfg scopeId assetId s).2) :
    P (finalizeEligible cfg scopeId assetId s).2 := by
  let R : EngineState → EngineState → Prop := fun s t => P s → P t
  have : Std.Refl R := ⟨fun _ h => h⟩
  have : IsTrans EngineState R := ⟨fun _ _ _ hab hbc h => hbc (hab h)⟩
  unfold finalizeEligible
  rcases hwm : watermark cfg scopeId assetId s with ⟨e | mark, t⟩
  · rw [bind_of_error hwm]
    rwa [hwm] at hs
  · rw [bind_of_ok hwm]
    rw [hwm] at hs
    cases mark with
    | none => exact hs
    | some mark =>
      have hloop : Keeps R (flatForEach (finalizeIfEligible cfg scopeId assetId mark)
          t.revisions.keys) :=
        keeps_flatForEach fun key _ =>
          keeps_finalizeIfEligible (fun key hscope hasset s => hbuild key hscope hasset s) mark key
      exact hloop t hs

/-! ## Calls -/

/-- A signal that was seen before changes nothing. -/
theorem ingest_of_seen {s : EngineState} (h : signal.seenKey ∈ s.seenEventIds) :
    ingest cfg signal s = (.ok [], s) := by
  unfold ingest
  rw [reading_bind, decide_eq_true h]
  rfl

theorem ingest_of_new {s : EngineState} (h : signal.seenKey ∉ s.seenEventIds) :
    ingest cfg signal s =
      (flatForEach (ingestInterval cfg signal) cfg.intervals >>= fun changed =>
        finalizeEligible cfg signal.scopeId signal.assetId >>= fun finalized =>
          pure (changed ++ finalized)) (register signal s) := by
  unfold ingest
  rw [reading_bind, decide_eq_false h]
  rfl

/-- **A call is a sequence of steps** after the signal is registered, whatever its outcome. -/
theorem ingest_steps {s : EngineState} (h : signal.seenKey ∉ s.seenEventIds) :
    EngineSteps cfg signal (register signal s) (ingest cfg signal s).2 := by
  rw [ingest_of_new h]
  have hbody : Keeps (EngineSteps cfg signal)
      (flatForEach (ingestInterval cfg signal) cfg.intervals >>= fun changed =>
        finalizeEligible cfg signal.scopeId signal.assetId >>= fun finalized =>
          pure (changed ++ finalized)) :=
    keeps_bind (keeps_flatForEach fun interval hmem => steps_ingestInterval hmem) fun _ =>
      keeps_bind steps_finalizeEligible fun _ => keeps_pure _
  exact hbody (register signal s)

/-- What registering and every step keep, every call keeps. -/
theorem ingest_invariant {P : EngineState → Prop} (signal : FeatureSignal)
    (hreg : ∀ s, signal.seenKey ∉ s.seenEventIds → P s → P (register signal s))
    (hstep : ∀ s t, EngineStep cfg signal s t → P s → P t) {s : EngineState} (hs : P s) :
    P (ingest cfg signal s).2 := by
  by_cases hseen : signal.seenKey ∈ s.seenEventIds
  · rw [ingest_of_seen hseen]
    exact hs
  · exact (ingest_steps hseen).invariant hstep (hreg s hseen hs)

/-! ## The log -/

/-- A call adds the event id of its signal to those that were seen, and no other. -/
theorem seenEventIds_ingest (signal : FeatureSignal) (st : EngineState) :
    (ingest cfg signal st).2.seenEventIds = insert signal.seenKey st.seenEventIds := by
  by_cases hseen : signal.seenKey ∈ st.seenEventIds
  · rw [ingest_of_seen hseen, Finset.insert_eq_of_mem hseen]
  · rw [(ingest_steps hseen).marked.seenEventIds]
    rfl

/-- A call logs its signal, unless one with its id was seen. -/
theorem signalLog_ingest (signal : FeatureSignal) (st : EngineState) :
    (ingest cfg signal st).2.signalLog =
      if signal.seenKey ∈ st.seenEventIds then st.signalLog else st.signalLog ++ [signal] := by
  by_cases hseen : signal.seenKey ∈ st.seenEventIds
  · rw [ingest_of_seen hseen, if_pos hseen]
  · rw [(ingest_steps hseen).marked.signalLog, if_neg hseen]
    rfl

/-- The log has one signal for each id that was seen. -/
structure Keyed (st : EngineState) : Prop where
  nodup : (st.signalLog.map FeatureSignal.seenKey).Nodup
  seen : ∀ key, key ∈ st.seenEventIds ↔ key ∈ st.signalLog.map FeatureSignal.seenKey

theorem keyed_initial : Keyed .initial where
  nodup := List.nodup_nil
  seen key := iff_of_false (Finset.notMem_empty key) List.not_mem_nil

theorem Keyed.ingest {st : EngineState} (h : Keyed st) (signal : FeatureSignal) :
    Keyed (ingest cfg signal st).2 := by
  by_cases hseen : signal.seenKey ∈ st.seenEventIds
  · rw [ingest_of_seen hseen]
    exact h
  · have hlog : (Features.ingest cfg signal st).2.signalLog = st.signalLog ++ [signal] := by
      rw [signalLog_ingest, if_neg hseen]
    constructor
    · rw [hlog, List.map_append]
      refine List.Nodup.append h.nodup (List.nodup_singleton _) ?_
      rw [List.map_singleton, List.disjoint_singleton]
      exact fun hmem => hseen ((h.seen _).mpr hmem)
    · intro key
      rw [seenEventIds_ingest, hlog, List.map_append, Finset.mem_insert, List.mem_append,
        List.map_singleton, List.mem_singleton, h.seen key]
      exact or_comm

/-- **A signal of the log is the only one with its id.** -/
theorem Keyed.filter_eq {st : EngineState} (h : Keyed st) {signal : FeatureSignal}
    (hmem : signal ∈ st.signalLog) :
    st.signalLog.filter (fun other => other.seenKey = signal.seenKey) = [signal] :=
  Library.filter_eq_singleton_of_nodup_map h.nodup hmem

end Features
end Scam2Market
