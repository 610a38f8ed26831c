import Scam2Market.Features.EngineSteps

/-!
# Scopes and assets do not see each other

All scopes and assets share the dictionaries of the engine.  `P` says which pairs of a scope and an
asset a party looks at, and `SameView P run` relates two states the party cannot tell apart while it
handles the signals of `run`.

* `agree_ingest`: handling a signal of `P` has the same outcome in both states and keeps them
  related.  Each filter on the dictionaries contributes one lemma (`globalMax_eq`,
  `windowInputs_eq`, `downstreamKeys_eq`, `agree_finalizeEligible`, `latest_eq`).
* `sameView_ingest`: handling a signal outside `P` cannot be seen.
* `ingest_isolated`: deleting the signals outside `P` from a run changes nothing `P` can observe.
-/

namespace Scam2Market
namespace Features

open Library
open Library.Procedure

variable {cfg : EngineConfig}

/-- The windows of the pairs of `P`. -/
def ofWindow (P : String → String → Bool) (key : WindowKey) : Bool :=
  P key.scopeId key.assetId

/-- The sources of the pairs of `P`. -/
def ofSource (P : String → String → Bool) (key : SourceKey) : Bool :=
  P key.1 key.2.1

/-- The signals of the pairs of `P`. -/
def ofSignal (P : String → String → Bool) (signal : FeatureSignal) : Bool :=
  P signal.scopeId signal.assetId

/-- Two states with the same windows, sources and authors of the pairs of `P`, which have seen the
same signals of `run` among those of `P`. -/
structure SameView (P : String → String → Bool) (run : List FeatureSignal) (s t : EngineState) :
    Prop where
  events : s.events.restrict (ofWindow P) = t.events.restrict (ofWindow P)
  revisions : s.revisions.restrict (ofWindow P) = t.revisions.restrict (ofWindow P)
  maxEventTime : s.maxEventTime.restrict (ofSource P) = t.maxEventTime.restrict (ofSource P)
  sourceStates : ∀ key : SourceKey, P key.1 key.2.1 = true →
    s.sourceStates.get? key = t.sourceStates.get? key
  authorFirstSeen : ∀ key : AuthorKey, P key.1 key.2.1 = true →
    s.authorFirstSeen.get? key = t.authorFirstSeen.get? key
  seen : ∀ signal ∈ run, ofSignal P signal = true →
    (signal.seenKey ∈ s.seenEventIds ↔ signal.seenKey ∈ t.seenEventIds)

variable {P : String → String → Bool} {run : List FeatureSignal}

namespace SameView

variable {s t : EngineState}

theorem refl (s : EngineState) : SameView P run s s :=
  ⟨rfl, rfl, rfl, fun _ _ => rfl, fun _ _ => rfl, fun _ _ _ => Iff.rfl⟩

theorem symm (h : SameView P run s t) : SameView P run t s :=
  ⟨h.events.symm, h.revisions.symm, h.maxEventTime.symm, fun key hP => (h.sourceStates key hP).symm,
    fun key hP => (h.authorFirstSeen key hP).symm, fun signal hmem hP => (h.seen signal hmem hP).symm⟩

theorem trans {u : EngineState} (hst : SameView P run s t) (htu : SameView P run t u) :
    SameView P run s u :=
  ⟨hst.events.trans htu.events, hst.revisions.trans htu.revisions,
    hst.maxEventTime.trans htu.maxEventTime,
    fun key hP => (hst.sourceStates key hP).trans (htu.sourceStates key hP),
    fun key hP => (hst.authorFirstSeen key hP).trans (htu.authorFirstSeen key hP),
    fun signal hmem hP => (hst.seen signal hmem hP).trans (htu.seen signal hmem hP)⟩

theorem events_get? (h : SameView P run s t) {key : WindowKey} (hP : ofWindow P key = true) :
    s.events.get? key = t.events.get? key := by
  rw [← OrderedDict.get?_restrict s.events hP, h.events, OrderedDict.get?_restrict _ hP]

theorem revisionsOf (h : SameView P run s t) {key : WindowKey} (hP : ofWindow P key = true) :
    s.revisionsOf key = t.revisionsOf key := by
  unfold EngineState.revisionsOf
  rw [← OrderedDict.getD_restrict s.revisions [] hP, h.revisions, OrderedDict.getD_restrict _ _ hP]

theorem maxEventTime_get? (h : SameView P run s t) {key : SourceKey}
    (hP : ofSource P key = true) : s.maxEventTime.get? key = t.maxEventTime.get? key := by
  rw [← OrderedDict.get?_restrict s.maxEventTime hP, h.maxEventTime, OrderedDict.get?_restrict _ hP]

end SameView

/-! ## What the filters find -/

/-- A filter over the items of a dictionary that only finds items of `p` sees the part over `p`. -/
theorem filterMap_entries_restrict {α β γ : Type} (p : α → Bool) (d : OrderedDict α β)
    {f : α × β → Option γ} (hf : ∀ item, p item.1 = false → f item = none) :
    (d.restrict p).entries.filterMap f = d.entries.filterMap f := by
  rw [OrderedDict.entries_restrict, List.filterMap_filter]
  refine List.filterMap_congr fun item _ => ?_
  cases hp : p item.1 with
  | true => simp
  | false => rw [hf item hp]; simp

theorem globalMax_eq {s t : EngineState} (h : SameView P run s t) {scopeId assetId : String}
    (hP : P scopeId assetId = true) : globalMax s scopeId assetId = globalMax t scopeId assetId := by
  have hf : ∀ item : SourceKey × Datetime, ofSource P item.1 = false →
      (if item.1.1 = scopeId ∧ item.1.2.1 = assetId then some item.2 else none) = none := by
    rintro ⟨⟨scope, asset, domain⟩, time⟩ hout
    rw [if_neg]
    rintro ⟨rfl, rfl⟩
    exact absurd hP (by simpa [ofSource] using hout)
  unfold globalMax
  rw [← filterMap_entries_restrict (ofSource P) s.maxEventTime hf, h.maxEventTime,
    filterMap_entries_restrict (ofSource P) t.maxEventTime hf]

theorem ofWindow_of_isEarlier {key candidate : WindowKey} (hP : ofWindow P key = true)
    (h : isEarlier key candidate = true) : ofWindow P candidate = true := by
  obtain ⟨hscope, hasset, -, -⟩ := isEarlier_iff.mp h
  unfold ofWindow
  rw [hscope, hasset]
  exact hP

theorem windowInputs_eq {s t : EngineState} (h : SameView P run s t) {key : WindowKey}
    (hP : ofWindow P key = true) (signals : List FeatureSignal) :
    windowInputs s.events key signals = windowInputs t.events key signals := by
  have hearlier : ∀ candidate, isEarlier key candidate = true → ofWindow P candidate = true :=
    fun candidate hcandidate => ofWindow_of_isEarlier hP hcandidate
  rw [← windowInputs_restrict s.events hearlier, h.events, windowInputs_restrict t.events hearlier]

theorem computeFeatures_eq {s t : EngineState} (h : SameView P run s t) {key : WindowKey}
    (hP : ofWindow P key = true) (signals : List FeatureSignal) :
    computeFeatures s key signals = computeFeatures t key signals := by
  have hsource : ∀ domain, sourceState s key domain = sourceState t key domain := fun domain => by
    unfold sourceState OrderedDict.getD
    rw [h.sourceStates (key.scopeId, key.assetId, domain) hP]
  have hauthors : ∀ posters, newAuthorCount s key posters = newAuthorCount t key posters :=
    fun posters => by
      unfold newAuthorCount OrderedDict.getD
      simp only [h.authorFirstSeen (key.scopeId, key.assetId, _) hP]
  unfold computeFeatures
  simp only [windowInputs_eq h hP, hsource, hauthors]

theorem downstreamKeys_eq {s t : EngineState} (h : SameView P run s t) {key : WindowKey}
    (hP : ofWindow P key = true) : downstreamKeys s key = downstreamKeys t key := by
  have himp : ∀ candidate : WindowKey, decide (candidate.scopeId = key.scopeId ∧
      candidate.assetId = key.assetId ∧ candidate.interval = key.interval ∧
        key.windowStart < candidate.windowStart) = true → ofWindow P candidate = true := by
    intro candidate hcandidate
    obtain ⟨hscope, hasset, -, -⟩ := of_decide_eq_true hcandidate
    unfold ofWindow
    rw [hscope, hasset]
    exact hP
  unfold downstreamKeys
  rw [← filter_filter_of_imp himp s.revisions.keys, ← OrderedDict.keys_restrict, h.revisions,
    OrderedDict.keys_restrict, filter_filter_of_imp himp t.revisions.keys]

theorem latest_eq {s t : EngineState} (h : SameView P run s t) {scopeId assetId : String}
    (hP : P scopeId assetId = true) (interval : ℕ) :
    latest s assetId interval scopeId = latest t assetId interval scopeId := by
  have hf : ∀ item : WindowKey × List FeatureSnapshot, ofWindow P item.1 = false →
      (if item.1.scopeId = scopeId ∧ item.1.assetId = assetId ∧ item.1.interval = interval then
        item.2.getLast? else none) = none := by
    rintro ⟨⟨scope, asset, start, seconds⟩, revisions⟩ hout
    rw [if_neg]
    rintro ⟨rfl, rfl, -⟩
    exact absurd hP (by simpa [ofWindow] using hout)
  unfold latest
  rw [← filterMap_entries_restrict (ofWindow P) s.revisions hf, h.revisions,
    filterMap_entries_restrict (ofWindow P) t.revisions hf]

/-! ## Handling a signal of `P` -/

theorem sameView_markIdle {s t : EngineState} (h : SameView P run s t) {key : SourceKey}
    (hP : P key.1 key.2.1 = true) : SameView P run (markIdle key s) (markIdle key t) := by
  unfold markIdle
  rw [h.sourceStates key hP]
  cases t.sourceStates.get? key with
  | none => exact h
  | some state =>
    refine ⟨h.events, h.revisions, h.maxEventTime, fun key' hP' => ?_, h.authorFirstSeen, h.seen⟩
    show (s.sourceStates.set key _).get? key' = (t.sourceStates.set key _).get? key'
    rw [OrderedDict.get?_set, OrderedDict.get?_set, h.sourceStates key' hP']

theorem agree_watermarkOf {scopeId assetId : String} (hP : P scopeId assetId = true)
    (latest : Option Datetime) (domain : SourceDomain) :
    Agree (SameView P run) (watermarkOf cfg scopeId assetId latest domain)
      (watermarkOf cfg scopeId assetId latest domain) := by
  refine agree_bind (agree_reading fun s t h => h.sourceStates _ hP) fun sourceState => ?_
  refine agree_bind (agree_reading fun s t h => h.maxEventTime_get? hP) fun maximum => ?_
  refine agree_bind (agree_modify fun s t h => ?_) fun _ => agree_pure _
  split_ifs
  · exact sameView_markIdle h hP
  · exact h

theorem agree_watermarks {scopeId assetId : String} (hP : P scopeId assetId = true) :
    Agree (SameView P run) (watermarks cfg scopeId assetId) (watermarks cfg scopeId assetId) := by
  refine agree_bind (agree_reading fun s t h => globalMax_eq h hP) fun latest => ?_
  refine agree_bind (agree_forEach fun domain _ => agree_watermarkOf hP latest domain) fun items => ?_
  exact agree_bind (agree_ofExcept _) fun fusion => agree_pure _

theorem agree_watermark {scopeId assetId : String} (hP : P scopeId assetId = true) :
    Agree (SameView P run) (watermark cfg scopeId assetId) (watermark cfg scopeId assetId) :=
  agree_bind (agree_watermarks hP) fun _ => agree_pure _

theorem sameView_appendRevision {s t : EngineState} (h : SameView P run s t) {key : WindowKey}
    (hP : ofWindow P key = true) (snapshot : FeatureSnapshot) :
    SameView P run (appendRevision key snapshot s) (appendRevision key snapshot t) := by
  refine ⟨h.events, ?_, h.maxEventTime, h.sourceStates, h.authorFirstSeen, h.seen⟩
  show (s.revisions.set key (s.revisionsOf key ++ [snapshot])).restrict _ =
    (t.revisions.set key (t.revisionsOf key ++ [snapshot])).restrict _
  rw [OrderedDict.restrict_set_of_pos _ _ hP, OrderedDict.restrict_set_of_pos _ _ hP, h.revisions,
    h.revisionsOf hP]

theorem sameView_appendEvent {s t : EngineState} (h : SameView P run s t) {key : WindowKey}
    (hP : ofWindow P key = true) (signal : FeatureSignal) :
    SameView P run (appendEvent key signal s) (appendEvent key signal t) := by
  refine ⟨?_, h.revisions, h.maxEventTime, h.sourceStates, h.authorFirstSeen, h.seen⟩
  show (s.events.set key (s.events.getD key [] ++ [signal])).restrict _ =
    (t.events.set key (t.events.getD key [] ++ [signal])).restrict _
  rw [OrderedDict.restrict_set_of_pos _ _ hP, OrderedDict.restrict_set_of_pos _ _ hP,
    ← OrderedDict.getD_restrict s.events [] hP, h.events, OrderedDict.getD_restrict t.events _ hP]

theorem agree_buildRevision {key : WindowKey} (hP : ofWindow P key = true) (forceFinal : Bool) :
    Agree (SameView P run) (buildRevision cfg key forceFinal)
      (buildRevision cfg key forceFinal) := by
  refine agree_bind (agree_reading fun s t h => h.events_get? hP) fun stored => ?_
  cases stored with
  | none => exact agree_raise _
  | some events =>
    refine agree_bind (agree_reading fun s t h => h.revisionsOf hP) fun prior => ?_
    refine agree_bind (agree_watermark hP) fun mark => ?_
    refine agree_bind (agree_reading fun s t h => ?_) fun made => ?_
    · unfold makeSnapshot
      rw [computeFeatures_eq h hP]
    · refine agree_bind (agree_ofExcept made) fun snapshot => ?_
      refine agree_bind (agree_modify fun s t h => ?_) fun _ => agree_pure _
      exact sameView_appendRevision h hP snapshot

theorem lastIsFinal_eq {s t : EngineState} (h : SameView P run s t) {key : WindowKey}
    (hP : ofWindow P key = true) : s.lastIsFinal key = t.lastIsFinal key := by
  unfold EngineState.lastIsFinal
  rw [h.revisionsOf hP]

theorem agree_finalizeIfEligible {scopeId assetId : String} (hP : P scopeId assetId = true)
    (mark : Datetime) (key : WindowKey) :
    Agree (SameView P run) (finalizeIfEligible cfg scopeId assetId mark key)
      (finalizeIfEligible cfg scopeId assetId mark key) := by
  unfold finalizeIfEligible
  by_cases hkey : key.scopeId ≠ scopeId ∨ key.assetId ≠ assetId
  · rw [if_pos hkey]
    exact agree_pure []
  · rw [if_neg hkey]
    obtain ⟨hscope, hasset⟩ := not_or.mp hkey
    rw [not_not] at hscope hasset
    have hPkey : ofWindow P key = true := by
      unfold ofWindow
      rw [hscope, hasset]
      exact hP
    refine agree_bind (agree_reading fun s t h => lastIsFinal_eq h hPkey) fun isFinal => ?_
    split_ifs
    · exact agree_pure []
    · exact agree_bind (agree_buildRevision hPkey true) fun _ => agree_pure _
    · exact agree_pure []

/-- The sweep looks at all windows, and does something for those of the scope and asset only. -/
theorem agree_finalizeEligible {scopeId assetId : String} (hP : P scopeId assetId = true) :
    Agree (SameView P run) (finalizeEligible cfg scopeId assetId)
      (finalizeEligible cfg scopeId assetId) := by
  refine agree_bind (agree_watermark hP) fun mark => ?_
  cases mark with
  | none => exact agree_pure []
  | some mark =>
    intro s t h
    simp only [reading_bind]
    have hskip : ∀ key : WindowKey, ofWindow P key = false →
        finalizeIfEligible cfg scopeId assetId mark key = pure [] := by
      intro key hkey
      unfold finalizeIfEligible
      rw [if_pos]
      by_contra hne
      obtain ⟨hscope, hasset⟩ := not_or.mp hne
      rw [not_not] at hscope hasset
      unfold ofWindow at hkey
      rw [hscope, hasset, hP] at hkey
      exact absurd hkey (by simp)
    rw [flatForEach_filter hskip s.revisions.keys, flatForEach_filter hskip t.revisions.keys,
      ← OrderedDict.keys_restrict, h.revisions, OrderedDict.keys_restrict]
    exact agree_flatForEach (fun key _ => agree_finalizeIfEligible hP mark key) s t h

theorem agree_ingestInterval {signal : FeatureSignal} (hP : ofSignal P signal = true)
    (interval : ℕ) :
    Agree (SameView P run) (ingestInterval cfg signal interval)
      (ingestInterval cfg signal interval) := by
  have hkey : ofWindow P (signal.windowKey interval) = true := hP
  refine agree_bind (agree_modify fun s t h => sameView_appendEvent h hkey signal) fun _ => ?_
  refine agree_bind (agree_buildRevision hkey false) fun own => ?_
  -- the windows to rebuild are the same in both states, and they are windows of `P`
  intro s t h
  rw [reading_bind, reading_bind, downstreamKeys_eq h hkey]
  refine agree_bind (agree_forEach fun key hmem => ?_) (fun _ => agree_pure _) s t h
  obtain ⟨-, hscope, hasset, -, -⟩ := mem_downstreamKeys.mp hmem
  have hP' : ofWindow P key = true := by
    unfold ofWindow
    rw [hscope, hasset]
    exact hP
  exact agree_bind (agree_reading fun s t h => lastIsFinal_eq h hP') fun forceFinal =>
    agree_buildRevision hP' forceFinal

theorem sameView_register {s t : EngineState} (h : SameView P run s t) {signal : FeatureSignal}
    (hP : ofSignal P signal = true) : SameView P run (register signal s) (register signal t) := by
  have hsource : ofSource P signal.sourceKey = true := hP
  refine ⟨h.events, h.revisions, ?_, fun key hkey => ?_, fun key hkey => ?_, fun other hmem ho => ?_⟩
  · show (s.maxEventTime.set signal.sourceKey _).restrict _ =
      (t.maxEventTime.set signal.sourceKey _).restrict _
    rw [OrderedDict.restrict_set_of_pos _ _ hsource, OrderedDict.restrict_set_of_pos _ _ hsource,
      h.maxEventTime]
    unfold OrderedDict.getD
    rw [h.maxEventTime_get? hsource]
  · show (s.sourceStates.set signal.sourceKey _).get? key =
      (t.sourceStates.set signal.sourceKey _).get? key
    unfold OrderedDict.getD
    rw [OrderedDict.get?_set, OrderedDict.get?_set, h.sourceStates key hkey,
      h.sourceStates signal.sourceKey hsource]
  · show (authorFirstSeenAfter signal s.authorFirstSeen).get? key =
      (authorFirstSeenAfter signal t.authorFirstSeen).get? key
    unfold authorFirstSeenAfter
    cases signal.author? with
    | none => exact h.authorFirstSeen key hkey
    | some author =>
      have hauthor := h.authorFirstSeen (signal.scopeId, signal.assetId, author) hP
      simp only [OrderedDict.get?_set, OrderedDict.getD, hauthor, h.authorFirstSeen key hkey]
  · show other.seenKey ∈ insert signal.seenKey s.seenEventIds ↔
      other.seenKey ∈ insert signal.seenKey t.seenEventIds
    rw [Finset.mem_insert, Finset.mem_insert, h.seen other hmem ho]

/-- **Handling a signal of `P` sees nothing but `P`.** -/
theorem agree_ingest {signal : FeatureSignal} (hmem : signal ∈ run)
    (hP : ofSignal P signal = true) :
    Agree (SameView P run) (ingest cfg signal) (ingest cfg signal) := by
  refine agree_bind (agree_reading fun s t h => decide_eq_decide.mpr (h.seen signal hmem hP))
    fun seen => ?_
  cases seen with
  | true => exact agree_pure []
  | false =>
    refine agree_bind (agree_modify fun s t h => sameView_register h hP) fun _ => ?_
    refine agree_bind (agree_flatForEach fun interval _ => agree_ingestInterval hP interval)
      fun changed => ?_
    exact agree_bind (agree_finalizeEligible hP) fun finalized => agree_pure _

/-! ## Handling a signal outside `P` -/

/-- The event ids of `run` do not confuse signals of `P` with others. -/
def IdsRespect (P : String → String → Bool) (run : List FeatureSignal) : Prop :=
  ∀ a ∈ run, ∀ b ∈ run, a.seenKey = b.seenKey → ofSignal P a = ofSignal P b

theorem sameView_of_step {signal : FeatureSignal} (hP : ofSignal P signal = false)
    {s t : EngineState} (h : EngineStep cfg signal s t) : SameView P run t s := by
  have hmarked := h.marked
  have hsources : ∀ key : SourceKey, P key.1 key.2.1 = true →
      t.sourceStates.get? key = s.sourceStates.get? key := fun key hkey => by
    rcases hmarked.sources key with heq | ⟨state, hscope, hasset, -⟩
    · exact heq
    · rw [hscope, hasset] at hkey
      exact absurd hkey (by rw [show P signal.scopeId signal.assetId = false from hP]; simp)
  have hwindow : ∀ key : WindowKey, key.scopeId = signal.scopeId → key.assetId = signal.assetId →
      ofWindow P key = false := fun key hscope hasset => by
    unfold ofWindow
    rw [hscope, hasset]
    exact hP
  have hmax : t.maxEventTime.restrict (ofSource P) = s.maxEventTime.restrict (ofSource P) := by
    rw [hmarked.maxEventTime]
  have hauthor : ∀ key : AuthorKey, P key.1 key.2.1 = true →
      t.authorFirstSeen.get? key = s.authorFirstSeen.get? key := fun key _ => by
    rw [hmarked.authorFirstSeen]
  have hseen : ∀ other ∈ run, ofSignal P other = true →
      (other.seenKey ∈ t.seenEventIds ↔ other.seenKey ∈ s.seenEventIds) := fun other _ _ => by
    rw [hmarked.seenEventIds]
  cases h with
  | query h => exact ⟨by rw [h.events], by rw [h.revisions], hmax, hsources, hauthor, hseen⟩
  | event interval =>
    exact ⟨OrderedDict.restrict_set_of_neg _ _ (hwindow _ rfl rfl), rfl, hmax, hsources, hauthor,
      hseen⟩
  | build key forceFinal snapshot hscope hasset hforce h =>
    have hb := buildRevision_ok h
    refine ⟨by rw [hb.events], ?_, hmax, hsources, hauthor, hseen⟩
    rw [hb.revisions, OrderedDict.restrict_set_of_neg _ _ (hwindow key hscope hasset)]

theorem sameView_register_of_neg {signal : FeatureSignal} (hids : IdsRespect P run)
    (hmem : signal ∈ run) (hP : ofSignal P signal = false) (s : EngineState) :
    SameView P run (register signal s) s := by
  have hsource : ofSource P signal.sourceKey = false := hP
  have hP' : P signal.scopeId signal.assetId = false := hP
  refine ⟨rfl, rfl, OrderedDict.restrict_set_of_neg _ _ hsource, fun key hkey => ?_,
    fun key hkey => ?_, fun other hother ho => ?_⟩
  · refine OrderedDict.get?_set_of_ne _ _ fun heq => ?_
    rw [heq] at hkey
    exact absurd hkey (by rw [show P signal.sourceKey.1 signal.sourceKey.2.1 = false from hP]; simp)
  · show (authorFirstSeenAfter signal s.authorFirstSeen).get? key = s.authorFirstSeen.get? key
    unfold authorFirstSeenAfter
    cases signal.author? with
    | none => rfl
    | some author =>
      refine OrderedDict.get?_set_of_ne _ _ fun heq => ?_
      rw [heq, hP'] at hkey
      exact absurd hkey (by simp)
  · show other.seenKey ∈ insert signal.seenKey s.seenEventIds ↔ other.seenKey ∈ s.seenEventIds
    rw [Finset.mem_insert, or_iff_right]
    intro heq
    rw [hids other hother signal hmem heq, hP] at ho
    exact absurd ho (by simp)

/-- **Handling a signal outside `P` cannot be seen.** -/
theorem sameView_ingest {signal : FeatureSignal} (hids : IdsRespect P run) (hmem : signal ∈ run)
    (hP : ofSignal P signal = false) (s : EngineState) :
    SameView P run (ingest cfg signal s).2 s :=
  ingest_invariant (P := fun t => SameView P run t s) signal
    (fun t _ ht => (sameView_register_of_neg hids hmem hP t).trans ht)
    (fun _ _ hstep ht => (sameView_of_step hP hstep).trans ht) (SameView.refl s)

/-- **Isolation of runs.**  The run without the signals outside `P` has the same outcomes for the
signals of `P`, and its last state looks the same. -/
theorem runAll_ingest_sameView (cfg : EngineConfig) (hids : IdsRespect P run) :
    outcomesOf (ingest cfg) (ofSignal P) run .initial =
        (runAll (ingest cfg) (run.filter (ofSignal P)) .initial).1 ∧
      SameView P run (runAll (ingest cfg) run .initial).2
        (runAll (ingest cfg) (run.filter (ofSignal P)) .initial).2 :=
  runAll_agree_filter
    (fun _ hmem hP _ _ hV => (sameView_ingest hids hmem hP _).trans hV)
    (fun _ hmem hP => agree_ingest hmem hP) (SameView.refl .initial)

/-- **Scope and asset isolation.**  In every interleaving of signals of several scopes and assets
whose event ids are unique within a scope, the signals of one pair return what they return in the
run of that pair alone, and the pair has the same revisions, watermarks and latest results. -/
theorem ingest_isolated (cfg : EngineConfig) (run : List FeatureSignal) (scopeId assetId : String)
    (hids : ∀ a ∈ run, ∀ b ∈ run, a.seenKey = b.seenKey → a = b) :
    let ofPair := fun signal : FeatureSignal =>
      decide (signal.scopeId = scopeId ∧ signal.assetId = assetId)
    let mixed := (runAll (ingest cfg) run .initial).2
    let alone := (runAll (ingest cfg) (run.filter ofPair) .initial).2
    outcomesOf (ingest cfg) ofPair run .initial =
        (runAll (ingest cfg) (run.filter ofPair) .initial).1 ∧
      (∀ windowStart interval, mixed.revisionsOf ⟨scopeId, assetId, windowStart, interval⟩ =
        alone.revisionsOf ⟨scopeId, assetId, windowStart, interval⟩) ∧
      (watermarks cfg scopeId assetId mixed).1 = (watermarks cfg scopeId assetId alone).1 ∧
      ∀ interval, latest mixed assetId interval scopeId = latest alone assetId interval scopeId := by
  intro ofPair mixed alone
  let P : String → String → Bool := fun scope asset => decide (scope = scopeId ∧ asset = assetId)
  have hP : P scopeId assetId = true := decide_eq_true ⟨rfl, rfl⟩
  have hrespect : IdsRespect P run := fun a ha b hb hkey => by rw [hids a ha b hb hkey]
  obtain ⟨houtcomes, hview⟩ := runAll_ingest_sameView cfg hrespect
  refine ⟨houtcomes, fun windowStart interval => ?_, ?_, fun interval => ?_⟩
  · exact hview.revisionsOf hP
  · exact (agree_watermarks hP _ _ hview).1
  · exact latest_eq hview hP interval

/-- The same trade in two replay scopes. -/
theorem ingest_isolated_replays :
    (runAll (ingest marketOnly)
        [{ tradeSignal "same-event" testStart with scopeId := "replay-1" },
          { tradeSignal "same-event" testStart with scopeId := "replay-2" }]
        .initial).2.revisionsOf ⟨"replay-2", "S2MUSDT", testStart, 60⟩ =
      (runAll (ingest marketOnly)
        [{ tradeSignal "same-event" testStart with scopeId := "replay-2" }]
        .initial).2.revisionsOf ⟨"replay-2", "S2MUSDT", testStart, 60⟩ := by
  refine (ingest_isolated marketOnly
    [{ tradeSignal "same-event" testStart with scopeId := "replay-1" },
      { tradeSignal "same-event" testStart with scopeId := "replay-2" }] "replay-2" "S2MUSDT"
    fun a ha b hb hkey => ?_).2.1 testStart 60
  have hscope : a.scopeId = b.scopeId := congrArg Prod.fst hkey
  rcases List.mem_pair.mp ha with rfl | rfl <;> rcases List.mem_pair.mp hb with rfl | rfl
  · rfl
  · exact absurd hscope (by decide)
  · exact absurd hscope (by decide)
  · rfl

end Features
end Scam2Market
