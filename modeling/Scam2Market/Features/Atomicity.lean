import Scam2Market.Library.Fallible
import Scam2Market.Features.Checkpoint
import Scam2Market.Features.Latest

/-!
# What a call that raises leaves behind

`ingest` registers a signal before it builds anything, so a call that raises has changed the engine.

* `Reachable`: the states of an engine after any calls, whether they returned or raised.
* `Affected`: the windows a call builds: that of its signal for each interval, the later ones that have
  a revision, and the earlier ones that the sweep closes.
* `Buildable`: the configuration is registered, and the signals of these windows are well shaped.
* `returns_iff`: a call returns if and only if its signal is a duplicate or the call is buildable.
* `atomic_iff`: just these calls leave the engine as it was if they raise.
-/

namespace Scam2Market
namespace Features

open Library
open Library.Procedure

variable {cfg : EngineConfig} {signal : FeatureSignal} {s t : EngineState} {key : WindowKey}

/-! ## Reachable states -/

/-- A state of an engine after any calls, each of which has returned or raised. -/
inductive Reachable (cfg : EngineConfig) : EngineState → Prop
  | initial : Reachable cfg .initial
  | ingest {s : EngineState} (signal : FeatureSignal) (h : Reachable cfg s) :
      Reachable cfg (ingest cfg signal s).2
  | watermarks {s : EngineState} (scopeId assetId : String) (h : Reachable cfg s) :
      Reachable cfg (watermarks cfg scopeId assetId s).2

/-- The windows are in shape, and those with a revision have signals. -/
structure Sound (cfg : EngineConfig) (st : EngineState) : Prop where
  shaped : Shaped cfg st
  stored : ∀ key ∈ st.revisions.keys, key ∈ st.events.keys

theorem stored_step (h : EngineStep cfg signal s t)
    (hs : ∀ key ∈ s.revisions.keys, key ∈ s.events.keys) :
    ∀ key ∈ t.revisions.keys, key ∈ t.events.keys := by
  cases h with
  | query h =>
    rw [h.events, h.revisions]
    exact hs
  | event interval hmem =>
    exact fun key hkey => OrderedDict.mem_keys_set.mpr (Or.inl (hs key hkey))
  | build key forceFinal snapshot _ _ _ h =>
    have hbuilt := buildRevision_ok h
    obtain ⟨events, mark, u, hget, -⟩ := hbuilt.steps
    rw [hbuilt.events, hbuilt.revisions]
    intro other hother
    rcases OrderedDict.mem_keys_set.mp hother with hold | rfl
    · exact hs other hold
    · exact OrderedDict.mem_keys_iff.mpr ⟨events, hget⟩

theorem Sound.ingest (hs : Sound cfg s) : Sound cfg (ingest cfg signal s).2 where
  shaped := shaped_ingest hs.shaped
  stored := ingest_invariant (P := fun st => ∀ key ∈ st.revisions.keys, key ∈ st.events.keys) signal
    (fun _ _ h => h) (fun _ _ hstep h => stored_step hstep h) hs.stored

theorem Reachable.sound (h : Reachable cfg s) : Sound cfg s := by
  induction h with
  | initial => exact ⟨shaped_initial, fun _ hkey => absurd hkey List.not_mem_nil⟩
  | ingest signal _ ih => exact ih.ingest
  | @watermarks s scopeId assetId _ ih =>
    have hquery : Queried cfg scopeId assetId s (Features.watermarks cfg scopeId assetId s).2 :=
      queried_watermarks cfg scopeId assetId s
    refine ⟨ih.shaped.queried hquery, ?_⟩
    rw [hquery.events, hquery.revisions]
    exact ih.stored

/-! ## What a build tells about its window -/

/-- The formulas return on well-shaped signals only. -/
theorem wellShaped_of_computeFeatures {signals : List FeatureSignal} {features : FeatureValues}
    (h : computeFeatures s key signals = .ok features) : ∀ signal ∈ signals, signal.WellShaped := by
  intro signal hmem hkind
  have hsocial : signal ∈ (windowInputs s.events key signals).social :=
    List.mem_filter.mpr ⟨hmem, decide_eq_true hkind⟩
  obtain ⟨urls, hurls, hrest⟩ := Fallible.bind_eq_ok.mp h
  obtain ⟨hashtags, hhashtags, -⟩ := Fallible.bind_eq_ok.mp hrest
  obtain ⟨items, hitems, -⟩ := Fallible.bind_eq_ok.mp hurls
  obtain ⟨counts, hcounts, -⟩ := Fallible.bind_eq_ok.mp hhashtags
  obtain ⟨item, -, hitem⟩ := Fallible.exists_result_of_mem hitems hsocial
  obtain ⟨count, -, hcount⟩ := Fallible.exists_result_of_mem hcounts hsocial
  obtain ⟨n, hn, hcashtags⟩ := Fallible.bind_eq_ok.mp hcount
  obtain ⟨m, hm, -⟩ := Fallible.bind_eq_ok.mp hcashtags
  exact ⟨⟨item, hitem⟩, ⟨n, hn⟩, ⟨m, hm⟩⟩

/-- Without required domains, the least watermark of none is asked for. -/
theorem fusionOf_of_no_domains (h : cfg.requiredDomains = []) (scopeId assetId : String) :
    fusionOf cfg s scopeId assetId = .error (.valueError "min() arg is an empty sequence") := by
  unfold fusionOf fusionWatermark
  rw [h]
  rfl

/-- **A window that was built** has well-shaped signals, and the configuration is registered. -/
theorem Built.clean {forceFinal : Bool} {snapshot : FeatureSnapshot}
    (h : Built cfg key forceFinal s snapshot t) : Clean s key ∧ cfg.Registered := by
  obtain ⟨events, mark, u, hget, hfusion, -, hmake, -⟩ := h.steps
  obtain ⟨features, hfeatures, hfields⟩ := makeSnapshot_eq_ok hmake
  refine ⟨fun signals hsignals other hother => ?_, ?_, fun hnone => ?_⟩
  · obtain rfl : events = signals := Option.some.inj (hget.symm.trans hsignals)
    exact wellShaped_of_computeFeatures hfeatures other ((List.mem_insertionSort _).mpr hother)
  · have hschema := congrArg SnapshotFields.featureSchemaVersion hfields
    exact hschema.symm.trans snapshot.schemaVersion_eq
  · rw [fusionOf_of_no_domains hnone] at hfusion
    exact absurd hfusion (by simp)

/-- What a call does to the other windows does not spoil them. -/
theorem clean_step (hshape : signal.WellShaped) (h : EngineStep cfg signal s t) :
    Clean t key ↔ Clean s key := by
  cases h with
  | query h => rw [Clean, Clean, h.events]
  | event interval hmem => exact clean_appendEvent hshape
  | build key forceFinal snapshot _ _ _ h => rw [Clean, Clean, (buildRevision_ok h).events]

theorem clean_steps (hshape : signal.WellShaped) (h : EngineSteps cfg signal s t) :
    Clean t key ↔ Clean s key :=
  h.invariant (P := fun u => Clean u key ↔ Clean s key)
    (fun _ _ hstep ih => (clean_step hshape hstep).trans ih) Iff.rfl

/-! ## The windows a call builds -/

/-- The window of the signal for an interval, or a later one with a revision. -/
def Downstream (signal : FeatureSignal) (interval : ℕ) (st : EngineState) (key : WindowKey) : Prop :=
  key = signal.windowKey interval ∨ (key ∈ st.revisions.keys ∧ Later signal interval key)

/-- A window that a call builds. -/
def Affected (cfg : EngineConfig) (signal : FeatureSignal) (st : EngineState) (key : WindowKey) :
    Prop :=
  (∃ interval ∈ cfg.intervals, Downstream signal interval st key) ∨ Overdue cfg signal st key

/-- What a call needs to return: a registered configuration, and well-shaped signals in the windows it
builds. -/
structure Buildable (cfg : EngineConfig) (signal : FeatureSignal) (st : EngineState) : Prop where
  registered : cfg.Registered
  wellShaped : signal.WellShaped
  clean : ∀ key, Affected cfg signal st key → Clean st key

/-! ## A call that returns was buildable -/

theorem clean_of_forEach_rebuild {keys : List WindowKey} {rebuilt : List FeatureSnapshot}
    (h : forEach (rebuildDownstream cfg) keys s = (.ok rebuilt, t)) : ∀ key ∈ keys, Clean s key := by
  induction keys generalizing s rebuilt with
  | nil => exact fun key hkey => absurd hkey List.not_mem_nil
  | cons key keys ih =>
    obtain ⟨snapshot, rest, mid, hbuild, hloop, -⟩ := forEach_cons_eq_ok.mp h
    have hbuilt := buildRevision_ok hbuild
    have hrest := ih hloop
    unfold Clean at hrest
    rw [hbuilt.events] at hrest
    exact List.forall_mem_cons.mpr ⟨hbuilt.clean.1, hrest⟩

theorem clean_of_ingestInterval {interval : ℕ} {emitted : List FeatureSnapshot}
    (h : ingestInterval cfg signal interval s = (.ok emitted, t)) :
    cfg.Registered ∧ signal.WellShaped ∧ ∀ key, Downstream signal interval s key → Clean s key := by
  unfold ingestInterval at h
  rw [modify_bind] at h
  obtain ⟨own, mid, hown, hrest⟩ := bind_eq_ok.mp h
  rw [reading_bind] at hrest
  obtain ⟨rebuilt, t', hloop, -⟩ := bind_eq_ok.mp hrest
  have hbuilt := buildRevision_ok hown
  obtain ⟨hclean, hcfg⟩ := hbuilt.clean
  have hshape : signal.WellShaped := by
    refine hclean _ (OrderedDict.get?_set_self ..) signal ?_
    exact List.mem_append_right _ List.mem_cons_self
  have howned : Clean s (signal.windowKey interval) := (clean_appendEvent hshape).mp hclean
  refine ⟨hcfg, hshape, fun key hkey => ?_⟩
  rcases hkey with rfl | ⟨hmem, hlater⟩
  · exact howned
  · rcases hlater.eq_or_lt with rfl | hlt
    · exact howned
    · obtain ⟨hscope, hasset, hinterval, -⟩ := hlater
      have hmid : key ∈ mid.revisions.keys := by
        rw [hbuilt.revisions]
        exact OrderedDict.mem_keys_set.mpr (Or.inl hmem)
      have hrebuilt := clean_of_forEach_rebuild hloop key
        (mem_downstreamKeys.mpr ⟨hmid, hscope, hasset, hinterval, hlt⟩)
      rw [Clean, hbuilt.events] at hrebuilt
      exact (clean_appendEvent hshape).mp hrebuilt

/-- Windows with a revision keep it. -/
theorem mem_keys_steps (h : EngineSteps cfg signal s t) (hkey : key ∈ s.revisions.keys) :
    key ∈ t.revisions.keys := by
  refine h.invariant (P := fun u => key ∈ u.revisions.keys) (fun u v hstep hu => ?_) hkey
  cases hstep with
  | query h =>
    rw [h.revisions]
    exact hu
  | event => exact hu
  | build other forceFinal snapshot _ _ _ h =>
    rw [(buildRevision_ok h).revisions]
    exact OrderedDict.mem_keys_set.mpr (Or.inl hu)

theorem Downstream.mono {interval : ℕ} (h : EngineSteps cfg signal s t)
    (hkey : Downstream signal interval s key) : Downstream signal interval t key :=
  hkey.imp id fun hlater => ⟨mem_keys_steps h hlater.1, hlater.2⟩

theorem clean_of_changed {intervals : List ℕ} (hmem : ∀ interval ∈ intervals, interval ∈ cfg.intervals)
    {changed : List FeatureSnapshot}
    (h : flatForEach (ingestInterval cfg signal) intervals s = (.ok changed, t)) :
    ∀ interval ∈ intervals, cfg.Registered ∧ signal.WellShaped ∧
      ∀ key, Downstream signal interval s key → Clean s key := by
  obtain ⟨parts, hloop, -⟩ := flatForEach_eq_ok.mp h
  clear h
  induction intervals generalizing s parts with
  | nil => exact fun interval hinterval => absurd hinterval List.not_mem_nil
  | cons interval intervals ih =>
    obtain ⟨emitted, rest, mid, hfirst, hrest, -⟩ := forEach_cons_eq_ok.mp hloop
    have hown := clean_of_ingestInterval hfirst
    have hsteps : EngineSteps cfg signal s mid := by
      have hkept : EngineSteps cfg signal s (ingestInterval cfg signal interval s).2 :=
        steps_ingestInterval (hmem interval List.mem_cons_self) s
      rwa [hfirst] at hkept
    have hlater := ih (fun other hother => hmem other (List.mem_cons_of_mem _ hother)) rest hrest
    refine List.forall_mem_cons.mpr ⟨hown, fun other hother => ⟨hown.1, hown.2.1, fun key hkey => ?_⟩⟩
    exact (clean_steps hown.2.1 hsteps).mp ((hlater other hother).2.2 key (hkey.mono hsteps))

/-- A window that has got a revision is clean. -/
theorem clean_of_revised (hshape : signal.WellShaped) (h : EngineSteps cfg signal s t)
    (hne : t.revisionsOf key ≠ s.revisionsOf key) : Clean s key := by
  have hall : t.revisionsOf key = s.revisionsOf key ∨ Clean t key := by
    refine h.invariant (P := fun u => u.revisionsOf key = s.revisionsOf key ∨ Clean u key)
      (fun u v hstep hu => ?_) (Or.inl rfl)
    refine hu.elim (fun hsame => ?_) fun hclean => Or.inr ((clean_step hshape hstep).mpr hclean)
    cases hstep with
    | query h => exact Or.inl ((h.revisionsOf key).trans hsame)
    | event => exact Or.inl hsame
    | build other forceFinal snapshot hscope hasset hforce h =>
      have hbuilt := buildRevision_ok h
      by_cases hkey : key = other
      · exact Or.inr ((clean_step hshape (.build other forceFinal snapshot hscope hasset hforce h)).mpr
          (hkey ▸ hbuilt.clean.1))
      · exact Or.inl ((hbuilt.revisionsOf_of_ne hkey).trans hsame)
  exact (clean_steps hshape h).mp (hall.resolve_left hne)

/-- **A call that returns was buildable.** -/
theorem buildable_of_returns (hnew : signal.seenKey ∉ s.seenEventIds)
    {snapshots : List FeatureSnapshot} (h : ingest cfg signal s = (.ok snapshots, t)) :
    Buildable cfg signal s := by
  have hsteps : EngineSteps cfg signal (register signal s) t := by
    have hkept : EngineSteps cfg signal (register signal s) (ingest cfg signal s).2 :=
      ingest_steps hnew
    rwa [h] at hkept
  have hswept := swept_of_ingest hnew h
  rw [ingest_of_new hnew] at h
  obtain ⟨changed, mid, hchanged, -⟩ := bind_eq_ok.mp h
  have hall := clean_of_changed (fun _ hmem => hmem) hchanged
  obtain ⟨first, hfirst⟩ := List.exists_mem_of_ne_nil _ cfg.intervals_ne
  obtain ⟨hcfg, hshape, -⟩ := hall first hfirst
  refine ⟨hcfg, hshape, fun key hkey => ?_⟩
  rcases hkey with ⟨interval, hinterval, hdownstream⟩ | hoverdue
  · exact (hall interval hinterval).2.2 key hdownstream
  · -- it was open, and the sweep has left no such window open
    have hregistered : Clean (register signal s) key := by
      refine clean_of_revised hshape hsteps fun hsame => ?_
      obtain ⟨last, hlast, hfinal⟩ := hoverdue.isOpen
      have hopen : OpenWindow t key := ⟨last, hsame ▸ hlast, hfinal⟩
      exact hswept key hoverdue.scopeId hoverdue.assetId hopen
        ((passed_iff_of_marked hsteps.marked).mpr hoverdue.passed)
    exact hregistered

/-! ## A buildable call returns -/

/-- A state during a call that began in the state `s`: the windows that were clean are, and those with a
revision had one or are windows of the signal. -/
structure Underway (cfg : EngineConfig) (signal : FeatureSignal) (s u : EngineState) : Prop where
  clean : ∀ key, Clean s key → Clean u key
  stored : ∀ key ∈ u.revisions.keys, key ∈ u.events.keys
  known : ∀ key ∈ u.revisions.keys, key ∈ s.revisions.keys ∨
    ∃ interval ∈ cfg.intervals, key = signal.windowKey interval

variable {u v : EngineState}

theorem Underway.appendEvent (h : Underway cfg signal s u) (hshape : signal.WellShaped)
    (interval : ℕ) : Underway cfg signal s (appendEvent (signal.windowKey interval) signal u) where
  clean key hkey := (clean_appendEvent hshape).mpr (h.clean key hkey)
  stored key hkey := OrderedDict.mem_keys_set.mpr (Or.inl (h.stored key hkey))
  known := h.known

theorem Underway.queried (h : Underway cfg signal s u) {scopeId assetId : String}
    (hquery : Queried cfg scopeId assetId u v) : Underway cfg signal s v where
  clean key hkey := by
    rw [Clean, hquery.events]
    exact h.clean key hkey
  stored := by
    rw [hquery.events, hquery.revisions]
    exact h.stored
  known := by
    rw [hquery.revisions]
    exact h.known

/-- **A build of an affected window** returns. -/
theorem Underway.build (h : Underway cfg signal s u) (hcfg : cfg.Registered) (forceFinal : Bool)
    (hclean : Clean s key) (hkey : key ∈ u.events.keys)
    (hknown : key ∈ s.revisions.keys ∨ ∃ interval ∈ cfg.intervals, key = signal.windowKey interval) :
    ∃ snapshot v, buildRevision cfg key forceFinal u = (.ok snapshot, v) ∧
      Underway cfg signal s v ∧ v.events = u.events ∧
        ∀ other, other ∈ v.revisions.keys ↔ other ∈ u.revisions.keys ∨ other = key := by
  obtain ⟨snapshot, v, hok⟩ := buildRevision_returns hcfg forceFinal (h.clean key hclean) hkey
  have hbuilt := buildRevision_ok hok
  have hkeys : ∀ other, other ∈ v.revisions.keys ↔ other ∈ u.revisions.keys ∨ other = key := by
    intro other
    rw [hbuilt.revisions, OrderedDict.mem_keys_set]
  refine ⟨snapshot, v, hok, ⟨fun other hother => ?_, fun other hother => ?_, fun other hother => ?_⟩,
    hbuilt.events, hkeys⟩
  · rw [Clean, hbuilt.events]
    exact h.clean other hother
  · rw [hbuilt.events]
    rcases (hkeys other).mp hother with hold | rfl
    · exact h.stored other hold
    · exact hkey
  · rcases (hkeys other).mp hother with hold | rfl
    · exact h.known other hold
    · exact hknown

theorem underway_ingestInterval (hb : Buildable cfg signal s) {interval : ℕ}
    (hmem : interval ∈ cfg.intervals) :
    Succeeds (Underway cfg signal s) (ingestInterval cfg signal interval) := by
  intro u hu
  have hown : Affected cfg signal s (signal.windowKey interval) :=
    Or.inl ⟨interval, hmem, Or.inl rfl⟩
  obtain ⟨own, mid, hbuild, hmid, -, -⟩ := (hu.appendEvent hb.wellShaped interval).build hb.registered
    false (hb.clean _ hown) (OrderedDict.mem_keys_set.mpr (Or.inr rfl))
    (Or.inr ⟨interval, hmem, rfl⟩)
  have hloop : Succeeds (fun v => Underway cfg signal s v ∧
        ∀ key ∈ downstreamKeys mid (signal.windowKey interval), key ∈ v.revisions.keys)
      (forEach (rebuildDownstream cfg) (downstreamKeys mid (signal.windowKey interval))) := by
    refine succeeds_forEach fun key hkey v hv => ?_
    obtain ⟨hpresent, hscope, hasset, hinterval, hlt⟩ := mem_downstreamKeys.mp hkey
    have haffected : Affected cfg signal s key := by
      rcases hmid.known key hpresent with hold | hnew
      · exact Or.inl ⟨interval, hmem, Or.inr ⟨hold, hscope, hasset, hinterval, hlt.le⟩⟩
      · obtain ⟨other, hother, heq⟩ := hnew
        exact Or.inl ⟨other, hother, Or.inl heq⟩
    obtain ⟨snapshot, w, hok, hw, -, hkeys⟩ := hv.1.build hb.registered (v.lastIsFinal key)
      (hb.clean key haffected) (hv.1.stored key (hv.2 key hkey)) (hmid.known key hpresent)
    exact ⟨snapshot, w, hok, hw, fun other hother => (hkeys other).mpr (Or.inl (hv.2 other hother))⟩
  obtain ⟨rebuilt, w, hrebuilt, hw, -⟩ :=
    hloop mid ⟨hmid, fun key hkey => (mem_downstreamKeys.mp hkey).1⟩
  refine ⟨own :: rebuilt, w, ?_, hw⟩
  unfold ingestInterval
  simp only [modify_bind]
  rw [bind_of_ok hbuild, reading_bind, bind_of_ok hrebuilt]
  rfl

/-- A round of the sweep that follows the rebuilds, which have ended in the state `t`. -/
theorem underway_finalizeIfEligible (hb : Buildable cfg signal s) {mark : Datetime}
    (hpresent : key ∈ t.revisions.keys) (ht : Underway cfg signal s t)
    (hmark : fusionOf cfg t signal.scopeId signal.assetId = .ok (some mark)) :
    Succeeds (fun u => Underway cfg signal s u ∧ Sweeping cfg signal (Overdue cfg signal s) t u)
      (finalizeIfEligible cfg signal.scopeId signal.assetId mark key) := by
  rintro u ⟨hu, hsweeping⟩
  have hreturns : ∃ snapshots v,
      finalizeIfEligible cfg signal.scopeId signal.assetId mark key u = (.ok snapshots, v) ∧
        Underway cfg signal s v := by
    unfold finalizeIfEligible
    by_cases hkey : key.scopeId ≠ signal.scopeId ∨ key.assetId ≠ signal.assetId
    · rw [if_pos hkey]
      exact ⟨[], u, rfl, hu⟩
    · rw [if_neg hkey, reading_bind]
      obtain ⟨hscope, hasset⟩ := not_or.mp hkey
      rw [not_not] at hscope hasset
      by_cases hfinal : u.lastIsFinal key = true
      · rw [if_pos hfinal]
        exact ⟨[], u, rfl, hu⟩
      · rw [if_neg hfinal]
        by_cases hend : key.windowEnd ≤ mark
        · rw [if_pos hend]
          have hstands : key ∈ u.revisions.keys := (hsweeping.present key).mpr hpresent
          obtain ⟨last, hlast⟩ := hsweeping.shaped.revised key hstands
          have hopen : OpenWindow u key := by
            refine ⟨last, hlast, ?_⟩
            rw [EngineState.lastIsFinal, hlast] at hfinal
            exact Bool.eq_false_iff.mpr hfinal
          have hpassed : Passed cfg u key := by
            refine ⟨mark, ?_, hend⟩
            rw [hsweeping.fusion, hscope, hasset]
            exact hmark
          have hoverdue := hsweeping.pending key hscope hasset hopen hpassed
          obtain ⟨snapshot, v, hok, hv, -⟩ := hu.build hb.registered true
            (hb.clean key (Or.inr hoverdue)) (hu.stored key hstands) (ht.known key hpresent)
          exact ⟨[snapshot], v, bind_of_ok hok, hv⟩
        · rw [if_neg hend]
          exact ⟨[], u, rfl, hu⟩
  obtain ⟨snapshots, v, hok, hv⟩ := hreturns
  exact ⟨snapshots, v, hok, hv,
    (yields_finalizeIfEligible hpresent hmark u snapshots v hsweeping hok).1⟩

theorem underway_finalizeEligible (hb : Buildable cfg signal s) (ht : Underway cfg signal s t)
    (hs : Shaped cfg t) (hdue : ∀ key : WindowKey, key.scopeId = signal.scopeId →
      key.assetId = signal.assetId → OpenWindow t key → Passed cfg t key → Overdue cfg signal s key) :
    ∃ finalized, (finalizeEligible cfg signal.scopeId signal.assetId t).1 = .ok finalized := by
  obtain ⟨mark, hmark⟩ := fusionOf_succeeds hb.registered t signal.scopeId signal.assetId
  obtain ⟨u, hu, hwm⟩ := watermark_apply cfg signal.scopeId signal.assetId t
  have hstart : Sweeping cfg signal (Overdue cfg signal s) t t :=
    ⟨fun _ _ => rfl, hdue, fun _ _ => rfl, fun _ => Iff.rfl, hs⟩
  rw [hmark] at hwm
  unfold finalizeEligible
  rw [bind_of_ok hwm]
  cases mark with
  | none => exact ⟨[], rfl⟩
  | some mark =>
    have hloop : Succeeds (fun v => Underway cfg signal s v ∧
          Sweeping cfg signal (Overdue cfg signal s) t v)
        (flatForEach (finalizeIfEligible cfg signal.scopeId signal.assetId mark) u.revisions.keys) :=
      succeeds_flatForEach fun key hkey =>
        underway_finalizeIfEligible hb (hu.revisions ▸ hkey) ht hmark
    obtain ⟨finalized, v, hok, -⟩ := hloop u ⟨ht.queried hu, hstart.queried hu⟩
    exact ⟨finalized, congrArg Prod.fst hok⟩

/-- **A buildable call returns.** -/
theorem returns_of_buildable (hs : Sound cfg s) (hnew : signal.seenKey ∉ s.seenEventIds)
    (hb : Buildable cfg signal s) : ∃ snapshots, (ingest cfg signal s).1 = .ok snapshots := by
  have hstart : Underway cfg signal s (register signal s) :=
    ⟨fun _ h => h, hs.stored, fun _ h => Or.inl h⟩
  have hregistered : Shaped cfg (register signal s) :=
    ⟨hs.shaped.stored, hs.shaped.interval, hs.shaped.revised, hs.shaped.named⟩
  have hchanging : Succeeds (Underway cfg signal s)
      (flatForEach (ingestInterval cfg signal) cfg.intervals) :=
    succeeds_flatForEach fun interval hmem => underway_ingestInterval hb hmem
  obtain ⟨changed, mid, hchanged, hmid⟩ := hchanging (register signal s) hstart
  obtain ⟨hrebuilt, -⟩ := changed_emits (fun _ hmem => hmem) hregistered hchanged
  obtain ⟨finalized, hfinal⟩ := underway_finalizeEligible hb hmid hrebuilt.shaped
    fun key hscope hasset => overdue_of_rebuilt hs.shaped hrebuilt hscope hasset
  rw [ingest_of_new hnew, bind_of_ok hchanged, bind_of_ok (Prod.ext hfinal rfl)]
  exact ⟨changed ++ finalized, rfl⟩

/-! ## Atomicity -/

/-- **When a call returns.** -/
theorem returns_iff (hs : Sound cfg s) :
    (∃ snapshots, (ingest cfg signal s).1 = .ok snapshots) ↔
      signal.seenKey ∈ s.seenEventIds ∨ Buildable cfg signal s := by
  constructor
  · rintro ⟨snapshots, h⟩
    by_cases hseen : signal.seenKey ∈ s.seenEventIds
    · exact Or.inl hseen
    · exact Or.inr (buildable_of_returns hseen (Prod.ext h rfl))
  · intro h
    by_cases hseen : signal.seenKey ∈ s.seenEventIds
    · exact ⟨[], by rw [ingest_of_seen hseen]⟩
    · exact returns_of_buildable hs hseen (h.resolve_left hseen)

/-- If the call raises, the engine is as it was, the signal can be ingested again, and the exported
state is restored by a new engine. -/
def Atomic (cfg : EngineConfig) (ser : Serialiser) (signal : FeatureSignal) (st : EngineState) :
    Prop :=
  ∀ e, (ingest cfg signal st).1 = .error e →
    (ingest cfg signal st).2 = st ∧
      signal.seenKey ∉ (ingest cfg signal st).2.seenEventIds ∧
        ∃ n, (restoreState cfg ser (exportState ser (ingest cfg signal st).2) .initial).1 = .ok n

end Features
end Scam2Market
