import Scam2Market.Features.EngineSteps

/-!
# When the engine does not raise

The engine raises for three reasons: a social post whose urls cannot be iterated over or whose tags
have no length, a configuration with a schema version that is not the registered one, and one
without required domains.  Without these no call raises (`allOk_runAll_ingest`).

* `FeatureSignal.WellShaped`: the values of a post have the shape its producer gives them.
* `EngineConfig.Registered`: the configuration the workers use.
* `Supplied`: the invariant; every window with a revision has signals, and they are well shaped.
-/

namespace Scam2Market
namespace Features

open Library
open Library.Procedure

/-- The urls of a post can be iterated over, and its tags can be counted. -/
def FeatureSignal.WellShaped (signal : FeatureSignal) : Prop :=
  signal.kind = .socialPost →
    (∃ items, (signal.values.getD "urls" (.list [])).iter = .ok items) ∧
      (∃ n, (signal.values.getD "hashtags" (.list [])).len = .ok n) ∧
        ∃ n, (signal.values.getD "cashtags" (.list [])).len = .ok n

/-- The schema version is the registered one, and a domain is required. -/
def EngineConfig.Registered (cfg : EngineConfig) : Prop :=
  cfg.schemaVersion = featureSchema ∧ cfg.requiredDomains ≠ []

variable {cfg : EngineConfig}

/-! ## The formulas -/

theorem computeFeatures_succeeds (st : EngineState) (key : WindowKey)
    {signals : List FeatureSignal} (h : ∀ signal ∈ signals, signal.WellShaped) :
    ∃ features, computeFeatures st key signals = .ok features := by
  have hsocial : ∀ signal ∈ (windowInputs st.events key signals).social,
      signal.WellShaped ∧ signal.kind = .socialPost := fun signal hmem => by
    obtain ⟨hmem, hkind⟩ := List.mem_filter.mp hmem
    exact ⟨h signal hmem, of_decide_eq_true hkind⟩
  obtain ⟨urls, hurls⟩ : ∃ urls, socialUrls (windowInputs st.events key signals).social = .ok urls := by
    obtain ⟨items, hitems⟩ := mapM_succeeds (l := (windowInputs st.events key signals).social)
      (f := fun event => (event.values.getD "urls" (.list [])).iter)
      fun signal hmem => ((hsocial signal hmem).1 (hsocial signal hmem).2).1
    unfold socialUrls
    rw [hitems]
    exact ⟨_, rfl⟩
  obtain ⟨count, hcount⟩ :
      ∃ count, hashtagCount (windowInputs st.events key signals).social = .ok count := by
    obtain ⟨counts, hcounts⟩ := mapM_succeeds (l := (windowInputs st.events key signals).social)
      (f := fun event => do
        let hashtags ← (event.values.getD "hashtags" (.list [])).len
        let cashtags ← (event.values.getD "cashtags" (.list [])).len
        return hashtags + cashtags)
      fun signal hmem => by
        obtain ⟨-, ⟨n, hn⟩, m, hm⟩ := (hsocial signal hmem).1 (hsocial signal hmem).2
        exact ⟨n + m, by rw [hn, hm]; rfl⟩
    unfold hashtagCount
    rw [hcounts]
    exact ⟨_, rfl⟩
  unfold computeFeatures
  simp only [hurls, hcount]
  exact ⟨_, rfl⟩

/-! ## Snapshots -/

theorem nextState_supersedes_pos {prior : List FeatureSnapshot} {shouldFinalize : Bool} :
    ∀ n ∈ (nextState prior shouldFinalize).2, 1 ≤ n := by
  intro n hn
  unfold nextState at hn
  rcases hlast : prior.getLast? with _ | last
  · rw [hlast] at hn
    cases shouldFinalize with
    | true => exact absurd hn (by simp)
    | false => exact absurd hn (by simp)
  · rw [hlast] at hn
    simp only at hn
    split_ifs at hn
    · obtain rfl : last.revision = n := by simpa using hn
      exact last.revision_pos
    · exact absurd hn (by simp)
    · exact absurd hn (by simp)

theorem nextState_corrected {prior : List FeatureSnapshot} {shouldFinalize : Bool}
    (h : (nextState prior shouldFinalize).1 = .corrected) :
    (nextState prior shouldFinalize).2 ≠ none := by
  unfold nextState at h ⊢
  rcases hlast : prior.getLast? with _ | last
  · rw [hlast] at h
    cases shouldFinalize with
    | true => exact absurd h (by simp)
    | false => exact absurd h (by simp)
  · rw [hlast] at h
    simp only at h ⊢
    split_ifs at h ⊢
    simp

/-- What the engine puts into a snapshot passes the validator. -/
theorem validate_snapshotFields (hcfg : cfg.Registered) (key : WindowKey)
    (signals : List FeatureSignal) (prior : List FeatureSnapshot) (shouldFinalize : Bool)
    (features : FeatureValues) :
    ∃ snapshot,
      (snapshotFields cfg key signals prior shouldFinalize features).validate = .ok snapshot :=
  SnapshotFields.validate_of_rules (Nat.le_add_left 1 prior.length) nextState_supersedes_pos hcfg.1
    rfl rfl nextState_corrected

theorem makeSnapshot_succeeds (hcfg : cfg.Registered) (st : EngineState) (key : WindowKey)
    {signals : List FeatureSignal} (h : ∀ signal ∈ signals, signal.WellShaped)
    (prior : List FeatureSnapshot) (shouldFinalize : Bool) :
    ∃ snapshot, makeSnapshot cfg st key signals prior shouldFinalize = .ok snapshot := by
  obtain ⟨features, hfeatures⟩ := computeFeatures_succeeds st key h
  obtain ⟨snapshot, hvalid⟩ :=
    validate_snapshotFields hcfg key signals prior shouldFinalize features
  refine ⟨snapshot, ?_⟩
  unfold makeSnapshot
  rw [hfeatures]
  exact hvalid

/-! ## Watermarks -/

theorem fusionOf_succeeds (hcfg : cfg.Registered) (st : EngineState) (scopeId assetId : String) :
    ∃ mark, fusionOf cfg st scopeId assetId = .ok mark := by
  unfold fusionOf fusionWatermark
  simp only
  split_ifs with hlen
  · rcases hmin : List.min? _ with _ | least
    · -- no watermark at all, and as many as there are required domains
      rw [List.min?_eq_none_iff.mp hmin, List.length_nil] at hlen
      exact absurd (List.eq_nil_of_length_eq_zero hlen.symm) hcfg.2
    · exact ⟨some least, rfl⟩
  · exact ⟨none, rfl⟩

/-! ## Builds and calls -/

/-- The signals of a window are well shaped. -/
def Clean (st : EngineState) (key : WindowKey) : Prop :=
  ∀ signals, st.events.get? key = some signals → ∀ signal ∈ signals, signal.WellShaped

/-- Every window with a revision has signals, and the signals of the windows are well shaped. -/
structure Supplied (st : EngineState) : Prop where
  shaped : ∀ key signals, st.events.get? key = some signals → ∀ signal ∈ signals, signal.WellShaped
  stored : ∀ key ∈ st.revisions.keys, key ∈ st.events.keys

/-- A build returns when the signals of its window are well shaped. -/
theorem buildRevision_returns (hcfg : cfg.Registered) {key : WindowKey} (forceFinal : Bool)
    {s : EngineState} (hclean : Clean s key) (hkey : key ∈ s.events.keys) :
    ∃ snapshot s', buildRevision cfg key forceFinal s = (.ok snapshot, s') := by
  obtain ⟨events, hev⟩ := OrderedDict.mem_keys_iff.mp hkey
  obtain ⟨mark, hmark⟩ := fusionOf_succeeds hcfg s key.scopeId key.assetId
  obtain ⟨t, ht, hwm⟩ := watermark_apply cfg key.scopeId key.assetId s
  have hshaped : ∀ signal ∈ sortSignals events, signal.WellShaped := fun signal hmem =>
    hclean events hev signal ((List.mem_insertionSort _).mp hmem)
  obtain ⟨snapshot, hmake⟩ := makeSnapshot_succeeds hcfg t key hshaped (s.revisionsOf key)
    (forceFinal || hasPassed mark key.windowEnd)
  refine ⟨snapshot, appendRevision key snapshot t, ?_⟩
  unfold buildRevision
  rw [hmark] at hwm
  rw [reading_bind, hev]
  simp only [reading_bind]
  rw [bind_of_ok hwm, reading_bind, hmake]
  rfl

theorem buildRevision_succeeds (hcfg : cfg.Registered) {key : WindowKey} (forceFinal : Bool)
    {s : EngineState} (hs : Supplied s) (hkey : key ∈ s.events.keys) :
    ∃ snapshot s', buildRevision cfg key forceFinal s = (.ok snapshot, s') ∧ Supplied s' ∧
      s'.events = s.events := by
  obtain ⟨snapshot, s', hok⟩ := buildRevision_returns hcfg forceFinal (hs.shaped key) hkey
  have hb := buildRevision_ok hok
  refine ⟨snapshot, s', hok, ⟨fun key' signals h => ?_, fun key' h => ?_⟩, hb.events⟩
  · rw [hb.events] at h
    exact hs.shaped key' signals h
  · rw [hb.revisions, OrderedDict.mem_keys_set] at h
    rw [hb.events]
    rcases h with h | rfl
    · exact hs.stored key' h
    · exact hkey

/-- A well-shaped signal does not spoil a window. -/
theorem clean_appendEvent {signal : FeatureSignal} (hshape : signal.WellShaped) {own key : WindowKey}
    {s : EngineState} : Clean (appendEvent own signal s) key ↔ Clean s key := by
  unfold Clean
  rw [appendEvent, OrderedDict.get?_set]
  by_cases hkey : key = own
  · rw [if_pos hkey, hkey]
    unfold OrderedDict.getD
    cases hget : s.events.get? own with
    | none => simpa using hshape
    | some stored =>
      simp only [Option.getD_some, Option.some.injEq, forall_eq', List.mem_append,
        List.mem_singleton]
      refine ⟨fun h other hother => h other (Or.inl hother), fun h other hother => ?_⟩
      rcases hother with hold | rfl
      · exact h other hold
      · exact hshape
  · rw [if_neg hkey]

/-- The invariant of a loop over windows that have signals. -/
def SuppliedWith (keys : List WindowKey) (st : EngineState) : Prop :=
  Supplied st ∧ ∀ key ∈ keys, key ∈ st.events.keys

theorem succeeds_buildRevision (hcfg : cfg.Registered) {keys : List WindowKey} {key : WindowKey}
    (hmem : key ∈ keys) (forceFinal : Bool) :
    Succeeds (SuppliedWith keys) (buildRevision cfg key forceFinal) := by
  rintro s ⟨hs, hkeys⟩
  obtain ⟨snapshot, s', hok, hs', hev⟩ :=
    buildRevision_succeeds hcfg forceFinal hs (hkeys key hmem)
  exact ⟨snapshot, s', hok, hs', fun key' hmem' => by rw [hev]; exact hkeys key' hmem'⟩

theorem succeeds_ingestInterval (hcfg : cfg.Registered) {signal : FeatureSignal}
    (hshape : signal.WellShaped) (interval : ℕ) :
    Succeeds Supplied (ingestInterval cfg signal interval) := by
  have happend : ∀ s, Supplied s → Supplied (appendEvent (signal.windowKey interval) signal s) :=
    fun s hs => ⟨fun key => (clean_appendEvent hshape).mpr (hs.shaped key), fun key h =>
      OrderedDict.mem_keys_set.mpr (Or.inl (hs.stored key h))⟩
  intro s hs
  have hs' := happend s hs
  have hkey : signal.windowKey interval ∈
      (appendEvent (signal.windowKey interval) signal s).events.keys :=
    OrderedDict.mem_keys_set.mpr (Or.inr rfl)
  obtain ⟨own, t, hown, ht, -⟩ := buildRevision_succeeds hcfg false hs' hkey
  -- the windows to rebuild have revisions, so they have signals
  have hloop : Succeeds (SuppliedWith (downstreamKeys t (signal.windowKey interval)))
      (forEach (rebuildDownstream cfg) (downstreamKeys t (signal.windowKey interval))) :=
    succeeds_forEach fun key hmem u hu => by
      rw [rebuildDownstream_apply]
      exact succeeds_buildRevision hcfg hmem _ u hu
  obtain ⟨rebuilt, u, hrebuilt, hu, -⟩ := hloop t
    ⟨ht, fun key hmem => ht.stored key (mem_downstreamKeys.mp hmem).1⟩
  refine ⟨own :: rebuilt, u, ?_, hu⟩
  unfold ingestInterval
  simp only [modify_bind]
  rw [bind_of_ok hown, reading_bind, bind_of_ok hrebuilt]
  rfl

theorem succeeds_finalizeIfEligible (hcfg : cfg.Registered) {keys : List WindowKey}
    {key : WindowKey} (hmem : key ∈ keys) (scopeId assetId : String) (mark : Datetime) :
    Succeeds (SuppliedWith keys) (finalizeIfEligible cfg scopeId assetId mark key) := by
  unfold finalizeIfEligible
  by_cases hkey : key.scopeId ≠ scopeId ∨ key.assetId ≠ assetId
  · rw [if_pos hkey]
    exact succeeds_pure []
  · rw [if_neg hkey]
    intro s hs
    rw [reading_bind]
    split_ifs
    · exact succeeds_pure [] s hs
    · exact succeeds_bind (succeeds_buildRevision hcfg hmem true) (fun _ => succeeds_pure _) s hs
    · exact succeeds_pure [] s hs

theorem succeeds_finalizeEligible (hcfg : cfg.Registered) (scopeId assetId : String) :
    Succeeds Supplied (finalizeEligible cfg scopeId assetId) := by
  intro s hs
  obtain ⟨mark, hmark⟩ := fusionOf_succeeds hcfg s scopeId assetId
  obtain ⟨t, ht, hwm⟩ := watermark_apply cfg scopeId assetId s
  have htS : Supplied t := ⟨by rw [ht.events]; exact hs.shaped, by
    rw [ht.events, ht.revisions]
    exact hs.stored⟩
  rw [hmark] at hwm
  unfold finalizeEligible
  rw [bind_of_ok hwm]
  cases mark with
  | none => exact ⟨[], t, rfl, htS⟩
  | some mark =>
    simp only [reading_bind]
    have hloop : Succeeds (SuppliedWith t.revisions.keys)
        (flatForEach (finalizeIfEligible cfg scopeId assetId mark) t.revisions.keys) :=
      succeeds_flatForEach fun key hmem =>
        succeeds_finalizeIfEligible hcfg hmem scopeId assetId mark
    obtain ⟨finalized, u, hok, hu, -⟩ := hloop t ⟨htS, htS.stored⟩
    exact ⟨finalized, u, hok, hu⟩

theorem succeeds_ingest (hcfg : cfg.Registered) {signal : FeatureSignal}
    (hshape : signal.WellShaped) : Succeeds Supplied (ingest cfg signal) := by
  intro s hs
  by_cases hseen : signal.seenKey ∈ s.seenEventIds
  · exact ⟨[], s, ingest_of_seen hseen, hs⟩
  · rw [ingest_of_new hseen]
    have hbody : Succeeds Supplied (flatForEach (ingestInterval cfg signal) cfg.intervals >>=
        fun changed => finalizeEligible cfg signal.scopeId signal.assetId >>= fun finalized =>
          pure (changed ++ finalized)) :=
      succeeds_bind (succeeds_flatForEach fun interval _ =>
        succeeds_ingestInterval hcfg hshape interval) fun _ =>
          succeeds_bind (succeeds_finalizeEligible hcfg _ _) fun _ => succeeds_pure _
    exact hbody (register signal s) ⟨hs.shaped, hs.stored⟩

theorem supplied_initial : Supplied EngineState.initial := by
  refine ⟨fun key signals h => absurd h ?_, fun key h => absurd h ?_⟩
  · simp [EngineState.initial]
  · simp [EngineState.initial]

/-- **No call raises** when the configuration is registered and the signals are well shaped. -/
theorem allOk_runAll_ingest (hcfg : cfg.Registered) {run : List FeatureSignal}
    (hshape : ∀ signal ∈ run, signal.WellShaped) :
    AllOk (runAll (ingest cfg) run .initial).1 :=
  allOk_runAll (fun signal hmem => succeeds_ingest hcfg (hshape signal hmem)) supplied_initial

end Features
end Scam2Market
