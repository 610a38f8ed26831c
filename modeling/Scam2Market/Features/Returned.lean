import Scam2Market.Features.EngineSteps

/-!
# What a call of the engine returns

The snapshots that `ingest` returns for a new signal are revisions of windows of its scope and asset,
of registered intervals, and there is one for each interval (`ingest_returns`).  A window is only
built when signals are stored in it, and signals are only stored in windows of registered intervals
(`StoredKnown`).
-/

namespace Scam2Market
namespace Features

open Library
open Library.Procedure

variable {cfg : EngineConfig} {signal : FeatureSignal}

/-- Signals are stored in windows of registered intervals only. -/
def StoredKnown (cfg : EngineConfig) (st : EngineState) : Prop :=
  ∀ key ∈ st.events.keys, key.interval ∈ cfg.intervals

/-- A revision of a window of the signal's scope and asset, of a registered interval. -/
structure RevisionFor (cfg : EngineConfig) (signal : FeatureSignal) (snapshot : FeatureSnapshot) :
    Prop where
  scopeId : snapshot.scopeId = signal.scopeId
  assetId : snapshot.assetId = signal.assetId
  interval : snapshot.intervalSeconds ∈ cfg.intervals

theorem storedKnown_initial : StoredKnown cfg .initial := by
  intro key hkey
  exact absurd hkey List.not_mem_nil

theorem storedKnown_appendEvent {st : EngineState} (h : StoredKnown cfg st) {interval : ℕ}
    (hmem : interval ∈ cfg.intervals) :
    StoredKnown cfg (appendEvent (signal.windowKey interval) signal st) := by
  intro key hkey
  rcases OrderedDict.mem_keys_set.mp hkey with hold | rfl
  · exact h key hold
  · exact hmem

theorem storedKnown_ingest (signal : FeatureSignal) {st : EngineState} (h : StoredKnown cfg st) :
    StoredKnown cfg (ingest cfg signal st).2 := by
  refine ingest_invariant signal (fun _ _ hs => hs) (fun s t hstep hs => ?_) h
  cases hstep with
  | query hq =>
    intro key hkey
    rw [hq.events] at hkey
    exact hs key hkey
  | event interval hmem => exact storedKnown_appendEvent hs hmem
  | build key forceFinal snapshot _ _ _ hb =>
    intro key' hkey'
    rw [(buildRevision_ok hb).events] at hkey'
    exact hs key' hkey'

/-- What is built is a revision of the window, and the window has stored signals. -/
theorem yields_buildRevision {key : WindowKey} (forceFinal : Bool)
    (hscope : key.scopeId = signal.scopeId) (hasset : key.assetId = signal.assetId) :
    Yields (StoredKnown cfg)
      (fun snapshot => RevisionFor cfg signal snapshot ∧ snapshot.intervalSeconds = key.interval)
      (buildRevision cfg key forceFinal) := by
  intro s snapshot s' hs h
  have hbuilt := buildRevision_ok h
  refine ⟨fun key' hkey' => hs key' (hbuilt.events ▸ hkey'), ?_⟩
  obtain ⟨events, mark, t, hget, -, -, hmake, -⟩ := hbuilt.steps
  obtain ⟨features, -, hfields⟩ := makeSnapshot_eq_ok hmake
  have hinterval : snapshot.intervalSeconds = key.interval := by
    rw [hfields]
    rfl
  refine ⟨⟨?_, ?_, ?_⟩, hinterval⟩
  · rw [← hscope, hfields]
    rfl
  · rw [← hasset, hfields]
    rfl
  · rw [hinterval]
    exact hs key (OrderedDict.mem_keys_iff.mpr ⟨events, hget⟩)

theorem yields_ingestInterval {interval : ℕ} (hmem : interval ∈ cfg.intervals) :
    Yields (StoredKnown cfg)
      (fun snapshots => (∀ snapshot ∈ snapshots, RevisionFor cfg signal snapshot) ∧
        ∃ snapshot ∈ snapshots, snapshot.intervalSeconds = interval)
      (ingestInterval cfg signal interval) := by
  refine yields_bind (yields_modify fun s hs => storedKnown_appendEvent hs hmem) fun _ _ => ?_
  refine yields_bind (yields_buildRevision false rfl rfl) fun own hown => ?_
  have hread : Yields (StoredKnown cfg)
      (fun keys : List WindowKey => ∀ key ∈ keys,
        key.scopeId = signal.scopeId ∧ key.assetId = signal.assetId)
      (reading fun st => downstreamKeys st (signal.windowKey interval) :
        EngineM (List WindowKey)) := by
    refine yields_reading fun s _ key hkey => ?_
    obtain ⟨-, hscope, hasset, -⟩ := mem_downstreamKeys.mp hkey
    exact ⟨hscope, hasset⟩
  refine yields_bind hread fun keys hkeys => ?_
  have hloop : Yields (StoredKnown cfg)
      (fun snapshots => ∀ snapshot ∈ snapshots, RevisionFor cfg signal snapshot)
      (forEach (rebuildDownstream cfg) keys) := by
    refine yields_forEach_all fun key hkey s snapshot s' hs h => ?_
    rw [rebuildDownstream_apply] at h
    obtain ⟨hscope, hasset⟩ := hkeys key hkey
    exact (yields_buildRevision _ hscope hasset s snapshot s' hs h).imp_right And.left
  refine yields_bind hloop fun rebuilt hrebuilt => yields_pure ⟨?_, own, List.mem_cons_self, hown.2⟩
  intro snapshot hsnapshot
  rcases List.mem_cons.mp hsnapshot with rfl | hsnapshot
  · exact hown.1
  · exact hrebuilt snapshot hsnapshot

theorem yields_finalizeEligible :
    Yields (StoredKnown cfg) (fun snapshots => ∀ snapshot ∈ snapshots, RevisionFor cfg signal snapshot)
      (finalizeEligible cfg signal.scopeId signal.assetId) := by
  have hwatermark : Yields (StoredKnown cfg) (fun _ => True)
      (watermark cfg signal.scopeId signal.assetId) := by
    intro s mark s' hs h
    obtain ⟨t, ht, hwm⟩ := watermark_apply cfg signal.scopeId signal.assetId s
    obtain rfl : t = s' := congrArg Prod.snd (hwm.symm.trans h)
    exact ⟨fun key hkey => hs key (ht.events ▸ hkey), trivial⟩
  refine yields_bind hwatermark fun mark _ => ?_
  cases mark with
  | none => exact yields_pure (by simp)
  | some value =>
    refine yields_bind (yields_reading (Q := fun _ => True) fun _ _ => trivial) fun keys _ => ?_
    have hround : ∀ key ∈ keys, Yields (StoredKnown cfg)
        (fun snapshots => ∀ snapshot ∈ snapshots, RevisionFor cfg signal snapshot)
        (finalizeIfEligible cfg signal.scopeId signal.assetId value key) := by
      intro key _
      unfold finalizeIfEligible
      by_cases hkey : key.scopeId ≠ signal.scopeId ∨ key.assetId ≠ signal.assetId
      · rw [if_pos hkey]
        exact yields_pure (by simp)
      · obtain ⟨hscope, hasset⟩ := not_or.mp hkey
        rw [if_neg hkey]
        refine yields_bind (yields_reading (Q := fun _ => True) fun _ _ => trivial) fun isFinal _ => ?_
        split_ifs
        · exact yields_pure (by simp)
        · refine yields_bind (yields_buildRevision true (not_not.mp hscope) (not_not.mp hasset))
            fun snapshot hsnapshot => yields_pure ?_
          intro other hother
          rw [List.mem_singleton.mp hother]
          exact hsnapshot.1
        · exact yields_pure (by simp)
    refine (yields_flatForEach hround).weaken fun snapshots h snapshot hsnapshot => ?_
    obtain ⟨_, _, found, hfound, hmem⟩ := h.1 snapshot hsnapshot
    exact hfound snapshot hmem

/-- **What a call returns** for a signal that is new: revisions of windows of its scope and asset,
one at least for each interval. -/
theorem ingest_returns {st st' : EngineState} {snapshots : List FeatureSnapshot}
    (hknown : StoredKnown cfg st) (hnew : signal.seenKey ∉ st.seenEventIds)
    (h : ingest cfg signal st = (.ok snapshots, st')) :
    (∀ snapshot ∈ snapshots, RevisionFor cfg signal snapshot) ∧
      ∀ interval ∈ cfg.intervals, ∃ snapshot ∈ snapshots, snapshot.intervalSeconds = interval := by
  have hbody : Yields (StoredKnown cfg)
      (fun snapshots => (∀ snapshot ∈ snapshots, RevisionFor cfg signal snapshot) ∧
        ∀ interval ∈ cfg.intervals, ∃ snapshot ∈ snapshots, snapshot.intervalSeconds = interval)
      (flatForEach (ingestInterval cfg signal) cfg.intervals >>= fun changed =>
        finalizeEligible cfg signal.scopeId signal.assetId >>= fun finalized =>
          pure (changed ++ finalized)) := by
    refine yields_bind (yields_flatForEach fun interval hmem => yields_ingestInterval hmem)
      fun changed hchanged => ?_
    refine yields_bind yields_finalizeEligible fun finalized hfinalized => yields_pure ⟨?_, ?_⟩
    · intro snapshot hsnapshot
      rcases List.mem_append.mp hsnapshot with hmem | hmem
      · obtain ⟨_, _, found, hfound, hin⟩ := hchanged.1 snapshot hmem
        exact hfound.1 snapshot hin
      · exact hfinalized snapshot hmem
    · intro interval hinterval
      obtain ⟨found, ⟨-, snapshot, hin, heq⟩, hsub⟩ := hchanged.2 interval hinterval
      exact ⟨snapshot, List.mem_append_left _ (hsub hin), heq⟩
  rw [ingest_of_new hnew] at h
  have hregister : StoredKnown cfg (register signal st) := hknown
  exact (hbody _ _ _ hregister h).2

end Features
end Scam2Market
