import Scam2Market.Features.History
import Scam2Market.Features.Returned

/-!
# The latest window

* `IsGreatest`: the window of a scope, asset and interval with the greatest start.  Its last revision
  is what `latest` returns (`latest_eq_some_iff`).
* `ingestInterval_emits`: the loop over the windows of an interval builds its own window and then the
  later ones by their start, so what it emits last is the last revision of the greatest one.
* `ingest_emits`: what a call emits is, for each interval, first this and then the early windows that
  the sweep closes.

An early window, one before the window of the signal, is emitted exactly when it was open and the
watermark has passed its end.
-/

namespace Scam2Market
namespace Features

open Library
open Library.Procedure

variable {cfg : EngineConfig} {signal : FeatureSignal} {s t : EngineState} {key : WindowKey}
  {snapshot : FeatureSnapshot}

/-! ## The greatest window -/

/-- `max` returns one of the candidates. -/
theorem mem_of_latestOf {candidates : List FeatureSnapshot}
    (h : latestOf candidates = some snapshot) : snapshot ∈ candidates := by
  have hattained : latestOf candidates = none ∨
      ∃ candidate ∈ candidates, latestOf candidates = some candidate := by
    refine foldl_attained ?_ candidates none
    intro best candidate
    cases best with
    | none => exact Or.inr rfl
    | some chosen =>
      by_cases hlt : chosen.windowStart < candidate.windowStart
      · exact Or.inr (if_pos hlt)
      · exact Or.inl (if_neg hlt)
  rcases hattained with hnone | ⟨candidate, hmem, hcandidate⟩
  · exact absurd (hnone.symm.trans h) (by simp)
  · rw [← Option.some.inj (hcandidate.symm.trans h)]
    exact hmem

/-- No candidate is later than what `max` returns. -/
theorem le_latestOf {candidates : List FeatureSnapshot} {candidate : FeatureSnapshot}
    (h : candidate ∈ candidates) :
    ∃ latest, latestOf candidates = some latest ∧ candidate.windowStart ≤ latest.windowStart := by
  let R : Option FeatureSnapshot → Option FeatureSnapshot → Prop := fun best best' =>
    ∀ x ∈ best, ∃ y, best' = some y ∧ x.windowStart ≤ y.windowStart
  refine (foldl_dominates R some (fun best x hx => ⟨x, hx, le_rfl⟩) (fun b b' b'' hb hb' x hx => ?_)
    (fun best candidate => ?_) candidates none).2 candidate h candidate rfl
  · obtain ⟨y, hy, hle⟩ := hb x hx
    obtain ⟨z, hz, hle'⟩ := hb' y hy
    exact ⟨z, hz, hle.trans hle'⟩
  · cases best with
    | none => exact ⟨fun x hx => absurd hx (Option.not_mem_none x), fun x hx => ⟨x, hx, le_rfl⟩⟩
    | some chosen =>
      by_cases hlt : chosen.windowStart < candidate.windowStart
      · simp only [R, if_pos hlt]
        refine ⟨fun x hx => ⟨candidate, rfl, ?_⟩, fun x hx => ⟨x, hx, le_rfl⟩⟩
        rw [← Option.some.inj hx]
        exact hlt.le
      · simp only [R, if_neg hlt]
        refine ⟨fun x hx => ⟨x, hx, le_rfl⟩, fun x hx => ⟨chosen, rfl, ?_⟩⟩
        rw [← Option.some.inj hx]
        exact not_lt.mp hlt

theorem revisionsOf_congr (h : t.revisions.get? key = s.revisions.get? key) :
    t.revisionsOf key = s.revisionsOf key := by
  rw [EngineState.revisionsOf, EngineState.revisionsOf, OrderedDict.getD, OrderedDict.getD, h]

/-- The window with the greatest start among those of its scope, asset and interval. -/
structure IsGreatest (st : EngineState) (key : WindowKey) : Prop where
  mem : key ∈ st.revisions.keys
  le : ∀ other ∈ st.revisions.keys, other.scopeId = key.scopeId → other.assetId = key.assetId →
    other.interval = key.interval → other.windowStart ≤ key.windowStart

/-- What the dictionaries hold: windows of registered intervals, each with its revisions. -/
structure Shaped (cfg : EngineConfig) (st : EngineState) : Prop where
  stored : StoredKnown cfg st
  interval : ∀ key ∈ st.revisions.keys, key.interval ∈ cfg.intervals
  revised : ∀ key ∈ st.revisions.keys, ∃ last, (st.revisionsOf key).getLast? = some last
  named : ∀ key, ∀ snapshot ∈ st.revisionsOf key, IsRevisionOf key snapshot

theorem shaped_initial : Shaped cfg .initial where
  stored := storedKnown_initial
  interval _ h := absurd h List.not_mem_nil
  revised _ h := absurd h List.not_mem_nil
  named _ _ h := absurd h List.not_mem_nil

theorem Shaped.queried {scopeId assetId : String} (hs : Shaped cfg s)
    (h : Queried cfg scopeId assetId s t) : Shaped cfg t where
  stored key hkey := hs.stored key (h.events ▸ hkey)
  interval key hkey := hs.interval key (h.revisions ▸ hkey)
  revised key hkey := by
    rw [h.revisionsOf]
    exact hs.revised key (h.revisions ▸ hkey)
  named key := by
    rw [h.revisionsOf]
    exact hs.named key

theorem Shaped.appendEvent (hs : Shaped cfg s) {interval : ℕ} (hmem : interval ∈ cfg.intervals) :
    Shaped cfg (appendEvent (signal.windowKey interval) signal s) :=
  { hs with stored := storedKnown_appendEvent hs.stored hmem }

theorem Built.get?_revisions {forceFinal : Bool} (h : Built cfg key forceFinal s snapshot t)
    (other : WindowKey) :
    t.revisions.get? other =
      if other = key then some (s.revisionsOf key ++ [snapshot]) else s.revisions.get? other := by
  rw [h.revisions, OrderedDict.get?_set]

theorem Shaped.built (hs : Shaped cfg s) {forceFinal : Bool}
    (h : Built cfg key forceFinal s snapshot t) : Shaped cfg t := by
  have hkeys : ∀ other, other ∈ t.revisions.keys ↔ other ∈ s.revisions.keys ∨ other = key := by
    intro other
    rw [h.revisions, OrderedDict.mem_keys_set]
  refine ⟨fun other hother => hs.stored other (h.events ▸ hother), fun other hother => ?_,
    fun other hother => ?_, fun other => ?_⟩
  · rcases (hkeys other).mp hother with hold | rfl
    · exact hs.interval other hold
    · obtain ⟨events, mark, u, hget, -⟩ := h.steps
      exact hs.stored other (OrderedDict.mem_keys_iff.mpr ⟨events, hget⟩)
  · by_cases hkey : other = key
    · rw [hkey, h.revisionsOf_self]
      exact ⟨snapshot, List.getLast?_concat ..⟩
    · rw [h.revisionsOf_of_ne hkey]
      exact hs.revised other (((hkeys other).mp hother).resolve_right hkey)
  · by_cases hkey : other = key
    · rw [hkey, h.revisionsOf_self]
      intro found hfound
      rcases List.mem_append.mp hfound with hold | hnew
      · exact hs.named key found hold
      · rw [List.mem_singleton.mp hnew]
        exact h.isRevisionOf
    · rw [h.revisionsOf_of_ne hkey]
      exact hs.named other

theorem shaped_ingest (hs : Shaped cfg s) : Shaped cfg (ingest cfg signal s).2 := by
  refine ingest_invariant signal (fun _ _ h => ⟨h.stored, h.interval, h.revised, h.named⟩)
    (fun s t hstep hs => ?_) hs
  cases hstep with
  | query h => exact hs.queried h
  | event interval hmem => exact hs.appendEvent hmem
  | build key forceFinal snapshot _ _ _ h => exact hs.built (buildRevision_ok h)

theorem mem_keys_of_getLast? (h : (s.revisionsOf key).getLast? = some snapshot) :
    key ∈ s.revisions.keys := by
  by_contra hnot
  rw [EngineState.revisionsOf, OrderedDict.getD, OrderedDict.get?_eq_none_iff.mpr hnot] at h
  exact absurd h (by simp)

theorem IsRevisionOf.of_getLast? (hs : Shaped cfg s)
    (h : (s.revisionsOf key).getLast? = some snapshot) : IsRevisionOf key snapshot :=
  hs.named key snapshot (List.mem_of_getLast? h)

/-- The candidates of `latest` are the last revisions of the windows. -/
theorem mem_candidates {scopeId assetId : String} {interval : ℕ} :
    snapshot ∈ (s.revisions.entries.filterMap fun item =>
        if item.1.scopeId = scopeId ∧ item.1.assetId = assetId ∧ item.1.interval = interval then
          item.2.getLast?
        else none) ↔
      ∃ key : WindowKey, key.scopeId = scopeId ∧ key.assetId = assetId ∧ key.interval = interval ∧
        (s.revisionsOf key).getLast? = some snapshot := by
  rw [List.mem_filterMap]
  constructor
  · rintro ⟨⟨key, revisions⟩, hitem, hlast⟩
    rw [Option.ite_none_right_eq_some] at hlast
    obtain ⟨⟨hscope, hasset, hinterval⟩, hlast⟩ := hlast
    refine ⟨key, hscope, hasset, hinterval, ?_⟩
    rw [EngineState.revisionsOf,
      OrderedDict.getD_of_get?_eq_some (OrderedDict.mem_entries_iff.mp hitem)]
    exact hlast
  · rintro ⟨key, hscope, hasset, hinterval, hlast⟩
    obtain ⟨revisions, hget⟩ := OrderedDict.mem_keys_iff.mp (mem_keys_of_getLast? hlast)
    refine ⟨(key, revisions), OrderedDict.mem_entries_iff.mpr hget, ?_⟩
    rw [EngineState.revisionsOf, OrderedDict.getD_of_get?_eq_some hget] at hlast
    rw [if_pos ⟨hscope, hasset, hinterval⟩]
    exact hlast

/-- **`latest` returns the last revision of the greatest window.** -/
theorem latest_eq_some_iff (hs : Shaped cfg s) {scopeId assetId : String} {interval : ℕ} :
    latest s assetId interval scopeId = some snapshot ↔
      ∃ key, IsGreatest s key ∧ key.scopeId = scopeId ∧ key.assetId = assetId ∧
        key.interval = interval ∧ (s.revisionsOf key).getLast? = some snapshot := by
  have hgreatest : ∀ {found}, latest s assetId interval scopeId = some found →
      ∃ key, IsGreatest s key ∧ key.scopeId = scopeId ∧ key.assetId = assetId ∧
        key.interval = interval ∧ (s.revisionsOf key).getLast? = some found := by
    intro found hfound
    obtain ⟨key, hscope, hasset, hinterval, hlast⟩ := mem_candidates.mp (mem_of_latestOf hfound)
    refine ⟨key, ⟨mem_keys_of_getLast? hlast, fun other hother hscope' hasset' hinterval' => ?_⟩,
      hscope, hasset, hinterval, hlast⟩
    obtain ⟨last, hlast'⟩ := hs.revised other hother
    obtain ⟨greatest, hmax, hle⟩ := le_latestOf (mem_candidates.mpr
      ⟨other, hscope'.trans hscope, hasset'.trans hasset, hinterval'.trans hinterval, hlast'⟩)
    obtain rfl : greatest = found := Option.some.inj (hmax.symm.trans hfound)
    rw [(IsRevisionOf.of_getLast? hs hlast').windowStart,
      (IsRevisionOf.of_getLast? hs hlast).windowStart] at hle
    exact hle
  refine ⟨hgreatest, ?_⟩
  rintro ⟨key, hkey, hscope, hasset, hinterval, hlast⟩
  obtain ⟨found, hfound, -⟩ := le_latestOf (mem_candidates.mpr
    ⟨key, hscope, hasset, hinterval, hlast⟩)
  obtain ⟨other, hother, hscope', hasset', hinterval', hlast'⟩ := hgreatest hfound
  -- two greatest windows are one
  have hstart : other.windowStart = key.windowStart := by
    refine le_antisymm (hkey.le other hother.mem ?_ ?_ ?_) (hother.le key hkey.mem ?_ ?_ ?_)
    · exact hscope'.trans hscope.symm
    · exact hasset'.trans hasset.symm
    · exact hinterval'.trans hinterval.symm
    · exact hscope.trans hscope'.symm
    · exact hasset.trans hasset'.symm
    · exact hinterval.trans hinterval'.symm
  have hsame : other = key := by
    cases other
    cases key
    simp only at hscope hasset hinterval hscope' hasset' hinterval' hstart
    rw [hscope, hasset, hinterval, hscope', hasset', hinterval', hstart]
  rw [hsame, hlast] at hlast'
  exact hfound.trans hlast'.symm

/-- `latest` depends on the windows of the scope, asset and interval only. -/
theorem latest_congr (hs : Shaped cfg s) (ht : Shaped cfg t) {scopeId assetId : String}
    {interval : ℕ}
    (h : ∀ key : WindowKey, key.scopeId = scopeId → key.assetId = assetId →
      key.interval = interval → t.revisions.get? key = s.revisions.get? key) :
    latest t assetId interval scopeId = latest s assetId interval scopeId := by
  have hcarry : ∀ {s t : EngineState}, Shaped cfg s → Shaped cfg t →
      (∀ key : WindowKey, key.scopeId = scopeId → key.assetId = assetId →
        key.interval = interval → t.revisions.get? key = s.revisions.get? key) →
      ∀ found, latest s assetId interval scopeId = some found →
        latest t assetId interval scopeId = some found := by
    intro s t hs ht h found hfound
    obtain ⟨key, hgreatest, hscope, hasset, hinterval, hlast⟩ := (latest_eq_some_iff hs).mp hfound
    have hmem : ∀ other : WindowKey, other.scopeId = scopeId → other.assetId = assetId →
        other.interval = interval → (other ∈ t.revisions.keys ↔ other ∈ s.revisions.keys) := by
      intro other ho ha hi
      rw [OrderedDict.mem_keys_iff, OrderedDict.mem_keys_iff, h other ho ha hi]
    refine (latest_eq_some_iff ht).mpr ⟨key, ⟨?_, fun other hother ho ha hi => ?_⟩, hscope, hasset,
      hinterval, ?_⟩
    · exact (hmem key hscope hasset hinterval).mpr hgreatest.mem
    · have hold := (hmem other (ho.trans hscope) (ha.trans hasset) (hi.trans hinterval)).mp hother
      exact hgreatest.le other hold ho ha hi
    · rw [revisionsOf_congr (h key hscope hasset hinterval)]
      exact hlast
  refine Option.ext fun found => ⟨hcarry ht hs (fun key ho ha hi => (h key ho ha hi).symm) found, ?_⟩
  exact hcarry hs ht h found

/-! ## What a phase of a call rebuilds -/

/-- A window that the watermark has passed is not left open. -/
def OpenInTime (cfg : EngineConfig) (st : EngineState) (key : WindowKey) : Prop :=
  OpenWindow st key → ¬ Passed cfg st key

/-- The windows of `p` have been rebuilt, if they exist, and the others are as they were. -/
structure Rebuilt (cfg : EngineConfig) (p : WindowKey → Prop) (s t : EngineState) : Prop where
  fusion : ∀ scopeId assetId, fusionOf cfg t scopeId assetId = fusionOf cfg s scopeId assetId
  kept : ∀ key, ¬ p key → t.revisions.get? key = s.revisions.get? key
  inTime : ∀ key, p key → OpenInTime cfg t key
  grown : ∀ key ∈ s.revisions.keys, key ∈ t.revisions.keys
  shaped : Shaped cfg t

theorem openInTime_congr
    (hfusion : ∀ scopeId assetId, fusionOf cfg t scopeId assetId = fusionOf cfg s scopeId assetId)
    (hget : t.revisions.get? key = s.revisions.get? key) (h : OpenInTime cfg s key) :
    OpenInTime cfg t key := by
  rintro ⟨last, hlast, hopen⟩ ⟨mark, hmark, hend⟩
  rw [revisionsOf_congr hget] at hlast
  rw [hfusion] at hmark
  exact h ⟨last, hlast, hopen⟩ ⟨mark, hmark, hend⟩

namespace Rebuilt

variable {p q : WindowKey → Prop} {u : EngineState}

theorem refl (hs : Shaped cfg s) : Rebuilt cfg (fun _ => False) s s where
  fusion _ _ := rfl
  kept _ _ := rfl
  inTime _ h := h.elim
  grown _ h := h
  shaped := hs

theorem trans (hst : Rebuilt cfg p s t) (htu : Rebuilt cfg q t u) :
    Rebuilt cfg (fun key => p key ∨ q key) s u where
  fusion scopeId assetId := (htu.fusion scopeId assetId).trans (hst.fusion scopeId assetId)
  kept key h := by
    obtain ⟨hp, hq⟩ := not_or.mp h
    exact (htu.kept key hq).trans (hst.kept key hp)
  inTime key h := by
    by_cases hq : q key
    · exact htu.inTime key hq
    · exact openInTime_congr htu.fusion (htu.kept key hq) (hst.inTime key (h.resolve_right hq))
  grown key h := htu.grown key (hst.grown key h)
  shaped := htu.shaped

/-- Windows may be counted among the rebuilt ones if none of them is left open. -/
theorem weaken (h : Rebuilt cfg p s t) (hpq : ∀ key, p key → q key)
    (hinTime : ∀ key, q key → ¬ p key → OpenInTime cfg t key) : Rebuilt cfg q s t where
  fusion := h.fusion
  kept key hq := h.kept key fun hp => hq (hpq key hp)
  inTime key hq := by
    by_cases hp : p key
    · exact h.inTime key hp
    · exact hinTime key hq hp
  grown := h.grown
  shaped := h.shaped

/-- A build rebuilds its window. -/
theorem of_built (hs : Shaped cfg s) {forceFinal : Bool}
    (h : Built cfg key forceFinal s snapshot t) : Rebuilt cfg (· = key) s t where
  fusion := fusionOf_eq_of_marked h.marked
  kept other hother := by
    rw [h.get?_revisions, if_neg hother]
  inTime other hother := by
    rw [hother]
    intro hopen hpassed
    exact not_openWindow_of_due h (Or.inr ((passed_iff_of_marked h.marked).mp hpassed)) hopen
  grown other hother := by
    rw [h.revisions]
    exact OrderedDict.mem_keys_set.mpr (Or.inl hother)
  shaped := hs.built h

/-- A window that was not rebuilt is there if it was. -/
theorem mem_keys_iff_of_not (h : Rebuilt cfg p s t) (hp : ¬ p key) :
    key ∈ t.revisions.keys ↔ key ∈ s.revisions.keys := by
  rw [OrderedDict.mem_keys_iff, OrderedDict.mem_keys_iff, h.kept key hp]

end Rebuilt

/-- The loop over the later windows: what it emits last is the last revision of the last one. -/
theorem forEach_rebuild {keys : List WindowKey} {rebuilt : List FeatureSnapshot}
    (hs : Shaped cfg s) (h : forEach (rebuildDownstream cfg) keys s = (.ok rebuilt, t)) :
    Rebuilt cfg (· ∈ keys) s t ∧
      rebuilt.getLast? = keys.getLast?.bind fun key => (t.revisionsOf key).getLast? := by
  induction keys generalizing s rebuilt with
  | nil =>
    obtain ⟨rfl, rfl⟩ : rebuilt = [] ∧ s = t := by simpa [forEach, eq_comm] using h
    exact ⟨(Rebuilt.refl hs).weaken (fun _ h => h.elim) fun _ h => absurd h List.not_mem_nil, rfl⟩
  | cons key keys ih =>
    obtain ⟨snapshot, rest, mid, hbuild, hloop, rfl⟩ := forEach_cons_eq_ok.mp h
    rw [rebuildDownstream_apply] at hbuild
    have hbuilt := buildRevision_ok hbuild
    obtain ⟨hrebuilt, hlast⟩ := ih (hs.built hbuilt) hloop
    refine ⟨((Rebuilt.of_built hs hbuilt).trans hrebuilt).weaken (fun other hother => ?_)
      (fun other hother hnot => ?_), ?_⟩
    · exact List.mem_cons.mpr hother
    · exact absurd (List.mem_cons.mp hother) hnot
    · cases keys with
      | nil =>
        obtain ⟨rfl, rfl⟩ : rest = [] ∧ mid = t := by simpa [forEach, eq_comm] using hloop
        simp [hbuilt.revisionsOf_self]
      | cons next keys =>
        obtain ⟨_, _, _, -, -, rfl⟩ := forEach_cons_eq_ok.mp hloop
        rw [List.getLast?_cons_cons, List.getLast?_cons_cons]
        exact hlast

/-- A window of the signal's scope and asset and of the interval, not before the one of the signal. -/
def Later (signal : FeatureSignal) (interval : ℕ) (key : WindowKey) : Prop :=
  key.scopeId = signal.scopeId ∧ key.assetId = signal.assetId ∧ key.interval = interval ∧
    floorWindow signal.eventTime interval ≤ key.windowStart

theorem Later.eq_or_lt {interval : ℕ} (h : Later signal interval key) :
    key = signal.windowKey interval ∨
      floorWindow signal.eventTime interval < key.windowStart := by
  obtain ⟨hscope, hasset, hinterval, hle⟩ := h
  refine hle.eq_or_lt.imp (fun hstart => ?_) id
  cases key
  simp only at hscope hasset hinterval hstart
  rw [FeatureSignal.windowKey, hscope, hasset, hinterval, hstart]

/-- In a list in order the last element is the greatest. -/
theorem le_getLast?_downstreamKeys {other : WindowKey}
    (hlast : (downstreamKeys s key).getLast? = some other) {candidate : WindowKey}
    (hmem : candidate ∈ downstreamKeys s key) : candidate.windowStart ≤ other.windowStart := by
  obtain ⟨front, hfront⟩ := List.getLast?_eq_some_iff.mp hlast
  have hsorted : (downstreamKeys s key).Pairwise fun a b => a.windowStart ≤ b.windowStart :=
    List.pairwise_insertionSort _ _
  rw [hfront] at hsorted hmem
  rcases List.mem_append.mp hmem with hfrontmem | hlastmem
  · exact (List.pairwise_append.mp hsorted).2.2 candidate hfrontmem other List.mem_cons_self
  · rw [List.mem_singleton.mp hlastmem]

/-- **One interval.**  Its windows from the one of the signal on are rebuilt, and what is emitted last
is the latest. -/
theorem ingestInterval_emits {interval : ℕ} {emitted : List FeatureSnapshot}
    (hmem : interval ∈ cfg.intervals) (hs : Shaped cfg s)
    (h : ingestInterval cfg signal interval s = (.ok emitted, t)) :
    Rebuilt cfg (Later signal interval) s t ∧ emitted ≠ [] ∧
      signal.windowKey interval ∈ t.revisions.keys ∧
      emitted.getLast? = latest t signal.assetId interval signal.scopeId := by
  unfold ingestInterval at h
  rw [modify_bind] at h
  obtain ⟨own, mid, hown, hrest⟩ := bind_eq_ok.mp h
  rw [reading_bind] at hrest
  obtain ⟨rebuilt, t', hloop, hret⟩ := bind_eq_ok.mp hrest
  obtain ⟨rfl, rfl⟩ : own :: rebuilt = emitted ∧ t' = t := by simpa using hret
  have hs' : Shaped cfg (appendEvent (signal.windowKey interval) signal s) := hs.appendEvent hmem
  have hbuilt := buildRevision_ok hown
  have hfirst := Rebuilt.of_built hs' hbuilt
  obtain ⟨hrest', hlast⟩ := forEach_rebuild hfirst.shaped hloop
  have hmid : Rebuilt cfg (· = signal.windowKey interval) s mid :=
    ⟨hfirst.fusion, hfirst.kept, hfirst.inTime, hfirst.grown, hfirst.shaped⟩
  have hdown : ∀ {key}, key ∈ t'.revisions.keys → key.scopeId = signal.scopeId →
      key.assetId = signal.assetId → key.interval = interval →
      floorWindow signal.eventTime interval < key.windowStart →
        key ∈ downstreamKeys mid (signal.windowKey interval) := by
    intro key hkey hscope hasset hinterval hlt
    by_contra hnot
    exact hnot (mem_downstreamKeys.mpr ⟨(hrest'.mem_keys_iff_of_not hnot).mp hkey, hscope, hasset,
      hinterval, hlt⟩)
  have hall : Rebuilt cfg (Later signal interval) s t' := by
    refine (hmid.trans hrest').weaken (fun key hkey => ?_) fun key hlater hnot hopen => ?_
    · rcases hkey with rfl | hkey
      · exact ⟨rfl, rfl, rfl, le_rfl⟩
      · obtain ⟨-, hscope, hasset, hinterval, hlt⟩ := mem_downstreamKeys.mp hkey
        exact ⟨hscope, hasset, hinterval, hlt.le⟩
    · obtain ⟨hself, hnotdown⟩ := not_or.mp hnot
      obtain ⟨last, hlast, -⟩ := hopen
      have hlt := hlater.eq_or_lt.resolve_left hself
      obtain ⟨hscope, hasset, hinterval, -⟩ := hlater
      exact absurd (hdown (mem_keys_of_getLast? hlast) hscope hasset hinterval hlt) hnotdown
  have hown' : signal.windowKey interval ∈ mid.revisions.keys :=
    mem_keys_of_getLast? (by rw [hbuilt.revisionsOf_self]; exact List.getLast?_concat ..)
  -- the greatest window is the last of the later ones, or the own one if there are none
  obtain ⟨key, hgreatest, hscope, hasset, hinterval, hemitted⟩ : ∃ key, IsGreatest t' key ∧
      key.scopeId = signal.scopeId ∧ key.assetId = signal.assetId ∧ key.interval = interval ∧
        (own :: rebuilt).getLast? = (t'.revisionsOf key).getLast? := by
    cases hgreatest : (downstreamKeys mid (signal.windowKey interval)).getLast? with
    | none =>
      have hnil := List.getLast?_eq_none_iff.mp hgreatest
      rw [hgreatest, Option.bind_none, List.getLast?_eq_none_iff] at hlast
      rw [hnil] at hloop hdown
      obtain rfl : mid = t' := congrArg Prod.snd hloop
      refine ⟨_, ⟨hown', fun other hother ho ha hi => ?_⟩, rfl, rfl, rfl, ?_⟩
      · by_contra hlt
        exact absurd (hdown hother ho ha hi (not_le.mp hlt)) List.not_mem_nil
      · rw [hlast, hbuilt.revisionsOf_self, List.getLast?_concat, List.getLast?_singleton]
    | some key =>
      obtain ⟨hkey, hscope, hasset, hinterval, hlt⟩ :=
        mem_downstreamKeys.mp (List.mem_of_getLast? hgreatest)
      rw [hgreatest, Option.bind_some] at hlast
      obtain ⟨last, hrevised⟩ := hall.shaped.revised key (hrest'.grown key hkey)
      refine ⟨key, ⟨hrest'.grown key hkey, fun other hother ho ha hi => ?_⟩, hscope, hasset,
        hinterval, ?_⟩
      · rcases le_or_gt other.windowStart (floorWindow signal.eventTime interval) with hle | hgt
        · exact hle.trans hlt.le
        · exact le_getLast?_downstreamKeys hgreatest (hdown hother (ho.trans hscope)
            (ha.trans hasset) (hi.trans hinterval) hgt)
      · rw [← hlast, List.getLast?_cons, hlast, hrevised, Option.getD_some]
  obtain ⟨last, hrevised⟩ := hall.shaped.revised key hgreatest.mem
  refine ⟨hall, List.cons_ne_nil _ _, hrest'.grown _ hown', ?_⟩
  rw [hemitted, hrevised]
  exact ((latest_eq_some_iff hall.shaped).mpr
    ⟨key, hgreatest, hscope, hasset, hinterval, hrevised⟩).symm

/-- The last snapshot of an interval. -/
def lastOf (interval : ℕ) (snapshots : List FeatureSnapshot) : Option FeatureSnapshot :=
  (snapshots.filter fun snapshot => snapshot.intervalSeconds = interval).getLast?

theorem lastOf_append (interval : ℕ) (front back : List FeatureSnapshot) :
    lastOf interval (front ++ back) = (lastOf interval back).or (lastOf interval front) := by
  rw [lastOf, List.filter_append, List.getLast?_append]
  rfl

theorem lastOf_eq_none_iff {interval : ℕ} {snapshots : List FeatureSnapshot} :
    lastOf interval snapshots = none ↔
      ∀ snapshot ∈ snapshots, snapshot.intervalSeconds ≠ interval := by
  simp [lastOf]

theorem lastOf_of_forall {interval : ℕ} {snapshots : List FeatureSnapshot}
    (h : ∀ snapshot ∈ snapshots, snapshot.intervalSeconds = interval) :
    lastOf interval snapshots = snapshots.getLast? := by
  rw [lastOf, List.filter_eq_self.mpr fun snapshot hmem => decide_eq_true (h snapshot hmem)]

/-- What is emitted for an interval are revisions of its windows. -/
theorem intervalSeconds_of_ingestInterval {interval : ℕ} {emitted : List FeatureSnapshot}
    (h : ingestInterval cfg signal interval s = (.ok emitted, t)) :
    ∀ snapshot ∈ emitted, snapshot.intervalSeconds = interval := by
  unfold ingestInterval at h
  rw [modify_bind] at h
  obtain ⟨own, mid, hown, hrest⟩ := bind_eq_ok.mp h
  rw [reading_bind] at hrest
  obtain ⟨rebuilt, t', hloop, hret⟩ := bind_eq_ok.mp hrest
  obtain ⟨rfl, rfl⟩ : own :: rebuilt = emitted ∧ t' = t := by simpa using hret
  have hrebuilt : Yields (fun _ => True) (fun snapshots : List FeatureSnapshot =>
      ∀ snapshot ∈ snapshots, snapshot.intervalSeconds = interval)
      (forEach (rebuildDownstream cfg) (downstreamKeys mid (signal.windowKey interval))) := by
    refine yields_forEach_all fun key hkey s snapshot s' _ hbuild => ⟨trivial, ?_⟩
    obtain ⟨-, -, -, hinterval, -⟩ := mem_downstreamKeys.mp hkey
    rw [rebuildDownstream_apply] at hbuild
    exact (buildRevision_ok hbuild).isRevisionOf.intervalSeconds.trans hinterval
  intro snapshot hsnapshot
  rcases List.mem_cons.mp hsnapshot with rfl | hsnapshot
  · exact (buildRevision_ok hown).isRevisionOf.intervalSeconds
  · exact (hrebuilt mid rebuilt t' trivial hloop).2 snapshot hsnapshot

/-- A window of the signal, from the one of the signal on, of one of some intervals. -/
def LaterIn (signal : FeatureSignal) (intervals : List ℕ) (key : WindowKey) : Prop :=
  ∃ interval ∈ intervals, Later signal interval key

/-- **The intervals.**  What is emitted last for each of them is the latest. -/
theorem changed_emits {intervals : List ℕ} {changed : List FeatureSnapshot}
    (hmem : ∀ interval ∈ intervals, interval ∈ cfg.intervals) (hs : Shaped cfg s)
    (h : flatForEach (ingestInterval cfg signal) intervals s = (.ok changed, t)) :
    Rebuilt cfg (LaterIn signal intervals) s t ∧
      (∀ snapshot ∈ changed, snapshot.intervalSeconds ∈ intervals) ∧
      ∀ interval ∈ intervals, lastOf interval changed ≠ none ∧
        signal.windowKey interval ∈ t.revisions.keys ∧
        lastOf interval changed = latest t signal.assetId interval signal.scopeId := by
  obtain ⟨parts, hloop, rfl⟩ := flatForEach_eq_ok.mp h
  clear h
  induction intervals generalizing s parts with
  | nil =>
    obtain ⟨rfl, rfl⟩ : parts = [] ∧ s = t := by simpa [forEach, eq_comm] using hloop
    refine ⟨(Rebuilt.refl hs).weaken (fun _ h => h.elim) ?_, by simp, by simp⟩
    rintro key ⟨interval, hinterval, -⟩
    exact absurd hinterval List.not_mem_nil
  | cons interval intervals ih =>
    obtain ⟨emitted, rest, mid, hfirst, hrest, rfl⟩ := forEach_cons_eq_ok.mp hloop
    obtain ⟨hrebuilt, hne, hpresent, hlast⟩ :=
      ingestInterval_emits (hmem interval List.mem_cons_self) hs hfirst
    have hown := intervalSeconds_of_ingestInterval hfirst
    obtain ⟨hrebuilt', hothers, hlasts⟩ :=
      ih (fun other hother => hmem other (List.mem_cons_of_mem _ hother)) hrebuilt.shaped rest hrest
    rw [List.flatten_cons]
    refine ⟨(hrebuilt.trans hrebuilt').weaken ?_ ?_, fun snapshot hsnapshot => ?_,
      fun other hother => ?_⟩
    · rintro key (hlater | ⟨other, hother, hlater⟩)
      · exact ⟨interval, List.mem_cons_self, hlater⟩
      · exact ⟨other, List.mem_cons_of_mem _ hother, hlater⟩
    · rintro key ⟨other, hother, hlater⟩ hnot
      obtain ⟨hfirst, hrest⟩ := not_or.mp hnot
      rcases List.mem_cons.mp hother with rfl | hother
      · exact absurd hlater hfirst
      · exact absurd ⟨other, hother, hlater⟩ hrest
    · rcases List.mem_append.mp hsnapshot with hmem | hmem
      · rw [hown snapshot hmem]
        exact List.mem_cons_self
      · exact List.mem_cons_of_mem _ (hothers snapshot hmem)
    · rw [lastOf_append]
      by_cases hlater : other ∈ intervals
      · obtain ⟨hsome, hpresent', heq⟩ := hlasts other hlater
        obtain ⟨last, hlast⟩ := Option.ne_none_iff_exists'.mp hsome
        rw [hlast, Option.some_or]
        exact ⟨Option.some_ne_none _, hpresent', hlast.symm.trans heq⟩
      · -- the interval is the first one, and the others do not touch its windows
        obtain rfl : other = interval := (List.mem_cons.mp hother).resolve_right hlater
        have hnone : lastOf other rest.flatten = none :=
          lastOf_eq_none_iff.mpr fun snapshot hmem heq => hlater (heq ▸ hothers snapshot hmem)
        have hsame : latest t signal.assetId other signal.scopeId =
            latest mid signal.assetId other signal.scopeId := by
          refine latest_congr hrebuilt.shaped hrebuilt'.shaped fun key _ _ hinterval => ?_
          refine hrebuilt'.kept key ?_
          rintro ⟨interval', hmem, -, -, hinterval', -⟩
          exact hlater (hinterval.symm.trans hinterval' ▸ hmem)
        rw [hnone, Option.none_or, lastOf_of_forall hown, hsame, ← hlast]
        exact ⟨fun h => hne (List.getLast?_eq_none_iff.mp h), hrebuilt'.grown _ hpresent, rfl⟩

/-! ## The sweep -/

/-- A window that the sweep of a call closes: it is before the window of the signal, open, and the
watermark has passed its end once the signal is registered. -/
structure Overdue (cfg : EngineConfig) (signal : FeatureSignal) (st : EngineState)
    (key : WindowKey) : Prop where
  scopeId : key.scopeId = signal.scopeId
  assetId : key.assetId = signal.assetId
  early : key.windowStart < floorWindow signal.eventTime key.interval
  isOpen : OpenWindow st key
  passed : Passed cfg (register signal st) key

/-- How the engine stands during the sweep that began in the state `t`, when the windows it has to
close are those of `due`. -/
structure Sweeping (cfg : EngineConfig) (signal : FeatureSignal) (due : WindowKey → Prop)
    (t s : EngineState) : Prop where
  fusion : ∀ scopeId assetId, fusionOf cfg s scopeId assetId = fusionOf cfg t scopeId assetId
  pending : ∀ key : WindowKey, key.scopeId = signal.scopeId → key.assetId = signal.assetId →
    OpenWindow s key → Passed cfg s key → due key
  kept : ∀ key, ¬ due key → s.revisions.get? key = t.revisions.get? key
  present : ∀ key, key ∈ s.revisions.keys ↔ key ∈ t.revisions.keys
  shaped : Shaped cfg s

variable {due : WindowKey → Prop} {u : EngineState}

theorem Sweeping.queried (hs : Sweeping cfg signal due t s)
    (h : Queried cfg signal.scopeId signal.assetId s u) : Sweeping cfg signal due t u where
  fusion scopeId assetId := (fusionOf_eq_of_marked h.toMarked _ _).trans (hs.fusion scopeId assetId)
  pending key hscope hasset hopen hpassed := by
    obtain ⟨last, hlast, hfinal⟩ := hopen
    rw [h.revisionsOf] at hlast
    exact hs.pending key hscope hasset ⟨last, hlast, hfinal⟩
      ((passed_iff_of_marked h.toMarked).mp hpassed)
  kept key hkey := by
    rw [h.revisions]
    exact hs.kept key hkey
  present key := by
    rw [h.revisions]
    exact hs.present key
  shaped := hs.shaped.queried h

/-- The sweep closes a window that is due. -/
theorem Sweeping.built (hs : Sweeping cfg signal due t s) (hdue : due key)
    (hpresent : key ∈ t.revisions.keys) (h : Built cfg key true s snapshot u) :
    Sweeping cfg signal due t u where
  fusion scopeId assetId := (fusionOf_eq_of_marked h.marked _ _).trans (hs.fusion scopeId assetId)
  pending other hscope hasset hopen hpassed := by
    by_cases hkey : other = key
    · exact absurd (hkey ▸ hopen) (not_openWindow_of_forced h)
    · obtain ⟨last, hlast, hfinal⟩ := hopen
      rw [h.revisionsOf_of_ne hkey] at hlast
      exact hs.pending other hscope hasset ⟨last, hlast, hfinal⟩
        ((passed_iff_of_marked h.marked).mp hpassed)
  kept other hother := by
    rw [h.get?_revisions, if_neg fun hkey : other = key => hother (hkey ▸ hdue)]
    exact hs.kept other hother
  present other := by
    rw [h.revisions, OrderedDict.mem_keys_set, hs.present other]
    exact or_iff_left_of_imp fun hkey => hkey ▸ hpresent
  shaped := hs.shaped.built h

theorem yields_finalizeIfEligible {mark : Datetime} (hpresent : key ∈ t.revisions.keys)
    (hmark : fusionOf cfg t signal.scopeId signal.assetId = .ok (some mark)) :
    Yields (Sweeping cfg signal due t)
      (fun snapshots => ∀ snapshot ∈ snapshots, ∃ key, due key ∧ IsRevisionOf key snapshot)
      (finalizeIfEligible cfg signal.scopeId signal.assetId mark key) := by
  have hskip : Yields (Sweeping cfg signal due t)
      (fun snapshots => ∀ snapshot ∈ snapshots, ∃ key, due key ∧ IsRevisionOf key snapshot)
      (pure [] : EngineM (List FeatureSnapshot)) := yields_pure (by simp)
  unfold finalizeIfEligible
  by_cases hkey : key.scopeId ≠ signal.scopeId ∨ key.assetId ≠ signal.assetId
  · rw [if_pos hkey]
    exact hskip
  · rw [if_neg hkey]
    obtain ⟨hscope, hasset⟩ := not_or.mp hkey
    rw [not_not] at hscope hasset
    intro s snapshots s' hs h
    rw [reading_bind] at h
    by_cases hfinal : s.lastIsFinal key = true
    · rw [if_pos hfinal] at h
      exact hskip s snapshots s' hs h
    · rw [if_neg hfinal] at h
      by_cases hend : key.windowEnd ≤ mark
      · rw [if_pos hend] at h
        obtain ⟨snapshot, mid, hbuild, hret⟩ := bind_eq_ok.mp h
        obtain ⟨rfl, rfl⟩ : [snapshot] = snapshots ∧ mid = s' := by simpa using hret
        have hbuilt := buildRevision_ok hbuild
        obtain ⟨last, hlast⟩ := hs.shaped.revised key ((hs.present key).mpr hpresent)
        have hopen : OpenWindow s key := by
          refine ⟨last, hlast, ?_⟩
          rw [EngineState.lastIsFinal, hlast] at hfinal
          exact Bool.eq_false_iff.mpr hfinal
        have hdue : due key := by
          refine hs.pending key hscope hasset hopen ⟨mark, ?_, hend⟩
          rw [hs.fusion, hscope, hasset]
          exact hmark
        refine ⟨hs.built hdue hpresent hbuilt, fun found hfound => ?_⟩
        rw [List.mem_singleton.mp hfound]
        exact ⟨key, hdue, hbuilt.isRevisionOf⟩
      · rw [if_neg hend] at h
        exact hskip s snapshots s' hs h

/-- **The sweep** emits revisions of the windows it has to close. -/
theorem sweep_emits {finalized : List FeatureSnapshot} (hs : Shaped cfg t)
    (hdue : ∀ key : WindowKey, key.scopeId = signal.scopeId → key.assetId = signal.assetId →
      OpenWindow t key → Passed cfg t key → due key)
    (h : finalizeEligible cfg signal.scopeId signal.assetId t = (.ok finalized, u)) :
    Sweeping cfg signal due t u ∧
      ∀ snapshot ∈ finalized, ∃ key, due key ∧ IsRevisionOf key snapshot := by
  have hstart : Sweeping cfg signal due t t :=
    ⟨fun _ _ => rfl, hdue, fun _ _ => rfl, fun _ => Iff.rfl, hs⟩
  have hwatermark : Yields (Sweeping cfg signal due t)
      (fun mark => fusionOf cfg t signal.scopeId signal.assetId = .ok mark)
      (watermark cfg signal.scopeId signal.assetId) := by
    intro s mark s' hs h
    obtain ⟨queried, hqueried, hwm⟩ := watermark_apply cfg signal.scopeId signal.assetId s
    obtain ⟨hmark, rfl⟩ := Prod.mk.inj (hwm.symm.trans h)
    exact ⟨hs.queried hqueried, (hs.fusion _ _).symm.trans hmark⟩
  have hsweep : Yields (Sweeping cfg signal due t)
      (fun snapshots => ∀ snapshot ∈ snapshots, ∃ key, due key ∧ IsRevisionOf key snapshot)
      (finalizeEligible cfg signal.scopeId signal.assetId) := by
    refine yields_bind hwatermark fun mark hmark => ?_
    cases mark with
    | none => exact yields_pure (by simp)
    | some mark =>
      have hkeys : Yields (Sweeping cfg signal due t)
          (fun keys : List WindowKey => ∀ key ∈ keys, key ∈ t.revisions.keys)
          (reading fun st => st.revisions.keys : EngineM (List WindowKey)) :=
        yields_reading fun s hs key hkey => (hs.present key).mp hkey
      refine yields_bind hkeys fun keys hkeys => ?_
      refine (yields_flatForEach fun key hkey =>
        yields_finalizeIfEligible (hkeys key hkey) hmark).weaken fun snapshots hall => ?_
      intro snapshot hsnapshot
      obtain ⟨-, -, found, hfound, hmem⟩ := hall.1 snapshot hsnapshot
      exact hfound snapshot hmem
  exact hsweep t finalized u hstart h

/-! ## Calls -/

/-- **What a call emits.**  For each interval, what is emitted last before the sweep is the latest, and
the sweep emits revisions of the overdue windows, of each of them one. -/
structure Emits (cfg : EngineConfig) (signal : FeatureSignal) (s : EngineState)
    (changed finalized : List FeatureSnapshot) (t : EngineState) : Prop where
  latest : ∀ interval ∈ cfg.intervals, ∃ last, lastOf interval changed = some last ∧
    Features.latest t signal.assetId interval signal.scopeId = some last ∧
      floorWindow signal.eventTime interval ≤ last.windowStart
  swept : ∀ snapshot ∈ finalized, ∃ key, Overdue cfg signal s key ∧ IsRevisionOf key snapshot
  overdue : ∀ key, Overdue cfg signal s key → ∃ snapshot ∈ finalized, IsRevisionOf key snapshot
  others : ∀ scopeId assetId interval, (scopeId ≠ signal.scopeId ∨ assetId ≠ signal.assetId) →
    Features.latest t assetId interval scopeId = Features.latest s assetId interval scopeId

/-- A window that is open and passed before the sweep is not one of the rebuilt ones. -/
theorem overdue_of_rebuilt (hs : Shaped cfg s)
    (hrebuilt : Rebuilt cfg (LaterIn signal cfg.intervals) (register signal s) t)
    (hscope : key.scopeId = signal.scopeId) (hasset : key.assetId = signal.assetId)
    (hopen : OpenWindow t key) (hpassed : Passed cfg t key) : Overdue cfg signal s key := by
  have hnot : ¬ LaterIn signal cfg.intervals key := fun hlater =>
    hrebuilt.inTime key hlater hopen hpassed
  have hrevisions : t.revisionsOf key = s.revisionsOf key :=
    revisionsOf_congr (hrebuilt.kept key hnot)
  obtain ⟨last, hlast, hfinal⟩ := hopen
  rw [hrevisions] at hlast
  obtain ⟨mark, hmark, hend⟩ := hpassed
  rw [hrebuilt.fusion] at hmark
  have hinterval := hs.interval key (mem_keys_of_getLast? hlast)
  refine ⟨hscope, hasset, ?_, ⟨last, hlast, hfinal⟩, ⟨mark, hmark, hend⟩⟩
  by_contra hlate
  exact hnot ⟨key.interval, hinterval, hscope, hasset, rfl, not_lt.mp hlate⟩

theorem ingest_emits {snapshots : List FeatureSnapshot} (hs : Shaped cfg s)
    (hnew : signal.seenKey ∉ s.seenEventIds) (h : ingest cfg signal s = (.ok snapshots, t)) :
    ∃ changed finalized, snapshots = changed ++ finalized ∧ Emits cfg signal s changed finalized t := by
  have hswept := swept_of_ingest hnew h
  have hsteps : Marked cfg signal.scopeId signal.assetId (register signal s)
      (ingest cfg signal s).2 := (ingest_steps hnew).marked
  rw [h] at hsteps
  rw [ingest_of_new hnew] at h
  obtain ⟨changed, mid, hchanged, hrest⟩ := bind_eq_ok.mp h
  obtain ⟨finalized, u, hfinal, hret⟩ := bind_eq_ok.mp hrest
  obtain ⟨rfl, rfl⟩ : changed ++ finalized = snapshots ∧ u = t := by simpa using hret
  have hregistered : Shaped cfg (register signal s) :=
    ⟨hs.stored, hs.interval, hs.revised, hs.named⟩
  obtain ⟨hrebuilt, -, hlasts⟩ := changed_emits (fun _ hmem => hmem) hregistered hchanged
  obtain ⟨hsweeping, hfinalized⟩ := sweep_emits hrebuilt.shaped
    (fun key hscope hasset => overdue_of_rebuilt hs hrebuilt hscope hasset) hfinal
  refine ⟨changed, finalized, rfl, fun interval hinterval => ?_, hfinalized, fun key hkey => ?_,
    fun scopeId assetId interval hother => ?_⟩
  · obtain ⟨hsome, hpresent, hlatest⟩ := hlasts interval hinterval
    obtain ⟨last, hlast⟩ := Option.ne_none_iff_exists'.mp hsome
    obtain ⟨key, hgreatest, hscope, hasset, hkeyInterval, hrevision⟩ :=
      (latest_eq_some_iff hrebuilt.shaped).mp (hlatest.symm.trans hlast)
    have hstart : floorWindow signal.eventTime interval ≤ key.windowStart :=
      hgreatest.le _ hpresent hscope.symm hasset.symm hkeyInterval.symm
    have hkept : ¬ Overdue cfg signal s key := fun hoverdue =>
      absurd hoverdue.early (not_lt.mpr (hkeyInterval ▸ hstart))
    refine ⟨last, hlast, (latest_eq_some_iff hsweeping.shaped).mpr ⟨key, ⟨?_, fun other ho => ?_⟩,
      hscope, hasset, hkeyInterval, ?_⟩, ?_⟩
    · exact (hsweeping.present key).mpr hgreatest.mem
    · exact hgreatest.le other ((hsweeping.present other).mp ho)
    · rw [revisionsOf_congr (hsweeping.kept key hkept)]
      exact hrevision
    · rw [(IsRevisionOf.of_getLast? hrebuilt.shaped hrevision).windowStart]
      exact hstart
  · have hnot : ¬ LaterIn signal cfg.intervals key := by
      rintro ⟨interval, -, -, -, hinterval, hle⟩
      exact absurd hkey.early (not_lt.mpr (hinterval ▸ hle))
    have hadded : u.revisionsOf key = s.revisionsOf key ++ finalized.filter (namesWindow key) := by
      have hgrown : u.revisionsOf key = mid.revisionsOf key ++ finalized.filter (namesWindow key) :=
        appends_finalizeEligible key _ _ mid finalized u hfinal
      rw [hgrown, revisionsOf_congr (hrebuilt.kept key hnot)]
      rfl
    have hpassed : Passed cfg u key := (passed_iff_of_marked hsteps).mpr hkey.passed
    have hclosed : ¬ OpenWindow u key := fun hopen =>
      hswept key hkey.scopeId hkey.assetId hopen hpassed
    have hne : finalized.filter (namesWindow key) ≠ [] := by
      intro hnil
      rw [hnil, List.append_nil] at hadded
      obtain ⟨last, hlast, hfinal⟩ := hkey.isOpen
      exact hclosed ⟨last, hadded ▸ hlast, hfinal⟩
    obtain ⟨snapshot, hmem⟩ := List.exists_mem_of_ne_nil _ hne
    obtain ⟨hsnapshot, hnames⟩ := List.mem_filter.mp hmem
    obtain ⟨key', -, hrevision⟩ := hfinalized snapshot hsnapshot
    have hsame : key' = key := congrArg Uuid.name
      (hrevision.featureWindowId.symm.trans (of_decide_eq_true hnames))
    exact ⟨snapshot, hsnapshot, hsame ▸ hrevision⟩
  · refine latest_congr hs hsweeping.shaped fun key hscope hasset _ => ?_
    have hfar : ¬ (key.scopeId = signal.scopeId ∧ key.assetId = signal.assetId) := by
      rintro ⟨hs', ha'⟩
      rcases hother with hne | hne
      · exact hne (hscope.symm.trans hs')
      · exact hne (hasset.symm.trans ha')
    rw [hsweeping.kept key fun hdue => hfar ⟨hdue.scopeId, hdue.assetId⟩,
      hrebuilt.kept key fun ⟨_, _, hs', ha', _⟩ => hfar ⟨hs', ha'⟩]
    rfl

end Features
end Scam2Market
