import Scam2Market.Features.Finalisation
import Scam2Market.Features.Isolation

/-!
# The history of a window

* `ingest_appends`: what a call returns are the revisions that it adds to the windows, in order.
* `IsRevisionOf`: a revision names its window.
* `historyOf`: the revisions of a window after a run of a log.  It grows with the log
  (`isPrefix_historyOf`), and depends on the signals of the scope and asset alone
  (`historyOf_filter`).
-/

namespace Scam2Market
namespace Features

open Library
open Library.Procedure

variable {cfg : EngineConfig} {signal : FeatureSignal}

/-! ## What a call adds -/

/-- Whether a snapshot is a revision of a window. -/
def namesWindow (key : WindowKey) (snapshot : FeatureSnapshot) : Bool :=
  snapshot.featureWindowId = ⟨key⟩

theorem Built.namesWindow {key key' : WindowKey} {forceFinal : Bool} {s s' : EngineState}
    {snapshot : FeatureSnapshot} (h : Built cfg key forceFinal s snapshot s') :
    Features.namesWindow key' snapshot = decide (key = key') := by
  obtain ⟨events, mark, t, -, -, -, hmake, -⟩ := h.steps
  obtain ⟨features, -, hfields⟩ := makeSnapshot_eq_ok hmake
  unfold Features.namesWindow
  rw [hfields, decide_eq_decide]
  exact ⟨fun h => congrArg Uuid.name h, fun h => congrArg Uuid.mk h⟩

/-- A build adds what it returns. -/
theorem revisionsOf_buildRevision {key key' : WindowKey} {forceFinal : Bool} {s s' : EngineState}
    {snapshot : FeatureSnapshot} (h : buildRevision cfg key forceFinal s = (.ok snapshot, s')) :
    s'.revisionsOf key' = s.revisionsOf key' ++ [snapshot].filter (namesWindow key') := by
  have hbuilt := buildRevision_ok h
  by_cases hkey : key = key'
  · subst hkey
    rw [List.filter_singleton, hbuilt.namesWindow, decide_eq_true rfl, hbuilt.revisionsOf_self]
    rfl
  · rw [List.filter_singleton, hbuilt.namesWindow, decide_eq_false hkey,
      hbuilt.revisionsOf_of_ne (Ne.symm hkey)]
    exact (List.append_nil _).symm

theorem appends_ingestInterval (key : WindowKey) (interval : ℕ) :
    Appends (EngineState.revisionsOf · key) (namesWindow key)
      (ingestInterval cfg signal interval) := by
  refine appends_modify_bind (fun _ => rfl) ?_
  intro s snapshots s' h
  obtain ⟨own, t, hown, hrest⟩ := bind_eq_ok.mp h
  rw [reading_bind] at hrest
  obtain ⟨rebuilt, t', hrebuilt, hret⟩ := bind_eq_ok.mp hrest
  obtain ⟨rfl, rfl⟩ : own :: rebuilt = snapshots ∧ t' = s' := by simpa using hret
  have hloop : Appends (EngineState.revisionsOf · key) (namesWindow key)
      (forEach (rebuildDownstream cfg) (downstreamKeys t (signal.windowKey interval))) :=
    appends_forEach fun key' _ _ _ _ hbuild => by
      rw [rebuildDownstream_apply] at hbuild
      exact revisionsOf_buildRevision hbuild
  have hgrown : t'.revisionsOf key = t.revisionsOf key ++ rebuilt.filter (namesWindow key) :=
    hloop t rebuilt t' hrebuilt
  show t'.revisionsOf key = s.revisionsOf key ++ _
  rw [hgrown, revisionsOf_buildRevision hown, List.append_assoc, ← List.filter_append]
  rfl

theorem appends_finalizeIfEligible (key : WindowKey) (scopeId assetId : String) (mark : Datetime)
    (candidate : WindowKey) :
    Appends (EngineState.revisionsOf · key) (namesWindow key)
      (finalizeIfEligible cfg scopeId assetId mark candidate) := by
  unfold finalizeIfEligible
  split_ifs
  · exact appends_nil
  · refine appends_reading_bind fun isFinal => ?_
    split_ifs
    · exact appends_nil
    · intro s snapshots s' h
      obtain ⟨snapshot, t, hbuild, hret⟩ := bind_eq_ok.mp h
      obtain ⟨rfl, rfl⟩ : [snapshot] = snapshots ∧ t = s' := by simpa using hret
      exact revisionsOf_buildRevision hbuild
  · refine appends_reading_bind fun isFinal => ?_
    split_ifs
    · exact appends_nil
    · exact appends_nil

theorem appends_finalizeEligible (key : WindowKey) (scopeId assetId : String) :
    Appends (EngineState.revisionsOf · key) (namesWindow key)
      (finalizeEligible cfg scopeId assetId) := by
  refine appends_bind (fun s mark s' h => ?_) fun mark => ?_
  · obtain ⟨t, ht, hwm⟩ := watermark_apply cfg scopeId assetId s
    obtain rfl : t = s' := congrArg Prod.snd (hwm.symm.trans h)
    exact ht.revisionsOf key
  · cases mark with
    | none => exact appends_nil
    | some mark =>
      exact appends_reading_bind fun keys => appends_flatForEach fun candidate _ =>
        appends_finalizeIfEligible key scopeId assetId mark candidate

/-- **A call returns what it adds to the windows**, in the order of the revisions. -/
theorem ingest_appends (cfg : EngineConfig) (signal : FeatureSignal) (key : WindowKey) :
    Appends (EngineState.revisionsOf · key) (namesWindow key) (ingest cfg signal) := by
  refine appends_reading_bind fun seen => ?_
  split_ifs
  · exact appends_nil
  · exact appends_modify_bind (fun _ => rfl) (appends_append
      (appends_flatForEach fun interval _ => appends_ingestInterval key interval)
      (appends_finalizeEligible key signal.scopeId signal.assetId))

/-! ## Revisions name their window -/

structure IsRevisionOf (key : WindowKey) (snapshot : FeatureSnapshot) : Prop where
  featureWindowId : snapshot.featureWindowId = ⟨key⟩
  scopeId : snapshot.scopeId = key.scopeId
  assetId : snapshot.assetId = key.assetId
  windowStart : snapshot.windowStart = key.windowStart
  intervalSeconds : snapshot.intervalSeconds = key.interval

theorem Built.isRevisionOf {key : WindowKey} {forceFinal : Bool} {s s' : EngineState}
    {snapshot : FeatureSnapshot} (h : Built cfg key forceFinal s snapshot s') :
    IsRevisionOf key snapshot := by
  obtain ⟨events, mark, t, -, -, -, hmake, -⟩ := h.steps
  obtain ⟨features, -, hfields⟩ := makeSnapshot_eq_ok hmake
  constructor <;> rw [hfields] <;> rfl

/-- In every state of every run. -/
theorem isRevisionOf_run (cfg : EngineConfig) (run : List FeatureSignal) (key : WindowKey) :
    ∀ snapshot ∈ (runAll (ingest cfg) run .initial).2.revisionsOf key, IsRevisionOf key snapshot := by
  refine runAll_invariant (P := fun s : EngineState =>
    ∀ key, ∀ snapshot ∈ s.revisionsOf key, IsRevisionOf key snapshot)
    (fun key snapshot h => (List.not_mem_nil h).elim) (fun signal _ s hs => ?_) key
  refine ingest_invariant (P := fun s : EngineState =>
    ∀ key, ∀ snapshot ∈ s.revisionsOf key, IsRevisionOf key snapshot) signal (fun _ _ h => h)
    (fun s t hstep hs key snapshot hmem => ?_) hs
  cases hstep with
  | query h =>
    rw [h.revisionsOf] at hmem
    exact hs key snapshot hmem
  | event interval => exact hs key snapshot hmem
  | build key' forceFinal added _ _ _ h =>
    rw [revisionsOf_buildRevision h, List.mem_append, List.mem_filter] at hmem
    rcases hmem with hold | ⟨hnew, hnames⟩
    · exact hs key snapshot hold
    · obtain rfl := List.mem_singleton.mp hnew
      obtain rfl : key' = key := by
        rw [(buildRevision_ok h).namesWindow] at hnames
        exact of_decide_eq_true hnames
      exact (buildRevision_ok h).isRevisionOf

/-! ## Histories -/

variable {log log' : List FeatureSignal} {key : WindowKey} {snapshot snapshot' : FeatureSnapshot}

/-- The revisions of a window when the signals of a log have been ingested. -/
def historyOf (cfg : EngineConfig) (log : List FeatureSignal) (key : WindowKey) :
    List FeatureSnapshot :=
  (runAll (ingest cfg) log .initial).2.revisionsOf key

/-- A longer log has a longer history. -/
theorem isPrefix_historyOf (cfg : EngineConfig) (h : log <+: log') (key : WindowKey) :
    historyOf cfg log key <+: historyOf cfg log' key := by
  obtain ⟨added, rfl⟩ := h
  unfold historyOf
  rw [runAll_append]
  exact runAll_invariant (P := fun s : EngineState =>
    (runAll (ingest cfg) log .initial).2.revisionsOf key <+: s.revisionsOf key) (List.prefix_refl _)
    fun signal _ s hs => hs.trans (isPrefix_revisionsOf_ingest cfg signal s key)

/-- **The history of a window is that of the signals of its scope and asset.** -/
theorem historyOf_filter (cfg : EngineConfig) (hids : (log.map FeatureSignal.seenKey).Nodup)
    (key : WindowKey) :
    historyOf cfg (log.filter fun signal =>
      signal.scopeId = key.scopeId ∧ signal.assetId = key.assetId) key = historyOf cfg log key := by
  let P : String → String → Bool := fun scopeId assetId =>
    decide (scopeId = key.scopeId ∧ assetId = key.assetId)
  have hrespect : IdsRespect P log := fun a ha b hb hkey => by
    rw [List.inj_on_of_nodup_map hids ha hb hkey]
  exact ((runAll_ingest_sameView cfg hrespect).2.revisionsOf (decide_eq_true ⟨rfl, rfl⟩)).symm

theorem isRevisionOf_of_mem (h : snapshot ∈ historyOf cfg log key) : IsRevisionOf key snapshot :=
  isRevisionOf_run cfg log key snapshot h

/-- A revision stands at its number. -/
theorem getElem?_historyOf (h : snapshot ∈ historyOf cfg log key) :
    1 ≤ snapshot.revision ∧ (historyOf cfg log key)[snapshot.revision - 1]? = some snapshot := by
  obtain ⟨n, hn⟩ := List.mem_iff_getElem?.mp h
  have hnumber := (revisionsLawful_run cfg log key).numbered n snapshot hn
  refine ⟨by omega, ?_⟩
  rw [hnumber, Nat.add_sub_cancel]
  exact hn

/-- The number of a revision tells which one it is. -/
theorem eq_of_revision_eq (h : snapshot ∈ historyOf cfg log key)
    (h' : snapshot' ∈ historyOf cfg log key) (hrevision : snapshot.revision = snapshot'.revision) :
    snapshot = snapshot' := by
  have hat := (getElem?_historyOf h).2
  rw [hrevision, (getElem?_historyOf h').2] at hat
  exact (Option.some.inj hat).symm

theorem revision_le_length (h : snapshot ∈ historyOf cfg log key) :
    snapshot.revision ≤ (historyOf cfg log key).length := by
  obtain ⟨hpos, hat⟩ := getElem?_historyOf h
  have hlt := (List.getElem?_eq_some_iff.mp hat).1
  omega

end Features
end Scam2Market
