import Scam2Market.Features.Isolation
import Scam2Market.Features.Totality

/-!
# Finalisation

What the revisions of a window look like in every state of every run, and when a window becomes
final.

* `RevisionsLawful`: the revisions are numbered without gap, their states are provisional ones
  followed by nothing or by a final one and corrections, and a correction supersedes the revision
  before it.  `revisionsLawful_concat` is the one step.
* `isPrefix_revisionsOf_ingest`: revisions are only ever appended.
* `passed_of_final`: a build gives a final revision only when the fusion watermark has passed the
  end of the window, and then every required domain has been observed and is not degraded
  (`observed_of_passed`).
* `Swept`: no window whose end the watermark has passed is left open.  The sweep at the end of a
  call establishes it (`swept_of_finalizeEligible`).
-/

namespace Scam2Market
namespace Features

open Library
open Library.Procedure

variable {cfg : EngineConfig}

/-! ## The revisions of a window -/

/-- Provisional revisions, then nothing, or a final one and corrections. -/
def IsRevisionWord (states : List RevisionState) : Prop :=
  ∃ k, states = List.replicate k .provisional ∨
    ∃ m, states = List.replicate k .provisional ++ .final :: List.replicate m .corrected

/-- What holds of the revisions of a window. -/
structure RevisionsLawful (revisions : List FeatureSnapshot) : Prop where
  numbered : ∀ n snapshot, revisions[n]? = some snapshot → snapshot.revision = n + 1
  word : IsRevisionWord (revisions.map fun snapshot => snapshot.revisionState)
  supersedes : ∀ snapshot ∈ revisions, snapshot.supersedesRevision =
    if snapshot.revisionState = .corrected then some (snapshot.revision - 1) else none
  isFinal : ∀ snapshot ∈ revisions, snapshot.isFinal = true ↔
    snapshot.revisionState = .final ∨ snapshot.revisionState = .corrected

theorem isFinal_iff (snapshot : FeatureSnapshot) : snapshot.isFinal = true ↔
    snapshot.revisionState = .final ∨ snapshot.revisionState = .corrected := by
  rw [snapshot.isFinal_eq, decide_eq_true_iff]
  cases snapshot.revisionState <;> simp

theorem revisionsLawful_nil : RevisionsLawful [] where
  numbered := fun _ _ h => absurd h (by simp)
  word := ⟨0, Or.inl rfl⟩
  supersedes := fun _ h => absurd h List.not_mem_nil
  isFinal := fun _ h => absurd h List.not_mem_nil

/-- The last revision of a lawful list carries the number of revisions. -/
theorem RevisionsLawful.revision_getLast {revisions : List FeatureSnapshot}
    (h : RevisionsLawful revisions) {last : FeatureSnapshot} (hlast : revisions.getLast? = some last) :
    last.revision = revisions.length := by
  have hne : revisions ≠ [] := by
    rintro rfl
    exact absurd hlast (by simp)
  have hlen : 0 < revisions.length := List.length_pos_of_ne_nil hne
  rw [List.getLast?_eq_getElem?] at hlast
  have hnum := h.numbered _ last hlast
  omega

theorem nextState_of_closed {prior : List FeatureSnapshot} {last : FeatureSnapshot}
    (shouldFinalize : Bool) (hlast : prior.getLast? = some last)
    (hclosed : last.revisionState = .final ∨ last.revisionState = .corrected) :
    nextState prior shouldFinalize = (.corrected, some last.revision) := by
  rw [nextState, hlast]
  exact if_pos hclosed

theorem nextState_of_open {prior : List FeatureSnapshot} (shouldFinalize : Bool)
    (hopen : ∀ last, prior.getLast? = some last → last.revisionState = .provisional) :
    nextState prior shouldFinalize = (if shouldFinalize then .final else .provisional, none) := by
  unfold nextState
  rcases hlast : prior.getLast? with _ | last
  · cases shouldFinalize with
    | true => rfl
    | false => rfl
  · have hprov := hopen last hlast
    simp only [hprov]
    cases shouldFinalize with
    | true => simp
    | false => simp

/-- A window is open or closed by its last revision. -/
theorem open_or_closed (prior : List FeatureSnapshot) :
    (∀ last, prior.getLast? = some last → last.revisionState = .provisional) ∨
      ∃ last, prior.getLast? = some last ∧
        (last.revisionState = .final ∨ last.revisionState = .corrected) := by
  rcases hlast : prior.getLast? with _ | last
  · exact Or.inl fun last h => absurd h (by simp)
  · rcases hstate : last.revisionState with _ | _ | _
    · refine Or.inl fun other h => ?_
      rw [← Option.some.inj h]
      exact hstate
    · exact Or.inr ⟨last, rfl, Or.inl hstate⟩
    · exact Or.inr ⟨last, rfl, Or.inr hstate⟩

/-- The states of a lawful list go on as `nextState` says. -/
theorem isRevisionWord_concat {revisions : List FeatureSnapshot} (shouldFinalize : Bool)
    (h : IsRevisionWord (revisions.map fun snapshot => snapshot.revisionState)) :
    IsRevisionWord ((revisions.map fun snapshot => snapshot.revisionState) ++
      [(nextState revisions shouldFinalize).1]) := by
  have hlastState : ∀ last, revisions.getLast? = some last →
      (revisions.map fun snapshot => snapshot.revisionState).getLast? = some last.revisionState :=
    fun last hlast => by rw [List.getLast?_map, hlast, Option.map_some]
  obtain ⟨k, hk | ⟨m, hm⟩⟩ := h
  · -- only provisional revisions, so the window is open
    have hopen : ∀ last, revisions.getLast? = some last → last.revisionState = .provisional := by
      intro last hlast
      have hstate := hlastState last hlast
      rw [hk] at hstate
      exact List.eq_of_mem_replicate (List.mem_of_getLast? hstate)
    rw [nextState_of_open shouldFinalize hopen, hk]
    cases shouldFinalize with
    | true => exact ⟨k, Or.inr ⟨0, rfl⟩⟩
    | false => exact ⟨k + 1, Or.inl List.replicate_succ'.symm⟩
  · -- the last state is the final one or a correction, so the window is closed
    have hclosed : ∃ last, revisions.getLast? = some last ∧
        (last.revisionState = .final ∨ last.revisionState = .corrected) := by
      rcases open_or_closed revisions with hopen | hclosed
      · exfalso
        have hne : revisions ≠ [] := by
          rintro rfl
          exact absurd hm (by simp)
        have hlast := List.getLast?_eq_some_getLast hne
        have hstate := hlastState _ hlast
        rw [hopen _ hlast, hm, List.getLast?_append_of_ne_nil _ (List.cons_ne_nil _ _)] at hstate
        rcases List.mem_cons.mp (List.mem_of_getLast? hstate) with h | h
        · exact absurd h (by simp)
        · exact absurd (List.eq_of_mem_replicate h) (by simp)
      · exact hclosed
    obtain ⟨last, hlast, hstate⟩ := hclosed
    rw [nextState_of_closed shouldFinalize hlast hstate, hm, List.append_assoc, List.cons_append,
      ← List.replicate_succ']
    exact ⟨k, Or.inr ⟨m + 1, rfl⟩⟩

/-- **The step.**  A revision made of a lawful list extends it lawfully. -/
theorem revisionsLawful_concat {key : WindowKey} {signals : List FeatureSignal}
    {prior : List FeatureSnapshot} {shouldFinalize : Bool} {features : FeatureValues}
    {snapshot : FeatureSnapshot} (h : RevisionsLawful prior)
    (hfields : snapshot.toSnapshotFields =
      snapshotFields cfg key signals prior shouldFinalize features) :
    RevisionsLawful (prior ++ [snapshot]) := by
  have hrev : snapshot.revision = prior.length + 1 := by rw [hfields]; rfl
  have hstate : snapshot.revisionState = (nextState prior shouldFinalize).1 := by rw [hfields]; rfl
  have hsup : snapshot.supersedesRevision = (nextState prior shouldFinalize).2 := by
    rw [hfields]; rfl
  refine ⟨fun n other hn => ?_, ?_, fun other hmem => ?_, fun other _ => isFinal_iff other⟩
  · rcases lt_trichotomy n prior.length with hlt | heq | hgt
    · rw [List.getElem?_append_left hlt] at hn
      exact h.numbered n other hn
    · subst heq
      rw [List.getElem?_concat_length] at hn
      rw [← Option.some.inj hn]
      exact hrev
    · rw [List.getElem?_eq_none (by rw [List.length_append, List.length_singleton]; omega)] at hn
      exact absurd hn (by simp)
  · rw [List.map_append, List.map_singleton, hstate]
    exact isRevisionWord_concat shouldFinalize h.word
  · rcases List.mem_append.mp hmem with hold | hnew
    · exact h.supersedes other hold
    · rw [List.mem_singleton.mp hnew, hstate, hsup, hrev]
      rcases open_or_closed prior with hopen | ⟨last, hlast, hclosed⟩
      · rw [nextState_of_open shouldFinalize hopen]
        cases shouldFinalize with
        | true => simp
        | false => simp
      · rw [nextState_of_closed shouldFinalize hlast hclosed, h.revision_getLast hlast]
        rw [if_pos rfl, Nat.add_sub_cancel]

/-- The revision of a build is made of the revisions before it. -/
theorem Built.fields {key : WindowKey} {forceFinal : Bool} {s s' : EngineState}
    {snapshot : FeatureSnapshot} (h : Built cfg key forceFinal s snapshot s') :
    ∃ signals mark features, fusionOf cfg s key.scopeId key.assetId = .ok mark ∧
      snapshot.toSnapshotFields = snapshotFields cfg key signals (s.revisionsOf key)
        (forceFinal || hasPassed mark key.windowEnd) features := by
  obtain ⟨events, mark, t, -, hmark, -, hmake, -⟩ := h
  obtain ⟨features, -, hfields⟩ := makeSnapshot_eq_ok hmake
  exact ⟨sortSignals events, mark, features, hmark, hfields⟩

theorem revisionsLawful_step {signal : FeatureSignal} {s t : EngineState}
    (h : EngineStep cfg signal s t) (hs : ∀ key, RevisionsLawful (s.revisionsOf key)) :
    ∀ key, RevisionsLawful (t.revisionsOf key) := by
  intro key
  cases h with
  | query h =>
    rw [h.revisionsOf]
    exact hs key
  | event interval => exact hs key
  | build key' forceFinal snapshot hscope hasset hforce h =>
    have hb := buildRevision_ok h
    by_cases hkey : key = key'
    · subst hkey
      obtain ⟨signals, mark, features, -, hfields⟩ := hb.fields
      rw [hb.revisionsOf_self]
      exact revisionsLawful_concat (hs key) hfields
    · rw [hb.revisionsOf_of_ne hkey]
      exact hs key

/-- In every state of every run the revisions of every window are lawful. -/
theorem revisionsLawful_run (cfg : EngineConfig) (run : List FeatureSignal) (key : WindowKey) :
    RevisionsLawful ((runAll (ingest cfg) run .initial).2.revisionsOf key) := by
  have hinitial : ∀ key, RevisionsLawful (EngineState.initial.revisionsOf key) := fun _ =>
    revisionsLawful_nil
  refine runAll_invariant (P := fun s : EngineState => ∀ key, RevisionsLawful (s.revisionsOf key))
    hinitial (fun signal _ s hs => ?_) key
  exact ingest_invariant (P := fun s : EngineState => ∀ key, RevisionsLawful (s.revisionsOf key)) signal
    (fun _ _ h => h) (fun _ _ hstep => revisionsLawful_step hstep) hs

/-! ## Appending only -/

theorem isPrefix_step {signal : FeatureSignal} {s t : EngineState} (h : EngineStep cfg signal s t)
    (key : WindowKey) : s.revisionsOf key <+: t.revisionsOf key := by
  cases h with
  | query h => rw [h.revisionsOf]
  | event interval => exact List.prefix_refl _
  | build key' forceFinal snapshot hscope hasset hforce h =>
    have hb := buildRevision_ok h
    by_cases hkey : key = key'
    · subst hkey
      rw [hb.revisionsOf_self]
      exact List.prefix_append _ _
    · rw [hb.revisionsOf_of_ne hkey]

/-- **Revisions are only ever appended**, whatever the outcome of the call. -/
theorem isPrefix_revisionsOf_ingest (cfg : EngineConfig) (signal : FeatureSignal) (s : EngineState)
    (key : WindowKey) : s.revisionsOf key <+: (ingest cfg signal s).2.revisionsOf key :=
  ingest_invariant (P := fun t : EngineState => s.revisionsOf key <+: t.revisionsOf key) signal
    (fun _ _ h => h) (fun _ _ hstep h => h.trans (isPrefix_step hstep key)) (List.prefix_refl _)

/-! ## The build that made a window final -/

/-- Every new revision was appended by a build among the steps. -/
theorem exists_build {signal : FeatureSignal} {s t : EngineState} (h : EngineSteps cfg signal s t)
    {key : WindowKey} {n : ℕ} {snapshot : FeatureSnapshot}
    (hn : (t.revisionsOf key)[n]? = some snapshot) (hnew : (s.revisionsOf key).length ≤ n) :
    ∃ s₀ s₁ forceFinal, EngineSteps cfg signal s s₀ ∧ (s₀.revisionsOf key).length = n ∧
      (forceFinal = true → s₀.lastIsFinal key = true ∨ Passed cfg s₀ key) ∧
      buildRevision cfg key forceFinal s₀ = (.ok snapshot, s₁) ∧ EngineSteps cfg signal s₁ t := by
  induction h with
  | refl =>
    rw [List.getElem?_eq_none hnew] at hn
    exact absurd hn (by simp)
  | @tail t u hst hlast ih =>
    by_cases hold : n < (t.revisionsOf key).length
    · -- the revision was there before the last step
      have hsame : (u.revisionsOf key)[n]? = (t.revisionsOf key)[n]? := by
        obtain ⟨added, hadded⟩ := isPrefix_step hlast key
        rw [← hadded, List.getElem?_append_left hold]
      obtain ⟨s₀, s₁, forceFinal, h₀, hlen, hforce, hbuild, h₁⟩ := ih (hsame ▸ hn)
      exact ⟨s₀, s₁, forceFinal, h₀, hlen, hforce, hbuild, h₁.tail hlast⟩
    · -- the last step is the build
      cases hlast with
      | query h =>
        rw [h.revisionsOf, List.getElem?_eq_none (not_lt.mp hold)] at hn
        exact absurd hn (by simp)
      | event interval =>
        change (t.revisionsOf key)[n]? = some snapshot at hn
        rw [List.getElem?_eq_none (not_lt.mp hold)] at hn
        exact absurd hn (by simp)
      | build key' forceFinal snapshot' hscope hasset hforce h =>
        have hb := buildRevision_ok h
        by_cases hkey : key = key'
        · subst hkey
          rw [hb.revisionsOf_self] at hn
          have hlt : n < (t.revisionsOf key ++ [snapshot']).length := by
            by_contra hge
            rw [List.getElem?_eq_none (not_lt.mp hge)] at hn
            exact absurd hn (by simp)
          rw [List.length_append, List.length_singleton] at hlt
          have hlen : (t.revisionsOf key).length = n := by omega
          rw [← hlen, List.getElem?_concat_length] at hn
          obtain rfl := Option.some.inj hn
          exact ⟨t, u, forceFinal, hst, hlen, hforce, h, .refl⟩
        · rw [hb.revisionsOf_of_ne hkey, List.getElem?_eq_none (not_lt.mp hold)] at hn
          exact absurd hn (by simp)

/-- A build gives a final revision only when the watermark has passed the end of the window. -/
theorem passed_of_final {key : WindowKey} {forceFinal : Bool} {s s' : EngineState}
    {snapshot : FeatureSnapshot} (hb : Built cfg key forceFinal s snapshot s')
    (hforce : forceFinal = true → s.lastIsFinal key = true ∨ Passed cfg s key)
    (hfinal : snapshot.revisionState = .final) : Passed cfg s key := by
  obtain ⟨signals, mark, features, hmark, hfields⟩ := hb.fields
  have hstate : (nextState (s.revisionsOf key) (forceFinal || hasPassed mark key.windowEnd)).1 =
      .final := by
    rw [← hfinal, hfields]
    rfl
  rcases open_or_closed (s.revisionsOf key) with hopen | ⟨last, hlast, hclosed⟩
  · rw [nextState_of_open _ hopen] at hstate
    rcases hcond : forceFinal || hasPassed mark key.windowEnd with _ | _
    · rw [hcond] at hstate
      exact absurd hstate (by simp)
    · rcases (Bool.or_eq_true _ _).mp hcond with htrue | hpassed
      · rcases hforce htrue with hlastFinal | hpassed
        · -- an open window is not final
          exfalso
          unfold EngineState.lastIsFinal at hlastFinal
          rcases hlast : (s.revisionsOf key).getLast? with _ | last
          · rw [hlast] at hlastFinal
            exact absurd hlastFinal (by simp)
          · rw [hlast] at hlastFinal
            rcases (isFinal_iff last).mp hlastFinal with h | h
            · exact absurd (h.symm.trans (hopen last hlast)) (by simp)
            · exact absurd (h.symm.trans (hopen last hlast)) (by simp)
        · exact hpassed
      · cases mark with
        | none => exact absurd hpassed (by simp [hasPassed])
        | some value => exact ⟨value, hmark, of_decide_eq_true hpassed⟩
  · rw [nextState_of_closed _ hlast hclosed] at hstate
    exact absurd hstate (by simp)

/-- A source with flags has been observed. -/
def SourcesObserved (st : EngineState) : Prop :=
  ∀ key state, st.sourceStates.get? key = some state → ∃ time, st.maxEventTime.get? key = some time

theorem sourcesObserved_of_marked {scopeId assetId : String} {s t : EngineState}
    (h : Marked cfg scopeId assetId s t) (hs : SourcesObserved s) : SourcesObserved t := by
  intro key state hstate
  rw [h.maxEventTime]
  rcases h.sources key with heq | ⟨state', -, -, hstate', -, -⟩
  · exact hs key state (heq ▸ hstate)
  · exact hs key state' hstate'

theorem sourcesObserved_register {signal : FeatureSignal} {s : EngineState}
    (hs : SourcesObserved s) : SourcesObserved (register signal s) := by
  intro key state hstate
  by_cases hkey : key = signal.sourceKey
  · rw [hkey]
    exact ⟨_, OrderedDict.get?_set_self _ _ _⟩
  · have hold : s.sourceStates.get? key = some state := by
      rw [← hstate]
      exact (OrderedDict.get?_set_of_ne _ _ hkey).symm
    obtain ⟨time, htime⟩ := hs key state hold
    exact ⟨time, by rw [← htime]; exact OrderedDict.get?_set_of_ne _ _ hkey⟩

theorem sourcesObserved_run (cfg : EngineConfig) (run : List FeatureSignal) :
    SourcesObserved (runAll (ingest cfg) run .initial).2 := by
  refine runAll_invariant (fun key state h => absurd h (by simp [EngineState.initial]))
    fun signal _ s hs => ?_
  exact ingest_invariant signal (fun _ _ h => sourcesObserved_register h)
    (fun _ _ hstep h => sourcesObserved_of_marked hstep.marked h) hs

/-- There is a fusion watermark only when every required domain has one. -/
theorem domainMark_of_fusionOf {st : EngineState} {scopeId assetId : String} {mark : Datetime}
    (h : fusionOf cfg st scopeId assetId = .ok (some mark)) :
    ∀ domain ∈ cfg.requiredDomains, ∃ value, domainMark cfg st scopeId assetId domain = some value := by
  intro domain hdomain
  unfold fusionOf fusionWatermark at h
  simp only at h
  by_cases hlen : (List.filterMap Prod.snd (OrderedDict.ofEntries (cfg.requiredDomains.map
      fun d => (d, domainMark cfg st scopeId assetId d))).entries).length =
        cfg.requiredDomains.length
  swap
  · rw [if_neg hlen] at h
    exact absurd h (by simp)
  -- as many watermarks as required domains, so no item of the table is missing or empty
  let table : OrderedDict SourceDomain (Option Datetime) :=
    .ofEntries (cfg.requiredDomains.map fun d => (d, domainMark cfg st scopeId assetId d))
  have htable : table.entries.length ≤ cfg.requiredDomains.length := by
    have := OrderedDict.length_ofEntries_le
      (cfg.requiredDomains.map fun d => (d, domainMark cfg st scopeId assetId d))
    rwa [List.length_map] at this
  have hsome : (table.entries.filterMap Prod.snd).length = table.entries.length := by
    have hle : (table.entries.filterMap Prod.snd).length ≤ table.entries.length :=
      List.length_filterMap_le _ _
    have heq : (table.entries.filterMap Prod.snd).length = cfg.requiredDomains.length := hlen
    omega
  have hall := List.filterMap_length_eq_length.mp hsome
  have hget : table.get? domain = some (domainMark cfg st scopeId assetId domain) := by
    have := OrderedDict.get?_ofEntries_map (domainMark cfg st scopeId assetId)
      cfg.requiredDomains domain
    rwa [if_pos hdomain] at this
  exact Option.isSome_iff_exists.mp (hall _ (OrderedDict.mem_entries_iff.mpr hget))

/-- A required domain has been observed and is not degraded. -/
def DomainReady (st : EngineState) (scopeId assetId : String) (domain : SourceDomain) : Prop :=
  (∃ time, st.maxEventTime.get? (scopeId, assetId, domain) = some time) ∧
    ∃ state, st.sourceStates.get? (scopeId, assetId, domain) = some state ∧ state.degraded = false

/-- When the watermark has passed a window, every required domain is ready. -/
theorem observed_of_passed {st : EngineState} (hobs : SourcesObserved st) {key : WindowKey}
    (h : Passed cfg st key) :
    ∀ domain ∈ cfg.requiredDomains, DomainReady st key.scopeId key.assetId domain := by
  intro domain hdomain
  obtain ⟨mark, hmark, -⟩ := h
  obtain ⟨value, hvalue⟩ := domainMark_of_fusionOf hmark domain hdomain
  unfold domainMark domainWatermark at hvalue
  rcases hstate : st.sourceStates.get? (key.scopeId, key.assetId, domain) with _ | state
  · rw [hstate] at hvalue
    exact absurd hvalue (by simp)
  · refine ⟨hobs _ state hstate, state, hstate, ?_⟩
    rw [hstate] at hvalue
    cases hdeg : state.degraded with
    | false => rfl
    | true =>
      simp only [hdeg, if_true] at hvalue
      exact absurd hvalue (by simp)

/-! ## The sweep -/

/-- The last revision of a window is not final. -/
def OpenWindow (st : EngineState) (key : WindowKey) : Prop :=
  ∃ last, (st.revisionsOf key).getLast? = some last ∧ last.isFinal = false

/-- No window of the scope and asset whose end the watermark has passed is open. -/
def Swept (cfg : EngineConfig) (scopeId assetId : String) (st : EngineState) : Prop :=
  ∀ key : WindowKey, key.scopeId = scopeId → key.assetId = assetId → OpenWindow st key →
    ¬ Passed cfg st key

theorem not_openWindow_of_lastIsFinal {st : EngineState} {key : WindowKey}
    (h : st.lastIsFinal key = true) : ¬ OpenWindow st key := by
  rintro ⟨last, hlast, hopen⟩
  unfold EngineState.lastIsFinal at h
  rw [hlast] at h
  exact absurd (h.symm.trans hopen) (by simp)

/-- A build that is forced, or after the watermark has passed the end, closes its window. -/
theorem not_openWindow_of_due {key : WindowKey} {forceFinal : Bool} {s s' : EngineState}
    {snapshot : FeatureSnapshot} (hb : Built cfg key forceFinal s snapshot s')
    (hdue : forceFinal = true ∨ Passed cfg s key) : ¬ OpenWindow s' key := by
  rintro ⟨last, hlast, hopen⟩
  rw [hb.revisionsOf_self, List.getLast?_concat] at hlast
  obtain rfl := Option.some.inj hlast
  obtain ⟨signals, mark, features, hmark, hfields⟩ := hb.fields
  have hfinalize : (forceFinal || hasPassed mark key.windowEnd) = true := by
    rcases hdue with hforce | ⟨value, hvalue, hend⟩
    · rw [hforce, Bool.true_or]
    · obtain rfl : some value = mark := Except.ok.inj (hvalue.symm.trans hmark)
      rw [show hasPassed (some value) key.windowEnd = true from decide_eq_true hend, Bool.or_true]
  have hstate : snapshot.revisionState = (nextState (s.revisionsOf key) true).1 := by
    rw [hfields, ← hfinalize]
    rfl
  have hclosed : snapshot.revisionState = .final ∨ snapshot.revisionState = .corrected := by
    rw [hstate]
    rcases open_or_closed (s.revisionsOf key) with hop | ⟨last, hlast, hcl⟩
    · rw [nextState_of_open _ hop]
      exact Or.inl rfl
    · rw [nextState_of_closed _ hlast hcl]
      exact Or.inr rfl
  rw [(isFinal_iff snapshot).mpr hclosed] at hopen
  exact absurd hopen (by simp)

/-- A forced build closes its window. -/
theorem not_openWindow_of_forced {key : WindowKey} {s s' : EngineState}
    {snapshot : FeatureSnapshot} (hb : Built cfg key true s snapshot s') : ¬ OpenWindow s' key :=
  not_openWindow_of_due hb (Or.inl rfl)

/-- The invariant of the sweep with the watermark `mark`: the windows it is done with are not open,
or they end later. -/
def SweptUpTo (scopeId assetId : String) (mark : Datetime) (keys : List WindowKey)
    (st : EngineState) : Prop :=
  ∀ key : WindowKey, key.scopeId = scopeId → key.assetId = assetId → key ∉ keys →
    OpenWindow st key → mark < key.windowEnd

theorem sweptUpTo_step {scopeId assetId : String} {mark : Datetime} {key : WindowKey}
    {keys : List WindowKey} {s s' : EngineState} {snapshots : List FeatureSnapshot}
    (hs : SweptUpTo scopeId assetId mark (key :: keys) s)
    (h : finalizeIfEligible cfg scopeId assetId mark key s = (.ok snapshots, s')) :
    SweptUpTo scopeId assetId mark keys s' := by
  -- a round that builds nothing settles its window when the window is closed or ends later
  have hskip : s = s' → (key.scopeId = scopeId → key.assetId = assetId → OpenWindow s key →
      mark < key.windowEnd) → SweptUpTo scopeId assetId mark keys s' := by
    rintro rfl hself other hscope hasset hout hopen
    by_cases heq : other = key
    · rw [heq] at hscope hasset hopen ⊢
      exact hself hscope hasset hopen
    · exact hs other hscope hasset (by rw [List.mem_cons, not_or]; exact ⟨heq, hout⟩) hopen
  unfold finalizeIfEligible at h
  by_cases hkey : key.scopeId ≠ scopeId ∨ key.assetId ≠ assetId
  · rw [if_pos hkey] at h
    refine hskip (congrArg Prod.snd h) fun hscope hasset _ => ?_
    rcases hkey with hne | hne
    · exact absurd hscope hne
    · exact absurd hasset hne
  · rw [if_neg hkey, reading_bind] at h
    by_cases hfinal : s.lastIsFinal key = true
    · rw [if_pos hfinal] at h
      exact hskip (congrArg Prod.snd h) fun _ _ hopen =>
        absurd hopen (not_openWindow_of_lastIsFinal hfinal)
    · rw [if_neg hfinal] at h
      by_cases hend : key.windowEnd ≤ mark
      · rw [if_pos hend] at h
        obtain ⟨snapshot, t, hbuild, hret⟩ := bind_eq_ok.mp h
        obtain rfl : t = s' := congrArg Prod.snd hret
        have hb := buildRevision_ok hbuild
        intro other hscope hasset hout hopen
        by_cases heq : other = key
        · rw [heq] at hopen
          exact absurd hopen (not_openWindow_of_forced hb)
        · unfold OpenWindow at hopen
          rw [hb.revisionsOf_of_ne heq] at hopen
          exact hs other hscope hasset (by rw [List.mem_cons, not_or]; exact ⟨heq, hout⟩) hopen
      · rw [if_neg hend] at h
        exact hskip (congrArg Prod.snd h) fun _ _ _ => not_le.mp hend

/-- **The sweep leaves nothing open that has passed.** -/
theorem swept_of_finalizeEligible {scopeId assetId : String} {s s' : EngineState}
    {snapshots : List FeatureSnapshot}
    (h : finalizeEligible cfg scopeId assetId s = (.ok snapshots, s'))
    (hfusion : fusionOf cfg s' scopeId assetId = fusionOf cfg s scopeId assetId) :
    Swept cfg scopeId assetId s' := by
  rintro key hscope hasset hopen ⟨mark, hmark, hend⟩
  rw [hscope, hasset, hfusion] at hmark
  obtain ⟨t, ht, hwm⟩ := watermark_apply cfg scopeId assetId s
  unfold finalizeEligible at h
  rw [hmark] at hwm
  rw [bind_of_ok hwm] at h
  simp only [reading_bind] at h
  obtain ⟨parts, hloop, -⟩ := flatForEach_eq_ok.mp h
  have hstart : SweptUpTo scopeId assetId mark t.revisions.keys t := by
    rintro other - - hout ⟨last, hlast, -⟩
    rw [EngineState.revisionsOf, OrderedDict.getD, OrderedDict.get?_eq_none_iff.mpr hout] at hlast
    exact absurd hlast (by simp)
  have hdone := forEach_invariant (P := SweptUpTo scopeId assetId mark)
    (fun _ _ _ _ _ hP hround => sweptUpTo_step hP hround) hstart hloop
  exact absurd hend (not_le.mpr (hdone key hscope hasset List.not_mem_nil hopen))

/-- A call that handles a new signal and returns leaves nothing open that has passed. -/
theorem swept_of_ingest {signal : FeatureSignal} {s s' : EngineState}
    {snapshots : List FeatureSnapshot} (hnew : signal.seenKey ∉ s.seenEventIds)
    (h : ingest cfg signal s = (.ok snapshots, s')) :
    Swept cfg signal.scopeId signal.assetId s' := by
  rw [ingest_of_new hnew] at h
  obtain ⟨changed, t, hchanged, h⟩ := bind_eq_ok.mp h
  obtain ⟨finalized, u, hfinal, hret⟩ := bind_eq_ok.mp h
  obtain rfl : u = s' := congrArg Prod.snd hret
  refine swept_of_finalizeEligible hfinal ?_
  have hsteps : EngineSteps cfg signal t
      (finalizeEligible cfg signal.scopeId signal.assetId t).2 := steps_finalizeEligible t
  rw [hfinal] at hsteps
  exact fusionOf_eq_of_marked hsteps.marked _ _

theorem watermark_fst (cfg : EngineConfig) (scopeId assetId : String) (st : EngineState) :
    (watermark cfg scopeId assetId st).1 = fusionOf cfg st scopeId assetId := by
  obtain ⟨t, -, hwm⟩ := watermark_apply cfg scopeId assetId st
  rw [hwm]

/-- The call for a signal of another scope or asset leaves a swept pair swept. -/
theorem swept_ingest_of_ne {signal : FeatureSignal} {scopeId assetId : String}
    (hne : ¬ (signal.scopeId = scopeId ∧ signal.assetId = assetId)) {s : EngineState}
    (hs : Swept cfg scopeId assetId s) : Swept cfg scopeId assetId (ingest cfg signal s).2 := by
  let P : String → String → Bool := fun scope asset => decide (scope = scopeId ∧ asset = assetId)
  have hP : P scopeId assetId = true := decide_eq_true ⟨rfl, rfl⟩
  have hout : ofSignal P signal = false := decide_eq_false hne
  have hids : IdsRespect P [signal] := fun a ha b hb _ => by
    rw [List.mem_singleton.mp ha, List.mem_singleton.mp hb]
  have hview : SameView P [signal] (ingest cfg signal s).2 s :=
    sameView_ingest hids List.mem_cons_self hout s
  have hfusion : fusionOf cfg (ingest cfg signal s).2 scopeId assetId =
      fusionOf cfg s scopeId assetId := by
    rw [← watermark_fst, ← watermark_fst]
    exact (agree_watermark hP _ _ hview).1
  rintro key rfl rfl hopen ⟨mark, hmark, hend⟩
  have hrevisions : (ingest cfg signal s).2.revisionsOf key = s.revisionsOf key :=
    hview.revisionsOf hP
  unfold OpenWindow at hopen
  rw [hrevisions] at hopen
  rw [hfusion] at hmark
  exact hs key rfl rfl hopen ⟨mark, hmark, hend⟩

/-- In a run none of whose calls raises, every pair is swept. -/
theorem swept_run (cfg : EngineConfig) {run : List FeatureSignal}
    (hok : AllOk (runAll (ingest cfg) run .initial).1) (scopeId assetId : String) :
    Swept cfg scopeId assetId (runAll (ingest cfg) run .initial).2 := by
  have hinitial : Swept cfg scopeId assetId EngineState.initial := by
    rintro key - - ⟨last, hlast, -⟩
    exact absurd hlast (by simp [EngineState.initial, EngineState.revisionsOf])
  refine runAll_invariant_of_ok hinitial hok fun signal _ s snapshots s' hs h => ?_
  by_cases hpair : signal.scopeId = scopeId ∧ signal.assetId = assetId
  · obtain ⟨rfl, rfl⟩ := hpair
    by_cases hseen : signal.seenKey ∈ s.seenEventIds
    · rw [ingest_of_seen hseen] at h
      obtain rfl : s = s' := congrArg Prod.snd h
      exact hs
    · exact swept_of_ingest hseen h
  · have hs' := swept_ingest_of_ne hpair hs
    rw [h] at hs'
    exact hs'

/-- **Finalisation is exact.**  For every run and every further call:

1. after the call, if it returned, no window of its scope and asset is open although the fusion
   watermark has passed its end (in a run in which calls raised, this is said of calls that handle
   a new signal); with a registered configuration and well-shaped signals every call returns;
2. a revision the call made final was built in a state in which every required domain had been
   observed and was not degraded, and in which the watermark had passed the end of the window;
3. the revisions of every window are lawful;
4. the revisions there were are still there, as they were. -/
theorem finalisation_exact (cfg : EngineConfig) (run : List FeatureSignal)
    (signal : FeatureSignal) :
    let before := (runAll (ingest cfg) run .initial).2
    let after := (ingest cfg signal before).2
    ((∃ snapshots, (ingest cfg signal before).1 = .ok snapshots) →
      (signal.seenKey ∉ before.seenEventIds ∨ AllOk (runAll (ingest cfg) run .initial).1) →
      ∀ key last mark, key.scopeId = signal.scopeId → key.assetId = signal.assetId →
        (after.revisionsOf key).getLast? = some last → last.isFinal = false →
        (watermark cfg signal.scopeId signal.assetId after).1 = .ok (some mark) →
        mark < key.windowEnd) ∧
    (cfg.Registered → (∀ s ∈ run ++ [signal], s.WellShaped) →
      AllOk (runAll (ingest cfg) (run ++ [signal]) .initial).1) ∧
    (∀ key n snapshot, (after.revisionsOf key)[n]? = some snapshot →
      (before.revisionsOf key).length ≤ n → snapshot.revisionState = .final →
      ∃ s₀ s₁ forceFinal mark, EngineSteps cfg signal (register signal before) s₀ ∧
        buildRevision cfg key forceFinal s₀ = (.ok snapshot, s₁) ∧
        EngineSteps cfg signal s₁ after ∧
        (∀ domain ∈ cfg.requiredDomains, DomainReady s₀ key.scopeId key.assetId domain) ∧
        (watermark cfg key.scopeId key.assetId s₀).1 = .ok (some mark) ∧ key.windowEnd ≤ mark) ∧
    (∀ key, RevisionsLawful (after.revisionsOf key)) ∧
    ∀ key, before.revisionsOf key <+: after.revisionsOf key := by
  intro before after
  refine ⟨?_, fun hcfg hshape => allOk_runAll_ingest hcfg hshape, ?_, fun key => ?_,
    isPrefix_revisionsOf_ingest cfg signal before⟩
  · rintro ⟨snapshots, hok⟩ hrun key last mark hscope hasset hlast hopen hmark
    have hcall : ingest cfg signal before = (.ok snapshots, after) := Prod.ext hok rfl
    have hswept : Swept cfg signal.scopeId signal.assetId after := by
      by_cases hseen : signal.seenKey ∈ before.seenEventIds
      · have hsame : after = before := by
          rw [ingest_of_seen hseen] at hcall
          exact (congrArg Prod.snd hcall).symm
        rw [hsame]
        exact swept_run cfg (hrun.resolve_left (not_not.mpr hseen)) _ _
      · exact swept_of_ingest hseen hcall
    by_contra hle
    refine hswept key hscope hasset ⟨last, hlast, hopen⟩ ⟨mark, ?_, not_lt.mp hle⟩
    rw [hscope, hasset, ← watermark_fst]
    exact hmark
  · intro key n snapshot hn hlen hfinal
    by_cases hseen : signal.seenKey ∈ before.seenEventIds
    · have hsame : after = before := congrArg Prod.snd (ingest_of_seen hseen)
      rw [hsame, List.getElem?_eq_none hlen] at hn
      exact absurd hn (by simp)
    · obtain ⟨s₀, s₁, forceFinal, h₀, -, hforce, hbuild, h₁⟩ :=
        exists_build (ingest_steps hseen) hn hlen
      have hpassed := passed_of_final (buildRevision_ok hbuild) hforce hfinal
      have hobs : SourcesObserved s₀ := sourcesObserved_of_marked h₀.marked
        (sourcesObserved_register (sourcesObserved_run cfg run))
      obtain ⟨mark, hmark, hend⟩ := hpassed
      refine ⟨s₀, s₁, forceFinal, mark, h₀, hbuild, h₁,
        observed_of_passed hobs ⟨mark, hmark, hend⟩, ?_, hend⟩
      rw [watermark_fst]
      exact hmark
  · have hlast : after = (runAll (ingest cfg) (run ++ [signal]) .initial).2 :=
      (runAll_concat run signal _).symm
    rw [hlast]
    exact revisionsLawful_run cfg (run ++ [signal]) key

end Features
end Scam2Market
