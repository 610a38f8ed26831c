import Scam2Market.Campaigns.Totality

/-!
# Staleness and the order of delivery

The rank of evidence is its cutoff, its two revisions and its profile.  It does not tell two windows
or two inputs with the same cutoff apart, and evidence is stale when its rank is not above the rank
that was applied last.  So of two new scores one is always discarded in one of the two orders.

* `OrderIndependent`: neither delivery is discarded, and both orders leave the same severities.
* `orderIndependent_iff`: that holds only when one of the two had been recorded before.
-/

namespace Scam2Market
namespace Campaigns

open Intelligence (RiskLevel)
open Library (OrderedDict)
open Library.Procedure
open SqlCampaignRepository

variable {repo : SqlCampaignRepository} {t t' : Tables} {a b call : Call}

/-! ## The severities of an asset -/

/-- The severity of the active campaign of a scope and an asset. -/
def Tables.maxSeverityOf (scopeId assetId : String) (t : Tables) : Option RiskLevel :=
  (t.selectActive scopeId assetId).map CampaignModel.maxSeverity

/-- The severity of an alert of the active campaign of a scope and an asset. -/
def Tables.alertSeverityOf (scopeId assetId : String) (alertType : AlertType) (t : Tables) :
    Option RiskLevel :=
  (t.selectActive scopeId assetId).bind fun campaign =>
    (t.selectAlert campaign.campaignId alertType).map AlertModel.severity

/-- Two deliveries are answered and not discarded, whichever comes first, and both orders leave the
same severities. -/
structure OrderIndependent (repo : SqlCampaignRepository) (t : Tables) (a b : Call) : Prop where
  answered : ∀ answer ∈ (runAll repo.perform [a, b] t).1 ++ (runAll repo.perform [b, a] t).1,
    ∃ update, answer = .ok update ∧ update.staleEvidence = false
  maxSeverity :
    (runAll repo.perform [a, b] t).2.maxSeverityOf a.evidence.scopeId a.evidence.assetId =
      (runAll repo.perform [b, a] t).2.maxSeverityOf a.evidence.scopeId a.evidence.assetId
  alerts : ∀ alertType,
    (runAll repo.perform [a, b] t).2.alertSeverityOf a.evidence.scopeId a.evidence.assetId
        alertType =
      (runAll repo.perform [b, a] t).2.alertSeverityOf a.evidence.scopeId a.evidence.assetId
        alertType

theorem OrderIndependent.symm (hscope : a.evidence.scopeId = b.evidence.scopeId)
    (hasset : a.evidence.assetId = b.evidence.assetId) (h : OrderIndependent repo t a b) :
    OrderIndependent repo t b a := by
  refine ⟨fun answer hmem => h.answered answer ?_, ?_, fun alertType => ?_⟩
  · exact List.mem_append.mpr (List.mem_append.mp hmem).symm
  · rw [← hscope, ← hasset]
    exact h.maxSeverity.symm
  · rw [← hscope, ← hasset]
    exact (h.alerts alertType).symm

/-! ## What a delivery does to the rank -/

/-- The active campaign is found. -/
theorem selectActive_of_active (hkeys : CampaignsKeyed t) (hone : OneActive t.campaigns)
    {row : CampaignModel} (hget : t.campaigns.get? row.campaignId = some row)
    (hstatus : row.status = .active) : t.selectActive row.scopeId row.assetId = some row := by
  cases hselect : t.selectActive row.scopeId row.assetId with
  | none => exact absurd ⟨rfl, rfl, hstatus⟩ (selectActive_eq_none hselect hget)
  | some other =>
    obtain ⟨hother, hscope, hasset, hactive⟩ := selectActive_eq_some hkeys hselect
    have hid := hone _ other _ row hother hget hactive hstatus hscope hasset
    rw [hid] at hother
    exact hother.symm.trans hget

/-- What the row that evidence leaves says about the evidence. -/
theorem rank_of_placed {evidence : CampaignEvidence}
    {campaigns campaigns' : OrderedDict CampaignId CampaignModel} {active : Option CampaignModel}
    {row : CampaignModel} {stages : List CampaignStageHistoryModel}
    (hactive : ∀ old ∈ active, old.scopeId = evidence.scopeId ∧ old.assetId = evidence.assetId ∧
      old.status = .active)
    (hplaced : Placed repo evidence campaigns active row campaigns' stages) :
    row.scopeId = evidence.scopeId ∧ row.assetId = evidence.assetId ∧ row.status = .active ∧
      ∀ other, isStaleCampaignEvidence row other =
        decide (evaluationOrder other ≤ evaluationOrder evidence) := by
  cases hplaced with
  | opened assessment => exact ⟨rfl, rfl, rfl, fun other => rfl⟩
  | reopened old assessment => exact ⟨rfl, rfl, rfl, fun other => rfl⟩
  | continued old assessment =>
    obtain ⟨hscope, hasset, hstatus⟩ := hactive old rfl
    exact ⟨hscope, hasset, hstatus, fun other => rfl⟩

/-- After evidence has been applied, whatever does not rank above it is stale. -/
theorem stale_after {evidence : CampaignEvidence} {now : Datetime} {row : CampaignModel}
    {alerts : List AlertRecord} (hkeys : CampaignsKeyed t) (hone : OneActive t.campaigns)
    (happlied : AppliedTo repo evidence now row alerts t t') :
    t'.selectActive evidence.scopeId evidence.assetId = some row ∧
      ∀ other, isStaleCampaignEvidence row other =
        decide (evaluationOrder other ≤ evaluationOrder evidence) := by
  obtain ⟨stages, -, hplaced⟩ := happlied.placed
  obtain ⟨hscope, hasset, hstatus, hrank⟩ := rank_of_placed
    (fun old hold => (selectActive_eq_some hkeys hold).2) hplaced
  refine ⟨?_, hrank⟩
  rw [← hscope, ← hasset]
  exact selectActive_of_active (keyed_of_placed hkeys hplaced)
    (oneActive_of_placed hkeys hone hplaced) (row_of_placed hplaced).1 hstatus

/-- New evidence that is not discarded is applied. -/
theorem appliedTo_of_not_stale {update : CampaignUpdate} (hstep : ApplyStep repo call t update t')
    (hfresh : ¬ t.Recorded call.evidence.eventId) (hflag : update.staleEvidence = false) :
    ∃ row, AppliedTo repo call.evidence call.now row update.alerts t t' := by
  cases hstep with
  | duplicate prior campaign _ hprior => exact absurd ⟨prior, hprior⟩ hfresh
  | stale campaign _ _ _ _ hupdate =>
    obtain ⟨record, -, rfl⟩ := hupdate
    exact absurd hflag (by simp)
  | applied row _ _ happlied => exact ⟨row, happlied⟩

/-- The answer of a run of two calls. -/
theorem OrderIndependent.steps (h : OrderIndependent repo t a b) :
    ∃ first t₁ second t₂, repo.perform a t = (.ok first, t₁) ∧ first.staleEvidence = false ∧
      repo.perform b t₁ = (.ok second, t₂) ∧ second.staleEvidence = false := by
  obtain ⟨first, hfirst, hflag⟩ := h.answered (repo.perform a t).1
    (List.mem_append_left _ List.mem_cons_self)
  obtain ⟨second, hsecond, hflag'⟩ := h.answered (repo.perform b (repo.perform a t).2).1
    (List.mem_append_left _ (List.mem_cons_of_mem _ List.mem_cons_self))
  exact ⟨first, _, second, _, Prod.ext hfirst rfl, hflag, Prod.ext hsecond rfl, hflag'⟩

theorem applyStep_of_ok {update : CampaignUpdate} (h : repo.perform call t = (.ok update, t')) :
    ApplyStep repo call t update t' := by
  rcases perform_cases repo call t with ⟨e, herror⟩ | ⟨update', t'', hok, hstep⟩
  · exact absurd (congrArg Prod.fst (herror.symm.trans h)) (by simp)
  · obtain ⟨hupdate, rfl⟩ := Prod.mk.inj (hok.symm.trans h)
    rwa [← Except.ok.inj hupdate]

/-- **Of two new scores, the one that comes second ranks higher.** -/
theorem OrderIndependent.rank_lt (h : OrderIndependent repo t a b) (hkeys : CampaignsKeyed t)
    (hone : OneActive t.campaigns) (hids : b.evidence.eventId ≠ a.evidence.eventId)
    (hscope : a.evidence.scopeId = b.evidence.scopeId)
    (hasset : a.evidence.assetId = b.evidence.assetId)
    (ha : ¬ t.Recorded a.evidence.eventId) (hb : ¬ t.Recorded b.evidence.eventId) :
    evaluationOrder a.evidence < evaluationOrder b.evidence := by
  obtain ⟨first, t₁, second, t₂, hfirst, hflag, hsecond, hflag'⟩ := h.steps
  obtain ⟨row, happlied⟩ := appliedTo_of_not_stale (applyStep_of_ok hfirst) ha hflag
  have hb₁ : ¬ t₁.Recorded b.evidence.eventId := by
    rintro ⟨other, hother⟩
    rw [happlied.evidence_eq, OrderedDict.get?_set_of_ne _ _ hids] at hother
    exact hb ⟨other, hother⟩
  obtain ⟨row', happlied'⟩ := appliedTo_of_not_stale (applyStep_of_ok hsecond) hb₁ hflag'
  obtain ⟨hselect, hrank⟩ := stale_after hkeys hone happlied
  rw [hscope, hasset] at hselect
  have hnotStale := happlied'.notStale row hselect
  rw [hrank] at hnotStale
  exact not_le.mp (of_decide_eq_false hnotStale)

/-! ## When the order does not matter -/

/-- Evidence that has been recorded is answered, and nothing changes. -/
theorem Reached.answers_recorded (h : Reached repo t) (htakes : repo.Takes call)
    (hrecorded : t.Recorded call.evidence.eventId) :
    ∃ update, repo.perform call t = (.ok update, t) ∧ update.staleEvidence = false := by
  obtain ⟨update, t', hok, hstep⟩ := h.answers htakes
  obtain ⟨row, hrow⟩ := hrecorded
  cases hstep with
  | duplicate prior campaign _ _ _ hupdate =>
    obtain ⟨record, -, rfl⟩ := hupdate
    exact ⟨_, hok, rfl⟩
  | stale campaign _ hfresh => exact absurd (hfresh.symm.trans hrow) (by simp)
  | applied other _ _ happlied => exact absurd (happlied.fresh.symm.trans hrow) (by simp)

/-- Evidence that is recorded or not stale is answered, and recorded evidence stays recorded. -/
theorem Reached.answers_not_stale (h : Reached repo t) (htakes : repo.Takes call)
    (hcondition : t.Recorded call.evidence.eventId ∨
      ∀ campaign ∈ t.selectActive call.evidence.scopeId call.evidence.assetId,
        isStaleCampaignEvidence campaign call.evidence = false) :
    ∃ update t', repo.perform call t = (.ok update, t') ∧ update.staleEvidence = false ∧
      ∀ key, t.Recorded key → t'.Recorded key := by
  obtain ⟨update, t', hok, hstep⟩ := h.answers htakes
  refine ⟨update, t', hok, ?_⟩
  cases hstep with
  | duplicate prior campaign _ _ _ hupdate =>
    obtain ⟨record, -, rfl⟩ := hupdate
    exact ⟨rfl, fun key hkey => hkey⟩
  | stale campaign _ hfresh hactive hstale =>
    rcases hcondition with ⟨row, hrow⟩ | hnot
    · exact absurd (hfresh.symm.trans hrow) (by simp)
    · exact absurd (hstale.symm.trans (hnot campaign hactive)) (by simp)
  | applied row _ _ happlied hupdate =>
    exact ⟨hupdate.2.2, fun key hkey => recorded_of_recorded happlied.evidence_eq hkey⟩

/-- One of the two has been recorded before. -/
theorem Reached.orderIndependent_of_recorded (h : Reached repo t) (ha : repo.Takes a)
    (hb : repo.Takes b) (hrecorded : t.Recorded a.evidence.eventId)
    (hcondition : t.Recorded b.evidence.eventId ∨
      ∀ campaign ∈ t.selectActive b.evidence.scopeId b.evidence.assetId,
        isStaleCampaignEvidence campaign b.evidence = false) :
    OrderIndependent repo t a b := by
  obtain ⟨first, hfirst, hflag⟩ := h.answers_recorded ha hrecorded
  obtain ⟨second, t', hsecond, hflag', hkeep⟩ := h.answers_not_stale hb hcondition
  have hreached : Reached repo t' := by
    have hnext := h.perform b
    rwa [hsecond] at hnext
  obtain ⟨again, hagain, hflag''⟩ := hreached.answers_recorded ha (hkeep _ hrecorded)
  have hab : runAll repo.perform [a, b] t = ([.ok first, .ok second], t') := by
    rw [runAll_cons, hfirst, runAll_cons, hsecond]
    rfl
  have hba : runAll repo.perform [b, a] t = ([.ok second, .ok again], t') := by
    rw [runAll_cons, hsecond, runAll_cons, hagain]
    rfl
  refine ⟨?_, by rw [hab, hba], fun alertType => by rw [hab, hba]⟩
  rw [hab, hba]
  intro answer hanswer
  simp only [List.cons_append, List.nil_append, List.mem_cons, List.not_mem_nil, or_false]
    at hanswer
  rcases hanswer with rfl | rfl | rfl | rfl
  · exact ⟨first, rfl, hflag⟩
  · exact ⟨second, rfl, hflag'⟩
  · exact ⟨second, rfl, hflag'⟩
  · exact ⟨again, rfl, hflag''⟩

/-- **When the order does not matter.**  For two score events of one scope and one asset that the
repository can take: one of them has been recorded before, and what has not been recorded ranks above
what the active campaign has applied last. -/
theorem orderIndependent_iff (h : Reached repo t) (ha : repo.Takes a) (hb : repo.Takes b)
    (hids : a.evidence.eventId ≠ b.evidence.eventId)
    (hscope : a.evidence.scopeId = b.evidence.scopeId)
    (hasset : a.evidence.assetId = b.evidence.assetId) :
    OrderIndependent repo t a b ↔
      (t.Recorded a.evidence.eventId ∨ t.Recorded b.evidence.eventId) ∧
        ∀ call ∈ [a, b], t.Recorded call.evidence.eventId ∨
          ∀ campaign ∈ t.selectActive call.evidence.scopeId call.evidence.assetId,
            isStaleCampaignEvidence campaign call.evidence = false := by
  have hkeys := h.accounted.keyed
  constructor
  · intro hindependent
    have hflip := hindependent.symm hscope hasset
    constructor
    · by_contra hnot
      obtain ⟨hna, hnb⟩ := not_or.mp hnot
      exact lt_asymm
        (hindependent.rank_lt hkeys h.oneActive (Ne.symm hids) hscope hasset hna hnb)
        (hflip.rank_lt hkeys h.oneActive hids hscope.symm hasset.symm hnb hna)
    · have hfirst : ∀ {c d : Call}, OrderIndependent repo t c d →
          t.Recorded c.evidence.eventId ∨
            ∀ campaign ∈ t.selectActive c.evidence.scopeId c.evidence.assetId,
              isStaleCampaignEvidence campaign c.evidence = false := by
        intro c d hcd
        obtain ⟨first, t₁, -, -, hok, hflag, -⟩ := hcd.steps
        refine or_iff_not_imp_left.mpr fun hfresh => ?_
        obtain ⟨row, happlied⟩ := appliedTo_of_not_stale (applyStep_of_ok hok) hfresh hflag
        exact happlied.notStale
      intro call hcall
      rcases List.mem_cons.mp hcall with rfl | hcall
      · exact hfirst hindependent
      · rw [List.mem_singleton.mp hcall]
        exact hfirst hflip
  · rintro ⟨hrecorded, hcondition⟩
    rcases hrecorded with hrecorded | hrecorded
    · exact h.orderIndependent_of_recorded ha hb hrecorded
        (hcondition b (List.mem_cons_of_mem _ List.mem_cons_self))
    · exact (h.orderIndependent_of_recorded hb ha hrecorded
        (hcondition a List.mem_cons_self)).symm hscope.symm hasset.symm

/-- The score of a window of one minute that ends a minute after the epoch. -/
def minuteCall : Call where
  evidence := windowEvidence "minute" (windowScore 60 60000000 none none .normal) 60000000
  granted := fun _ => true
  now := 60000000

/-- The score of a window of five minutes that ends at the same time, and is critical. -/
def fiveMinuteCall : Call where
  evidence := windowEvidence "five-minutes" (windowScore 300 60000000 none none .critical) 60000000
  granted := fun _ => true
  now := 60000000

theorem takes_windowCalls : ({} : SqlCampaignRepository).Takes minuteCall ∧
    ({} : SqlCampaignRepository).Takes fiveMinuteCall := by
  constructor <;> exact ⟨rfl, ⟨by decide, by decide⟩, by decide +kernel⟩

/-- Two new scores: the order matters, since neither of them has been recorded. -/
theorem orderIndependent_iff_windows :
    OrderIndependent {} .empty minuteCall fiveMinuteCall ↔
      (Tables.empty.Recorded minuteCall.evidence.eventId ∨
        Tables.empty.Recorded fiveMinuteCall.evidence.eventId) ∧
        ∀ call ∈ [minuteCall, fiveMinuteCall], Tables.empty.Recorded call.evidence.eventId ∨
          ∀ campaign ∈ Tables.empty.selectActive call.evidence.scopeId call.evidence.assetId,
            isStaleCampaignEvidence campaign call.evidence = false :=
  orderIndependent_iff ⟨[], rfl⟩ takes_windowCalls.1 takes_windowCalls.2 (by decide) rfl rfl

/-- **The critical score is lost when it comes second.**  The windows are different, the cutoffs and
the revisions are the same. -/
theorem critical_window_discarded :
    minuteCall.evidence.cutoff = fiveMinuteCall.evidence.cutoff ∧
      minuteCall.evidence.fusion.featureWindowId ≠ fiveMinuteCall.evidence.fusion.featureWindowId ∧
      (runAll ({} : SqlCampaignRepository).perform [minuteCall, fiveMinuteCall]
        .empty).2.maxSeverityOf "LIVE" "asset" = some .normal ∧
      (runAll ({} : SqlCampaignRepository).perform [fiveMinuteCall, minuteCall]
        .empty).2.maxSeverityOf "LIVE" "asset" = some .critical ∧
      ¬ OrderIndependent {} .empty minuteCall fiveMinuteCall := by
  have hminute : (runAll ({} : SqlCampaignRepository).perform [minuteCall, fiveMinuteCall]
      .empty).2.maxSeverityOf "LIVE" "asset" = some .normal := by decide +kernel
  have hcritical : (runAll ({} : SqlCampaignRepository).perform [fiveMinuteCall, minuteCall]
      .empty).2.maxSeverityOf "LIVE" "asset" = some .critical := by decide +kernel
  refine ⟨by decide, by decide, hminute, hcritical, fun h => ?_⟩
  have hsame := h.maxSeverity
  rw [show minuteCall.evidence.scopeId = "LIVE" from rfl,
    show minuteCall.evidence.assetId = "asset" from rfl, hminute, hcritical] at hsame
  exact absurd hsame (by decide)

end Campaigns
end Scam2Market
