import Scam2Market.Campaigns.Runs

/-!
# Invariants of the campaign store

* `StoreLaw`: what holds of the tables after a list of calls.
* `storeLaw_run`: it holds after every run whose evidence carries the time of its cutoff.

A state machine never leaves `POST_EVENT`, so a campaign that has reached it stays there
(`postEvent_runAll`).  It raises for one kind of scores only: those that would move a campaign to the
coordinated stage with a coordination score above 1.
-/

namespace Scam2Market
namespace Campaigns

open Intelligence (FusionResult)
open Library (OrderedDict)
open Library.Procedure
open SqlCampaignRepository
open CampaignStateMachine (assess transitions nextStage)

variable {repo : SqlCampaignRepository} {call : Call} {evidence : CampaignEvidence} {t : Tables}
  {id : CampaignId} {row : CampaignModel}

/-! ## Stages of the campaigns that are there -/

/-- Placing evidence moves the campaigns that are there as the table of transitions allows. -/
theorem stage_of_placed (hkeys : CampaignsKeyed t)
    {campaigns : OrderedDict CampaignId CampaignModel} {stages : List CampaignStageHistoryModel}
    (hplaced : Placed repo evidence t.campaigns
      (t.selectActive evidence.scopeId evidence.assetId) row campaigns stages)
    {old : CampaignModel} (hget : t.campaigns.get? id = some old) :
    ∃ new, campaigns.get? id = some new ∧ new.stage ∈ transitions old.stage := by
  have hsame : old.stage ∈ transitions old.stage := CampaignStateMachine.mem_transitions_self _
  generalize hactive : t.selectActive evidence.scopeId evidence.assetId = active at hplaced
  cases hplaced with
  | opened assessment hassess hfresh =>
    have hid : id ≠ (openedCampaign evidence assessment).campaignId := by
      rintro rfl
      exact absurd (hfresh.symm.trans hget) (by simp)
    exact ⟨old, (OrderedDict.get?_set_of_ne _ _ hid).trans hget, hsame⟩
  | reopened other assessment hgap hassess hfresh =>
    obtain ⟨hother, -⟩ := selectActive_eq_some hkeys hactive
    by_cases hown : id = other.campaignId
    · subst hown
      obtain rfl : old = other := Option.some.inj (hget.symm.trans hother)
      have hid : old.campaignId ≠ (openedCampaign evidence assessment).campaignId := by
        intro heq
        rw [← heq, OrderedDict.get?_set_self] at hfresh
        exact absurd hfresh (by simp)
      refine ⟨closedCampaign old, ?_, hsame⟩
      rw [OrderedDict.get?_set_of_ne _ _ hid, OrderedDict.get?_set_self]
    · have hid : id ≠ (openedCampaign evidence assessment).campaignId := by
        rintro rfl
        rw [OrderedDict.get?_set_of_ne _ _ hown] at hfresh
        exact absurd (hfresh.symm.trans hget) (by simp)
      refine ⟨old, ?_, hsame⟩
      rw [OrderedDict.get?_set_of_ne _ _ hid, OrderedDict.get?_set_of_ne _ _ hown]
      exact hget
  | continued other assessment hgap hassess =>
    obtain ⟨hother, -⟩ := selectActive_eq_some hkeys hactive
    by_cases hown : id = other.campaignId
    · subst hown
      obtain rfl : old = other := Option.some.inj (hget.symm.trans hother)
      refine ⟨_, OrderedDict.get?_set_self _ _ _, ?_⟩
      show (if assessment.nextStage ≠ old.stage then assessment.nextStage else old.stage) ∈ _
      rw [CampaignStateMachine.assess_eq_ok.mp hassess]
      split_ifs
      · exact CampaignStateMachine.nextStage_mem _ _
      · exact hsame
    · exact ⟨old, (OrderedDict.get?_set_of_ne _ _ hown).trans hget, hsame⟩

/-- Placing evidence leaves campaigns under their own ids. -/
theorem keyed_of_placed (hkeys : CampaignsKeyed t) {t' : Tables}
    {stages : List CampaignStageHistoryModel} {active : Option CampaignModel}
    (hplaced : Placed repo evidence t.campaigns active row t'.campaigns stages) :
    CampaignsKeyed t' := by
  have hset : ∀ (campaigns : OrderedDict CampaignId CampaignModel) (new : CampaignModel),
      (∀ id row, campaigns.get? id = some row → row.campaignId = id) →
        ∀ id row, (campaigns.set new.campaignId new).get? id = some row → row.campaignId = id := by
    intro campaigns new h id row hget
    rw [OrderedDict.get?_set] at hget
    split_ifs at hget with hid
    · rw [← Option.some.inj hget, hid]
    · exact h id row hget
  generalize hcampaigns : t'.campaigns = campaigns at hplaced
  intro id row hget
  rw [hcampaigns] at hget
  cases hplaced with
  | opened assessment => exact hset _ _ hkeys id row hget
  | reopened old assessment => exact hset _ _ (hset _ (closedCampaign old) hkeys) id row hget
  | continued old assessment =>
    exact hset _ (updatedCampaign old evidence assessment) hkeys id row hget

/-- **A call keeps the campaigns that are there**, and moves them as the table of transitions
allows. -/
theorem stage_perform (repo : SqlCampaignRepository) (call : Call) (hkeys : CampaignsKeyed t)
    (hget : t.campaigns.get? id = some row) :
    ∃ new, (repo.perform call t).2.campaigns.get? id = some new ∧
      new.stage ∈ transitions row.stage := by
  have hsame : row.stage ∈ transitions row.stage := CampaignStateMachine.mem_transitions_self _
  rcases perform_cases repo call t with ⟨e, herror⟩ | ⟨update, t', hok, hstep⟩
  · rw [herror]
    exact ⟨row, hget, hsame⟩
  · rw [hok]
    cases hstep with
    | duplicate => exact ⟨row, hget, hsame⟩
    | stale => exact ⟨row, hget, hsame⟩
    | applied other _ _ happlied =>
      obtain ⟨stages, -, hplaced⟩ := happlied.placed
      exact stage_of_placed hkeys hplaced hget

theorem keyed_perform (hkeys : CampaignsKeyed t) : CampaignsKeyed (repo.perform call t).2 := by
  rcases perform_cases repo call t with ⟨e, herror⟩ | ⟨update, t', hok, hstep⟩
  · rw [herror]
    exact hkeys
  · rw [hok]
    cases hstep with
    | duplicate => exact hkeys
    | stale => exact hkeys
    | applied other _ _ happlied =>
      obtain ⟨stages, -, hplaced⟩ := happlied.placed
      exact keyed_of_placed hkeys hplaced

theorem keyed_empty : CampaignsKeyed .empty := fun _ _ h => absurd h (by simp [Tables.empty])

theorem keyed_run (repo : SqlCampaignRepository) (calls : List Call) :
    CampaignsKeyed (runAll repo.perform calls .empty).2 :=
  runAll_invariant keyed_empty fun _ _ _ h => keyed_perform h

/-- Placing evidence leaves at most one active campaign for a scope and an asset. -/
theorem oneActive_of_placed (hkeys : CampaignsKeyed t) (hone : OneActive t.campaigns)
    {campaigns : OrderedDict CampaignId CampaignModel} {stages : List CampaignStageHistoryModel}
    (hplaced : Placed repo evidence t.campaigns
      (t.selectActive evidence.scopeId evidence.assetId) row campaigns stages) :
    OneActive campaigns := by
  generalize hactive : t.selectActive evidence.scopeId evidence.assetId = active at hplaced
  cases hplaced with
  | opened assessment hassess hfresh =>
    refine hone.set _ fun _ id other hother hstatus hscope hasset => ?_
    exact absurd ⟨hscope, hasset, hstatus⟩ (selectActive_eq_none hactive hother)
  | reopened old assessment hgap hassess hfresh =>
    obtain ⟨hget, hscope, hasset, hstatus⟩ := selectActive_eq_some hkeys hactive
    have hclosed : (closedCampaign old).status ≠ .active := by simp [closedCampaign]
    refine (hone.set (closedCampaign old) fun h => absurd h hclosed).set _ ?_
    -- the only active campaign of the scope and the asset has just been closed
    intro _ id other hother hstatus' hscope' hasset'
    rw [OrderedDict.get?_set] at hother
    split_ifs at hother with hid
    · rw [← Option.some.inj hother] at hstatus'
      exact absurd hstatus' hclosed
    · exact absurd (hone id other _ old hother hget hstatus' hstatus (hscope'.trans hscope.symm)
        (hasset'.trans hasset.symm)) hid
  | continued old assessment hgap hassess =>
    obtain ⟨hget, -, -, hstatus⟩ := selectActive_eq_some hkeys hactive
    exact hone.set (updatedCampaign old evidence assessment) fun _ id other hother hother' hscope
      hasset => hone id other _ old hother hget hother' hstatus hscope hasset

theorem oneActive_perform (hkeys : CampaignsKeyed t) (hone : OneActive t.campaigns) :
    OneActive (repo.perform call t).2.campaigns := by
  rcases perform_cases repo call t with ⟨e, herror⟩ | ⟨update, t', hok, hstep⟩
  · rw [herror]
    exact hone
  · rw [hok]
    cases hstep with
    | duplicate => exact hone
    | stale => exact hone
    | applied other _ _ happlied =>
      obtain ⟨stages, -, hplaced⟩ := happlied.placed
      exact oneActive_of_placed hkeys hone hplaced

theorem oneActive_run (repo : SqlCampaignRepository) (calls : List Call) :
    OneActive (runAll repo.perform calls .empty).2.campaigns := by
  refine (runAll_invariant (P := fun t => CampaignsKeyed t ∧ OneActive t.campaigns)
    ⟨keyed_empty, fun _ _ _ _ h => absurd h (by simp [Tables.empty])⟩ ?_).2
  rintro call - mid ⟨hkeys, hone⟩
  exact ⟨keyed_perform hkeys, oneActive_perform hkeys hone⟩

/-- **A campaign that has reached `POST_EVENT` stays there.** -/
theorem postEvent_runAll (hkeys : CampaignsKeyed t) (hget : t.campaigns.get? id = some row)
    (hstage : row.stage = .postEvent) (calls : List Call) :
    ∃ new, (runAll repo.perform calls t).2.campaigns.get? id = some new ∧
      new.stage = .postEvent := by
  refine (runAll_invariant (P := fun t => CampaignsKeyed t ∧
    ∃ row, t.campaigns.get? id = some row ∧ row.stage = .postEvent)
    ⟨hkeys, row, hget, hstage⟩ ?_).2
  rintro call - mid ⟨hkeys, row, hget, hstage⟩
  obtain ⟨new, hnew, hmem⟩ := stage_perform repo call hkeys hget
  rw [hstage, CampaignStateMachine.mem_transitions_postEvent] at hmem
  exact ⟨keyed_perform hkeys, new, hnew, hmem⟩

/-! ## The store -/

/-- What holds of the tables after a list of calls. -/
structure StoreLaw (repo : SqlCampaignRepository) (calls : List Call) (t : Tables) : Prop where
  active : OneActive t.campaigns
  campaign : ∀ id row, t.campaigns.get? id = some row →
    CampaignLaw repo row (t.stagesOf id) (appliedTo (traceAll repo.perform calls .empty) id)
  terminal : ∀ earlier, earlier <+: calls → ∀ id row,
    (runAll repo.perform earlier .empty).2.campaigns.get? id = some row →
      row.stage = .postEvent → ∃ new, t.campaigns.get? id = some new ∧ new.stage = .postEvent
  assessed : ∀ id row, t.campaigns.get? id = some row → ∀ score : FusionResult,
    (∃ assessment, assess row.stage score = .ok assessment) ↔
      ¬ ((nextStage row.stage score).1 = .coordinatedAmplification ∧
        1 < orZero score.coordinationScore)

/-- **The campaign store keeps its law.** -/
theorem storeLaw_run (repo : SqlCampaignRepository) (calls : List Call)
    (hcutoff : ∀ call ∈ calls, call.evidence.cutoff = call.evidence.eventTime) :
    StoreLaw repo calls (runAll repo.perform calls .empty).2 := by
  have hledger := ledger_run repo hcutoff
  refine ⟨hledger.active, hledger.law, ?_, ?_⟩
  · rintro earlier ⟨later, rfl⟩ id row hget hstage
    rw [runAll_append]
    exact postEvent_runAll (keyed_run repo earlier) hget hstage later
  · intro id row _ score
    exact CampaignStateMachine.assess_succeeds_iff row.stage score

/-- A social score of one half, one minute after the epoch. -/
def seedingCall : Call where
  evidence := windowEvidence "seeding" (windowScore 60 60000000 (some 0.5) none .watch) 60000000
  granted := fun _ => true
  now := 60000000

/-- The law of the store after one score. -/
theorem storeLaw_seeding :
    (∀ call ∈ [seedingCall], call.evidence.cutoff = call.evidence.eventTime) ∧
      StoreLaw {} [seedingCall]
        (runAll ({} : SqlCampaignRepository).perform [seedingCall] .empty).2 := by
  have hcutoff : ∀ call ∈ [seedingCall], call.evidence.cutoff = call.evidence.eventTime := by
    intro call hcall
    rw [List.mem_singleton.mp hcall]
    rfl
  exact ⟨hcutoff, storeLaw_run {} [seedingCall] hcutoff⟩

/-- A coordination score of 1.5 is a valid score, and the state machine raises for it in the stage
that the store has reached. -/
theorem assess_raises_of_seeding :
    ∃ row score, (runAll ({} : SqlCampaignRepository).perform [seedingCall] .empty).2.campaigns.get?
        ⟨("LIVE", "asset", "seeding")⟩ = some row ∧
      score = windowScore 60 120000000 (some 0.5) (some 1.5) .watch ∧
      ¬ ∃ assessment, assess row.stage score = .ok assessment := by
  have hstage : ((runAll ({} : SqlCampaignRepository).perform [seedingCall] .empty).2.campaigns.get?
      ⟨("LIVE", "asset", "seeding")⟩).map CampaignModel.stage = some .earlySocialSeeding := by
    decide +kernel
  obtain ⟨row, hrow, hrowstage⟩ := Option.map_eq_some_iff.mp hstage
  refine ⟨row, _, hrow, rfl, fun hok => ?_⟩
  rw [CampaignStateMachine.assess_succeeds_iff, hrowstage] at hok
  exact hok (by decide +kernel)

end Campaigns
end Scam2Market
