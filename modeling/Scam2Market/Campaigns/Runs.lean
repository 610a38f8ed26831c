import Mathlib.Data.List.Chain
import Scam2Market.Campaigns.AlertSteps

/-!
# Runs of the campaign repository

What a run has applied to a campaign is read off the answers of its calls: an update that is neither
a duplicate nor stale says which campaign its evidence has been applied to.

* `appliedTo`: the evidence applied to a campaign, in order.
* `Ledger`: how the table of campaigns and the history of stages follow from it.
* `ledger_step`: every call that returns keeps the ledger; `ledger_run`: so it holds after every run.
* `follows_run`: the alerts follow the triggers of the evidence that has been applied.
-/

namespace Scam2Market
namespace Campaigns

open Intelligence (RiskLevel)
open Library (OrderedDict)
open Library.Procedure
open SqlCampaignRepository
open CampaignStateMachine (assess transitions)

/-! ## What has been applied -/

/-- A call with its outcome. -/
abbrev Answer := Call × Except PyError CampaignUpdate

/-- The evidence of a call, if it has been applied to a campaign. -/
def appliedBy (id : CampaignId) (answer : Answer) : Option CampaignEvidence :=
  match answer.2 with
  | .ok update =>
    if update.duplicateEvidence = false ∧ update.staleEvidence = false ∧
        update.campaign.campaignId = id then
      some answer.1.evidence
    else none
  | .error _ => none

/-- The evidence that has been applied to a campaign. -/
def appliedTo (trace : List Answer) (id : CampaignId) : List CampaignEvidence :=
  trace.filterMap (appliedBy id)

theorem appliedTo_concat (trace : List Answer) (answer : Answer) (id : CampaignId) :
    appliedTo (trace ++ [answer]) id = appliedTo trace id ++ (appliedBy id answer).toList := by
  rw [appliedTo, List.filterMap_append, List.filterMap_cons]
  cases appliedBy id answer <;> rfl

variable {repo : SqlCampaignRepository} {call : Call} {t t' : Tables} {update : CampaignUpdate}
  {campaign : CampaignModel} {id : CampaignId}

theorem appliedBy_of_error (e : PyError) : appliedBy id (call, .error e) = none := rfl

theorem appliedBy_of_isDuplicate (h : update.IsDuplicate campaign) :
    appliedBy id (call, .ok update) = none := by
  obtain ⟨record, -, rfl⟩ := h
  rw [appliedBy]
  exact if_neg (by simp)

theorem appliedBy_of_isStale (h : update.IsStale campaign) :
    appliedBy id (call, .ok update) = none := by
  obtain ⟨record, -, rfl⟩ := h
  rw [appliedBy]
  exact if_neg (by simp)

theorem appliedBy_of_isApplied (h : update.IsApplied campaign) :
    appliedBy id (call, .ok update) =
      if campaign.campaignId = id then some call.evidence else none := by
  obtain ⟨hpayload, hduplicate, hstale⟩ := h
  have hid : update.campaign.campaignId = campaign.campaignId :=
    congrArg CampaignPayload.campaignId hpayload
  show (if _ then _ else _) = _
  simp only [hduplicate, hstale, hid, true_and]

/-! ## Queries for the active campaign -/

/-- Campaigns stand under their own ids. -/
def CampaignsKeyed (t : Tables) : Prop :=
  ∀ id row, t.campaigns.get? id = some row → row.campaignId = id

theorem selectActive_eq_some (hkeys : CampaignsKeyed t) {scopeId assetId : String}
    (h : t.selectActive scopeId assetId = some campaign) :
    t.campaigns.get? campaign.campaignId = some campaign ∧ campaign.scopeId = scopeId ∧
      campaign.assetId = assetId ∧ campaign.status = .active := by
  rw [Tables.selectActive] at h
  obtain ⟨id, hid⟩ := OrderedDict.mem_values_iff.mp (List.mem_of_find?_eq_some h)
  rw [hkeys id campaign hid]
  have hfound := List.find?_some h
  exact ⟨hid, of_decide_eq_true hfound⟩

theorem selectActive_eq_none {scopeId assetId : String}
    (h : t.selectActive scopeId assetId = none) {row : CampaignModel}
    (hget : t.campaigns.get? id = some row) :
    ¬ (row.scopeId = scopeId ∧ row.assetId = assetId ∧ row.status = .active) := by
  intro hall
  have hnot := List.find?_eq_none.mp h row (OrderedDict.mem_values_iff.mpr ⟨id, hget⟩)
  exact hnot (decide_eq_true hall)

/-- A scope and an asset have at most one active campaign. -/
def OneActive (campaigns : OrderedDict CampaignId CampaignModel) : Prop :=
  ∀ id row id' row', campaigns.get? id = some row → campaigns.get? id' = some row' →
    row.status = .active → row'.status = .active → row.scopeId = row'.scopeId →
      row.assetId = row'.assetId → id = id'

/-- A campaign may be written when no other one is active for its scope and its asset. -/
theorem OneActive.set {campaigns : OrderedDict CampaignId CampaignModel} (h : OneActive campaigns)
    (row : CampaignModel)
    (halone : row.status = .active → ∀ id other, campaigns.get? id = some other →
      other.status = .active → other.scopeId = row.scopeId → other.assetId = row.assetId →
        id = row.campaignId) :
    OneActive (campaigns.set row.campaignId row) := by
  have hget : ∀ id other, (campaigns.set row.campaignId row).get? id = some other →
      (id = row.campaignId ∧ other = row) ∨ campaigns.get? id = some other := by
    intro id other hother
    rw [OrderedDict.get?_set] at hother
    split_ifs at hother with hid
    · exact Or.inl ⟨hid, (Option.some.inj hother).symm⟩
    · exact Or.inr hother
  intro id other id' other' hother hother' hstatus hstatus' hscope hasset
  rcases hget id other hother with ⟨rfl, rfl⟩ | hold
  · rcases hget id' other' hother' with ⟨rfl, -⟩ | hold'
    · rfl
    · exact (halone hstatus id' other' hold' hstatus' hscope.symm hasset.symm).symm
  · rcases hget id' other' hother' with ⟨rfl, rfl⟩ | hold'
    · exact halone hstatus' id other hold hstatus hscope hasset
    · exact h id other id' other' hold hold' hstatus hstatus' hscope hasset

/-! ## The ledger -/

/-- The history of stages of a campaign. -/
def Tables.stagesOf (id : CampaignId) (t : Tables) : List CampaignStageHistoryModel :=
  t.stageHistory.filter fun row => decide (row.campaignId = id)

/-- A history of stages is a path through the table of transitions, from the stage that the first
evidence leads to, to the stage of the campaign. -/
structure StagePath (stages : List CampaignStageHistoryModel) (first : CampaignEvidence)
    (last : CampaignStage) : Prop where
  starts : ∃ row ∈ stages.head?, row.fromStage = none ∧
    ∃ assessment, assess .normal first.fusion = .ok assessment ∧
      row.toStage = assessment.nextStage
  moves : stages.IsChain fun earlier later =>
    later.fromStage = some earlier.toStage ∧ later.toStage ∈ transitions earlier.toStage
  ends : ∃ row ∈ stages.getLast?, row.toStage = last

/-- What a campaign says about the evidence that has been applied to it. -/
structure CampaignLaw (repo : SqlCampaignRepository) (row : CampaignModel)
    (stages : List CampaignStageHistoryModel) (applied : List CampaignEvidence) : Prop where
  owner : ∀ evidence ∈ applied, evidence.scopeId = row.scopeId ∧ evidence.assetId = row.assetId
  path : ∃ first ∈ applied.head?, StagePath stages first row.stage
  maxSeverity : IsGreatest {level | ∃ evidence ∈ applied, evidence.fusion.severity = level}
    row.maxSeverity
  lastEvidenceAt : IsGreatest {time | ∃ evidence ∈ applied, evidence.eventTime = time}
    row.lastEvidenceAt
  version : row.version = applied.length + if row.status = .closed then 1 else 0
  gaps : applied.IsChain fun earlier later =>
    earlier.eventTime ≤ later.eventTime ∧ later.eventTime - earlier.eventTime ≤ repo.mergeGap

/-- A campaign remembers the order and the time of the last evidence. -/
structure Remembers (row : CampaignModel) (applied : List CampaignEvidence) : Prop where
  last : ∃ evidence ∈ applied.getLast?, evidence.eventTime = row.lastEvidenceAt
  cutoff : row.lastAppliedEvidenceCutoff = some row.lastEvidenceAt

/-- The tables and the evidence that has been applied. -/
structure Ledger (repo : SqlCampaignRepository) (applied : CampaignId → List CampaignEvidence)
    (t : Tables) : Prop where
  keyed : CampaignsKeyed t
  active : OneActive t.campaigns
  absent : ∀ id, t.campaigns.get? id = none → applied id = [] ∧ t.stagesOf id = []
  law : ∀ id row, t.campaigns.get? id = some row →
    CampaignLaw repo row (t.stagesOf id) (applied id)
  remembers : ∀ id row, t.campaigns.get? id = some row → row.status = .active →
    Remembers row (applied id)

theorem ledger_empty (repo : SqlCampaignRepository) : Ledger repo (fun _ => []) .empty where
  keyed _ _ h := absurd h (by simp [Tables.empty])
  active _ _ _ _ h := absurd h (by simp [Tables.empty])
  absent _ _ := ⟨rfl, rfl⟩
  law _ _ h := absurd h (by simp [Tables.empty])
  remembers _ _ h := absurd h (by simp [Tables.empty])

/-! ## Steps of the ledger -/

section Steps

variable {evidence : CampaignEvidence} {assessment : CampaignAssessment} {old : CampaignModel}
  {applied applied' : CampaignId → List CampaignEvidence}

/-- A ledger is about the campaigns and the stages only. -/
theorem Ledger.congr (h : Ledger repo applied t) (hcampaigns : t'.campaigns = t.campaigns)
    (hstages : t'.stageHistory = t.stageHistory) (happlied : ∀ id, applied' id = applied id) :
    Ledger repo applied' t' := by
  have hstagesOf : ∀ id, t'.stagesOf id = t.stagesOf id := fun id => by
    rw [Tables.stagesOf, hstages]
    rfl
  refine ⟨?_, ?_, ?_, ?_, ?_⟩
  · intro id row hget
    exact h.keyed id row (hcampaigns ▸ hget)
  · rw [hcampaigns]
    exact h.active
  · intro id hget
    rw [happlied, hstagesOf]
    exact h.absent id (hcampaigns ▸ hget)
  · intro id row hget
    rw [happlied, hstagesOf]
    exact h.law id row (hcampaigns ▸ hget)
  · intro id row hget
    rw [happlied]
    exact h.remembers id row (hcampaigns ▸ hget)

/-- **One row is written.**  What has to be shown is about that row only. -/
theorem Ledger.put (h : Ledger repo applied t) (row : CampaignModel)
    (rows : List CampaignStageHistoryModel)
    (hcampaigns : t'.campaigns = t.campaigns.set row.campaignId row)
    (hstages : t'.stageHistory = t.stageHistory ++ rows)
    (hrows : ∀ stage ∈ rows, stage.campaignId = row.campaignId)
    (happlied : ∀ id, id ≠ row.campaignId → applied' id = applied id)
    (halone : row.status = .active → ∀ id other, t.campaigns.get? id = some other →
      other.status = .active → other.scopeId = row.scopeId → other.assetId = row.assetId →
        id = row.campaignId)
    (hlaw : CampaignLaw repo row (t.stagesOf row.campaignId ++ rows) (applied' row.campaignId))
    (hremembers : row.status = .active → Remembers row (applied' row.campaignId)) :
    Ledger repo applied' t' := by
  have hget : ∀ id other, t'.campaigns.get? id = some other →
      (id = row.campaignId ∧ other = row) ∨
        (id ≠ row.campaignId ∧ t.campaigns.get? id = some other) := by
    intro id other hother
    rw [hcampaigns, OrderedDict.get?_set] at hother
    split_ifs at hother with hid
    · exact Or.inl ⟨hid, (Option.some.inj hother).symm⟩
    · exact Or.inr ⟨hid, hother⟩
  have hown : t'.stagesOf row.campaignId = t.stagesOf row.campaignId ++ rows := by
    rw [Tables.stagesOf, hstages, List.filter_append,
      List.filter_eq_self.mpr fun stage hstage => decide_eq_true (hrows stage hstage)]
    rfl
  have hothers : ∀ id, id ≠ row.campaignId → t'.stagesOf id = t.stagesOf id := by
    intro id hid
    have hnone : rows.filter (fun stage => decide (stage.campaignId = id)) = [] := by
      refine List.filter_eq_nil_iff.mpr fun stage hstage heq => hid ?_
      exact (of_decide_eq_true heq).symm.trans (hrows stage hstage)
    rw [Tables.stagesOf, hstages, List.filter_append, hnone, List.append_nil]
    rfl
  refine ⟨?_, ?_, ?_, ?_, ?_⟩
  · intro id other hother
    rcases hget id other hother with ⟨rfl, rfl⟩ | ⟨-, hother⟩
    · rfl
    · exact h.keyed id other hother
  · rw [hcampaigns]
    exact h.active.set row halone
  · intro id hnone
    rw [hcampaigns, OrderedDict.get?_set] at hnone
    split_ifs at hnone with hid
    rw [happlied id hid, hothers id hid]
    exact h.absent id hnone
  · intro id other hother
    rcases hget id other hother with ⟨rfl, rfl⟩ | ⟨hid, hother⟩
    · rw [hown]
      exact hlaw
    · rw [happlied id hid, hothers id hid]
      exact h.law id other hother
  · intro id other hother hstatus
    rcases hget id other hother with ⟨rfl, rfl⟩ | ⟨hid, hother⟩
    · exact hremembers hstatus
    · rw [happlied id hid]
      exact h.remembers id other hother hstatus

/-- Closing a campaign is one more version, and the last one. -/
theorem Ledger.close (h : Ledger repo applied t)
    (hget : t.campaigns.get? old.campaignId = some old) (hactive : old.status = .active) :
    Ledger repo applied
      { t with campaigns := t.campaigns.set old.campaignId (closedCampaign old) } := by
  have hlaw := h.law _ _ hget
  have hclosed : (closedCampaign old).status ≠ .active := by simp [closedCampaign]
  refine h.put (closedCampaign old) [] rfl (List.append_nil _).symm
    (fun stage hstage => absurd hstage List.not_mem_nil) (fun id _ => rfl)
    (fun hstatus => absurd hstatus hclosed) ?_ (fun hstatus => absurd hstatus hclosed)
  rw [List.append_nil]
  refine ⟨hlaw.owner, hlaw.path, hlaw.maxSeverity, hlaw.lastEvidenceAt, ?_, hlaw.gaps⟩
  show old.version + 1 = _ + 1
  rw [hlaw.version, if_neg (by simp [hactive])]
  rfl

/-- The evidence applied to a campaign after one more has been applied to `campaignId`. -/
def withApplied (applied : CampaignId → List CampaignEvidence) (campaignId : CampaignId)
    (evidence : CampaignEvidence) (id : CampaignId) : List CampaignEvidence :=
  applied id ++ (if campaignId = id then some evidence else none).toList

theorem withApplied_self (applied : CampaignId → List CampaignEvidence) (id : CampaignId)
    (evidence : CampaignEvidence) : withApplied applied id evidence id = applied id ++ [evidence] := by
  rw [withApplied, if_pos rfl]
  rfl

theorem withApplied_of_ne {campaignId : CampaignId} (hid : id ≠ campaignId) :
    withApplied applied campaignId evidence id = applied id := by
  rw [withApplied, if_neg (Ne.symm hid)]
  exact List.append_nil _

/-- Opening a campaign starts a ledger for it. -/
theorem Ledger.open (h : Ledger repo applied t) (hcutoff : evidence.cutoff = evidence.eventTime)
    (hnone : ∀ id row, t.campaigns.get? id = some row → row.status = .active →
      row.scopeId = evidence.scopeId → row.assetId ≠ evidence.assetId)
    (hassess : assess .normal evidence.fusion = .ok assessment)
    (hfresh : t.campaigns.get? (openedCampaign evidence assessment).campaignId = none)
    (hcampaigns : t'.campaigns = t.campaigns.set (openedCampaign evidence assessment).campaignId
      (openedCampaign evidence assessment))
    (hstages : t'.stageHistory = t.stageHistory ++
      [stageHistoryRow (openedCampaign evidence assessment).campaignId none evidence assessment]) :
    Ledger repo (withApplied applied (openedCampaign evidence assessment).campaignId evidence)
      t' := by
  obtain ⟨happlied, hempty⟩ := h.absent _ hfresh
  have hone : withApplied applied (openedCampaign evidence assessment).campaignId evidence
      (openedCampaign evidence assessment).campaignId = [evidence] := by
    rw [withApplied_self, happlied]
    rfl
  refine h.put _ _ hcampaigns hstages ?_ (fun id hid => withApplied_of_ne hid) ?_ ?_ ?_
  · intro stage hstage
    rw [List.mem_singleton.mp hstage]
    rfl
  · intro _ id other hother hstatus hscope hasset
    exact absurd hasset (hnone id other hother hstatus hscope)
  · rw [hone, hempty, List.nil_append]
    refine ⟨?_, ⟨evidence, rfl, ⟨_, rfl, rfl, assessment, hassess, rfl⟩, ?_, _, rfl, rfl⟩, ?_, ?_,
      rfl, ?_⟩
    · intro other hother
      rw [List.mem_singleton.mp hother]
      exact ⟨rfl, rfl⟩
    · exact List.IsChain.singleton _
    · simp [IsGreatest, upperBounds, openedCampaign]
    · simp [IsGreatest, upperBounds, openedCampaign]
    · exact List.IsChain.singleton _
  · intro _
    rw [hone]
    exact ⟨⟨evidence, rfl, rfl⟩, congrArg some hcutoff⟩

/-- Evidence that is not stale is not older than the last evidence. -/
theorem le_of_not_stale (hcutoff : evidence.cutoff = evidence.eventTime)
    (hremembers : old.lastAppliedEvidenceCutoff = some old.lastEvidenceAt)
    (h : isStaleCampaignEvidence old evidence = false) :
    old.lastEvidenceAt ≤ evidence.eventTime := by
  rw [isStaleCampaignEvidence, hremembers] at h
  have hlt := not_le.mp (of_decide_eq_false h)
  rw [← hcutoff]
  exact Prod.Lex.monotone_fst _ _ hlt.le

theorem head?_append_of_mem {α : Type*} {l l' : List α} {a : α} (h : a ∈ l.head?) :
    a ∈ (l ++ l').head? := by
  rw [List.head?_append, Option.mem_def.mp h]
  rfl

/-- A history goes on with a change of stage, if there is one. -/
theorem StagePath.move {stages : List CampaignStageHistoryModel} {first : CampaignEvidence}
    (h : StagePath stages first old.stage)
    (hassess : assess old.stage evidence.fusion = .ok assessment) :
    StagePath (stages ++ if assessment.nextStage ≠ old.stage then
        [stageHistoryRow old.campaignId (some old.stage) evidence assessment] else [])
      first (updatedCampaign old evidence assessment).stage := by
  have hmem : assessment.nextStage ∈ transitions old.stage := by
    rw [CampaignStateMachine.assess_eq_ok.mp hassess]
    exact CampaignStateMachine.nextStage_mem old.stage evidence.fusion
  obtain ⟨⟨row, hrow, hstart⟩, hmoves, last, hlast, hlaststage⟩ := h
  by_cases hstage : assessment.nextStage ≠ old.stage
  · rw [if_pos hstage]
    refine ⟨⟨row, head?_append_of_mem hrow, hstart⟩, ?_, ?_⟩
    · refine List.isChain_append.mpr ⟨hmoves, List.IsChain.singleton _, ?_⟩
      intro earlier hearlier later hlater
      obtain rfl : last = earlier := Option.some.inj (hlast.symm.trans hearlier)
      obtain rfl := Option.some.inj hlater
      rw [hlaststage]
      exact ⟨rfl, hmem⟩
    · exact ⟨_, List.getLast?_concat, (if_pos hstage).symm⟩
  · rw [if_neg hstage, List.append_nil]
    have hsame : (updatedCampaign old evidence assessment).stage = old.stage := if_neg hstage
    rw [hsame]
    exact ⟨⟨row, hrow, hstart⟩, hmoves, last, hlast, hlaststage⟩

/-- The values of a list and one more. -/
theorem image_concat {α β : Type*} (f : α → β) (l : List α) (a : α) :
    insert (f a) {b | ∃ x ∈ l, f x = b} = {b | ∃ x ∈ l ++ [a], f x = b} := by
  ext b
  simp only [Set.mem_insert_iff, Set.mem_ofPred_eq, List.mem_append, List.mem_singleton]
  constructor
  · rintro (rfl | ⟨x, hx, rfl⟩)
    · exact ⟨a, Or.inr rfl, rfl⟩
    · exact ⟨x, Or.inl hx, rfl⟩
  · rintro ⟨x, hx | rfl, rfl⟩
    · exact Or.inr ⟨x, hx, rfl⟩
    · exact Or.inl rfl

/-- Updating a campaign continues its ledger. -/
theorem Ledger.advance (h : Ledger repo applied t) (hcutoff : evidence.cutoff = evidence.eventTime)
    (hget : t.campaigns.get? old.campaignId = some old) (hactive : old.status = .active)
    (howner : old.scopeId = evidence.scopeId ∧ old.assetId = evidence.assetId)
    (hstale : isStaleCampaignEvidence old evidence = false)
    (hgap : ¬ repo.mergeGap < evidence.eventTime - old.lastEvidenceAt)
    (hassess : assess old.stage evidence.fusion = .ok assessment)
    (hcampaigns : t'.campaigns = t.campaigns.set old.campaignId
      (updatedCampaign old evidence assessment))
    (hstages : t'.stageHistory = t.stageHistory ++
      if assessment.nextStage ≠ old.stage then
        [stageHistoryRow old.campaignId (some old.stage) evidence assessment] else []) :
    Ledger repo (withApplied applied old.campaignId evidence) t' := by
  have hlaw := h.law _ _ hget
  obtain ⟨⟨last, hlast, hlasttime⟩, hlastcutoff⟩ := h.remembers _ _ hget hactive
  have hle := le_of_not_stale hcutoff hlastcutoff hstale
  have hmax : max old.lastEvidenceAt evidence.eventTime = evidence.eventTime := max_eq_right hle
  refine h.put (updatedCampaign old evidence assessment) _ hcampaigns hstages ?_
    (fun id hid => withApplied_of_ne hid) ?_ ?_ ?_
  · intro stage hstage
    split_ifs at hstage
    · rw [List.mem_singleton.mp hstage]
      rfl
    · exact absurd hstage List.not_mem_nil
  · intro _ id other hother hstatus hscope hasset
    exact h.active id other _ old hother hget hstatus hactive hscope hasset
  · show CampaignLaw repo _ (t.stagesOf old.campaignId ++ _)
      (withApplied applied old.campaignId evidence old.campaignId)
    rw [withApplied_self]
    refine ⟨?_, ?_, ?_, ?_, ?_, ?_⟩
    · intro other hother
      rcases List.mem_append.mp hother with hother | hother
      · exact hlaw.owner other hother
      · rw [List.mem_singleton.mp hother]
        exact ⟨howner.1.symm, howner.2.symm⟩
    · obtain ⟨first, hfirst, hpath⟩ := hlaw.path
      exact ⟨first, head?_append_of_mem hfirst, hpath.move hassess⟩
    · show IsGreatest _ (maxRisk old.maxSeverity evidence.fusion.severity)
      rw [CampaignStateMachine.maxRisk_eq_max, max_comm]
      rw [← image_concat (fun other : CampaignEvidence => other.fusion.severity)]
      exact hlaw.maxSeverity.insert _
    · show IsGreatest _ (max old.lastEvidenceAt evidence.eventTime)
      rw [max_comm]
      rw [← image_concat CampaignEvidence.eventTime]
      exact hlaw.lastEvidenceAt.insert _
    · show old.version + 1 = _
      rw [hlaw.version, List.length_append]
      show _ + 1 = _ + 1 + _
      rw [Nat.add_right_comm]
      rfl
    · refine List.isChain_append.mpr ⟨hlaw.gaps, List.IsChain.singleton _, ?_⟩
      intro earlier hearlier later hlater
      obtain rfl : last = earlier := Option.some.inj (hlast.symm.trans hearlier)
      obtain rfl : evidence = later := Option.some.inj hlater
      rw [hlasttime]
      exact ⟨hle, not_lt.mp hgap⟩
  · intro _
    show Remembers _ (withApplied applied old.campaignId evidence old.campaignId)
    rw [withApplied_self]
    refine ⟨⟨evidence, List.getLast?_concat, hmax.symm⟩, ?_⟩
    exact congrArg some (hcutoff.trans hmax.symm)

/-- Evidence that is placed is entered in the ledger. -/
theorem Ledger.placed (h : Ledger repo applied t) (hcutoff : evidence.cutoff = evidence.eventTime)
    (hstale : ∀ old ∈ t.selectActive evidence.scopeId evidence.assetId,
      isStaleCampaignEvidence old evidence = false)
    {row : CampaignModel} {stages : List CampaignStageHistoryModel}
    (hstages : t'.stageHistory = t.stageHistory ++ stages)
    (hplaced : Placed repo evidence t.campaigns
      (t.selectActive evidence.scopeId evidence.assetId) row t'.campaigns stages) :
    Ledger repo (withApplied applied row.campaignId evidence) t' := by
  generalize hactive : t.selectActive evidence.scopeId evidence.assetId = active at hplaced hstale
  generalize hcampaigns : t'.campaigns = campaigns at hplaced
  cases hplaced with
  | opened assessment hassess hfresh =>
    refine h.open hcutoff ?_ hassess hfresh hcampaigns hstages
    intro id other hother hstatus hscope hasset
    exact selectActive_eq_none hactive hother ⟨hscope, hasset, hstatus⟩
  | reopened old assessment hgap hassess hfresh =>
    obtain ⟨hget, hscope, hasset, hstatus⟩ := selectActive_eq_some h.keyed hactive
    refine (h.close hget hstatus).open hcutoff ?_ hassess hfresh hcampaigns hstages
    -- the only active campaign of the scope and the asset has just been closed
    intro id other hother hstatus' hscope' hasset'
    rw [OrderedDict.get?_set] at hother
    split_ifs at hother with hid
    · rw [← Option.some.inj hother] at hstatus'
      exact absurd hstatus' (by simp [closedCampaign])
    · exact hid (h.active id other _ old hother hget hstatus' hstatus (hscope'.trans hscope.symm)
        (hasset'.trans hasset.symm))
  | continued old assessment hgap hassess =>
    obtain ⟨hget, hscope, hasset, hstatus⟩ := selectActive_eq_some h.keyed hactive
    have hadvance : Ledger repo (withApplied applied old.campaignId evidence) t' :=
      h.advance hcutoff hget hstatus ⟨hscope, hasset⟩ (hstale old rfl) hgap hassess hcampaigns
        hstages
    exact hadvance

end Steps

/-! ## Runs -/

/-- **A call keeps the ledger**, with what it has applied. -/
theorem ledger_perform {trace : List Answer} (hcutoff : call.evidence.cutoff = call.evidence.eventTime)
    (h : Ledger repo (appliedTo trace) t) :
    Ledger repo (appliedTo (trace ++ [(call, (repo.perform call t).1)]))
      (repo.perform call t).2 := by
  rcases perform_cases repo call t with ⟨e, herror⟩ | ⟨update, t', hok, hstep⟩
  · rw [herror]
    exact h.congr rfl rfl fun id => by
      rw [appliedTo_concat, appliedBy_of_error]
      exact List.append_nil _
  · rw [hok]
    cases hstep with
    | duplicate prior campaign _ hprior hcampaign hupdate =>
      exact h.congr rfl rfl fun id => by
        rw [appliedTo_concat, appliedBy_of_isDuplicate hupdate]
        exact List.append_nil _
    | stale campaign _ hfresh hactive hstale hupdate =>
      exact h.congr rfl rfl fun id => by
        rw [appliedTo_concat, appliedBy_of_isStale hupdate]
        exact List.append_nil _
    | applied row _ _ happlied hupdate =>
      obtain ⟨stages, hstages, hplaced⟩ := happlied.placed
      have hplacedLedger := h.placed hcutoff happlied.notStale hstages hplaced
      refine hplacedLedger.congr rfl rfl fun id => ?_
      rw [appliedTo_concat, appliedBy_of_isApplied hupdate]
      rfl

/-- **The ledger of a run.** -/
theorem ledger_run (repo : SqlCampaignRepository) {calls : List Call}
    (hcutoff : ∀ call ∈ calls, call.evidence.cutoff = call.evidence.eventTime) :
    Ledger repo (appliedTo (traceAll repo.perform calls .empty))
      (runAll repo.perform calls .empty).2 :=
  traceAll_invariant (P := fun trace t => Ledger repo (appliedTo trace) t) (ledger_empty repo)
    fun call hcall _ _ h => ledger_perform (hcutoff call hcall) h

/-! ## Alerts of a run -/

/-- The triggers of an alert, in the evidence that has been applied to its campaign. -/
def triggersOf (applied : List CampaignEvidence) (alertType : AlertType) :
    List (Datetime × RiskLevel) :=
  applied.flatMap fun evidence =>
    ((CampaignStateMachine.alerts evidence.fusion).filter fun trigger =>
      decide (trigger.alertType = alertType)).map fun trigger =>
        (evidence.eventTime, trigger.severity)

/-- The triggers of an alert in a run. -/
def triggersBy (trace : List Answer) (id : AlertId) : List (Datetime × RiskLevel) :=
  triggersOf (appliedTo trace id.name.1) id.name.2

theorem triggersBy_concat (trace : List Answer) (answer : Answer) (id : AlertId) :
    triggersBy (trace ++ [answer]) id = triggersBy trace id ++
      triggersOf (appliedBy id.name.1 answer).toList id.name.2 := by
  rw [triggersBy, appliedTo_concat, triggersOf, List.flatMap_append]
  rfl

/-- The triggers of a score are those of the campaign that it is applied to. -/
theorem triggersIn_eq (campaign : CampaignModel) (evidence : CampaignEvidence) (id : AlertId) :
    triggersIn campaign evidence (CampaignStateMachine.alerts evidence.fusion) id =
      triggersOf (if campaign.campaignId = id.name.1 then some evidence else none).toList
        id.name.2 := by
  have hid : ∀ trigger : AlertTrigger, alertIdOf campaign trigger = id ↔
      campaign.campaignId = id.name.1 ∧ trigger.alertType = id.name.2 := by
    intro trigger
    constructor
    · rintro rfl
      exact ⟨rfl, rfl⟩
    · rintro ⟨hcampaign, htype⟩
      obtain ⟨name⟩ := id
      exact congrArg Uuid.mk (Prod.ext hcampaign htype)
  by_cases hcampaign : campaign.campaignId = id.name.1
  · rw [if_pos hcampaign, triggersIn]
    simp [triggersOf, hid, hcampaign]
  · rw [if_neg hcampaign, triggersIn]
    simp [triggersOf, hid, hcampaign]

theorem follows_of_outbox {triggers : AlertId → List (Datetime × RiskLevel)}
    (h : Follows repo triggers t) (halerts : t'.alerts = t.alerts)
    (hhistory : t'.alertHistory = t.alertHistory)
    (hevents : ∀ id, t'.alertEvents id = t.alertEvents id) : Follows repo triggers t' := by
  intro id
  have hhistoryOf : t'.alertHistoryOf id = t.alertHistoryOf id := by
    rw [Tables.alertHistoryOf, hhistory]
    rfl
  refine ⟨?_, ?_, ?_, ?_⟩
  · rw [halerts]
    exact (h id).row
  · rw [hhistoryOf]
    exact (h id).history
  · rw [hhistoryOf]
    exact (h id).reason
  · rw [hevents]
    exact (h id).events

/-- Events about campaigns leave the alerts where they are. -/
theorem Follows.announced {evidence : CampaignEvidence} {rows : List EventOutboxModel}
    {triggers : AlertId → List (Datetime × RiskLevel)} (h : Follows repo triggers t)
    (halerts : t'.alerts = t.alerts) (hhistory : t'.alertHistory = t.alertHistory)
    (houtbox : t'.outbox = t.outbox ++ rows) (hrows : AboutCampaigns evidence rows) :
    Follows repo triggers t' := by
  refine follows_of_outbox h halerts hhistory fun id => ?_
  rw [Tables.alertEvents, houtbox, alertEventsIn_append, alertEventsIn_of_aboutCampaigns id hrows,
    List.append_nil]
  rfl

/-- **A call keeps the alerts at their triggers.** -/
theorem follows_perform {trace : List Answer} (h : Follows repo (triggersBy trace) t) :
    Follows repo (triggersBy (trace ++ [(call, (repo.perform call t).1)]))
      (repo.perform call t).2 := by
  have hsame : ∀ outcome, (∀ id, appliedBy id (call, outcome) = none) →
      triggersBy (trace ++ [(call, outcome)]) = triggersBy trace := by
    intro outcome hnone
    funext id
    rw [triggersBy_concat, hnone]
    exact List.append_nil _
  rcases perform_cases repo call t with ⟨e, herror⟩ | ⟨update, t', hok, hstep⟩
  · rw [herror, hsame _ fun id => appliedBy_of_error e]
    exact h
  · rw [hok]
    cases hstep with
    | duplicate prior campaign _ hprior hcampaign hupdate =>
      rw [hsame _ fun id => appliedBy_of_isDuplicate hupdate]
      exact h
    | stale campaign _ hfresh hactive hstale hupdate =>
      rw [hsame _ fun id => appliedBy_of_isStale hupdate]
      exact follows_of_outbox h rfl rfl fun id => rfl
    | applied row _ _ happlied hupdate =>
      obtain ⟨mid, results, halerts, hhistory, ⟨rows, houtbox, hrows⟩, hloop, -⟩ :=
        happlied.raised
      have hall := follows_forEach (h.announced halerts hhistory houtbox hrows) hloop
      intro id
      have hid : FollowsAlert repo id (triggersBy trace id ++ triggersIn row call.evidence
          (CampaignStateMachine.alerts call.evidence.fusion) id) t' := hall id
      rw [triggersIn_eq] at hid
      show FollowsAlert repo id (triggersBy (trace ++ [(call, .ok update)]) id) t'
      rw [triggersBy_concat, appliedBy_of_isApplied hupdate]
      exact hid

/-- **The alerts of a run.** -/
theorem follows_run (repo : SqlCampaignRepository) (calls : List Call) :
    Follows repo (triggersBy (traceAll repo.perform calls .empty))
      (runAll repo.perform calls .empty).2 :=
  traceAll_invariant (P := fun trace t => Follows repo (triggersBy trace) t) (follows_empty repo)
    fun _ _ _ _ h => follows_perform h

end Campaigns
end Scam2Market
