import Scam2Market.Campaigns.Staleness

/-!
# Redelivery

A delivery that returned has recorded its evidence, so a repeated one is answered as a duplicate and
changes nothing.  A delivery that raised has recorded nothing, and the next one is the first.

* `firstDeliveries`: the calls of a run without the repeated ones.
* `recordedUnder`: the campaign of the first delivery that returned.
* `redelivery_run`: a run and the run of its first deliveries leave the same tables.
-/

namespace Scam2Market
namespace Campaigns

open Library (OrderedDict)
open Library.Procedure
open SqlCampaignRepository

/-! ## Repeated deliveries -/

/-- The delivery returned. -/
def returned (answer : Answer) : Bool :=
  answer.2.isOk

/-- The calls of a trace whose evidence has not been delivered before, when an answer counts as a
delivery if it satisfies `counts`. -/
def firstDeliveries (counts : Answer → Bool) : List String → List Answer → List Call
  | _, [] => []
  | seen, answer :: trace =>
    if answer.1.evidence.eventId ∈ seen then firstDeliveries counts seen trace
    else answer.1 :: firstDeliveries counts
      (if counts answer then answer.1.evidence.eventId :: seen else seen) trace

/-- The campaign that an answer has recorded evidence under. -/
def recordsUnder (key : String) (answer : Answer) : Option CampaignId :=
  match answer.2 with
  | .ok update =>
    if answer.1.evidence.eventId = key then some update.campaign.campaignId else none
  | .error _ => none

/-- The campaign that evidence was first recorded under. -/
def recordedUnder (trace : List Answer) (key : String) : Option CampaignId :=
  trace.findSome? (recordsUnder key)

variable {repo : SqlCampaignRepository} {call : Call} {t t' : Tables} {update : CampaignUpdate}

/-! ## One delivery -/

/-- Evidence that has been recorded changes nothing. -/
theorem perform_of_recorded (h : t.Recorded call.evidence.eventId) :
    (repo.perform call t).2 = t := by
  obtain ⟨row, hrow⟩ := h
  rcases perform_cases repo call t with ⟨e, herror⟩ | ⟨update, t', hok, hstep⟩
  · rw [herror]
  · rw [hok]
    cases hstep with
    | duplicate => rfl
    | stale campaign _ hfresh => exact absurd (hfresh.symm.trans hrow) (by simp)
    | applied other _ _ happlied => exact absurd (happlied.fresh.symm.trans hrow) (by simp)

/-- What a delivery that returned has recorded, and under which campaign. -/
theorem evidence_of_ok (h : ApplyStep repo call t update t')
    (hfresh : ¬ t.Recorded call.evidence.eventId) :
    ∃ campaignId, update.campaign.campaignId = campaignId ∧
      t'.evidence = t.evidence.set call.evidence.eventId (evidenceRow call.evidence campaignId) := by
  cases h with
  | duplicate prior campaign _ hprior => exact absurd ⟨prior, hprior⟩ hfresh
  | stale campaign _ _ _ _ hupdate =>
    obtain ⟨record, hrecord, rfl⟩ := hupdate
    exact ⟨campaign.campaignId, congrArg CampaignPayload.campaignId hrecord, rfl⟩
  | applied row _ _ happlied hupdate =>
    exact ⟨row.campaignId, congrArg CampaignPayload.campaignId hupdate.1, happlied.evidence_eq⟩

/-- The tables have recorded what the trace says. -/
def Remembered (trace : List Answer) (t : Tables) : Prop :=
  ∀ key, (t.evidence.get? key).map CampaignEvidenceModel.campaignId = recordedUnder trace key

theorem recordedUnder_concat (trace : List Answer) (answer : Answer) (key : String) :
    recordedUnder (trace ++ [answer]) key =
      (recordedUnder trace key).or (recordsUnder key answer) := by
  rw [recordedUnder, List.findSome?_append, recordedUnder, List.findSome?_singleton]

/-- A delivery keeps what has been recorded, and records its own evidence if that is new. -/
theorem remembered_perform {trace : List Answer} (h : Remembered trace t) :
    Remembered (trace ++ [(call, (repo.perform call t).1)]) (repo.perform call t).2 := by
  intro key
  rw [recordedUnder_concat, ← h key]
  by_cases hrecorded : t.Recorded call.evidence.eventId
  · rw [perform_of_recorded hrecorded]
    obtain ⟨row, hrow⟩ := hrecorded
    cases hkey : t.evidence.get? key with
    | some other => rfl
    | none =>
      have hne : call.evidence.eventId ≠ key := by
        rintro rfl
        exact absurd (hkey.symm.trans hrow) (by simp)
      rw [Option.map_none, Option.none_or, recordsUnder]
      cases (repo.perform call t).1 with
      | error e => rfl
      | ok update => exact (if_neg hne).symm
  · rcases perform_cases repo call t with ⟨e, herror⟩ | ⟨update, t', hok, hstep⟩
    · rw [herror]
      exact (Option.or_none).symm
    · obtain ⟨campaignId, hid, hevidence⟩ := evidence_of_ok hstep hrecorded
      rw [hok, hevidence, recordsUnder]
      by_cases hkey : call.evidence.eventId = key
      · subst hkey
        have hnone : t.evidence.get? call.evidence.eventId = none := by
          cases hget : t.evidence.get? call.evidence.eventId with
          | none => rfl
          | some row => exact absurd ⟨row, hget⟩ hrecorded
        rw [OrderedDict.get?_set_self, hnone, Option.map_none, Option.none_or]
        dsimp only
        rw [if_pos rfl, hid]
        rfl
      · rw [OrderedDict.get?_set_of_ne _ _ (Ne.symm hkey)]
        dsimp only
        rw [if_neg hkey, Option.or_none]

/-- **What a run has recorded.** -/
theorem remembered_run (repo : SqlCampaignRepository) (calls : List Call) :
    Remembered (traceAll repo.perform calls .empty) (runAll repo.perform calls .empty).2 :=
  traceAll_invariant (P := Remembered) (fun _ => rfl) fun _ _ _ _ h => remembered_perform h

/-! ## Runs without the repeated deliveries -/

/-- What is recorded after a delivery. -/
theorem recorded_perform_iff (key : String) :
    (repo.perform call t).2.Recorded key ↔ t.Recorded key ∨
      (returned (call, (repo.perform call t).1) = true ∧ key = call.evidence.eventId) := by
  by_cases hrecorded : t.Recorded call.evidence.eventId
  · rw [perform_of_recorded hrecorded]
    constructor
    · exact Or.inl
    · rintro (h | ⟨-, rfl⟩)
      · exact h
      · exact hrecorded
  · rcases perform_cases repo call t with ⟨e, herror⟩ | ⟨update, t', hok, hstep⟩
    · rw [herror]
      simp [returned, Except.isOk, Except.toBool]
    · obtain ⟨campaignId, -, hevidence⟩ := evidence_of_ok hstep hrecorded
      rw [hok]
      have hreturned : returned (call, .ok update) = true := rfl
      simp only [hreturned, true_and]
      rw [Tables.Recorded, hevidence, OrderedDict.get?_set]
      by_cases hkey : key = call.evidence.eventId
      · simp [hkey]
      · simp [hkey, Tables.Recorded]

/-- **The repeated deliveries can be left out.** -/
theorem runAll_firstDeliveries {seen : List String} (hseen : ∀ key, key ∈ seen ↔ t.Recorded key)
    (calls : List Call) :
    (runAll repo.perform (firstDeliveries returned seen (traceAll repo.perform calls t)) t).2 =
      (runAll repo.perform calls t).2 := by
  induction calls generalizing t seen with
  | nil => rfl
  | cons call calls ih =>
    rw [traceAll_cons, firstDeliveries]
    dsimp only
    by_cases hmem : call.evidence.eventId ∈ seen
    · rw [if_pos hmem, runAll_cons, perform_of_recorded ((hseen _).mp hmem)]
      exact ih hseen
    · rw [if_neg hmem, runAll_cons, runAll_cons]
      refine ih fun key => ?_
      rw [recorded_perform_iff, ← hseen]
      cases returned (call, (repo.perform call t).1) with
      | true => simp [or_comm]
      | false => simp

/-! ## Redelivery -/

/-- A repeated delivery: it is answered with the campaign that its evidence was first recorded
under if it gets the lock, and it changes nothing in any case. -/
structure Repeated (repo : SqlCampaignRepository) (earlier : List Call) (call : Call) : Prop where
  unchanged : (runAll repo.perform (earlier ++ [call]) .empty).2 =
    (runAll repo.perform earlier .empty).2
  answered : repo.getsLock call.granted = true → ∃ update campaign,
    (repo.perform call (runAll repo.perform earlier .empty).2).1 = .ok update ∧
      update.IsDuplicate campaign ∧
      (runAll repo.perform earlier .empty).2.campaigns.get? campaign.campaignId = some campaign ∧
      recordedUnder (traceAll repo.perform earlier .empty) call.evidence.eventId =
        some campaign.campaignId

/-- A delivery of recorded evidence that gets the lock is answered. -/
theorem answer_of_recorded (haccounted : Accounted t) {prior : CampaignEvidenceModel}
    (hprior : t.evidence.get? call.evidence.eventId = some prior)
    (hlock : repo.getsLock call.granted = true) :
    ∃ update campaign, repo.perform call t = (.ok update, t) ∧
      t.campaigns.get? prior.campaignId = some campaign ∧ update.IsDuplicate campaign := by
  obtain ⟨update, hanswer⟩ := answerDuplicate_returns haccounted hprior
  have hlocked : repo.applyLocked call.evidence call.now t = (.ok (.inl update), t) := by
    rw [applyLocked, reading_bind, hprior]
    exact map_of_ok hanswer
  have hblock : atomically (do
      repo.acquireLock call.evidence call.granted
      repo.applyLocked call.evidence call.now) t = (.ok (.inl update), t) :=
    atomically_of_ok (bind_eq_ok.mpr ⟨(), t, acquireLock_of_getsLock hlock, hlocked⟩)
  obtain ⟨-, campaign, hcampaign, hupdate⟩ := answerDuplicate_ok hanswer
  refine ⟨update, campaign, ?_, hcampaign, hupdate⟩
  rw [perform, apply, bind_of_ok hblock]
  rfl

theorem repeated_of_recordedUnder {earlier : List Call}
    (h : recordedUnder (traceAll repo.perform earlier .empty) call.evidence.eventId ≠ none) :
    Repeated repo earlier call := by
  have hremembered := remembered_run repo earlier call.evidence.eventId
  have haccounted := accounted_run repo earlier
  cases hprior : (runAll repo.perform earlier .empty).2.evidence.get? call.evidence.eventId with
  | none =>
    rw [hprior] at hremembered
    exact absurd hremembered.symm h
  | some prior =>
    rw [hprior] at hremembered
    refine ⟨?_, fun hlock => ?_⟩
    · rw [runAll_concat]
      exact perform_of_recorded ⟨prior, hprior⟩
    · obtain ⟨update, campaign, hok, hcampaign, hupdate⟩ :=
        answer_of_recorded haccounted hprior hlock
      have hid := haccounted.keyed _ campaign hcampaign
      refine ⟨update, campaign, congrArg Prod.fst hok, hupdate, ?_, ?_⟩
      · rw [hid]
        exact hcampaign
      · rw [← hremembered, hid]
        rfl

/-- **Redelivery.**  Without the deliveries whose evidence an earlier delivery that returned has
recorded, a run leaves the same tables, and each of these deliveries is answered as a duplicate. -/
theorem redelivery_run (repo : SqlCampaignRepository) (calls : List Call) :
    (runAll repo.perform
        (firstDeliveries returned [] (traceAll repo.perform calls .empty)) .empty).2 =
        (runAll repo.perform calls .empty).2 ∧
      ∀ earlier call later, calls = earlier ++ call :: later →
        recordedUnder (traceAll repo.perform earlier .empty) call.evidence.eventId ≠ none →
          Repeated repo earlier call := by
  refine ⟨runAll_firstDeliveries (fun key => ?_) calls, ?_⟩
  · refine iff_of_false List.not_mem_nil ?_
    rintro ⟨row, hrow⟩
    exact absurd hrow (by simp [Tables.empty])
  · intro earlier call later _ h
    exact repeated_of_recordedUnder h

/-- A score that is delivered while the lock is held by another session, and then once more. -/
def retriedCalls : List Call :=
  [{ evidence := windowEvidence "retried" (windowScore 60 60000000 none none .watch) 60000000
     granted := fun _ => false
     now := 60000000 },
    { evidence := windowEvidence "retried" (windowScore 60 60000000 none none .watch) 60000000
      granted := fun _ => true
      now := 61000000 }]

/-- **A delivery that raised must not be counted.**  The second delivery is not a duplicate: it opens
the campaign, which is missing when the delivery is left out. -/
theorem retried_delivery_opens :
    ((runAll ({} : SqlCampaignRepository).perform retriedCalls .empty).2.maxSeverityOf "LIVE"
        "asset" = some .watch ∧
      (runAll ({} : SqlCampaignRepository).perform
        (firstDeliveries (fun _ => true) []
          (traceAll ({} : SqlCampaignRepository).perform retriedCalls .empty)) .empty).2.maxSeverityOf
            "LIVE" "asset" = none) ∧
      ¬ ∀ calls, (runAll ({} : SqlCampaignRepository).perform
        (firstDeliveries (fun _ => true) []
          (traceAll ({} : SqlCampaignRepository).perform calls .empty)) .empty).2 =
        (runAll ({} : SqlCampaignRepository).perform calls .empty).2 := by
  have hboth : (runAll ({} : SqlCampaignRepository).perform retriedCalls .empty).2.maxSeverityOf
      "LIVE" "asset" = some .watch := by decide +kernel
  have hfirst : (runAll ({} : SqlCampaignRepository).perform
      (firstDeliveries (fun _ => true) []
        (traceAll ({} : SqlCampaignRepository).perform retriedCalls .empty)) .empty).2.maxSeverityOf
          "LIVE" "asset" = none := by decide +kernel
  refine ⟨⟨hboth, hfirst⟩, fun hall => ?_⟩
  rw [hall retriedCalls, hboth] at hfirst
  exact absurd hfirst (by decide)

end Campaigns
end Scam2Market
