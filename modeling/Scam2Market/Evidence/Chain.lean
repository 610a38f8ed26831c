import Scam2Market.Campaigns.AlertVersions
import Scam2Market.Evidence.Repository

/-!
# The chain of an alert

* `captureAlert_cases`: a capture changes nothing, or adds the snapshot of the version that the alert
  has now, linked to the newest snapshot of the alert.
* `Sealed`: the snapshots of every alert are a hash chain in the order of their versions.
* `chain_run`: captures that see non-decreasing versions keep the ledger sealed, a version that has
  been captured is not captured again, and the newest chain hash commits to all versions with their
  contents.
-/

namespace Scam2Market
namespace Evidence

open Campaigns (AlertId AlertModel DomainEvent alertLog)
open Library (Procedure)
open Library.HashChain (IsChain tip)
open Library.Procedure

variable {tables : Campaigns.Tables} {sources : EvidenceSources} {event : DomainEvent}
  {now : Datetime} {ledger : Ledger}

/-! ## What a capture does -/

/-- The alert that an event is about, as it is now. -/
def currentAlert (tables : Campaigns.Tables) (event : DomainEvent) : Option AlertModel :=
  (alertOf event).toOption.bind fun named => tables.alerts.get? named.1

/-- Every alert stands under its own id. -/
def AlertsKeyed (tables : Campaigns.Tables) : Prop :=
  ∀ id alert, tables.alerts.get? id = some alert → alert.alertId = id

/-- What a capture that returns has done. -/
inductive CaptureStep (tables : Campaigns.Tables) (sources : EvidenceSources) (event : DomainEvent)
    (now : Datetime) (ledger : Ledger) : SnapshotId → Ledger → Prop where
  | known (alert : AlertModel) (snapshot : EvidenceSnapshot)
      (hcurrent : currentAlert tables event = some alert)
      (hfound : ledger.find alert.alertId alert.version = some snapshot) :
      CaptureStep tables sources event now ledger snapshot.snapshotId ledger
  | added (alert : AlertModel) (source : EvidenceInput) (evidenceEventId : String)
      (evidence : Campaigns.CampaignEvidenceModel)
      (hcurrent : currentAlert tables event = some alert)
      (hnew : ledger.find alert.alertId alert.version = none)
      (hnamed : alertOf event = .ok (alert.alertId, evidenceEventId))
      (hevidence : tables.evidence.get? evidenceEventId = some evidence)
      (halertId : source.alertId = alert.alertId) (hversion : source.alertVersion = alert.version)
      (hsource : source.campaignEvidenceEventId = evidenceEventId)
      (hfusion : source.fusion = evidence.evidenceJson) :
      CaptureStep tables sources event now ledger
        (build source (ledger.lastChainHash alert.alertId) now).snapshotId
        (ledger ++ [build source (ledger.lastChainHash alert.alertId) now])

theorem addSnapshot_of_new {snapshot : EvidenceSnapshot}
    (h : ledger.find snapshot.alertId snapshot.alertVersion = none) :
    addSnapshot snapshot ledger = (.ok (), ledger ++ [snapshot]) := by
  unfold addSnapshot
  rw [reading_bind, h]
  rfl

/-- **What a capture does.**  It raises and changes nothing, or it takes one of the two steps. -/
theorem captureAlert_cases (hkeyed : AlertsKeyed tables) (sources : EvidenceSources)
    (event : DomainEvent) (now : Datetime) (ledger : Ledger) :
    (∃ e, captureAlert tables sources event now ledger = (.error e, ledger)) ∨
      ∃ id ledger', captureAlert tables sources event now ledger = (.ok id, ledger') ∧
        CaptureStep tables sources event now ledger id ledger' := by
  unfold captureAlert
  cases hnamed : alertOf event with
  | error e => exact Or.inl ⟨e, rfl⟩
  | ok named =>
    obtain ⟨alertId, evidenceEventId⟩ := named
    rw [bind_of_ok (ofExcept_apply _ _)]
    rcases atomically_cases (captureRow tables sources alertId evidenceEventId now) ledger with
      ⟨e, herror⟩ | ⟨id, ledger', hrow, hok⟩
    · exact Or.inl ⟨e, herror⟩
    · refine Or.inr ⟨id, ledger', hok, ?_⟩
      unfold captureRow at hrow
      cases halert : tables.alerts.get? alertId with
      | none =>
        rw [halert] at hrow
        exact absurd (congrArg Prod.fst hrow) (by simp)
      | some alert =>
        obtain rfl := hkeyed alertId alert halert
        have hcurrent : currentAlert tables event = some alert := by
          rw [currentAlert, hnamed]
          exact halert
        rw [halert] at hrow
        simp only [reading_bind] at hrow
        cases hfound : ledger.find alert.alertId alert.version with
        | some snapshot =>
          rw [hfound] at hrow
          obtain ⟨hid, rfl⟩ := Prod.mk.inj hrow
          obtain rfl : snapshot.snapshotId = id := Except.ok.inj hid
          exact .known alert snapshot hcurrent hfound
        | none =>
          rw [hfound] at hrow
          dsimp only at hrow
          cases hcampaign : tables.campaigns.get? alert.campaignId with
          | none =>
            rw [hcampaign] at hrow
            exact absurd (congrArg Prod.fst hrow) (by simp)
          | some campaign =>
            rw [hcampaign] at hrow
            dsimp only at hrow
            cases hevidence : tables.evidence.get? evidenceEventId with
            | none =>
              rw [hevidence] at hrow
              exact absurd (congrArg Prod.fst hrow) (by simp)
            | some evidence =>
              rw [hevidence] at hrow
              dsimp only at hrow
              rw [reading_bind] at hrow
              obtain ⟨u, mid, hadd, hpure⟩ := bind_eq_ok.mp hrow
              obtain ⟨hid, rfl⟩ := Prod.mk.inj hpure
              rw [addSnapshot_of_new hfound] at hadd
              obtain ⟨-, rfl⟩ := Prod.mk.inj hadd
              rw [← Except.ok.inj hid]
              exact .added alert _ evidenceEventId evidence hcurrent hfound hnamed hevidence rfl rfl
                rfl rfl

/-! ## Sealed ledgers -/

/-- A later version of an alert comes later. -/
def Increasing (rows : List EvidenceSnapshot) : Prop :=
  rows.Pairwise fun a b => a.alertVersion < b.alertVersion

/-- Among increasing versions the last one is the newest. -/
theorem newest_eq_getLast? {rows : List EvidenceSnapshot} (h : Increasing rows) :
    newest rows = rows.getLast? := by
  induction rows using List.reverseRecOn with
  | nil => rfl
  | append_singleton rows row ih =>
    obtain ⟨hinit, -, hlast⟩ := List.pairwise_append.mp h
    rw [newest, List.foldl_append, ← newest, ih hinit, List.getLast?_concat]
    cases htop : rows.getLast? with
    | none => rfl
    | some top =>
      exact if_pos (hlast top (List.mem_of_getLast? htop) row List.mem_cons_self)

/-- The snapshots of every alert are a hash chain in the order of their versions. -/
structure Sealed (ledger : Ledger) : Prop where
  increasing : ∀ id, Increasing (ledger.snapshotsOf id)
  chained : ∀ id, IsChain chainLink ((ledger.snapshotsOf id).map EvidenceSnapshot.block)

theorem sealed_nil : Sealed [] where
  increasing _ := List.Pairwise.nil
  chained _ := Library.HashChain.isChain_nil

/-- The newest chain hash is the tip of the chain. -/
theorem Sealed.lastChainHash_eq (h : Sealed ledger) (id : AlertId) :
    ledger.lastChainHash id =
      tip chainLink (((ledger.snapshotsOf id).map EvidenceSnapshot.block).map fun block =>
        block.entry) := by
  rw [Ledger.lastChainHash, newest_eq_getLast? (h.increasing id), (h.chained id).tip_eq,
    List.getLast?_map, Option.map_map]
  rfl

theorem snapshotsOf_concat (ledger : Ledger) (row : EvidenceSnapshot) (id : AlertId) :
    Ledger.snapshotsOf (ledger ++ [row]) id =
      ledger.snapshotsOf id ++ if row.alertId = id then [row] else [] := by
  rw [Ledger.snapshotsOf, List.filter_append, List.filter_singleton]
  simp [Ledger.snapshotsOf]

/-- A newer version that is linked to the newest snapshot keeps the ledger sealed. -/
theorem Sealed.add (h : Sealed ledger) {source : EvidenceInput} {id : AlertId}
    (hid : source.alertId = id) (now : Datetime)
    (hnewer : ∀ row ∈ ledger.snapshotsOf id, row.alertVersion < source.alertVersion) :
    Sealed (ledger ++ [build source (ledger.lastChainHash id) now]) := by
  subst hid
  constructor
  · intro other
    rw [snapshotsOf_concat]
    split_ifs with hother
    · obtain rfl : source.alertId = other := hother
      refine List.pairwise_append.mpr ⟨h.increasing _, List.pairwise_singleton _ _, ?_⟩
      intro row hrow new hnew
      rw [List.mem_singleton.mp hnew]
      exact hnewer row hrow
    · rw [List.append_nil]
      exact h.increasing other
  · intro other
    rw [snapshotsOf_concat]
    split_ifs with hother
    · obtain rfl : source.alertId = other := hother
      rw [List.map_append]
      exact (h.chained _).concat (h.lastChainHash_eq _) rfl
    · rw [List.append_nil]
      exact h.chained other

/-! ## Runs of captures -/

/-- A transaction of the worker: what it reads, and the event it handles. -/
structure Capture where
  tables : Campaigns.Tables
  sources : EvidenceSources
  event : DomainEvent
  now : Datetime
  keyed : AlertsKeyed tables

/-- `capture_alert(event)`. -/
def Capture.perform (capture : Capture) : Procedure Ledger PyError SnapshotId :=
  captureAlert capture.tables capture.sources capture.event capture.now

/-- The alert of a capture, as the capture reads it. -/
def Capture.alert? (capture : Capture) : Option AlertModel :=
  currentAlert capture.tables capture.event

/-- An alert does not go back to an earlier version. -/
def NonDecreasing (captures : List Capture) : Prop :=
  captures.Pairwise fun earlier later => ∀ a ∈ earlier.alert?, ∀ b ∈ later.alert?,
    a.alertId = b.alertId → a.version ≤ b.version

/-- The ledger after a list of captures. -/
def ledgerAfter (captures : List Capture) : Ledger :=
  (runAll Capture.perform captures []).2

/-- Every snapshot is that of a version that a capture has read. -/
def Captured (captures : List Capture) (ledger : Ledger) : Prop :=
  ∀ row ∈ ledger, ∃ capture ∈ captures, ∃ alert ∈ capture.alert?,
    alert.alertId = row.alertId ∧ alert.version = row.alertVersion

theorem find_eq_none {id : AlertId} {version : ℕ} (h : ledger.find id version = none) {row}
    (hmem : row ∈ ledger.snapshotsOf id) : row.alertVersion ≠ version := by
  obtain ⟨hledger, hid⟩ := List.mem_filter.mp hmem
  have hnot := List.find?_eq_none.mp h row hledger
  exact fun hversion => hnot (decide_eq_true ⟨of_decide_eq_true hid, hversion⟩)

/-- **A run of captures.** -/
theorem sealed_run {captures : List Capture} (h : NonDecreasing captures) :
    Sealed (ledgerAfter captures) ∧ Captured captures (ledgerAfter captures) := by
  induction captures using List.reverseRecOn with
  | nil => exact ⟨sealed_nil, fun row hrow => absurd hrow List.not_mem_nil⟩
  | append_singleton captures capture ih =>
    obtain ⟨hinit, -, hlast⟩ := List.pairwise_append.mp h
    obtain ⟨hsealed, hcaptured⟩ := ih hinit
    have hmono : Captured (captures ++ [capture]) (ledgerAfter captures) := by
      intro row hrow
      obtain ⟨earlier, hearlier, hrest⟩ := hcaptured row hrow
      exact ⟨earlier, List.mem_append_left _ hearlier, hrest⟩
    have hafter : ledgerAfter (captures ++ [capture]) =
        (capture.perform (ledgerAfter captures)).2 := runAll_concat _ _ _
    rw [hafter]
    rcases captureAlert_cases capture.keyed capture.sources capture.event capture.now
      (ledgerAfter captures) with ⟨e, herror⟩ | ⟨id, ledger', hok, hstep⟩
    · rw [Capture.perform, herror]
      exact ⟨hsealed, hmono⟩
    · rw [Capture.perform, hok]
      cases hstep with
      | known => exact ⟨hsealed, hmono⟩
      | added alert source evidenceEventId evidence hcurrent hnew hnamed hevidence halertId
          hversion =>
        constructor
        · refine hsealed.add halertId capture.now fun row hrow => ?_
          obtain ⟨hledger, hid⟩ := List.mem_filter.mp hrow
          obtain ⟨earlier, hearlier, old, hold, holdId, holdVersion⟩ := hcaptured row hledger
          have hle : old.version ≤ alert.version :=
            hlast earlier hearlier capture List.mem_cons_self old hold alert hcurrent
              (holdId.trans (of_decide_eq_true hid))
          rw [hversion]
          exact lt_of_le_of_ne (holdVersion ▸ hle) (find_eq_none hnew hrow)
        · intro row hrow
          rcases List.mem_append.mp hrow with hrow | hrow
          · exact hmono row hrow
          · rw [List.mem_singleton.mp hrow]
            exact ⟨capture, List.mem_append_right _ List.mem_cons_self, alert, hcurrent,
              halertId.symm, hversion.symm⟩

/-! ## The law of the chain -/

/-- The snapshots of an alert: versions increase, one snapshot has no predecessor, and every other one
is linked to the one with the next lower version. -/
structure ChainLaw (rows : List EvidenceSnapshot) : Prop where
  increasing : Increasing rows
  first : rows ≠ [] → (rows.filter fun row => row.previousChainHash.isNone).length = 1
  linked : ∀ row ∈ rows, row.previousChainHash ≠ none →
    ∃ lower ∈ rows, row.previousChainHash = some lower.chainHash ∧
      lower.alertVersion < row.alertVersion ∧
      ∀ other ∈ rows, other.alertVersion < row.alertVersion →
        other.alertVersion ≤ lower.alertVersion

theorem Sealed.chainLaw (h : Sealed ledger) (id : AlertId) : ChainLaw (ledger.snapshotsOf id) := by
  have hincreasing := h.increasing id
  have hchained := h.chained id
  generalize ledger.snapshotsOf id = rows at hincreasing hchained
  have hsorted : (rows.map EvidenceSnapshot.block).Pairwise fun a b => a.entry.1 < b.entry.1 :=
    List.pairwise_map.mpr hincreasing
  have hblock : ∀ {row}, row ∈ rows → row.block ∈ rows.map EvidenceSnapshot.block :=
    fun hrow => List.mem_map_of_mem hrow
  refine ⟨hincreasing, fun hne => ?_, fun row hrow hsome => ?_⟩
  · obtain ⟨row, rest, rfl⟩ := List.exists_cons_of_ne_nil hne
    obtain ⟨hlater, -⟩ := List.pairwise_cons.mp hincreasing
    have hfirst : row.previousChainHash = none := by
      refine (hchained.previous_eq_none_iff hsorted
        (hblock List.mem_cons_self)).mpr fun other hother => ?_
      obtain ⟨found, hfound, rfl⟩ := List.mem_map.mp hother
      rcases List.mem_cons.mp hfound with rfl | hfound
      · exact le_rfl
      · exact (hlater found hfound).le
    have hrest : rest.filter (fun row => row.previousChainHash.isNone) = [] := by
      refine List.filter_eq_nil_iff.mpr fun other hother hnone => ?_
      have hleast := (hchained.previous_eq_none_iff hsorted
        (hblock (List.mem_cons_of_mem _ hother))).mp (Option.isNone_iff_eq_none.mp hnone)
      exact absurd (hlater other hother) (not_lt.mpr (hleast _ (hblock List.mem_cons_self)))
    rw [List.filter_cons_of_pos (by simp [hfirst]), hrest, List.length_singleton]
  · obtain ⟨hash, hprevious⟩ := Option.ne_none_iff_exists'.mp hsome
    obtain ⟨lower, hlower, hhash, hlt, hnext⟩ :=
      hchained.exists_lower hsorted (hblock hrow) hprevious
    obtain ⟨found, hfound, rfl⟩ := List.mem_map.mp hlower
    refine ⟨found, hfound, ?_, hlt, fun other hother => hnext other.block (hblock hother)⟩
    rw [hprevious, ← hhash]
    rfl

/-- The newest chain hash commits to the versions and the contents. -/
theorem Sealed.entries_eq {ledger' : Ledger} (h : Sealed ledger) (h' : Sealed ledger')
    {id id' : AlertId} (hhash : ledger.lastChainHash id = ledger'.lastChainHash id') :
    (ledger.snapshotsOf id).map (fun row => (row.alertVersion, row.content)) =
      (ledger'.snapshotsOf id').map fun row => (row.alertVersion, row.content) := by
  rw [h.lastChainHash_eq, h'.lastChainHash_eq] at hhash
  have hentries := Library.HashChain.tip_injective chainLink_injective hhash
  rw [List.map_map, List.map_map] at hentries
  exact hentries

/-- A version that has been captured is not captured again. -/
theorem perform_of_known (capture : Capture) {alert : AlertModel} {snapshot : EvidenceSnapshot}
    (halert : capture.alert? = some alert)
    (hfound : ledger.find alert.alertId alert.version = some snapshot) :
    capture.perform ledger = (.ok snapshot.snapshotId, ledger) := by
  unfold Capture.alert? currentAlert at halert
  unfold Capture.perform captureAlert
  cases hnamed : alertOf capture.event with
  | error e =>
    rw [hnamed] at halert
    cases halert
  | ok named =>
    obtain ⟨alertId, evidenceEventId⟩ := named
    rw [hnamed] at halert
    replace halert : capture.tables.alerts.get? alertId = some alert := halert
    obtain rfl := capture.keyed alertId alert halert
    have hrow : captureRow capture.tables capture.sources alert.alertId evidenceEventId capture.now
        ledger = (.ok snapshot.snapshotId, ledger) := by
      unfold captureRow
      rw [halert]
      dsimp only
      rw [reading_bind, hfound]
      rfl
    rw [bind_of_ok (ofExcept_apply _ _)]
    exact atomically_of_ok hrow

/-- **The chain of a ledger.**  Captures that see non-decreasing versions of an alert leave one chain
of its snapshots; a version that has been captured is not captured again; and two ledgers with the same
newest chain hash have the same versions with the same contents. -/
theorem chain_run {captures captures' : List Capture} (h : NonDecreasing captures)
    (h' : NonDecreasing captures') :
    (∀ id, ChainLaw ((ledgerAfter captures).snapshotsOf id)) ∧
      (∀ capture : Capture, ∀ alert ∈ capture.alert?,
        ∀ snapshot ∈ (ledgerAfter captures).find alert.alertId alert.version,
          capture.perform (ledgerAfter captures) =
            (.ok snapshot.snapshotId, ledgerAfter captures)) ∧
      ∀ id id', (ledgerAfter captures).lastChainHash id = (ledgerAfter captures').lastChainHash id' →
        ((ledgerAfter captures).snapshotsOf id).map (fun row => (row.alertVersion, row.content)) =
          ((ledgerAfter captures').snapshotsOf id').map
            fun row => (row.alertVersion, row.content) :=
  ⟨(sealed_run h).1.chainLaw, fun capture _ halert _ hfound => perform_of_known capture halert hfound,
    fun _ _ hhash => (sealed_run h).1.entries_eq (sealed_run h').1 hhash⟩

/-! ## Two versions of one alert -/

/-- The alerts of the campaign repository stand under their own ids. -/
theorem alertsKeyed_of_follows {repo : Campaigns.SqlCampaignRepository}
    {triggers : AlertId → List (Datetime × Intelligence.RiskLevel)}
    (h : Campaigns.Follows repo triggers tables) : AlertsKeyed tables := by
  intro id alert hget
  obtain ⟨alarm, hstanding⟩ := h.standing hget
  exact hstanding.alertId

theorem alertsKeyed_run (repo : Campaigns.SqlCampaignRepository)
    (calls : List Campaigns.SqlCampaignRepository.Call) :
    AlertsKeyed (runAll repo.perform calls .empty).2 :=
  alertsKeyed_of_follows (Campaigns.follows_run repo calls)

/-- A score with coordinated promotion, at the end of the given minute. -/
def promotionCall (minute : ℤ) : Campaigns.SqlCampaignRepository.Call where
  evidence := Campaigns.windowEvidence s!"promotion-{minute}"
    (Campaigns.windowScore 60 (timedeltaSeconds (60 * minute)) none (some 0.6) .watch)
    (timedeltaSeconds (60 * minute))
  granted := fun _ => true
  now := timedeltaSeconds (60 * minute)

/-- The tables after scores of promotion. -/
def promoted (minutes : List ℤ) : Campaigns.Tables :=
  (runAll ({} : Campaigns.SqlCampaignRepository).perform (minutes.map promotionCall) .empty).2

/-- The capture of the last of the alert events after scores of promotion. -/
def promotionCapture (minutes : List ℤ) (h : (alertLog (promoted minutes)) ≠ []) : Capture where
  tables := promoted minutes
  sources := .empty
  event := (alertLog (promoted minutes)).getLast h
  now := 0
  keyed := alertsKeyed_run _ _

/-- The first two versions of an alert. -/
def promotionCaptures : List Capture :=
  [promotionCapture [1] (List.ne_nil_of_length_pos (by decide +kernel)),
    promotionCapture [1, 11] (List.ne_nil_of_length_pos (by decide +kernel))]

theorem chain_run_promotion :
    NonDecreasing promotionCaptures ∧ (ledgerAfter promotionCaptures).length = 2 ∧
      ∀ id, ChainLaw ((ledgerAfter promotionCaptures).snapshotsOf id) := by
  have hversions : promotionCaptures.map (fun capture => capture.alert?.map AlertModel.version) =
      [some 1, some 2] := by decide +kernel
  have hmono : NonDecreasing promotionCaptures := by
    have hversion : ∀ {capture : Capture} {n : ℕ},
        capture.alert?.map AlertModel.version = some n → ∀ a ∈ capture.alert?, a.version = n := by
      intro capture n hmap a ha
      rw [Option.mem_def.mp ha] at hmap
      exact Option.some.inj hmap
    obtain ⟨hfirst, hrest⟩ := List.cons.inj hversions
    refine List.pairwise_pair.mpr fun a ha b hb _ => ?_
    rw [hversion hfirst a ha, hversion (List.cons.inj hrest).1 b hb]
    omega
  exact ⟨hmono, by decide +kernel, (chain_run hmono hmono).1⟩

end Evidence
end Scam2Market
