import Scam2Market.Campaigns.Totality
import Scam2Market.Evidence.Chain

/-!
# Which evidence a snapshot holds

The worker of the evidence ledger runs beside the campaign repository.  It handles the alert events in
any order and any number of times; `InOrder` is the order of a consumer that does not skip events.

* `Produced`: the application of an evidence has produced a version of an alert.
* `Attributed`: every snapshot holds the evidence that produced its version, and every event that was
  handled has a snapshot that refers to its evidence.
* `UpToDate`: when an event is handled, the alert has the version that the event carries, or that
  version and the version of the alert have been captured before.
* `attributed_iff`: a run is attributed throughout if and only if every event is handled up to date.
-/

namespace Scam2Market
namespace Evidence

open Campaigns (AlertId AlertModel AlertRecord AlertStateHistoryModel CampaignEvidence DomainEvent
  DomainPayload RecordedFor SqlCampaignRepository Tables Tells alertLog)
open Campaigns.SqlCampaignRepository (Call)
open Library (Procedure)
open Library.Procedure

/-! ## Runs of the repository and the worker -/

/-- The tables, the ledger, and the events that have been handled. -/
structure System where
  tables : Tables
  ledger : Ledger
  handled : List DomainEvent

def System.initial : System :=
  ⟨.empty, [], []⟩

/-- A transaction of the campaign repository, or the handling of the alert event at an index of the
topic. -/
inductive Step where
  | apply (call : Call)
  | handle (index : ℕ) (sources : EvidenceSources) (now : Datetime)

/-- Take a step.  Handling an event that raises leaves it to be delivered again. -/
def System.step (repo : SqlCampaignRepository) (system : System) : Step → System
  | .apply call => { system with tables := (repo.perform call system.tables).2 }
  | .handle index sources now =>
    match (alertLog system.tables)[index]? with
    | none => system
    | some event =>
      match handleEvent system.tables sources event now system.ledger with
      | (.ok _, ledger) => { system with ledger := ledger, handled := system.handled ++ [event] }
      | (.error _, ledger) => { system with ledger := ledger }

/-- The system after a list of steps. -/
def System.after (repo : SqlCampaignRepository) (steps : List Step) : System :=
  steps.foldl (System.step repo) .initial

/-- An event is handled after the events before it. -/
def InOrder (steps : List Step) : Prop :=
  ∀ earlier index sources now later, steps = earlier ++ .handle index sources now :: later →
    ∀ i < index, ∃ sources' now', .handle i sources' now' ∈ earlier

/-! ## Attribution -/

/-- The application of an evidence has produced a version of an alert. -/
def Produced (repo : SqlCampaignRepository) (steps : List Step) (id : AlertId) (version : ℕ)
    (evidence : CampaignEvidence) : Prop :=
  ∃ earlier call later, steps = earlier ++ .apply call :: later ∧ call.evidence = evidence ∧
    (System.after repo earlier).tables.versionOf id < version ∧
    version ≤ (System.after repo (earlier ++ [.apply call])).tables.versionOf id

/-- A snapshot refers to an evidence of a campaign. -/
def EvidenceSnapshot.RefersTo (snapshot : EvidenceSnapshot) (evidenceEventId : String) : Prop :=
  ∃ reference ∈ snapshot.references, reference.evidenceType = "CAMPAIGN_EVIDENCE" ∧
    reference.evidenceId = .text evidenceEventId

/-- Every snapshot holds the evidence that produced its version, and every handled event has a snapshot
that refers to its evidence. -/
structure Attributed (repo : SqlCampaignRepository) (steps : List Step) : Prop where
  snapshots : ∀ snapshot ∈ (System.after repo steps).ledger, ∃ evidence,
    Produced repo steps snapshot.alertId snapshot.alertVersion evidence ∧
      snapshot.content.campaignEvidenceEventId = evidence.eventId ∧
      snapshot.content.fusion = evidence.fusion
  handled : ∀ event ∈ (System.after repo steps).handled, ∀ id evidenceEventId,
    alertOf event = .ok (id, evidenceEventId) →
      ∃ snapshot ∈ (System.after repo steps).ledger, snapshot.alertId = id ∧
        snapshot.RefersTo evidenceEventId

/-- The alert has the version that the event carries, or the ledger has both versions. -/
def Timely (tables : Tables) (ledger : Ledger) (event : DomainEvent) : Prop :=
  ∀ record scopeId assetId stage reason evidenceEventId,
    event.payload = .alert record scopeId assetId stage reason evidenceEventId →
      let version := tables.versionOf record.alertId
      version = record.version ∨
        ((ledger.find record.alertId version).isSome = true ∧
          (ledger.find record.alertId record.version).isSome = true)

/-- An event that the step handles is timely. -/
def System.UpToDate (system : System) : Step → Prop
  | .apply _ => True
  | .handle index _ _ =>
    ∀ event ∈ (alertLog system.tables)[index]?, Timely system.tables system.ledger event

/-! ## What the tables of a run say -/

variable {repo : SqlCampaignRepository} {steps later : List Step} {step : Step} {id : AlertId}
  {version : ℕ} {evidence : CampaignEvidence}

theorem after_concat (repo : SqlCampaignRepository) (steps : List Step) (step : Step) :
    System.after repo (steps ++ [step]) = (System.after repo steps).step repo step := by
  rw [System.after, List.foldl_append, List.foldl_cons, List.foldl_nil, System.after]

/-- Handling an event does not touch the tables. -/
theorem tables_handle (system : System) (index : ℕ) (sources : EvidenceSources) (now : Datetime) :
    (system.step repo (.handle index sources now)).tables = system.tables := by
  unfold System.step
  dsimp only
  cases (alertLog system.tables)[index]? with
  | none => rfl
  | some event =>
    dsimp only
    rcases handleEvent system.tables sources event now system.ledger with ⟨outcome | outcome, ledger⟩
    · rfl
    · rfl

theorem Produced.append (h : Produced repo steps id version evidence) (later : List Step) :
    Produced repo (steps ++ later) id version evidence := by
  obtain ⟨earlier, call, rest, rfl, hrest⟩ := h
  exact ⟨earlier, call, rest ++ later, by rw [List.append_assoc, List.cons_append], hrest⟩

/-- The tables of a run: what the alert events tell, and which evidence each version comes from. -/
structure Traceable (repo : SqlCampaignRepository) (steps : List Step) : Prop where
  follows : ∃ trace, Campaigns.Follows repo (Campaigns.triggersBy trace)
    (System.after repo steps).tables
  accounted : Campaigns.Accounted (System.after repo steps).tables
  tells : ∀ event ∈ alertLog (System.after repo steps).tables,
    Tells (System.after repo steps).tables event
  distinct : Campaigns.DistinctEvidence (System.after repo steps).tables
  produced : ∀ id k row, ((System.after repo steps).tables.alertHistoryOf id)[k]? = some row →
    ∃ evidence, Produced repo steps id (k + 1) evidence ∧ row.evidenceEventId = evidence.eventId ∧
      RecordedFor evidence id.name.1 (System.after repo steps).tables

theorem Traceable.versionOf_eq (h : Traceable repo steps) (id : AlertId) :
    (System.after repo steps).tables.versionOf id =
      ((System.after repo steps).tables.alertHistoryOf id).length := by
  obtain ⟨trace, hfollows⟩ := h.follows
  exact Campaigns.versionOf_eq hfollows id

theorem Traceable.keyed (h : Traceable repo steps) :
    AlertsKeyed (System.after repo steps).tables := by
  obtain ⟨trace, hfollows⟩ := h.follows
  exact alertsKeyed_of_follows hfollows

/-- A call of the repository. -/
theorem Traceable.apply (h : Traceable repo steps) (call : Call) :
    Traceable repo (steps ++ [.apply call]) := by
  obtain ⟨trace, hfollows⟩ := h.follows
  obtain ⟨campaignId, htraced, hrecorded, hkept⟩ :=
    Campaigns.traced_perform hfollows h.tells h.distinct
  have hfollows' : Campaigns.Follows repo (Campaigns.triggersBy
      (trace ++ [(call, (repo.perform call (System.after repo steps).tables).1)]))
      (repo.perform call (System.after repo steps).tables).2 := Campaigns.follows_perform hfollows
  have hafter : (System.after repo (steps ++ [.apply call])).tables =
      (repo.perform call (System.after repo steps).tables).2 := by
    rw [after_concat]
    rfl
  have hversion : ∀ id, (System.after repo (steps ++ [.apply call])).tables.versionOf id =
      ((System.after repo (steps ++ [.apply call])).tables.alertHistoryOf id).length := fun id => by
    rw [hafter]
    exact Campaigns.versionOf_eq hfollows' id
  refine ⟨⟨_, hafter ▸ hfollows'⟩, ?_, ?_, ?_, fun id k row hrow => ?_⟩
  · rw [hafter]
    exact Campaigns.accounted_perform h.accounted
  · rw [hafter]
    exact htraced.tells
  · rw [hafter]
    exact htraced.distinct
  · obtain ⟨rows, hrows, habout⟩ := htraced.grown id
    have hlength := hversion id
    rw [hafter] at hrow hlength ⊢
    rw [hrows] at hrow
    by_cases hold : k < ((System.after repo steps).tables.alertHistoryOf id).length
    · rw [List.getElem?_append_left hold] at hrow
      obtain ⟨evidence, hproduced, hid, stored, hstored, hrest⟩ := h.produced id k row hrow
      exact ⟨evidence, hproduced.append _, hid, stored, hkept _ _ hstored, hrest⟩
    · have hbound : k < (((repo.perform call (System.after repo steps).tables).2).alertHistoryOf
          id).length := by
        rw [hrows]
        exact (List.getElem?_eq_some_iff.mp hrow).1
      rw [List.getElem?_append_right (not_lt.mp hold)] at hrow
      obtain ⟨hid, hcampaign⟩ := habout row (List.mem_of_getElem? hrow)
      refine ⟨call.evidence, ⟨steps, call, [], rfl, rfl, ?_, ?_⟩, hid, ?_⟩
      · rw [h.versionOf_eq]
        omega
      · rw [hafter, hlength]
        omega
      · rcases hrecorded with hsame | hrecorded
        · rw [hsame] at hbound
          exact absurd hbound hold
        · rw [hcampaign]
          exact hrecorded

theorem traceable (repo : SqlCampaignRepository) (steps : List Step) : Traceable repo steps := by
  induction steps using List.reverseRecOn with
  | nil =>
    exact ⟨⟨[], Campaigns.follows_empty repo⟩, Campaigns.accounted_empty,
      fun event hevent => absurd hevent List.not_mem_nil, fun id => List.nodup_nil,
      fun id k row hrow => absurd hrow (by simp [System.after, System.initial,
        Tables.alertHistoryOf, Tables.empty])⟩
  | append_singleton steps step ih =>
    cases step with
    | apply call => exact ih.apply call
    | handle index sources now =>
      have hafter : (System.after repo (steps ++ [.handle index sources now])).tables =
          (System.after repo steps).tables := by
        rw [after_concat, tables_handle]
      refine ⟨?_, ?_, ?_, ?_, ?_⟩
      all_goals rw [hafter]
      · exact ih.follows
      · exact ih.accounted
      · exact ih.tells
      · exact ih.distinct
      · intro id k row hrow
        obtain ⟨evidence, hproduced, hrest⟩ := ih.produced id k row hrow
        exact ⟨evidence, hproduced.append _, hrest⟩

/-! ## What an attributed ledger holds -/

/-- A snapshot holds the evidence of the row of its version. -/
def Holds (tables : Tables) (snapshot : EvidenceSnapshot) : Prop :=
  ∃ k row stored, snapshot.alertVersion = k + 1 ∧
    (tables.alertHistoryOf snapshot.alertId)[k]? = some row ∧
    snapshot.content.campaignEvidenceEventId = row.evidenceEventId ∧
    tables.evidence.get? row.evidenceEventId = some stored ∧
    snapshot.content.fusion = stored.evidenceJson

/-- Every snapshot has been built, and holds the evidence of its version. -/
def Sound (tables : Tables) (ledger : Ledger) : Prop :=
  ∀ snapshot ∈ ledger, (∃ source previous now, snapshot = build source previous now) ∧
    Holds tables snapshot

/-- The version that an event names has been captured. -/
def Covered (ledger : Ledger) (event : DomainEvent) : Prop :=
  ∀ record scopeId assetId stage reason evidenceEventId,
    event.payload = .alert record scopeId assetId stage reason evidenceEventId →
      (ledger.find record.alertId record.version).isSome = true

/-- The ledger holds what it should, for every event that has been handled. -/
structure System.Consistent (system : System) : Prop where
  sound : Sound system.tables system.ledger
  tells : ∀ event ∈ system.handled, Tells system.tables event
  covered : ∀ event ∈ system.handled, Covered system.ledger event

theorem find_some {ledger : Ledger} {snapshot : EvidenceSnapshot}
    (h : ledger.find id version = some snapshot) :
    snapshot ∈ ledger ∧ snapshot.alertId = id ∧ snapshot.alertVersion = version :=
  ⟨List.mem_of_find?_eq_some h, by simpa using List.find?_some h⟩

theorem find_append_isSome {ledger rows : Ledger} (h : (ledger.find id version).isSome = true) :
    (Ledger.find (ledger ++ rows) id version).isSome = true := by
  obtain ⟨snapshot, hfound⟩ := Option.isSome_iff_exists.mp h
  rw [Ledger.find, List.find?_append, ← Ledger.find, hfound]
  rfl

/-- A snapshot refers to the evidence of its content. -/
theorem refersTo_build {source : EvidenceInput} {previous : Option ChainHash} {now : Datetime}
    {evidenceEventId : String} : (build source previous now).RefersTo evidenceEventId ↔
      source.campaignEvidenceEventId = evidenceEventId := by
  constructor
  · rintro ⟨reference, hmem, htype, hid⟩
    have hmem : reference ∈ references source := hmem
    simp only [references, List.mem_append, List.mem_cons, List.not_mem_nil, or_false,
      Option.mem_toList, Option.map_eq_some_iff, List.mem_map] at hmem
    rcases hmem with (((rfl | ⟨_, -, rfl⟩) | ⟨_, -, rfl⟩) | ⟨_, -, rfl⟩) | ⟨_, -, rfl⟩
    · exact EvidenceId.text.inj hid
    all_goals exact absurd htype (by simp)
  · rintro rfl
    exact ⟨_, List.mem_cons_self, rfl, rfl⟩

/-- A run whose ledger is consistent is attributed. -/
theorem attributed_of_consistent (h : (System.after repo steps).Consistent) :
    Attributed repo steps := by
  have htrace := traceable repo steps
  refine ⟨fun snapshot hsnapshot => ?_, fun event hevent id evidenceEventId hnamed => ?_⟩
  · obtain ⟨-, k, row, stored, hversion, hrow, hcontent, hstored, hfusion⟩ :=
      h.sound snapshot hsnapshot
    obtain ⟨evidence, hproduced, heventId, found, hfound, hjson, -⟩ := htrace.produced _ k row hrow
    obtain rfl : stored = found := by
      rw [heventId, hfound] at hstored
      exact (Option.some.inj hstored).symm
    exact ⟨evidence, hversion ▸ hproduced, hcontent.trans heventId, hfusion.trans hjson⟩
  · obtain ⟨-, record, scopeId, assetId, stage, reason, k, row, hpayload, hversion, hrow⟩ :=
      h.tells event hevent
    rw [alertOf, hpayload] at hnamed
    obtain ⟨rfl, rfl⟩ := Prod.mk.inj (Except.ok.inj hnamed)
    obtain ⟨snapshot, hfound⟩ :=
      Option.isSome_iff_exists.mp (h.covered event hevent _ _ _ _ _ _ hpayload)
    obtain ⟨hsnapshot, hid, hnumber⟩ := find_some hfound
    refine ⟨snapshot, hsnapshot, hid, ?_⟩
    obtain ⟨⟨source, previous, now, rfl⟩, k', row', stored, hversion', hrow', hcontent, -⟩ :=
      h.sound snapshot hsnapshot
    obtain rfl : k' = k := by omega
    rw [hid, hrow] at hrow'
    obtain rfl := Option.some.inj hrow'
    exact refersTo_build.mpr hcontent

/-! ## Steps -/

theorem Holds.grow {tables tables' : Tables} {snapshot : EvidenceSnapshot} {eventId : String}
    {campaignId : Campaigns.CampaignId} (h : Holds tables snapshot)
    (hgrown : Campaigns.Extends eventId campaignId tables tables')
    (hkept : ∀ key row, tables.evidence.get? key = some row →
      tables'.evidence.get? key = some row) : Holds tables' snapshot := by
  obtain ⟨k, row, stored, hversion, hrow, hcontent, hstored, hfusion⟩ := h
  exact ⟨k, row, stored, hversion, hgrown.getElem? hrow, hcontent, hkept _ _ hstored, hfusion⟩

/-- A call of the repository leaves the ledger, and what the tables have said stays true. -/
theorem consistent_apply (h : (System.after repo steps).Consistent) (call : Call) :
    (System.after repo (steps ++ [.apply call])).Consistent := by
  have htrace := traceable repo steps
  obtain ⟨trace, hfollows⟩ := htrace.follows
  obtain ⟨campaignId, htraced, -, hkept⟩ :=
    Campaigns.traced_perform hfollows htrace.tells htrace.distinct
  rw [after_concat]
  exact ⟨fun snapshot hsnapshot =>
      ⟨(h.sound snapshot hsnapshot).1, (h.sound snapshot hsnapshot).2.grow htraced.grown hkept⟩,
    fun event hevent => (h.tells event hevent).extend htraced.grown, h.covered⟩

section Handling

variable {tables : Tables} {ledger ledger' : Ledger} {sources : EvidenceSources} {event : DomainEvent}
  {now : Datetime} {alert : AlertModel} {record : AlertRecord}
  {scopeId assetId reason evidenceEventId : String} {stage : Campaigns.CampaignStage}
  {snapshotId : SnapshotId}

/-- An event that tells a version is captured. -/
theorem handleEvent_of_tells (h : Tells tables event) (sources : EvidenceSources) (now : Datetime) :
    handleEvent tables sources event now = (do
      let snapshotId ← captureAlert tables sources event now
      return some snapshotId) := by
  have htype := h.1
  simp only [Campaigns.alertEventTypes, List.mem_cons, List.not_mem_nil, or_false] at htype
  exact if_pos htype

/-- The alert of an event is the row that its version is read from. -/
theorem versionOf_currentAlert (hkeyed : AlertsKeyed tables)
    (hpayload : event.payload = .alert record scopeId assetId stage reason evidenceEventId)
    (hcurrent : currentAlert tables event = some alert) :
    alert.alertId = record.alertId ∧ tables.versionOf record.alertId = alert.version := by
  rw [currentAlert, alertOf, hpayload] at hcurrent
  have hget : tables.alerts.get? record.alertId = some alert := hcurrent
  exact ⟨hkeyed _ _ hget, by rw [Tables.versionOf, hget]; rfl⟩

/-- The capture of a timely event keeps the ledger sound, and captures the version of the event. -/
theorem CaptureStep.sound (hstep : CaptureStep tables sources event now ledger snapshotId ledger')
    (hkeyed : AlertsKeyed tables) (htells : Tells tables event) (htimely : Timely tables ledger event)
    (h : Sound tables ledger) :
    Sound tables ledger' ∧ Covered ledger' event ∧ ∃ rows, ledger' = ledger ++ rows := by
  obtain ⟨-, record, scopeId, assetId, stage, reason, k, row, hpayload, hversion, hrow⟩ := htells
  have hready := htimely _ _ _ _ _ _ hpayload
  have hcovered : ∀ {rows : Ledger}, (rows.find record.alertId record.version).isSome = true →
      Covered rows event := by
    intro rows hfound record' _ _ _ _ _ hpayload'
    rw [hpayload] at hpayload'
    exact (DomainPayload.alert.inj hpayload').1 ▸ hfound
  cases hstep with
  | known alert snapshot hcurrent hfound =>
    obtain ⟨hid, hcurrentVersion⟩ := versionOf_currentAlert hkeyed hpayload hcurrent
    refine ⟨h, hcovered ?_, [], (List.append_nil _).symm⟩
    rcases hready with hsame | ⟨-, hcaptured⟩
    · rw [← hsame, hcurrentVersion, ← hid, hfound]
      rfl
    · exact hcaptured
  | added alert source evidenceEventId evidence hcurrent hnew hnamed hevidence halertId hnumber
      hsource hfusion =>
    obtain ⟨hid, hcurrentVersion⟩ := versionOf_currentAlert hkeyed hpayload hcurrent
    have hsame : alert.version = record.version := by
      rw [← hcurrentVersion]
      refine hready.resolve_right fun hboth => ?_
      rw [hcurrentVersion, ← hid, hnew] at hboth
      exact absurd hboth.1 (by simp)
    rw [alertOf, hpayload] at hnamed
    obtain ⟨-, rfl⟩ := Prod.mk.inj (Except.ok.inj hnamed)
    refine ⟨fun snapshot hsnapshot => ?_, hcovered ?_, _, rfl⟩
    · rcases List.mem_append.mp hsnapshot with hsnapshot | hsnapshot
      · exact h snapshot hsnapshot
      · rw [List.mem_singleton.mp hsnapshot]
        refine ⟨⟨source, _, now, rfl⟩, k, row, evidence, ?_, ?_, hsource, hevidence, hfusion⟩
        · exact (hnumber.trans hsame).trans hversion
        · show (tables.alertHistoryOf source.alertId)[k]? = _
          rw [halertId, hid, hrow]
    · rw [Ledger.find, List.find?_append, Option.isSome_or, Bool.or_eq_true]
      right
      rw [List.find?_singleton, if_pos]
      · rfl
      · exact decide_eq_true ⟨halertId.trans hid, hnumber.trans hsame⟩

end Handling

/-- The handling of a timely event. -/
theorem consistent_handle (h : (System.after repo steps).Consistent) {index : ℕ}
    {sources : EvidenceSources} {now : Datetime}
    (hupToDate : (System.after repo steps).UpToDate (.handle index sources now)) :
    (System.after repo (steps ++ [.handle index sources now])).Consistent := by
  have htrace := traceable repo steps
  rw [after_concat]
  unfold System.step
  dsimp only
  cases hevent : (alertLog (System.after repo steps).tables)[index]? with
  | none => exact h
  | some event =>
    have htells := htrace.tells event (List.mem_of_getElem? hevent)
    dsimp only
    rw [handleEvent_of_tells htells]
    rcases captureAlert_cases htrace.keyed sources event now (System.after repo steps).ledger with
      ⟨e, herror⟩ | ⟨snapshotId, ledger', hok, hstep⟩
    · rw [bind_of_error herror]
      exact ⟨h.sound, h.tells, h.covered⟩
    · rw [bind_of_ok hok]
      obtain ⟨hsound, hcovered, rows, hrows⟩ :=
        hstep.sound htrace.keyed htells (hupToDate event hevent) h.sound
      refine ⟨hsound, fun other hother => ?_, fun other hother => ?_⟩
      · rcases List.mem_append.mp hother with hother | hother
        · exact h.tells other hother
        · exact List.mem_singleton.mp hother ▸ htells
      · rcases List.mem_append.mp hother with hother | hother
        · intro record _ _ _ _ _ hpayload
          have hold := h.covered other hother _ _ _ _ _ _ hpayload
          exact hrows ▸ find_append_isSome hold
        · exact List.mem_singleton.mp hother ▸ hcovered

/-! ## The converse -/

/-- What a history has recorded stays in its place. -/
theorem history_append {k : ℕ} {row : AlertStateHistoryModel}
    (h : ((System.after repo steps).tables.alertHistoryOf id)[k]? = some row) (later : List Step) :
    ((System.after repo (steps ++ later)).tables.alertHistoryOf id)[k]? = some row := by
  induction later using List.reverseRecOn with
  | nil => rwa [List.append_nil]
  | append_singleton later step ih =>
    rw [← List.append_assoc, after_concat]
    cases step with
    | handle index sources now => rwa [tables_handle]
    | apply call =>
      have htrace := traceable repo (steps ++ later)
      obtain ⟨trace, hfollows⟩ := htrace.follows
      obtain ⟨campaignId, htraced, -⟩ :=
        Campaigns.traced_perform hfollows htrace.tells htrace.distinct
      exact htraced.grown.getElem? ih

/-- The row of a version names the evidence that has produced it. -/
theorem Produced.row (h : Produced repo steps id version evidence) :
    ∃ row, ((System.after repo steps).tables.alertHistoryOf id)[version - 1]? = some row ∧
      row.evidenceEventId = evidence.eventId := by
  obtain ⟨earlier, call, later, rfl, rfl, hbefore, hafter⟩ := h
  have htrace := traceable repo earlier
  obtain ⟨trace, hfollows⟩ := htrace.follows
  obtain ⟨campaignId, htraced, -⟩ :=
    Campaigns.traced_perform hfollows htrace.tells htrace.distinct
  obtain ⟨rows, hrows, habout⟩ := htraced.grown id
  rw [htrace.versionOf_eq] at hbefore
  have hlength := (traceable repo (earlier ++ [.apply call])).versionOf_eq id
  rw [hlength, after_concat] at hafter
  have hbound : version - 1 < (((System.after repo earlier).step repo
      (.apply call)).tables.alertHistoryOf id).length := by omega
  obtain ⟨row, hrow⟩ : ∃ row, (((System.after repo earlier).step repo
      (.apply call)).tables.alertHistoryOf id)[version - 1]? = some row :=
    ⟨_, List.getElem?_eq_getElem hbound⟩
  refine ⟨row, ?_, (habout row ?_).1⟩
  · rw [← after_concat] at hrow
    simpa using history_append hrow later
  · have hrow' : (((repo.perform call (System.after repo earlier).tables).2).alertHistoryOf
        id)[version - 1]? = some row := hrow
    rw [hrows, List.getElem?_append_right (by omega)] at hrow'
    exact List.mem_of_getElem? hrow'

/-- A version is known by its evidence. -/
theorem Traceable.index_eq (h : Traceable repo steps) {k k' : ℕ} {row row' : AlertStateHistoryModel}
    (hrow : ((System.after repo steps).tables.alertHistoryOf id)[k]? = some row)
    (hrow' : ((System.after repo steps).tables.alertHistoryOf id)[k']? = some row')
    (hsame : row.evidenceEventId = row'.evidenceEventId) : k = k' := by
  refine (List.getElem?_inj ?_ (h.distinct id)).mp ?_
  · rw [List.length_map]
    exact (List.getElem?_eq_some_iff.mp hrow).1
  · rw [List.getElem?_map, List.getElem?_map, hrow, hrow', Option.map_some, Option.map_some, hsame]

/-- The capture of an emitted event does not raise. -/
theorem Traceable.captureAlert_ok (h : Traceable repo steps) {event : DomainEvent}
    (htells : Tells (System.after repo steps).tables event) (sources : EvidenceSources)
    (now : Datetime) (ledger : Ledger) : ∃ snapshotId ledger',
      captureAlert (System.after repo steps).tables sources event now ledger =
        (.ok snapshotId, ledger') := by
  obtain ⟨-, record, scopeId, assetId, stage, reason, k, row, hpayload, -, hrow⟩ := htells
  obtain ⟨trace, hfollows⟩ := h.follows
  obtain ⟨evidence, -, hid, stored, hstored, -, hcampaignId⟩ := h.produced _ k row hrow
  rw [← hid] at hstored
  obtain ⟨campaign, hcampaign⟩ := h.accounted.evidence _ stored hstored
  obtain ⟨alert, halert⟩ : ∃ alert,
      (System.after repo steps).tables.alerts.get? record.alertId = some alert := by
    have hpositive := (List.getElem?_eq_some_iff.mp hrow).1
    rw [← h.versionOf_eq, Tables.versionOf] at hpositive
    cases hget : (System.after repo steps).tables.alerts.get? record.alertId with
    | none =>
      rw [hget] at hpositive
      exact absurd hpositive (Nat.not_lt_zero k)
    | some alert => exact ⟨alert, rfl⟩
  obtain ⟨alarm, hstanding⟩ := hfollows.standing halert
  have hown : (System.after repo steps).tables.campaigns.get? alert.campaignId = some campaign := by
    rw [hstanding.campaignId, ← hcampaignId, hcampaign]
  have hnamed : alertOf event = .ok (record.alertId, row.evidenceEventId) := by
    rw [alertOf, hpayload]
  suffices hrow : ∃ snapshotId ledger', captureRow (System.after repo steps).tables sources
      record.alertId row.evidenceEventId now ledger = (.ok snapshotId, ledger') by
    obtain ⟨snapshotId, ledger', hrow⟩ := hrow
    refine ⟨snapshotId, ledger', ?_⟩
    rw [captureAlert, hnamed, bind_of_ok (ofExcept_apply _ _)]
    exact atomically_of_ok hrow
  unfold captureRow
  rw [halert]
  dsimp only
  rw [reading_bind]
  cases hfound : ledger.find record.alertId alert.version with
  | some snapshot => exact ⟨_, _, rfl⟩
  | none =>
    rw [hown, hstored]
    dsimp only
    rw [reading_bind]
    rw [← hstanding.alertId] at hfound
    have hadd : addSnapshot (build (evidenceInput sources alert campaign row.evidenceEventId stored)
        (ledger.lastChainHash record.alertId) now) ledger = (.ok (), _) := addSnapshot_of_new hfound
    exact ⟨_, _, bind_of_ok hadd⟩

/-- What comes of an event that is not timely is not attributed. -/
theorem timely_of_attributed (h : (System.after repo steps).Consistent) {index : ℕ}
    {sources : EvidenceSources} {now : Datetime}
    (hattributed : Attributed repo (steps ++ [.handle index sources now])) :
    (System.after repo steps).UpToDate (.handle index sources now) := by
  intro event hevent record scopeId assetId stage reason evidenceEventId hpayload
  have htrace := traceable repo steps
  have htells := htrace.tells event (List.mem_of_getElem? hevent)
  obtain ⟨snapshotId, ledger', hok⟩ :=
    htrace.captureAlert_ok htells sources now (System.after repo steps).ledger
  have hhandle : handleEvent (System.after repo steps).tables sources event now
      (System.after repo steps).ledger = (.ok (some snapshotId), ledger') := by
    rw [handleEvent_of_tells htells, bind_of_ok hok]
    rfl
  have hafter : System.after repo (steps ++ [.handle index sources now]) =
      ⟨(System.after repo steps).tables, ledger', (System.after repo steps).handled ++ [event]⟩ := by
    rw [after_concat, System.step, Option.mem_def.mp hevent]
    dsimp only
    rw [hhandle]
  have hnext := traceable repo (steps ++ [.handle index sources now])
  have hstep : CaptureStep (System.after repo steps).tables sources event now
      (System.after repo steps).ledger snapshotId ledger' := by
    rcases captureAlert_cases htrace.keyed sources event now (System.after repo steps).ledger with
      ⟨e, herror⟩ | ⟨snapshotId', ledger'', hok', hstep⟩
    · rw [herror] at hok
      exact absurd (congrArg Prod.fst hok) (by simp)
    · rw [hok] at hok'
      obtain ⟨hsame, rfl⟩ := Prod.mk.inj hok'
      obtain rfl := Except.ok.inj hsame
      exact hstep
  obtain ⟨-, record', _, _, _, _, k, row, hpayload', hversion, hrow⟩ := htells
  obtain ⟨rfl, -, -, -, -, rfl⟩ := DomainPayload.alert.inj (hpayload'.symm.trans hpayload)
  cases hstep with
  | known alert snapshot hcurrent hfound =>
    obtain ⟨hid, hcurrentVersion⟩ := versionOf_currentAlert htrace.keyed hpayload hcurrent
    refine Or.inr ⟨by rw [hcurrentVersion, ← hid, hfound]; rfl, ?_⟩
    -- the handled event has a snapshot, and its evidence is that of no other version
    obtain ⟨found, hmem, hfoundId, hrefers⟩ := hattributed.handled event
      (by rw [hafter]; exact List.mem_append_right _ List.mem_cons_self) record'.alertId
      row.evidenceEventId (by rw [alertOf, hpayload])
    rw [hafter] at hmem
    obtain ⟨⟨source, previous, time, rfl⟩, k', row', stored, hversion', hrow', hcontent, -⟩ :=
      h.sound found hmem
    rw [hfoundId] at hrow'
    have hindex := htrace.index_eq hrow hrow' ((refersTo_build.mp hrefers).symm.trans hcontent)
    rw [Ledger.find, List.find?_isSome]
    exact ⟨_, hmem, decide_eq_true ⟨hfoundId, by rw [hversion', hversion, hindex]⟩⟩
  | added alert source evidenceEventId evidence hcurrent hnew hnamed hevidence halertId hnumber
      hsource hfusion =>
    obtain ⟨hid, hcurrentVersion⟩ := versionOf_currentAlert htrace.keyed hpayload hcurrent
    refine Or.inl ?_
    rw [alertOf, hpayload] at hnamed
    obtain ⟨-, rfl⟩ := Prod.mk.inj (Except.ok.inj hnamed)
    -- the snapshot holds the evidence of the event, which produced the version of the event
    obtain ⟨produced, hproduced, hcontent, -⟩ := hattributed.snapshots
      (build source ((System.after repo steps).ledger.lastChainHash alert.alertId) now)
      (by rw [hafter]; exact List.mem_append_right _ List.mem_cons_self)
    obtain ⟨row', hrow', hproducedId⟩ := hproduced.row
    have hcontent : source.campaignEvidenceEventId = produced.eventId := hcontent
    have hrow'' : ((System.after repo (steps ++ [.handle index sources now])).tables.alertHistoryOf
        record'.alertId)[source.alertVersion - 1]? = some row' := by
      rw [← hid, ← halertId]
      exact hrow'
    have hindex := hnext.index_eq (by rw [hafter]; exact hrow) hrow''
      (hsource.symm.trans (hcontent.trans hproducedId.symm))
    have hpositive : 0 < alert.version := by
      obtain ⟨trace, hfollows⟩ := htrace.follows
      have hlength := (List.getElem?_eq_some_iff.mp hrow).1
      rw [← htrace.versionOf_eq, hcurrentVersion] at hlength
      omega
    rw [hcurrentVersion, hversion, hindex]
    omega

/-! ## Runs -/

/-- In a run that handles every event in time the ledger is consistent. -/
theorem consistent_run (h : ∀ earlier step later, steps = earlier ++ step :: later →
    (System.after repo earlier).UpToDate step) : (System.after repo steps).Consistent := by
  induction steps using List.reverseRecOn with
  | nil =>
    exact ⟨fun _ hsnapshot => absurd hsnapshot List.not_mem_nil,
      fun _ hevent => absurd hevent List.not_mem_nil,
      fun _ hevent => absurd hevent List.not_mem_nil⟩
  | append_singleton steps step ih =>
    have hconsistent := ih fun earlier step' later hsplit =>
      h earlier step' (later ++ [step]) (by rw [hsplit, List.append_assoc, List.cons_append])
    cases step with
    | apply call => exact consistent_apply hconsistent call
    | handle index sources now => exact consistent_handle hconsistent (h steps _ [] rfl)

/-- **Attribution.**  Throughout a run the snapshots hold the evidence of their versions and the
handled events have their snapshots, if and only if every event is handled in time. -/
theorem attributed_iff (repo : SqlCampaignRepository) (steps : List Step) :
    (∀ earlier later, steps = earlier ++ later → Attributed repo earlier) ↔
      ∀ earlier step later, steps = earlier ++ step :: later →
        (System.after repo earlier).UpToDate step := by
  constructor
  · intro h
    induction steps using List.reverseRecOn with
    | nil =>
      intro earlier step later hsplit
      exact absurd hsplit (by simp)
    | append_singleton steps step ih =>
      have hinit := ih fun earlier later hsplit =>
        h earlier (later ++ [step]) (by rw [hsplit, List.append_assoc])
      refine Library.forall_split_concat hinit ?_
      cases step with
      | apply call => trivial
      | handle index sources now =>
        exact timely_of_attributed (consistent_run hinit)
          (h _ [] (List.append_nil _).symm)
  · intro h earlier later hsplit
    refine attributed_of_consistent (consistent_run fun earlier' step rest hsplit' => ?_)
    exact h earlier' step (rest ++ later) (by rw [hsplit, hsplit', List.append_assoc, List.cons_append])

/-- Two updates of an alert before the worker handles their events. -/
def lateSteps : List Step :=
  [.apply (promotionCall 1), .apply (promotionCall 11), .handle 0 .empty 0, .handle 1 .empty 0]

/-- The events are handled in order, the snapshot of the second version holds the evidence of the
first, and the second event has no snapshot of its own. -/
theorem late_events_misattributed :
    ¬∀ repo steps, InOrder steps → Attributed repo steps := by
  intro h
  have horder : InOrder lateSteps := by
    intro earlier index sources now later hsplit i hi
    rcases earlier with _ | ⟨_, _ | ⟨_, _ | ⟨_, _ | ⟨_, _⟩⟩⟩⟩
    all_goals simp [lateSteps] at hsplit
    · omega
    · obtain ⟨rfl, rfl, rfl, ⟨rfl, rfl, rfl⟩, rfl⟩ := hsplit
      obtain rfl : i = 0 := by omega
      exact ⟨.empty, 0, by simp⟩
  have hhandled : (System.after {} lateSteps).handled.map (fun event => (alertOf event).toOption.map
      Prod.snd) = [some "promotion-1", some "promotion-11"] := by decide +kernel
  have hreferences : ∀ snapshot ∈ (System.after {} lateSteps).ledger,
      ∀ reference ∈ snapshot.references, reference.evidenceId ≠ .text "promotion-11" := by
    decide +kernel
  obtain ⟨event, hevent, hnamed⟩ := List.mem_map.mp
    (hhandled ▸ List.mem_cons_of_mem _ List.mem_cons_self :
      some "promotion-11" ∈ (System.after {} lateSteps).handled.map fun event =>
        (alertOf event).toOption.map Prod.snd)
  cases hof : alertOf event with
  | error e =>
    rw [hof] at hnamed
    cases hnamed
  | ok named =>
    obtain ⟨id, evidenceEventId⟩ := named
    rw [hof] at hnamed
    obtain rfl : evidenceEventId = "promotion-11" := Option.some.inj hnamed
    obtain ⟨snapshot, hsnapshot, -, reference, hreference, -, hid⟩ :=
      (h {} lateSteps horder).handled event hevent id _ hof
    exact hreferences snapshot hsnapshot reference hreference hid

end Evidence
end Scam2Market
