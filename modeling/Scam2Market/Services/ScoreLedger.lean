import Scam2Market.Library.Runs
import Scam2Market.Services.ScoreDelivery

/-!
# The online score and the ledger

Calls of `DetectionService.score`, one after the other.  The rows of `model_scores` are the ledger:
the first result of an idempotency key is kept.  The online state is overwritten by every call.

* `ScoreCall`: a call, and what the threat repository answers during it.
* `OnlineAgrees`: what is online is, up to the instant it was scored at, the row of its key.
* `KeyTells`: the key of a call tells the inputs that the result records, and the instant is not
  another score's of the asset.  `KeyTellsFeatures`: it tells the features of the snapshot.
* `online_agrees`: the first condition is necessary, and both together are enough.

The key names a snapshot of the threat context only if there is one.  A feed that cannot be relied on
has none, so two calls of one key may find it unavailable and then stale.
-/

namespace Scam2Market
namespace Services

open Features (FeatureSnapshot WindowKey)
open Intelligence (FusionEngine FusionFields FusionInputs FusionResult ScoreIdentity ThreatContext)
open Library (Always Procedure Throughout Violation)
open Library.Procedure

/-! ## Calls -/

/-- A call of `score`, the instant it is made at, and the answer of the threat repository to it. -/
structure ScoreCall where
  arguments : ScoreArguments
  now : Datetime
  answer : String → String → Datetime → Bool → ℤ → ThreatContext

/-- The inputs of a call that its result records. -/
structure RecordedInputs where
  evidenceCutoff : Option Datetime
  claimRisk : Option ℚ
  legitimateEventScore : Option ℚ
  graphScore : Option ℚ
  threatContext : ThreatContext

/-- The inputs that a result records. -/
def recordedInputs (result : FusionResult) : RecordedInputs where
  evidenceCutoff := result.evidenceCutoff
  claimRisk := result.claimRisk
  legitimateEventScore := result.legitimateEventScore
  graphScore := result.graphScore
  threatContext := result.threatContext

namespace ScoreCall

variable (service : DetectionService) (call : ScoreCall)

/-- The service, with its threat repository as it is during the call. -/
def serving : DetectionService :=
  { service with threatRepository := service.threatRepository.map fun _ _ => call.answer }

/-- The result of the call, before anything is stored. -/
def scored : Except PyError FusionResult :=
  (call.serving service).scored call.arguments call.now

/-- The idempotency key. -/
def key : Digest ScoreIdentity :=
  ⟨{  scopeId := call.arguments.snapshot.scopeId
      assetId := call.arguments.snapshot.assetId
      featureWindowId := call.arguments.snapshot.featureWindowId
      featureRevision := call.arguments.snapshot.revision
      enrichmentProfile := (DetectionService.fusionInputs call.arguments).enrichment.1
      inputSnapshotIds :=
        ((call.serving service).inputSnapshotIds call.arguments call.now).entries.insertionSort
          fun a b => a.1 ≤ b.1
      fusionPolicyVersion := "fusion-policy-v1" }⟩

/-- The threat context that the call works with. -/
def context : ThreatContext :=
  ((call.serving service).resolveThreat call.arguments call.now).getD {}

/-- The inputs that a result of the call records. -/
def inputs : RecordedInputs where
  evidenceCutoff := some call.arguments.snapshot.windowEnd
  claimRisk := call.arguments.claimRisk
  legitimateEventScore := call.arguments.legitimateEventScore
  graphScore := call.arguments.graphScore
  threatContext := call.context service

/-- Make the call, when nothing fails. -/
def score : Procedure ScoreStores PyError FusionResult :=
  deliver (call.serving service) call.arguments { now := call.now }

end ScoreCall

/-- Two results differ in the instant they were scored at only. -/
def SameScore (row result : FusionResult) : Prop :=
  { row.toFusionFields with scoredAt := result.scoredAt } = result.toFusionFields

/-- What is online is the row of its key, up to the instant it was scored at. -/
def OnlineAgrees (stores : ScoreStores) : Prop :=
  ∀ scopeId assetId result,
    stores.online.get? (scopedScoreKey scopeId assetId) = some (.score result) →
      ∃ row ∈ stores.tables.modelScores,
        row.idempotencyKey = result.idempotencyKey ∧ SameScore row result

/-- The calls so far, and what they have left behind. -/
structure ScoreHistory where
  calls : List ScoreCall
  stores : ScoreStores

namespace ScoreHistory

/-- No call yet; the windows that may be scored are there. -/
def initial (featureWindows : List (Uuid WindowKey)) : ScoreHistory where
  calls := []
  stores :=
    { tables :=
        { featureWindows := featureWindows
          modelScores := []
          marketRegimes := []
          liquidityClasses := .empty }
      online := .empty
      published := [] }

variable (service : DetectionService) (history : ScoreHistory) (call : ScoreCall)

/-- One more call. -/
def after : ScoreHistory where
  calls := history.calls ++ [call]
  stores := (call.score service history.stores).2

/-- The call returns. -/
def Returned : Prop :=
  ∃ result, (call.score service history.stores).1 = .ok result

/-- The earlier calls of the key had the inputs of this one; and if the score is not in the ledger,
no regime of the asset has been recorded at the instant. -/
def KeyTells : Prop :=
  (∀ earlier ∈ history.calls, earlier.key service = call.key service →
    earlier.inputs service = call.inputs service) ∧
  (history.stores.tables.records (call.key service) = false →
    history.stores.tables.hasRegime call.arguments.snapshot.assetId call.now = false)

/-- The earlier calls of the key had a snapshot with the features of this one. -/
def KeyTellsFeatures : Prop :=
  ∀ earlier ∈ history.calls, earlier.key service = call.key service →
    earlier.arguments.snapshot.features = call.arguments.snapshot.features

end ScoreHistory

/-! ## What the inputs determine -/

theorem detectorOutputs_congr {s t : FeatureSnapshot} (h : s.features = t.features) :
    Intelligence.detectorOutputs s = Intelligence.detectorOutputs t := by
  simp only [Intelligence.detectorOutputs, Intelligence.marketAnomaly, Intelligence.socialSurge,
    Intelligence.coordinationHeuristic, Intelligence.temporalLeadLag, h]

/-- Of a snapshot, fusing reads what it is a revision of, its end and its features. -/
theorem fusionFields_congr (engine : FusionEngine) {inputs inputs' : FusionInputs}
    {context : ThreatContext} {components : List Intelligence.TraceComponent} {now now' : Datetime}
    (hscope : inputs.snapshot.scopeId = inputs'.snapshot.scopeId)
    (hasset : inputs.snapshot.assetId = inputs'.snapshot.assetId)
    (hwindow : inputs.snapshot.featureWindowId = inputs'.snapshot.featureWindowId)
    (hrevision : inputs.snapshot.revision = inputs'.snapshot.revision)
    (hend : inputs.snapshot.windowEnd = inputs'.snapshot.windowEnd)
    (hfeatures : inputs.snapshot.features = inputs'.snapshot.features)
    (hrest : { inputs with snapshot := inputs'.snapshot } = inputs') :
    { engine.fusionFields inputs context components now with scoredAt := now' } =
      engine.fusionFields inputs' context components now' := by
  rw [← hrest]
  obtain ⟨⟨⟨⟩⟩⟩ := inputs
  obtain ⟨⟨⟨⟩⟩⟩ := inputs'
  dsimp only at hscope hasset hwindow hrevision hend hfeatures
  subst hscope hasset hwindow hrevision hend hfeatures
  rfl

theorem traceComponents_congr (engine : FusionEngine) {inputs inputs' : FusionInputs}
    (hrest : { inputs with snapshot := inputs'.snapshot } = inputs') :
    engine.traceComponents inputs = engine.traceComponents inputs' := by
  rw [← hrest]
  rfl

/-- The ids that are known among those of a graph, of a verification and of a threat context. -/
def knownIds (graph verification threat : Option String) : List (String × String) :=
  [("graph_snapshot_id", graph), ("verification_snapshot_id", verification),
    ("threat_snapshot_id", threat)].filterMap fun item => item.2.map fun value => (item.1, value)

theorem mem_knownIds {graph verification threat : Option String} {name value : String} :
    (name, value) ∈ knownIds graph verification threat ↔
      (name = "graph_snapshot_id" ∧ graph = some value) ∨
        (name = "verification_snapshot_id" ∧ verification = some value) ∨
          (name = "threat_snapshot_id" ∧ threat = some value) := by
  simp [knownIds, List.mem_filterMap, and_comm, eq_comm]

theorem entries_knownIds (graph verification threat : Option String) :
    (Library.OrderedDict.ofEntries (knownIds graph verification threat)).entries =
      knownIds graph verification threat := by
  refine Library.OrderedDict.entries_ofEntries ?_
  cases graph <;> cases verification <;> cases threat <;> simp [knownIds]

/-- Sorted, they still tell which is which. -/
theorem knownIds_injective {graph verification threat graph' verification' threat' : Option String}
    (h : (knownIds graph verification threat).insertionSort (fun a b => a.1 ≤ b.1) =
      (knownIds graph' verification' threat').insertionSort fun a b => a.1 ≤ b.1) :
    knownIds graph verification threat = knownIds graph' verification' threat' := by
  have hperm : (knownIds graph verification threat).Perm
      (knownIds graph' verification' threat') :=
    (List.perm_insertionSort (fun a b : String × String => a.1 ≤ b.1) _).symm.trans
      (h ▸ List.perm_insertionSort (fun a b : String × String => a.1 ≤ b.1) _)
  have hgraph : graph = graph' := by
    ext value
    simpa [mem_knownIds] using hperm.mem_iff (a := ("graph_snapshot_id", value))
  have hverification : verification = verification' := by
    ext value
    simpa [mem_knownIds] using hperm.mem_iff (a := ("verification_snapshot_id", value))
  have hthreat : threat = threat' := by
    ext value
    simpa [mem_knownIds] using hperm.mem_iff (a := ("threat_snapshot_id", value))
  rw [hgraph, hverification, hthreat]

theorem inputSnapshotIds_eq (service : DetectionService) (arguments : ScoreArguments)
    (now : Datetime) :
    service.inputSnapshotIds arguments now =
      .ofEntries (knownIds arguments.graphSnapshotId arguments.verificationSnapshotId
        ((service.resolveThreat arguments now).bind ThreatContext.snapshotId)) := rfl

namespace ScoreCall

variable {service : DetectionService} {call earlier : ScoreCall} {result row : FusionResult}

/-- A result has the key of its call and records its inputs. -/
theorem named_of_scored (h : call.scored service = .ok result) :
    Names call.arguments call.now (call.key service) result ∧
      recordedInputs result = call.inputs service := by
  obtain ⟨fused, hfuse, rfl⟩ := scored_eq_ok.mp h
  obtain ⟨components, -, hfields⟩ := Intelligence.FusionEngine.fuse_eq_ok.mp hfuse
  have hkey : (⟨(call.serving service).identity call.arguments call.now fused⟩ :
      Digest ScoreIdentity) = call.key service := by
    rw [DetectionService.identity, hfields]
    rfl
  refine ⟨?_, ?_⟩
  · exact
      { modelScoreId := congrArg (some ∘ Uuid.mk) hkey
        idempotencyKey := congrArg some hkey
        assetId := congrArg FusionFields.assetId hfields
        featureWindowId := congrArg FusionFields.featureWindowId hfields
        scoredAt := congrArg FusionFields.scoredAt hfields
        evidenceCutoff := congrArg FusionFields.evidenceCutoff hfields
        baseModelVersion := congrArg FusionFields.baseModelVersion hfields }
  · show RecordedInputs.mk fused.evidenceCutoff fused.claimRisk fused.legitimateEventScore
      fused.graphScore fused.threatContext = _
    rw [hfields]
    rfl

/-- What a call passes to the fusion engine is what an earlier one of the same inputs and features
passed, but for the snapshot. -/
theorem fusionInputs_eq (hinputs : earlier.inputs service = call.inputs service)
    (hfeatures : earlier.arguments.snapshot.features = call.arguments.snapshot.features) :
    { DetectionService.fusionInputs earlier.arguments with
      snapshot := (DetectionService.fusionInputs call.arguments).snapshot } =
        DetectionService.fusionInputs call.arguments := by
  have hclaim := congrArg RecordedInputs.claimRisk hinputs
  have hlegitimate := congrArg RecordedInputs.legitimateEventScore hinputs
  have hgraph := congrArg RecordedInputs.graphScore hinputs
  dsimp only [inputs] at hclaim hlegitimate hgraph
  have hregime : Intelligence.classifyRegime earlier.arguments.snapshot =
      Intelligence.classifyRegime call.arguments.snapshot := by
    simp only [Intelligence.classifyRegime, hfeatures]
  have hliquidity : Intelligence.classifyLiquidity earlier.arguments.snapshot =
      Intelligence.classifyLiquidity call.arguments.snapshot := by
    simp only [Intelligence.classifyLiquidity, hfeatures]
  simp only [DetectionService.fusionInputs, hclaim, hlegitimate, hgraph, hregime, hliquidity,
    detectorOutputs_congr hfeatures]

/-- **The key, the recorded inputs and the features determine the score.** -/
theorem sameScore (hrow : earlier.scored service = .ok row)
    (hresult : call.scored service = .ok result)
    (hkey : earlier.key service = call.key service)
    (hinputs : earlier.inputs service = call.inputs service)
    (hfeatures : earlier.arguments.snapshot.features = call.arguments.snapshot.features) :
    SameScore row result := by
  have hnames := (named_of_scored hrow).1
  have hnames' := (named_of_scored hresult).1
  obtain ⟨fused, hfuse, rfl⟩ := scored_eq_ok.mp hrow
  obtain ⟨fused', hfuse', rfl⟩ := scored_eq_ok.mp hresult
  obtain ⟨components, hcomp, hfields⟩ := Intelligence.FusionEngine.fuse_eq_ok.mp hfuse
  obtain ⟨components', hcomp', hfields'⟩ := Intelligence.FusionEngine.fuse_eq_ok.mp hfuse'
  have hrest := fusionInputs_eq hinputs hfeatures
  have hcomponents : components = components' := by
    rw [traceComponents_congr _ hrest] at hcomp
    exact Except.ok.inj (hcomp.symm.trans hcomp')
  have hidentity := congrArg Digest.material hkey
  have hcontext : (((earlier.serving service).resolveThreat earlier.arguments
      earlier.now).getD {}) = ((call.serving service).resolveThreat call.arguments
        call.now).getD {} := congrArg RecordedInputs.threatContext hinputs
  have hsame : { fused.toFusionFields with scoredAt := call.now } = fused'.toFusionFields := by
    rw [hfields, hfields', hcontext, hcomponents]
    exact fusionFields_congr (call.serving service).fusion
      (congrArg ScoreIdentity.scopeId hidentity) (congrArg ScoreIdentity.assetId hidentity)
      (congrArg ScoreIdentity.featureWindowId hidentity)
      (Nat.cast_injective (congrArg ScoreIdentity.featureRevision hidentity))
      (Option.some.inj (congrArg RecordedInputs.evidenceCutoff hinputs)) hfeatures hrest
  have hids : (earlier.serving service).inputSnapshotIds earlier.arguments earlier.now =
      (call.serving service).inputSnapshotIds call.arguments call.now := by
    have hsorted := congrArg ScoreIdentity.inputSnapshotIds hidentity
    simp only [key, inputSnapshotIds_eq, entries_knownIds] at hsorted
    rw [inputSnapshotIds_eq, inputSnapshotIds_eq, knownIds_injective hsorted]
  show { { fused.toFusionFields with
      scoredAt := ((call.serving service).named call.arguments call.now fused').scoredAt } with
    modelScoreId := ((earlier.serving service).named earlier.arguments earlier.now fused).modelScoreId
    inputSnapshotIds := (earlier.serving service).inputSnapshotIds earlier.arguments earlier.now
    idempotencyKey :=
      ((earlier.serving service).named earlier.arguments earlier.now fused).idempotencyKey } = _
  rw [hnames'.scoredAt, hsame, hnames.modelScoreId, hnames.idempotencyKey, hids, hkey,
    ← hnames'.modelScoreId, ← hnames'.idempotencyKey]
  rfl

end ScoreCall
/-! ## One call -/

/-- Storing a result writes it under both keys, and nothing to the tables. -/
theorem storeResult_calm (now : Datetime) (snapshot : FeatureSnapshot) (result : FusionResult)
    (persisted : Bool) (stores : ScoreStores) :
    (({ now := now } : Delivery).storeResult snapshot result persisted stores).2.tables =
        stores.tables ∧
      (({ now := now } : Delivery).storeResult snapshot result persisted stores).2.online =
        (stores.online.set (latestScoreKey snapshot.assetId) (.score result)).set
          (scopedScoreKey snapshot.scopeId snapshot.assetId) (.score result) := by
  unfold Delivery.storeResult ScoreStores.setJson
  simp only [Library.Fault.on_absent, modify_bind]
  rw [bind_pure_snd _ fun _ => result]
  unfold Delivery.publishResult
  cases persisted with
  | false => exact ⟨rfl, rfl⟩
  | true =>
    rw [if_pos rfl]
    cases hevent : scoreEvent snapshot result with
    | error e =>
      rw [bind_of_error (ofExcept_apply _ _)]
      exact ⟨rfl, rfl⟩
    | ok event =>
      rw [bind_of_ok (ofExcept_apply _ _)]
      exact ⟨rfl, rfl⟩

/-- The repository answers when it has added the rows, or when a unique key was in the way: one of
the score, or the one of the regime. -/
theorem persist_ok {arguments : ScoreArguments} {now : Datetime} {key : Digest ScoreIdentity}
    {result : FusionResult} (hnames : Names arguments now key result) {stores stores' : ScoreStores}
    {persisted : Bool} (h : ScoreStores.persist result stores = (.ok persisted, stores')) :
    stores'.online = stores.online ∧
      ((stores.tables.records key = false ∧
          stores.tables.hasRegime arguments.snapshot.assetId now = false ∧
          stores'.tables = stores.tables.added result) ∨
        (stores'.tables = stores.tables ∧ (stores.tables.records key = false →
          stores.tables.hasRegime arguments.snapshot.assetId now = true))) := by
  rcases persist_cases hnames stores with ⟨hfree, hadmits, hpersist⟩ | ⟨hnot, hpersist | ⟨e, hpersist⟩⟩
  · rw [hpersist] at h
    obtain ⟨-, rfl⟩ := Prod.mk.inj h
    have hregime : stores.tables.hasRegime arguments.snapshot.assetId now = false := by
      rw [← hnames.assetId, ← hnames.scoredAt]
      exact (of_decide_eq_true hadmits).2
    exact ⟨rfl, Or.inl ⟨hfree, hregime, rfl⟩⟩
  · have hsame : stores' = stores := (congrArg Prod.snd (hpersist.symm.trans h)).symm
    rw [hsame]
    refine ⟨rfl, Or.inr ⟨rfl, fun hfree => ?_⟩⟩
    by_contra hregime
    have hadmits := hnot hfree
    have hwindow : result.featureWindowId ∉ stores.tables.featureWindows := by
      simpa [ScoreTables.Admits, hnames.assetId, hnames.scoredAt, hregime] using hadmits
    have hinsert : stores.tables.insert result =
        .error (.foreignKey "model_scores_feature_window_id_fkey") := by
      have htaken := mt (records_iff hnames stores.tables).mpr (by simp [hfree])
      unfold ScoreTables.insert
      rw [if_neg fun hid => htaken (Or.inl hid), if_neg fun hkey => htaken (Or.inr hkey),
        if_pos hwindow]
    -- a missing window is not a unique key in the way, and raises
    unfold ScoreStores.persist at hpersist
    rw [if_neg (by simp [hnames.evidenceCutoff]), reading_bind, hinsert] at hpersist
    exact absurd (congrArg Prod.fst hpersist) (by simp [Violation.isUnique])
  · rw [hpersist] at h
    exact absurd (Prod.mk.inj h).1 (by simp)

namespace ScoreHistory

variable {service : DetectionService} {history : ScoreHistory} {call : ScoreCall}

/-- What a call that returns has done: its result is online, and in the ledger unless a unique key
was in the way. -/
theorem after_cases (h : history.Returned service call) :
    ∃ result, call.scored service = .ok result ∧
      (history.after service call).stores.online =
        (history.stores.online.set (latestScoreKey call.arguments.snapshot.assetId)
          (.score result)).set
            (scopedScoreKey call.arguments.snapshot.scopeId call.arguments.snapshot.assetId)
              (.score result) ∧
      ((history.stores.tables.records (call.key service) = false ∧
          history.stores.tables.hasRegime call.arguments.snapshot.assetId call.now = false ∧
          (history.after service call).stores.tables = history.stores.tables.added result) ∨
        ((history.after service call).stores.tables = history.stores.tables ∧
          (history.stores.tables.records (call.key service) = false →
            history.stores.tables.hasRegime call.arguments.snapshot.assetId call.now = true))) := by
  obtain ⟨answer, hanswer⟩ := h
  have hscore : call.score service history.stores =
      (.ok answer, (history.after service call).stores) := Prod.ext hanswer rfl
  obtain ⟨result, mid, hresult, hrest⟩ := bind_eq_ok.mp hscore
  obtain ⟨hscored, hmid⟩ := Prod.mk.inj hresult
  obtain ⟨persisted, stored, hpersist, hstore⟩ := bind_eq_ok.mp hrest
  rw [← hmid, Library.Fault.on_absent] at hpersist
  obtain ⟨honline, htables⟩ := persist_ok (ScoreCall.named_of_scored hscored).1 hpersist
  obtain ⟨hsame, hboth⟩ :=
    storeResult_calm call.now call.arguments.snapshot result persisted stored
  rw [hstore] at hsame hboth
  refine ⟨result, hscored, ?_, ?_⟩
  · rw [hboth, honline]
  · rw [hsame]
    exact htables

/-! ## The ledger -/

/-- How the ledger stands after the calls: it has a row of every key, each row is the result of one
of the calls, and records the inputs of every call of its key. -/
structure Ledger (service : DetectionService) (history : ScoreHistory) : Prop where
  recorded : ∀ call ∈ history.calls, history.stores.tables.records (call.key service) = true
  scored : ∀ row ∈ history.stores.tables.modelScores,
    ∃ call ∈ history.calls, call.scored service = .ok row
  inputs : ∀ call ∈ history.calls, ∀ row ∈ history.stores.tables.modelScores,
    row.idempotencyKey = some (call.key service) → recordedInputs row = call.inputs service

theorem ledger_initial (featureWindows : List (Uuid WindowKey)) :
    Ledger service (initial featureWindows) where
  recorded _ hcall := absurd hcall List.not_mem_nil
  scored _ hrow := absurd hrow List.not_mem_nil
  inputs _ hcall := absurd hcall List.not_mem_nil

/-- A key that is recorded is the one of an earlier call, and of its row. -/
theorem Ledger.exists_row (hledger : Ledger service history) {key : Digest ScoreIdentity}
    (h : history.stores.tables.records key = true) :
    ∃ row ∈ history.stores.tables.modelScores, row.idempotencyKey = some key := by
  obtain ⟨row, hrow, hkey⟩ := List.any_eq_true.mp h
  obtain ⟨call, -, hscored⟩ := hledger.scored row hrow
  have hnames := (ScoreCall.named_of_scored hscored).1
  refine ⟨row, hrow, ?_⟩
  rcases of_decide_eq_true hkey with hid | hkey
  · rw [hnames.modelScoreId, Option.some.injEq, Uuid.mk.injEq] at hid
    rw [hnames.idempotencyKey, hid]
  · exact hkey

/-- A row of the ledger belongs to an earlier call of its key. -/
theorem Ledger.exists_call (hledger : Ledger service history) {row : FusionResult}
    (hrow : row ∈ history.stores.tables.modelScores) {key : Digest ScoreIdentity}
    (hkey : row.idempotencyKey = some key) :
    ∃ call ∈ history.calls, call.scored service = .ok row ∧ call.key service = key := by
  obtain ⟨call, hcall, hscored⟩ := hledger.scored row hrow
  refine ⟨call, hcall, hscored, ?_⟩
  exact Option.some.inj ((ScoreCall.named_of_scored hscored).1.idempotencyKey.symm.trans hkey)

theorem records_of_mem {row : FusionResult} (hrow : row ∈ history.stores.tables.modelScores)
    {key : Digest ScoreIdentity} (hkey : row.idempotencyKey = some key) :
    history.stores.tables.records key = true :=
  List.any_eq_true.mpr ⟨row, hrow, decide_eq_true (Or.inr hkey)⟩

/-- **The step lemma of the ledger.** -/
theorem Ledger.after (hledger : Ledger service history) (hreturned : history.Returned service call)
    (htells : history.KeyTells service call) : Ledger service (history.after service call) := by
  obtain ⟨result, hscored, -, ⟨hfree, -, htables⟩ | ⟨htables, hregime⟩⟩ := after_cases hreturned
  · obtain ⟨hnames, hinputs⟩ := ScoreCall.named_of_scored hscored
    refine ⟨fun other hother => ?_, fun row hrow => ?_, fun other hother row hrow hkey => ?_⟩
    · rw [htables, records_added hnames]
      rcases List.mem_append.mp hother with hold | hnew
      · exact Or.inl (hledger.recorded other hold)
      · rw [List.mem_singleton.mp hnew]
        exact Or.inr rfl
    · rw [htables] at hrow
      rcases List.mem_append.mp hrow with hold | hnew
      · obtain ⟨other, hother, hrow⟩ := hledger.scored row hold
        exact ⟨other, List.mem_append_left _ hother, hrow⟩
      · rw [List.mem_singleton.mp hnew]
        exact ⟨call, List.mem_append_right _ List.mem_cons_self, hscored⟩
    · rw [htables] at hrow
      rcases List.mem_append.mp hrow with hold | hnew
      · rcases List.mem_append.mp hother with hother | hother
        · exact hledger.inputs other hother row hold hkey
        · rw [List.mem_singleton.mp hother] at hkey
          exact absurd (records_of_mem hold hkey) (by simp [hfree])
      · rw [List.mem_singleton.mp hnew] at hkey ⊢
        rcases List.mem_append.mp hother with hother | hother
        · rw [hinputs]
          refine (htells.1 other hother ?_).symm
          exact Option.some.inj (hkey.symm.trans hnames.idempotencyKey)
        · rw [List.mem_singleton.mp hother, hinputs]
  · have hrecorded : history.stores.tables.records (call.key service) = true := by
      by_contra hfree
      rw [Bool.not_eq_true] at hfree
      exact absurd (hregime hfree) (by simp [htells.2 hfree])
    refine ⟨fun other hother => ?_, fun row hrow => ?_, fun other hother row hrow hkey => ?_⟩
    · rw [htables]
      rcases List.mem_append.mp hother with hold | hnew
      · exact hledger.recorded other hold
      · rw [List.mem_singleton.mp hnew]
        exact hrecorded
    · rw [htables] at hrow
      obtain ⟨other, hother, hrow⟩ := hledger.scored row hrow
      exact ⟨other, List.mem_append_left _ hother, hrow⟩
    · rw [htables] at hrow
      rcases List.mem_append.mp hother with hold | hnew
      · exact hledger.inputs other hold row hrow hkey
      · rw [List.mem_singleton.mp hnew] at hkey ⊢
        obtain ⟨earlier, hearlier, hrow', hkey'⟩ := hledger.exists_call hrow hkey
        rw [(ScoreCall.named_of_scored hrow').2]
        exact htells.1 earlier hearlier hkey'

/-- Results that agree record the same inputs. -/
theorem recordedInputs_of_sameScore {row result : FusionResult} (h : SameScore row result) :
    recordedInputs row = recordedInputs result := by
  have hfields := congrArg (fun fields : FusionFields => RecordedInputs.mk fields.evidenceCutoff
    fields.claimRisk fields.legitimateEventScore fields.graphScore fields.threatContext) h
  exact hfields

/-- A call whose key does not tell its inputs, or whose instant is taken, leaves a score online that
the ledger does not have. -/
theorem not_onlineAgrees_after (hledger : Ledger service history)
    (hreturned : history.Returned service call) (htells : ¬ history.KeyTells service call) :
    ¬ OnlineAgrees (history.after service call).stores := by
  intro hagrees
  obtain ⟨result, hscored, honline, htables⟩ := after_cases hreturned
  obtain ⟨hnames, hinputs⟩ := ScoreCall.named_of_scored hscored
  obtain ⟨row, hrow, hkey, hsame⟩ := hagrees _ _ result
    (by rw [honline]; exact Library.OrderedDict.get?_set_self ..)
  rw [hnames.idempotencyKey] at hkey
  refine htells ⟨fun earlier hearlier hsamekey => ?_, fun hfree => ?_⟩
  · have hrecorded := hledger.recorded earlier hearlier
    rw [hsamekey] at hrecorded
    rcases htables with ⟨hfree, -, -⟩ | ⟨htables, -⟩
    · exact absurd hrecorded (by simp [hfree])
    · rw [htables] at hrow
      rw [← hledger.inputs earlier hearlier row hrow (hsamekey ▸ hkey),
        recordedInputs_of_sameScore hsame, hinputs]
  · rcases htables with ⟨-, hregime, -⟩ | ⟨htables, -⟩
    · exact hregime
    · rw [htables] at hrow
      exact absurd (records_of_mem hrow hkey) (by simp [hfree])

/-! ## The online state -/

/-- How the stores stand when the keys tell the features too: besides, what is online is the result of
one of the calls, and calls of one key had the same features. -/
structure Sound (service : DetectionService) (history : ScoreHistory) : Prop
    extends Ledger service history where
  online : ∀ key result, history.stores.online.get? key = some (.score result) →
    ∃ call ∈ history.calls, call.scored service = .ok result
  features : ∀ call ∈ history.calls, ∀ other ∈ history.calls,
    call.key service = other.key service →
      call.arguments.snapshot.features = other.arguments.snapshot.features

theorem sound_initial (featureWindows : List (Uuid WindowKey)) :
    Sound service (initial featureWindows) where
  toLedger := ledger_initial featureWindows
  online _ _ h := absurd h (by simp [initial])
  features _ hcall := absurd hcall List.not_mem_nil

/-- **The step lemma.** -/
theorem Sound.after (hsound : Sound service history) (hreturned : history.Returned service call)
    (htells : history.KeyTells service call) (hfeatures : history.KeyTellsFeatures service call) :
    Sound service (history.after service call) where
  toLedger := hsound.toLedger.after hreturned htells
  online key result hget := by
    obtain ⟨scored, hscored, honline, -⟩ := after_cases hreturned
    have hnew : StateRecord.score scored = .score result →
        ∃ call' ∈ (history.after service call).calls, call'.scored service = .ok result := by
      intro heq
      obtain rfl : scored = result := StateRecord.score.inj heq
      exact ⟨call, List.mem_append_right _ List.mem_cons_self, hscored⟩
    rw [honline, Library.OrderedDict.get?_set, Library.OrderedDict.get?_set] at hget
    split_ifs at hget
    · exact hnew (Option.some.inj hget)
    · exact hnew (Option.some.inj hget)
    · obtain ⟨earlier, hearlier, hresult⟩ := hsound.online key result hget
      exact ⟨earlier, List.mem_append_left _ hearlier, hresult⟩
  features := by
    intro left hleft right hright hkey
    rcases List.mem_append.mp hleft with hleft | hleft <;>
      rcases List.mem_append.mp hright with hright | hright
    · exact hsound.features left hleft right hright hkey
    · rw [List.mem_singleton.mp hright] at hkey ⊢
      exact hfeatures left hleft hkey
    · rw [List.mem_singleton.mp hleft] at hkey ⊢
      exact (hfeatures right hright hkey.symm).symm
    · rw [List.mem_singleton.mp hleft, List.mem_singleton.mp hright]

/-- Every score online is the row of its key. -/
theorem Sound.onlineAgrees (hsound : Sound service history) : OnlineAgrees history.stores := by
  intro scopeId assetId result hget
  obtain ⟨call, hcall, hscored⟩ := hsound.online _ result hget
  have hkey := (ScoreCall.named_of_scored hscored).1.idempotencyKey
  obtain ⟨row, hrow, hrowKey⟩ := hsound.exists_row (hsound.recorded call hcall)
  obtain ⟨earlier, hearlier, hscored', hsamekey⟩ := hsound.exists_call hrow hrowKey
  refine ⟨row, hrow, hrowKey.trans hkey.symm, ?_⟩
  have hinputs : earlier.inputs service = call.inputs service := by
    rw [← (ScoreCall.named_of_scored hscored').2]
    exact hsound.inputs call hcall row hrow hrowKey
  exact ScoreCall.sameScore hscored' hscored hsamekey hinputs
    (hsound.features earlier hearlier call hcall hsamekey)

/-- **The online score is the row of its key when the key tells the inputs.**  In a run of calls that
return, the online state agrees with the ledger throughout only if every call has the recorded inputs
of the earlier calls of its key and an instant that no other score of the asset has recorded; and it
does so if, besides, every call has a snapshot with the features that the earlier calls of its key
had. -/
theorem online_agrees (service : DetectionService) (featureWindows : List (Uuid WindowKey))
    (calls : List ScoreCall)
    (hreturned : Throughout (after service) (Returned service) (initial featureWindows) calls) :
    (Always (after service) (fun history => OnlineAgrees history.stores) (initial featureWindows)
        calls →
      Throughout (after service) (KeyTells service) (initial featureWindows) calls) ∧
    (Throughout (after service) (KeyTells service) (initial featureWindows) calls →
      Throughout (after service) (KeyTellsFeatures service) (initial featureWindows) calls →
        Always (after service) (fun history => OnlineAgrees history.stores)
          (initial featureWindows) calls) := by
  constructor
  · exact Library.throughout_of_always (I := Ledger service)
      (fun _ _ hledger => hledger.after)
      (fun _ _ hledger hok htells => not_onlineAgrees_after hledger hok htells)
      (ledger_initial featureWindows) hreturned
  · intro htells hfeatures
    have hall := Library.throughout_and.mpr ⟨hreturned, Library.throughout_and.mpr ⟨htells, hfeatures⟩⟩
    exact Library.always_of_throughout (I := Sound service)
      (fun _ _ hsound hcall => hsound.after hcall.1 hcall.2.1 hcall.2.2)
      (fun _ hsound => hsound.onlineAgrees) (sound_initial featureWindows) hall

end ScoreHistory

/-! ## A feed that changes -/

/-- A service with a threat repository. -/
def watchingService : DetectionService where
  threatRepository := some fun _ _ _ _ _ _ => {}
  threatEnabled := true

/-- A call for the first minute of an asset, at which the feed has a status. -/
def minuteCall (now : Datetime) (status : Intelligence.ThreatContextStatus) : ScoreCall where
  arguments := minuteArguments
  now := now
  answer := fun _ _ _ _ _ => { status := status }

namespace ScoreHistory

/-- Before the first minute is scored. -/
def beforeMinute : ScoreHistory :=
  initial [minuteArguments.snapshot.featureWindowId]

theorem returned_of_isOk {service : DetectionService} {history : ScoreHistory} {call : ScoreCall}
    (h : (call.score service history.stores).1.isOk = true) : history.Returned service call := by
  unfold Returned
  cases houtcome : (call.score service history.stores).1 with
  | error e =>
    rw [houtcome] at h
    exact absurd h (by simp [Except.isOk, Except.toBool])
  | ok result => exact ⟨result, rfl⟩

/-- The feed is unavailable both times. -/
theorem online_agrees_unavailable :
    Always (after watchingService) (fun history => OnlineAgrees history.stores) beforeMinute
      [minuteCall 0 .unavailable, minuteCall 1 .unavailable] := by
  refine (online_agrees watchingService [minuteArguments.snapshot.featureWindowId]
    [minuteCall 0 .unavailable, minuteCall 1 .unavailable]
    ⟨returned_of_isOk (by decide +kernel), returned_of_isOk (by decide +kernel), trivial⟩).2
    ⟨⟨?_, ?_⟩, ⟨?_, ?_⟩, trivial⟩ ⟨?_, ?_, trivial⟩
  · exact fun earlier hearlier => absurd hearlier List.not_mem_nil
  · exact fun _ => by decide +kernel
  · intro earlier hearlier _
    rw [List.mem_singleton.mp hearlier]
    rfl
  · exact fun _ => by decide +kernel
  · exact fun earlier hearlier => absurd hearlier List.not_mem_nil
  · intro earlier hearlier _
    rw [List.mem_singleton.mp hearlier]
    rfl

/-- The status of the feed that a value of the online state was scored with. -/
def feedStatus : StateRecord → Option Intelligence.ThreatContextStatus
  | .score result => some result.threatContext.status
  | .features _ => none

/-- The feed is unavailable and then stale: the second score is online, the first one in the
ledger. -/
theorem stale_feed_disagrees :
    ¬ ∀ (service : DetectionService) (featureWindows : List (Uuid WindowKey))
      (calls : List ScoreCall),
      Throughout (after service) (Returned service) (initial featureWindows) calls →
        Always (after service) (fun history => OnlineAgrees history.stores)
          (initial featureWindows) calls := by
  intro hclaim
  have hagrees := (hclaim watchingService [minuteArguments.snapshot.featureWindowId]
    [minuteCall 0 .unavailable, minuteCall 1 .stale]
    ⟨returned_of_isOk (by decide +kernel), returned_of_isOk (by decide +kernel), trivial⟩).final
  have honline : ((Library.run (after watchingService) beforeMinute
      [minuteCall 0 .unavailable, minuteCall 1 .stale]).stores.online.get?
        (scopedScoreKey "LIVE" "asset")).bind feedStatus = some .stale := by decide +kernel
  have hledger : ∀ row ∈ (Library.run (after watchingService) beforeMinute
      [minuteCall 0 .unavailable, minuteCall 1 .stale]).stores.tables.modelScores,
        row.threatContext.status = .unavailable := by decide +kernel
  obtain ⟨record, hget, hstatus⟩ := Option.bind_eq_some_iff.mp honline
  cases record with
  | features snapshot => exact absurd hstatus (by simp [feedStatus])
  | score result =>
    obtain ⟨row, hrow, -, hsame⟩ := hagrees "LIVE" "asset" result hget
    have hinputs := congrArg RecordedInputs.threatContext (recordedInputs_of_sameScore hsame)
    have hrowStatus := hledger row hrow
    rw [show row.threatContext = result.threatContext from hinputs] at hrowStatus
    exact absurd (hrowStatus.symm.trans (Option.some.inj hstatus)) (by decide)

end ScoreHistory

end Services
end Scam2Market
