import Scam2Market.Library.Faults
import Scam2Market.Services.CallEffects

/-!
# Scores under failures

`DetectionService.score` over `SqlScoreRepository` of `ingestion/repositories.py`, when each of its
four effects may fail: the transaction, the two writes of the online state and the publication.

* `ScoreTables`: the tables of the transaction.  A row of `model_scores` holds fields of a result, and
  is that result here; the identifiers of a result are texts of UUIDs.
* `persist` answers `False` for any unique violation (`Violation.isUnique`), whatever the table.
* `deliver` is one delivery of a call by the worker.  A fault of the transaction may leave it rolled
  back or committed, and a fault of the publication may leave the event unsent or sent.
* `announced_iff`: an event of a key has been published just when the first delivery that committed
  the row was not interrupted before its publication.
-/

namespace Scam2Market
namespace Services

open Features (WindowKey)
open Intelligence (FusionResult ScoreIdentity)
open Library (Fault OrderedDict Procedure Violation)
open Library.Procedure

/-! ## Tables -/

structure MarketRegimeModel where
  assetId : String
  eventTime : Datetime
  regime : String
  confidence : ℚ
  inputs : Uuid WindowKey × ℤ

structure AssetLiquidityClassModel where
  liquidityClass : String
  confidence : ℚ
  metrics : Uuid WindowKey × ℤ

/-- The tables, and the windows that the foreign key of a score may name. -/
structure ScoreTables where
  featureWindows : List (Uuid WindowKey)
  modelScores : List FusionResult
  marketRegimes : List MarketRegimeModel
  liquidityClasses : OrderedDict String AssetLiquidityClassModel

namespace ScoreTables

variable (tables : ScoreTables) (result : FusionResult)

/-- The row of `market_regimes` of a result. -/
def regimeRow : MarketRegimeModel where
  assetId := result.assetId
  eventTime := result.scoredAt
  regime := result.marketRegime
  confidence := result.marketRegimeConfidence
  inputs := (result.featureWindowId, result.featureRevision)

/-- The row of `asset_liquidity_classes` of a result. -/
def liquidityRow : AssetLiquidityClassModel where
  liquidityClass := result.liquidityClass
  confidence := result.liquidityConfidence
  metrics := (result.featureWindowId, result.featureRevision)

/-- Whether a row takes one of the two keys of a score. -/
def records (key : Digest ScoreIdentity) : Bool :=
  tables.modelScores.any fun row =>
    row.modelScoreId = some ⟨key⟩ ∨ row.idempotencyKey = some key

/-- Whether there is a regime of the asset at the instant. -/
def hasRegime (assetId : String) (eventTime : Datetime) : Bool :=
  tables.marketRegimes.any fun row => row.assetId = assetId ∧ row.eventTime = eventTime

/-- The tables with the rows of a result. -/
def added : ScoreTables :=
  { tables with
    modelScores := tables.modelScores ++ [result]
    marketRegimes := tables.marketRegimes ++ [regimeRow result]
    liquidityClasses := tables.liquidityClasses.set result.assetId (liquidityRow result) }

/-- The rows of one transaction. -/
def insert : Except Violation ScoreTables :=
  if tables.modelScores.any fun row => row.modelScoreId = result.modelScoreId then
    .error (.unique "model_scores_pkey")
  else if tables.modelScores.any fun row => row.idempotencyKey = result.idempotencyKey then
    .error (.unique "uq_model_score_idempotency_key")
  else if result.featureWindowId ∉ tables.featureWindows then
    .error (.foreignKey "model_scores_feature_window_id_fkey")
  else if tables.hasRegime result.assetId result.scoredAt then
    .error (.unique "market_regimes_pkey")
  else
    .ok (tables.added result)

end ScoreTables

/-- What a delivery writes to. -/
structure ScoreStores where
  tables : ScoreTables
  online : OrderedDict String StateRecord
  published : List (String × PublishedEvent)

namespace ScoreStores

/-- `persist(result)`. -/
def persist (result : FusionResult) : Procedure ScoreStores PyError Bool := do
  if result.evidenceCutoff = none then
    raise (.valueError "fusion evidence cutoff is required for persistence")
  else
    match ← reading fun stores => stores.tables.insert result with
    | .ok tables =>
      modify fun stores => { stores with tables := tables }
      return true
    | .error violation =>
      if violation.isUnique then return false
      else raise (.integrityError violation.constraint)

/-- `set_json(key, value)`. -/
def setJson (key : String) (value : StateRecord) : Procedure ScoreStores PyError Unit :=
  modify fun stores => { stores with online := stores.online.set key value }

/-- `publish(topic, event)`. -/
def publish (topic : String) (event : PublishedEvent) : Procedure ScoreStores PyError Unit :=
  modify fun stores => { stores with published := stores.published ++ [(topic, event)] }

/-- Whether an event of the score of a key has been published. -/
def Announced (key : Digest ScoreIdentity) (stores : ScoreStores) : Prop :=
  ∃ event, ("model.fusion.score.v1", PublishedEvent.score event) ∈ stores.published ∧
    event.payload.idempotencyKey = some key

end ScoreStores

/-! ## Deliveries -/

/-- One delivery of a call: the instant it is handled at, and what befalls its effects. -/
structure Delivery where
  now : Datetime
  persist : Fault PyError := .absent
  latest : Fault PyError := .absent
  latestInScope : Fault PyError := .absent
  publish : Fault PyError := .absent

/-- Make the event of a result and publish it, if the result was not persisted before. -/
def Delivery.publishResult (delivery : Delivery) (persisted : Bool)
    (snapshot : Features.FeatureSnapshot) (result : FusionResult) :
    Procedure ScoreStores PyError Unit :=
  if persisted then do
    let event ← ofExcept (scoreEvent snapshot result)
    delivery.publish.on (ScoreStores.publish "model.fusion.score.v1" (.score event))
  else pure ()

/-- What `score` does with the answer of the repository. -/
def Delivery.storeResult (delivery : Delivery) (snapshot : Features.FeatureSnapshot)
    (result : FusionResult) (persisted : Bool) : Procedure ScoreStores PyError FusionResult := do
  let _ ← delivery.latest.on
    (ScoreStores.setJson (latestScoreKey snapshot.assetId) (.score result))
  let _ ← delivery.latestInScope.on
    (ScoreStores.setJson (scopedScoreKey snapshot.scopeId snapshot.assetId) (.score result))
  let _ ← delivery.publishResult persisted snapshot result
  return result

/-- `score(snapshot, ...)` under the faults of a delivery. -/
def deliver (service : DetectionService) (arguments : ScoreArguments) (delivery : Delivery) :
    Procedure ScoreStores PyError FusionResult := do
  let result ← ofExcept (service.scored arguments delivery.now)
  let persisted ← delivery.persist.on (ScoreStores.persist result)
  delivery.storeResult arguments.snapshot result persisted

/-! ## What the database accepts -/

/-- Everything but the keys of the score admits the rows of a result. -/
def ScoreTables.Admits (tables : ScoreTables) (result : FusionResult) : Bool :=
  result.featureWindowId ∈ tables.featureWindows ∧
    tables.hasRegime result.assetId result.scoredAt = false

/-- What a scored result names. -/
structure Names (arguments : ScoreArguments) (now : Datetime) (key : Digest ScoreIdentity)
    (result : FusionResult) : Prop where
  modelScoreId : result.modelScoreId = some ⟨key⟩
  idempotencyKey : result.idempotencyKey = some key
  assetId : result.assetId = arguments.snapshot.assetId
  featureWindowId : result.featureWindowId = arguments.snapshot.featureWindowId
  scoredAt : result.scoredAt = now
  evidenceCutoff : result.evidenceCutoff = some arguments.snapshot.windowEnd
  baseModelVersion : result.baseModelVersion = "fusion-v2"

theorem names_of_scored {service : DetectionService} {arguments : ScoreArguments} {now : Datetime}
    {result : FusionResult} (h : service.scored arguments now = .ok result) :
    ∃ key, Names arguments now key result := by
  obtain ⟨fused, hfuse, rfl⟩ := scored_eq_ok.mp h
  obtain ⟨components, -, hfields⟩ := Intelligence.FusionEngine.fuse_eq_ok.mp hfuse
  exact ⟨_,
    { modelScoreId := rfl
      idempotencyKey := rfl
      assetId := congrArg Intelligence.FusionFields.assetId hfields
      featureWindowId := congrArg Intelligence.FusionFields.featureWindowId hfields
      scoredAt := congrArg Intelligence.FusionFields.scoredAt hfields
      evidenceCutoff := congrArg Intelligence.FusionFields.evidenceCutoff hfields
      baseModelVersion := congrArg Intelligence.FusionFields.baseModelVersion hfields }⟩

/-- A key is recorded when one of the two unique keys of its results is taken. -/
theorem records_iff {arguments : ScoreArguments} {now : Datetime} {key : Digest ScoreIdentity}
    {result : FusionResult} (h : Names arguments now key result) (tables : ScoreTables) :
    tables.records key = true ↔
      (tables.modelScores.any fun row => row.modelScoreId = result.modelScoreId) = true ∨
        (tables.modelScores.any fun row => row.idempotencyKey = result.idempotencyKey) = true := by
  rw [h.modelScoreId, h.idempotencyKey]
  simp only [ScoreTables.records, List.any_eq_true, decide_eq_true_eq]
  constructor
  · rintro ⟨row, hrow, hid | hkey⟩
    · exact Or.inl ⟨row, hrow, hid⟩
    · exact Or.inr ⟨row, hrow, hkey⟩
  · rintro (⟨row, hrow, hid⟩ | ⟨row, hrow, hkey⟩)
    · exact ⟨row, hrow, Or.inl hid⟩
    · exact ⟨row, hrow, Or.inr hkey⟩

/-- The database takes the rows of a score when its keys are free and everything else admits them. -/
theorem insert_cases {arguments : ScoreArguments} {now : Datetime} {key : Digest ScoreIdentity}
    {result : FusionResult} (h : Names arguments now key result) (tables : ScoreTables) :
    (tables.records key = false ∧ tables.Admits result = true ∧
        tables.insert result = .ok (tables.added result)) ∨
      ((tables.records key = false → tables.Admits result = false) ∧
        ∃ violation, tables.insert result = .error violation) := by
  have hrecords := records_iff h tables
  unfold ScoreTables.insert
  split_ifs with hid hkey hwindow hregime
  · exact Or.inr ⟨fun hfree => absurd (hrecords.mpr (Or.inl hid)) (by simp [hfree]), _, rfl⟩
  · exact Or.inr ⟨fun hfree => absurd (hrecords.mpr (Or.inr hkey)) (by simp [hfree]), _, rfl⟩
  · exact Or.inr ⟨fun _ => by simp [ScoreTables.Admits, hregime], _, rfl⟩
  · refine Or.inl ⟨?_, ?_, rfl⟩
    · exact Bool.eq_false_iff.mpr fun htaken => (hrecords.mp htaken).elim hid hkey
    · simp [ScoreTables.Admits, hwindow, Bool.eq_false_iff.mpr hregime]
  · exact Or.inr ⟨fun _ => by simp [ScoreTables.Admits, hwindow], _, rfl⟩

/-- The repository answers `True` just when it has added the rows. -/
theorem persist_cases {arguments : ScoreArguments} {now : Datetime} {key : Digest ScoreIdentity}
    {result : FusionResult} (h : Names arguments now key result) (stores : ScoreStores) :
    (stores.tables.records key = false ∧ stores.tables.Admits result = true ∧
        ScoreStores.persist result stores =
          (.ok true, { stores with tables := stores.tables.added result })) ∨
      ((stores.tables.records key = false → stores.tables.Admits result = false) ∧
        (ScoreStores.persist result stores = (.ok false, stores) ∨
          ∃ e, ScoreStores.persist result stores = (.error e, stores))) := by
  have hcutoff : ¬ result.evidenceCutoff = none := by simp [h.evidenceCutoff]
  unfold ScoreStores.persist
  rw [if_neg hcutoff, reading_bind]
  rcases insert_cases h stores.tables with ⟨hfree, hadmits, hinsert⟩ | ⟨hnot, violation, hinsert⟩
  · rw [hinsert]
    exact Or.inl ⟨hfree, hadmits, rfl⟩
  · rw [hinsert]
    refine Or.inr ⟨hnot, ?_⟩
    cases hunique : violation.isUnique with
    | true => exact Or.inl (by simp [hunique])
    | false => exact Or.inr ⟨.integrityError violation.constraint, by simp [hunique]⟩

/-! ## What a delivery leaves behind -/

/-- The two names without which no event of a score can be made. -/
def Nameable (snapshot : Features.FeatureSnapshot) : Bool :=
  snapshot.scopeId ≠ "" ∧ isBlank snapshot.assetId = false

theorem payload_of_scoreEvent {snapshot : Features.FeatureSnapshot} {result : FusionResult}
    {event : Streaming.CanonicalEvent (String × Uuid WindowKey × ℕ × Option (Digest ScoreIdentity))
      FusionResult}
    (h : scoreEvent snapshot result = .ok event) : event.payload = result := by
  unfold scoreEvent at h
  cases hreplay : Streaming.ReplayMetadata.ofScope snapshot.scopeId with
  | error e =>
    rw [hreplay] at h
    exact absurd h (by simp [bind, Except.bind])
  | ok replay =>
    rw [hreplay] at h
    exact congrArg Streaming.EventFields.payload (Streaming.EventFields.validate_eq_ok h)

/-- An event can be made of a score when the scope and the asset have names. -/
theorem scoreEvent_cases (snapshot : Features.FeatureSnapshot) {result : FusionResult}
    (hsource : result.baseModelVersion = "fusion-v2") :
    (Nameable snapshot = true ∧ ∃ event, scoreEvent snapshot result = .ok event) ∨
      (Nameable snapshot = false ∧ ∃ e, scoreEvent snapshot result = .error e) := by
  have hnonblank : isBlank result.baseModelVersion = false := by
    rw [hsource]
    decide
  by_cases hscope : snapshot.scopeId = ""
  · refine Or.inr ⟨by simp [Nameable, hscope], .ofValidator
      "replay_session_id is required when is_replay is true", ?_⟩
    unfold scoreEvent
    rw [hscope]
    rfl
  · obtain ⟨replay, hreplay⟩ := Streaming.ReplayMetadata.ofScope_succeeds hscope
    unfold scoreEvent
    rw [hreplay]
    cases hasset : isBlank snapshot.assetId with
    | true =>
      refine Or.inr ⟨by simp [Nameable, hasset], ?_⟩
      show ∃ e, Streaming.EventFields.validate _ = .error e
      unfold Streaming.EventFields.validate
      rw [dif_neg fun hvalid => by simp [hasset] at hvalid]
      exact ⟨_, rfl⟩
    | false =>
      refine Or.inl ⟨by simp [Nameable, hscope, hasset], ?_⟩
      exact Streaming.EventFields.validate_succeeds le_rfl hnonblank hasset

/-- A write of the online state: what follows it is reached if it meets no fault. -/
theorem setJson_bind {P : ScoreStores → Prop} {fault : Fault PyError} {key : String}
    {value : StateRecord} {f : Unit → Procedure ScoreStores PyError FusionResult}
    {stores : ScoreStores}
    (hstopped : fault.isAbsent = false → ∀ online, P { stores with online := online })
    (hdone : fault.isAbsent = true → ∀ online, P (f () { stores with online := online }).2) :
    P ((fault.on (ScoreStores.setJson key value) >>= f) stores).2 := by
  cases hfault : fault.isAbsent with
  | true =>
    rw [Fault.eq_absent_of_isAbsent hfault, Fault.on_absent]
    exact hdone hfault _
  | false =>
    rw [Fault.on_bind_of_faulty hfault, Fault.on_state]
    split_ifs
    · exact hstopped hfault stores.online
    · exact hstopped hfault _

/-- What a delivery publishes of a result, once its transaction is through. -/
def Publishes (delivery : Delivery) (snapshot : Features.FeatureSnapshot) (persisted : Bool) : Bool :=
  persisted && delivery.latest.isAbsent && delivery.latestInScope.isAbsent &&
    !delivery.publish.isRefused && Nameable snapshot

/-- After the transaction the tables stay as they are, and the event is published if the rows were
added and nothing stops the delivery. -/
def Stored (delivery : Delivery) (snapshot : Features.FeatureSnapshot) (result : FusionResult)
    (persisted : Bool) (before after : ScoreStores) : Prop :=
  after.tables = before.tables ∧
    ∀ entry, entry ∈ after.published ↔
      entry ∈ before.published ∨ (Publishes delivery snapshot persisted = true ∧
        ∃ event, scoreEvent snapshot result = .ok event ∧
          entry = ("model.fusion.score.v1", .score event))

theorem storeResult_state (delivery : Delivery) (snapshot : Features.FeatureSnapshot)
    {result : FusionResult} (hsource : result.baseModelVersion = "fusion-v2") (persisted : Bool)
    (stores : ScoreStores) :
    Stored delivery snapshot result persisted stores
      (delivery.storeResult snapshot result persisted stores).2 := by
  have hsilent : Publishes delivery snapshot persisted = false → ∀ online,
      Stored delivery snapshot result persisted stores { stores with online := online } :=
    fun hnot _ => ⟨rfl, by simp [hnot]⟩
  unfold Delivery.storeResult
  refine setJson_bind (P := Stored delivery snapshot result persisted stores)
    (fun hlatest => hsilent (by simp [Publishes, hlatest])) fun hlatest _ => ?_
  refine setJson_bind (P := Stored delivery snapshot result persisted stores)
    (fun hscoped => hsilent (by simp [Publishes, hscoped])) fun hscoped online => ?_
  rw [Procedure.bind_pure_snd _ fun _ => result]
  unfold Delivery.publishResult
  cases persisted with
  | false => exact hsilent (by simp [Publishes]) online
  | true =>
    rw [if_pos rfl]
    rcases scoreEvent_cases snapshot hsource with ⟨hname, event, hevent⟩ | ⟨hname, e, hevent⟩
    · rw [hevent, Procedure.bind_of_ok (Procedure.ofExcept_apply _ _), Fault.on_state]
      split_ifs with hrefused
      · exact hsilent (by simp [Publishes, hrefused]) online
      · have hpublishes : Publishes delivery snapshot true = true := by
          simp [Publishes, hlatest, hscoped, hrefused, hname]
        refine ⟨rfl, fun entry => ?_⟩
        show entry ∈ stores.published ++ [_] ↔ _
        rw [List.mem_append, List.mem_singleton, hpublishes, hevent]
        simp [eq_comm]
    · rw [hevent, Procedure.bind_of_error (Procedure.ofExcept_apply _ _)]
      exact hsilent (by simp [Publishes, hname]) online

theorem Stored.announced {delivery : Delivery} {snapshot : Features.FeatureSnapshot}
    {result : FusionResult} {persisted : Bool} {before after : ScoreStores}
    (h : Stored delivery snapshot result persisted before after)
    (hsource : result.baseModelVersion = "fusion-v2") {named : Digest ScoreIdentity}
    (hkey : result.idempotencyKey = some named) (key : Digest ScoreIdentity) :
    ScoreStores.Announced key after ↔
      ScoreStores.Announced key before ∨
        (Publishes delivery snapshot persisted = true ∧ named = key) := by
  constructor
  · rintro ⟨event, hmem, hevent⟩
    rcases (h.2 _).mp hmem with hmem | ⟨hpublishes, made, hmade, heq⟩
    · exact Or.inl ⟨event, hmem, hevent⟩
    · obtain rfl : event = made := by simpa using heq
      rw [payload_of_scoreEvent hmade, hkey] at hevent
      exact Or.inr ⟨hpublishes, Option.some.inj hevent⟩
  · rintro (⟨event, hmem, hevent⟩ | ⟨hpublishes, rfl⟩)
    · exact ⟨event, (h.2 _).mpr (Or.inl hmem), hevent⟩
    · have hname : Nameable snapshot = true := by
        simp only [Publishes, Bool.and_eq_true] at hpublishes
        exact hpublishes.2
      rcases scoreEvent_cases snapshot hsource with ⟨-, event, hevent⟩ | ⟨hnot, -⟩
      · refine ⟨event, (h.2 _).mpr (Or.inr ⟨hpublishes, event, hevent, rfl⟩), ?_⟩
        rw [payload_of_scoreEvent hevent, hkey]
      · exact absurd hname (by simp [hnot])

/-- A delivery commits the rows of its result. -/
def Delivery.Commits (delivery : Delivery) (tables : ScoreTables) (key : Digest ScoreIdentity)
    (result : FusionResult) : Bool :=
  !delivery.persist.isRefused && !tables.records key && tables.Admits result

theorem commits_eq_false (delivery : Delivery) {tables : ScoreTables} {key : Digest ScoreIdentity}
    {result : FusionResult} (h : tables.records key = false → tables.Admits result = false) :
    delivery.Commits tables key result = false := by
  unfold Delivery.Commits
  cases hrecords : tables.records key with
  | true => simp
  | false => simp [h hrecords]

/-- Nothing stops a delivery that has committed before it has published. -/
def Delivery.Completes (delivery : Delivery) (snapshot : Features.FeatureSnapshot) : Bool :=
  delivery.persist.isAbsent && Publishes delivery snapshot true

variable {service : DetectionService} {arguments : ScoreArguments}

/-- A call that cannot be scored leaves everything as it is. -/
theorem deliver_of_error {delivery : Delivery} {e : PyError}
    (h : service.scored arguments delivery.now = .error e) (stores : ScoreStores) :
    (deliver service arguments delivery stores).2 = stores := by
  unfold deliver
  rw [h, Procedure.bind_of_error (Procedure.ofExcept_apply _ _)]

/-- What a delivery leaves behind: the rows if it commits, the event if nothing stops it then. -/
theorem deliver_state {delivery : Delivery} {result : FusionResult} {named : Digest ScoreIdentity}
    (h : service.scored arguments delivery.now = .ok result)
    (hnames : Names arguments delivery.now named result) (stores : ScoreStores) :
    (deliver service arguments delivery stores).2.tables =
        (if delivery.Commits stores.tables named result then stores.tables.added result
          else stores.tables) ∧
      ∀ key, ScoreStores.Announced key (deliver service arguments delivery stores).2 ↔
        ScoreStores.Announced key stores ∨
          (delivery.Commits stores.tables named result = true ∧
            delivery.Completes arguments.snapshot = true ∧ named = key) := by
  unfold deliver
  rw [h, Procedure.bind_of_ok (Procedure.ofExcept_apply _ _)]
  cases hfault : delivery.persist.isAbsent with
  | false =>
    have hstopped : delivery.Completes arguments.snapshot = false := by
      simp [Delivery.Completes, hfault]
    rw [Fault.on_bind_of_faulty hfault, Fault.on_state, hstopped]
    split_ifs with hrefused hcommits hcommits
    · exact absurd hcommits (by simp [Delivery.Commits, hrefused])
    · exact ⟨rfl, by simp⟩
    · rcases persist_cases hnames stores with ⟨-, -, hpersist⟩ | ⟨hnot, -⟩
      · rw [hpersist]
        refine ⟨rfl, fun key => ?_⟩
        show ScoreStores.Announced key stores ↔ _
        simp
      · exact absurd hcommits (by simp [commits_eq_false delivery hnot])
    · rcases persist_cases hnames stores with ⟨hfree, hadmits, -⟩ | ⟨-, hpersist | ⟨e, hpersist⟩⟩
      · exact absurd hcommits (by simp [Delivery.Commits, hrefused, hfree, hadmits])
      · rw [hpersist]
        exact ⟨rfl, by simp⟩
      · rw [hpersist]
        exact ⟨rfl, by simp⟩
  | true =>
    have habsent := Fault.eq_absent_of_isAbsent hfault
    have hstored := storeResult_state delivery arguments.snapshot hnames.baseModelVersion
    rw [habsent, Fault.on_absent]
    rcases persist_cases hnames stores with ⟨hfree, hadmits, hpersist⟩ |
      ⟨hnot, hpersist | ⟨e, hpersist⟩⟩
    · have hcommits : delivery.Commits stores.tables named result = true := by
        simp [Delivery.Commits, habsent, Fault.isRefused, hfree, hadmits]
      rw [Procedure.bind_of_ok hpersist, if_pos hcommits]
      have hafter := hstored true { stores with tables := stores.tables.added result }
      refine ⟨hafter.1, fun key => ?_⟩
      rw [hafter.announced hnames.baseModelVersion hnames.idempotencyKey key]
      simp only [Delivery.Completes, hfault, Bool.true_and, hcommits, true_and]
      rfl
    · have hcommits := commits_eq_false delivery hnot
      have hafter := hstored false stores
      rw [Procedure.bind_of_ok hpersist, hcommits]
      refine ⟨hafter.1, fun key => ?_⟩
      rw [hafter.announced hnames.baseModelVersion hnames.idempotencyKey key]
      simp [Publishes]
    · rw [Procedure.bind_of_error hpersist, commits_eq_false delivery hnot]
      exact ⟨rfl, by simp⟩

/-! ## Histories of deliveries -/

/-- A delivery of the key is one that records it, given the tables before the first delivery: its
transaction is carried out, and nothing but the keys of the score is in the way of the rows. -/
def Recording (service : DetectionService) (arguments : ScoreArguments) (tables : ScoreTables)
    (key : Digest ScoreIdentity) (delivery : Delivery) : Bool :=
  match service.scored arguments delivery.now with
  | .ok result =>
    result.idempotencyKey = some key && !delivery.persist.isRefused && tables.Admits result
  | .error _ => false

theorem records_added {now : Datetime} {named : Digest ScoreIdentity} {result : FusionResult}
    (h : Names arguments now named result) (tables : ScoreTables) (key : Digest ScoreIdentity) :
    (tables.added result).records key = true ↔ tables.records key = true ∨ named = key := by
  have hrow : (result.modelScoreId = some ⟨key⟩ ∨ result.idempotencyKey = some key) ↔
      named = key := by
    rw [h.modelScoreId, h.idempotencyKey]
    simp
  simp only [ScoreTables.records, ScoreTables.added, List.any_append, Bool.or_eq_true,
    List.any_cons, List.any_nil, Bool.or_false, decide_eq_true_eq, hrow]

theorem hasRegime_added (tables : ScoreTables) (result : FusionResult) (assetId : String)
    (eventTime : Datetime) :
    (tables.added result).hasRegime assetId eventTime = true ↔
      tables.hasRegime assetId eventTime = true ∨
        (result.assetId = assetId ∧ result.scoredAt = eventTime) := by
  simp [ScoreTables.hasRegime, ScoreTables.added, ScoreTables.regimeRow]

/-- How the stores stand after a history of deliveries of one call. -/
structure Standing (service : DetectionService) (arguments : ScoreArguments)
    (initial : ScoreStores) (history : List Delivery) (stores : ScoreStores) : Prop where
  featureWindows : stores.tables.featureWindows = initial.tables.featureWindows
  regime_of_initial : ∀ assetId eventTime,
    initial.tables.hasRegime assetId eventTime = true →
      stores.tables.hasRegime assetId eventTime = true
  regime_cases : ∀ assetId eventTime, stores.tables.hasRegime assetId eventTime = true →
    initial.tables.hasRegime assetId eventTime = true ∨
      ∃ result key, service.scored arguments eventTime = .ok result ∧
        result.idempotencyKey = some key ∧ stores.tables.records key = true
  recorded : ∀ key, initial.tables.records key = false →
    (stores.tables.records key = true ↔
      (history.find? (Recording service arguments initial.tables key)).isSome = true)
  announced : ∀ key, initial.tables.records key = false → ¬ ScoreStores.Announced key initial →
    (ScoreStores.Announced key stores ↔
      ∃ first, history.find? (Recording service arguments initial.tables key) = some first ∧
        first.Completes arguments.snapshot = true)

theorem standing_initial (initial : ScoreStores) : Standing service arguments initial [] initial where
  featureWindows := rfl
  regime_of_initial _ _ h := h
  regime_cases _ _ h := Or.inl h
  recorded _ hfree := by simp [hfree]
  announced _ _ hsilent := by simp [hsilent]

/-- A delivery commits when it is a recording one and its key is free. -/
theorem Standing.commits_iff {initial stores : ScoreStores} {history : List Delivery}
    {delivery : Delivery} {result : FusionResult} {key : Digest ScoreIdentity}
    (hstanding : Standing service arguments initial history stores)
    (h : service.scored arguments delivery.now = .ok result)
    (hnames : Names arguments delivery.now key result) :
    delivery.Commits stores.tables key result = true ↔
      stores.tables.records key = false ∧
        Recording service arguments initial.tables key delivery = true := by
  have hadmits : stores.tables.records key = false →
      stores.tables.Admits result = initial.tables.Admits result := by
    intro hfree
    have hregime : stores.tables.hasRegime result.assetId result.scoredAt =
        initial.tables.hasRegime result.assetId result.scoredAt := by
      rw [Bool.eq_iff_iff]
      refine ⟨fun hthere => ?_, hstanding.regime_of_initial _ _⟩
      rcases hstanding.regime_cases _ _ hthere with hinitial | ⟨other, named, hother, hnamed, hrow⟩
      · exact hinitial
      · -- what is scored at the same instant has the same key, and that key is free
        rw [hnames.scoredAt, h] at hother
        obtain rfl : result = other := Except.ok.inj hother
        obtain rfl : key = named := Option.some.inj (hnames.idempotencyKey.symm.trans hnamed)
        exact absurd hrow (by simp [hfree])
    unfold ScoreTables.Admits
    rw [hregime, hstanding.featureWindows]
  unfold Delivery.Commits Recording
  rw [h]
  constructor
  · intro hcommits
    simp only [Bool.and_eq_true, Bool.not_eq_true'] at hcommits
    obtain ⟨⟨hrefused, hfree⟩, hthere⟩ := hcommits
    refine ⟨hfree, ?_⟩
    simp [hnames.idempotencyKey, hrefused, ← hadmits hfree, hthere]
  · rintro ⟨hfree, hrecording⟩
    simp only [hnames.idempotencyKey, decide_true, Bool.true_and, Bool.and_eq_true,
      Bool.not_eq_true'] at hrecording
    simp [hrecording.1, hfree, hadmits hfree, hrecording.2]

/-- A delivery that cannot be scored, or has another key, is not a recording one. -/
theorem recording_eq_false {tables : ScoreTables} {key : Digest ScoreIdentity} {delivery : Delivery}
    (h : ∀ result, service.scored arguments delivery.now = .ok result →
      result.idempotencyKey ≠ some key) :
    Recording service arguments tables key delivery = false := by
  unfold Recording
  cases hscored : service.scored arguments delivery.now with
  | error e => rfl
  | ok result => simp [h result hscored]

/-- One more delivery. -/
theorem Standing.concat {initial stores : ScoreStores} {history : List Delivery}
    (hstanding : Standing service arguments initial history stores) (delivery : Delivery) :
    Standing service arguments initial (history ++ [delivery])
      (deliver service arguments delivery stores).2 := by
  have hfind : ∀ key, (history ++ [delivery]).find?
      (Recording service arguments initial.tables key) =
        (history.find? (Recording service arguments initial.tables key)).or
          (if Recording service arguments initial.tables key delivery then some delivery
            else none) := by
    intro key
    rw [List.find?_append, List.find?_singleton]
  cases hscored : service.scored arguments delivery.now with
  | error e =>
    have hnot : ∀ key, Recording service arguments initial.tables key delivery = false :=
      fun key => recording_eq_false fun result h => absurd (hscored.symm.trans h) (by simp)
    rw [deliver_of_error hscored]
    refine { hstanding with recorded := fun key hfree => ?_, announced := fun key hfree hsilent => ?_ }
    · rw [hfind, hnot]
      simpa using hstanding.recorded key hfree
    · rw [hfind, hnot]
      simpa using hstanding.announced key hfree hsilent
  | ok result =>
    obtain ⟨named, hnames⟩ := names_of_scored hscored
    obtain ⟨htables, hannounced⟩ := deliver_state hscored hnames stores
    have hcommits := hstanding.commits_iff hscored hnames
    have hother : ∀ key, named ≠ key →
        Recording service arguments initial.tables key delivery = false := by
      intro key hne
      refine recording_eq_false fun other hscored' hkey => hne ?_
      obtain rfl : result = other := Except.ok.inj (hscored.symm.trans hscored')
      exact Option.some.inj (hnames.idempotencyKey.symm.trans hkey)
    have hrecords : ∀ key, (deliver service arguments delivery stores).2.tables.records key = true ↔
        stores.tables.records key = true ∨
          (delivery.Commits stores.tables named result = true ∧ named = key) := by
      intro key
      rw [htables]
      split_ifs with hcommit
      · rw [records_added hnames, hcommit]
        simp
      · simp [hcommit]
    refine ⟨?_, fun assetId eventTime h => ?_, fun assetId eventTime h => ?_, fun key hfree => ?_,
      fun key hfree hsilent => ?_⟩
    · rw [htables, ← hstanding.featureWindows]
      split_ifs <;> rfl
    · rw [htables]
      split_ifs
      · exact (hasRegime_added _ _ _ _).mpr (Or.inl (hstanding.regime_of_initial _ _ h))
      · exact hstanding.regime_of_initial _ _ h
    · have hold : stores.tables.hasRegime assetId eventTime = true →
          initial.tables.hasRegime assetId eventTime = true ∨
            ∃ result key, service.scored arguments eventTime = .ok result ∧
              result.idempotencyKey = some key ∧
                (deliver service arguments delivery stores).2.tables.records key = true := by
        intro hthere
        refine (hstanding.regime_cases _ _ hthere).imp_right ?_
        rintro ⟨other, key, hscored', hkey, hrow⟩
        exact ⟨other, key, hscored', hkey, (hrecords key).mpr (Or.inl hrow)⟩
      rw [htables] at h
      split_ifs at h with hcommit
      · rcases (hasRegime_added _ _ _ _).mp h with hthere | ⟨-, hinstant⟩
        · exact hold hthere
        · rw [hnames.scoredAt] at hinstant
          rw [← hinstant]
          exact Or.inr ⟨result, named, hscored, hnames.idempotencyKey,
            (hrecords named).mpr (Or.inr ⟨hcommit, rfl⟩)⟩
      · exact hold h
    · rw [hrecords, hfind, Option.isSome_or, Bool.or_eq_true, hstanding.recorded key hfree]
      by_cases hkey : named = key
      · subst hkey
        rw [hcommits, ← hstanding.recorded named hfree]
        cases stores.tables.records named <;> simp
      · simp [hkey, hother key hkey]
    · rw [hannounced, hfind, hstanding.announced key hfree hsilent]
      cases hbefore : history.find? (Recording service arguments initial.tables key) with
      | some first =>
        have hrow : stores.tables.records key = true :=
          (hstanding.recorded key hfree).mpr (by simp [hbefore])
        have hstays : ¬ (delivery.Commits stores.tables named result = true ∧
            delivery.Completes arguments.snapshot = true ∧ named = key) := by
          rintro ⟨hcommit, -, rfl⟩
          exact absurd hrow (by simp [(hcommits.mp hcommit).1])
        simp [hstays]
      | none =>
        have hrow : stores.tables.records key = false := by
          rw [Bool.eq_false_iff]
          exact fun hrow => absurd ((hstanding.recorded key hfree).mp hrow) (by simp [hbefore])
        by_cases hkey : named = key
        · subst hkey
          simp [hcommits, hrow, and_comm]
        · simp [hkey, hother key hkey]

theorem standing_run (initial : ScoreStores) (history : List Delivery) :
    Standing service arguments initial history
      (runAll (deliver service arguments) history initial).2 := by
  induction history using List.reverseRecOn with
  | nil => exact standing_initial initial
  | append_singleton history delivery ih =>
    rw [runAll_concat]
    exact ih.concat delivery

/-- A delivery returns a result of the key. -/
def Returns (service : DetectionService) (arguments : ScoreArguments) (stores : ScoreStores)
    (key : Digest ScoreIdentity) (delivery : Delivery) : Prop :=
  ∃ result, (deliver service arguments delivery stores).1 = .ok result ∧
    result.idempotencyKey = some key

/-- **A score is announced when the delivery that records it is not stopped.**  Once a call for a key
has returned, the event of the key has been published just when the first delivery that committed the
row went on to its publication. -/
theorem published_iff {initial : ScoreStores} {key : Digest ScoreIdentity}
    (hfree : initial.tables.records key = false) (hsilent : ¬ ScoreStores.Announced key initial)
    (history : List Delivery) (delivery : Delivery) :
    (Returns service arguments (runAll (deliver service arguments) history initial).2 key delivery →
        ScoreStores.Announced key
          (runAll (deliver service arguments) (history ++ [delivery]) initial).2) ↔
      (Returns service arguments (runAll (deliver service arguments) history initial).2 key
          delivery →
        ∃ first, (history ++ [delivery]).find?
            (Recording service arguments initial.tables key) = some first ∧
          first.Completes arguments.snapshot = true) :=
  imp_congr_right fun _ =>
    (standing_run initial (history ++ [delivery])).announced key hfree hsilent

/-- The score of the first minute of an asset. -/
def minuteArguments : ScoreArguments where
  snapshot := Features.minuteSnapshot "LIVE" "asset" fun _ => some 1

/-- The key of that score. -/
def minuteKey : Digest ScoreIdentity :=
  ⟨{  scopeId := "LIVE"
      assetId := "asset"
      featureWindowId := minuteArguments.snapshot.featureWindowId
      featureRevision := 1
      enrichmentProfile := .base
      inputSnapshotIds := []
      fusionPolicyVersion := "fusion-policy-v1" }⟩

/-- Nothing is scored yet. -/
def unscored : ScoreStores where
  tables :=
    { featureWindows := [minuteArguments.snapshot.featureWindowId]
      modelScores := []
      marketRegimes := []
      liquidityClasses := .empty }
  online := .empty
  published := []

/-- The online state cannot be written after the transaction. -/
def stoppedDelivery : Delivery where
  now := 0
  latest := .refused (.timeoutError "Timeout connecting to server")

/-- Nothing befalls the next delivery. -/
def calmDelivery : Delivery where
  now := 1

theorem unscored_silent (key : Digest ScoreIdentity) : ¬ ScoreStores.Announced key unscored := by
  rintro ⟨event, hmem, -⟩
  exact List.not_mem_nil hmem

theorem published_iff_minute :
    (Returns {} minuteArguments (runAll (deliver {} minuteArguments) [] unscored).2 minuteKey
          calmDelivery →
        ScoreStores.Announced minuteKey
          (runAll (deliver {} minuteArguments) ([] ++ [calmDelivery]) unscored).2) ↔
      (Returns {} minuteArguments (runAll (deliver {} minuteArguments) [] unscored).2 minuteKey
          calmDelivery →
        ∃ first, ([] ++ [calmDelivery]).find?
            (Recording {} minuteArguments unscored.tables minuteKey) = some first ∧
          first.Completes minuteArguments.snapshot = true) :=
  published_iff (by decide) (unscored_silent minuteKey) [] calmDelivery

/-- The transaction commits and the next effect fails: the redelivery returns and publishes nothing. -/
theorem stopped_score_unpublished :
    ¬ ∀ (initial : ScoreStores) (history : List Delivery) (delivery : Delivery)
      (key : Digest ScoreIdentity), initial.tables.records key = false →
      ¬ ScoreStores.Announced key initial →
      Returns {} minuteArguments (runAll (deliver {} minuteArguments) history initial).2 key
          delivery →
        ScoreStores.Announced key
          (runAll (deliver {} minuteArguments) (history ++ [delivery]) initial).2 := by
  intro hclaim
  have hreturns : Returns {} minuteArguments
      (runAll (deliver {} minuteArguments) [stoppedDelivery] unscored).2 minuteKey
        calmDelivery := by
    have hkey : ((deliver {} minuteArguments calmDelivery
        (runAll (deliver {} minuteArguments) [stoppedDelivery] unscored).2).1.toOption.bind
          fun result => result.idempotencyKey) = some minuteKey := by decide +kernel
    unfold Returns
    revert hkey
    generalize (deliver {} minuteArguments calmDelivery
      (runAll (deliver {} minuteArguments) [stoppedDelivery] unscored).2).1 = outcome
    intro hkey
    cases outcome with
    | error e => cases hkey
    | ok result => exact ⟨result, rfl, hkey⟩
  obtain ⟨event, hmem, -⟩ := hclaim unscored [stoppedDelivery] calmDelivery minuteKey (by decide)
    (unscored_silent minuteKey) hreturns
  have hnone : (runAll (deliver {} minuteArguments)
      ([stoppedDelivery] ++ [calmDelivery]) unscored).2.published.length = 0 := by decide +kernel
  rw [List.length_eq_zero_iff.mp hnone] at hmem
  exact List.not_mem_nil hmem

end Services
end Scam2Market
