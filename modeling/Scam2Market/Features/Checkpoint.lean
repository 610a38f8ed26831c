import Scam2Market.Features.Isolation
import Scam2Market.Features.Totality

/-!
# Checkpoints

`export_state` writes the log of the accepted signals and nothing else; `restore_state` ingests them
into a new engine.

* `Serialiser` holds what the program takes from elsewhere: the text of an instant, its validation,
  and the encoding and decoding of a document.
* `FeatureSignal.modelDump` and `modelValidate` are written out, with the defaults and the messages
  of the validation; a signal is read back from what was dumped (`modelValidate_modelDump`).
* `runAll_signalLog`: a run of accepted signals rebuilds the state, since a signal that is seen
  again changes nothing.
* `Settled`: after every call that returns, the sources that have been quiet for too long are marked
  idle already, so a query changes nothing (`watermarks_of_settled`).
* `restore_bisimilar` puts these together.
-/

namespace Scam2Market
namespace Features

open Library
open Library.Procedure

variable {cfg : EngineConfig}

/-! ## Serialisation -/

/-- The value of a `SignalKind`. -/
def SignalKind.value : SignalKind → String
  | .marketTrade => "MARKET_TRADE"
  | .marketCandle => "MARKET_CANDLE"
  | .orderbook => "ORDERBOOK"
  | .socialPost => "SOCIAL_POST"
  | .assetMention => "ASSET_MENTION"
  | .dataQuality => "DATA_QUALITY"

def SignalKind.all : List SignalKind :=
  [.marketTrade, .marketCandle, .orderbook, .socialPost, .assetMention, .dataQuality]

/-- The value of a `SourceDomain`. -/
def SourceDomain.value : SourceDomain → String
  | .market => "market"
  | .social => "social"

def SourceDomain.all : List SourceDomain :=
  [.market, .social]

/-- What the validation library and the JSON library do: the text of an instant, the instant a value
is validated to (or the message), the text of a document and the document of a text. -/
structure Serialiser where
  dumpDatetime : Datetime → String
  validateDatetime : Json → Except String Datetime
  dumps : Json → Except PyError String
  loads : String → Except PyError Json

/-- An instant is read back from its text. -/
def Serialiser.KeepsInstant (ser : Serialiser) (value : Datetime) : Prop :=
  ser.validateDatetime (.str (ser.dumpDatetime value)) = .ok value

/-- A document is read back from its encoding. -/
def Serialiser.KeepsDocument (ser : Serialiser) (document : Json) : Prop :=
  ∃ text, ser.dumps document = .ok text ∧ ser.loads text = .ok document

/-- `model_dump(mode="json")` of a signal. -/
def FeatureSignal.modelDump (ser : Serialiser) (signal : FeatureSignal) : Json :=
  .obj [("asset_id", .str signal.assetId), ("event_id", .str signal.eventId),
    ("event_time", .str (ser.dumpDatetime signal.eventTime)),
    ("ingested_at", .str (ser.dumpDatetime signal.ingestedAt)), ("kind", .str signal.kind.value),
    ("scope_id", .str signal.scopeId), ("source_domain", .str signal.sourceDomain.value),
    ("values", .obj signal.values.fields)]

/-! ## Validation -/

/-- The value of a field. -/
def field? (fields : List (String × Json)) (name : String) : Option Json :=
  (fields.find? fun field => field.1 = name).map Prod.snd

/-- A field, or the name of the field and the message. -/
abbrev Validated (α : Type) := Except (String × String) α

/-- A field that must be there. -/
def required {α : Type} (fields : List (String × Json)) (name : String)
    (check : Json → Except String α) : Validated α :=
  match field? fields name with
  | none => .error (name, "Field required")
  | some value => (check value).mapError fun message => (name, message)

/-- A field with a default. -/
def withDefault {α : Type} (fields : List (String × Json)) (name : String) (default : α)
    (check : Json → Except String α) : Validated α :=
  match field? fields name with
  | none => .ok default
  | some value => (check value).mapError fun message => (name, message)

/-- The refusal of a field, if it was refused. -/
def Validated.refusal {α : Type} : Validated α → List (String × String)
  | .ok _ => []
  | .error refusal => [refusal]

def checkString : Json → Except String String
  | .str s => .ok s
  | _ => .error "Input should be a valid string"

def checkObject : Json → Except String JsonObject
  | .obj fields => .ok (.ofFields fields)
  | _ => .error "Input should be a valid dictionary"

/-- The member of an enumeration with a value. -/
def checkMember {α : Type} (members : List α) (value : α → String) (message : String) :
    Json → Except String α
  | .str s =>
    match members.find? fun member => value member = s with
    | some member => .ok member
    | none => .error message
  | _ => .error message

def checkKind : Json → Except String SignalKind :=
  checkMember SignalKind.all SignalKind.value
    ("Input should be 'MARKET_TRADE', 'MARKET_CANDLE', 'ORDERBOOK', 'SOCIAL_POST', " ++
      "'ASSET_MENTION' or 'DATA_QUALITY'")

def checkDomain : Json → Except String SourceDomain :=
  checkMember SourceDomain.all SourceDomain.value "Input should be 'market' or 'social'"

/-- `FeatureSignal.model_validate`: every field that is refused is reported. -/
def modelValidate (ser : Serialiser) : Json → Except PyError FeatureSignal
  | .obj fields =>
    let eventId := required fields "event_id" checkString
    let scopeId := withDefault fields "scope_id" "LIVE" checkString
    let assetId := required fields "asset_id" checkString
    let eventTime := required fields "event_time" ser.validateDatetime
    let ingestedAt := required fields "ingested_at" ser.validateDatetime
    let kind := required fields "kind" checkKind
    let sourceDomain := required fields "source_domain" checkDomain
    let values := withDefault fields "values" JsonObject.empty checkObject
    let signal : Validated FeatureSignal := do
      return {
        eventId := ← eventId
        scopeId := ← scopeId
        assetId := ← assetId
        eventTime := ← eventTime
        ingestedAt := ← ingestedAt
        kind := ← kind
        sourceDomain := ← sourceDomain
        values := ← values }
    match signal with
    | .ok signal => .ok signal
    | .error _ => .error (.validationError (eventId.refusal ++ scopeId.refusal ++ assetId.refusal ++
        eventTime.refusal ++ ingestedAt.refusal ++ kind.refusal ++ sourceDomain.refusal ++
        values.refusal))
  | _ => .error (.validationError
      [("", "Input should be a valid dictionary or instance of FeatureSignal")])

theorem checkKind_value (kind : SignalKind) : checkKind (.str kind.value) = .ok kind := by
  cases kind <;> rfl

theorem checkDomain_value (domain : SourceDomain) : checkDomain (.str domain.value) = .ok domain := by
  cases domain <;> rfl

/-- **A signal is read back from what was dumped.** -/
theorem modelValidate_modelDump {ser : Serialiser} {signal : FeatureSignal}
    (htime : ser.KeepsInstant signal.eventTime) (hingested : ser.KeepsInstant signal.ingestedAt) :
    modelValidate ser (signal.modelDump ser) = .ok signal := by
  let fields : List (String × Json) :=
    [("asset_id", .str signal.assetId), ("event_id", .str signal.eventId),
      ("event_time", .str (ser.dumpDatetime signal.eventTime)),
      ("ingested_at", .str (ser.dumpDatetime signal.ingestedAt)), ("kind", .str signal.kind.value),
      ("scope_id", .str signal.scopeId), ("source_domain", .str signal.sourceDomain.value),
      ("values", .obj signal.values.fields)]
  have heventId : required fields "event_id" checkString = .ok signal.eventId := rfl
  have hscopeId : withDefault fields "scope_id" "LIVE" checkString = .ok signal.scopeId := rfl
  have hassetId : required fields "asset_id" checkString = .ok signal.assetId := rfl
  have heventTime : required fields "event_time" ser.validateDatetime = .ok signal.eventTime := by
    show (ser.validateDatetime (.str (ser.dumpDatetime signal.eventTime))).mapError _ = _
    rw [htime]
    rfl
  have hingestedAt : required fields "ingested_at" ser.validateDatetime =
      .ok signal.ingestedAt := by
    show (ser.validateDatetime (.str (ser.dumpDatetime signal.ingestedAt))).mapError _ = _
    rw [hingested]
    rfl
  have hkind : required fields "kind" checkKind = .ok signal.kind := by
    show (checkKind (.str signal.kind.value)).mapError _ = _
    rw [checkKind_value]
    rfl
  have hdomain : required fields "source_domain" checkDomain = .ok signal.sourceDomain := by
    show (checkDomain (.str signal.sourceDomain.value)).mapError _ = _
    rw [checkDomain_value]
    rfl
  have hvalues : withDefault fields "values" JsonObject.empty checkObject = .ok signal.values := by
    show Except.ok (JsonObject.ofFields signal.values.fields) = _
    rw [JsonObject.ofFields_fields]
  show modelValidate ser (.obj fields) = .ok signal
  simp only [modelValidate, heventId, hscopeId, hassetId, heventTime, hingestedAt, hkind, hdomain,
    hvalues]
  rfl

/-! ## Export and restore -/

/-- `export_state`. -/
def exportState (ser : Serialiser) (st : EngineState) : Json :=
  .obj [("signals", .list (st.signalLog.map (FeatureSignal.modelDump ser))),
    ("state_version", .str "feature-engine-state-v1")]

/-- One round of the loop of `restore_state`. -/
def restoreSignal (cfg : EngineConfig) (ser : Serialiser) (raw : Json) :
    EngineM (List FeatureSnapshot) := do
  let signal ← ofExcept (modelValidate ser raw)
  ingest cfg signal

/-- `restore_state`. -/
def restoreState (cfg : EngineConfig) (ser : Serialiser) (state : Json) : EngineM ℕ := do
  let started ← reading fun st => !st.signalLog.isEmpty
  if started then raise (.runtimeError "feature state can only be restored into an empty engine")
  else
    match state with
    | .obj fields =>
      match field? fields "state_version" with
      | some (.str "feature-engine-state-v1") =>
        match field? fields "signals" with
        | some (.list rawSignals) => do
          let _ ← forEach (restoreSignal cfg ser) rawSignals
          return rawSignals.length
        | _ => raise (.valueError "feature checkpoint signals must be a list")
      | _ => raise (.valueError "unsupported feature checkpoint state version")
    | _ => raise (.attributeError "get")

/-! ## A run of the accepted signals -/

/-- The log of a run has signals of the run only, and every signal of the run has been seen. -/
theorem signalLog_subset (cfg : EngineConfig) (run : List FeatureSignal) :
    (∀ signal ∈ (runAll (ingest cfg) run .initial).2.signalLog, signal ∈ run) ∧
      ∀ signal ∈ run, signal.seenKey ∈ (runAll (ingest cfg) run .initial).2.seenEventIds := by
  induction run using List.reverseRecOn with
  | nil => exact ⟨fun signal h => absurd h List.not_mem_nil, fun signal h => absurd h List.not_mem_nil⟩
  | append_singleton run last ih =>
    rw [runAll_concat]
    by_cases hseen : last.seenKey ∈ (runAll (ingest cfg) run .initial).2.seenEventIds
    · rw [ingest_of_seen hseen]
      refine ⟨fun signal h => List.mem_append_left _ (ih.1 signal h), fun signal h => ?_⟩
      rcases List.mem_append.mp h with h | h
      · exact ih.2 signal h
      · rw [List.mem_singleton.mp h]
        exact hseen
    · have hsteps : EngineSteps cfg last (register last _) (ingest cfg last _).2 :=
        ingest_steps hseen
      rw [hsteps.marked.signalLog, hsteps.marked.seenEventIds]
      refine ⟨fun signal h => ?_, fun signal h => ?_⟩
      · rcases List.mem_append.mp h with h | h
        · exact List.mem_append_left _ (ih.1 signal h)
        · exact List.mem_append_right _ h
      · refine Finset.mem_insert.mpr ?_
        rcases List.mem_append.mp h with h | h
        · exact Or.inr (ih.2 signal h)
        · exact Or.inl (by rw [List.mem_singleton.mp h])

/-- **The log rebuilds the state.**  The run of the accepted signals alone raises nothing and ends
in the same state. -/
theorem runAll_signalLog (cfg : EngineConfig) {run : List FeatureSignal}
    (hok : AllOk (runAll (ingest cfg) run .initial).1) :
    AllOk (runAll (ingest cfg) (runAll (ingest cfg) run .initial).2.signalLog .initial).1 ∧
      (runAll (ingest cfg) (runAll (ingest cfg) run .initial).2.signalLog .initial).2 =
        (runAll (ingest cfg) run .initial).2 := by
  induction run using List.reverseRecOn with
  | nil => exact ⟨hok, rfl⟩
  | append_singleton run last ih =>
    obtain ⟨hok, snapshots, hlast⟩ := allOk_concat.mp hok
    obtain ⟨ihok, ihstate⟩ := ih hok
    rw [runAll_concat]
    by_cases hseen : last.seenKey ∈ (runAll (ingest cfg) run .initial).2.seenEventIds
    · rw [ingest_of_seen hseen]
      exact ⟨ihok, ihstate⟩
    · have hsteps : EngineSteps cfg last (register last _) (ingest cfg last _).2 :=
        ingest_steps hseen
      have hlog : (ingest cfg last (runAll (ingest cfg) run .initial).2).2.signalLog =
          (runAll (ingest cfg) run .initial).2.signalLog ++ [last] := hsteps.marked.signalLog
      rw [hlog, allOk_concat, runAll_concat, ihstate]
      exact ⟨⟨ihok, snapshots, hlast⟩, rfl⟩

/-- Restoring what an engine exports makes the calls of its log. -/
theorem restoreState_exportState {ser : Serialiser} {st : EngineState}
    (hlog : ∀ signal ∈ st.signalLog,
      ser.KeepsInstant signal.eventTime ∧ ser.KeepsInstant signal.ingestedAt)
    (hok : AllOk (runAll (ingest cfg) st.signalLog .initial).1) :
    restoreState cfg ser (exportState ser st) .initial =
      (.ok st.signalLog.length, (runAll (ingest cfg) st.signalLog .initial).2) := by
  have hround : ∀ signal ∈ st.signalLog,
      restoreSignal cfg ser (signal.modelDump ser) = ingest cfg signal := by
    intro signal hsignal
    obtain ⟨htime, hingested⟩ := hlog signal hsignal
    unfold restoreSignal
    rw [modelValidate_modelDump htime hingested]
    rfl
  have hloop : forEach (restoreSignal cfg ser) (st.signalLog.map (FeatureSignal.modelDump ser)) =
      forEach (ingest cfg) st.signalLog := by
    rw [forEach_map, forEach_congr hround]
  obtain ⟨snapshots, hrun⟩ := forEach_of_allOk hok
  show (forEach (restoreSignal cfg ser) (st.signalLog.map (FeatureSignal.modelDump ser)) >>=
    fun _ => pure (st.signalLog.map (FeatureSignal.modelDump ser)).length) EngineState.initial = _
  rw [hloop, bind_of_ok hrun, List.length_map]
  rfl

/-! ## Queries that change nothing -/

/-- A source that has been quiet for too long is marked idle already. -/
def SettledAt (cfg : EngineConfig) (scopeId assetId : String) (domain : SourceDomain)
    (st : EngineState) : Prop :=
  becomesIdle cfg (globalMax st scopeId assetId) (st.sourceStates.get? (scopeId, assetId, domain))
      (st.maxEventTime.get? (scopeId, assetId, domain)) = true →
    ∃ state, st.sourceStates.get? (scopeId, assetId, domain) = some state ∧
      state.active = true ∧ state.idle = true

/-- The same of every required domain of a scope and asset. -/
def Settled (cfg : EngineConfig) (scopeId assetId : String) (st : EngineState) : Prop :=
  ∀ domain ∈ cfg.requiredDomains, SettledAt cfg scopeId assetId domain st

theorem settledAt_of_marked {scopeId assetId scopeId' assetId' : String} {domain : SourceDomain}
    {s t : EngineState} (h : Marked cfg scopeId' assetId' s t)
    (hs : SettledAt cfg scopeId assetId domain s) : SettledAt cfg scopeId assetId domain t := by
  intro hidle
  rcases h.sources (scopeId, assetId, domain) with heq | ⟨state, -, -, -, -, hmarked⟩
  · rw [globalMax_congr h.maxEventTime, h.maxEventTime, heq] at hidle
    rw [heq]
    exact hs hidle
  · exact ⟨_, hmarked, rfl, rfl⟩

/-- In a settled state the round of a domain changes nothing. -/
theorem watermarkOf_of_settledAt {scopeId assetId : String} {domain : SourceDomain}
    {st : EngineState} (h : SettledAt cfg scopeId assetId domain st) :
    watermarkOf cfg scopeId assetId (globalMax st scopeId assetId) domain st =
      (.ok (domain, domainMark cfg st scopeId assetId domain), st) := by
  rw [watermarkOf_apply]
  split_ifs with hidle
  · obtain ⟨⟨active, idle, degraded⟩, hstate, rfl, rfl⟩ := h hidle
    unfold markIdle
    rw [hstate]
    simp only
    rw [OrderedDict.set_of_get?_eq_some hstate]
  · rfl

/-- The round of a domain settles it. -/
theorem settledAt_watermarkOf {scopeId assetId : String} {domain : SourceDomain}
    (st : EngineState) : SettledAt cfg scopeId assetId domain
      (watermarkOf cfg scopeId assetId (globalMax st scopeId assetId) domain st).2 := by
  rw [watermarkOf_apply]
  split_ifs with hidle
  · rintro -
    rcases hstate : st.sourceStates.get? (scopeId, assetId, domain) with _ | state
    · rw [hstate] at hidle
      exact absurd hidle (by simp [becomesIdle])
    · refine ⟨{ state with active := true, idle := true }, ?_, rfl, rfl⟩
      unfold markIdle
      rw [hstate]
      exact OrderedDict.get?_set_self _ _ _
  · exact fun h => absurd h hidle

theorem settledAt_of_forEach (cfg : EngineConfig) (scopeId assetId : String)
    (domains : List SourceDomain) :
    ∀ st : EngineState, ∀ domain ∈ domains, SettledAt cfg scopeId assetId domain
      (forEach (watermarkOf cfg scopeId assetId (globalMax st scopeId assetId)) domains st).2 := by
  induction domains with
  | nil => exact fun st domain h => absurd h List.not_mem_nil
  | cons first domains ih =>
    intro st domain hdomain
    let st' := (watermarkOf cfg scopeId assetId (globalMax st scopeId assetId) first st).2
    have hround : watermarkOf cfg scopeId assetId (globalMax st scopeId assetId) first st =
        (.ok (first, domainMark cfg st scopeId assetId first), st') :=
      Prod.ext (by rw [watermarkOf_apply]) rfl
    have hmax : globalMax st' scopeId assetId = globalMax st scopeId assetId :=
      globalMax_congr (queried_watermarkOf cfg scopeId assetId first st).maxEventTime _ _
    obtain ⟨t, ht, hrest⟩ := forEach_watermarkOf cfg scopeId assetId domains st'
    have hsettled := ih st'
    rw [hrest] at hsettled
    rw [hmax] at hrest
    rw [forEach_cons, bind_of_ok hround, bind_of_ok hrest]
    rcases List.mem_cons.mp hdomain with rfl | hmem
    · exact settledAt_of_marked ht.toMarked (settledAt_watermarkOf st)
    · exact hsettled domain hmem

/-- In a settled state the rounds change nothing. -/
theorem forEach_watermarkOf_of_settledAt {scopeId assetId : String} {st : EngineState}
    {domains : List SourceDomain} (h : ∀ domain ∈ domains, SettledAt cfg scopeId assetId domain st) :
    forEach (watermarkOf cfg scopeId assetId (globalMax st scopeId assetId)) domains st =
      (.ok (domains.map fun domain => (domain, domainMark cfg st scopeId assetId domain)), st) := by
  induction domains with
  | nil => rfl
  | cons domain domains ih =>
    have hround := watermarkOf_of_settledAt (h domain List.mem_cons_self)
    have hrest := ih fun d hd => h d (List.mem_cons_of_mem domain hd)
    rw [forEach_cons, bind_of_ok hround, bind_of_ok hrest]
    rfl

/-- **A query of a settled state changes nothing.** -/
theorem watermarks_of_settled {scopeId assetId : String} {st : EngineState}
    (h : Settled cfg scopeId assetId st) : (watermarks cfg scopeId assetId st).2 = st := by
  unfold watermarks
  rw [reading_bind, bind_of_ok (forEach_watermarkOf_of_settledAt h), bind_apply, ofExcept_apply]
  rcases fusionWatermark cfg _ with e | mark
  · rfl
  · rfl

/-- The sweep starts with a query, so it settles its scope and asset. -/
theorem settled_finalizeEligible {scopeId assetId : String} (s : EngineState) :
    Settled cfg scopeId assetId (finalizeEligible cfg scopeId assetId s).2 := by
  have hquery : Settled cfg scopeId assetId (watermark cfg scopeId assetId s).2 := by
    intro domain hdomain
    have hsettled := settledAt_of_forEach cfg scopeId assetId cfg.requiredDomains s domain hdomain
    obtain ⟨t, ht, hloop⟩ := forEach_watermarkOf cfg scopeId assetId cfg.requiredDomains s
    rw [hloop] at hsettled
    have hstate : (watermark cfg scopeId assetId s).2 = t := by
      unfold watermark watermarks
      rw [bind_apply, reading_bind, bind_of_ok hloop, bind_apply, ofExcept_apply]
      rcases fusionWatermark cfg _ with e | mark
      · rfl
      · rfl
    rw [hstate]
    exact hsettled
  -- the builds that follow only mark
  refine finalizeEligible_of_watermark (fun key _ _ t ht domain hdomain => ?_) hquery
  rcases buildRevision_cases cfg key true t with ⟨e, u, hu, he⟩ | ⟨snapshot, u, hb, hok⟩
  · rw [he]
    exact settledAt_of_marked hu.toMarked (ht domain hdomain)
  · rw [hok]
    exact settledAt_of_marked hb.marked (ht domain hdomain)

/-- The call for a signal of another scope or asset leaves a settled pair settled. -/
theorem settled_ingest_of_ne {signal : FeatureSignal} {scopeId assetId : String}
    (hne : ¬ (signal.scopeId = scopeId ∧ signal.assetId = assetId)) {s : EngineState}
    (hs : Settled cfg scopeId assetId s) : Settled cfg scopeId assetId (ingest cfg signal s).2 := by
  let P : String → String → Bool := fun scope asset => decide (scope = scopeId ∧ asset = assetId)
  have hP : P scopeId assetId = true := decide_eq_true ⟨rfl, rfl⟩
  have hout : ofSignal P signal = false := decide_eq_false hne
  have hids : IdsRespect P [signal] := fun a ha b hb _ => by
    rw [List.mem_singleton.mp ha, List.mem_singleton.mp hb]
  have hview : SameView P [signal] (ingest cfg signal s).2 s :=
    sameView_ingest hids List.mem_cons_self hout s
  intro domain hdomain
  have hsource := hview.sourceStates (scopeId, assetId, domain) hP
  have hmaximum : (ingest cfg signal s).2.maxEventTime.get? (scopeId, assetId, domain) =
      s.maxEventTime.get? (scopeId, assetId, domain) := hview.maxEventTime_get? hP
  unfold SettledAt
  rw [globalMax_eq hview hP, hsource, hmaximum]
  exact hs domain hdomain

/-- In a run none of whose calls raises, every pair is settled. -/
theorem settled_run (cfg : EngineConfig) {run : List FeatureSignal}
    (hok : AllOk (runAll (ingest cfg) run .initial).1) (scopeId assetId : String) :
    Settled cfg scopeId assetId (runAll (ingest cfg) run .initial).2 := by
  have hinitial : Settled cfg scopeId assetId EngineState.initial := fun domain _ h =>
    absurd h (by simp [EngineState.initial, becomesIdle])
  refine runAll_invariant_of_ok hinitial hok fun signal _ s snapshots s' hs h => ?_
  by_cases hpair : signal.scopeId = scopeId ∧ signal.assetId = assetId
  · obtain ⟨rfl, rfl⟩ := hpair
    by_cases hseen : signal.seenKey ∈ s.seenEventIds
    · rw [ingest_of_seen hseen] at h
      obtain rfl : s = s' := congrArg Prod.snd h
      exact hs
    · rw [ingest_of_new hseen] at h
      obtain ⟨changed, t, -, h⟩ := bind_eq_ok.mp h
      obtain ⟨finalized, u, hfinal, hret⟩ := bind_eq_ok.mp h
      obtain rfl : u = s' := congrArg Prod.snd hret
      have hsettled : Settled cfg signal.scopeId signal.assetId
          (finalizeEligible cfg signal.scopeId signal.assetId t).2 := settled_finalizeEligible t
      rw [hfinal] at hsettled
      exact hsettled
  · have hs' := settled_ingest_of_ne hpair hs
    rw [h] at hs'
    exact hs'

/-- **A restored engine is bisimilar to the one that was saved.**  Let `A` be an engine that ingested
`before` without raising, and let its exported state be encoded and decoded.  Restoring it into a
new engine succeeds and gives an engine `B` with the same revisions of every window, the same
watermarks of every scope and asset and the same latest results; querying the watermarks changes
neither; both drop the event ids of `before`; and ingesting `after` into both gives the same
snapshots, step by step. -/
theorem restore_bisimilar (cfg : EngineConfig) (ser : Serialiser) (before after : List FeatureSignal)
    (hok : AllOk (runAll (ingest cfg) before .initial).1)
    (hinstants : ∀ signal ∈ before,
      ser.KeepsInstant signal.eventTime ∧ ser.KeepsInstant signal.ingestedAt)
    (hdocument : ser.KeepsDocument (exportState ser (runAll (ingest cfg) before .initial).2)) :
    let A := (runAll (ingest cfg) before .initial).2
    ∃ text state B, ser.dumps (exportState ser A) = .ok text ∧ ser.loads text = .ok state ∧
      restoreState cfg ser state .initial = (.ok A.signalLog.length, B) ∧
      (∀ key, B.revisionsOf key = A.revisionsOf key) ∧
      (∀ scopeId assetId, (watermarks cfg scopeId assetId B).1 =
        (watermarks cfg scopeId assetId A).1) ∧
      (∀ scopeId assetId, (watermarks cfg scopeId assetId A).2 = A ∧
        (watermarks cfg scopeId assetId B).2 = B) ∧
      (∀ scopeId assetId interval,
        latest B assetId interval scopeId = latest A assetId interval scopeId) ∧
      (runAll (ingest cfg) after B).1 = (runAll (ingest cfg) after A).1 ∧
      ∀ signal ∈ before, ∀ again : FeatureSignal, again.seenKey = signal.seenKey →
        ingest cfg again A = (.ok [], A) ∧ ingest cfg again B = (.ok [], B) := by
  intro A
  obtain ⟨text, hdumps, hloads⟩ := hdocument
  obtain ⟨hlogged, hseen⟩ := signalLog_subset cfg before
  obtain ⟨hreplay, hstate⟩ := runAll_signalLog cfg hok
  have hrestore : restoreState cfg ser (exportState ser A) .initial =
      (.ok A.signalLog.length, A) := by
    rw [restoreState_exportState (fun signal h => hinstants signal (hlogged signal h)) hreplay,
      hstate]
  have hquery : ∀ scopeId assetId, (watermarks cfg scopeId assetId A).2 = A :=
    fun scopeId assetId => watermarks_of_settled (settled_run cfg hok scopeId assetId)
  have hdrop : ∀ signal ∈ before, ∀ again : FeatureSignal, again.seenKey = signal.seenKey →
      ingest cfg again A = (.ok [], A) := by
    intro signal hsignal again hkey
    refine ingest_of_seen ?_
    rw [hkey]
    exact hseen signal hsignal
  exact ⟨text, _, A, hdumps, hloads, hrestore, fun _ => rfl, fun _ _ => rfl,
    fun scopeId assetId => ⟨hquery scopeId assetId, hquery scopeId assetId⟩, fun _ _ _ => rfl, rfl,
    fun signal hsignal again hkey => ⟨hdrop signal hsignal again hkey,
      hdrop signal hsignal again hkey⟩⟩

/-- The exported state of an engine that has one trade, as a document. -/
def tradeDocument : Json :=
  .obj [("signals", .list [.obj [("asset_id", .str "S2MUSDT"), ("event_id", .str "trade-1"),
      ("event_time", .str "2026-01-01T12:00:00Z"), ("ingested_at", .str "2026-01-01T12:00:01Z"),
      ("kind", .str "MARKET_TRADE"), ("scope_id", .str "LIVE"), ("source_domain", .str "market"),
      ("values", .obj [("price", .float 1), ("quantity", .int 100), ("side", .str "BUY")])]]),
    ("state_version", .str "feature-engine-state-v1")]

/-- The same, as a text. -/
def tradeText : String :=
  "\x7b\"signals\":[\x7b\"asset_id\":\"S2MUSDT\",\"event_id\":\"trade-1\"," ++
    "\"event_time\":\"2026-01-01T12:00:00Z\",\"ingested_at\":\"2026-01-01T12:00:01Z\"," ++
    "\"kind\":\"MARKET_TRADE\",\"scope_id\":\"LIVE\",\"source_domain\":\"market\"," ++
    "\"values\":\x7b\"price\":1.0,\"quantity\":100,\"side\":\"BUY\"\x7d\x7d]," ++
    "\"state_version\":\"feature-engine-state-v1\"\x7d"

/-- The serialisation of the two instants of the trade and of its document. -/
def tradeSerialiser : Serialiser where
  dumpDatetime := fun value =>
    if value = testStart then "2026-01-01T12:00:00Z" else "2026-01-01T12:00:01Z"
  validateDatetime := fun
    | .str "2026-01-01T12:00:00Z" => .ok testStart
    | .str "2026-01-01T12:00:01Z" => .ok (testStart + timedeltaSeconds 1)
    | _ => .error "Input should be a valid datetime"
  dumps := fun _ => .ok tradeText
  loads := fun text =>
    if text = tradeText then .ok tradeDocument else .error (.valueError "unexpected character")

/-- An engine with one trade, saved and restored. -/
theorem restore_bisimilar_trade :
    ∃ B, restoreState marketOnly tradeSerialiser tradeDocument .initial = (.ok 1, B) ∧
      B.revisionsOf ⟨"LIVE", "S2MUSDT", testStart, 60⟩ =
        (runAll (ingest marketOnly) [tradeSignal "trade-1" testStart] .initial).2.revisionsOf
          ⟨"LIVE", "S2MUSDT", testStart, 60⟩ := by
  have hok : AllOk (runAll (ingest marketOnly) [tradeSignal "trade-1" testStart] .initial).1 := by
    refine allOk_runAll_ingest ⟨rfl, by decide⟩ fun signal hsignal hkind => ?_
    rw [List.mem_singleton.mp hsignal] at hkind
    exact absurd hkind (by decide)
  have hlog : (runAll (ingest marketOnly) [tradeSignal "trade-1" testStart] .initial).2.signalLog =
      [tradeSignal "trade-1" testStart] := by
    have hsteps : EngineSteps marketOnly (tradeSignal "trade-1" testStart)
        (register (tradeSignal "trade-1" testStart) .initial)
        (ingest marketOnly (tradeSignal "trade-1" testStart) .initial).2 :=
      ingest_steps (Finset.notMem_empty _)
    exact hsteps.marked.signalLog
  have hexport : exportState tradeSerialiser
      (runAll (ingest marketOnly) [tradeSignal "trade-1" testStart] .initial).2 =
        tradeDocument := by
    rw [exportState, hlog]
    rfl
  have hload : tradeSerialiser.loads tradeText = .ok tradeDocument := by
    simp only [tradeSerialiser, if_true]
  obtain ⟨text, state, B, hdumps, hloads, hrestore, hrevisions, -⟩ :=
    restore_bisimilar marketOnly tradeSerialiser [tradeSignal "trade-1" testStart] [] hok
      (fun signal hsignal => by
        rw [List.mem_singleton.mp hsignal]
        exact ⟨rfl, rfl⟩)
      ⟨tradeText, rfl, by rw [hexport]; exact hload⟩
  obtain rfl : tradeText = text := Except.ok.inj hdumps
  obtain rfl : tradeDocument = state := Except.ok.inj (hload.symm.trans hloads)
  rw [hlog] at hrestore
  exact ⟨B, hrestore, hrevisions _⟩

end Features
end Scam2Market
