import Scam2Market.Ingestion.Services
import Scam2Market.Library.Runs

/-!
# The offsets of the telemetry worker

The loop of `workers/telemetry_persistence_worker.py` over the repositories of
`ingestion/repositories.py`, one call after another; whatever raises ends the process, and a new one
begins at the committed offsets.

* `TelemetryTopics`: the records of the partitions.  Offsets may have gaps.
* `SqlTables`: `persistMarket`, `persistRaw` and `persistPair` add rows or find a key that is taken.
* `OffsetsDurable`: whatever lies below the checkpoint or the committed offset is stored.
* `offsetsDurable_iff`: an event that waits for its partner must not be passed over.
* `checkpoint_passes_waiting`: a post that waits, and the next post of its partition, which does not.
-/

namespace Scam2Market
namespace Workers

open Ingestion (SanitizedPost)
open Library
open Streaming

/-! ## Records -/

/-- An event of the six topics. -/
inductive TelemetryEvent where
  | market (event : MarketEvent)
  | raw (event : SocialEvent SanitizedPost)
  | post (event : PostEvent)
  | mentions (event : MentionEvent)

def TelemetryEvent.eventId : TelemetryEvent → UuidText
  | market event => event.eventId
  | raw event => event.eventId
  | post event => event.eventId
  | mentions event => event.eventId

/-- The post of an event that is persisted in a pair. -/
def TelemetryEvent.pairId? : TelemetryEvent → Option String
  | post event => some event.payload.postId
  | mentions event => some event.payload.postId
  | _ => none

/-- A topic and the number of a partition. -/
abbrev Partition := String × ℕ

/-- The records of the partitions, as the ingestion publishes them.  An event id stands for one event; the
primary keys of the market tables tell events apart; a post has one normalized event and one mention
event. -/
structure TelemetryTopics where
  record? : Partition → ℕ → Option TelemetryEvent
  rowKey : MarketEvent → String
  eventId_injective : ∀ {p p' o o' event event'}, record? p o = some event →
    record? p' o' = some event' → event.eventId = event'.eventId → event = event'
  rowKey_injective : ∀ {p p' o o' event event'}, record? p o = some (.market event) →
    record? p' o' = some (.market event') → rowKey event = rowKey event' → event = event'
  post_injective : ∀ {p p' o o' event event'}, record? p o = some (.post event) →
    record? p' o' = some (.post event') → event.payload.postId = event'.payload.postId →
      event = event'
  mentions_injective : ∀ {p p' o o' event event'}, record? p o = some (.mentions event) →
    record? p' o' = some (.mentions event') → event.payload.postId = event'.payload.postId →
      event = event'

structure TelemetryRecord where
  partition : Partition
  offset : ℕ
  event : TelemetryEvent

/-! ## Tables -/

/-- `event_ingestion_log`, and the keys of the market tables and of `social_posts`. -/
structure SqlTables where
  ingestionLog : List TelemetryEvent := []
  marketRows : List String := []
  posts : List String := []

namespace SqlTables

/-- The event has a row in the ingestion log. -/
def IsLogged (t : SqlTables) (event : TelemetryEvent) : Prop :=
  event.eventId.text ∈ t.ingestionLog.map fun other => other.eventId.text

instance (t : SqlTables) (event : TelemetryEvent) : Decidable (t.IsLogged event) :=
  inferInstanceAs (Decidable (_ ∈ _))

/-- `SqlMarketRepository.persist(event, datum)`; a unique key that is taken is a duplicate. -/
def persistMarket (t : SqlTables) (rowKey : String) (event : MarketEvent) : SqlTables :=
  if t.IsLogged (.market event) ∨ rowKey ∈ t.marketRows then t
  else { t with
    ingestionLog := t.ingestionLog ++ [.market event], marketRows := t.marketRows ++ [rowKey] }

/-- `SqlSocialRepository.persist_raw(event)`. -/
def persistRaw (t : SqlTables) (event : SocialEvent SanitizedPost) : SqlTables :=
  if t.IsLogged (.raw event) then t
  else { t with ingestionLog := t.ingestionLog ++ [.raw event] }

/-- `SqlSocialRepository.persist_pair(normalized_event, mention_event)`: both, or none. -/
def persistPair (t : SqlTables) (normalized : PostEvent) (mention : MentionEvent) : SqlTables :=
  if t.IsLogged (.post normalized) ∨ t.IsLogged (.mentions mention) ∨
      normalized.payload.postId ∈ t.posts then t
  else { t with
    ingestionLog := t.ingestionLog ++ [.post normalized, .mentions mention]
    posts := t.posts ++ [normalized.payload.postId] }

end SqlTables

/-! ## The worker -/

/-- Where the worker stands with a record. -/
inductive TelemetryStage where
  | polling
  | received (record : TelemetryRecord)
  | keyed (record : TelemetryRecord) (postId : String)
  | readPost (record : TelemetryRecord) (postId : String) (normalized : Option PostEvent)
  | readBoth (record : TelemetryRecord) (normalized : PostEvent) (mention : MentionEvent)
  | durable (record : TelemetryRecord)
  | checkpointed (record : TelemetryRecord)

/-- The tables, the join keys `persistence:social:post:{post_id}` and
`persistence:social:mentions:{post_id}`, the checkpoints, the committed offsets, and what the process
remembers. -/
structure TelemetryWorker where
  tables : SqlTables := {}
  postKeys : String → Option PostEvent := fun _ => none
  mentionKeys : String → Option MentionEvent := fun _ => none
  lastDurableOffset : Partition → Option ℕ := fun _ => none
  committed : Partition → ℕ := fun _ => 0
  position : Partition → ℕ := fun _ => 0
  stage : TelemetryStage := .polling

inductive TelemetryMove where
  | fetch (partition : Partition) (offset : ℕ)
  | advance
  | crash

namespace TelemetryWorker

variable (topics : TelemetryTopics)

/-- The process stops; the next one begins at the committed offsets. -/
def crash (s : TelemetryWorker) : TelemetryWorker :=
  { s with position := s.committed, stage := .polling }

/-- The next record of a partition. -/
def fetch (s : TelemetryWorker) (partition : Partition) (offset : ℕ) : TelemetryWorker :=
  match s.stage, topics.record? partition offset with
  | .polling, some event =>
    if s.position partition ≤ offset ∧
        ∀ skipped < offset, s.position partition ≤ skipped → topics.record? partition skipped = none
    then { s with
      position := Function.update s.position partition (offset + 1)
      stage := .received ⟨partition, offset, event⟩ }
    else s
  | _, _ => s

/-- The branches of the loop. -/
def receive (s : TelemetryWorker) (record : TelemetryRecord) : TelemetryWorker :=
  match record.event with
  | .market event =>
    match normalizeMarketEvent event with
    | .ok _ => { s with
        tables := s.tables.persistMarket (topics.rowKey event) event, stage := .durable record }
    | .error _ => s.crash
  | .raw event => { s with tables := s.tables.persistRaw event, stage := .durable record }
  | .post event =>
    let postId := event.payload.postId
    { s with
      postKeys := Function.update s.postKeys postId (some event), stage := .keyed record postId }
  | .mentions event =>
    let postId := event.payload.postId
    { s with
      mentionKeys := Function.update s.mentionKeys postId (some event)
      stage := .keyed record postId }

/-- What is done once both keys are read: without one of them, the record is not durable. -/
def join (s : TelemetryWorker) (record : TelemetryRecord) (normalized : Option PostEvent)
    (mention : Option MentionEvent) : TelemetryWorker :=
  match normalized, mention with
  | some normalized, some mention => { s with stage := .readBoth record normalized mention }
  | _, _ => { s with stage := .polling }

/-- `SqlWorkerCheckpointRepository.save(...)`. -/
def save (s : TelemetryWorker) (record : TelemetryRecord) : TelemetryWorker :=
  let offset := match s.lastDurableOffset record.partition with
    | none => record.offset
    | some lastDurable => max lastDurable record.offset
  { s with
    lastDurableOffset := Function.update s.lastDurableOffset record.partition (some offset)
    stage := .checkpointed record }

/-- `consumer.commit(record)`. -/
def commit (s : TelemetryWorker) (record : TelemetryRecord) : TelemetryWorker :=
  { s with
    committed := Function.update s.committed record.partition (record.offset + 1)
    stage := .polling }

/-- The next call. -/
def advance (s : TelemetryWorker) : TelemetryWorker :=
  match s.stage with
  | .polling => s
  | .received record => s.receive topics record
  | .keyed record postId => { s with stage := .readPost record postId (s.postKeys postId) }
  | .readPost record postId normalized => s.join record normalized (s.mentionKeys postId)
  | .readBoth record normalized mention =>
    { s with tables := s.tables.persistPair normalized mention, stage := .durable record }
  | .durable record => s.save record
  | .checkpointed record => s.commit record

def step (s : TelemetryWorker) : TelemetryMove → TelemetryWorker
  | .fetch partition offset => s.fetch topics partition offset
  | .advance => s.advance topics
  | .crash => s.crash

/-- An offset lies below the checkpoint of its partition, or below the committed offset. -/
def Passed (s : TelemetryWorker) (partition : Partition) (offset : ℕ) : Prop :=
  (∃ lastDurable, s.lastDurableOffset partition = some lastDurable ∧ offset ≤ lastDurable) ∨
    offset < s.committed partition

/-- **Durable offsets are durable.** -/
def OffsetsDurable (s : TelemetryWorker) : Prop :=
  ∀ partition offset event, topics.record? partition offset = some event →
    s.Passed partition offset → event ∈ s.tables.ingestionLog

/-- A record whose event waits for its partner: the pair is not persisted. -/
def Waits (s : TelemetryWorker) (partition : Partition) (offset : ℕ) : Prop :=
  ∃ event, topics.record? partition offset = some event ∧ event.pairId?.isSome ∧
    event ∉ s.tables.ingestionLog

/-- The condition on a step: when a record is saved as durable, no earlier record of its partition still
waits for its partner. -/
def Careful (s : TelemetryWorker) : TelemetryMove → Prop
  | .advance => match s.stage with
    | .durable record => ∀ offset < record.offset, ¬ s.Waits topics record.partition offset
    | _ => True
  | _ => True

end TelemetryWorker

/-! ## What the tables hold -/

section Tables

variable {topics : TelemetryTopics} {t : SqlTables}

/-- A record of some partition. -/
def TelemetryTopics.Has (topics : TelemetryTopics) (event : TelemetryEvent) : Prop :=
  ∃ partition offset, topics.record? partition offset = some event

/-- What is logged was a record, and a row stands for a logged event. -/
structure SqlTables.Sound (topics : TelemetryTopics) (t : SqlTables) : Prop where
  logged : ∀ event ∈ t.ingestionLog, topics.Has event
  rows : ∀ key ∈ t.marketRows, ∃ event, .market event ∈ t.ingestionLog ∧ topics.rowKey event = key
  pairs : ∀ postId ∈ t.posts, ∃ normalized mention, .post normalized ∈ t.ingestionLog ∧
    .mentions mention ∈ t.ingestionLog ∧ normalized.payload.postId = postId ∧
      mention.payload.postId = postId
  paired : ∀ event ∈ t.ingestionLog, ∀ postId, event.pairId? = some postId → postId ∈ t.posts

theorem SqlTables.sound_empty : SqlTables.Sound topics {} where
  logged _ h := (List.not_mem_nil h).elim
  rows _ h := (List.not_mem_nil h).elim
  pairs _ h := (List.not_mem_nil h).elim
  paired _ h := (List.not_mem_nil h).elim

/-- A record whose event id is logged is logged. -/
theorem SqlTables.Sound.mem_of_isLogged (h : t.Sound topics) {event : TelemetryEvent}
    (hrecord : topics.Has event) (hlogged : t.IsLogged event) : event ∈ t.ingestionLog := by
  obtain ⟨other, hother, htext⟩ := List.mem_map.mp hlogged
  obtain ⟨partition, offset, hrecord⟩ := hrecord
  obtain ⟨partition', offset', hrecord'⟩ := h.logged other hother
  rwa [← topics.eventId_injective hrecord' hrecord (UuidText.ext htext)]

/-- The pair of a post that is stored. -/
theorem SqlTables.Sound.pair_of_mem (h : t.Sound topics) {normalized : PostEvent}
    {mention : MentionEvent} (hnormalized : topics.Has (.post normalized))
    (hmention : topics.Has (.mentions mention))
    (hpost : normalized.payload.postId = mention.payload.postId)
    (hmem : normalized.payload.postId ∈ t.posts) :
    .post normalized ∈ t.ingestionLog ∧ .mentions mention ∈ t.ingestionLog := by
  obtain ⟨normalized', mention', hlog, hlog', hid, hid'⟩ := h.pairs _ hmem
  obtain ⟨_, _, hnormalized⟩ := hnormalized
  obtain ⟨_, _, hmention⟩ := hmention
  obtain ⟨_, _, hrecord⟩ := h.logged _ hlog
  obtain ⟨_, _, hrecord'⟩ := h.logged _ hlog'
  obtain rfl := topics.post_injective hrecord hnormalized hid
  obtain rfl := topics.mentions_injective hrecord' hmention (hid'.trans hpost)
  exact ⟨hlog, hlog'⟩

/-- An event that stands alone is logged. -/
theorem SqlTables.Sound.append (h : t.Sound topics) {event : TelemetryEvent}
    (hrecord : topics.Has event) (halone : event.pairId? = none) {marketRows : List String}
    (hrows : ∀ key ∈ marketRows, key ∈ t.marketRows ∨
      ∃ market, event = .market market ∧ topics.rowKey market = key) :
    SqlTables.Sound topics
      { t with ingestionLog := t.ingestionLog ++ [event], marketRows := marketRows } where
  logged other hother := by
    rcases List.mem_append.mp hother with hold | hnew
    · exact h.logged other hold
    · exact List.mem_singleton.mp hnew ▸ hrecord
  rows key hkey := by
    rcases hrows key hkey with hold | ⟨market, rfl, hrow⟩
    · obtain ⟨market, hmarket, hrow⟩ := h.rows key hold
      exact ⟨market, List.mem_append_left _ hmarket, hrow⟩
    · exact ⟨market, List.mem_append_right _ (List.mem_singleton_self _), hrow⟩
  pairs postId hpost := by
    obtain ⟨normalized, mention, hlog, hlog', hids⟩ := h.pairs postId hpost
    exact ⟨normalized, mention, List.mem_append_left _ hlog, List.mem_append_left _ hlog', hids⟩
  paired other hother postId hpair := by
    rcases List.mem_append.mp hother with hold | hnew
    · exact h.paired other hold postId hpair
    · rw [List.mem_singleton.mp hnew, halone] at hpair
      cases hpair

/-- What a persist leaves: sound tables, everything that was logged, and the event. -/
theorem SqlTables.Sound.persistMarket (h : t.Sound topics) {event : MarketEvent}
    (hrecord : topics.Has (.market event)) :
    (t.persistMarket (topics.rowKey event) event).Sound topics ∧
      t.ingestionLog ⊆ (t.persistMarket (topics.rowKey event) event).ingestionLog ∧
      .market event ∈ (t.persistMarket (topics.rowKey event) event).ingestionLog := by
  unfold SqlTables.persistMarket
  split_ifs with htaken
  · refine ⟨h, List.Subset.refl _, ?_⟩
    rcases htaken with hlogged | hrow
    · exact h.mem_of_isLogged hrecord hlogged
    · obtain ⟨other, hother, hkey⟩ := h.rows _ hrow
      obtain ⟨_, _, hrecord'⟩ := h.logged _ hother
      obtain ⟨_, _, hrecord⟩ := hrecord
      exact topics.rowKey_injective hrecord' hrecord hkey ▸ hother
  · refine ⟨h.append hrecord rfl fun key hkey => ?_, List.subset_append_left _ _,
      List.mem_append_right _ (List.mem_singleton_self _)⟩
    rcases List.mem_append.mp hkey with hold | hnew
    · exact Or.inl hold
    · exact Or.inr ⟨event, rfl, (List.mem_singleton.mp hnew).symm⟩

theorem SqlTables.Sound.persistRaw (h : t.Sound topics) {event : SocialEvent SanitizedPost}
    (hrecord : topics.Has (.raw event)) :
    (t.persistRaw event).Sound topics ∧ t.ingestionLog ⊆ (t.persistRaw event).ingestionLog ∧
      .raw event ∈ (t.persistRaw event).ingestionLog := by
  unfold SqlTables.persistRaw
  split_ifs with htaken
  · exact ⟨h, List.Subset.refl _, h.mem_of_isLogged hrecord htaken⟩
  · exact ⟨h.append hrecord rfl fun key hkey => Or.inl hkey, List.subset_append_left _ _,
      List.mem_append_right _ (List.mem_singleton_self _)⟩

theorem SqlTables.Sound.persistPair (h : t.Sound topics) {normalized : PostEvent}
    {mention : MentionEvent} (hnormalized : topics.Has (.post normalized))
    (hmention : topics.Has (.mentions mention))
    (hpost : normalized.payload.postId = mention.payload.postId) :
    (t.persistPair normalized mention).Sound topics ∧
      t.ingestionLog ⊆ (t.persistPair normalized mention).ingestionLog ∧
      .post normalized ∈ (t.persistPair normalized mention).ingestionLog ∧
      .mentions mention ∈ (t.persistPair normalized mention).ingestionLog := by
  unfold SqlTables.persistPair
  split_ifs with htaken
  · -- a key is taken only by the pair itself
    have hmem : normalized.payload.postId ∈ t.posts := by
      rcases htaken with hlogged | hlogged | hmem
      · exact h.paired _ (h.mem_of_isLogged hnormalized hlogged) _ rfl
      · exact h.paired _ (h.mem_of_isLogged hmention hlogged) _ (congrArg some hpost.symm)
      · exact hmem
    exact ⟨h, List.Subset.refl _, h.pair_of_mem hnormalized hmention hpost hmem⟩
  · have hold : t.ingestionLog ⊆ t.ingestionLog ++ [.post normalized, .mentions mention] :=
      List.subset_append_left _ _
    have hpostMem : .post normalized ∈ t.ingestionLog ++ [.post normalized, .mentions mention] := by
      simp
    have hmentionMem :
        .mentions mention ∈ t.ingestionLog ++ [.post normalized, .mentions mention] := by
      simp
    refine ⟨⟨fun event hevent => ?_, fun key hkey => ?_, fun postId hmem => ?_,
      fun event hevent postId hpair => ?_⟩, hold, hpostMem, hmentionMem⟩
    · simp only [List.mem_append, List.mem_cons, List.not_mem_nil, or_false] at hevent
      rcases hevent with hevent | rfl | rfl
      · exact h.logged event hevent
      · exact hnormalized
      · exact hmention
    · obtain ⟨event, hevent, hrow⟩ := h.rows key hkey
      exact ⟨event, hold hevent, hrow⟩
    · rcases List.mem_append.mp hmem with hmem | hmem
      · obtain ⟨normalized', mention', hlog, hlog', hids⟩ := h.pairs postId hmem
        exact ⟨normalized', mention', hold hlog, hold hlog', hids⟩
      · obtain rfl := List.mem_singleton.mp hmem
        exact ⟨normalized, mention, hpostMem, hmentionMem, rfl, hpost.symm⟩
    · simp only [List.mem_append, List.mem_cons, List.not_mem_nil, or_false] at hevent
      rcases hevent with hevent | rfl | rfl
      · exact List.mem_append_left _ (h.paired event hevent postId hpair)
      · exact List.mem_append_right _ (List.mem_singleton.mpr (Option.some.inj hpair).symm)
      · exact List.mem_append_right _
          (List.mem_singleton.mpr ((Option.some.inj hpair).symm.trans hpost.symm))

end Tables

/-! ## What holds after every step -/

/-- The record that is being handled. -/
def TelemetryStage.record? : TelemetryStage → Option TelemetryRecord
  | .polling => none
  | .received record => some record
  | .keyed record _ => some record
  | .readPost record _ _ => some record
  | .readBoth record _ _ => some record
  | .durable record => some record
  | .checkpointed record => some record

namespace TelemetryWorker

variable {topics : TelemetryTopics} {s : TelemetryWorker}

/-- What is known of the record that is being handled. -/
def Knows (topics : TelemetryTopics) (s : TelemetryWorker) : TelemetryStage → Prop
  | .polling => True
  | .received _ => True
  | .keyed record postId => record.event.pairId? = some postId
  | .readPost record postId normalized => record.event.pairId? = some postId ∧
    ∀ event, normalized = some event → topics.Has (.post event) ∧ event.payload.postId = postId
  | .readBoth record normalized mention => topics.Has (.post normalized) ∧
    topics.Has (.mentions mention) ∧ normalized.payload.postId = mention.payload.postId ∧
      record.event.pairId? = some mention.payload.postId
  | .durable record => record.event ∈ s.tables.ingestionLog
  | .checkpointed record => ∃ lastDurable,
    s.lastDurableOffset record.partition = some lastDurable ∧ record.offset ≤ lastDurable

/-- Below the position of a partition, every event is stored, or waits for its partner, or is being
handled. -/
structure Sound (topics : TelemetryTopics) (s : TelemetryWorker) : Prop where
  tables : s.tables.Sound topics
  postKeys : ∀ postId event, s.postKeys postId = some event →
    topics.Has (.post event) ∧ event.payload.postId = postId
  mentionKeys : ∀ postId event, s.mentionKeys postId = some event →
    topics.Has (.mentions event) ∧ event.payload.postId = postId
  durable : s.OffsetsDurable topics
  seen : ∀ partition offset event, topics.record? partition offset = some event →
    offset < s.position partition → event ∈ s.tables.ingestionLog ∨ event.pairId?.isSome ∨
      ∃ record, s.stage.record? = some record ∧ record.partition = partition ∧
        record.offset = offset
  committed_le : ∀ partition, s.committed partition ≤ s.position partition
  current : ∀ record, s.stage.record? = some record →
    topics.record? record.partition record.offset = some record.event ∧
      s.position record.partition = record.offset + 1
  knows : s.Knows topics s.stage

theorem sound_initial : Sound topics {} where
  tables := SqlTables.sound_empty
  postKeys _ _ h := by cases h
  mentionKeys _ _ h := by cases h
  durable _ offset _ _ hpassed := by
    rcases hpassed with ⟨_, hnone, _⟩ | hlt
    · cases hnone
    · exact absurd hlt (Nat.not_lt_zero offset)
  seen _ offset _ _ hlt := absurd hlt (Nat.not_lt_zero offset)
  committed_le _ := le_refl 0
  current _ h := by cases h
  knows := trivial

/-- A restart goes back to what is stored. -/
theorem Sound.crash (h : s.Sound topics) : s.crash.Sound topics where
  tables := h.tables
  postKeys := h.postKeys
  mentionKeys := h.mentionKeys
  durable := h.durable
  seen partition offset event hrecord hlt :=
    Or.inl (h.durable partition offset event hrecord (Or.inr hlt))
  committed_le _ := le_refl _
  current _ hrecord := by cases hrecord
  knows := trivial

theorem Sound.fetch (h : s.Sound topics) (partition : Partition) (offset : ℕ) :
    (s.fetch topics partition offset).Sound topics := by
  unfold TelemetryWorker.fetch
  split
  case h_2 => exact h
  case h_1 event hstage hevent =>
  split_ifs with hnext
  case neg => exact h
  obtain ⟨hposition, hgap⟩ := hnext
  have hpositionOf : ∀ other, Function.update s.position partition (offset + 1) other =
      if other = partition then offset + 1 else s.position other :=
    fun other => Function.update_apply ..
  refine ⟨h.tables, h.postKeys, h.mentionKeys, h.durable, ?_, ?_, ?_, trivial⟩
  · intro other lower event' hrecord hlt
    have hidle : s.stage.record? = none := by rw [hstage]; rfl
    have hold : lower < s.position other →
        event' ∈ s.tables.ingestionLog ∨ event'.pairId?.isSome := by
      intro hlt
      rcases h.seen other lower event' hrecord hlt with hlogged | hpair | ⟨record, hcurrent, -⟩
      · exact Or.inl hlogged
      · exact Or.inr hpair
      · cases hidle.symm.trans hcurrent
    have hbelow : lower < Function.update s.position partition (offset + 1) other := hlt
    rw [hpositionOf] at hbelow
    split_ifs at hbelow with hsame
    · subst hsame
      rcases Nat.lt_or_ge lower (s.position other) with hlower | hfrom
      · exact (hold hlower).imp_right Or.inl
      · -- from the position on there is only the record that is fetched
        rcases Nat.lt_succ_iff_lt_or_eq.mp hbelow with hskipped | rfl
        · cases (hgap lower hskipped hfrom).symm.trans hrecord
        · exact Or.inr (Or.inr ⟨_, rfl, rfl, rfl⟩)
    · exact (hold hbelow).imp_right Or.inl
  · intro other
    show s.committed other ≤ Function.update s.position partition (offset + 1) other
    rw [hpositionOf]
    split_ifs with hsame
    · have hle := h.committed_le partition
      rw [hsame]
      omega
    · exact h.committed_le other
  · intro record hrecord
    obtain rfl := Option.some.inj hrecord
    exact ⟨hevent, Function.update_self ..⟩

/-- The worker goes on with its record; nothing that is stored is lost. -/
theorem Sound.goOn (h : s.Sound topics) {tables : SqlTables} (htables : tables.Sound topics)
    (hlog : s.tables.ingestionLog ⊆ tables.ingestionLog) {stage : TelemetryStage}
    (hrecord : stage.record? = s.stage.record?)
    (hknows : Knows topics { s with tables := tables, stage := stage } stage) :
    Sound topics { s with tables := tables, stage := stage } where
  tables := htables
  postKeys := h.postKeys
  mentionKeys := h.mentionKeys
  durable partition offset event hevent hpassed :=
    hlog (h.durable partition offset event hevent hpassed)
  seen partition offset event hevent hlt := by
    rw [hrecord]
    exact (h.seen partition offset event hevent hlt).imp_left (@hlog event)
  committed_le := h.committed_le
  current record hcurrent := h.current record (hrecord.symm.trans hcurrent)
  knows := hknows

theorem Sound.has_current (h : s.Sound topics) {record : TelemetryRecord}
    (hrecord : s.stage.record? = some record) : topics.Has record.event :=
  ⟨_, _, (h.current record hrecord).1⟩

theorem Sound.receive (h : s.Sound topics) {record : TelemetryRecord}
    (hstage : s.stage = .received record) : (s.receive topics record).Sound topics := by
  have hcurrent : s.stage.record? = some record := by rw [hstage]; rfl
  have hhas := h.has_current hcurrent
  unfold TelemetryWorker.receive
  split
  case h_1 event hevent =>
    rw [hevent] at hhas
    split
    · obtain ⟨htables, hlog, hmem⟩ := h.tables.persistMarket hhas
      refine h.goOn htables hlog hcurrent.symm ?_
      show record.event ∈ _
      rwa [hevent]
    · exact h.crash
  case h_2 event hevent =>
    rw [hevent] at hhas
    obtain ⟨htables, hlog, hmem⟩ := h.tables.persistRaw hhas
    refine h.goOn htables hlog hcurrent.symm ?_
    show record.event ∈ _
    rwa [hevent]
  case h_3 event hevent =>
    rw [hevent] at hhas
    have hrecord : (TelemetryStage.keyed record event.payload.postId).record? = s.stage.record? :=
      hcurrent.symm
    have hgoes := h.goOn h.tables
      (List.Subset.refl _) hrecord (by show record.event.pairId? = _; rw [hevent]; rfl)
    refine { hgoes with postKeys := fun postId event' hkey => ?_ }
    have hkey' : Function.update s.postKeys event.payload.postId (some event) postId =
        some event' := hkey
    rw [Function.update_apply] at hkey'
    split_ifs at hkey' with hpost
    · obtain rfl := Option.some.inj hkey'
      exact ⟨hhas, hpost.symm⟩
    · exact h.postKeys postId event' hkey'
  case h_4 event hevent =>
    rw [hevent] at hhas
    have hrecord : (TelemetryStage.keyed record event.payload.postId).record? = s.stage.record? :=
      hcurrent.symm
    have hgoes := h.goOn h.tables
      (List.Subset.refl _) hrecord (by show record.event.pairId? = _; rw [hevent]; rfl)
    refine { hgoes with mentionKeys := fun postId event' hkey => ?_ }
    have hkey' : Function.update s.mentionKeys event.payload.postId (some event) postId =
        some event' := hkey
    rw [Function.update_apply] at hkey'
    split_ifs at hkey' with hpost
    · obtain rfl := Option.some.inj hkey'
      exact ⟨hhas, hpost.symm⟩
    · exact h.mentionKeys postId event' hkey'

/-- A record that waits for its partner is left behind, its offset below the position. -/
theorem Sound.leave (h : s.Sound topics) {record : TelemetryRecord}
    (hcurrent : s.stage.record? = some record) (hpair : record.event.pairId?.isSome) :
    Sound topics { s with stage := .polling } where
  tables := h.tables
  postKeys := h.postKeys
  mentionKeys := h.mentionKeys
  durable := h.durable
  seen partition offset event hevent hlt := by
    rcases h.seen partition offset event hevent hlt with
      hlogged | hwaits | ⟨record', hrecord', rfl, rfl⟩
    · exact Or.inl hlogged
    · exact Or.inr (Or.inl hwaits)
    · obtain rfl := Option.some.inj (hcurrent.symm.trans hrecord')
      obtain rfl := Option.some.inj ((h.current record hcurrent).1.symm.trans hevent)
      exact Or.inr (Or.inl hpair)
  committed_le := h.committed_le
  current _ hrecord := by cases hrecord
  knows := trivial

theorem Sound.join (h : s.Sound topics) {record : TelemetryRecord} {postId : String}
    {normalized : Option PostEvent} (hstage : s.stage = .readPost record postId normalized) :
    (s.join record normalized (s.mentionKeys postId)).Sound topics := by
  have hcurrent : s.stage.record? = some record := by rw [hstage]; rfl
  have hknows := h.knows
  rw [hstage] at hknows
  obtain ⟨hpair, hread⟩ := hknows
  have hleave : Sound topics { s with stage := .polling } :=
    h.leave hcurrent (Option.isSome_of_eq_some hpair)
  cases normalized with
  | none => exact hleave
  | some post =>
    cases hkey : s.mentionKeys postId with
    | none => exact hleave
    | some mention =>
      obtain ⟨hpost, hpostId⟩ := hread post rfl
      obtain ⟨hmention, hmentionId⟩ := h.mentionKeys postId mention hkey
      exact h.goOn h.tables (List.Subset.refl _) hcurrent.symm
        ⟨hpost, hmention, hpostId.trans hmentionId.symm,
          hpair.trans (congrArg some hmentionId.symm)⟩

/-- The pair is persisted, and with it the event of the record. -/
theorem Sound.persist (h : s.Sound topics) {record : TelemetryRecord} {normalized : PostEvent}
    {mention : MentionEvent} (hstage : s.stage = .readBoth record normalized mention) :
    Sound topics { s with
      tables := s.tables.persistPair normalized mention, stage := .durable record } := by
  have hcurrent : s.stage.record? = some record := by rw [hstage]; rfl
  have hknows := h.knows
  rw [hstage] at hknows
  obtain ⟨hpost, hmention, hpostId, hpair⟩ := hknows
  obtain ⟨htables, hlog, hpostMem, hmentionMem⟩ := h.tables.persistPair hpost hmention hpostId
  refine h.goOn htables hlog hcurrent.symm ?_
  show record.event ∈ _
  obtain ⟨partition, offset, hrecord⟩ := h.has_current hcurrent
  obtain ⟨_, _, hpost⟩ := hpost
  obtain ⟨_, _, hmention⟩ := hmention
  cases hevent : record.event with
  | market event => rw [hevent] at hpair; cases hpair
  | raw event => rw [hevent] at hpair; cases hpair
  | post event =>
    rw [hevent] at hpair hrecord
    obtain rfl := topics.post_injective hrecord hpost ((Option.some.inj hpair).trans hpostId.symm)
    exact hpostMem
  | mentions event =>
    rw [hevent] at hpair hrecord
    obtain rfl := topics.mentions_injective hrecord hmention (Option.some.inj hpair)
    exact hmentionMem

/-- What is passed after a checkpoint. -/
theorem passed_save {record : TelemetryRecord} {partition : Partition} {offset : ℕ}
    (h : (s.save record).Passed partition offset) :
    s.Passed partition offset ∨ partition = record.partition ∧ offset ≤ record.offset := by
  rcases h with ⟨lastDurable, hdurable, hle⟩ | hlt
  · have hupdate : Function.update s.lastDurableOffset record.partition
        (some (match s.lastDurableOffset record.partition with
          | none => record.offset
          | some lastDurable => max lastDurable record.offset)) partition = some lastDurable :=
      hdurable
    rw [Function.update_apply] at hupdate
    split_ifs at hupdate with hsame
    · subst hsame
      have hmax := Option.some.inj hupdate
      split at hmax
      · exact Or.inr ⟨rfl, hmax ▸ hle⟩
      · rename_i before hbefore
        rcases le_max_iff.mp (hmax ▸ hle) with hold | hnew
        · exact Or.inl (Or.inl ⟨before, hbefore, hold⟩)
        · exact Or.inr ⟨rfl, hnew⟩
    · exact Or.inl (Or.inl ⟨lastDurable, hupdate, hle⟩)
  · exact Or.inl (Or.inr hlt)

/-- The checkpoint covers its record. -/
theorem lastDurableOffset_save (s : TelemetryWorker) (record : TelemetryRecord) :
    ∃ lastDurable, (s.save record).lastDurableOffset record.partition = some lastDurable ∧
      record.offset ≤ lastDurable := by
  refine ⟨_, Function.update_self .., ?_⟩
  split
  · exact le_refl _
  · exact le_max_right _ _

theorem Sound.save (h : s.Sound topics) {record : TelemetryRecord}
    (hstage : s.stage = .durable record)
    (hcareful : ∀ offset < record.offset, ¬ s.Waits topics record.partition offset) :
    (s.save record).Sound topics := by
  have hcurrent : s.stage.record? = some record := by rw [hstage]; rfl
  have hknows := h.knows
  rw [hstage] at hknows
  obtain ⟨hrecord, hposition⟩ := h.current record hcurrent
  have hcovers := lastDurableOffset_save s record
  refine ⟨h.tables, h.postKeys, h.mentionKeys, ?_, ?_, h.committed_le, ?_, ?_⟩
  · intro partition offset event hevent hpassed
    rcases passed_save hpassed with hbefore | ⟨rfl, hle⟩
    · exact h.durable partition offset event hevent hbefore
    · rcases h.seen _ offset event hevent (by omega) with
        hlogged | hpair | ⟨record', hrecord', -, hoffset⟩
      · exact hlogged
      · -- a post or mention event below the record is stored, or it would still wait
        rcases hle.lt_or_eq with hlt | rfl
        · by_contra hnot
          exact hcareful offset hlt ⟨event, hevent, hpair, hnot⟩
        · obtain rfl := Option.some.inj (hrecord.symm.trans hevent)
          exact hknows
      · obtain rfl := Option.some.inj (hcurrent.symm.trans hrecord')
        subst hoffset
        obtain rfl := Option.some.inj (hrecord.symm.trans hevent)
        exact hknows
  · intro partition offset event hevent hlt
    have hseen := h.seen partition offset event hevent hlt
    rwa [hcurrent] at hseen
  · intro record' hrecord'
    obtain rfl := Option.some.inj hrecord'
    exact ⟨hrecord, hposition⟩
  · exact hcovers

theorem Sound.commit (h : s.Sound topics) {record : TelemetryRecord}
    (hstage : s.stage = .checkpointed record) : (s.commit record).Sound topics := by
  have hcurrent : s.stage.record? = some record := by rw [hstage]; rfl
  have hknows := h.knows
  rw [hstage] at hknows
  obtain ⟨lastDurable, hdurable, hcovers⟩ := hknows
  obtain ⟨hrecord, hposition⟩ := h.current record hcurrent
  have hcommitted : ∀ partition, (s.commit record).committed partition =
      if partition = record.partition then record.offset + 1 else s.committed partition :=
    fun partition => Function.update_apply ..
  have hpassed : ∀ {partition offset}, (s.commit record).Passed partition offset →
      s.Passed partition offset := by
    rintro partition offset (hbelow | hlt)
    · exact Or.inl hbelow
    · rw [hcommitted] at hlt
      split_ifs at hlt with hsame
      · exact Or.inl ⟨lastDurable, hsame ▸ hdurable, by omega⟩
      · exact Or.inr hlt
  refine ⟨h.tables, h.postKeys, h.mentionKeys, ?_, ?_, ?_, ?_, trivial⟩
  · exact fun partition offset event hevent hpast =>
      h.durable partition offset event hevent (hpassed hpast)
  · intro partition offset event hevent hlt
    rcases h.seen partition offset event hevent hlt with
      hlogged | hpair | ⟨record', hrecord', rfl, rfl⟩
    · exact Or.inl hlogged
    · exact Or.inr (Or.inl hpair)
    · obtain rfl := Option.some.inj (hcurrent.symm.trans hrecord')
      exact Or.inl (h.durable _ _ event hevent (Or.inl ⟨lastDurable, hdurable, hcovers⟩))
  · intro partition
    show (s.commit record).committed partition ≤ s.position partition
    rw [hcommitted]
    split_ifs with hsame
    · rw [hsame, hposition]
    · exact h.committed_le partition
  · intro record' hrecord'
    cases hrecord'

/-- A careful step keeps what is stored below every offset. -/
theorem Sound.step (h : s.Sound topics) (move : TelemetryMove) (hcareful : s.Careful topics move) :
    (s.step topics move).Sound topics := by
  cases move with
  | fetch partition offset => exact h.fetch partition offset
  | crash => exact h.crash
  | advance =>
    show (s.advance topics).Sound topics
    unfold TelemetryWorker.advance
    cases hstage : s.stage with
    | polling => exact h
    | received record => exact h.receive hstage
    | keyed record postId =>
      have hknows := h.knows
      rw [hstage] at hknows
      exact h.goOn h.tables (List.Subset.refl _) (by rw [hstage]; rfl)
        ⟨hknows, fun event hkey => h.postKeys postId event hkey⟩
    | readPost record postId normalized => exact h.join hstage
    | readBoth record normalized mention => exact h.persist hstage
    | durable record =>
      refine h.save hstage ?_
      simpa only [Careful, hstage] using hcareful
    | checkpointed record => exact h.commit hstage

/-- **The exact condition.**  Durable offsets are durable in every state of a run exactly when no record
is saved as durable while an earlier record of its partition still waits for its partner. -/
theorem offsetsDurable_iff (topics : TelemetryTopics) (moves : List TelemetryMove) :
    Always (step topics) (OffsetsDurable topics) {} moves ↔
      Throughout (step topics) (Careful topics) {} moves := by
  refine always_iff_throughout (I := Sound topics) (fun s move h hmove => h.step move hmove)
    (fun s h => h.durable) (fun s move h hcareless hdurable => hcareless ?_) sound_initial moves
  cases move with
  | fetch partition offset => exact trivial
  | crash => exact trivial
  | advance =>
    show match s.stage with
      | .durable record => ∀ offset < record.offset, ¬ s.Waits topics record.partition offset
      | _ => True
    cases hstage : s.stage with
    | durable record =>
      rintro offset hlt ⟨event, hevent, -, hnot⟩
      -- the checkpoint passes the record that waits
      have hstep : s.step topics .advance = s.save record := by
        show s.advance topics = _
        unfold TelemetryWorker.advance
        rw [hstage]
      obtain ⟨lastDurable, hsaved, hcovers⟩ := lastDurableOffset_save s record
      rw [hstep] at hdurable
      exact hnot (hdurable record.partition offset event hevent
        (Or.inl ⟨lastDurable, hsaved, by omega⟩))
    | _ => exact trivial

/-! ## A post that is passed over -/

/-- The normalized event of a post. -/
def postEvent (name : UuidText) (postId : String) : PostEvent where
  eventId := name
  source := "social-replay"
  eventTime := 0
  ingestedAt := 0
  payload := { postId, platform := "synthetic", authorId := "actor-0", eventTime := 0 }

/-- The mention event of a post in which nothing is mentioned. -/
def mentionEvent (name : UuidText) (postId : String) : MentionEvent where
  eventId := name
  source := "social-replay"
  eventTime := 0
  ingestedAt := 0
  payload := { postId, mentions := [] }

/-- Two posts in one partition, and the mentions of the second. -/
def twoPosts : Partition → ℕ → Option TelemetryEvent
  | ("social.posts.normalized.v1", 0), 0 => some (.post (postEvent ⟨"a1", by decide⟩ "A"))
  | ("social.posts.normalized.v1", 0), 1 => some (.post (postEvent ⟨"b1", by decide⟩ "B"))
  | ("social.mentions.v1", 0), 0 => some (.mentions (mentionEvent ⟨"b2", by decide⟩ "B"))
  | _, _ => none

theorem mem_twoPosts {partition : Partition} {offset : ℕ} {event : TelemetryEvent}
    (h : twoPosts partition offset = some event) :
    event = .post (postEvent ⟨"a1", by decide⟩ "A") ∨
      event = .post (postEvent ⟨"b1", by decide⟩ "B") ∨
      event = .mentions (mentionEvent ⟨"b2", by decide⟩ "B") := by
  unfold twoPosts at h
  split at h
  · exact Or.inl (Option.some.inj h).symm
  · exact Or.inr (Or.inl (Option.some.inj h).symm)
  · exact Or.inr (Or.inr (Option.some.inj h).symm)
  · cases h

def twoPostTopics : TelemetryTopics where
  record? := twoPosts
  rowKey _ := ""
  eventId_injective h h' hid := by
    have htext := congrArg UuidText.text hid
    rcases mem_twoPosts h with rfl | rfl | rfl <;> rcases mem_twoPosts h' with rfl | rfl | rfl <;>
      first
        | rfl
        | exact absurd htext (by decide)
  rowKey_injective h := by
    rcases mem_twoPosts h with heq | heq | heq <;> cases heq
  post_injective h h' hpost := by
    rcases mem_twoPosts h with heq | heq | heq <;> cases heq <;>
      rcases mem_twoPosts h' with heq | heq | heq <;> cases heq <;>
      first
        | rfl
        | exact absurd hpost (by decide)
  mentions_injective h h' hpost := by
    rcases mem_twoPosts h with heq | heq | heq <;> cases heq
    rcases mem_twoPosts h' with heq | heq | heq <;> cases heq
    rfl

/-- The first post waits for its mentions.  Those of the second post come before it, so that the second
post is persisted at once, and saved as durable. -/
def passWaiting : List TelemetryMove :=
  [.fetch ("social.posts.normalized.v1", 0) 0, .advance, .advance, .advance,
    .fetch ("social.mentions.v1", 0) 0, .advance, .advance, .advance,
    .fetch ("social.posts.normalized.v1", 0) 1, .advance, .advance, .advance, .advance, .advance]

/-- The checkpoint passes the first post, which is not stored. -/
theorem checkpoint_passes_waiting :
    ¬ ∀ (topics : TelemetryTopics) (moves : List TelemetryMove),
      Always (step topics) (OffsetsDurable topics) {} moves := by
  intro halways
  have hstored := (halways twoPostTopics passWaiting).final ("social.posts.normalized.v1", 0) 0
    (.post (postEvent ⟨"a1", by decide⟩ "A")) rfl (Or.inl ⟨1, rfl, Nat.zero_le 1⟩)
  have hlog : (run (step twoPostTopics) {} passWaiting).tables.ingestionLog =
      [.post (postEvent ⟨"b1", by decide⟩ "B"), .mentions (mentionEvent ⟨"b2", by decide⟩ "B")] :=
    rfl
  rw [hlog] at hstored
  rcases List.mem_cons.mp hstored with heq | hmem
  · exact absurd (congrArg (fun event => event.eventId.text) heq) (by decide)
  · exact absurd (congrArg (fun event => event.eventId.text) (List.mem_singleton.mp hmem))
      (by decide)

end TelemetryWorker

end Workers
end Scam2Market
