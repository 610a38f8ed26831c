import Scam2Market.Intelligence.ThreatRepository
import Scam2Market.Library.Runs

/-!
# Threat matches and the order of arrival

A match of a post, an asset and an observation is there after a poll exactly when the post mentions the
indicator: this holds throughout a run exactly when every poll is careful.

* `hasMatch_poll`: the matches after a poll are those before it and those that its calls find.  An entry
  of the pulses searches every post; after the entries, the backfill searches for no more than a thousand
  observations, those that were fetched since the checkpoint.
* The checkpoint is the greatest time of modification that the provider gave, and not the time of the last
  poll: an observation that was fetched before it is not searched for again.
* The query passes over a post whose text does not have the value as it stands in the normal form.
-/

namespace Scam2Market
namespace Intelligence

open Library (OrderedDict Always Throughout)

variable {tools : MatchTools} {posts : List SocialPostModel} {t t' : ThreatTables} {now : Datetime}
  {place : ObservationId → ℕ} {store : ThreatStore} {post : SocialPostModel}

/-! ## The law -/

/-- The indicator of an observation. -/
def observedAs (row : ThreatIndicatorModel × ThreatObservationModel) : NormalizedIndicator where
  type := row.1.type
  value := row.1.value

/-- There is a match of the post, the asset and the observation. -/
def ThreatTables.HasMatch (t : ThreatTables) (post : SocialPostModel) (assetId : String)
    (observationId : ObservationId) : Prop :=
  deterministicMatchId post.scopeId assetId post.postId observationId ∈
    t.found.map ThreatMatchModel.matchId

namespace ThreatStore

/-- The posts of the last poll have a match exactly with what they mention. -/
def MatchesCandidates (tools : MatchTools) (store : ThreatStore) : Prop :=
  ∀ post ∈ store.polled, ∀ assetId, some assetId ∈ post.mentions →
    ∀ row ∈ observedIndicators store.tables,
      store.tables.HasMatch post assetId row.2.observationId ↔ observedAs row ∈ candidatesOfPost tools post

end ThreatStore

/-! ## The entries of a poll -/

/-- The entries of the pulses that are not malformed. -/
def pulseEntries (tools : MatchTools) (pulses : List OTXPulse) :
    List (OTXPulse × OTXIndicator × NormalizedIndicator) :=
  pulses.flatMap fun pulse => (pulse.indicators.filterMap (canonicalOf tools)).map (pulse, ·)

/-- The rows of an entry are written. -/
def recordEntry (now : Datetime) (t : ThreatTables)
    (entry : OTXPulse × OTXIndicator × NormalizedIndicator) : ThreatTables :=
  insertObservation (upsertIndicator t entry.2.2 entry.2.1 entry.1 now) entry.2.2 entry.2.1 entry.1 now

/-- The rows of the pulses are written. -/
def recordPulses (tools : MatchTools) (t : ThreatTables) (pulses : List OTXPulse) (now : Datetime) :
    ThreatTables :=
  (pulseEntries tools pulses).foldl (recordEntry now) t

namespace ThreatStore

/-- A poll that leaves no post with a match that it should not have, and none without one.

* An entry is found in no post that lacks the indicator under which its id was first seen.
* A post that mentions an indicator has its match, or an entry of the pulses is found in it, or the backfill
  gets to the observation and its query to the post. -/
structure CarefulPoll (tools : MatchTools) (store : ThreatStore) (pulses : List OTXPulse)
    (now : Datetime) (place : ObservationId → ℕ) : Prop where
  own : ∀ entry ∈ pulseEntries tools pulses,
    ∀ row ∈ observedIndicators (recordPulses tools store.tables pulses now),
      row.2.observationId = ⟨entry.2.1.id⟩ → ∀ post ∈ store.posts, (∃ assetId, some assetId ∈ post.mentions) →
        findsIn tools entry.2.2.type entry.2.2.value post = true →
          observedAs row ∈ candidatesOfPost tools post
  reached : ∀ post ∈ store.posts, ∀ assetId, some assetId ∈ post.mentions →
    ∀ row ∈ observedIndicators (recordPulses tools store.tables pulses now),
      observedAs row ∈ candidatesOfPost tools post →
        store.tables.HasMatch post assetId row.2.observationId ∨
        (∃ entry ∈ pulseEntries tools pulses, row.2.observationId = ⟨entry.2.1.id⟩ ∧
          findsIn tools entry.2.2.type entry.2.2.value post = true) ∨
        row ∈ backfillRows (recordPulses tools store.tables pulses now) place store.modifiedSince 1000 ∧
          isCandidatePost tools row.1.type row.1.value post = true

def Careful (tools : MatchTools) (store : ThreatStore) : FeedMove → Prop
  | .storePost _ => True
  | .poll pulses now place => store.CarefulPoll tools pulses now place

end ThreatStore

/-! ## Matches that are added -/

theorem mem_foldl_addMatch {id : Uuid (String × String × String × ObservationId)}
    (rows : List ThreatMatchModel) (acc : ℕ × List ThreatMatchModel) :
    id ∈ (rows.foldl addMatch acc).2.map ThreatMatchModel.matchId ↔
      id ∈ acc.2.map ThreatMatchModel.matchId ∨ id ∈ rows.map ThreatMatchModel.matchId := by
  induction rows generalizing acc with
  | nil => simp
  | cons row rows ih =>
    rw [List.foldl_cons, ih, List.map_cons, List.mem_cons, ← or_assoc]
    refine or_congr_left ?_
    unfold addMatch
    split_ifs with hrow
    · exact ⟨.inl, fun h => h.elim (fun h => h) fun h => h ▸ hrow⟩
    · rw [List.map_append, List.map_singleton, List.mem_append, List.mem_singleton]

/-- A call finds a post of an asset. -/
def MatchCall.Yields (tools : MatchTools) (posts : List SocialPostModel) (call : MatchCall)
    (id : Uuid (String × String × String × ObservationId)) : Prop :=
  ∃ post ∈ posts, findsIn tools call.indicatorType call.value post = true ∧
    ∃ assetId, some assetId ∈ post.mentions ∧
      deterministicMatchId post.scopeId assetId post.postId call.observationId = id

theorem mem_map_matchRows {call : MatchCall} {id : Uuid (String × String × String × ObservationId)} :
    id ∈ (matchRows tools posts call).map ThreatMatchModel.matchId ↔ call.Yields tools posts id := by
  constructor
  · intro h
    obtain ⟨row, hrow, rfl⟩ := List.mem_map.mp h
    obtain ⟨post, hpost, hrows⟩ := List.mem_flatMap.mp hrow
    obtain ⟨assetId, hasset, rfl⟩ := List.mem_map.mp hrows
    obtain ⟨mention, hmention, rfl⟩ := List.mem_filterMap.mp hasset
    obtain ⟨hmem, hfinds⟩ := List.mem_filter.mp hpost
    exact ⟨post, hmem, hfinds, assetId, hmention, rfl⟩
  · rintro ⟨post, hmem, hfinds, assetId, hasset, rfl⟩
    refine List.mem_map.mpr ⟨matchRow call post assetId, List.mem_flatMap.mpr
      ⟨post, List.mem_filter.mpr ⟨hmem, hfinds⟩, List.mem_map.mpr ⟨assetId, ?_, rfl⟩⟩, rfl⟩
    exact List.mem_filterMap.mpr ⟨some assetId, hasset, rfl⟩

/-- The matches after a call. -/
theorem mem_map_matchIndicator {call : MatchCall} {found : List ThreatMatchModel}
    {id : Uuid (String × String × String × ObservationId)} :
    id ∈ (matchIndicator tools posts found call).2.map ThreatMatchModel.matchId ↔
      id ∈ found.map ThreatMatchModel.matchId ∨ call.Yields tools posts id := by
  rw [matchIndicator, mem_foldl_addMatch, mem_map_matchRows]

/-! ## What is recorded -/

/-- The rows of the indicators stand under the ids of their types and values, and every observation has
one. -/
structure ThreatTables.Sound (t : ThreatTables) : Prop where
  indicators : ∀ id row, t.indicators.get? id = some row → id = ⟨(row.type, row.value)⟩
  observationIds : ∀ pid observation, t.observations.get? pid = some observation →
    observation.observationId = ⟨pid⟩
  observed : ∀ pid observation, t.observations.get? pid = some observation →
    ∃ row, t.indicators.get? observation.indicatorId = some row

theorem mem_observedIndicators {row : ThreatIndicatorModel × ThreatObservationModel} :
    row ∈ observedIndicators t ↔ ∃ pid, t.observations.get? pid = some row.2 ∧
      t.indicators.get? row.2.indicatorId = some row.1 := by
  rw [observedIndicators, List.mem_filterMap]
  constructor
  · rintro ⟨⟨pid, observation⟩, hentry, hrow⟩
    obtain ⟨indicator, hindicator, rfl⟩ := Option.map_eq_some_iff.mp hrow
    exact ⟨pid, OrderedDict.mem_entries_iff.mp hentry, hindicator⟩
  · rintro ⟨pid, hpid, hindicator⟩
    exact ⟨(pid, row.2), OrderedDict.mem_entries_iff.mpr hpid,
      Option.map_eq_some_iff.mpr ⟨row.1, hindicator, rfl⟩⟩

/-- Observations that have an id are rows of the join. -/
theorem ThreatTables.Sound.exists_row (h : t.Sound) {pid : String}
    {observation : ThreatObservationModel} (hpid : t.observations.get? pid = some observation) :
    ∃ row ∈ observedIndicators t, row.2 = observation := by
  obtain ⟨indicator, hindicator⟩ := h.observed pid observation hpid
  exact ⟨(indicator, observation), mem_observedIndicators.mpr ⟨pid, hpid, hindicator⟩, rfl⟩

/-- The indicator of an observation is that of its id. -/
theorem ThreatTables.Sound.observedAs_eq (h : t.Sound)
    {row : ThreatIndicatorModel × ThreatObservationModel} (hrow : row ∈ observedIndicators t) :
    row.2.indicatorId = (observedAs row).indicatorId := by
  obtain ⟨_, -, hindicator⟩ := mem_observedIndicators.mp hrow
  exact h.indicators _ _ hindicator

/-- An observation has one row. -/
theorem ThreatTables.Sound.row_eq (h : t.Sound)
    {row row' : ThreatIndicatorModel × ThreatObservationModel} (hrow : row ∈ observedIndicators t)
    (hrow' : row' ∈ observedIndicators t) (hid : row.2.observationId = row'.2.observationId) :
    row = row' := by
  obtain ⟨pid, hpid, hindicator⟩ := mem_observedIndicators.mp hrow
  obtain ⟨pid', hpid', hindicator'⟩ := mem_observedIndicators.mp hrow'
  rw [h.observationIds pid _ hpid, h.observationIds pid' _ hpid'] at hid
  obtain rfl := Uuid.mk.inj hid
  have hsame : row.2 = row'.2 := Option.some.inj (hpid.symm.trans hpid')
  exact Prod.ext (Option.some.inj (hindicator.symm.trans (hsame ▸ hindicator'))) hsame

/-- The observations stay as they are. -/
def ThreatTables.Extends (t t' : ThreatTables) : Prop :=
  ∀ pid observation, t.observations.get? pid = some observation →
    t'.observations.get? pid = some observation

/-- An observation keeps its indicator. -/
theorem ThreatTables.Extends.observedAs_eq (hext : t.Extends t') (h : t.Sound) (h' : t'.Sound)
    {row row' : ThreatIndicatorModel × ThreatObservationModel} (hrow : row ∈ observedIndicators t)
    (hrow' : row' ∈ observedIndicators t') (hid : row'.2.observationId = row.2.observationId) :
    observedAs row' = observedAs row := by
  obtain ⟨pid, hpid, -⟩ := mem_observedIndicators.mp hrow
  obtain ⟨pid', hpid', -⟩ := mem_observedIndicators.mp hrow'
  have hpids : pid' = pid := by
    rw [h.observationIds pid _ hpid, h'.observationIds pid' _ hpid'] at hid
    exact Uuid.mk.inj hid
  have hsame : row'.2 = row.2 := Option.some.inj
    ((hpids ▸ hpid').symm.trans (hext pid _ hpid))
  have hids : (observedAs row').indicatorId = (observedAs row).indicatorId := by
    rw [← h.observedAs_eq hrow, ← h'.observedAs_eq hrow', hsame]
  obtain ⟨htype, hvalue⟩ := Prod.mk.inj (Uuid.mk.inj hids)
  exact NormalizedIndicator.mk.injEq .. ▸ ⟨htype, hvalue⟩

variable {entry : OTXPulse × OTXIndicator × NormalizedIndicator}

theorem recordEntry_extends (t : ThreatTables) (entry : OTXPulse × OTXIndicator × NormalizedIndicator) :
    t.Extends (recordEntry now t entry) := by
  intro pid observation hpid
  unfold recordEntry insertObservation
  split
  · exact hpid
  · rename_i hnone
    have hne : pid ≠ entry.2.1.id := by
      rintro rfl
      exact absurd (hnone.symm.trans hpid) (by simp)
    rw [OrderedDict.get?_set_of_ne _ _ hne]
    exact hpid

/-- An entry is observed. -/
theorem observations_recordEntry (t : ThreatTables)
    (entry : OTXPulse × OTXIndicator × NormalizedIndicator) :
    ∃ observation, (recordEntry now t entry).observations.get? entry.2.1.id = some observation := by
  unfold recordEntry insertObservation
  split
  · rename_i observation hsome
    exact ⟨observation, hsome⟩
  · exact ⟨_, OrderedDict.get?_set_self _ _ _⟩

/-- The row that is written is of the indicator. -/
theorem exists_upsertIndicator (h : t.Sound) (canonical : NormalizedIndicator) (provider : OTXIndicator)
    (pulse : OTXPulse) :
    ∃ row, (upsertIndicator t canonical provider pulse now).indicators =
        t.indicators.set canonical.indicatorId row ∧
      canonical.indicatorId = ⟨(row.type, row.value)⟩ := by
  refine ⟨_, rfl, ?_⟩
  split
  · rename_i row hrow
    exact h.indicators _ row hrow
  · rfl

theorem ThreatTables.Sound.upsertIndicator (h : t.Sound) (canonical : NormalizedIndicator)
    (provider : OTXIndicator) (pulse : OTXPulse) :
    (upsertIndicator t canonical provider pulse now).Sound := by
  obtain ⟨written, heq, hwritten⟩ := exists_upsertIndicator h canonical provider pulse
  refine ⟨fun id row hrow => ?_, h.observationIds, fun pid observation hpid => ?_⟩
  · rw [heq, OrderedDict.get?_set] at hrow
    split_ifs at hrow with hid
    · obtain rfl := Option.some.inj hrow
      exact hid.trans hwritten
    · exact h.indicators id row hrow
  · obtain ⟨row, hrow⟩ := h.observed pid observation hpid
    rw [heq, OrderedDict.get?_set]
    split_ifs
    · exact ⟨written, rfl⟩
    · exact ⟨row, hrow⟩

theorem ThreatTables.Sound.insertObservation (h : t.Sound) {canonical : NormalizedIndicator}
    {row : ThreatIndicatorModel} (hrow : t.indicators.get? canonical.indicatorId = some row)
    (provider : OTXIndicator) (pulse : OTXPulse) :
    (insertObservation t canonical provider pulse now).Sound := by
  unfold Intelligence.insertObservation
  split
  · exact h
  · refine ⟨h.indicators, fun pid observation hpid => ?_, fun pid observation hpid => ?_⟩
    · rw [OrderedDict.get?_set] at hpid
      split_ifs at hpid with hid
      · rw [← Option.some.inj hpid, hid]
      · exact h.observationIds pid observation hpid
    · rw [OrderedDict.get?_set] at hpid
      split_ifs at hpid
      · exact ⟨row, (Option.some.inj hpid) ▸ hrow⟩
      · exact h.observed pid observation hpid

theorem ThreatTables.Sound.recordEntry (h : t.Sound)
    (entry : OTXPulse × OTXIndicator × NormalizedIndicator) : (recordEntry now t entry).Sound := by
  obtain ⟨written, heq, -⟩ := exists_upsertIndicator h entry.2.2 entry.2.1 entry.1
  have hrow : (Intelligence.upsertIndicator t entry.2.2 entry.2.1 entry.1 now).indicators.get?
      entry.2.2.indicatorId = some written := by
    rw [heq, OrderedDict.get?_set_self]
  exact (h.upsertIndicator _ _ _).insertObservation hrow _ _

/-- What holds of the tables once the pulses are recorded. -/
theorem recordEntries_spec (h : t.Sound) (entries : List (OTXPulse × OTXIndicator × NormalizedIndicator)) :
    (entries.foldl (recordEntry now) t).Sound ∧ t.Extends (entries.foldl (recordEntry now) t) ∧
      ∀ entry ∈ entries, ∃ observation,
        (entries.foldl (recordEntry now) t).observations.get? entry.2.1.id = some observation := by
  induction entries generalizing t with
  | nil => exact ⟨h, fun _ _ hpid => hpid, fun _ hentry => (List.not_mem_nil hentry).elim⟩
  | cons entry entries ih =>
    obtain ⟨hsound, hext, hobserved⟩ := ih (h.recordEntry entry)
    refine ⟨hsound, fun pid observation hpid => ?_, fun other hother => ?_⟩
    · exact hext pid observation (recordEntry_extends t entry pid observation hpid)
    · rcases List.mem_cons.mp hother with rfl | hrest
      · obtain ⟨observation, hpid⟩ := observations_recordEntry t other
        exact ⟨observation, hext _ _ hpid⟩
      · exact hobserved other hrest

/-! ## The ingestion -/

/-- An entry is recorded, and the posts are searched for it. -/
def ingestOne (tools : MatchTools) (posts : List SocialPostModel) (now : Datetime) (t : ThreatTables)
    (entry : OTXPulse × OTXIndicator × NormalizedIndicator) : ThreatTables :=
  { recordEntry now t entry with
    found := (matchIndicator tools posts (recordEntry now t entry).found (ingestCall now entry.2)).2 }

theorem foldl_ingestEntry (pulse : OTXPulse) (raws : List (Except PyError OTXIndicator))
    (acc : ℕ × ThreatTables) :
    (raws.foldl (ingestEntry tools posts now pulse) acc).2 =
      ((raws.filterMap (canonicalOf tools)).map (pulse, ·)).foldl (ingestOne tools posts now) acc.2 := by
  induction raws generalizing acc with
  | nil => rfl
  | cons raw raws ih =>
    rw [List.foldl_cons, ih, List.filterMap_cons, ingestEntry]
    cases canonicalOf tools raw with
    | none => rfl
    | some entry => rfl

theorem pulseEntries_cons (pulse : OTXPulse) (pulses : List OTXPulse) :
    pulseEntries tools (pulse :: pulses) =
      (pulse.indicators.filterMap (canonicalOf tools)).map (pulse, ·) ++ pulseEntries tools pulses :=
  List.flatMap_cons

/-- The tables after the ingestion, entry by entry. -/
theorem ingestPulses_tables (pulses : List OTXPulse) :
    (ingestPulses tools posts t pulses now).2.2 =
      (pulseEntries tools pulses).foldl (ingestOne tools posts now) t := by
  have hfold : ∀ (pulses : List OTXPulse) (acc : ℕ × ThreatTables),
      (pulses.foldl (fun acc pulse =>
        pulse.indicators.foldl (ingestEntry tools posts now pulse) acc) acc).2 =
        (pulseEntries tools pulses).foldl (ingestOne tools posts now) acc.2 := by
    intro pulses
    induction pulses with
    | nil => exact fun _ => rfl
    | cons pulse pulses ih =>
      intro acc
      rw [List.foldl_cons, ih, foldl_ingestEntry, pulseEntries_cons, List.foldl_append]
  exact hfold pulses (0, t)

/-- What is recorded does not depend on the matches. -/
theorem recordEntry_found (t : ThreatTables) (found : List ThreatMatchModel)
    (entry : OTXPulse × OTXIndicator × NormalizedIndicator) :
    recordEntry now { t with found := found } entry = { recordEntry now t entry with found := found } := by
  unfold recordEntry insertObservation
  dsimp only [upsertIndicator]
  split <;> rfl

theorem found_recordEntry (t : ThreatTables) (entry : OTXPulse × OTXIndicator × NormalizedIndicator) :
    (recordEntry now t entry).found = t.found := by
  show (recordEntry now { t with found := t.found } entry).found = t.found
  rw [recordEntry_found]

theorem recordEntries_found (entries : List (OTXPulse × OTXIndicator × NormalizedIndicator))
    (t : ThreatTables) (found : List ThreatMatchModel) :
    entries.foldl (recordEntry now) { t with found := found } =
      { entries.foldl (recordEntry now) t with found := found } := by
  induction entries generalizing t with
  | nil => rfl
  | cons entry entries ih => rw [List.foldl_cons, recordEntry_found, ih, List.foldl_cons]

/-- **The entries are recorded, and the matches are those that their calls find.** -/
theorem ingestEntries_spec (entries : List (OTXPulse × OTXIndicator × NormalizedIndicator)) :
    ∃ found, entries.foldl (ingestOne tools posts now) t =
        { entries.foldl (recordEntry now) t with found := found } ∧
      ∀ id, id ∈ found.map ThreatMatchModel.matchId ↔ id ∈ t.found.map ThreatMatchModel.matchId ∨
        ∃ entry ∈ entries, (ingestCall now entry.2).Yields tools posts id := by
  induction entries generalizing t with
  | nil => exact ⟨t.found, rfl, fun id => by simp⟩
  | cons entry entries ih =>
    obtain ⟨found, heq, hfound⟩ := ih (t := ingestOne tools posts now t entry)
    refine ⟨found, ?_, fun id => ?_⟩
    · rw [List.foldl_cons, heq, ingestOne, recordEntries_found, List.foldl_cons]
    · rw [hfound, ingestOne, mem_map_matchIndicator, found_recordEntry, or_assoc]
      simp only [List.mem_cons, exists_eq_or_imp]

/-! ## The backfill -/

theorem mem_map_backfill {rows : List (ThreatIndicatorModel × ThreatObservationModel)}
    {id : Uuid (String × String × String × ObservationId)} (acc : ℕ × List ThreatMatchModel) :
    id ∈ (rows.foldl (fun acc row =>
        let (created, found) := matchIndicator tools posts acc.2 (backfillCall row)
        (acc.1 + created, found)) acc).2.map ThreatMatchModel.matchId ↔
      id ∈ acc.2.map ThreatMatchModel.matchId ∨
        ∃ row ∈ rows, (backfillCall row).Yields tools posts id := by
  induction rows generalizing acc with
  | nil => simp
  | cons row rows ih =>
    rw [List.foldl_cons, ih]
    show id ∈ (matchIndicator tools posts acc.2 (backfillCall row)).2.map _ ∨ _ ↔ _
    rw [mem_map_matchIndicator, or_assoc]
    simp only [List.mem_cons, exists_eq_or_imp]

/-- **The backfill changes the matches, by those that its calls find.** -/
theorem backfillRecentMatches_spec (t : ThreatTables) (since : Option Datetime) (limit : ℕ) :
    ∃ found, (backfillRecentMatches tools posts t place since limit).2 = { t with found := found } ∧
      ∀ id, id ∈ found.map ThreatMatchModel.matchId ↔ id ∈ t.found.map ThreatMatchModel.matchId ∨
        ∃ row ∈ backfillRows t place since limit, (backfillCall row).Yields tools posts id :=
  ⟨_, rfl, fun _ => mem_map_backfill (0, t.found)⟩

/-! ## A poll -/

/-- **The tables after a poll.** -/
theorem pollOnce_spec (store : ThreatStore) (pulses : List OTXPulse) (now : Datetime)
    (place : ObservationId → ℕ) :
    ∃ found watermark, (pollOnce tools store pulses now place).2 =
        { store with
          tables := { recordPulses tools store.tables pulses now with found := found }
          modifiedSince := watermark
          polled := store.posts } ∧
      ∀ id, id ∈ found.map ThreatMatchModel.matchId ↔
        id ∈ store.tables.found.map ThreatMatchModel.matchId ∨
        (∃ entry ∈ pulseEntries tools pulses, (ingestCall now entry.2).Yields tools store.posts id) ∨
        ∃ row ∈ backfillRows (recordPulses tools store.tables pulses now) place store.modifiedSince 1000,
          (backfillCall row).Yields tools store.posts id := by
  obtain ⟨ingested, heq, hingested⟩ := ingestEntries_spec
    (t := store.tables) (pulseEntries tools pulses)
  obtain ⟨found, hbackfill, hfound⟩ := backfillRecentMatches_spec
    (ingestPulses tools store.posts store.tables pulses now).2.2 store.modifiedSince 1000
  rw [ingestPulses_tables, heq] at hbackfill hfound
  refine ⟨found, (ingestPulses tools store.posts store.tables pulses now).2.1, ?_, fun id => ?_⟩
  · have htables : (pollOnce tools store pulses now place).2.tables =
        (backfillRecentMatches tools store.posts
          (ingestPulses tools store.posts store.tables pulses now).2.2 place store.modifiedSince 1000).2 :=
      rfl
    rw [ingestPulses_tables, heq, hbackfill] at htables
    show ThreatStore.mk store.posts (pollOnce tools store pulses now place).2.tables _ _ = _
    rw [htables]
    rfl
  · rw [hfound, hingested, or_assoc]
    rfl

/-- A call makes the match of a stored post exactly when it is about the observation and finds the post. -/
theorem yields_iff (hposts : (posts.map SocialPostModel.postId).Nodup) (hpost : post ∈ posts)
    {assetId : String} (hasset : some assetId ∈ post.mentions) {call : MatchCall}
    {observationId : ObservationId} :
    call.Yields tools posts (deterministicMatchId post.scopeId assetId post.postId observationId) ↔
      observationId = call.observationId ∧ findsIn tools call.indicatorType call.value post = true := by
  constructor
  · rintro ⟨other, hother, hfinds, otherAsset, -, hid⟩
    simp only [deterministicMatchId, Uuid.mk.injEq, Prod.mk.injEq] at hid
    obtain ⟨-, -, hpostId, hobservation⟩ := hid
    obtain rfl := Library.eq_of_key_eq hposts hother hpost hpostId
    exact ⟨hobservation.symm, hfinds⟩
  · rintro ⟨rfl, hfinds⟩
    exact ⟨post, hpost, hfinds, assetId, hasset, rfl⟩

/-- **The matches of a stored post after a poll.** -/
theorem hasMatch_poll (tools : MatchTools) (hposts : (store.posts.map SocialPostModel.postId).Nodup)
    (hpost : post ∈ store.posts) {assetId : String} (hasset : some assetId ∈ post.mentions)
    (observationId : ObservationId) (pulses : List OTXPulse) (now : Datetime)
    (place : ObservationId → ℕ) :
    (pollOnce tools store pulses now place).2.tables.HasMatch post assetId observationId ↔
      store.tables.HasMatch post assetId observationId ∨
      (∃ entry ∈ pulseEntries tools pulses, observationId = ⟨entry.2.1.id⟩ ∧
        findsIn tools entry.2.2.type entry.2.2.value post = true) ∨
      ∃ row ∈ backfillRows (recordPulses tools store.tables pulses now) place store.modifiedSince 1000,
        observationId = row.2.observationId ∧ findsIn tools row.1.type row.1.value post = true := by
  obtain ⟨found, watermark, heq, hfound⟩ := pollOnce_spec store pulses now place
  rw [heq]
  refine (hfound _).trans (or_congr_right (or_congr ?_ ?_))
  · exact exists_congr fun entry => and_congr_right fun _ => yields_iff hposts hpost hasset
  · exact exists_congr fun row => and_congr_right fun _ => yields_iff hposts hpost hasset

theorem findsIn_iff {indicatorType : IndicatorType} {value : String} :
    findsIn tools indicatorType value post = true ↔
      isCandidatePost tools indicatorType value post = true ∧
        ({ type := indicatorType, value := value } : NormalizedIndicator) ∈ candidatesOfPost tools post := by
  rw [findsIn, Bool.and_eq_true, decide_eq_true_eq]

/-! ## Runs -/

namespace ThreatStore

/-- What holds between the moves. -/
structure Sound (tools : MatchTools) (store : ThreatStore) : Prop where
  postIds : (store.posts.map SocialPostModel.postId).Nodup
  polled : ∀ post ∈ store.polled, post ∈ store.posts
  tables : store.tables.Sound
  found : ∀ id ∈ store.tables.found.map ThreatMatchModel.matchId, ∃ post ∈ store.polled,
    ∃ assetId, some assetId ∈ post.mentions ∧ ∃ row ∈ observedIndicators store.tables,
      deterministicMatchId post.scopeId assetId post.postId row.2.observationId = id
  law : store.MatchesCandidates tools

theorem sound_empty (tools : MatchTools) : Sound tools {} where
  postIds := List.nodup_nil
  polled _ h := h
  tables := ⟨fun _ _ h => (nomatch h), fun _ _ h => (nomatch h), fun _ _ h => (nomatch h)⟩
  found _ h := (List.not_mem_nil h).elim
  law _ h := (List.not_mem_nil h).elim

theorem Sound.storePost (h : store.Sound tools) (post : SocialPostModel) :
    (storePost store post).Sound tools := by
  unfold Intelligence.storePost
  split_ifs with hpost
  · exact h
  · refine ⟨?_, fun other hother => ?_, h.tables, h.found, h.law⟩
    · rw [List.map_append, List.map_singleton, ← List.concat_eq_append]
      exact h.postIds.concat hpost
    · exact List.mem_append_left _ (h.polled other hother)

/-- A match that was there is of an observation that was there, and of a post that was polled. -/
theorem Sound.of_hasMatch (h : store.Sound tools) (hpost : post ∈ store.posts) {assetId : String}
    {observationId : ObservationId} (hmatch : store.tables.HasMatch post assetId observationId) :
    post ∈ store.polled ∧ ∃ row ∈ observedIndicators store.tables,
      row.2.observationId = observationId := by
  obtain ⟨other, hother, _, -, row, hrow, hid⟩ := h.found _ hmatch
  simp only [deterministicMatchId, Uuid.mk.injEq, Prod.mk.injEq] at hid
  obtain ⟨-, -, hpostId, hobservation⟩ := hid
  obtain rfl := Library.eq_of_key_eq h.postIds (h.polled other hother) hpost hpostId
  exact ⟨hother, row, hrow, hobservation⟩

variable {pulses : List OTXPulse}

/-- A match that was there is right: its observation keeps its indicator. -/
theorem Sound.mem_candidates_of_hasMatch (h : store.Sound tools) (hpost : post ∈ store.posts)
    {assetId : String} (hasset : some assetId ∈ post.mentions)
    {row : ThreatIndicatorModel × ThreatObservationModel}
    (hrow : row ∈ observedIndicators (recordPulses tools store.tables pulses now))
    (hmatch : store.tables.HasMatch post assetId row.2.observationId) :
    observedAs row ∈ candidatesOfPost tools post := by
  obtain ⟨hpolled, old, hold, hid⟩ := h.of_hasMatch hpost hmatch
  obtain ⟨hsound, hext, -⟩ := recordEntries_spec h.tables (pulseEntries tools pulses)
  rw [hext.observedAs_eq h.tables hsound hold hrow hid.symm]
  exact (h.law post hpolled assetId hasset old hold).mp (hid ▸ hmatch)

/-- **The law holds after a poll exactly when the poll is careful.** -/
theorem Sound.law_poll_iff (h : store.Sound tools) :
    (pollOnce tools store pulses now place).2.MatchesCandidates tools ↔
      store.CarefulPoll tools pulses now place := by
  obtain ⟨found, watermark, heq, -⟩ := pollOnce_spec store pulses now place
  have hmatch {post : SocialPostModel} (hpost : post ∈ store.posts) {assetId : String}
      (hasset : some assetId ∈ post.mentions) {observationId : ObservationId} :=
    hasMatch_poll tools h.postIds hpost hasset observationId pulses now place
  obtain ⟨hsound, -, -⟩ := recordEntries_spec h.tables (pulseEntries tools pulses)
  rw [heq] at hmatch ⊢
  constructor
  · intro hlaw
    constructor
    · rintro entry hentry row hrow hid post hpost ⟨assetId, hasset⟩ hfinds
      refine (hlaw post hpost assetId hasset row hrow).mp ((hmatch hpost hasset).mpr (.inr (.inl ?_)))
      exact ⟨entry, hentry, hid, hfinds⟩
    · intro post hpost assetId hasset row hrow hmem
      have hafter := (hmatch hpost hasset).mp ((hlaw post hpost assetId hasset row hrow).mpr hmem)
      refine hafter.imp_right (Or.imp_right ?_)
      rintro ⟨other, hother, hid, hfinds⟩
      obtain rfl := hsound.row_eq hrow (Library.of_mem_firstWhere hother).1 hid
      exact ⟨hother, (findsIn_iff.mp hfinds).1⟩
  · intro hcareful post hpost assetId hasset row hrow
    constructor
    · intro hafter
      rcases (hmatch hpost hasset).mp hafter with hold | ⟨entry, hentry, hid, hfinds⟩ |
        ⟨other, hother, hid, hfinds⟩
      · exact h.mem_candidates_of_hasMatch hpost hasset hrow hold
      · exact hcareful.own entry hentry row hrow hid post hpost ⟨assetId, hasset⟩ hfinds
      · obtain rfl := hsound.row_eq hrow (Library.of_mem_firstWhere hother).1 hid
        exact (findsIn_iff.mp hfinds).2
    · intro hmem
      refine (hmatch hpost hasset).mpr ?_
      refine (hcareful.reached post hpost assetId hasset row hrow hmem).imp_right (Or.imp_right ?_)
      rintro ⟨hbackfill, hcandidate⟩
      exact ⟨row, hbackfill, rfl, findsIn_iff.mpr ⟨hcandidate, hmem⟩⟩

theorem Sound.poll (h : store.Sound tools) (hcareful : store.CarefulPoll tools pulses now place) :
    (pollOnce tools store pulses now place).2.Sound tools := by
  have hlaw := h.law_poll_iff.mpr hcareful
  obtain ⟨found, watermark, heq, hfound⟩ := pollOnce_spec store pulses now place
  obtain ⟨hsound, hext, hobserved⟩ := recordEntries_spec h.tables (pulseEntries tools pulses)
  rw [heq] at hlaw ⊢
  refine ⟨h.postIds, fun _ hpost => hpost, ⟨hsound.indicators, hsound.observationIds, hsound.observed⟩,
    fun id hid => ?_, hlaw⟩
  rcases (hfound id).mp hid with hold | ⟨entry, hentry, post, hpost, -, assetId, hasset, rfl⟩ |
    ⟨row, hrow, post, hpost, -, assetId, hasset, rfl⟩
  · obtain ⟨post, hpost, assetId, hasset, row, hrow, rfl⟩ := h.found id hold
    obtain ⟨pid, hpid, -⟩ := mem_observedIndicators.mp hrow
    obtain ⟨row', hrow', heq'⟩ := hsound.exists_row (hext pid row.2 hpid)
    exact ⟨post, h.polled post hpost, assetId, hasset, row', hrow', by rw [heq']⟩
  · obtain ⟨observation, hpid⟩ := hobserved entry hentry
    obtain ⟨row, hrow, heq'⟩ := hsound.exists_row hpid
    refine ⟨post, hpost, assetId, hasset, row, hrow, ?_⟩
    rw [heq', hsound.observationIds _ _ hpid]
    rfl
  · exact ⟨post, hpost, assetId, hasset, row, (Library.of_mem_firstWhere hrow).1, rfl⟩

theorem Sound.step (h : store.Sound tools) (move : FeedMove) (hcareful : store.Careful tools move) :
    (store.step tools move).Sound tools := by
  cases move with
  | storePost post => exact h.storePost post
  | poll pulses now place => exact h.poll hcareful

/-- A poll that is not careful breaks the law. -/
theorem Sound.not_law (h : store.Sound tools) (move : FeedMove) (hcareful : ¬ store.Careful tools move) :
    ¬ (store.step tools move).MatchesCandidates tools := by
  cases move with
  | storePost post => exact (hcareful trivial).elim
  | poll pulses now place => exact fun hlaw => hcareful (h.law_poll_iff.mp hlaw)

/-- **The matches do not depend on the order of arrival exactly when every poll is careful.** -/
theorem matchesCandidates_iff (tools : MatchTools) (moves : List FeedMove) :
    Always (ThreatStore.step tools) (MatchesCandidates tools) {} moves ↔
      Throughout (ThreatStore.step tools) (Careful tools) {} moves :=
  Library.always_iff_throughout (fun _ move h hcareful => h.step move hcareful) (fun _ h => h.law)
    (fun _ move h hcareful => h.not_law move hcareful) (sound_empty tools) moves

/-! ### A post that arrives after its indicator -/

/-- Lower case of ASCII text without a URL or an address. -/
def plainTools : MatchTools where
  lower value := String.ofList (value.toList.map Char.toLower)
  idna value := some (String.ofList (value.toList.map Char.toLower))
  urlsplit _ := none
  ipAddress _ := none
  lowerChar := Char.toLower

def badDomain : OTXIndicator where
  id := "17"
  type := "domain"
  indicator := "Bad.example"
  created := 40

def latePost : SocialPostModel where
  postId := "post"
  scopeId := "scope"
  text := "see bad.example now"
  urls := []
  eventTime := 250
  mentions := [some "asset"]

/-- The indicator is fetched at 100; the next poll leaves the time 150 of a newer pulse as checkpoint; the
post is stored, and a poll follows. -/
def latePostMoves : List FeedMove :=
  [.poll [{ id := "first", modified := 50, indicators := [.ok badDomain] }] 100 fun _ => 0,
    .poll [{ id := "second", modified := 150 }] 200 fun _ => 0, .storePost latePost,
    .poll [] 300 fun _ => 0]

/-- The post that arrives after its indicator has no match. -/
theorem latePost_unmatched :
    ¬ Always (ThreatStore.step plainTools) (MatchesCandidates plainTools) {} latePostMoves := by
  intro h
  have hlaw := h.final
  have hpost : latePost ∈ (Library.run (ThreatStore.step plainTools) {} latePostMoves).polled := by
    decide +kernel
  have hfound : (Library.run (ThreatStore.step plainTools) {} latePostMoves).tables.found.map
      ThreatMatchModel.matchId = [] := by
    decide +kernel
  obtain ⟨row, hrow, hmem⟩ : ∃ row ∈ observedIndicators
      (Library.run (ThreatStore.step plainTools) {} latePostMoves).tables,
        observedAs row ∈ candidatesOfPost plainTools latePost := by
    decide +kernel
  have hmatch := (hlaw latePost hpost "asset" List.mem_cons_self row hrow).mpr hmem
  rw [ThreatTables.HasMatch, hfound] at hmatch
  exact List.not_mem_nil hmatch

end ThreatStore

end Intelligence
end Scam2Market
