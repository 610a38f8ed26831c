import Mathlib.Data.Int.ConditionallyCompleteOrder
import Mathlib.Data.List.Dedup
import Scam2Market.Library.BoundedPasses
import Scam2Market.Verification.SecConnector

/-!
# Does the SEC connector reach every filing?

A source that does not change answers 304 to a request that carries the validators of its last response.
The connector sends them also after a run that has left filings out, and then returns nothing, in that run
and in all later ones.

* `fetch_ok`, `fetch_notModified`: what the connector returns in the two cases.
* `runPolicy_ok`: what a run that succeeds adds.
* `stored_runs`: after any number of runs the filings that were ingested are the first of the list, as many
  as the runs that were not told 304 have room for.
* `reaches_every_filing_iff`: every run makes the progress it has room for exactly when one run has room
  for everything, or the source sends no validator that it honours.
-/

namespace Scam2Market
namespace Verification
namespace SecConnector

open Library (nextUnseen nextUnseen_cons_of_mem nextUnseen_cons_of_notMem nextUnseen_eq remember
  mem_remember)

/-! ## A source that does not change -/

/-- A source: its filings, the validators it sends, whether it honours `If-Modified-Since`, the texts of
its documents, and the parsers. -/
structure Source where
  submissions : Submissions
  etag : Option String := none
  lastModified : Option String := none
  honoursModifiedSince : Bool := true
  text : String → String := fun _ => ""
  parseDatetime : String → Option Datetime := fun _ => none
  plainText : String → String := fun text => text

namespace Source

/-- The value of a header. -/
def header (name : String) (headers : Headers) : Option String :=
  (headers.find? fun header => header.1 = name).map Prod.snd

/-- The validators of the request are the current ones; `If-None-Match` comes first. -/
def notModified (source : Source) (headers : Headers) : Bool :=
  match header "If-None-Match" headers with
  | some value => source.etag = some value
  | none =>
    match header "If-Modified-Since" headers with
    | some value => source.honoursModifiedSince && source.lastModified = some value
    | none => false

/-- The response with the filings, or 304. -/
def response (source : Source) (headers : Headers) : Response :=
  if source.notModified headers then
    { statusCode := 304, etag := source.etag, lastModified := source.lastModified }
  else
    { etag := source.etag
      lastModified := source.lastModified
      submissions := some source.submissions }

/-- The client of a connector whose requests all succeed. -/
def client (source : Source) (url : String) : Client where
  validateUrl := fun _ => .ok ()
  get := fun requested headers =>
    if requested = url then .ok (source.response headers)
    else .ok { text := source.text requested }
  parseDatetime := source.parseDatetime
  plainText := source.plainText

/-- The source sends a validator that it honours. -/
def Validates (source : Source) : Prop :=
  (truthy source.etag).isSome ∨
    (source.honoursModifiedSince = true ∧ (truthy source.lastModified).isSome)

/-- The accession numbers of the filings. -/
def filings (source : Source) : List String :=
  source.submissions.accessionNumber

end Source

variable {source : Source} {config : SecConfig} {checkpoint : Checkpoint}
  {input : RunInput} {state : PolicyState} {url : String}

/-! ## One fetch -/

theorem document_ok (source : Source) (url : String) (now : Datetime) (response : Response)
    (sourceKey title body : String) (link : Option String) (publishedAt : Datetime) :
    ∃ found, document (source.client url) now response sourceKey title body link publishedAt =
      .ok found ∧ found.sourceDocumentKey = sourceKey := by
  rw [document]
  cases truthy link with
  | none => exact ⟨_, rfl, rfl⟩
  | some link => exact ⟨_, rfl, rfl⟩

theorem filingBody_ok (source : Source) (url : String) (config : SecConfig) (summary : String)
    (link : Option String) : ∃ body, filingBody (source.client url) config summary link = .ok body := by
  cases link with
  | none => exact ⟨summary, rfl⟩
  | some link =>
    rw [filingBody]
    split_ifs with hbody
    · simp only [Source.client]
      split_ifs <;> exact ⟨_, rfl⟩
    · exact ⟨summary, rfl⟩

theorem filing_ok (source : Source) (url : String) (config : SecConfig) (now : Datetime)
    (response : Response) (recent : Submissions) (index : ℕ) (accession : String) :
    ∃ found, filing (source.client url) config now response recent index accession = .ok found ∧
      found.sourceDocumentKey = accession := by
  rw [filing]
  obtain ⟨body, hbody⟩ := filingBody_ok source url config (" | ".intercalate
    (["SEC " ++ at? recent.form index ++ " filing for " ++ recent.name.getD config.paddedCik,
      at? recent.primaryDocDescription index, at? recent.filingDate index].filter (· ≠ "")))
    (config.filingUrl accession (at? recent.primaryDocument index))
  simp only [hbody]
  exact document_ok source url now response accession _ body _ _

/-- The loop returns the first filings that were not seen. -/
theorem collect_ok {f : ℕ → String → Except ConnectorError Document} (seenKeys : List String)
    (hf : ∀ index accession, ∃ found, f index accession = .ok found ∧
      found.sourceDocumentKey = accession) (room index : ℕ) (accessions : List String) :
    ∃ documents, collect f seenKeys room index accessions = .ok documents ∧
      documents.map Document.sourceDocumentKey = nextUnseen seenKeys room accessions := by
  induction accessions generalizing room index with
  | nil => exact ⟨[], by rw [collect], by simp [nextUnseen]⟩
  | cons accession rest ih =>
    cases room with
    | zero => exact ⟨[], by rw [collect], by simp [nextUnseen]⟩
    | succ room =>
      by_cases hseen : accession ∈ seenKeys
      · obtain ⟨documents, hcollect, hkeys⟩ := ih (room + 1) (index + 1)
        refine ⟨documents, ?_, ?_⟩
        · rw [collect, if_pos hseen, hcollect]
        · rw [hkeys, nextUnseen_cons_of_mem hseen]
      · obtain ⟨found, hfound, hkey⟩ := hf index accession
        obtain ⟨documents, hcollect, hkeys⟩ := ih room (index + 1)
        refine ⟨found :: documents, ?_, ?_⟩
        · rw [collect, if_neg hseen, hfound, hcollect]
          rfl
        · rw [List.map_cons, hkeys, hkey, nextUnseen_cons_of_notMem hseen]

/-- The source sends its filings: the first that were not seen are returned. -/
theorem fetch_ok (now : Datetime) (hcik : config.ValidCik) (hagent : config.userAgent ≠ "")
    (hmodified : source.notModified (requestHeaders config checkpoint) = false) :
    ∃ batch, fetch (source.client config.submissionsUrl) config now checkpoint = .ok batch ∧
      batch.documents.map Document.sourceDocumentKey =
        nextUnseen checkpoint.seenKeys config.maxDocuments source.filings ∧
      batch.checkpoint =
        { checkpoint with
          etag := truthy source.etag <|> checkpoint.etag
          lastModified := truthy source.lastModified <|> checkpoint.lastModified
          seenKeys := remember 5000 (batch.documents.map Document.sourceDocumentKey)
            checkpoint.seenKeys } := by
  obtain ⟨documents, hcollect, hkeys⟩ := collect_ok checkpoint.seenKeys
    (filing_ok source config.submissionsUrl config now
      (source.response (requestHeaders config checkpoint)) source.submissions)
    config.maxDocuments 0 source.filings
  have hget : (source.client config.submissionsUrl).get config.submissionsUrl
      (requestHeaders config checkpoint) =
        .ok (source.response (requestHeaders config checkpoint)) := if_pos rfl
  have hresponse : source.response (requestHeaders config checkpoint) =
      { etag := source.etag
        lastModified := source.lastModified
        submissions := some source.submissions } := by
    rw [Source.response, hmodified]
    rfl
  rw [hresponse] at hget hcollect
  rw [fetch, if_neg (not_not.mpr hcik), if_neg hagent, hget]
  simp only [bind, Except.bind]
  rw [if_neg (by decide), Source.filings] at *
  rw [hcollect]
  exact ⟨_, rfl, hkeys, rfl⟩

/-- The source answers 304: nothing is returned and the checkpoint stays. -/
theorem fetch_notModified (now : Datetime) (hcik : config.ValidCik) (hagent : config.userAgent ≠ "")
    (hmodified : source.notModified (requestHeaders config checkpoint) = true) :
    ∃ batch, fetch (source.client config.submissionsUrl) config now checkpoint = .ok batch ∧
      batch.documents = [] ∧
      batch.checkpoint =
        { checkpoint with
          etag := truthy source.etag <|> checkpoint.etag
          lastModified := truthy source.lastModified <|> checkpoint.lastModified } := by
  have hget : (source.client config.submissionsUrl).get config.submissionsUrl
      (requestHeaders config checkpoint) =
        .ok (source.response (requestHeaders config checkpoint)) := if_pos rfl
  have hresponse : source.response (requestHeaders config checkpoint) =
      { statusCode := 304, etag := source.etag, lastModified := source.lastModified } := by
    rw [Source.response, hmodified]
    rfl
  rw [hresponse] at hget
  rw [fetch, if_neg (not_not.mpr hcik), if_neg hagent, hget]
  exact ⟨_, rfl, rfl, rfl⟩

/-! ## One run -/

theorem foldl_ingest_ok (hingest : ∀ found, ∃ fresh, input.ingest found = .ok fresh)
    (documents : List Document) (tally : Tally) :
    (documents.foldl (Tally.ingest input) tally).errors = tally.errors ∧
      (documents.foldl (Tally.ingest input) tally).stored =
        tally.stored ++ documents.map Document.sourceDocumentKey := by
  induction documents generalizing tally with
  | nil => exact ⟨rfl, by simp⟩
  | cons found rest ih =>
    have hone : (tally.ingest input found).errors = tally.errors ∧
        (tally.ingest input found).stored = tally.stored ++ [found.sourceDocumentKey] := by
      obtain ⟨fresh, hfresh⟩ := hingest found
      rw [Tally.ingest, hfresh]
      cases fresh <;> exact ⟨rfl, rfl⟩
    obtain ⟨herrors, hstored⟩ := ih (tally.ingest input found)
    rw [List.foldl_cons, herrors, hstored, hone.1, hone.2, List.map_cons, List.append_assoc]
    exact ⟨rfl, rfl⟩

/-- A run that succeeds adds the keys of its documents, and keeps the new checkpoint. -/
theorem runPolicy_ok {client : Client} {batch : ConnectorBatch}
    (hfetch : fetch client config input.now state.checkpoint = .ok batch)
    (hingest : ∀ found, ∃ fresh, input.ingest found = .ok fresh) :
    ∃ run : ConnectorRun,
      runPolicy client config input state =
        { runs := state.runs ++ [run]
          stored := state.stored ++ batch.documents.map Document.sourceDocumentKey } ∧
      run.startedAt = input.started ∧ run.checkpoint.etag = batch.checkpoint.etag ∧
      run.checkpoint.lastModified = batch.checkpoint.lastModified ∧
      run.checkpoint.seenKeys = batch.checkpoint.seenKeys := by
  obtain ⟨herrors, hstored⟩ := foldl_ingest_ok hingest batch.documents
    { stored := state.stored, watermark := batch.sourceWatermark }
  rw [runPolicy, hfetch]
  dsimp only
  rw [if_pos herrors, hstored]
  exact ⟨_, rfl, rfl, rfl, rfl, rfl⟩

/-- The run that was added last started last. -/
theorem previousRun_concat {run : ConnectorRun} {stored : List String}
    (hstarted : ∀ other ∈ state.runs, other.startedAt < run.startedAt) :
    PolicyState.previousRun { runs := state.runs ++ [run], stored := stored } = some run := by
  rw [PolicyState.previousRun, List.argmax_concat]
  cases hargmax : state.runs.argmax ConnectorRun.startedAt with
  | none => rfl
  | some other =>
    show (if other.startedAt < run.startedAt then some run else some other) = some run
    rw [if_pos (hstarted other (List.argmax_mem hargmax))]

/-! ## Validators -/

theorem truthy_truthy (value : Option String) : truthy (truthy value) = truthy value := by
  cases value with
  | none => rfl
  | some text =>
    by_cases htext : text = ""
    · simp [truthy, htext]
    · simp [truthy]

theorem eq_of_truthy {value : Option String} {text : String} (h : truthy value = some text) :
    value = some text :=
  (Option.filter_eq_some_iff.mp h).1

theorem header_requestHeaders (config : SecConfig) (checkpoint : Checkpoint) :
    Source.header "If-None-Match" (requestHeaders config checkpoint) = truthy checkpoint.etag ∧
      Source.header "If-Modified-Since" (requestHeaders config checkpoint) =
        truthy checkpoint.lastModified := by
  rw [requestHeaders, conditionalHeaders]
  cases truthy checkpoint.etag <;> cases truthy checkpoint.lastModified <;> simp [Source.header]

/-- The source is asked without validators. -/
theorem notModified_empty (hetag : checkpoint.etag = none) (hmodified : checkpoint.lastModified = none) :
    source.notModified (requestHeaders config checkpoint) = false := by
  obtain ⟨hnoneMatch, hmodifiedSince⟩ := header_requestHeaders config checkpoint
  rw [hetag] at hnoneMatch
  rw [hmodified] at hmodifiedSince
  rw [Source.notModified, hnoneMatch, hmodifiedSince]
  rfl

instance (source : Source) : Decidable source.Validates :=
  inferInstanceAs (Decidable (_ ∨ _))

/-- The source is asked with its own validators. -/
theorem notModified_own (hetag : checkpoint.etag = truthy source.etag)
    (hmodified : checkpoint.lastModified = truthy source.lastModified) :
    source.notModified (requestHeaders config checkpoint) = decide source.Validates := by
  obtain ⟨hnoneMatch, hmodifiedSince⟩ := header_requestHeaders config checkpoint
  rw [hetag, truthy_truthy] at hnoneMatch
  rw [hmodified, truthy_truthy] at hmodifiedSince
  rw [Source.notModified, hnoneMatch, hmodifiedSince, Bool.eq_iff_iff, decide_eq_true_iff,
    Source.Validates]
  cases hvalue : truthy source.etag with
  | some value => simp [eq_of_truthy hvalue]
  | none =>
    cases hvalue' : truthy source.lastModified with
    | some value => simp [eq_of_truthy hvalue']
    | none => simp

/-! ## All runs -/

/-- How many filings are reached in a number of runs: a source that honours its validators sends its
filings once. -/
def Source.reach (source : Source) (m k : ℕ) : ℕ :=
  (if source.Validates then min k 1 else k) * m

/-- What holds after a number of runs. -/
structure Reached (source : Source) (inputs : ℕ → RunInput) (m k : ℕ) (state : PolicyState) : Prop where
  stored : state.stored = source.filings.take (source.reach m k)
  seen : ∀ key, key ∈ state.checkpoint.seenKeys ↔ key ∈ source.filings.take (source.reach m k)
  etag : state.checkpoint.etag = if k = 0 then none else truthy source.etag
  lastModified : state.checkpoint.lastModified = if k = 0 then none else truthy source.lastModified
  started : ∀ run ∈ state.runs, ∃ i < k, run.startedAt = (inputs i).started

variable {inputs : ℕ → RunInput} {k : ℕ}

theorem reached_zero : Reached source inputs config.maxDocuments 0 {} where
  stored := by simp [Source.reach]
  seen := fun key => by simp [Source.reach, PolicyState.checkpoint, PolicyState.previousRun]
  etag := rfl
  lastModified := rfl
  started := fun _ h => absurd h List.not_mem_nil

theorem or_truthy (value : Option String) (k : ℕ) :
    (value <|> if k = 0 then none else value) = value := by
  cases value <;> simp

/-- The source is told its validators from the second run on. -/
theorem Reached.notModified (h : Reached source inputs config.maxDocuments k state) :
    source.notModified (requestHeaders config state.checkpoint) =
      decide (k ≠ 0 ∧ source.Validates) := by
  have hetag := h.etag
  have hmodified := h.lastModified
  by_cases hk : k = 0
  · rw [if_pos hk] at hetag hmodified
    rw [notModified_empty hetag hmodified]
    simp [hk]
  · rw [if_neg hk] at hetag hmodified
    rw [notModified_own hetag hmodified]
    simp [hk]

theorem reach_succ_of_notModified {m : ℕ} (h : k ≠ 0 ∧ source.Validates) :
    source.reach m (k + 1) = source.reach m k := by
  rw [Source.reach, Source.reach, if_pos h.2, if_pos h.2,
    Nat.min_eq_right (Nat.succ_le_of_lt k.succ_pos), Nat.min_eq_right (Nat.one_le_iff_ne_zero.mpr h.1)]

theorem reach_succ_of_modified {m : ℕ} (h : ¬ (k ≠ 0 ∧ source.Validates)) :
    source.reach m (k + 1) = source.reach m k + m := by
  rw [Source.reach, Source.reach]
  split_ifs with hvalidates
  · obtain rfl : k = 0 := by
      by_contra hk
      exact h ⟨hk, hvalidates⟩
    simp
  · exact Nat.succ_mul k m

/-- A run fetches the filings that come next, as many as it has room for, or none. -/
theorem Reached.fetch (h : Reached source inputs config.maxDocuments k state)
    (hcik : config.ValidCik) (hagent : config.userAgent ≠ "") (hnodup : source.filings.Nodup)
    (hlength : source.filings.length ≤ 5000) (now : Datetime) :
    ∃ batch, SecConnector.fetch (source.client config.submissionsUrl) config now state.checkpoint =
        .ok batch ∧
      batch.checkpoint.etag = truthy source.etag ∧
      batch.checkpoint.lastModified = truthy source.lastModified ∧
      source.filings.take (source.reach config.maxDocuments k) ++
        batch.documents.map Document.sourceDocumentKey =
          source.filings.take (source.reach config.maxDocuments (k + 1)) ∧
      ∀ key, key ∈ batch.checkpoint.seenKeys ↔
        key ∈ source.filings.take (source.reach config.maxDocuments (k + 1)) := by
  by_cases htold : k ≠ 0 ∧ source.Validates
  · obtain ⟨batch, hfetch, hdocuments, hcheckpoint⟩ := fetch_notModified now hcik hagent
      (h.notModified.trans (decide_eq_true htold))
    rw [reach_succ_of_notModified htold]
    refine ⟨batch, hfetch, ?_, ?_, ?_, ?_⟩
    · rw [hcheckpoint]
      simp only [h.etag, or_truthy]
    · rw [hcheckpoint]
      simp only [h.lastModified, or_truthy]
    · rw [hdocuments, List.map_nil, List.append_nil]
    · rw [hcheckpoint]
      exact h.seen
  · obtain ⟨batch, hfetch, hkeys, hcheckpoint⟩ := fetch_ok now hcik hagent
      (h.notModified.trans (decide_eq_false htold))
    rw [nextUnseen_eq hnodup h.seen] at hkeys
    rw [reach_succ_of_modified htold, List.take_add]
    refine ⟨batch, hfetch, ?_, ?_, ?_, fun key => ?_⟩
    · rw [hcheckpoint]
      simp only [h.etag, or_truthy]
    · rw [hcheckpoint]
      simp only [h.lastModified, or_truthy]
    · rw [hkeys]
    · have htaken : batch.documents.map Document.sourceDocumentKey ⊆ source.filings := by
        rw [hkeys]
        exact fun key hkey => List.mem_of_mem_drop (List.mem_of_mem_take hkey)
      have hseen : state.checkpoint.seenKeys ⊆ source.filings :=
        fun key hkey => List.mem_of_mem_take ((h.seen key).mp hkey)
      rw [hcheckpoint]
      show key ∈ remember 5000 _ _ ↔ _
      rw [mem_remember hlength htaken hseen, h.seen, hkeys, List.mem_append, or_comm]

theorem Reached.succ (h : Reached source inputs config.maxDocuments k state)
    (hcik : config.ValidCik) (hagent : config.userAgent ≠ "") (hnodup : source.filings.Nodup)
    (hlength : source.filings.length ≤ 5000) (hclock : StrictMono fun k => (inputs k).started)
    (hingest : ∀ found, ∃ fresh, (inputs k).ingest found = .ok fresh) :
    Reached source inputs config.maxDocuments (k + 1)
      (runPolicy (source.client config.submissionsUrl) config (inputs k) state) := by
  obtain ⟨batch, hfetch, hetag, hmodified, hkeys, hseen⟩ :=
    h.fetch hcik hagent hnodup hlength (inputs k).now
  obtain ⟨run, hrun, hstarted, hrunEtag, hrunModified, hrunSeen⟩ := runPolicy_ok hfetch hingest
  have hlatest : PolicyState.checkpoint
      { runs := state.runs ++ [run]
        stored := state.stored ++ batch.documents.map Document.sourceDocumentKey } =
      run.checkpoint := by
    rw [PolicyState.checkpoint, previousRun_concat]
    · rfl
    · intro other hother
      obtain ⟨i, hi, hother⟩ := h.started other hother
      rw [hother, hstarted]
      exact hclock hi
  rw [hrun]
  refine ⟨?_, fun key => ?_, ?_, ?_, fun other hother => ?_⟩
  · rw [h.stored]
    exact hkeys
  · rw [hlatest, hrunSeen]
    exact hseen key
  · rw [hlatest, hrunEtag, hetag, if_neg k.succ_ne_zero]
  · rw [hlatest, hrunModified, hmodified, if_neg k.succ_ne_zero]
  · rcases List.mem_append.mp hother with hold | hnew
    · obtain ⟨i, hi, hstarted⟩ := h.started other hold
      exact ⟨i, Nat.lt_succ_of_lt hi, hstarted⟩
    · rw [List.mem_singleton.mp hnew]
      exact ⟨k, k.lt_succ_self, hstarted⟩

/-- **What is reached.**  After any number of runs the filings that were ingested are the first of the
list, and those are the keys that are remembered. -/
theorem reached_runs (hcik : config.ValidCik) (hagent : config.userAgent ≠ "")
    (hnodup : source.filings.Nodup) (hlength : source.filings.length ≤ 5000)
    (hclock : StrictMono fun k => (inputs k).started)
    (hingest : ∀ k found, ∃ fresh, (inputs k).ingest found = .ok fresh) (k : ℕ) :
    Reached source inputs config.maxDocuments k
      (runs (source.client config.submissionsUrl) config inputs k) := by
  induction k with
  | zero => exact reached_zero
  | succ k ih => exact ih.succ hcik hagent hnodup hlength hclock (hingest k)

theorem maxDocuments_eq {m : ℕ} (hm : 1 ≤ m) (hm' : m ≤ 1000)
    (hconfig : config.maxDocumentsPerRun = m) : config.maxDocuments = m := by
  rw [SecConfig.maxDocuments, hconfig]
  omega

/-- The runs that have room reach all that they have room for, or the list ends. -/
theorem min_reach_iff {m n : ℕ} (hm : 1 ≤ m) :
    min (source.reach m k) n = min n (k * m) ↔ ¬ source.Validates ∨ n ≤ m ∨ k ≤ 1 := by
  rw [Source.reach]
  split_ifs with hvalidates
  · rcases Nat.lt_or_ge 1 k with hk | hk
    · have htwo : 2 * m ≤ k * m := Nat.mul_le_mul_right m hk
      rw [Nat.min_eq_right hk.le, one_mul]
      simp only [hvalidates, not_true, false_or]
      omega
    · rw [Nat.min_eq_left hk, Nat.min_comm]
      simp [hk]
  · rw [Nat.min_comm]
    simp [hvalidates]

/-- **The connector reaches every filing** exactly when one run has room for all of them or the source
sends no validator that it honours: otherwise the second run is told 304, and so are all later ones.  What
is marked as seen was ingested in any case. -/
theorem reaches_every_filing_iff (source : Source) (config : SecConfig) (inputs : ℕ → RunInput) (m : ℕ)
    (hcik : config.ValidCik) (hagent : config.userAgent ≠ "") (hm : 1 ≤ m) (hm' : m ≤ 1000)
    (hconfig : config.maxDocumentsPerRun = m) (hnodup : source.filings.Nodup)
    (hlength : source.filings.length ≤ 5000) (hclock : StrictMono fun k => (inputs k).started)
    (hingest : ∀ k found, ∃ fresh, (inputs k).ingest found = .ok fresh) (k : ℕ) :
    ((runs (source.client config.submissionsUrl) config inputs k).stored.dedup.length =
        min source.filings.length (k * m) ∧
      ∀ key ∈ (runs (source.client config.submissionsUrl) config inputs k).checkpoint.seenKeys,
        key ∈ (runs (source.client config.submissionsUrl) config inputs k).stored) ↔
      ¬ source.Validates ∨ source.filings.length ≤ m ∨ k ≤ 1 := by
  have hreached := reached_runs hcik hagent hnodup hlength hclock hingest k
  rw [maxDocuments_eq hm hm' hconfig] at hreached
  have hseen : ∀ key ∈ (runs (source.client config.submissionsUrl) config inputs k).checkpoint.seenKeys,
      key ∈ (runs (source.client config.submissionsUrl) config inputs k).stored := by
    intro key hkey
    rw [hreached.stored]
    exact (hreached.seen key).mp hkey
  rw [and_iff_left hseen, hreached.stored,
    (hnodup.sublist (List.take_sublist _ _)).dedup, List.length_take]
  exact min_reach_iff hm

/-! ## Two filings, one at a time -/

/-- A config that takes one filing at a time, without its text. -/
def oneAtATime : SecConfig where
  cik := "123456"
  userAgent := "Compliance"
  maxDocumentsPerRun := 1
  fetchFilingBody := false

/-- Runs that start one after the other and ingest everything. -/
def steadyInputs (k : ℕ) : RunInput where
  started := k
  now := k
  completed := k
  ingest := fun _ => .ok true

/-- A source of two filings. -/
def twoFilings (etag : Option String) : Source where
  submissions := { accessionNumber := ["0000123456-26-000001", "0000123456-26-000002"] }
  etag := etag

/-- Without validators both filings are reached in two runs. -/
theorem reaches_twoFilings :
    (runs ((twoFilings none).client oneAtATime.submissionsUrl) oneAtATime steadyInputs 2).stored.dedup.length =
        2 ∧
      ∀ key ∈ (runs ((twoFilings none).client oneAtATime.submissionsUrl) oneAtATime steadyInputs
          2).checkpoint.seenKeys,
        key ∈ (runs ((twoFilings none).client oneAtATime.submissionsUrl) oneAtATime steadyInputs 2).stored :=
  (reaches_every_filing_iff (twoFilings none) oneAtATime steadyInputs 1 (by decide) (by decide)
    (by decide) (by decide) rfl (by decide) (by decide)
    (strictMono_nat_of_lt_succ fun k => by simp [steadyInputs])
    (fun _ _ => ⟨true, rfl⟩) 2).mpr (Or.inl (by decide))

/-- With a validator the second filing is never reached. -/
theorem misses_second_filing :
    (runs ((twoFilings (some "v1")).client oneAtATime.submissionsUrl) oneAtATime steadyInputs 2).stored =
        ["0000123456-26-000001"] ∧
      (runs ((twoFilings (some "v1")).client oneAtATime.submissionsUrl) oneAtATime steadyInputs
        2).stored.dedup.length ≠ min (twoFilings (some "v1")).filings.length (2 * 1) := by
  have hstored : (runs ((twoFilings (some "v1")).client oneAtATime.submissionsUrl) oneAtATime
      steadyInputs 2).stored = ["0000123456-26-000001"] := by decide +kernel
  rw [hstored]
  exact ⟨rfl, by decide⟩

end SecConnector
end Verification
end Scam2Market
