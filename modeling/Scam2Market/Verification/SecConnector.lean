import Mathlib.Data.List.MinMax
import Scam2Market.Library.BoundedPasses
import Scam2Market.Python.Values

/-!
# The SEC connector

`SecEdgarConnector.fetch` with the helpers of `_HttpConnector` in `verification/connectors.py`, and
`_run_policy` of `workers/disclosure_connector_worker.py` for a policy of that type.

* `Client` is what is called outside: `_validate_url`, `_get`, and the parsers of dates and HTML.
* `fetch` carries two marks to the next run: the validators of the last response, sent with the next
  request, and the keys of the filings it has returned.
* `runPolicy` starts from the checkpoint of the run that started last, and keeps the new one if every
  document was ingested.  `stored` are the keys of the documents that were ingested.

What the policy adds to each document, the JSON of a checkpoint, and the circuit breaker, which passes a
call through as long as none fails, are left out.
-/

namespace Scam2Market
namespace Verification
namespace SecConnector

structure ConnectorError where
  message : String
  rateLimited : Bool := false
  deriving DecidableEq, Repr

/-- The checkpoint of a run; a key that is absent is `none`. -/
structure Checkpoint where
  etag : Option String := none
  lastModified : Option String := none
  seenKeys : List String := []
  completedAt : Option Datetime := none
  sourceWatermark : Option Datetime := none
  deriving DecidableEq, Repr

/-- The part of a `submissions` document that is read. -/
structure Submissions where
  name : Option String := none
  accessionNumber : List String
  form : List String := []
  filingDate : List String := []
  primaryDocument : List String := []
  primaryDocDescription : List String := []
  deriving DecidableEq, Repr

/-- A response; `submissions` is its JSON, if it is a `submissions` document. -/
structure Response where
  statusCode : ℕ := 200
  etag : Option String := none
  lastModified : Option String := none
  submissions : Option Submissions := none
  text : String := ""
  deriving DecidableEq, Repr

abbrev Headers : Type := List (String × String)

/-- What the connector calls. -/
structure Client where
  validateUrl : String → Except ConnectorError Unit
  get : String → Headers → Except ConnectorError Response
  /-- `_parse_datetime`, of a text that it can parse. -/
  parseDatetime : String → Option Datetime
  /-- `" ".join(html.unescape(_TAG.sub(" ", text)).split())`. -/
  plainText : String → String

/-- `connector_config`. -/
structure SecConfig where
  cik : String
  userAgent : String
  url : Option String := none
  maxDocumentsPerRun : ℤ := 100
  fetchFilingBody : Bool := true

/-- A document that the connector returns. -/
structure Document where
  sourceDocumentKey : String
  title : String
  body : String
  url : Option String
  publishedAt : Datetime
  retrievedAt : Datetime
  availableAt : Datetime
  etag : Option String
  lastModified : Option String
  deriving DecidableEq, Repr

structure ConnectorBatch where
  documents : List Document
  checkpoint : Checkpoint
  sourceWatermark : Option Datetime

/-! ## Helpers -/

/-- A text that is not empty. -/
def truthy (value : Option String) : Option String :=
  value.filter (· ≠ "")

/-- `value.strip()`. -/
def strip (value : String) : String :=
  String.ofList ((value.toList.dropWhile isSpace).reverse.dropWhile isSpace).reverse

/-- `_conditional_headers(checkpoint)`. -/
def conditionalHeaders (checkpoint : Checkpoint) : Headers :=
  ((truthy checkpoint.etag).map fun value => ("If-None-Match", value)).toList ++
    ((truthy checkpoint.lastModified).map fun value => ("If-Modified-Since", value)).toList

/-- `_response_checkpoint(checkpoint, response)`. -/
def responseCheckpoint (checkpoint : Checkpoint) (response : Response) : Checkpoint :=
  { checkpoint with
    etag := truthy response.etag <|> checkpoint.etag
    lastModified := truthy response.lastModified <|> checkpoint.lastModified }

/-- `_at(values, key, index)`. -/
def at? (values : List String) (index : ℕ) : String :=
  values.getD index ""

/-- `max(published, default=default)`. -/
def maxPublished (documents : List Document) (default : Option Datetime) : Option Datetime :=
  (documents.map Document.publishedAt).max? <|> default

namespace SecConfig

/-- `int(raw_cik)`, of digits. -/
def number (config : SecConfig) : ℕ :=
  config.cik.toList.foldl (fun value digit => 10 * value + (digit.toNat - '0'.toNat)) 0

/-- `raw_cik.isdigit()`, `1 <= len(raw_cik) <= 10` and `int(raw_cik) != 0`; the digits are ASCII. -/
def ValidCik (config : SecConfig) : Prop :=
  config.cik.toList.all Char.isDigit = true ∧ 1 ≤ config.cik.toList.length ∧
    config.cik.toList.length ≤ 10 ∧ config.number ≠ 0

instance (config : SecConfig) : Decidable config.ValidCik :=
  inferInstanceAs (Decidable (_ ∧ _))

/-- `raw_cik.zfill(10)`. -/
def paddedCik (config : SecConfig) : String :=
  String.ofList (List.replicate (10 - config.cik.toList.length) '0' ++ config.cik.toList)

def submissionsUrl (config : SecConfig) : String :=
  (truthy config.url).getD ("https://data.sec.gov/submissions/CIK" ++ config.paddedCik ++ ".json")

/-- `max(1, min(max_documents_per_run, 1000))`. -/
def maxDocuments (config : SecConfig) : ℕ :=
  (max 1 (min config.maxDocumentsPerRun 1000)).toNat

/-- The URL of a filing, if it has a document. -/
def filingUrl (config : SecConfig) (accession primary : String) : Option String :=
  if primary = "" then none
  else some ("https://www.sec.gov/Archives/edgar/data/" ++ toString config.number ++ "/" ++
    String.ofList (accession.toList.filter (· ≠ '-')) ++ "/" ++ primary)

end SecConfig

/-! ## Fetching -/

section Fetch

variable (client : Client) (config : SecConfig) (now : Datetime)

/-- `_document(...)`. -/
def document (response : Response) (sourceKey title body : String) (url : Option String)
    (publishedAt : Datetime) : Except ConnectorError Document := do
  if let some url := truthy url then client.validateUrl url
  return {
    sourceDocumentKey := sourceKey
    title := if strip title = "" then "Untitled official disclosure" else strip title
    body := strip body
    url := url
    publishedAt := publishedAt
    retrievedAt := now
    availableAt := now
    etag := response.etag
    lastModified := response.lastModified }

/-- The body of a filing, or the summary. -/
def filingBody (summary : String) (url : Option String) : Except ConnectorError String :=
  match url with
  | some url =>
    if config.fetchFilingBody then do
      let filing ← client.get url
        [("User-Agent", config.userAgent), ("Accept", "text/html,application/xhtml+xml")]
      return if client.plainText filing.text = "" then summary else client.plainText filing.text
    else .ok summary
  | none => .ok summary

/-- The document of one filing. -/
def filing (response : Response) (recent : Submissions) (index : ℕ) (accession : String) :
    Except ConnectorError Document := do
  let form := at? recent.form index
  let filingDate := at? recent.filingDate index
  let url := config.filingUrl accession (at? recent.primaryDocument index)
  let title := "SEC " ++ form ++ " filing for " ++ recent.name.getD config.paddedCik
  let summary := " | ".intercalate
    ([title, at? recent.primaryDocDescription index, filingDate].filter (· ≠ ""))
  let body ← filingBody client config summary url
  document client now response accession title body url
    ((client.parseDatetime filingDate).getD now)

/-- The loop over the filings: `room` more documents are returned, of filings that were not seen. -/
def collect (filing : ℕ → String → Except ConnectorError Document) (seenKeys : List String) :
    ℕ → ℕ → List String → Except ConnectorError (List Document)
  | _, _, [] => .ok []
  | 0, _, _ :: _ => .ok []
  | room + 1, index, accession :: rest =>
    if accession ∈ seenKeys then collect filing seenKeys (room + 1) (index + 1) rest
    else do
      let found ← filing index accession
      let documents ← collect filing seenKeys room (index + 1) rest
      return found :: documents

/-- The headers of the request for the filings. -/
def requestHeaders (config : SecConfig) (checkpoint : Checkpoint) : Headers :=
  [("User-Agent", config.userAgent), ("Accept", "application/json")] ++
    conditionalHeaders checkpoint

/-- `SecEdgarConnector.fetch(checkpoint)`; a response that cannot be read is named by the first words of
its error. -/
def fetch (checkpoint : Checkpoint) : Except ConnectorError ConnectorBatch :=
  if ¬ config.ValidCik then
    .error { message := "SEC connector requires a numeric CIK of at most 10 digits" }
  else if config.userAgent = "" then
    .error { message := "SEC connector requires connector_config.cik and user_agent" }
  else do
    let response ← client.get config.submissionsUrl (requestHeaders config checkpoint)
    let next := responseCheckpoint checkpoint response
    if response.statusCode = 304 then
      return { documents := [], checkpoint := next, sourceWatermark := next.sourceWatermark }
    else
      match response.submissions with
      | none => .error { message := "invalid SEC submissions response" }
      | some recent =>
        let documents ← collect (filing client config now response recent) checkpoint.seenKeys
          config.maxDocuments 0 recent.accessionNumber
        let newKeys := documents.map Document.sourceDocumentKey
        return {
          documents := documents
          checkpoint :=
            { next with seenKeys := Library.remember 5000 newKeys checkpoint.seenKeys }
          sourceWatermark := maxPublished documents next.sourceWatermark }

end Fetch

/-! ## Runs -/

inductive RunStatus where
  | success
  | partialSuccess
  | failed
  | rateLimited
  deriving DecidableEq, Repr

/-- A row of `source_connector_runs`, when the run has ended. -/
structure ConnectorRun where
  status : RunStatus
  startedAt : Datetime
  completedAt : Datetime
  checkpoint : Checkpoint
  fetchedCount : ℕ
  ingestedCount : ℕ
  unchangedCount : ℕ
  errorCount : ℕ
  sourceWatermark : Option Datetime
  error : Option (ConnectorError ⊕ PyError) := none

/-- The runs of a policy, and the keys of the documents that were ingested. -/
structure PolicyState where
  runs : List ConnectorRun := []
  stored : List String := []

/-- The order of times, by the instance that computes. -/
local instance : Preorder Datetime :=
  Int.instLinearOrder.toPartialOrder.toPreorder

/-- The run that started last. -/
def PolicyState.previousRun (state : PolicyState) : Option ConnectorRun :=
  state.runs.argmax ConnectorRun.startedAt

/-- The checkpoint that the next run starts from. -/
def PolicyState.checkpoint (state : PolicyState) : Checkpoint :=
  state.previousRun.elim {} ConnectorRun.checkpoint

/-- What a run meets: the clock, and what `ingest` answers, true for a new version. -/
structure RunInput where
  started : Datetime
  now : Datetime
  completed : Datetime
  ingest : Document → Except PyError Bool

/-- `max(next_watermark, published_at)`. -/
def raise (watermark : Option Datetime) (publishedAt : Datetime) : Option Datetime :=
  some (watermark.elim publishedAt fun value => max value publishedAt)

/-- What the loop over the documents counts. -/
structure Tally where
  stored : List String
  ingested : ℕ := 0
  unchanged : ℕ := 0
  errors : ℕ := 0
  error : Option (ConnectorError ⊕ PyError) := none
  watermark : Option Datetime

/-- One document of the loop. -/
def Tally.ingest (input : RunInput) (tally : Tally) (found : Document) : Tally :=
  match input.ingest found with
  | .ok true =>
    { tally with
      stored := tally.stored ++ [found.sourceDocumentKey]
      ingested := tally.ingested + 1
      watermark := raise tally.watermark found.publishedAt }
  | .ok false =>
    { tally with
      stored := tally.stored ++ [found.sourceDocumentKey]
      unchanged := tally.unchanged + 1 }
  | .error error => { tally with errors := tally.errors + 1, error := some (.inr error) }

/-- The row of a run that ends with a checkpoint and a watermark. -/
def ConnectorRun.ended (input : RunInput) (status : RunStatus) (checkpoint : Checkpoint)
    (watermark : Option Datetime) (fetched : ℕ) (tally : Tally) : ConnectorRun where
  status := status
  startedAt := input.started
  completedAt := input.completed
  checkpoint := { checkpoint with completedAt := some input.completed, sourceWatermark := watermark }
  fetchedCount := fetched
  ingestedCount := tally.ingested
  unchangedCount := tally.unchanged
  errorCount := tally.errors
  sourceWatermark := watermark
  error := tally.error

/-- `_run_policy(policy, ...)`. -/
def runPolicy (client : Client) (config : SecConfig) (input : RunInput) (state : PolicyState) :
    PolicyState :=
  let checkpoint := state.checkpoint
  let watermark := state.previousRun.bind ConnectorRun.sourceWatermark
  match fetch client config input.now checkpoint with
  | .error error =>
    { state with runs := state.runs ++
        [ConnectorRun.ended input (if error.rateLimited then .rateLimited else .failed) checkpoint
          watermark 0
          { stored := state.stored
            errors := 1
            error := some (.inl error)
            watermark := watermark }] }
  | .ok batch =>
    let tally := batch.documents.foldl (Tally.ingest input)
      { stored := state.stored, watermark := batch.sourceWatermark }
    if tally.errors = 0 then
      { runs := state.runs ++ [ConnectorRun.ended input .success batch.checkpoint tally.watermark
          batch.documents.length tally]
        stored := tally.stored }
    else
      { runs := state.runs ++ [ConnectorRun.ended input
          (if tally.ingested = 0 then .failed else .partialSuccess) checkpoint watermark
          batch.documents.length tally]
        stored := tally.stored }

/-- The state after a number of runs, from an empty checkpoint. -/
def runs (client : Client) (config : SecConfig) (inputs : ℕ → RunInput) : ℕ → PolicyState
  | 0 => {}
  | k + 1 => runPolicy client config (inputs k) (runs client config inputs k)

end SecConnector
end Verification
end Scam2Market
