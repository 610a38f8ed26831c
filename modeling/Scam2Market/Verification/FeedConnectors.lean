import Scam2Market.Verification.SecConnector

/-!
# Feeds of official disclosures

`OfficialFeedConnector` and `GitHubReleasesConnector` of `verification/connectors.py`.

* `FeedConnector`: what the two have in common.  `entries` is what the content of a response says, whenever
  it is read: `documents_entries`.
* `officialFeedConnector`, `gitHubReleasesConnector`: the two of them.
* `fetch`: a request with the validators of the checkpoint, then the documents of the response, or none
  when it was not modified.
-/

namespace Scam2Market
namespace Verification
namespace FeedConnectors

open SecConnector (Checkpoint ConnectorBatch ConnectorError Document Headers Response
  conditionalHeaders maxPublished responseCheckpoint strip truthy)

/-! ## The connectors -/

/-- A response; `content` is its body, if it could be parsed. -/
structure FeedResponse (α : Type) extends Response where
  content : Option α := none

/-- What the connectors call: `_validate_url`, and the parsers of dates, HTML and XML. -/
structure Parsers where
  validateUrl : String → Except ConnectorError Unit
  parseDatetime : String → Option Datetime
  /-- `html.unescape(_TAG.sub(" ", text))`. -/
  plainText : String → String
  /-- `hashlib.sha256(...).hexdigest()`. -/
  sha256 : String → String

/-- The times of a fetch: after the response, and after its documents. -/
structure FetchClock where
  parsedAt : Datetime
  retrieved : Datetime

/-- What a document is told apart by: its key, and the body that is hashed. -/
def entryOf (found : Document) : String × String :=
  (found.sourceDocumentKey, found.body)

/-- `_parse_datetime(value, fallback)`. -/
def publishedAt (parsers : Parsers) (value : Option String) (fallback : Datetime) : Datetime :=
  ((truthy value).bind parsers.parseDatetime).getD fallback

/-- `_document(...)`; the times are set again when all documents are there. -/
def feedDocument (parsers : Parsers) (clock : FetchClock) (response : Response)
    (sourceKey title body : String) (url : Option String) (published : Option String) :
    Except ConnectorError Document := do
  if let some url := truthy url then parsers.validateUrl url
  return {
    sourceDocumentKey := sourceKey
    title := if strip title = "" then "Untitled official disclosure" else strip title
    body := strip body
    url := url
    publishedAt := publishedAt parsers published clock.parsedAt
    retrievedAt := clock.retrieved
    availableAt := clock.retrieved
    etag := response.etag
    lastModified := response.lastModified }

/-- A connector that reads the documents of a response in one go. -/
structure FeedConnector (α : Type) where
  url : String
  headers : Headers
  documents : FetchClock → FeedResponse α → Except ConnectorError (List Document)
  entries : α → List (String × String)
  headers_plain : ∀ header ∈ headers, header.1 ≠ "If-None-Match" ∧ header.1 ≠ "If-Modified-Since"
  documents_entries : ∀ {clock response found}, documents clock response = .ok found →
    ∃ content, response.content = some content ∧ found.map entryOf = entries content

theorem entryOf_feedDocument {parsers : Parsers} {clock : FetchClock} {response : Response}
    {sourceKey title body : String} {url published : Option String} {found : Document}
    (h : feedDocument parsers clock response sourceKey title body url published = .ok found) :
    entryOf found = (sourceKey, strip body) := by
  rw [feedDocument] at h
  cases hurl : truthy url with
  | none =>
    rw [hurl] at h
    rw [← Except.ok.inj h]
    rfl
  | some link =>
    rw [hurl] at h
    simp only at h
    cases hvalid : parsers.validateUrl link with
    | error error =>
      rw [hvalid] at h
      exact absurd h (by simp [bind, Except.bind])
    | ok valid =>
      rw [hvalid] at h
      rw [← Except.ok.inj h]
      rfl

/-- The entries of a list of documents that were made one by one. -/
theorem map_entryOf_mapM {β : Type} {make : β → Except ConnectorError Document}
    {entry : β → String × String}
    (hmake : ∀ {item found}, make item = .ok found → entryOf found = entry item) {items : List β}
    {found : List Document} (h : items.mapM make = .ok found) :
    found.map entryOf = items.map entry := by
  induction items generalizing found with
  | nil =>
    rw [List.mapM_nil] at h
    rw [← Except.ok.inj h]
    rfl
  | cons item items ih =>
    rw [List.mapM_cons] at h
    cases hitem : make item with
    | error error =>
      rw [hitem] at h
      exact absurd h (by simp [bind, Except.bind])
    | ok first =>
      rw [hitem] at h
      cases hrest : items.mapM make with
      | error error =>
        rw [hrest] at h
        exact absurd h (by simp [bind, Except.bind])
      | ok rest =>
        rw [hrest] at h
        rw [← Except.ok.inj h, List.map_cons, List.map_cons, ih hrest, hmake hitem]

/-! ### RSS and Atom -/

/-- What `_xml_text` and `_entry_link` find in an item or entry, and its serialisation. -/
structure FeedEntry where
  title : Option String := none
  link : Option String := none
  guid : Option String := none
  id : Option String := none
  description : Option String := none
  content : Option String := none
  summary : Option String := none
  pubDate : Option String := none
  published : Option String := none
  updated : Option String := none
  serialized : String := ""

/-- The items and the entries of a feed. -/
structure Feed where
  items : List FeedEntry := []
  entries : List FeedEntry := []

/-- `root.findall(".//item") or root.findall(".//{*}entry")`. -/
def Feed.found (feed : Feed) : List FeedEntry :=
  if feed.items = [] then feed.entries else feed.items

namespace FeedEntry

def titleText (entry : FeedEntry) : String :=
  (truthy entry.title).getD "Untitled official disclosure"

/-- `guid`, `id`, the link, or the hash of the serialisation. -/
def sourceKey (parsers : Parsers) (entry : FeedEntry) : String :=
  (truthy entry.guid <|> truthy entry.id <|> truthy entry.link).getD (parsers.sha256 entry.serialized)

def bodyText (parsers : Parsers) (entry : FeedEntry) : String :=
  parsers.plainText
    ((truthy entry.description <|> truthy entry.content <|> truthy entry.summary).getD entry.titleText)

def publishedText (entry : FeedEntry) : Option String :=
  truthy entry.pubDate <|> truthy entry.published <|> entry.updated

end FeedEntry

/-- `OfficialFeedConnector`; without a URL it raises before the request. -/
def officialFeedConnector (parsers : Parsers) (url : Option String) :
    Except ConnectorError (FeedConnector Feed) :=
  match truthy url with
  | none => .error { message := "RSS/Atom connector requires connector_config.url" }
  | some url => .ok {
      url := url
      headers := []
      documents := fun clock response =>
        match response.content with
        | none => .error { message := "invalid RSS/Atom XML" }
        | some feed => feed.found.mapM fun entry =>
            feedDocument parsers clock response.toResponse (entry.sourceKey parsers) entry.titleText
              (entry.bodyText parsers) entry.link entry.publishedText
      entries := fun feed => feed.found.map fun entry =>
        (entry.sourceKey parsers, strip (entry.bodyText parsers))
      headers_plain := fun _ hheader => absurd hheader List.not_mem_nil
      documents_entries := by
        intro clock response found h
        cases hcontent : response.content with
        | none =>
          rw [hcontent] at h
          exact absurd h (by simp)
        | some feed =>
          rw [hcontent] at h
          exact ⟨feed, rfl, map_entryOf_mapM (fun hmade => entryOf_feedDocument hmade) h⟩ }

/-! ### GitHub releases -/

/-- An item of the JSON list, each value as its text. -/
structure Release where
  id : Option String := none
  tagName : Option String := none
  name : Option String := none
  body : Option String := none
  htmlUrl : Option String := none
  publishedAt : Option String := none
  createdAt : Option String := none

/-- `connector_config`. -/
structure GitHubConfig where
  repository : Option String := none
  url : Option String := none
  token : Option String := none

namespace Release

/-- `item.get("id") or item.get("tag_name")`. -/
def key (release : Release) : Option String :=
  truthy release.id <|> truthy release.tagName

def titleText (release : Release) : String :=
  (truthy release.name <|> truthy release.tagName).getD "GitHub release"

def bodyText (release : Release) : String :=
  (truthy release.body <|> truthy release.name <|> truthy release.tagName).getD ""

end Release

/-- The releases with a key, each with its key. -/
def keyed (releases : List Release) : List (String × Release) :=
  releases.filterMap fun release => release.key.map fun key => (key, release)

/-- `GitHubReleasesConnector`; without a repository and a URL it raises before the request. -/
def gitHubReleasesConnector (parsers : Parsers) (config : GitHubConfig) :
    Except ConnectorError (FeedConnector (List Release)) :=
  let repository := (truthy config.repository).getD ""
  if repository = "" ∧ config.url = none then
    .error { message := "GitHub connector requires connector_config.repository or url" }
  else .ok {
    url := (truthy config.url).getD
      ("https://api.github.com/repos/" ++ repository ++ "/releases?per_page=100")
    headers := [("Accept", "application/vnd.github+json"), ("User-Agent", "Scam2Market/1.0")] ++
      ((truthy config.token).map fun token => ("Authorization", "Bearer " ++ token)).toList
    documents := fun clock response =>
      match response.content with
      | none => .error { message := "invalid GitHub releases response" }
      | some releases => (keyed releases).mapM fun (key, release) =>
          feedDocument parsers clock response.toResponse key release.titleText release.bodyText
            release.htmlUrl (truthy release.publishedAt <|> release.createdAt)
    entries := fun releases => (keyed releases).map fun (key, release) => (key, strip release.bodyText)
    headers_plain := by
      intro header hheader
      rcases List.mem_append.mp hheader with hfixed | htoken
      · simp only [List.mem_cons, List.not_mem_nil, or_false] at hfixed
        rcases hfixed with rfl | rfl <;> exact ⟨by decide, by decide⟩
      · obtain ⟨token, -, rfl⟩ := Option.map_eq_some_iff.mp (Option.mem_toList.mp htoken)
        show "Authorization" ≠ "If-None-Match" ∧ "Authorization" ≠ "If-Modified-Since"
        decide
    documents_entries := by
      intro clock response found h
      cases hcontent : response.content with
      | none =>
        rw [hcontent] at h
        exact absurd h (by simp)
      | some releases =>
        rw [hcontent] at h
        exact ⟨releases, rfl, map_entryOf_mapM (fun hmade => entryOf_feedDocument hmade) h⟩ }

/-! ## Fetching -/

variable {α : Type}

/-- The headers of a request. -/
def FeedConnector.requestHeaders (connector : FeedConnector α) (checkpoint : Checkpoint) : Headers :=
  connector.headers ++ conditionalHeaders checkpoint

/-- `fetch(checkpoint)`, when the request is answered. -/
def FeedConnector.fetch (connector : FeedConnector α) (clock : FetchClock)
    (get : String → Headers → Except ConnectorError (FeedResponse α)) (checkpoint : Checkpoint) :
    Except ConnectorError ConnectorBatch := do
  let response ← get connector.url (connector.requestHeaders checkpoint)
  let next := responseCheckpoint checkpoint response.toResponse
  if response.statusCode = 304 then
    return { documents := [], checkpoint := next, sourceWatermark := next.sourceWatermark }
  else
    let documents ← connector.documents clock response
    return {
      documents := documents
      checkpoint := next
      sourceWatermark := maxPublished documents next.sourceWatermark }

end FeedConnectors
end Verification
end Scam2Market
