import Mathlib.Data.List.MinMax
import Mathlib.Data.Prod.Lex
import Scam2Market.Library.Grouping
import Scam2Market.Library.StableSort
import Scam2Market.Verification.Schemas

/-!
# The disclosures in memory

`InMemoryVerificationRepository` of `verification/repository.py`, as far as the verifier reads it.

* `candidates`: of every document the newest version that is available, and all versions that are not
  yet; then the chunks of those that are about the asset and within the horizon.
* Chunks are sorted by the text of their ids, which is a parameter (`text`).
-/

namespace Scam2Market
namespace Verification

open Library (OrderedDict group)

/-- `first or second`, where an empty text is false. -/
def orText (first : Option String) (second : String) : String :=
  match first with
  | some value => if value = "" then second else value
  | none => second

/-- A document with its chunks. -/
abbrev StoredDocument := DisclosureDocument × List DisclosureChunk

namespace DisclosureDocument

variable (document : DisclosureDocument)

/-- The logical source and the document that a version belongs to. -/
def groupKey : String × String :=
  (orText document.logicalSourceKey (document.sourcePolicyId.getD document.source),
    orText document.sourceDocumentKey document.sourceDocumentId)

/-- `document.available_at or document.retrieved_at`. -/
def listedAt : Datetime :=
  document.availableAt.getD document.retrievedAt

/-- `document.first_observed_at or document.retrieved_at`. -/
def observedAt : Datetime :=
  document.firstObservedAt.getD document.retrievedAt

/-- `document.ingested_at or document.retrieved_at`. -/
def storedAt : Datetime :=
  document.ingestedAt.getD document.retrievedAt

end DisclosureDocument

/-- The candidate of a chunk. -/
def candidateOf (document : DisclosureDocument) (chunk : DisclosureChunk) : DisclosureCandidate where
  chunkId := chunk.chunkId
  disclosureId := document.disclosureId
  source := document.source
  sourceDocumentId := document.sourceDocumentId
  title := document.title
  text := chunk.text
  publishedAt := document.publishedAt
  firstObservedAt := document.observedAt
  ingestedAt := document.storedAt
  availableAt := document.availableAt.getD (max document.observedAt document.storedAt)
  documentVersion := document.documentVersion
  sourcePolicyVersion := document.sourcePolicyVersion
  reliability := document.reliability
  sourcePolicyId := document.sourcePolicyId
  documentVersion_pos := document.documentVersion_pos
  reliability_mem := document.reliability_mem

/-- The versions of a document that are looked at: the newest that is available, and all that are not
yet. -/
def selectVersions (alertTime : Datetime) (versions : List StoredDocument) : List StoredDocument :=
  ((versions.filter fun item => item.1.listedAt ≤ alertTime).argmax fun item =>
    item.1.documentVersion).toList ++
  versions.filter fun item => alertTime < item.1.listedAt

/-- A document is about the asset and published within the horizon. -/
def InScope (assetId : String) (earliest latest : Datetime) (document : DisclosureDocument) : Prop :=
  (document.assetId = none ∨ document.assetId = some assetId) ∧
    earliest ≤ document.publishedAt ∧ document.publishedAt ≤ latest

instance (assetId : String) (earliest latest : Datetime) (document : DisclosureDocument) :
    Decidable (InScope assetId earliest latest document) :=
  inferInstanceAs (Decidable (_ ∧ _))

/-- The candidates of a stored document. -/
def candidatesOf (assetId : String) (earliest latest : Datetime) (item : StoredDocument) :
    List DisclosureCandidate :=
  if InScope assetId earliest latest item.1 then item.2.map (candidateOf item.1) else []

/-- The oldest first, by the text of the id among equals. -/
def candidateKey (text : ChunkId → String) (candidate : DisclosureCandidate) : ℤ ×ₗ String :=
  toLex (candidate.publishedAt, text candidate.chunkId)

/-- Documents by their keys, and the coverage of the sources, for all assets or by asset. -/
structure InMemoryVerificationRepository where
  documents : OrderedDict String StoredDocument := .empty
  coverage : JsonObject := .ofFields [("complete", .bool true), ("degraded_source_count", .int 0),
    ("degraded_sources", .list []), ("expected_source_count", .int 0)]
  coverageByAsset : OrderedDict (Option String) JsonObject := .empty

namespace InMemoryVerificationRepository

variable (repository : InMemoryVerificationRepository)

/-- The stored documents, in the order they were stored in. -/
def stored : List StoredDocument :=
  repository.documents.entries.map Prod.snd

/-- `candidates(asset_id=..., alert_time=..., lookback_days=..., future_days=...)`. -/
def candidates (text : ChunkId → String) (assetId : String) (alertTime : Datetime)
    (lookbackDays futureDays : ℤ) : List DisclosureCandidate :=
  let earliest := alertTime - timedeltaSeconds (86400 * lookbackDays)
  let latest := alertTime + timedeltaSeconds (86400 * futureDays)
  let grouped := group (fun item => item.1.groupKey) repository.stored
  let selected := grouped.entries.flatMap fun entry => selectVersions alertTime entry.2
  (selected.flatMap (candidatesOf assetId earliest latest)).insertionSort fun a b =>
    candidateKey text a ≤ candidateKey text b

/-- `source_coverage(asset_id, alert_time)`. -/
def sourceCoverage (assetId : String) : JsonObject :=
  match repository.coverageByAsset.get? (some assetId) with
  | some coverage => coverage
  | none =>
    match repository.coverageByAsset.get? none with
    | some coverage => coverage
    | none => repository.coverage

end InMemoryVerificationRepository

end Verification
end Scam2Market
