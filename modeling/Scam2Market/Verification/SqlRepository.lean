import Scam2Market.Library.Rows
import Scam2Market.Verification.Repository

/-!
# The disclosures in the database

`SqlVerificationRepository` of `verification/repository.py`, as far as disclosures go.

* `addDisclosure`: a row with its chunks, or the constraint that they violate.
* `persistDisclosure`: a version that the document brings along.
* `latest?`, `prepare` and `writeVersion`: the three parts of `persist_versioned_disclosure`, which run
  under the advisory lock `lockKey`; `persistVersionedDisclosure` runs them in a row.
* `candidates`: the query of the verifier.
-/

namespace Scam2Market
namespace Verification

open Library (OrderedDict updateWhere)
open Intelligence (InUnit)

/-! ## Tables -/

/-- A row of `disclosures`. -/
structure DisclosureModel where
  disclosureId : DisclosureId
  source : String
  sourceDocumentId : String
  assetId : Option String
  title : String
  publishedAt : Datetime
  retrievedAt : Datetime
  firstObservedAt : Datetime
  ingestedAt : Datetime
  availableAt : Datetime
  documentVersion : ℕ
  supersedesDisclosureId : Option DisclosureId
  sourcePolicyVersion : String
  reliability : ℚ
  contentHash : String
  sourcePolicyId : Option String
  sourceDocumentKey : String
  logicalSourceKey : String
  versionStatus : String
  documentVersion_pos : 1 ≤ documentVersion
  reliability_mem : InUnit reliability

/-- The logical source and the document that a version belongs to. -/
def DisclosureModel.groupKey (row : DisclosureModel) : String × String :=
  (row.logicalSourceKey, row.sourceDocumentKey)

/-- What a candidate shows of the policy of its source. -/
structure SourcePolicy where
  trustTier : String
  trustRationale : Option String
  license : JsonObject

structure DisclosureTables where
  disclosures : List DisclosureModel := []
  chunks : List DisclosureChunk := []
  policies : OrderedDict String SourcePolicy := .empty

namespace DisclosureTables

variable (t : DisclosureTables)

/-- The versions of a document. -/
def versions (key : String × String) : List DisclosureModel :=
  t.disclosures.filter fun row => row.groupKey = key

/-- The row of a document; the timestamps of a row are never null. -/
def rowOf (document : DisclosureDocument) : Except PyError DisclosureModel :=
  match document.firstObservedAt, document.ingestedAt, document.availableAt with
  | some firstObservedAt, some ingestedAt, some availableAt => .ok {
      disclosureId := document.disclosureId
      source := document.source
      sourceDocumentId := document.sourceDocumentId
      assetId := document.assetId
      title := document.title
      publishedAt := document.publishedAt
      retrievedAt := document.retrievedAt
      firstObservedAt, ingestedAt, availableAt
      documentVersion := document.documentVersion
      supersedesDisclosureId := document.supersedesDisclosureId
      sourcePolicyVersion := document.sourcePolicyVersion
      reliability := document.reliability
      contentHash := document.contentHash
      sourcePolicyId := document.sourcePolicyId
      sourceDocumentKey := document.groupKey.2
      logicalSourceKey := document.groupKey.1
      versionStatus := document.versionStatus
      documentVersion_pos := document.documentVersion_pos
      reliability_mem := document.reliability_mem }
  | some _, some _, none => .error (.integrityError "available_at")
  | _, _, _ => .error (.valueError "disclosure availability timestamps must be normalized")

/-- A row and its chunks are added, unless a key is taken or a reference dangles. -/
def addDisclosure (document : DisclosureDocument) (chunks : List DisclosureChunk) :
    Except PyError DisclosureTables := do
  let row ← rowOf document
  if row.disclosureId ∈ t.disclosures.map DisclosureModel.disclosureId then
    throw (.integrityError "disclosures_pkey")
  if t.disclosures.any fun other =>
      other.groupKey = row.groupKey && other.documentVersion = row.documentVersion then
    throw (.integrityError "uq_disclosure_logical_version")
  let disclosures := t.disclosures ++ [row]
  let stored := disclosures.map DisclosureModel.disclosureId
  if row.supersedesDisclosureId.any (fun id => id ∉ stored) then
    throw (.integrityError "disclosures_supersedes_disclosure_id_fkey")
  if chunks.any fun chunk => chunk.disclosureId ∉ stored then
    throw (.integrityError "disclosure_chunks_disclosure_id_fkey")
  if ¬ ((t.chunks ++ chunks).map DisclosureChunk.chunkId).Nodup then
    throw (.integrityError "disclosure_chunks_pkey")
  return { t with disclosures := disclosures, chunks := t.chunks ++ chunks }

/-- `persist_disclosure(document, chunks)`. -/
def persistDisclosure (document : DisclosureDocument) (chunks : List DisclosureChunk) :
    Except PyError (Bool × DisclosureTables) := do
  if t.disclosures.any fun row =>
      row.groupKey = document.groupKey && row.documentVersion = document.documentVersion then
    return (false, t)
  return (true, ← t.addDisclosure document chunks)

/-- The highest version of a document. -/
def latest? (key : String × String) : Option DisclosureModel :=
  (t.versions key).argmax DisclosureModel.documentVersion

end DisclosureTables

/-- The time of storage: the document's own, or now. -/
def versionIngestedAt (preserveTimestamps : Bool) (now : Datetime) (document : DisclosureDocument) :
    Datetime :=
  if preserveTimestamps then document.storedAt else now

/-- The next version of a document, unless its content is that of the latest one. -/
def prepare (preserveTimestamps : Bool) (now : Datetime) (document : DisclosureDocument)
    (latest : Option DisclosureModel) : Option DisclosureDocument :=
  if latest.any fun row => row.contentHash = document.contentHash then none
  else
    let version := match latest with
      | some row => row.documentVersion + 1
      | none => 1
    let ingestedAt := versionIngestedAt preserveTimestamps now document
    some { document with
      disclosureId := .officialDisclosure document.groupKey.1 document.groupKey.2 version
        document.contentHash
      logicalSourceKey := some document.groupKey.1
      sourceDocumentKey := some document.groupKey.2
      documentVersion := version
      supersedesDisclosureId := latest.map DisclosureModel.disclosureId
      versionStatus := "CURRENT"
      firstObservedAt := some document.observedAt
      ingestedAt := some ingestedAt
      availableAt := some (max document.observedAt ingestedAt)
      documentVersion_pos := by
        cases latest
        · exact le_refl 1
        · exact Nat.le_add_left 1 _ }

/-- `pg_advisory_xact_lock(hashtextextended(lock_key, 0))`. -/
def lockKey (document : DisclosureDocument) : String :=
  s!"{document.groupKey.1}:{document.groupKey.2}"

namespace DisclosureTables

variable (t : DisclosureTables)

/-- The latest version is superseded, and the next one is added. -/
def writeVersion (latest : Option DisclosureModel) (prepared : DisclosureDocument)
    (chunks : List DisclosureChunk) : Except PyError DisclosureTables :=
  { t with
    disclosures := updateWhere (fun row => latest.any fun other : DisclosureModel => row.disclosureId = other.disclosureId)
      (fun row => { row with versionStatus := "SUPERSEDED" }) t.disclosures
    }.addDisclosure prepared chunks

/-- `persist_versioned_disclosure(document, chunks_for, preserve_timestamps=...)`. -/
def persistVersionedDisclosure (preserveTimestamps : Bool) (now : Datetime)
    (document : DisclosureDocument) (chunksFor : DisclosureDocument → List DisclosureChunk) :
    Except PyError (Option DisclosureDocument × DisclosureTables) := do
  let latest := t.latest? document.groupKey
  match prepare preserveTimestamps now document latest with
  | none => return (none, t)
  | some prepared => return (some prepared, ← t.writeVersion latest prepared (chunksFor prepared))

/-! ## The query -/

/-- `case((available_at <= alert_time, 0), else_=1)`. -/
def temporalGroup (alertTime : Datetime) (row : DisclosureModel) : ℕ :=
  if row.availableAt ≤ alertTime then 0 else 1

/-- `row_number()` over the versions of the document in the same temporal group, the newest first. -/
def versionRank (alertTime : Datetime) (row : DisclosureModel) : ℕ :=
  (t.versions row.groupKey).countP (fun other =>
    temporalGroup alertTime other = temporalGroup alertTime row &&
      row.documentVersion < other.documentVersion) + 1

/-- The rows that the query joins. -/
def IsSelected (assetId : String) (alertTime earliest latest : Datetime) (row : DisclosureModel) :
    Prop :=
  (row.assetId = some assetId ∨ row.assetId = none) ∧ earliest ≤ row.publishedAt ∧
    row.publishedAt ≤ latest ∧ (alertTime < row.availableAt ∨ t.versionRank alertTime row = 1)

instance (assetId : String) (alertTime earliest latest : Datetime) (row : DisclosureModel) :
    Decidable (t.IsSelected assetId alertTime earliest latest row) :=
  inferInstanceAs (Decidable (_ ∧ _))

/-- The candidate of a chunk, with the policy of the source. -/
def candidateRow (row : DisclosureModel) (chunk : DisclosureChunk) : DisclosureCandidate :=
  let policy := row.sourcePolicyId.bind t.policies.get?
  { chunkId := chunk.chunkId
    disclosureId := row.disclosureId
    source := row.source
    sourceDocumentId := row.sourceDocumentId
    title := row.title
    text := chunk.text
    publishedAt := row.publishedAt
    firstObservedAt := row.firstObservedAt
    ingestedAt := row.ingestedAt
    availableAt := row.availableAt
    documentVersion := row.documentVersion
    sourcePolicyVersion := row.sourcePolicyVersion
    reliability := row.reliability
    sourcePolicyId := row.sourcePolicyId
    trustTier := (policy.map SourcePolicy.trustTier).getD "UNSPECIFIED"
    trustRationale := policy.bind SourcePolicy.trustRationale
    licenseSnapshot := (policy.map SourcePolicy.license).getD .empty
    documentVersion_pos := row.documentVersion_pos
    reliability_mem := row.reliability_mem }

/-- The chunks with their selected rows. -/
def joined (assetId : String) (alertTime earliest latest : Datetime) :
    List (DisclosureChunk × DisclosureModel) :=
  t.chunks.flatMap fun chunk =>
    (t.disclosures.filter fun row => row.disclosureId = chunk.disclosureId ∧
      t.IsSelected assetId alertTime earliest latest row).map fun row => (chunk, row)

/-- By `published_at` and `chunk_index`. -/
def joinOrder (pair pair' : DisclosureChunk × DisclosureModel) : Prop :=
  toLex (pair.2.publishedAt, pair.1.chunkIndex) ≤ toLex (pair'.2.publishedAt, pair'.1.chunkIndex)

instance : DecidableRel joinOrder := fun _ _ =>
  inferInstanceAs (Decidable (toLex _ ≤ toLex _))

/-- `candidates(asset_id=..., alert_time=..., lookback_days=..., future_days=...)`. -/
def candidates (assetId : String) (alertTime : Datetime) (lookbackDays futureDays : ℤ) :
    List DisclosureCandidate :=
  let earliest := alertTime - timedeltaSeconds (86400 * lookbackDays)
  let latest := alertTime + timedeltaSeconds (86400 * futureDays)
  (((t.joined assetId alertTime earliest latest).insertionSort joinOrder).take 500).map
    fun (chunk, row) => t.candidateRow row chunk

end DisclosureTables

end Verification
end Scam2Market
