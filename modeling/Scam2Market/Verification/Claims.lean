import Scam2Market.Library.KeepFirst
import Scam2Market.Verification.Similarity

/-!
# The claims of a narrative

`DeterministicClaimExtractor` of `verification/service.py`.

* `claimTexts`: the parts of a summary that are taken for claims.
* `extract`: one claim for each canonical form, of the first five parts.
* SHA-256 of the canonical form is a function of the extractor (`sha256`); no property of it is used.
-/

namespace Scam2Market
namespace Verification

open Library (keepFirst mem_of_mem_keepFirst nodup_map_keepFirst)

/-- What is read of a narrative. -/
structure NarrativeCluster where
  narrativeId : String
  narrativeRevisionId : String
  scopeId : String
  assetId : String
  summary : String

/-! ## The parts of a summary -/

/-- `_SENTENCE.split(text)`: the blanks after a full stop, an exclamation or a question mark separate.
`part` is what has been read of a part; `ended` says that its last character is such a mark, `skipping`
that the blanks of a separator are being read. -/
def splitSentences (skipping ended : Bool) (part : List Char) : List Char → List (List Char)
  | [] => [part]
  | c :: rest =>
    if skipping && isSpace c then splitSentences true false part rest
    else if ended && isSpace c then part :: splitSentences true false [] rest
    else splitSentences false (c = '.' || c = '!' || c = '?') (part ++ [c]) rest

/-- A letter in any case: two characters outside ASCII stand for an i as well. -/
def sameLetter (letter c : Char) : Bool :=
  c.toLower = letter || (letter = 'i' && (c.toNat = 0x130 || c.toNat = 0x131))

/-- The length of the match of `_CLAIM_BOUNDARY` that a text begins with. -/
def boundaryLength (text : List Char) : Option ℕ :=
  if text.head? = some ';' then some (1 + (text.tail.takeWhile isSpace).length)
  else
    let lead := (text.takeWhile isSpace).length
    if lead = 0 then none
    else ["and".toList, "but".toList, "while".toList].findSome? fun word =>
      let found := (text.drop lead).take word.length
      let trail := ((text.drop (lead + word.length)).takeWhile isSpace).length
      if found.length = word.length && (List.zipWith sameLetter word found).all id && 0 < trail then
        some (lead + word.length + trail)
      else none

/-- `_CLAIM_BOUNDARY.split(sentence)`; `skip` is what is left to read of a separator. -/
def splitParts (skip : ℕ) (part : List Char) : List Char → List (List Char)
  | [] => [part]
  | c :: rest =>
    match skip with
    | skip + 1 => splitParts skip part rest
    | 0 =>
      match boundaryLength (c :: rest) with
      | some length => part :: splitParts (length - 1) [] rest
      | none => splitParts 0 (part ++ [c]) rest

/-- `len(_TOKEN.findall(part))`; the case of the letters matters here. -/
def tokenCount (part : List Char) : ℕ :=
  (((part.splitOnP fun c => !isTokenChar c).map fun run =>
    run.dropWhile fun c => !isTokenStart c).filter fun run => 2 ≤ run.length).length

/-- `text.strip(...)`. -/
def stripWhere (p : Char → Bool) (text : List Char) : List Char :=
  ((text.dropWhile p).reverse.dropWhile p).reverse

/-- The texts of the claims of a summary. -/
def claimTexts (summary : String) : List String :=
  let parts := (splitSentences false false [] summary.toList).flatMap (splitParts 0 [])
  let candidates := (parts.filter fun part => 3 ≤ tokenCount part).map
    (stripWhere fun c => c = ' ' || c = ',')
  if candidates = [] ∧ ¬ isBlank summary then [String.ofList (stripWhere isSpace summary.toList)]
  else candidates.map String.ofList

example : claimTexts "Shares will double while insiders keep buying; hurry. No" =
    ["Shares will double", "insiders keep buying"] := by
  decide +kernel

/-! ## The claims -/

/-- The extractor; `sha256` is the hash of the JSON of a canonical claim. -/
structure DeterministicClaimExtractor where
  sha256 : CanonicalClaim → String

namespace DeterministicClaimExtractor

def version : String :=
  "atomic-claim-extractor-v2"

variable (extractor : DeterministicClaimExtractor) (narrative : NarrativeCluster)
  (extractedAt : Datetime)

/-- The id of a claim, as the name it is made from. -/
def claimIdOf (narrativeId claimHash : String) : String :=
  s!"claim:{narrativeId}:{claimHash}"

def claimOf (text : String) : Claim :=
  let canonical := canonicalClaim narrative.assetId text
  let claimHash := extractor.sha256 canonical
  { claimId := claimIdOf narrative.narrativeId claimHash
    narrativeId := narrative.narrativeId
    assetId := narrative.assetId
    claimText := text
    claimType := canonical.claimType
    canonicalPayload := { polarity := some canonical.polarity, amounts := canonical.amounts }
    claimHash := claimHash
    extractedAt := extractedAt
    extractorVersion := version }

/-- `extract(narrative, extracted_at)`. -/
def extract : List Claim :=
  keepFirst Claim.claimHash []
    (((claimTexts narrative.summary).take 5).map (extractor.claimOf narrative extractedAt))

variable {extractor narrative extractedAt} {claim : Claim}

/-- The id of a claim is made of its narrative and its hash. -/
theorem claimId_of_mem_extract (h : claim ∈ extractor.extract narrative extractedAt) :
    claim.claimId = claimIdOf claim.narrativeId claim.claimHash ∧
      claim.narrativeId = narrative.narrativeId := by
  obtain ⟨text, -, rfl⟩ := List.mem_map.mp (mem_of_mem_keepFirst h)
  exact ⟨rfl, rfl⟩

/-- The claims of a narrative have different ids. -/
theorem nodup_claimId_extract :
    ((extractor.extract narrative extractedAt).map Claim.claimId).Nodup := by
  have hhashes : ((extractor.extract narrative extractedAt).map Claim.claimHash).Nodup :=
    nodup_map_keepFirst _ _ _
  have hinj : Function.Injective (claimIdOf narrative.narrativeId) := fun _ _ h =>
    (String.append_right_inj _).mp h
  have hids : (extractor.extract narrative extractedAt).map Claim.claimId =
      ((extractor.extract narrative extractedAt).map Claim.claimHash).map
        (claimIdOf narrative.narrativeId) := by
    rw [List.map_map]
    refine List.map_congr_left fun claim hclaim => ?_
    obtain ⟨hid, hnarrative⟩ := claimId_of_mem_extract hclaim
    rw [hid, hnarrative]
    rfl
  rw [hids]
  exact hhashes.map hinj

end DeterministicClaimExtractor

end Verification
end Scam2Market
