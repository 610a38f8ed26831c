import Mathlib.Data.Prod.Lex
import Mathlib.Data.List.Infix
import Scam2Market.Ingestion.SocialText
import Scam2Market.Library.OrderedDict

/-!
# The assets a post mentions

`AssetRegistry` and `AssetMentionResolver.resolve` of `ingestion/social.py`.

* The registry has, for each alias in upper case, the assets it may stand for.
* The matches of the two patterns of tags and of one pattern for each alias are put into one dictionary,
  whose keys are the spans; the first match of a span stays, but for those of the tags.
* The aliases are taken from a set, the longer ones first.  Aliases of one length may come in any order;
  a match of either gives the same item, so one order is taken here.
-/

namespace Scam2Market
namespace Ingestion

open Intelligence (stripWhere)
open Library (Matcher OrderedDict scan)
open Streaming (AssetMention)

/-! ## The registry -/

/-- `Asset`, with the fields that the registry reads. -/
structure Asset where
  assetId : String
  symbol : String
  name : String

structure AliasCandidate where
  assetId : String
  symbol : String
  isAmbiguous : Bool
  deriving DecidableEq

/-- `AssetRegistry`. -/
structure AssetRegistry where
  aliases : OrderedDict String (List AliasCandidate)

/-- `self._aliases.setdefault(alias, []).append(candidate)`. -/
def addAlias (name : String) (candidate : AliasCandidate)
    (d : OrderedDict String (List AliasCandidate)) : OrderedDict String (List AliasCandidate) :=
  d.set name (d.getD name [] ++ [candidate])

/-- The step of the loop of `AssetRegistry.__init__`. -/
def addAsset (u : UnicodeData) (ambiguous : List String)
    (d : OrderedDict String (List AliasCandidate)) (asset : Asset) :
    OrderedDict String (List AliasCandidate) :=
  let symbol := u.upperText asset.symbol
  let candidate : AliasCandidate := ⟨asset.assetId, symbol, symbol ∈ ambiguous⟩
  let normalizedName := u.upperText (stripWhere isSpace (u.normalize asset.name))
  let d := addAlias symbol candidate d
  if normalizedName ≠ "" ∧ normalizedName ≠ symbol then addAlias normalizedName candidate d else d

/-- `AssetRegistry(assets, ambiguous_aliases)`. -/
def AssetRegistry.ofAssets (u : UnicodeData) (assets : List Asset)
    (ambiguousAliases : List String := []) : AssetRegistry where
  aliases := assets.foldl (addAsset u (ambiguousAliases.map u.upperText)) .empty

/-- `candidates(alias)`. -/
def AssetRegistry.candidates (u : UnicodeData) (registry : AssetRegistry) (name : String) :
    List AliasCandidate :=
  registry.aliases.getD (u.upperText name) []

/-! ## Matches -/

/-- `(?<![\w$#])alias(?!\w)`, under `re.IGNORECASE`. -/
def aliasAt (u : UnicodeData) (name : String) : Matcher Char := fun prev text =>
  if u.notBehindWord prev ∧ prev ≠ some '$' ∧ prev ≠ some '#' ∧ u.beginsWith name.toList text ∧
      u.notBeforeWord (text.drop name.length) then
    some name.length
  else none

inductive MatchKind where
  | cashtag
  | hashtag
  | bare
  deriving DecidableEq, Repr

/-- `(match.start(), match.end())`. -/
abbrev Span := ℕ × ℕ

/-- `text[start:end]`. -/
def slice (text : List Char) (span : Span) : List Char :=
  (text.take span.2).drop span.1

/-- The spans of the matches. -/
def spansOf (m : Matcher Char) (text : List Char) : List Span :=
  (scan m text).map fun found => (found.1, found.1 + found.2)

abbrev Matches := OrderedDict Span (String × MatchKind)

/-- `matches[span] = (match.group(1), kind)`, for the matches of a pattern of tags. -/
def addTags (text : List Char) (found : Matches) (pattern : Matcher Char × MatchKind) : Matches :=
  (spansOf pattern.1 text).foldl
    (fun d span => d.set span (String.ofList (slice text span).tail, pattern.2)) found

/-- `matches.setdefault(span, (match.group(0), "BARE"))`. -/
def addBare (text : List Char) (found : Matches) (span : Span) : Matches :=
  if span ∈ found.keys then found else found.set span (String.ofList (slice text span), .bare)

namespace UnicodeData

variable (u : UnicodeData)

/-- The patterns of tags. -/
def tagPatterns : List (Matcher Char × MatchKind) :=
  [(u.cashtagAt, .cashtag), (u.hashtagAt, .hashtag)]

/-- The aliases, the longer ones first. -/
def sortedAliases (registry : AssetRegistry) : List String :=
  registry.aliases.keys.insertionSort fun a b => b.length ≤ a.length

/-- `matches`. -/
def matchesIn (registry : AssetRegistry) (text : List Char) : Matches :=
  (sortedAliases registry).foldl
    (fun found name => (spansOf (aliasAt u name) text).foldl (addBare text) found)
    (u.tagPatterns.foldl (addTags text) .empty)

end UnicodeData

/-! ## Resolution -/

/-- What is decided about a match. -/
structure Resolution where
  assetId : Option String
  status : String
  confidence : ℚ
  reason : String

/-- The decision about a match with these candidates. -/
def resolutionOf (candidates : List AliasCandidate) (kind : MatchKind) (hasMarketContext : Bool) :
    Resolution :=
  let ambiguous := 1 < candidates.length ∨ candidates.any AliasCandidate.isAmbiguous
  match candidates with
  | [] => ⟨none, "UNRESOLVED", 0, "ALIAS_NOT_IN_REGISTRY"⟩
  | candidate :: others =>
    if ambiguous ∧ kind ≠ .cashtag ∧ ¬ (hasMarketContext ∧ others = []) then
      ⟨none, "AMBIGUOUS", if kind = .bare then 4 / 10 else 6 / 10,
        "AMBIGUOUS_ALIAS_WITHOUT_MARKET_CONTEXT"⟩
    else if others ≠ [] then ⟨none, "AMBIGUOUS", 7 / 10, "MULTIPLE_EXACT_CANDIDATES"⟩
    else
      { assetId := some candidate.assetId
        status := "RESOLVED"
        confidence :=
          if hasMarketContext ∧ kind = .bare then 88 / 100
          else match kind with
            | .cashtag => 98 / 100
            | .hashtag => 82 / 100
            | .bare => 62 / 100
        reason :=
          if kind = .cashtag then "EXACT_CASHTAG"
          else if hasMarketContext then "MARKET_CONTEXT_ALIAS"
          else "UNIQUE_REGISTRY_ALIAS" }

/-- A confidence lies in `[0, 1]`. -/
theorem resolutionOf_confidence (candidates : List AliasCandidate) (kind : MatchKind)
    (hasMarketContext : Bool) :
    0 ≤ (resolutionOf candidates kind hasMarketContext).confidence ∧
      (resolutionOf candidates kind hasMarketContext).confidence ≤ 1 := by
  unfold resolutionOf
  cases candidates with
  | nil => exact ⟨le_rfl, zero_le_one⟩
  | cons candidate others =>
    simp only
    split_ifs <;> cases kind <;> norm_num

/-- `has_market_context`. -/
def marketContext (u : UnicodeData) (text : List Char) (span : Span) : Bool :=
  let context := (u.upperText (String.ofList (slice text (span.1 - 24, span.2 + 24)))).toList
  [" STOCK", " TOKEN", " COIN", " CRYPTO", " SHARES"].any fun token => token.toList <:+: context

/-- `AssetMention`, with the fields that the resolver writes. -/
structure ResolvedMention extends AssetMention where
  mentionText : String
  startOffset : ℕ
  endOffset : ℕ
  resolutionStatus : String
  candidateAssetIds : List String
  resolutionReason : String

/-- The span of a mention. -/
def ResolvedMention.span (mention : ResolvedMention) : Span :=
  (mention.startOffset, mention.endOffset)

/-- `AssetMentionResolver(registry, version=...)`. -/
structure AssetMentionResolver where
  registry : AssetRegistry
  version : String := "asset-resolver-v1"

namespace AssetMentionResolver

variable (resolver : AssetMentionResolver) (u : UnicodeData)

/-- The mention of a match in the text, of which `normalizedText` is the normal form. -/
def mentionOf (postId text : String) (normalizedText : List Char)
    (item : Span × (String × MatchKind)) : ResolvedMention :=
  let candidates := resolver.registry.candidates u item.2.1
  let resolution := resolutionOf candidates item.2.2 (marketContext u normalizedText item.1)
  { postId := postId
    assetId := resolution.assetId
    confidence := resolution.confidence
    resolverVersion := resolver.version
    confidence_mem := resolutionOf_confidence ..
    mentionText := String.ofList (slice text.toList item.1)
    startOffset := item.1.1
    endOffset := item.1.2
    resolutionStatus := resolution.status
    candidateAssetIds := candidates.map AliasCandidate.assetId
    resolutionReason := resolution.reason }

/-- `resolve(post_id, text)`. -/
def resolve (postId text : String) : List ResolvedMention :=
  let normalizedText := (u.normalize text).toList
  ((u.matchesIn resolver.registry normalizedText).entries.insertionSort
    fun a b => toLex a.1 ≤ toLex b.1).map (resolver.mentionOf u postId text normalizedText)

end AssetMentionResolver
end Ingestion
end Scam2Market
