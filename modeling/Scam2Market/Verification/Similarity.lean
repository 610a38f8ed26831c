import Mathlib.Algebra.Order.Field.Basic
import Mathlib.Data.Finset.Card
import Mathlib.Tactic.Linarith
import Mathlib.Tactic.Positivity
import Scam2Market.Verification.Schemas

/-!
# How similar a disclosure is to a claim

The text functions of `verification/service.py`: `_similarity`, `_canonical_claim`,
`_structured_similarity`, `_is_negated` and `_conflict_reasons`.

* `tokens`: the matches of `[a-z0-9][a-z0-9_-]+` in the lower case of a text.
* `structuredSimilarity_mem`: a similarity is a fraction.
-/

namespace Scam2Market
namespace Verification

open Intelligence (InUnit)

/-! ## Tokens -/

/-- The lower case of a character.  Two characters outside ASCII become a letter that a token may have;
what becomes of the others is no part of a token. -/
def lowerChar (c : Char) : List Char :=
  if c.toNat = 0x130 then ['i', Char.ofNat 0x307]
  else if c.toNat = 0x212A then ['k']
  else [c.toLower]

/-- `[a-z0-9]`. -/
def isTokenStart (c : Char) : Bool :=
  ('a' ≤ c && c ≤ 'z') || ('0' ≤ c && c ≤ '9')

/-- `[a-z0-9_-]`. -/
def isTokenChar (c : Char) : Bool :=
  isTokenStart c || c = '_' || c = '-'

/-- `_TOKEN.findall(text.lower())`: in each run of characters of a token the match begins with the first
letter or digit and takes the rest of the run, if there is any. -/
def tokens (text : String) : List String :=
  ((((text.toList.flatMap lowerChar).splitOnP fun c => !isTokenChar c).map fun run =>
    run.dropWhile fun c => !isTokenStart c).filter fun run => 2 ≤ run.length).map String.ofList

/-- `_STOPWORDS`. -/
def stopwords : List String :=
  ["about", "after", "from", "have", "that", "this", "with", "will"]

/-- `_NEGATIONS`. -/
def negations : List String :=
  ["no", "not", "never", "denies", "denied", "false", "without"]

/-- `_is_negated(text)`. -/
def isNegated (text : String) : Bool :=
  (tokens text).any fun token => token ∈ negations

/-- `_similarity(left, right)`: the shared part of the words. -/
def similarity (left right : String) : ℚ :=
  let leftTokens := ((tokens left).filter fun token => token ∉ stopwords).toFinset
  let rightTokens := ((tokens right).filter fun token => token ∉ stopwords).toFinset
  if leftTokens = ∅ ∨ rightTokens = ∅ then 0
  else (leftTokens ∩ rightTokens).card / (leftTokens ∪ rightTokens).card

/-! ## Canonical claims -/

structure CanonicalClaim where
  subject : String
  claimType : String
  polarity : String
  amounts : List String
  contentTokens : List String

/-- The runs of digits that stand as words; the text is the tokens with blanks between them, so that it
has no decimal point. -/
def amountsOf (text : String) : List String :=
  (((tokens text).flatMap fun token => token.toList.splitOnP (· = '-')).filter fun word =>
    word ≠ [] ∧ word.all Char.isDigit).map String.ofList

/-- `_canonical_claim(asset_id, text)`. -/
def canonicalClaim (assetId text : String) : CanonicalClaim :=
  let words := tokens text
  { subject := assetId.toUpper
    claimType :=
      if "contract" ∈ words ∨ "award" ∈ words then "CONTRACT_AWARD"
      else if "promoter" ∈ words ∧ ("buy" ∈ words ∨ "bought" ∈ words ∨ "purchase" ∈ words) then
        "INSIDER_PURCHASE"
      else if (∃ word ∈ words, "earning".toList <:+: word.toList) ∨ "results" ∈ words then
        "EARNINGS_FORECAST"
      else if "listing" ∈ words then "EXCHANGE_LISTING"
      else if "partnership" ∈ words then "PARTNERSHIP"
      else "OTHER"
    polarity := if isNegated text then "NEGATIVE" else "POSITIVE"
    amounts := amountsOf text
    contentTokens :=
      (words.filter fun token => token ∉ stopwords ∧ token ∉ negations).insertionSort (· ≤ ·) }

/-- What a candidate says. -/
def DisclosureCandidate.evidenceText (candidate : DisclosureCandidate) : String :=
  s!"{candidate.title} {candidate.text}"

/-- `float(condition)`. -/
def indicator (condition : Prop) [Decidable condition] : ℚ :=
  if condition then 1 else 0

/-- `_structured_similarity(claim, candidate)`. -/
def structuredSimilarity (claim : Claim) (candidate : DisclosureCandidate) : ℚ :=
  let lexical := similarity claim.claimText candidate.evidenceText
  let evidenceClaim := canonicalClaim claim.assetId candidate.evidenceText
  let typeMatch := indicator (evidenceClaim.claimType = claim.claimType)
  let polarityMatch := indicator (some evidenceClaim.polarity = claim.canonicalPayload.polarity)
  let claimAmounts := claim.canonicalPayload.amounts
  let amountMatch := indicator (claimAmounts = [] ∨
    ∃ amount ∈ claimAmounts, amount ∈ evidenceClaim.amounts)
  0.60 * lexical + 0.20 * typeMatch + 0.10 * polarityMatch + 0.10 * amountMatch

/-- `_conflict_reasons(claim, candidate)`. -/
def conflictReasons (claim : Claim) (candidate : DisclosureCandidate) : List String :=
  let evidence := canonicalClaim claim.assetId candidate.evidenceText
  let claimPolarity := claim.canonicalPayload.polarity
  let claimAmounts := claim.canonicalPayload.amounts
  (if claimPolarity ≠ none ∧ some evidence.polarity ≠ claimPolarity then ["POLARITY_MISMATCH"]
    else []) ++
  (if claimAmounts ≠ [] ∧ evidence.amounts ≠ [] ∧ ∀ amount ∈ claimAmounts, amount ∉ evidence.amounts
    then ["AMOUNT_MISMATCH"] else [])

/-! ## Ranges -/

theorem similarity_mem (left right : String) : InUnit (similarity left right) := by
  unfold similarity
  dsimp only
  split_ifs with hempty
  · exact ⟨le_rfl, zero_le_one⟩
  · constructor
    · positivity
    · refine div_le_one_of_le₀ ?_ (Nat.cast_nonneg _)
      exact_mod_cast Finset.card_le_card (Finset.inter_subset_left.trans Finset.subset_union_left)

theorem indicator_mem (condition : Prop) [Decidable condition] : InUnit (indicator condition) := by
  unfold indicator
  split_ifs
  · exact ⟨zero_le_one, le_rfl⟩
  · exact ⟨le_rfl, zero_le_one⟩

/-- A similarity is a fraction. -/
theorem structuredSimilarity_mem (claim : Claim) (candidate : DisclosureCandidate) :
    InUnit (structuredSimilarity claim candidate) := by
  have hlexical := similarity_mem claim.claimText candidate.evidenceText
  have hweights : ∀ {a b c d : ℚ}, InUnit a → InUnit b → InUnit c → InUnit d →
      InUnit (0.60 * a + 0.20 * b + 0.10 * c + 0.10 * d) := by
    intro a b c d ha hb hc hd
    unfold InUnit at *
    constructor <;> linarith
  exact hweights hlexical (indicator_mem _) (indicator_mem _) (indicator_mem _)

end Verification
end Scam2Market
