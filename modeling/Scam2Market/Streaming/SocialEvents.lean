import Scam2Market.Python.Values

/-!
# Social events

`SocialPost` and `AssetMention` of `schemas/domain.py`, and the two events that the ingestion publishes
for a post: the normalized post, and the mentions of assets in it.

An event id is the text of a UUID, which has no colon (`UuidText`).
-/

namespace Scam2Market
namespace Streaming

/-- `str(uuid)`. -/
structure UuidText where
  text : String
  plain : ':' ∉ text.toList

theorem UuidText.ext {a b : UuidText} (h : a.text = b.text) : a = b := by
  cases a
  cases b
  congr

structure SocialPost where
  postId : String
  platform : String
  authorId : String
  eventTime : Datetime
  hashtags : List String := []
  cashtags : List String := []
  urls : List String := []
  replyTo : Option String := none
  repostOf : Option String := none

structure AssetMention where
  postId : String
  assetId : Option String
  confidence : ℚ
  resolverVersion : String
  confidence_mem : 0 ≤ confidence ∧ confidence ≤ 1

/-- `{"post_id": ..., "mentions": [...]}`. -/
structure MentionPayload where
  postId : String
  mentions : List AssetMention

/-- An event about a post. -/
structure SocialEvent (π : Type) where
  eventId : UuidText
  source : String
  eventTime : Datetime
  ingestedAt : Datetime
  replaySessionId : Option String := none
  payload : π

/-- `social.post.normalized`. -/
abbrev PostEvent := SocialEvent SocialPost

/-- `social.asset_mention.detected`. -/
abbrev MentionEvent := SocialEvent MentionPayload

/-- `session or "LIVE"`. -/
def sessionScope : Option String → String
  | some session => if session = "" then "LIVE" else session
  | none => "LIVE"

/-- `event.replay.replay_session_id or "LIVE"`. -/
def SocialEvent.scopeId {π : Type} (event : SocialEvent π) : String :=
  sessionScope event.replaySessionId

end Streaming
end Scam2Market
