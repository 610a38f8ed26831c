import Scam2Market.Ingestion.SocialText

/-!
# The stored posts

`SqlSocialRepository.persist_pair` of `ingestion/repositories.py`, on the tables of posts and their
mentions of assets.

* A post is refused if its identifier is there, or another post of its scope and source with its
  identifier at the provider.
* The log of events is left out, since the events of distinct posts are distinct; so are the columns that
  nothing here reads.
-/

namespace Scam2Market
namespace Ingestion

open Streaming (AssetMention)

/-- A row of `social_posts`. -/
structure SocialPostModel where
  postId : String
  scopeId : String
  source : String
  sourcePostId : String
  platform : String
  pseudonymousAuthorId : String
  eventTime : Datetime
  text : String
  hashtagsJson : List String
  urlsJson : List String
  replyTo : Option String
  repostOf : Option String

/-- A row of `post_asset_mentions`. -/
structure PostAssetMentionModel where
  postId : String
  assetId : Option String
  deriving DecidableEq

structure SocialTables where
  posts : List SocialPostModel := []
  mentions : List PostAssetMentionModel := []

/-- `SocialPostModel(...)`. -/
def ParsedPost.row (post : ParsedPost) (scopeId : String) : SocialPostModel where
  postId := post.postId
  scopeId := scopeId
  source := post.source
  sourcePostId := post.sourcePostId
  platform := post.platform
  pseudonymousAuthorId := post.authorId
  eventTime := post.eventTime
  text := post.text
  hashtagsJson := post.hashtags
  urlsJson := post.urls
  replyTo := post.replyTo
  repostOf := post.repostOf

/-- `PostAssetMentionModel(...)`. -/
def mentionRow (mention : AssetMention) : PostAssetMentionModel where
  postId := mention.postId
  assetId := mention.assetId

/-- A unique key of `social_posts` is taken. -/
def SocialTables.Holds (t : SocialTables) (row : SocialPostModel) : Prop :=
  ∃ other ∈ t.posts, other.postId = row.postId ∨
    (other.scopeId = row.scopeId ∧ other.source = row.source ∧ other.sourcePostId = row.sourcePostId)

instance (t : SocialTables) (row : SocialPostModel) : Decidable (t.Holds row) :=
  inferInstanceAs (Decidable (∃ other ∈ t.posts, _))

/-- `persist_pair(normalized_event, mention_event)`. -/
def SocialTables.persistPair (t : SocialTables) (post : ParsedPost) (scopeId : String)
    (mentions : List AssetMention) : Bool × SocialTables :=
  if t.Holds (post.row scopeId) then (false, t)
  else (true,
    { posts := t.posts ++ [post.row scopeId]
      mentions := t.mentions ++ mentions.map mentionRow })

end Ingestion
end Scam2Market
