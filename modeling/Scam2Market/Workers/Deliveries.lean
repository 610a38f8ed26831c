import Scam2Market.Library.Rendezvous
import Scam2Market.Workers.HandlerSteps

/-!
# The two events of a post

Two topics carry the events of posts, and two workers join them: each handler writes the join key of its
event and then reads both keys.

* `Topics`: every post has one normalized event and one mention event, as the ingestion publishes them.
* `joinView`: the handlers of deliveries are parties that post and then look (`Library.Rendezvous`).
* `post_of_read` and `mention_of_read`: what a handler reads are the events of its post.
-/

namespace Scam2Market
namespace Workers

open Features (FeatureSignal)
open Library.Rendezvous (Orderly Party Phase)
open Streaming (MentionEvent PostEvent)

/-- The two events of every post.  The id of a mention event is made from that of the raw event, so
different posts have different ones. -/
structure Topics where
  post : String → PostEvent
  mention : String → MentionEvent
  post_postId : ∀ postId, (post postId).payload.postId = postId
  mention_postId : ∀ postId, (mention postId).payload.postId = postId
  mention_injective : ∀ postId postId',
    (mention postId).eventId = (mention postId').eventId → postId = postId'

/-- An event that is delivered. -/
inductive Delivery where
  | post (postId : String)
  | mentions (postId : String)

def Topics.event (topics : Topics) : Delivery → WorkerEvent
  | .post postId => .post (topics.post postId)
  | .mentions postId => .mentions (topics.mention postId)

/-- The signals of a post. -/
def Topics.signals (topics : Topics) (postId : String) : List FeatureSignal :=
  Handler.pairSignals (topics.post postId) (topics.mention postId)

def Delivery.party (topics : Topics) : Delivery → Party String PostEvent MentionEvent
  | .post postId => .left postId (topics.post postId)
  | .mentions postId => .right postId (topics.mention postId)

/-- The post of a delivery is the one its handler is called for. -/
theorem postId?_event (topics : Topics) (delivery : Delivery) :
    (topics.event delivery).postId? = some (delivery.party topics).key := by
  cases delivery with
  | post postId => exact congrArg some (topics.post_postId postId)
  | mentions postId => exact congrArg some (topics.mention_postId postId)

/-- The join keys, and the handlers as parties. -/
def joinView {η : Type} (topics : Topics) (phase : η → Phase PostEvent MentionEvent)
    (posts : String → Option PostEvent) (mentions : String → Option MentionEvent)
    (handlers : List (Delivery × η)) : Library.Rendezvous.State String PostEvent MentionEvent :=
  .of posts mentions (fun entry => (entry.1.party topics, phase entry.2)) handlers

section Views

variable {η : Type} {topics : Topics} {phase : η → Phase PostEvent MentionEvent}
  {posts : String → Option PostEvent} {mentions : String → Option MentionEvent}
  {handlers : List (Delivery × η)} {index : ℕ} {delivery : Delivery} {handler : η}

theorem at_joinView (h : handlers[index]? = some (delivery, handler)) :
    (joinView topics phase posts mentions handlers).At index (delivery.party topics)
      (phase handler) :=
  Library.Rendezvous.at_of.mpr ⟨_, h, rfl⟩

theorem orderly_deliver (h : Orderly (joinView topics phase posts mentions handlers))
    (hentered : phase handler = .entered) :
    Orderly (joinView topics phase posts mentions (handlers ++ [(delivery, handler)])) := by
  have hview : joinView topics phase posts mentions (handlers ++ [(delivery, handler)]) =
      { joinView topics phase posts mentions handlers with
        parties := (joinView topics phase posts mentions handlers).parties ++
          [(delivery.party topics, .entered)] } := by
    unfold joinView Library.Rendezvous.State.of
    rw [List.map_append, List.map_singleton, hentered]
  rw [hview]
  exact h.entered (delivery.party topics)

/-- A post that was read is the normalized event of the post. -/
theorem post_of_read (h : Orderly (joinView topics phase posts mentions handlers))
    (hentry : handlers[index]? = some (delivery, handler)) {post : PostEvent}
    (hread : (phase handler).left? = some (some post)) :
    post = topics.post (delivery.party topics).key := by
  obtain ⟨j, stand, hj⟩ := h.sawLeft index _ _ post (at_joinView hentry) hread
  obtain ⟨⟨other, _⟩, -, heq⟩ := Library.Rendezvous.at_of.mp hj
  cases other with
  | post postId =>
    obtain ⟨hkey, hvalue⟩ := Party.left.inj (Prod.mk.inj heq).1
    rw [← hvalue, hkey]
  | mentions postId => cases (Prod.mk.inj heq).1

/-- Mentions that were read are the mention event of the post. -/
theorem mention_of_read (h : Orderly (joinView topics phase posts mentions handlers))
    (hentry : handlers[index]? = some (delivery, handler)) {mention : MentionEvent}
    (hread : (phase handler).right? = some (some mention)) :
    mention = topics.mention (delivery.party topics).key := by
  obtain ⟨j, stand, hj⟩ := h.sawRight index _ _ mention (at_joinView hentry) hread
  obtain ⟨⟨other, _⟩, -, heq⟩ := Library.Rendezvous.at_of.mp hj
  cases other with
  | post postId => cases (Prod.mk.inj heq).1
  | mentions postId =>
    obtain ⟨hkey, hvalue⟩ := Party.right.inj (Prod.mk.inj heq).1
    rw [← hvalue, hkey]

end Views

end Workers
end Scam2Market
