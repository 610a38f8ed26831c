import Scam2Market.Workers.SocialJoin

/-!
# The join of the telemetry worker

`_persist_social_pair` of `workers/telemetry_persistence_worker.py` and the branches of its loop that
call it.  The telemetry worker joins the same topics over join keys of its own, and hands the pair to a
repository; an event that has met no other is not committed.  The branches that write market events and
raw posts do not touch the join.

* `Persister.advance`: the next step of a handler.
* `PersistPool.Sound`: what holds after every step.
* `social_join_loses_no_pair`: the joins of both workers.
-/

namespace Scam2Market
namespace Workers

open Features (EngineConfig)
open Library
open Library.Rendezvous (Orderly Party Phase)
open Streaming (MentionEvent PostEvent)

/-- What the handlers read and write: `persistence:social:post:{post_id}`,
`persistence:social:mentions:{post_id}`, and the calls of `persist_pair`. -/
structure PairStores where
  posts : String → Option PostEvent
  mentions : String → Option MentionEvent
  persistPair : List (PostEvent × MentionEvent)

inductive PersistStage where
  | received
  | stored (postId : String)
  | readNormalized (postId : String)
  | readBoth (normalized : PostEvent) (mention : MentionEvent)
  | returned (durable : Bool)
  | raised

/-- The handling of an event, with what it has read. -/
structure Persister where
  event : WorkerEvent
  stage : PersistStage := .received
  normalizedData : Option PostEvent := none
  mentionData : Option MentionEvent := none

namespace Persister

def receive (persister : Persister) (stores : PairStores) : Persister × PairStores :=
  match persister.event with
  | .market _ => ({ persister with stage := .returned true }, stores)
  | .post event =>
    let postId := event.payload.postId
    ({ persister with stage := .stored postId },
      { stores with posts := Function.update stores.posts postId (some event) })
  | .mentions event =>
    let postId := event.payload.postId
    ({ persister with stage := .stored postId },
      { stores with mentions := Function.update stores.mentions postId (some event) })

/-- What is done once both keys are read. -/
def join (persister : Persister) (mentionData : Option MentionEvent) : Persister :=
  match persister.normalizedData, mentionData with
  | some normalized, some mention =>
    { persister with mentionData := mentionData, stage := .readBoth normalized mention }
  | _, _ => { persister with mentionData := mentionData, stage := .returned false }

/-- The next step of a handler; `fails` says whether `persist_pair` raises. -/
def advance (fails : Bool) (persister : Persister) (stores : PairStores) : Persister × PairStores :=
  match persister.stage with
  | .received => persister.receive stores
  | .stored postId =>
    ({ persister with normalizedData := stores.posts postId, stage := .readNormalized postId }, stores)
  | .readNormalized postId => (persister.join (stores.mentions postId), stores)
  | .readBoth normalized mention =>
    ({ persister with stage := if fails then .raised else .returned true },
      { stores with persistPair := stores.persistPair ++ [(normalized, mention)] })
  | .returned _ => (persister, stores)
  | .raised => (persister, stores)

/-- How far a handler has come with the join keys. -/
def phase (persister : Persister) : Phase PostEvent MentionEvent :=
  match persister.stage with
  | .received => .entered
  | .stored _ => .posted
  | .readNormalized _ => .looked persister.normalizedData
  | .readBoth _ _ => .met persister.normalizedData persister.mentionData
  | .returned _ => .met persister.normalizedData persister.mentionData
  | .raised => .met persister.normalizedData persister.mentionData

/-- What is known of a handler, given the calls of `persist_pair`. -/
def Legal (calls : List (PostEvent × MentionEvent)) (persister : Persister) : Prop :=
  match persister.stage with
  | .received => persister.normalizedData = none
  | .stored postId => persister.event.postId? = some postId
  | .readNormalized postId => persister.event.postId? = some postId
  | .readBoth normalized mention =>
    persister.normalizedData = some normalized ∧ persister.mentionData = some mention
  | .returned _ => ∀ normalized mention, persister.normalizedData = some normalized →
    persister.mentionData = some mention → (normalized, mention) ∈ calls
  | .raised => True

end Persister

structure PersistPool where
  stores : PairStores
  handlers : List (Delivery × Persister)

inductive PersistMove where
  | deliver (delivery : Delivery)
  | advance (index : ℕ) (fails : Bool)

namespace PersistPool

def initial : PersistPool :=
  ⟨⟨fun _ => none, fun _ => none, []⟩, []⟩

/-- A handler takes its next step. -/
def advance (pool : PersistPool) (index : ℕ) (fails : Bool) : PersistPool :=
  match pool.handlers[index]? with
  | some (delivery, persister) =>
    { stores := (persister.advance fails pool.stores).2
      handlers := pool.handlers.set index (delivery, (persister.advance fails pool.stores).1) }
  | none => pool

def step (topics : Topics) (pool : PersistPool) : PersistMove → PersistPool
  | .deliver delivery =>
    { pool with
      handlers := pool.handlers ++ [(delivery, { event := topics.event delivery })] }
  | .advance index fails => pool.advance index fails

/-- A run of the handlers. -/
def run (topics : Topics) (moves : List PersistMove) : PersistPool :=
  moves.foldl (step topics) initial

/-- A handler of an event has returned. -/
def Handled (pool : PersistPool) (delivery : Delivery) : Prop :=
  ∃ persister durable, (delivery, persister) ∈ pool.handlers ∧ persister.stage = .returned durable

/-- The join keys and the handlers. -/
def view (topics : Topics) (pool : PersistPool) :
    Rendezvous.State String PostEvent MentionEvent :=
  joinView topics Persister.phase pool.stores.posts pool.stores.mentions pool.handlers

end PersistPool

/-! ## What holds after every step -/

section Steps

variable {topics : Topics} {fails : Bool}

theorem persister_event_advance (persister : Persister) (stores : PairStores) :
    (persister.advance fails stores).1.event = persister.event := by
  obtain ⟨event, stage, normalizedData, mentionData⟩ := persister
  cases stage with
  | received => cases event <;> rfl
  | readNormalized postId =>
    show (Persister.join _ _).event = event
    unfold Persister.join
    split <;> rfl
  | _ => rfl

/-- The calls stay, and a handler that has met another has made one. -/
theorem legal_advance {persister : Persister} {stores : PairStores}
    (h : persister.Legal stores.persistPair) :
    (persister.advance fails stores).1.Legal (persister.advance fails stores).2.persistPair ∧
      stores.persistPair ⊆ (persister.advance fails stores).2.persistPair := by
  obtain ⟨event, stage, normalizedData, mentionData⟩ := persister
  cases stage with
  | received =>
    cases event with
    | market event =>
      refine ⟨fun normalized mention hnormalized => ?_, List.Subset.refl _⟩
      cases h.symm.trans hnormalized
    | post event => exact ⟨rfl, List.Subset.refl _⟩
    | mentions event => exact ⟨rfl, List.Subset.refl _⟩
  | stored postId => exact ⟨h, List.Subset.refl _⟩
  | readNormalized postId =>
    refine ⟨?_, List.Subset.refl _⟩
    show (Persister.join _ (stores.mentions postId)).Legal stores.persistPair
    cases normalizedData with
    | none => exact fun normalized mention hnormalized => by cases hnormalized
    | some normalized =>
      cases stores.mentions postId with
      | none => exact fun normalized mention _ hmention => by cases hmention
      | some mention => exact ⟨rfl, rfl⟩
  | readBoth normalized mention =>
    obtain ⟨rfl, rfl⟩ : normalizedData = some normalized ∧ mentionData = some mention := h
    refine ⟨?_, List.subset_append_left _ _⟩
    cases fails with
    | true => exact trivial
    | false =>
      intro normalized' mention' hnormalized hmention
      obtain rfl := Option.some.inj hnormalized
      obtain rfl := Option.some.inj hmention
      exact List.mem_append_right _ List.mem_cons_self
  | returned durable => exact ⟨h, List.Subset.refl _⟩
  | raised => exact ⟨trivial, List.Subset.refl _⟩

/-- More calls make no handler illegal. -/
theorem legal_mono {persister : Persister} {calls calls' : List (PostEvent × MentionEvent)}
    (h : persister.Legal calls) (hsub : calls ⊆ calls') : persister.Legal calls' := by
  obtain ⟨event, stage, normalizedData, mentionData⟩ := persister
  cases stage with
  | returned durable =>
    exact fun normalized mention hnormalized hmention => hsub (h normalized mention hnormalized hmention)
  | _ => exact h

/-- A handler acts as a party. -/
theorem persister_acts {delivery : Delivery} {persister : Persister} {stores : PairStores}
    (hlegal : persister.Legal stores.persistPair) (hevent : persister.event = topics.event delivery)
    (parties parties' : List (Party String PostEvent MentionEvent × Phase PostEvent MentionEvent)) :
    Rendezvous.State.Acts ⟨stores.posts, stores.mentions, parties⟩
      ⟨(persister.advance fails stores).2.posts, (persister.advance fails stores).2.mentions, parties'⟩
      (delivery.party topics) persister.phase (persister.advance fails stores).1.phase := by
  have hkey := postId?_event topics delivery
  rw [← hevent] at hkey
  obtain ⟨event, stage, normalizedData, mentionData⟩ := persister
  cases stage with
  | received =>
    obtain rfl : event = topics.event delivery := hevent
    refine Or.inl ?_
    cases delivery with
    | post postId =>
      refine ⟨rfl, rfl, ?_, rfl⟩
      show Function.update stores.posts (topics.post postId).payload.postId _ = _
      rw [topics.post_postId]
      rfl
    | mentions postId =>
      refine ⟨rfl, rfl, rfl, ?_⟩
      show Function.update stores.mentions (topics.mention postId).payload.postId _ = _
      rw [topics.mention_postId]
      rfl
  | stored postId =>
    obtain rfl := Option.some.inj (hlegal.symm.trans hkey)
    exact Or.inr ⟨rfl, rfl, Or.inr (Or.inl ⟨rfl, rfl⟩)⟩
  | readNormalized postId =>
    obtain rfl := Option.some.inj (hlegal.symm.trans hkey)
    refine Or.inr ⟨rfl, rfl, Or.inr (Or.inr ⟨normalizedData, rfl, ?_⟩)⟩
    show (Persister.join _ _).phase = _
    unfold Persister.join
    split <;> rfl
  | readBoth normalized mention =>
    refine Or.inr ⟨rfl, rfl, Or.inl ?_⟩
    cases fails <;> rfl
  | returned durable => exact Or.inr ⟨rfl, rfl, Or.inl rfl⟩
  | raised => exact Or.inr ⟨rfl, rfl, Or.inl rfl⟩

structure PersistPool.Sound (topics : Topics) (pool : PersistPool) : Prop where
  orderly : Orderly (pool.view topics)
  handlers : ∀ entry ∈ pool.handlers,
    entry.2.event = topics.event entry.1 ∧ entry.2.Legal pool.stores.persistPair

theorem PersistPool.sound_initial : initial.Sound topics where
  orderly := Rendezvous.orderly_initial
  handlers _ h := absurd h List.not_mem_nil

theorem PersistPool.Sound.step {pool : PersistPool} (h : pool.Sound topics) (move : PersistMove) :
    (pool.step topics move).Sound topics := by
  cases move with
  | deliver delivery =>
    refine ⟨orderly_deliver h.orderly rfl, fun entry hmem => ?_⟩
    rcases List.mem_append.mp hmem with hmem | hmem
    · exact h.handlers entry hmem
    · rw [List.mem_singleton.mp hmem]
      exact ⟨rfl, rfl⟩
  | advance index fails =>
    show (pool.advance index fails).Sound topics
    unfold PersistPool.advance
    rcases hentry : pool.handlers[index]? with _ | ⟨delivery, persister⟩
    · exact h
    · obtain ⟨hevent, hlegal⟩ := h.handlers _ (List.mem_of_getElem? hentry)
      obtain ⟨hnext, hcalls⟩ := legal_advance hlegal
      refine ⟨h.orderly.acted (at_joinView hentry) (persister_acts hlegal hevent _ _) List.map_set,
        fun entry hmem => ?_⟩
      rcases List.mem_or_eq_of_mem_set hmem with hold | rfl
      · exact ⟨(h.handlers entry hold).1, legal_mono (h.handlers entry hold).2 hcalls⟩
      · exact ⟨(persister_event_advance persister pool.stores).trans hevent, hnext⟩

theorem PersistPool.sound_run (topics : Topics) (moves : List PersistMove) :
    (run topics moves).Sound topics := by
  induction moves using List.reverseRecOn with
  | nil => exact sound_initial
  | append_singleton moves move ih =>
    unfold run at ih ⊢
    rw [List.foldl_append]
    exact ih.step move

/-- A handler that has returned with both events has called `persist_pair` for them. -/
theorem PersistPool.Sound.persisted_of_returned {pool : PersistPool} (h : pool.Sound topics)
    {index : ℕ} {delivery : Delivery} {persister : Persister} {durable : Bool}
    (hentry : pool.handlers[index]? = some (delivery, persister))
    (hstage : persister.stage = .returned durable) (hnormalized : persister.normalizedData ≠ none)
    (hmention : persister.mentionData ≠ none) :
    (topics.post (delivery.party topics).key, topics.mention (delivery.party topics).key) ∈
      pool.stores.persistPair := by
  obtain ⟨-, hlegal⟩ := h.handlers _ (List.mem_of_getElem? hentry)
  obtain ⟨event, stage, normalizedData, mentionData⟩ := persister
  obtain rfl : stage = .returned durable := hstage
  obtain ⟨normalized, rfl⟩ := Option.ne_none_iff_exists'.mp hnormalized
  obtain ⟨mention, rfl⟩ := Option.ne_none_iff_exists'.mp hmention
  rw [← post_of_read h.orderly hentry rfl, ← mention_of_read h.orderly hentry rfl]
  exact hlegal normalized mention rfl rfl

/-- **The pair of a post both of whose events have been handled was persisted.** -/
theorem PersistPool.Sound.pair_persisted {pool : PersistPool} (h : pool.Sound topics)
    {postId : String} (hpost : pool.Handled (.post postId))
    (hmention : pool.Handled (.mentions postId)) :
    (topics.post postId, topics.mention postId) ∈ pool.stores.persistPair := by
  obtain ⟨poster, _, hposter, hposted⟩ := hpost
  obtain ⟨mentioner, _, hmentioner, hmentioned⟩ := hmention
  obtain ⟨i, hi⟩ := List.mem_iff_getElem?.mp hposter
  obtain ⟨j, hj⟩ := List.mem_iff_getElem?.mp hmentioner
  have hphase : ∀ {persister : Persister} {durable}, persister.stage = .returned durable →
      persister.phase = .met persister.normalizedData persister.mentionData := by
    intro persister durable hstage
    unfold Persister.phase
    rw [hstage]
  have hleft : (pool.view topics).At i (.left postId (topics.post postId))
      (.met poster.normalizedData poster.mentionData) := by
    rw [← hphase hposted]
    exact at_joinView hi
  have hright : (pool.view topics).At j (.right postId (topics.mention postId))
      (.met mentioner.normalizedData mentioner.mentionData) := by
    rw [← hphase hmentioned]
    exact at_joinView hj
  rcases h.orderly.meets hleft hright with ⟨hnormalized, hmention⟩ | ⟨hnormalized, hmention⟩
  · exact h.persisted_of_returned hi hposted hnormalized hmention
  · exact h.persisted_of_returned hj hmentioned hnormalized hmention

end Steps

/-- **The joins lose no pair.**  Whatever the order in which the handlers of the two events of the posts
take their steps, and whichever events are delivered again: of a post both of whose events have been
handled, some handler of the feature worker has read both events and passed all signals of the pair to
the engine, each of which stands in the engine once; and the telemetry worker has called `persist_pair`
with the pair. -/
theorem social_join_loses_no_pair (cfg : EngineConfig) (topics : Topics) (postId : String) :
    (∀ moves : List PoolMove,
      (Pool.run cfg topics moves).Handled (.post postId) →
      (Pool.run cfg topics moves).Handled (.mentions postId) →
        (∃ entry ∈ (Pool.run cfg topics moves).handlers,
          entry.2.postData = some (topics.post postId) ∧
          entry.2.mentionData = some (topics.mention postId) ∧
          topics.signals postId <+: entry.2.passed) ∧
        ∀ signal ∈ topics.signals postId,
          (Pool.run cfg topics moves).stores.engine.signalLog.filter
            (fun other => other.seenKey = signal.seenKey) = [signal]) ∧
    ∀ moves : List PersistMove,
      (PersistPool.run topics moves).Handled (.post postId) →
      (PersistPool.run topics moves).Handled (.mentions postId) →
        (topics.post postId, topics.mention postId) ∈
          (PersistPool.run topics moves).stores.persistPair := by
  constructor
  · intro moves hpost hmention
    have hsound := Pool.sound_run cfg topics moves
    obtain ⟨entry, hentry, hpostData, hmentionData, hpassed⟩ := hsound.pair_passed hpost hmention
    refine ⟨⟨entry, hentry, hpostData, hmentionData, hpassed⟩, fun signal hsignal => ?_⟩
    exact hsound.logged_once hsignal (hsound.seen entry hentry signal (hpassed.subset hsignal))
  · intro moves hpost hmention
    exact (PersistPool.sound_run topics moves).pair_persisted hpost hmention

end Workers
end Scam2Market
