import Scam2Market.Workers.Deliveries

/-!
# Handlers side by side

Any number of handlers of the feature worker are at work for the events of posts; each takes its next
step at any time, and an event may be delivered again and again.  A handler that stops for good is one
that takes no further step.

* `acts_advance`: a handler acts as a party that posts and then looks.
* `Pool.Sound`: what holds after every step; the engine has one signal for each id, and only signals of
  posts of the topics.
* `Pool.Sound.pair_passed`: of two handlers that have returned for the two events of a post, one has
  passed all signals of the pair.
-/

namespace Scam2Market
namespace Workers

open Features (EngineConfig FeatureSignal)
open Library
open Library.Rendezvous (Orderly Party Phase)
open Streaming (MentionEvent PostEvent UuidText)

/-- A signal of a post of the topics, or one about the health of its source. -/
def Topics.Known (topics : Topics) (signal : FeatureSignal) : Prop :=
  ∃ postId, signal ∈ topics.signals postId ∨
    ∃ health, signal ∈ Features.socialQualitySignals (topics.mention postId) (topics.signals postId)
      health

/-- The stores, and the handlers with the events they were called for. -/
structure Pool where
  stores : Stores
  handlers : List (Delivery × Handler)

inductive PoolMove where
  | deliver (delivery : Delivery)
  | advance (index : ℕ) (found : Surroundings)

namespace Pool

def initial : Pool :=
  ⟨.initial, []⟩

/-- A handler takes its next step. -/
def advance (cfg : EngineConfig) (pool : Pool) (index : ℕ) (found : Surroundings) : Pool :=
  match pool.handlers[index]? with
  | some (delivery, handler) =>
    { stores := (handler.advance cfg found pool.stores).2
      handlers := pool.handlers.set index
        (delivery, (handler.advance cfg found pool.stores).1) }
  | none => pool

def step (cfg : EngineConfig) (topics : Topics) (pool : Pool) : PoolMove → Pool
  | .deliver delivery =>
    { pool with
      handlers := pool.handlers ++ [(delivery, { event := topics.event delivery })] }
  | .advance index found => pool.advance cfg index found

/-- A run of the handlers. -/
def run (cfg : EngineConfig) (topics : Topics) (moves : List PoolMove) : Pool :=
  moves.foldl (step cfg topics) initial

/-- A handler of an event has returned. -/
def Handled (pool : Pool) (delivery : Delivery) : Prop :=
  ∃ handler, (delivery, handler) ∈ pool.handlers ∧ handler.stage = .returned

end Pool

/-! ## Handlers as parties -/

/-- How far a handler has come with the join keys. -/
def Handler.phase (handler : Handler) : Phase PostEvent MentionEvent :=
  match handler.stage with
  | .received => .entered
  | .stored _ => .posted
  | .readPost _ => .looked handler.postData
  | .working _ _ => .met handler.postData handler.mentionData
  | .returned => .met handler.postData handler.mentionData
  | .raised _ => .met handler.postData handler.mentionData

/-- The join keys and the handlers. -/
def Pool.view (topics : Topics) (pool : Pool) : Rendezvous.State String PostEvent MentionEvent :=
  joinView topics Handler.phase pool.stores.posts pool.stores.mentions pool.handlers

section Views

variable {cfg : EngineConfig} {topics : Topics} {found : Surroundings}

theorem phase_of_returned {handler : Handler} (h : handler.stage = .returned) :
    handler.phase = .met handler.postData handler.mentionData := by
  unfold Handler.phase
  rw [h]

theorem phase_join (handler : Handler) (mentionData : Option MentionEvent) :
    (handler.join mentionData).phase = .met handler.postData mentionData := by
  unfold Handler.join
  split <;> rfl

/-- At work, a handler does not touch the join keys. -/
theorem phase_work {handler : Handler} (effect : Effect) (effects : List Effect)
    (query : Option HealthQuery) (stores : Stores) :
    (handler.work cfg found effect effects query stores).1.phase =
        .met handler.postData handler.mentionData ∧
      (handler.work cfg found effect effects query stores).2.posts = stores.posts ∧
      (handler.work cfg found effect effects query stores).2.mentions = stores.mentions := by
  rw [Handler.work_stores]
  refine ⟨Handler.work_cases (P := fun next => next.phase = .met handler.postData handler.mentionData)
    handler effect effects query stores (fun _ => rfl) fun _ _ => rfl, perform_joins effect stores⟩

/-- **A handler acts as a party.** -/
theorem acts_advance {delivery : Delivery} {handler : Handler} (hlegal : handler.Legal)
    (hevent : handler.event = topics.event delivery) (stores : Stores)
    (parties parties' : List (Party String PostEvent MentionEvent × Phase PostEvent MentionEvent)) :
    Rendezvous.State.Acts ⟨stores.posts, stores.mentions, parties⟩
      ⟨(handler.advance cfg found stores).2.posts, (handler.advance cfg found stores).2.mentions,
        parties'⟩
      (delivery.party topics) handler.phase (handler.advance cfg found stores).1.phase := by
  have hkey := postId?_event topics delivery
  rw [← hevent] at hkey
  cases hlegal with
  | received event =>
    obtain rfl : event = topics.event delivery := hevent
    refine Or.inl ?_
    cases delivery with
    | post postId =>
      refine ⟨rfl, rfl, ?_, rfl⟩
      show Function.update stores.posts (topics.post postId).payload.postId _ = _
      rw [topics.post_postId]
      rfl
    | mentions postId =>
      refine ⟨rfl, rfl, rfl, ?_⟩
      show Function.update stores.mentions (topics.mention postId).payload.postId _ = _
      rw [topics.mention_postId]
      rfl
  | refused event error => cases hkey
  | stored hpost =>
    obtain rfl := Option.some.inj (hpost.symm.trans hkey)
    exact Or.inr ⟨rfl, rfl, Or.inr (Or.inl ⟨rfl, rfl⟩)⟩
  | @readPost event postId hpost postData =>
    obtain rfl := Option.some.inj (hpost.symm.trans hkey)
    exact Or.inr ⟨rfl, rfl, Or.inr (Or.inr ⟨postData, rfl, phase_join _ _⟩)⟩
  | alone hpost hmissing => exact Or.inr ⟨rfl, rfl, Or.inl rfl⟩
  | @passing event postData mentionData base passed effects query hbase hpassed =>
    refine Or.inr ?_
    cases effects with
    | nil =>
      refine ⟨rfl, rfl, Or.inl ?_⟩
      show (Handler.ask found _ query).phase = _
      unfold Handler.ask
      split <;> rfl
    | cons effect effects =>
      obtain ⟨hphase, hposts, hmentions⟩ := phase_work effect effects (some query) stores
      exact ⟨hposts, hmentions, Or.inl hphase⟩
  | @reporting event postData mentionData base passed effects query health hbase hpassed =>
    refine Or.inr ?_
    cases effects with
    | nil => exact ⟨rfl, rfl, Or.inl rfl⟩
    | cons effect effects =>
      obtain ⟨hphase, hposts, hmentions⟩ := phase_work effect effects none stores
      exact ⟨hposts, hmentions, Or.inl hphase⟩
  | returned hbase hpassed => exact Or.inr ⟨rfl, rfl, Or.inl rfl⟩
  | raised hbase error hpassed => exact Or.inr ⟨rfl, rfl, Or.inl rfl⟩

namespace Pool

/-- Every handler is one that comes about, for its event. -/
def Handlers (topics : Topics) (pool : Pool) : Prop :=
  ∀ entry ∈ pool.handlers, entry.2.event = topics.event entry.1 ∧ entry.2.Legal

/-- **The handlers meet as the parties do.** -/
theorem orderly_step {pool : Pool} (h : pool.Handlers topics) (horderly : Orderly (pool.view topics))
    (move : PoolMove) : Orderly ((pool.step cfg topics move).view topics) := by
  cases move with
  | deliver delivery => exact orderly_deliver horderly rfl
  | advance index found =>
    show Orderly ((pool.advance cfg index found).view topics)
    unfold Pool.advance
    rcases hentry : pool.handlers[index]? with _ | ⟨delivery, handler⟩
    · exact horderly
    · obtain ⟨hevent, hlegal⟩ := h _ (List.mem_of_getElem? hentry)
      exact horderly.acted (at_joinView hentry) (acts_advance hlegal hevent pool.stores _ _)
        List.map_set

/-! ## What holds after every step -/

structure Sound (topics : Topics) (pool : Pool) : Prop where
  orderly : Orderly (pool.view topics)
  handlers : pool.Handlers topics
  keyed : Features.Keyed pool.stores.engine
  known : ∀ signal ∈ pool.stores.engine.signalLog, topics.Known signal
  seen : ∀ entry ∈ pool.handlers, ∀ signal ∈ entry.2.passed,
    signal.seenKey ∈ pool.stores.engine.seenEventIds

theorem sound_initial : Sound topics initial where
  orderly := Rendezvous.orderly_initial
  handlers _ h := absurd h List.not_mem_nil
  keyed := Features.keyed_initial
  known _ h := absurd h List.not_mem_nil
  seen _ h := absurd h List.not_mem_nil

/-- The signals of a handler are those of its post. -/
theorem Sound.base_eq {pool : Pool} (h : pool.Sound topics) {delivery : Delivery} {handler : Handler}
    (hmem : (delivery, handler) ∈ pool.handlers)
    (hphase : handler.phase = .met handler.postData handler.mentionData)
    {base : List FeatureSignal} {query : HealthQuery}
    (hbase : Base handler.event handler.postData handler.mentionData base query) :
    handler.postData = some (topics.post (delivery.party topics).key) ∧
      handler.mentionData = some (topics.mention (delivery.party topics).key) ∧
      base = topics.signals (delivery.party topics).key ∧
      ∃ platform, query = .social (topics.mention (delivery.party topics).key) platform
        (topics.signals (delivery.party topics).key) := by
  obtain ⟨index, hentry⟩ := List.mem_iff_getElem?.mp hmem
  have hkey := postId?_event topics delivery
  rw [← (h.handlers _ hmem).1] at hkey
  obtain ⟨event, stage, postData, mentionData, passed⟩ := handler
  cases hbase with
  | market hdatum => cases hkey
  | @pair event postId post mention hpostId =>
    obtain rfl := post_of_read h.orderly hentry (by rw [hphase]; rfl)
    obtain rfl := mention_of_read h.orderly hentry (by rw [hphase]; rfl)
    exact ⟨rfl, rfl, rfl, _, rfl⟩

/-- A signal that is passed is a known one. -/
theorem Sound.known_of_passes {pool : Pool} (h : pool.Sound topics) {delivery : Delivery}
    {handler : Handler} (hmem : (delivery, handler) ∈ pool.handlers) {signal : FeatureSignal}
    (hpasses : handler.Passes signal) : topics.Known signal := by
  obtain ⟨base, query, hbase, hsignal⟩ := (h.handlers _ hmem).2.base_of_passes hpasses
  have hphase : handler.phase = .met handler.postData handler.mentionData := by
    obtain ⟨effects, query, hstage⟩ := hpasses
    unfold Handler.phase
    rw [hstage]
  obtain ⟨-, -, rfl, platform, rfl⟩ := h.base_eq hmem hphase hbase
  exact ⟨_, hsignal⟩

theorem Sound.step {pool : Pool} (h : pool.Sound topics) (move : PoolMove) :
    (pool.step cfg topics move).Sound topics := by
  have horderly : Orderly ((pool.step cfg topics move).view topics) :=
    orderly_step h.handlers h.orderly move
  cases move with
  | deliver delivery =>
    refine ⟨horderly, fun entry hmem => ?_, h.keyed, h.known, fun entry hmem => ?_⟩
    · rcases List.mem_append.mp hmem with hmem | hmem
      · exact h.handlers entry hmem
      · rw [List.mem_singleton.mp hmem]
        exact ⟨rfl, .received _⟩
    · rcases List.mem_append.mp hmem with hmem | hmem
      · exact h.seen entry hmem
      · rw [List.mem_singleton.mp hmem]
        exact fun signal hsignal => absurd hsignal List.not_mem_nil
  | advance index found =>
    replace horderly : Orderly ((pool.advance cfg index found).view topics) := horderly
    show (pool.advance cfg index found).Sound topics
    unfold Pool.advance at horderly ⊢
    rcases hentry : pool.handlers[index]? with _ | ⟨delivery, handler⟩
    · exact h
    · rw [hentry] at horderly
      have hmem := List.mem_of_getElem? hentry
      obtain ⟨hevent, hlegal⟩ := h.handlers _ hmem
      -- the engine is as it was, or has ingested a known signal
      have hengine : Features.Keyed (handler.advance cfg found pool.stores).2.engine ∧
          (∀ signal ∈ (handler.advance cfg found pool.stores).2.engine.signalLog,
            topics.Known signal) ∧
          pool.stores.engine.seenEventIds ⊆
            (handler.advance cfg found pool.stores).2.engine.seenEventIds ∧
          ∀ signal ∈ (handler.advance cfg found pool.stores).1.passed,
            signal.seenKey ∈ (handler.advance cfg found pool.stores).2.engine.seenEventIds := by
        rcases handler.engine_advance pool.stores with
          ⟨hsame, hpassed⟩ | ⟨signal, hpasses, hingest, hpassed⟩
        · rw [hsame, hpassed]
          exact ⟨h.keyed, h.known, Finset.Subset.refl _, h.seen _ hmem⟩
        · have hseen : (Features.ingest cfg signal pool.stores.engine).2.seenEventIds =
              insert signal.seenKey pool.stores.engine.seenEventIds :=
            Features.seenEventIds_ingest signal pool.stores.engine
          rw [hingest, hseen]
          refine ⟨h.keyed.ingest signal, fun other hother => ?_, Finset.subset_insert _ _,
            fun other hother => ?_⟩
          · rw [Features.signalLog_ingest] at hother
            split_ifs at hother
            · exact h.known other hother
            · rcases List.mem_append.mp hother with hother | hother
              · exact h.known other hother
              · rw [List.mem_singleton.mp hother]
                exact h.known_of_passes hmem hpasses
          · rw [Finset.mem_insert]
            rcases hpassed with hpassed | hpassed
            · rw [hpassed] at hother
              exact Or.inr (h.seen _ hmem other hother)
            · rw [hpassed] at hother
              rcases List.mem_append.mp hother with hother | hother
              · exact Or.inr (h.seen _ hmem other hother)
              · exact Or.inl (by rw [List.mem_singleton.mp hother])
      obtain ⟨hkeyed, hknown, hsubset, hpassed⟩ := hengine
      refine ⟨horderly, fun entry hentry' => ?_, hkeyed, hknown, fun entry hentry' => ?_⟩
      · rcases List.mem_or_eq_of_mem_set hentry' with hold | rfl
        · exact h.handlers entry hold
        · exact ⟨hevent ▸ Handler.event_advance handler pool.stores, hlegal.advance pool.stores⟩
      · rcases List.mem_or_eq_of_mem_set hentry' with hold | rfl
        · exact fun signal hsignal => hsubset (h.seen entry hold signal hsignal)
        · exact hpassed

theorem sound_run (cfg : EngineConfig) (topics : Topics) (moves : List PoolMove) :
    (run cfg topics moves).Sound topics := by
  induction moves using List.reverseRecOn with
  | nil => exact sound_initial
  | append_singleton moves move ih =>
    unfold run at ih ⊢
    rw [List.foldl_append]
    exact ih.step move

/-- A handler that has returned with both events has passed the signals of the pair. -/
theorem Sound.passed_of_returned {pool : Pool} (h : pool.Sound topics) {delivery : Delivery}
    {handler : Handler} (hmem : (delivery, handler) ∈ pool.handlers)
    (hstage : handler.stage = .returned) (hpost : handler.postData ≠ none)
    (hmention : handler.mentionData ≠ none) :
    handler.postData = some (topics.post (delivery.party topics).key) ∧
      handler.mentionData = some (topics.mention (delivery.party topics).key) ∧
      topics.signals (delivery.party topics).key <+: handler.passed := by
  have hphase := phase_of_returned hstage
  obtain ⟨-, hlegal⟩ := h.handlers _ hmem
  cases hlegal with
  | alone hpostId hmissing => exact (hmissing.elim hpost hmention).elim
  | returned hbase hpassed =>
    obtain ⟨hpostData, hmentionData, rfl, -⟩ := h.base_eq hmem hphase hbase
    refine ⟨hpostData, hmentionData, ?_⟩
    rcases hpassed with rfl | ⟨health, rfl⟩
    · exact List.prefix_rfl
    · exact List.prefix_append _ _
  | received event => cases hstage
  | refused event error => cases hstage
  | stored hpostId => cases hstage
  | readPost hpostId postData => cases hstage
  | passing hbase hpassed => cases hstage
  | reporting health hbase hpassed => cases hstage
  | raised hbase error hpassed => cases hstage

/-- **Some handler has seen both events of a post** and has passed all their signals. -/
theorem Sound.pair_passed {pool : Pool} (h : pool.Sound topics) {postId : String}
    (hpost : pool.Handled (.post postId)) (hmention : pool.Handled (.mentions postId)) :
    ∃ entry ∈ pool.handlers, entry.2.postData = some (topics.post postId) ∧
      entry.2.mentionData = some (topics.mention postId) ∧ topics.signals postId <+: entry.2.passed := by
  obtain ⟨poster, hposter, hposted⟩ := hpost
  obtain ⟨mentioner, hmentioner, hmentioned⟩ := hmention
  obtain ⟨i, hi⟩ := List.mem_iff_getElem?.mp hposter
  obtain ⟨j, hj⟩ := List.mem_iff_getElem?.mp hmentioner
  have hleft : (pool.view topics).At i (.left postId (topics.post postId))
      (.met poster.postData poster.mentionData) := by
    rw [← phase_of_returned hposted]
    exact at_joinView hi
  have hright : (pool.view topics).At j (.right postId (topics.mention postId))
      (.met mentioner.postData mentioner.mentionData) := by
    rw [← phase_of_returned hmentioned]
    exact at_joinView hj
  rcases h.orderly.meets hleft hright with ⟨hpost, hmention⟩ | ⟨hpost, hmention⟩
  · exact ⟨_, hposter, h.passed_of_returned hposter hposted hpost hmention⟩
  · exact ⟨_, hmentioner, h.passed_of_returned hmentioner hmentioned hpost hmention⟩

/-- A known signal with the id of a signal of a post is that signal. -/
theorem eq_of_known {postId : String} {signal other : FeatureSignal}
    (hsignal : signal ∈ topics.signals postId) (hknown : topics.Known other)
    (hkey : other.seenKey = signal.seenKey) : other = signal := by
  have hid : other.eventId = signal.eventId := (Prod.mk.inj hkey).2
  obtain ⟨postId', hother | ⟨health, hother⟩⟩ := hknown
  · obtain rfl := topics.mention_injective postId' postId
      (Features.eventId_eq_of_mem_socialSignals hother hsignal hid)
    exact List.inj_on_of_nodup_map (Features.nodup_socialSignals _ _ _) hother hsignal hid
  · exact absurd hid.symm (Features.eventId_ne_of_mem_qualitySignals hsignal hother)

/-- **A signal of a post that was passed stands in the engine once.** -/
theorem Sound.logged_once {pool : Pool} (h : pool.Sound topics) {postId : String}
    {signal : FeatureSignal} (hsignal : signal ∈ topics.signals postId)
    (hseen : signal.seenKey ∈ pool.stores.engine.seenEventIds) :
    pool.stores.engine.signalLog.filter (fun other => other.seenKey = signal.seenKey) = [signal] := by
  obtain ⟨other, hother, hkey⟩ := List.mem_map.mp ((h.keyed.seen _).mp hseen)
  obtain rfl := eq_of_known hsignal (h.known other hother) hkey
  exact h.keyed.filter_eq hother

end Pool

end Views

end Workers
end Scam2Market
