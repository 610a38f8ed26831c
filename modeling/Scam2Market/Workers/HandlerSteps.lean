import Scam2Market.Features.EngineSteps
import Scam2Market.Workers.Handlers

/-!
# What a step of a handler does

* `perform_joins`, `perform_engine` and `perform_more`: an effect does not touch the join keys, changes
  the engine as `ingest` does or not at all, and what it adds to be done passes no signal.
* `Handler.Legal`: the handlers that come about.  What a handler has passed and what it still passes are
  the signals of its event, and then those about the health (`Base`).
* `Handler.Legal.advance`: they come about by steps only.
* `Handler.engine_advance`: what a step does to the engine.
-/

namespace Scam2Market
namespace Workers

open Features (EngineConfig FeatureSignal FeatureSnapshot)
open Library
open Library.Procedure
open Streaming (MarketEvent MentionEvent PostEvent)

variable {cfg : EngineConfig} {found : Surroundings}

/-! ## Effects -/

theorem signals_snapshotEffects (signal : FeatureSignal) (snapshots : List FeatureSnapshot) :
    (snapshots.flatMap (snapshotEffects signal)).filterMap Effect.signal? = [] := by
  induction snapshots with
  | nil => rfl
  | cons snapshot snapshots ih =>
    rw [List.flatMap_cons, List.filterMap_append, ih]
    rfl

theorem signals_ingest (signals : List FeatureSignal) :
    (signals.map Effect.ingest).filterMap Effect.signal? = signals := by
  rw [List.filterMap_map]
  exact List.filterMap_some

theorem perform_publish (signal : FeatureSignal) (snapshot : FeatureSnapshot) (stores : Stores) :
    perform cfg found (.publish signal snapshot) stores =
      match Services.featureEvent signal found.now snapshot with
      | .ok event => (.ok [],
          { stores with published := stores.published ++ [(Services.featureTopic signal, event)] })
      | .error error => (.error error, stores) := by
  show ((ofExcept (Services.featureEvent signal found.now snapshot) >>= _) : Procedure _ _ _) _ = _
  rw [bind_apply, ofExcept_apply]
  cases Services.featureEvent signal found.now snapshot <;> rfl

theorem perform_joins (effect : Effect) (stores : Stores) :
    (perform cfg found effect stores).2.posts = stores.posts ∧
      (perform cfg found effect stores).2.mentions = stores.mentions := by
  cases effect with
  | ingest signal =>
    unfold perform
    rw [bind_pure_snd]
    exact ⟨rfl, rfl⟩
  | persist snapshot =>
    unfold perform
    rw [bind_pure_snd]
    exact ⟨rfl, rfl⟩
  | setScoped snapshot => exact ⟨rfl, rfl⟩
  | setLatest snapshot => exact ⟨rfl, rfl⟩
  | publish signal snapshot =>
    rw [perform_publish]
    cases Services.featureEvent signal found.now snapshot with
    | error error => exact ⟨rfl, rfl⟩
    | ok event => exact ⟨rfl, rfl⟩

/-- Only a signal that is passed to the engine changes it. -/
theorem perform_engine (effect : Effect) (stores : Stores) :
    (perform cfg found effect stores).2.engine =
      match effect.signal? with
      | some signal => (Features.ingest cfg signal stores.engine).2
      | none => stores.engine := by
  cases effect with
  | ingest signal =>
    unfold perform
    rw [bind_pure_snd]
    rfl
  | persist snapshot =>
    unfold perform
    rw [bind_pure_snd]
    rfl
  | setScoped snapshot => rfl
  | setLatest snapshot => rfl
  | publish signal snapshot =>
    rw [perform_publish]
    cases Services.featureEvent signal found.now snapshot with
    | error error => rfl
    | ok event => rfl

/-- What an effect adds to be done passes no signal. -/
theorem perform_more {effect : Effect} {stores stores' : Stores} {more : List Effect}
    (h : perform cfg found effect stores = (.ok more, stores')) :
    more.filterMap Effect.signal? = [] := by
  cases effect with
  | ingest signal =>
    obtain ⟨snapshots, mid, -, hret⟩ := bind_eq_ok.mp h
    obtain rfl : snapshots.flatMap (snapshotEffects signal) = more :=
      Except.ok.inj (congrArg Prod.fst hret)
    exact signals_snapshotEffects signal snapshots
  | persist snapshot =>
    obtain ⟨persisted, mid, -, hret⟩ := bind_eq_ok.mp h
    obtain rfl : [] = more := Except.ok.inj (congrArg Prod.fst hret)
    rfl
  | setScoped snapshot =>
    obtain rfl : [] = more := Except.ok.inj (congrArg Prod.fst h)
    rfl
  | setLatest snapshot =>
    obtain rfl : [] = more := Except.ok.inj (congrArg Prod.fst h)
    rfl
  | publish signal snapshot =>
    obtain ⟨event, mid, -, hret⟩ := bind_eq_ok.mp h
    obtain rfl : [] = more := Except.ok.inj (congrArg Prod.fst hret)
    rfl

/-! ## Legal handlers -/

/-- The post an event is about. -/
def WorkerEvent.postId? : WorkerEvent → Option String
  | market _ => none
  | post event => some event.payload.postId
  | mentions event => some event.payload.postId

/-- The signals of an event, and the health that is read after them. -/
inductive Base : WorkerEvent → Option PostEvent → Option MentionEvent → List FeatureSignal →
    HealthQuery → Prop
  | market {event : MarketEvent} {datum : Streaming.MarketDatum}
    (h : Streaming.normalizeMarketEvent event = .ok datum) :
    Base (.market event) none none [Features.marketSignal event datum] (.market event)
  | pair {event : WorkerEvent} {postId : String} {post : PostEvent} {mention : MentionEvent}
    (h : event.postId? = some postId) :
    Base event (some post) (some mention) (Handler.pairSignals post mention)
      (.social mention post.payload.platform (Handler.pairSignals post mention))

namespace Handler

/-- The handlers that come about. -/
inductive Legal : Handler → Prop
  | received (event : WorkerEvent) : Legal { event }
  | refused (event : MarketEvent) (error : PyError) :
    Legal { event := .market event, stage := .raised error }
  | stored {event : WorkerEvent} {postId : String} (h : event.postId? = some postId) :
    Legal { event, stage := .stored postId }
  | readPost {event : WorkerEvent} {postId : String} (h : event.postId? = some postId)
    (postData : Option PostEvent) : Legal { event, stage := .readPost postId, postData }
  | alone {event : WorkerEvent} {postId : String} (h : event.postId? = some postId)
    {postData : Option PostEvent} {mentionData : Option MentionEvent}
    (hmissing : postData = none ∨ mentionData = none) :
    Legal { event, stage := .returned, postData, mentionData }
  | passing {event : WorkerEvent} {postData : Option PostEvent} {mentionData : Option MentionEvent}
    {base passed : List FeatureSignal} {effects : List Effect} {query : HealthQuery}
    (hbase : Base event postData mentionData base query)
    (h : passed ++ effects.filterMap Effect.signal? = base) :
    Legal { event, stage := .working effects (some query), postData, mentionData, passed }
  | reporting {event : WorkerEvent} {postData : Option PostEvent} {mentionData : Option MentionEvent}
    {base passed : List FeatureSignal} {effects : List Effect} {query : HealthQuery}
    (health : JsonObject) (hbase : Base event postData mentionData base query)
    (h : passed ++ effects.filterMap Effect.signal? = base ++ query.signals health) :
    Legal { event, stage := .working effects none, postData, mentionData, passed }
  | returned {event : WorkerEvent} {postData : Option PostEvent} {mentionData : Option MentionEvent}
    {base passed : List FeatureSignal} {query : HealthQuery}
    (hbase : Base event postData mentionData base query)
    (h : passed = base ∨ ∃ health, passed = base ++ query.signals health) :
    Legal { event, stage := .returned, postData, mentionData, passed }
  | raised {event : WorkerEvent} {postData : Option PostEvent} {mentionData : Option MentionEvent}
    {base passed : List FeatureSignal} {query : HealthQuery}
    (hbase : Base event postData mentionData base query) (error : PyError)
    (h : passed <+: base ∨ ∃ health, passed <+: base ++ query.signals health) :
    Legal { event, stage := .raised error, postData, mentionData, passed }

theorem work_stores (handler : Handler) (effect : Effect) (effects : List Effect)
    (query : Option HealthQuery) (stores : Stores) :
    (handler.work cfg found effect effects query stores).2 = (perform cfg found effect stores).2 := by
  unfold work
  rcases perform cfg found effect stores with ⟨error | more, stores'⟩ <;> rfl

/-- What an effect makes of a handler. -/
theorem work_cases {P : Handler → Prop} (handler : Handler) (effect : Effect) (effects : List Effect)
    (query : Option HealthQuery) (stores : Stores)
    (herror : ∀ error, P { handler with stage := .raised error })
    (hok : ∀ more : List Effect, more.filterMap Effect.signal? = [] →
      P { handler with
          stage := .working (more ++ effects) query
          passed := handler.passed ++ effect.signal?.toList }) :
    P (handler.work cfg found effect effects query stores).1 := by
  unfold work
  rcases h : perform cfg found effect stores with ⟨error | more, stores'⟩
  · exact herror error
  · exact hok more (perform_more h)

/-- An effect is had: its signal goes from what is still passed to what is passed. -/
theorem passed_append {passed signals : List FeatureSignal} {effect : Effect}
    {effects more : List Effect} (hmore : more.filterMap Effect.signal? = [])
    (h : passed ++ (effect :: effects).filterMap Effect.signal? = signals) :
    (passed ++ effect.signal?.toList) ++ (more ++ effects).filterMap Effect.signal? = signals := by
  rw [List.filterMap_append, hmore, List.nil_append, List.append_assoc, ← h]
  congr 1
  rw [List.filterMap_cons]
  cases effect.signal? with
  | none => rfl
  | some signal => rfl

/-- **Handlers come about by steps.** -/
theorem Legal.advance {handler : Handler} (h : handler.Legal) (stores : Stores) :
    (handler.advance cfg found stores).1.Legal := by
  cases h with
  | received event =>
    cases event with
    | market event =>
      unfold Handler.advance receive
      simp only
      cases hdatum : Streaming.normalizeMarketEvent event with
      | error error => exact .refused event error
      | ok datum => exact .passing (.market hdatum) rfl
    | post event => exact .stored rfl
    | mentions event => exact .stored rfl
  | refused event error => exact .refused event error
  | stored hpost => exact .readPost hpost _
  | @readPost event postId hpost postData =>
    show (Handler.join _ (stores.mentions postId)).Legal
    cases postData with
    | none => exact .alone hpost (Or.inl rfl)
    | some post =>
      cases stores.mentions postId with
      | none => exact .alone hpost (Or.inr rfl)
      | some mention => exact .passing (.pair hpost) (by rw [List.nil_append, signals_ingest])
  | alone hpost hmissing => exact .alone hpost hmissing
  | @passing event postData mentionData base passed effects query hbase hpassed =>
    cases effects with
    | nil =>
      have hbase' : passed = base := by rw [← hpassed]; exact (List.append_nil _).symm
      show (Handler.ask found _ query).Legal
      unfold ask
      split
      case h_1 health _ =>
        exact .reporting health hbase (by rw [signals_ingest, hbase'])
      case h_2 => exact .returned hbase (Or.inl hbase')
    | cons effect effects =>
      exact work_cases _ effect effects (some query) stores
        (fun error => .raised hbase error (Or.inl ⟨_, hpassed⟩))
        fun more hmore => .passing hbase (passed_append hmore hpassed)
  | @reporting event postData mentionData base passed effects query health hbase hpassed =>
    cases effects with
    | nil =>
      have hall : passed = base ++ query.signals health := by
        rw [← hpassed]
        exact (List.append_nil _).symm
      exact .returned hbase (Or.inr ⟨health, hall⟩)
    | cons effect effects =>
      exact work_cases _ effect effects none stores
        (fun error => .raised hbase error (Or.inr ⟨health, _, hpassed⟩))
        fun more hmore => .reporting health hbase (passed_append hmore hpassed)
  | returned hbase hpassed => exact .returned hbase hpassed
  | raised hbase error hpassed => exact .raised hbase error hpassed

theorem event_advance (handler : Handler) (stores : Stores) :
    (handler.advance cfg found stores).1.event = handler.event := by
  unfold Handler.advance
  split
  case h_1 =>
    unfold receive
    split
    · split <;> rfl
    · rfl
    · rfl
  case h_2 => rfl
  case h_3 =>
    unfold join
    split <;> rfl
  case h_4 effect effects query _ =>
    exact work_cases (P := fun next => next.event = handler.event) handler effect effects query stores
      (fun _ => rfl) fun _ _ => rfl
  case h_5 =>
    unfold ask
    split <;> rfl
  case h_6 => rfl
  case h_7 => rfl
  case h_8 => rfl

/-! ## What a step does to the engine -/

/-- The next step passes a signal to the engine. -/
def Passes (handler : Handler) (signal : FeatureSignal) : Prop :=
  ∃ effects query, handler.stage = .working (.ingest signal :: effects) query

/-- **A step lets the engine ingest one signal, or leaves it alone.** -/
theorem engine_advance (handler : Handler) (stores : Stores) :
    ((handler.advance cfg found stores).2.engine = stores.engine ∧
        (handler.advance cfg found stores).1.passed = handler.passed) ∨
      ∃ signal, handler.Passes signal ∧
        (handler.advance cfg found stores).2.engine = (Features.ingest cfg signal stores.engine).2 ∧
        ((handler.advance cfg found stores).1.passed = handler.passed ∨
          (handler.advance cfg found stores).1.passed = handler.passed ++ [signal]) := by
  unfold Handler.advance
  split
  case h_1 =>
    refine Or.inl ?_
    unfold receive
    cases handler.event with
    | market event =>
      simp only
      cases Streaming.normalizeMarketEvent event <;> exact ⟨rfl, rfl⟩
    | post event => exact ⟨rfl, rfl⟩
    | mentions event => exact ⟨rfl, rfl⟩
  case h_2 => exact Or.inl ⟨rfl, rfl⟩
  case h_3 postId _ =>
    refine Or.inl ⟨rfl, ?_⟩
    unfold join
    split <;> rfl
  case h_4 effect effects query hstage =>
    have hengine : (perform cfg found effect stores).2.engine = match effect.signal? with
        | some signal => (Features.ingest cfg signal stores.engine).2
        | none => stores.engine := perform_engine effect stores
    rw [work_stores]
    cases heffect : effect.signal? with
    | none =>
      rw [heffect] at hengine
      refine Or.inl ⟨hengine, work_cases (P := fun next => next.passed = handler.passed) handler effect
        effects query stores (fun _ => rfl) fun _ _ => ?_⟩
      rw [heffect]
      exact List.append_nil _
    | some signal =>
      rw [heffect] at hengine
      have hingest : effect = .ingest signal := by
        cases effect with
        | ingest other => rw [Option.some.inj heffect]
        | _ => cases heffect
      refine Or.inr ⟨signal, ⟨effects, query, by rw [hstage, hingest]⟩, hengine,
        work_cases (P := fun next => next.passed = handler.passed ∨
          next.passed = handler.passed ++ [signal]) handler effect effects query stores
          (fun _ => Or.inl rfl) fun _ _ => Or.inr ?_⟩
      rw [heffect]
      rfl
  case h_5 =>
    refine Or.inl ⟨rfl, ?_⟩
    unfold ask
    split <;> rfl
  case h_6 => exact Or.inl ⟨rfl, rfl⟩
  case h_7 => exact Or.inl ⟨rfl, rfl⟩
  case h_8 => exact Or.inl ⟨rfl, rfl⟩

/-- A signal that is passed is one of the event, or one about the health of its source. -/
theorem Legal.base_of_passes {handler : Handler} (h : handler.Legal) {signal : FeatureSignal}
    (hpasses : handler.Passes signal) :
    ∃ base query, Base handler.event handler.postData handler.mentionData base query ∧
      (signal ∈ base ∨ ∃ health, signal ∈ query.signals health) := by
  obtain ⟨effects, query, hstage⟩ := hpasses
  cases h with
  | @passing event postData mentionData base passed effects' query' hbase hpassed =>
    obtain ⟨rfl, -⟩ := Stage.working.inj hstage
    refine ⟨base, query', hbase, Or.inl ?_⟩
    rw [← hpassed]
    exact List.mem_append_right _ List.mem_cons_self
  | @reporting event postData mentionData base passed effects' query' health hbase hpassed =>
    obtain ⟨rfl, -⟩ := Stage.working.inj hstage
    have hmem : signal ∈ base ++ query'.signals health := by
      rw [← hpassed]
      exact List.mem_append_right _ List.mem_cons_self
    exact ⟨base, query', hbase, (List.mem_append.mp hmem).imp_right fun h => ⟨health, h⟩⟩
  | received event => cases hstage
  | refused event error => cases hstage
  | stored hpost => cases hstage
  | readPost hpost postData => cases hstage
  | alone hpost hmissing => cases hstage
  | returned hbase hpassed => cases hstage
  | raised hbase error hpassed => cases hstage

end Handler

end Workers
end Scam2Market
