import Scam2Market.Library.Runs
import Scam2Market.Python.Values
import Mathlib.Logic.Function.Basic
import Mathlib.Tactic.Linarith

/-!
# Deduplicated deliveries

An `ingest` as the calls it waits for, and its deliveries one after another over `RedisStateStore` of
`state.py`.

* `Program`: a call with what is done when it returns and, inside the `try`, when it raises.
* `Deliveries.step`: a call of the store takes effect (`apply`) some time between the call and its return;
  a call may raise before or after that, and the task may be cancelled, or the process stop, at any
  call.
* `AtLeastOnce`: behind every delivery that returned stands a publish that returned, less than the time to
  live before the store decided the claim of the delivery, or later.
* `Careful`: no delivery is left while it holds the key and has published nothing.
* `ClaimsFirst`: the shape that both services share, and `atLeastOnce_of_careful` about it.
-/

namespace Scam2Market
namespace Ingestion

open Library

/-! ## Programs -/

/-- `claim` and `release` stand outside of any `try`: what they raise leaves the program. -/
inductive Program (μ : Type) where
  | done (result : Except PyError Bool)
  | claim (key : String) (next : Bool → Program μ)
  | publish (messages : List μ) (next : Program μ) (onRaise : PyError → Program μ)
  | setJson (key : String) (next : Program μ) (onRaise : PyError → Program μ)
  | release (key : String) (next : Program μ)

/-- `except Exception: await release(key); raise`. -/
def Program.releaseAndRaise {μ : Type} (key : String) (error : PyError) : Program μ :=
  .release key (.done (.error error))

/-- `ttl_seconds: int = 86_400`. -/
def timeToLive : Timedelta :=
  timedeltaSeconds 86400

/-- A delivery that waits for a call: what the store has answered, when it decided the claim, whether the
delivery holds the key, and whether a publish has returned. -/
structure Delivery (μ : Type) where
  program : Program μ
  reply : Option Bool := none
  decidedAt : Option Datetime := none
  holds : Bool := false
  handed : Bool := false

/-- A delivery that ended, in time. -/
structure Outcome where
  decidedAt : Option Datetime
  endedAt : Datetime
  result : Except PyError Bool

/-- The clock, when the keys of the store expire, the delivery that runs, the publishes that returned, and
the deliveries that ended. -/
structure Deliveries (μ : Type) where
  clock : Datetime := 0
  expires : String → Option Datetime := fun _ => none
  delivery : Option (Delivery μ) := none
  published : List (Datetime × List μ) := []
  outcomes : List Outcome := []

inductive IngestionMove (ο : Type) where
  | wait (delay : Timedelta) (nonneg : 0 ≤ delay)
  | deliver (observation : ο)
  | apply
  | answer
  | raise (error : PyError)
  | stop

namespace Deliveries

variable {μ ο : Type}

/-- The delivery goes on to the next call, or ends. -/
def enter (s : Deliveries μ) (delivery : Delivery μ) (program : Program μ) : Deliveries μ :=
  match program with
  | .done result =>
    { s with
      delivery := none
      outcomes := s.outcomes ++ [⟨delivery.decidedAt, s.clock, result⟩] }
  | program => { s with delivery := some { delivery with program, reply := none } }

/-- The store carries out the call that is waited for: `SET key 1 EX ttl NX`, or `DEL key`. -/
def apply (s : Deliveries μ) : Deliveries μ :=
  match s.delivery with
  | some { program := .claim key next, reply := none, handed, .. } =>
    let isFree := !(s.expires key).any fun expiry => s.clock < expiry
    { s with
      expires := if isFree then Function.update s.expires key (some (s.clock + timeToLive))
        else s.expires
      delivery := some {
        program := .claim key next, reply := some isFree, decidedAt := some s.clock
        holds := isFree, handed } }
  | some { program := .release key next, reply := none, decidedAt, handed, .. } =>
    { s with
      expires := Function.update s.expires key none
      delivery := some {
        program := .release key next, reply := some true, decidedAt, holds := false, handed } }
  | _ => s

/-- The call that is waited for returns. -/
def answer (s : Deliveries μ) : Deliveries μ :=
  match s.delivery with
  | some delivery =>
    match delivery.program, delivery.reply with
    | .claim _ next, some isClaimed => s.enter delivery (next isClaimed)
    | .publish messages next _, _ =>
      { s with published := s.published ++ [(s.clock, messages)] }.enter
        { delivery with handed := true } next
    | .setJson _ next _, _ => s.enter delivery next
    | .release _ next, some _ => s.enter delivery next
    | _, _ => s
  | none => s

/-- The call that is waited for raises. -/
def raise (s : Deliveries μ) (error : PyError) : Deliveries μ :=
  match s.delivery with
  | some delivery =>
    match delivery.program with
    | .publish _ _ onRaise => s.enter delivery (onRaise error)
    | .setJson _ _ onRaise => s.enter delivery (onRaise error)
    | _ => s.enter delivery (.done (.error error))
  | none => s

/-- `ingest` is what a delivery does, with what it observes at the time it begins. -/
def step (ingest : ο → Datetime → Program μ) (s : Deliveries μ) : IngestionMove ο → Deliveries μ
  | .wait delay _ => { s with clock := s.clock + delay }
  | .deliver observation =>
    match s.delivery with
    | none => s.enter { program := .done (.ok false) } (ingest observation s.clock)
    | some _ => s
  | .apply => s.apply
  | .answer => s.answer
  | .raise error => s.raise error
  | .stop => { s with delivery := none }

/-- A publish that returned, less than the time to live before an instant, or later. -/
def Covers (batch : List μ → Prop) (publish : Datetime × List μ) (instant : Datetime) : Prop :=
  batch publish.2 ∧ instant < publish.1 + timeToLive

/-- Behind every delivery that returned, `True` or `False`, stands a publish of the event's messages: it
returned before the delivery ended, and less than the time to live before the store decided the claim of
the delivery, or later. -/
def AtLeastOnce (batch : List μ → Prop) (s : Deliveries μ) : Prop :=
  ∀ outcome ∈ s.outcomes, ∀ isNew, outcome.result = .ok isNew →
    ∃ publish ∈ s.published, publish.1 ≤ outcome.endedAt ∧
      ∃ decidedAt, outcome.decidedAt = some decidedAt ∧ Covers batch publish decidedAt

/-- The delivery holds the key and has published nothing. -/
def Exposed (s : Deliveries μ) : Prop :=
  ∃ delivery, s.delivery = some delivery ∧ delivery.holds = true ∧ delivery.handed = false

/-- What the call raises leaves the program. -/
def Leaves (s : Deliveries μ) : Prop :=
  ∃ delivery, s.delivery = some delivery ∧
    match delivery.program with
    | .claim _ _ => True
    | .release _ _ => True
    | _ => False

/-- The condition on a step: no delivery is stopped, and no claim or release raises, while the delivery
holds the key and has published nothing. -/
def Careful (s : Deliveries μ) : IngestionMove ο → Prop
  | .stop => ¬ s.Exposed
  | .raise _ => s.Leaves → ¬ s.Exposed
  | _ => True

end Deliveries

/-! ## The shape of an ingest -/

section Shape

variable {μ : Type} (key : String) (batch : List μ → Prop)

/-- After the publish: writes to the online state, each of which may fail. -/
inductive Handed : Program μ → Prop where
  | done : Handed (.done (.ok true))
  | raised (error : PyError) : Handed (.releaseAndRaise key error)
  | setJson (name : String) {next : Program μ} (hnext : Handed next) :
    Handed (.setJson name next (.releaseAndRaise key))

/-- Once the key is claimed: the publish. -/
inductive Publishes : Program μ → Prop where
  | raised (error : PyError) : Publishes (.releaseAndRaise key error)
  | publish {messages : List μ} (hbatch : batch messages) {next : Program μ}
    (hnext : Handed key next) : Publishes (.publish messages next (.releaseAndRaise key))

/-- An event is refused, or its key is claimed first. -/
inductive ClaimsFirst : Program μ → Prop where
  | refused (error : PyError) : ClaimsFirst (.done (.error error))
  | claim {next : Bool → Program μ} (hfalse : next false = .done (.ok false))
    (htrue : Publishes key batch (next true)) : ClaimsFirst (.claim key next)

end Shape

/-! ## What a delivery finds -/

namespace Deliveries

variable {μ ο : Type} {key : String} {batch : List μ → Prop} {s s' : Deliveries μ}

/-- Where a delivery stands: before the claim, refused, in possession of the key before and after its
publish, or after the release. -/
inductive Running (key : String) (batch : List μ → Prop) (s : Deliveries μ) : Delivery μ → Prop where
  | claiming {next : Bool → Program μ} (hfalse : next false = .done (.ok false))
    (htrue : Publishes key batch (next true)) : Running key batch s ⟨.claim key next, none, none, false, false⟩
  | refused {next : Bool → Program μ} (hfalse : next false = .done (.ok false)) {decidedAt : Datetime}
    (hcovered : ∃ publish ∈ s.published, Covers batch publish decidedAt) :
    Running key batch s ⟨.claim key next, some false, some decidedAt, false, false⟩
  | claimed {next : Bool → Program μ} (htrue : Publishes key batch (next true)) {decidedAt : Datetime}
    (htime : decidedAt ≤ s.clock) (hexpires : s.expires key = some (decidedAt + timeToLive)) :
    Running key batch s ⟨.claim key next, some true, some decidedAt, true, false⟩
  | publishing {program : Program μ} (hprogram : Publishes key batch program) {decidedAt : Datetime}
    (htime : decidedAt ≤ s.clock) (hexpires : s.expires key = some (decidedAt + timeToLive)) :
    Running key batch s ⟨program, none, some decidedAt, true, false⟩
  | handed {program : Program μ} (hprogram : Handed key program) {decidedAt : Datetime}
    (hpublished : ∃ publish ∈ s.published, batch publish.2 ∧ decidedAt ≤ publish.1)
    (hexpires : s.expires key = some (decidedAt + timeToLive)) :
    Running key batch s ⟨program, none, some decidedAt, true, true⟩
  | released (error : PyError) (decidedAt : Option Datetime) (handed : Bool)
    (hexpires : s.expires key = none) :
    Running key batch s ⟨.releaseAndRaise key error, some true, decidedAt, false, handed⟩

/-- While the key is there, a publish stands behind it. -/
def Settled (key : String) (batch : List μ → Prop) (s : Deliveries μ) : Prop :=
  ∀ expiry, s.expires key = some expiry →
    ∃ publish ∈ s.published, batch publish.2 ∧ expiry ≤ publish.1 + timeToLive

structure Sound (key : String) (batch : List μ → Prop) (s : Deliveries μ) : Prop where
  published_le : ∀ publish ∈ s.published, publish.1 ≤ s.clock
  atLeastOnce : AtLeastOnce batch s
  settled : ¬ s.Exposed → Settled key batch s
  running : ∀ delivery, s.delivery = some delivery → Running key batch s delivery

theorem sound_initial : Sound key batch ({} : Deliveries μ) where
  published_le _ h := (List.not_mem_nil h).elim
  atLeastOnce _ h := (List.not_mem_nil h).elim
  settled _ _ h := by cases h
  running _ h := by cases h

theorem timeToLive_pos : 0 < timeToLive := by
  decide

/-- A delivery ends. -/
theorem Sound.finish (h : Sound key batch s) (hsettled : Settled key batch s)
    (delivery : Delivery μ) {result : Except PyError Bool}
    (hresult : ∀ isNew, result = .ok isNew → ∃ decidedAt, delivery.decidedAt = some decidedAt ∧
      ∃ publish ∈ s.published, Covers batch publish decidedAt) :
    Sound key batch (s.enter delivery (.done result)) where
  published_le := h.published_le
  atLeastOnce outcome houtcome isNew hok := by
    rcases List.mem_append.mp houtcome with hold | hnew
    · exact h.atLeastOnce outcome hold isNew hok
    · rw [List.mem_singleton.mp hnew] at hok ⊢
      obtain ⟨decidedAt, hdecided, publish, hpublish, hcovers⟩ := hresult isNew hok
      exact ⟨publish, hpublish, h.published_le publish hpublish, decidedAt, hdecided, hcovers⟩
  settled _ := hsettled
  running _ hdelivery := by cases hdelivery

/-- An error leaves a delivery. -/
theorem Sound.fail (h : Sound key batch s) (hsettled : Settled key batch s)
    (delivery : Delivery μ) (error : PyError) :
    Sound key batch (s.enter delivery (.done (.error error))) :=
  h.finish hsettled delivery fun _ hok => by cases hok

/-- A delivery waits for its next call. -/
theorem Sound.wait (h : Sound key batch s) {delivery : Delivery μ}
    (hrunning : Running key batch s delivery)
    (hsettled : ¬ (delivery.holds = true ∧ delivery.handed = false) → Settled key batch s) :
    Sound key batch { s with delivery := some delivery } where
  published_le := h.published_le
  atLeastOnce := h.atLeastOnce
  settled hexposed := hsettled fun hholds => hexposed ⟨delivery, rfl, hholds⟩
  running delivery' hdelivery' := by
    obtain rfl := Option.some.inj hdelivery'
    cases hrunning with
    | claiming hfalse htrue => exact .claiming hfalse htrue
    | refused hfalse hcovered => exact .refused hfalse hcovered
    | claimed htrue htime hexpires => exact .claimed htrue htime hexpires
    | publishing hprogram htime hexpires => exact .publishing hprogram htime hexpires
    | handed hprogram hpublished hexpires => exact .handed hprogram hpublished hexpires
    | released error decidedAt handed hexpires => exact .released error decidedAt handed hexpires

/-- Unless it holds the key and has published nothing, a publish stands behind the key. -/
theorem Sound.settled_of (h : Sound key batch s) {delivery : Delivery μ}
    (hdelivery : s.delivery = some delivery)
    (hfree : ¬ (delivery.holds = true ∧ delivery.handed = false)) : Settled key batch s := by
  refine h.settled fun hexposed => ?_
  obtain ⟨delivery', hdelivery', hholds⟩ := hexposed
  obtain rfl := Option.some.inj (hdelivery.symm.trans hdelivery')
  exact hfree hholds

/-- A publish stands behind the key that was claimed before it. -/
theorem settled_of_expires {decidedAt : Datetime}
    (hexpires : s.expires key = some (decidedAt + timeToLive))
    (hpublished : ∃ publish ∈ s.published, batch publish.2 ∧ decidedAt ≤ publish.1) :
    Settled key batch s := by
  intro expiry hexpiry
  obtain rfl := Option.some.inj (hexpires.symm.trans hexpiry)
  obtain ⟨publish, hpublish, hbatch, htime⟩ := hpublished
  exact ⟨publish, hpublish, hbatch, by linarith⟩

/-! ## Steps -/

theorem Sound.tick (h : Sound key batch s) {delay : Timedelta} (hdelay : 0 ≤ delay) :
    Sound key batch { s with clock := s.clock + delay } where
  published_le publish hpublish := by
    have hle := h.published_le publish hpublish
    show publish.1 ≤ s.clock + delay
    linarith
  atLeastOnce := h.atLeastOnce
  settled := h.settled
  running delivery hdelivery := by
    have hclock : ∀ {t : Datetime}, t ≤ s.clock → t ≤ s.clock + delay := fun ht => by linarith
    cases h.running delivery hdelivery with
    | claiming hfalse htrue => exact .claiming hfalse htrue
    | refused hfalse hcovered => exact .refused hfalse hcovered
    | claimed htrue htime hexpires => exact .claimed htrue (hclock htime) hexpires
    | publishing hprogram htime hexpires => exact .publishing hprogram (hclock htime) hexpires
    | handed hprogram hpublished hexpires => exact .handed hprogram hpublished hexpires
    | released error decidedAt handed hexpires => exact .released error decidedAt handed hexpires

/-- The key is released. -/
theorem Sound.release (h : Sound key batch s) (error : PyError) (decidedAt : Option Datetime)
    (handed : Bool) :
    Sound key batch { s with
      expires := Function.update s.expires key none
      delivery := some ⟨.releaseAndRaise key error, some true, decidedAt, false, handed⟩ } where
  published_le := h.published_le
  atLeastOnce := h.atLeastOnce
  settled _ expiry hexpiry := by
    have hnone : Function.update s.expires key none key = none := Function.update_self ..
    cases hnone.symm.trans hexpiry
  running delivery hdelivery := by
    obtain rfl := Option.some.inj hdelivery
    exact .released error decidedAt handed (Function.update_self ..)

/-- The store decides a claim. -/
theorem Sound.decide (h : Sound key batch s) {next : Bool → Program μ}
    (hdelivery : s.delivery = some ⟨.claim key next, none, none, false, false⟩)
    (hfalse : next false = .done (.ok false)) (htrue : Publishes key batch (next true)) :
    Sound key batch s.apply := by
  have hsettled : Settled key batch s := h.settled_of hdelivery (by simp)
  simp only [Deliveries.apply, hdelivery]
  by_cases htaken : (s.expires key).any (fun expiry => s.clock < expiry) = true
  · -- the key is there: a publish stands behind it
    rw [htaken]
    obtain ⟨expiry, hexpiry, hlt⟩ : ∃ expiry, s.expires key = some expiry ∧ s.clock < expiry := by
      simpa [Option.any_eq_true] using htaken
    obtain ⟨publish, hpublish, hbatch, hle⟩ := hsettled expiry hexpiry
    have hcovered : ∃ publish ∈ s.published, Covers batch publish s.clock :=
      ⟨publish, hpublish, hbatch, by linarith⟩
    exact h.wait (.refused hfalse hcovered) fun _ => hsettled
  · rw [Bool.not_eq_true] at htaken
    rw [htaken]
    have hexpires : Function.update s.expires key (some (s.clock + timeToLive)) key =
        some (s.clock + timeToLive) := Function.update_self ..
    refine ⟨h.published_le, h.atLeastOnce, fun hexposed => absurd ⟨_, rfl, rfl, rfl⟩ hexposed,
      fun delivery hdelivery' => ?_⟩
    obtain rfl := Option.some.inj hdelivery'
    exact .claimed htrue (le_refl s.clock) hexpires

theorem Sound.apply (h : Sound key batch s) : Sound key batch s.apply := by
  rcases hdelivery : s.delivery with _ | delivery
  · simpa only [Deliveries.apply, hdelivery] using h
  cases h.running delivery hdelivery with
  | claiming hfalse htrue => exact h.decide hdelivery hfalse htrue
  | refused hfalse hcovered => simpa only [Deliveries.apply, hdelivery] using h
  | claimed htrue htime hexpires => simpa only [Deliveries.apply, hdelivery] using h
  | publishing hprogram htime hexpires =>
    cases hprogram with
    | raised error =>
      simp only [Deliveries.apply, hdelivery, Program.releaseAndRaise]
      exact h.release error _ false
    | publish hbatch hnext => simpa only [Deliveries.apply, hdelivery] using h
  | handed hprogram hpublished hexpires =>
    cases hprogram with
    | done => simpa only [Deliveries.apply, hdelivery] using h
    | raised error =>
      simp only [Deliveries.apply, hdelivery, Program.releaseAndRaise]
      exact h.release error _ true
    | setJson name hnext => simpa only [Deliveries.apply, hdelivery] using h
  | released error decidedAt handed hexpires =>
    simpa only [Deliveries.apply, hdelivery, Program.releaseAndRaise] using h

/-- The key is claimed: the delivery goes on to its publish. -/
theorem Sound.enter_publishes (h : Sound key batch s) {program : Program μ}
    (hprogram : Publishes key batch program) {decidedAt : Datetime} (htime : decidedAt ≤ s.clock)
    (hexpires : s.expires key = some (decidedAt + timeToLive)) {before : Program μ}
    {reply : Option Bool} :
    Sound key batch (s.enter ⟨before, reply, some decidedAt, true, false⟩ program) := by
  have hwait : Sound key batch
      { s with delivery := some ⟨program, none, some decidedAt, true, false⟩ } :=
    h.wait (.publishing hprogram htime hexpires) fun hfree => absurd ⟨rfl, rfl⟩ hfree
  cases hprogram with
  | raised error => exact hwait
  | publish hbatch hnext => exact hwait

/-- The publish has returned: the delivery goes on, or returns. -/
theorem Sound.enter_handed (h : Sound key batch s) {program : Program μ}
    (hprogram : Handed key program) {decidedAt : Datetime}
    (hpublished : ∃ publish ∈ s.published, batch publish.2 ∧ decidedAt ≤ publish.1)
    (hexpires : s.expires key = some (decidedAt + timeToLive)) {before : Program μ}
    {reply : Option Bool} :
    Sound key batch (s.enter ⟨before, reply, some decidedAt, true, true⟩ program) := by
  have hsettled : Settled key batch s := settled_of_expires hexpires hpublished
  have hwait : Sound key batch
      { s with delivery := some ⟨program, none, some decidedAt, true, true⟩ } :=
    h.wait (.handed hprogram hpublished hexpires) fun _ => hsettled
  cases hprogram with
  | done =>
    refine h.finish hsettled _ fun _ _ => ⟨decidedAt, rfl, ?_⟩
    obtain ⟨publish, hpublish, hbatch, htime⟩ := hpublished
    have hpos := timeToLive_pos
    exact ⟨publish, hpublish, hbatch, by linarith⟩
  | raised error => exact hwait
  | setJson name hnext => exact hwait

/-- A publish returns. -/
theorem Sound.publish (h : Sound key batch s) (messages : List μ) :
    Sound key batch { s with published := s.published ++ [(s.clock, messages)] } where
  published_le publish hpublish := by
    rcases List.mem_append.mp hpublish with hold | hnew
    · exact h.published_le publish hold
    · rw [List.mem_singleton.mp hnew]
  atLeastOnce outcome houtcome isNew hok := by
    obtain ⟨publish, hpublish, hrest⟩ := h.atLeastOnce outcome houtcome isNew hok
    exact ⟨publish, List.mem_append_left _ hpublish, hrest⟩
  settled hexposed expiry hexpiry := by
    obtain ⟨publish, hpublish, hrest⟩ := h.settled hexposed expiry hexpiry
    exact ⟨publish, List.mem_append_left _ hpublish, hrest⟩
  running delivery hdelivery := by
    have hmore : ∀ {P : Datetime × List μ → Prop}, (∃ publish ∈ s.published, P publish) →
        ∃ publish ∈ s.published ++ [(s.clock, messages)], P publish :=
      fun ⟨publish, hpublish, hrest⟩ => ⟨publish, List.mem_append_left _ hpublish, hrest⟩
    cases h.running delivery hdelivery with
    | claiming hfalse htrue => exact .claiming hfalse htrue
    | refused hfalse hcovered => exact .refused hfalse (hmore hcovered)
    | claimed htrue htime hexpires => exact .claimed htrue htime hexpires
    | publishing hprogram htime hexpires => exact .publishing hprogram htime hexpires
    | handed hprogram hpublished hexpires => exact .handed hprogram (hmore hpublished) hexpires
    | released error decidedAt handed hexpires => exact .released error decidedAt handed hexpires

theorem Sound.answer (h : Sound key batch s) : Sound key batch s.answer := by
  rcases hdelivery : s.delivery with _ | delivery
  · simpa only [Deliveries.answer, hdelivery] using h
  cases h.running delivery hdelivery with
  | claiming hfalse htrue => simpa only [Deliveries.answer, hdelivery] using h
  | refused hfalse hcovered =>
    simp only [Deliveries.answer, hdelivery, hfalse]
    exact h.finish (h.settled_of hdelivery (by simp)) _ fun _ _ => ⟨_, rfl, hcovered⟩
  | claimed htrue htime hexpires =>
    simp only [Deliveries.answer, hdelivery]
    exact h.enter_publishes htrue htime hexpires
  | publishing hprogram htime hexpires =>
    cases hprogram with
    | raised error => simpa only [Deliveries.answer, hdelivery, Program.releaseAndRaise] using h
    | publish hbatch hnext =>
      simp only [Deliveries.answer, hdelivery]
      exact (h.publish _).enter_handed hnext
        ⟨_, List.mem_append_right _ (List.mem_singleton_self _), hbatch, htime⟩ hexpires
  | handed hprogram hpublished hexpires =>
    cases hprogram with
    | done => simpa only [Deliveries.answer, hdelivery] using h
    | raised error => simpa only [Deliveries.answer, hdelivery, Program.releaseAndRaise] using h
    | setJson name hnext =>
      simp only [Deliveries.answer, hdelivery]
      exact h.enter_handed hnext hpublished hexpires
  | released error decidedAt handed hexpires =>
    simp only [Deliveries.answer, hdelivery, Program.releaseAndRaise]
    exact h.fail (h.settled_of hdelivery (by simp)) _ error

theorem Sound.raise (h : Sound key batch s) (error : PyError)
    (hcareful : s.Leaves → ¬ s.Exposed) : Sound key batch (s.raise error) := by
  rcases hdelivery : s.delivery with _ | delivery
  · simpa only [Deliveries.raise, hdelivery] using h
  cases h.running delivery hdelivery with
  | claiming hfalse htrue =>
    simp only [Deliveries.raise, hdelivery]
    exact h.fail (h.settled_of hdelivery (by simp)) _ error
  | refused hfalse hcovered =>
    simp only [Deliveries.raise, hdelivery]
    exact h.fail (h.settled_of hdelivery (by simp)) _ error
  | claimed htrue htime hexpires =>
    exact absurd ⟨_, hdelivery, rfl, rfl⟩ (hcareful ⟨_, hdelivery, trivial⟩)
  | publishing hprogram htime hexpires =>
    cases hprogram with
    | raised earlier => exact absurd ⟨_, hdelivery, rfl, rfl⟩ (hcareful ⟨_, hdelivery, trivial⟩)
    | publish hbatch hnext =>
      simp only [Deliveries.raise, hdelivery]
      exact h.enter_publishes (.raised error) htime hexpires
  | handed hprogram hpublished hexpires =>
    cases hprogram with
    | done =>
      simp only [Deliveries.raise, hdelivery]
      exact h.fail (h.settled_of hdelivery (by simp)) _ error
    | raised earlier =>
      simp only [Deliveries.raise, hdelivery, Program.releaseAndRaise]
      exact h.fail (h.settled_of hdelivery (by simp)) _ error
    | setJson name hnext =>
      simp only [Deliveries.raise, hdelivery]
      exact h.enter_handed (.raised error) hpublished hexpires
  | released earlier decidedAt handed hexpires =>
    simp only [Deliveries.raise, hdelivery, Program.releaseAndRaise]
    exact h.fail (h.settled_of hdelivery (by simp)) _ error

theorem Sound.deliver (h : Sound key batch s) {program : Program μ}
    (hprogram : ClaimsFirst key batch program) (hnone : s.delivery = none) :
    Sound key batch (s.enter { program := .done (.ok false) } program) := by
  have hsettled : Settled key batch s := h.settled fun ⟨delivery, hdelivery, _⟩ => by
    cases hnone.symm.trans hdelivery
  cases hprogram with
  | refused error => exact h.fail hsettled _ error
  | claim hfalse htrue => exact h.wait (.claiming hfalse htrue) fun _ => hsettled

/-- Every careful step keeps a publish behind the key, and behind what deliveries return. -/
theorem Sound.step {ingest : ο → Datetime → Program μ}
    (hingest : ∀ observation now, ClaimsFirst key batch (ingest observation now))
    (h : Sound key batch s) (move : IngestionMove ο) (hcareful : s.Careful move) :
    Sound key batch (s.step ingest move) := by
  cases move with
  | wait delay nonneg => exact h.tick nonneg
  | deliver observation =>
    rcases hdelivery : s.delivery with _ | delivery
    · simp only [Deliveries.step, hdelivery]
      exact h.deliver (hingest observation s.clock) hdelivery
    · simpa only [Deliveries.step, hdelivery] using h
  | apply => exact h.apply
  | answer => exact h.answer
  | raise error => exact h.raise error hcareful
  | stop =>
    exact ⟨h.published_le, h.atLeastOnce, fun _ => h.settled hcareful,
      fun _ hdelivery => by cases hdelivery⟩

/-- An `ingest` that claims the key first delivers at least once, when no delivery is left while it holds
the key and has published nothing. -/
theorem atLeastOnce_of_careful {ingest : ο → Datetime → Program μ}
    (hingest : ∀ observation now, ClaimsFirst key batch (ingest observation now))
    {moves : List (IngestionMove ο)}
    (hcareful : Throughout (Deliveries.step ingest) Careful {} moves) :
    Always (Deliveries.step ingest) (AtLeastOnce batch) {} moves :=
  always_of_throughout (I := Sound key batch) (fun _ move h hmove => h.step hingest move hmove)
    (fun _ h => h.atLeastOnce) sound_initial hcareful

end Deliveries

end Ingestion
end Scam2Market
