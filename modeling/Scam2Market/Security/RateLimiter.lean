import Mathlib.Data.List.Induction
import Mathlib.Data.Rat.Floor
import Mathlib.Order.Bounds.Basic
import Mathlib.Data.Set.Finite.Lattice
import Mathlib.Tactic.NormNum
import Scam2Market.Library.TokenBucket

/-!
# The rate limiter

`RateLimitMiddleware` of `security/rate_limiter.py`, with the script that it runs in Redis.  Times and tokens
are rational, and keys expire by the clock of the requests.

* `tokenBucketLua`: the script.  It is one request to a bucket (`tokenBucketLua_eq`).
* `dispatch`: one request.  Whether keys expire is a parameter; a key that has expired stays in the store
  until it is written again, and is not read.
* `capacity_le_ttl`: the time to live is long enough for a bucket to fill up, although it is truncated.
* `rate_limit_bound`: what holds of every run with a clock that does not turn back.
-/

namespace Scam2Market
namespace Security

open Library (Bucket BucketRates)

structure RateLimitSettings where
  rateLimitEnabled : Bool := true
  rateLimitCapacity : ℕ := 300
  rateLimitRefillPerSecond : ℚ := 5
  rateLimitFailClosed : Bool := false
  capacity_pos : 1 ≤ rateLimitCapacity := by norm_num
  refill_pos : 0 < rateLimitRefillPerSecond := by norm_num

/-- The hash of a key, and when the key expires. -/
structure BucketHash extends Bucket ℚ where
  expiresAt : ℚ

abbrev RedisStore : Type :=
  String → Option BucketHash

structure Request where
  path : String
  /-- The header `x-api-client-id`. -/
  apiClientId : Option String := none
  clientHost : Option String := none
  time : ℚ
  /-- No `RedisError` is raised. -/
  redisAnswers : Bool := true

inductive Response where
  /-- The response of the application, with the header `X-RateLimit-Remaining`, if it is set. -/
  | passed (remaining : Option ℤ)
  | limited
  | unavailable
  deriving DecidableEq

/-- `TOKEN_BUCKET_LUA`: what it returns, and what it writes. -/
def tokenBucketLua (bucket : Option BucketHash) (capacity refill now ttl : ℚ) :
    (Bool × ℤ) × BucketHash :=
  let tokens := bucket.elim capacity fun hash => hash.tokens
  let last := bucket.elim now fun hash => hash.lastRefill
  let tokens := min capacity (tokens + (now - last) * refill)
  let accepted := decide (1 ≤ tokens)
  let tokens := if 1 ≤ tokens then tokens - 1 else tokens
  ((accepted, ⌊tokens⌋), { tokens := tokens, lastRefill := now, expiresAt := now + ttl })

/-- `_excluded`. -/
def excluded : List String :=
  ["/api/v1/health", "/api/v1/ready", "/api/v1/metrics", "/docs", "/openapi.json"]

def isExcluded (path : String) : Bool :=
  excluded.any fun front => front.toList.isPrefixOf path.toList

def Request.clientId (request : Request) : String :=
  request.apiClientId.getD (request.clientHost.getD "unknown")

def bucketKey (clientId : String) : String :=
  "rate-limit:v1:" ++ clientId

/-- What is read of a key. -/
def readHash (expires : Bool) (store : RedisStore) (key : String) (now : ℚ) : Option BucketHash :=
  (store key).filter fun hash => !expires || decide (now ≤ hash.expiresAt)

namespace RateLimitSettings

variable (settings : RateLimitSettings)

def ttl : ℤ :=
  max 1 ⌊(settings.rateLimitCapacity : ℚ) / settings.rateLimitRefillPerSecond * 2⌋

/-- `dispatch(request, call_next)`. -/
def dispatch (expires : Bool) (store : RedisStore) (request : Request) : Response × RedisStore :=
  if !settings.rateLimitEnabled || isExcluded request.path then (.passed none, store)
  else if request.redisAnswers then
    let key := bucketKey request.clientId
    let ((accepted, remaining), hash) := tokenBucketLua (readHash expires store key request.time)
      settings.rateLimitCapacity settings.rateLimitRefillPerSecond request.time settings.ttl
    (if accepted then .passed (some remaining) else .limited, Function.update store key (some hash))
  else (if settings.rateLimitFailClosed then .unavailable else .passed none, store)

/-! ## Runs -/

/-- The responses to the requests. -/
def log (expires : Bool) (store : RedisStore) : List Request → List (Request × Response)
  | [] => []
  | request :: requests =>
    (request, (settings.dispatch expires store request).1) ::
      log expires (settings.dispatch expires store request).2 requests

/-- The store after the requests. -/
def storeAfter (expires : Bool) (store : RedisStore) (requests : List Request) : RedisStore :=
  requests.foldl (fun store request => (settings.dispatch expires store request).2) store

end RateLimitSettings

/-- The store without keys. -/
def emptyStore : RedisStore :=
  fun _ => none

/-- What a bucket has decided for a client: the time, and whether the request was accepted. -/
def decisionFor (client : String) (entry : Request × Response) : Option (ℚ × Bool) :=
  if entry.1.clientId = client then
    match entry.2 with
    | .passed (some _) => some (entry.1.time, true)
    | .limited => some (entry.1.time, false)
    | _ => none
  else none

/-- The bucket has accepted a request of a client at a time between two others. -/
def acceptedIn (client : String) (a b : ℚ) (entry : Request × Response) : Bool :=
  (decisionFor client entry).any (BucketRates.servedIn a b)

/-! ## The script -/

theorem bucketKey_injective : Function.Injective bucketKey := by
  intro client client' h
  have htext := congrArg String.toList h
  rw [bucketKey, bucketKey, String.toList_append, String.toList_append] at htext
  exact String.toList_inj.mp (List.append_cancel_left htext)

namespace RateLimitSettings

variable {settings : RateLimitSettings} {store : RedisStore} {request : Request}
  {requests : List Request} {start : ℚ}

/-- The buckets of the limiter. -/
def rates (settings : RateLimitSettings) : BucketRates ℚ where
  capacity := settings.rateLimitCapacity
  refill := settings.rateLimitRefillPerSecond
  one_le_capacity := Nat.one_le_cast.mpr settings.capacity_pos
  refill_pos := settings.refill_pos

/-- **The script is one request to a bucket.** -/
theorem tokenBucketLua_eq (hash : Option BucketHash) (now ttl : ℚ) :
    tokenBucketLua hash settings.rateLimitCapacity settings.rateLimitRefillPerSecond now ttl =
      (((settings.rates.offer (hash.map (·.toBucket)) now).1,
          ⌊(settings.rates.offer (hash.map (·.toBucket)) now).2.tokens⌋),
        { toBucket := (settings.rates.offer (hash.map (·.toBucket)) now).2, expiresAt := now + ttl }) := by
  have hlevel : min (settings.rateLimitCapacity : ℚ)
      ((hash.elim (settings.rateLimitCapacity : ℚ) fun hash => hash.tokens) +
        (now - hash.elim now fun hash => hash.lastRefill) * settings.rateLimitRefillPerSecond) =
      settings.rates.level (hash.map (·.toBucket)) now := by
    cases hash with
    | none =>
      show min (settings.rateLimitCapacity : ℚ) (settings.rateLimitCapacity + (now - now) * _) =
        settings.rateLimitCapacity
      rw [sub_self, zero_mul, add_zero, min_self]
    | some hash => rfl
  rw [tokenBucketLua]
  simp only [hlevel]
  by_cases hserved : 1 ≤ settings.rates.level (hash.map (·.toBucket)) now
  · rw [settings.rates.offer_served hserved, if_pos hserved, decide_eq_true hserved]
  · rw [settings.rates.offer_refused hserved, if_neg hserved, decide_eq_false hserved]

/-- The request is put to the bucket of its client. -/
def Counts (settings : RateLimitSettings) (request : Request) : Prop :=
  settings.rateLimitEnabled = true ∧ isExcluded request.path = false ∧ request.redisAnswers = true

instance (request : Request) : Decidable (settings.Counts request) :=
  inferInstanceAs (Decidable (_ ∧ _))

/-- The bucket that is read. -/
def bucketOf (expires : Bool) (store : RedisStore) (request : Request) : Option (Bucket ℚ) :=
  (readHash expires store (bucketKey request.clientId) request.time).map (·.toBucket)

theorem dispatch_of_counts (expires : Bool) (store : RedisStore) (h : settings.Counts request) :
    settings.dispatch expires store request =
      (if (settings.rates.offer (bucketOf expires store request) request.time).1 then
          .passed (some ⌊(settings.rates.offer (bucketOf expires store request) request.time).2.tokens⌋)
        else .limited,
      Function.update store (bucketKey request.clientId) (some
        { toBucket := (settings.rates.offer (bucketOf expires store request) request.time).2
          expiresAt := request.time + settings.ttl })) := by
  obtain ⟨henabled, hexcluded, hanswers⟩ := h
  rw [dispatch, henabled, hexcluded, hanswers]
  simp only [Bool.not_true, Bool.or_false, Bool.false_eq_true, if_false, if_true, tokenBucketLua_eq]
  rfl

/-- Any other request leaves the store as it is, and no bucket decides about it. -/
theorem dispatch_of_not_counts (h : ¬ settings.Counts request) :
    ∃ response, (∀ expires store, settings.dispatch expires store request = (response, store)) ∧
      ∀ client, decisionFor client (request, response) = none := by
  have hnone : ∀ response ∈ [Response.passed none, .unavailable], ∀ client,
      decisionFor client (request, response) = none := by
    intro response hresponse client
    rw [decisionFor]
    rcases List.mem_pair.mp hresponse with rfl | rfl <;> exact ite_self none
  by_cases hskipped : (!settings.rateLimitEnabled || isExcluded request.path) = true
  · exact ⟨.passed none, fun expires store => if_pos hskipped, hnone _ (by decide)⟩
  · have hanswers : ¬ request.redisAnswers = true := by
      intro hanswers
      rw [Bool.or_eq_true, not_or, Bool.not_eq_true', Bool.not_eq_false] at hskipped
      exact h ⟨hskipped.1, Bool.eq_false_iff.mpr hskipped.2, hanswers⟩
    refine ⟨if settings.rateLimitFailClosed then .unavailable else .passed none,
      fun expires store => ?_, ?_⟩
    · rw [dispatch, if_neg hskipped, if_neg hanswers]
    · split_ifs
      · exact hnone _ (by decide)
      · exact hnone _ (by decide)

/-! ## The time to live -/

/-- **The time to live is long enough**: a bucket that has expired would have been full. -/
theorem capacity_le_ttl (settings : RateLimitSettings) :
    (settings.rateLimitCapacity : ℚ) ≤ settings.ttl * settings.rateLimitRefillPerSecond := by
  have hrefill := settings.refill_pos
  rw [← div_le_iff₀ hrefill]
  have hone : (1 : ℚ) ≤ settings.ttl := by exact_mod_cast le_max_left (1 : ℤ) _
  have hfloor : (⌊(settings.rateLimitCapacity : ℚ) / settings.rateLimitRefillPerSecond * 2⌋ : ℚ) ≤
      settings.ttl := by exact_mod_cast le_max_right (1 : ℤ) _
  have htruncated := Int.lt_floor_add_one
    ((settings.rateLimitCapacity : ℚ) / settings.rateLimitRefillPerSecond * 2)
  by_cases hsmall : (settings.rateLimitCapacity : ℚ) / settings.rateLimitRefillPerSecond ≤ 1
  · exact hsmall.trans hone
  · linarith

/-- What holds of every store that is reached. -/
def SoundStore (settings : RateLimitSettings) (now : ℚ) (store : RedisStore) : Prop :=
  ∀ key hash, store key = some hash →
    settings.rates.Sound now hash.toBucket ∧ hash.expiresAt = hash.lastRefill + settings.ttl

theorem soundStore_empty (now : ℚ) : settings.SoundStore now emptyStore :=
  fun _ _ h => nomatch h

theorem SoundStore.later {now : ℚ} (h : settings.SoundStore start store) (hle : start ≤ now) :
    settings.SoundStore now store :=
  fun key hash hhash => ⟨(h key hash hhash).1.later hle, (h key hash hhash).2⟩

theorem SoundStore.bucketOf {expires : Bool} (h : settings.SoundStore request.time store) :
    ∀ bucket ∈ RateLimitSettings.bucketOf expires store request,
      settings.rates.Sound request.time bucket := by
  intro bucket hbucket
  obtain ⟨hash, hread, rfl⟩ := Option.map_eq_some_iff.mp hbucket
  exact (h _ hash (Option.filter_eq_some_iff.mp hread).1).1

/-- A request keeps the store sound. -/
theorem SoundStore.dispatch {expires : Bool} (h : settings.SoundStore request.time store) :
    settings.SoundStore request.time (settings.dispatch expires store request).2 := by
  by_cases hcounts : settings.Counts request
  · rw [dispatch_of_counts expires store hcounts]
    intro key hash hhash
    dsimp only at hhash
    by_cases hkey : key = bucketKey request.clientId
    · rw [hkey, Function.update_self] at hhash
      obtain rfl := Option.some.inj hhash
      refine ⟨BucketRates.sound_offer h.bucketOf, ?_⟩
      dsimp only
      rw [BucketRates.offer_lastRefill]
    · rw [Function.update_of_ne hkey] at hhash
      exact h key hash hhash
  · obtain ⟨response, heq, -⟩ := dispatch_of_not_counts hcounts
    rw [heq]
    exact h

/-- **Expiry is not seen by a request**: the bucket is as full as if the key were still there. -/
theorem dispatch_expires (h : settings.SoundStore request.time store) :
    settings.dispatch true store request = settings.dispatch false store request := by
  by_cases hcounts : settings.Counts request
  · have hkept : bucketOf false store request =
        (store (bucketKey request.clientId)).map (·.toBucket) := by
      rw [RateLimitSettings.bucketOf, readHash]
      cases store (bucketKey request.clientId) <;> rfl
    have hlevel : settings.rates.level (bucketOf true store request) request.time =
        settings.rates.level (bucketOf false store request) request.time := by
      rw [hkept, RateLimitSettings.bucketOf, readHash]
      cases hhash : store (bucketKey request.clientId) with
      | none => rfl
      | some hash =>
        obtain ⟨hsound, hexpires⟩ := h _ hash hhash
        by_cases hlive : request.time ≤ hash.expiresAt
        · rw [Option.filter_some, if_pos (by rw [decide_eq_true hlive]; rfl)]
        · rw [Option.filter_some, if_neg (by rw [decide_eq_false hlive]; exact Bool.false_ne_true)]
          refine (BucketRates.level_of_idle hsound ?_).symm
          have hidle : (settings.ttl : ℚ) ≤ request.time - hash.lastRefill := by
            rw [hexpires] at hlive
            linarith
          exact (capacity_le_ttl settings).trans
            (mul_le_mul_of_nonneg_right hidle settings.refill_pos.le)
    have hoffer : settings.rates.offer (bucketOf true store request) request.time =
        settings.rates.offer (bucketOf false store request) request.time := by
      rw [BucketRates.offer, BucketRates.offer, hlevel]
    rw [dispatch_of_counts true store hcounts, dispatch_of_counts false store hcounts, hoffer]
  · obtain ⟨response, heq, -⟩ := dispatch_of_not_counts hcounts
    rw [heq, heq]

/-! ## Runs -/

theorem storeAfter_concat (expires : Bool) (store : RedisStore) (requests : List Request)
    (request : Request) :
    settings.storeAfter expires store (requests ++ [request]) =
      (settings.dispatch expires (settings.storeAfter expires store requests) request).2 :=
  List.foldl_concat ..

/-- The stores of a run are sound. -/
theorem soundStore_storeAfter {expires : Bool} (h : settings.SoundStore start store)
    (hsorted : (start :: requests.map (·.time)).Pairwise (· ≤ ·)) :
    ∀ now, (∀ time ∈ start :: requests.map (·.time), time ≤ now) →
      settings.SoundStore now (settings.storeAfter expires store requests) := by
  induction requests using List.reverseRecOn with
  | nil => exact fun now hnow => h.later (hnow start List.mem_cons_self)
  | append_singleton requests request ih =>
    intro now hnow
    rw [List.map_append, ← List.cons_append] at hsorted hnow
    obtain ⟨hsorted, -, hlast⟩ := List.pairwise_append.mp hsorted
    have hbefore := ih hsorted request.time fun time htime =>
      hlast time htime request.time (List.mem_singleton_self _)
    rw [storeAfter_concat]
    exact hbefore.dispatch.later (hnow _ (List.mem_append_right _ (List.mem_singleton_self _)))

/-- **Expiry is not seen by a run.** -/
theorem log_expires (h : settings.SoundStore start store)
    (hsorted : (start :: requests.map (·.time)).Pairwise (· ≤ ·)) :
    settings.log true store requests = settings.log false store requests := by
  induction requests generalizing start store with
  | nil => rfl
  | cons request requests ih =>
    obtain ⟨hfirst, hrest⟩ := List.pairwise_cons.mp hsorted
    have hnow := h.later (hfirst request.time List.mem_cons_self)
    rw [log, log, dispatch_expires hnow, ih hnow.dispatch hrest]

/-- The times of the requests of a client that are put to its bucket. -/
def timesOf (settings : RateLimitSettings) (client : String) (requests : List Request) : List ℚ :=
  (requests.filter fun request => request.clientId = client ∧ settings.Counts request).map (·.time)

theorem timesOf_cons_of_pos {client : String} (h : request.clientId = client ∧ settings.Counts request) :
    settings.timesOf client (request :: requests) = request.time :: settings.timesOf client requests := by
  rw [timesOf, List.filter_cons, if_pos (decide_eq_true h), List.map_cons]
  rfl

theorem timesOf_cons_of_neg {client : String}
    (h : ¬ (request.clientId = client ∧ settings.Counts request)) :
    settings.timesOf client (request :: requests) = settings.timesOf client requests := by
  rw [timesOf, List.filter_cons, if_neg (by rw [decide_eq_false h]; exact Bool.false_ne_true)]
  rfl

/-- **A client's bucket does not see the other clients.** -/
theorem filterMap_log (client : String) (store : RedisStore) (requests : List Request) :
    (settings.log false store requests).filterMap (decisionFor client) =
      settings.rates.log ((store (bucketKey client)).map (·.toBucket)) (settings.timesOf client requests) := by
  induction requests generalizing store with
  | nil => rfl
  | cons request requests ih =>
    rw [log, List.filterMap_cons, ih]
    by_cases hcounts : settings.Counts request
    · have hkept : bucketOf false store request =
          (store (bucketKey request.clientId)).map (·.toBucket) := by
        rw [RateLimitSettings.bucketOf, readHash]
        cases store (bucketKey request.clientId) <;> rfl
      rw [dispatch_of_counts false store hcounts, hkept]
      dsimp only
      by_cases hclient : request.clientId = client
      · rw [timesOf_cons_of_pos ⟨hclient, hcounts⟩, ← hclient, Function.update_self, BucketRates.log,
          decisionFor, if_pos rfl]
        split_ifs with hserved
        · rw [hserved]
          rfl
        · rw [Bool.eq_false_iff.mpr hserved]
          rfl
      · have hkey : bucketKey client ≠ bucketKey request.clientId := fun heq =>
          hclient (bucketKey_injective heq).symm
        rw [timesOf_cons_of_neg fun h => hclient h.1, Function.update_of_ne hkey, decisionFor,
          if_neg hclient]
    · obtain ⟨response, heq, hnone⟩ := dispatch_of_not_counts hcounts
      rw [heq, hnone, timesOf_cons_of_neg fun h => hcounts h.2]

/-- The number of requests that are accepted is that of the bucket. -/
theorem countP_acceptedIn (client : String) (a b : ℚ) (requests : List Request) :
    (settings.log false emptyStore requests).countP (acceptedIn client a b) =
      (settings.rates.log none (settings.timesOf client requests)).countP (BucketRates.servedIn a b) := by
  have hlog : (settings.log false emptyStore requests).filterMap (decisionFor client) =
      settings.rates.log none (settings.timesOf client requests) :=
    filterMap_log client emptyStore requests
  rw [← hlog, List.countP_filterMap]
  refine List.countP_congr fun entry _ => ?_
  rw [acceptedIn]
  cases decisionFor client entry <;> exact Iff.rfl

/-- The clock may have started with the first request. -/
theorem exists_start {times : List ℚ} (hsorted : times.Pairwise (· ≤ ·)) :
    ∃ start, (start :: times).Pairwise (· ≤ ·) := by
  cases times with
  | nil => exact ⟨0, List.pairwise_singleton _ _⟩
  | cons now times =>
    refine ⟨now, List.pairwise_cons.mpr ⟨List.forall_mem_cons.mpr ⟨le_rfl, ?_⟩, hsorted⟩⟩
    exact (List.pairwise_cons.mp hsorted).1

/-- **A rejected request** has found a bucket with less than a token. -/
theorem exists_hash_of_limited
    (hlimited : (settings.dispatch true store request).1 = .limited) :
    ∃ hash, store (bucketKey request.clientId) = some hash ∧
      hash.tokens + (request.time - hash.lastRefill) * settings.rateLimitRefillPerSecond < 1 := by
  by_cases hcounts : settings.Counts request
  · rw [dispatch_of_counts true store hcounts] at hlimited
    have hrefused : ¬ 1 ≤ settings.rates.level (bucketOf true store request) request.time := by
      intro hserved
      rw [settings.rates.offer_served hserved] at hlimited
      exact nomatch hlimited
    cases hread : readHash true store (bucketKey request.clientId) request.time with
    | none =>
      rw [RateLimitSettings.bucketOf, hread] at hrefused
      exact absurd settings.rates.one_le_capacity hrefused
    | some hash =>
      rw [RateLimitSettings.bucketOf, hread] at hrefused
      refine ⟨hash, (Option.filter_eq_some_iff.mp hread).1, ?_⟩
      have hlevel := not_le.mp hrefused
      exact (min_lt_iff.mp hlevel).resolve_left (not_lt.mpr settings.rates.one_le_capacity)
  · obtain ⟨response, heq, hnone⟩ := dispatch_of_not_counts hcounts
    rw [heq] at hlimited
    have hdecision := hnone request.clientId
    rw [show response = .limited from hlimited, decisionFor, if_pos rfl] at hdecision
    exact nomatch hdecision

/-- **The bound of the rate limiter.**  With a clock that does not turn back: the tokens that are stored stay
between zero and the capacity; in a window of time, no client has more requests accepted than the capacity
and what the window refills; a request is rejected only if less than a token has accumulated; and the
responses are those of buckets that do not expire. -/
theorem rate_limit_bound (settings : RateLimitSettings) (requests : List Request)
    (hsorted : (requests.map (·.time)).Pairwise (· ≤ ·)) :
    (∀ key hash, settings.storeAfter true emptyStore requests key = some hash →
      0 ≤ hash.tokens ∧ hash.tokens ≤ settings.rateLimitCapacity) ∧
    (∀ client a T, 0 ≤ T →
      ((settings.log true emptyStore requests).countP (acceptedIn client a (a + T)) : ℚ) ≤
        settings.rateLimitCapacity + settings.rateLimitRefillPerSecond * T) ∧
    (∀ past request rest, requests = past ++ request :: rest →
      (settings.dispatch true (settings.storeAfter true emptyStore past) request).1 = .limited →
      ∃ hash, settings.storeAfter true emptyStore past (bucketKey request.clientId) = some hash ∧
        hash.tokens + (request.time - hash.lastRefill) * settings.rateLimitRefillPerSecond < 1) ∧
    settings.log true emptyStore requests = settings.log false emptyStore requests := by
  obtain ⟨start, hstart⟩ := exists_start hsorted
  have hempty : settings.SoundStore start emptyStore := soundStore_empty start
  have hexpires := log_expires hempty hstart
  refine ⟨fun key hash hhash => ?_, fun client a T hT => ?_, ?_, hexpires⟩
  · -- at a time after all of the requests
    obtain ⟨now, hnow⟩ := (List.finite_toSet (start :: requests.map (·.time))).bddAbove
    have hsound := (soundStore_storeAfter hempty hstart now (fun _ htime => hnow htime) key hash hhash).1
    exact ⟨hsound.tokens_nonneg, hsound.tokens_le⟩
  · rw [hexpires, countP_acceptedIn]
    have htimes : (start :: settings.timesOf client requests).Pairwise (· ≤ ·) :=
      hstart.sublist ((List.filter_sublist.map _).cons_cons start)
    have hnone : ∀ bucket ∈ (none : Option (Bucket ℚ)), settings.rates.Sound start bucket :=
      fun _ h => nomatch h
    have hwindow := BucketRates.window_le (le_add_of_nonneg_right hT : a ≤ a + T) hnone htimes
    rw [add_sub_cancel_left, mul_comm T] at hwindow
    exact hwindow
  · exact fun _ _ _ _ hlimited => exists_hash_of_limited hlimited

/-- Two clients with a capacity of two tokens and half a token per second. -/
def demoSettings : RateLimitSettings where
  rateLimitCapacity := 2
  rateLimitRefillPerSecond := 1 / 2

def demoRequest (client : String) (time : ℚ) : Request where
  path := "/api/v1/assets"
  apiClientId := some client
  time := time

def demoRequests : List Request :=
  [demoRequest "a" 0, demoRequest "a" 1, demoRequest "b" 1, demoRequest "a" 1, demoRequest "a" 20]

theorem rate_limit_bound_demo :
    demoSettings.log true emptyStore demoRequests = demoSettings.log false emptyStore demoRequests ∧
      (demoSettings.log true emptyStore demoRequests).map Prod.snd =
        [.passed (some 1), .passed (some 0), .passed (some 1), .limited, .passed (some 1)] ∧
      ((demoSettings.log true emptyStore demoRequests).countP (acceptedIn "a" 0 (0 + 1)) : ℚ) ≤
        2 + 1 / 2 * 1 := by
  have hbound := rate_limit_bound demoSettings demoRequests (by decide +kernel)
  exact ⟨hbound.2.2.2, by decide +kernel, hbound.2.1 "a" 0 1 zero_le_one⟩

end RateLimitSettings

end Security
end Scam2Market
