import FcamGateway.Models
import FcamGateway.TokenBucket
import Mathlib.Data.Rat.Floor
import Mathlib.Logic.Function.Basic

/-! The rate limiters: one in memory, one over a hash in Redis that a script updates,
and the transaction that takes the script's place where the server knows no scripts.
Numbers are exact. -/
namespace FcamGateway.RateLimit

/-- `_Bucket`. -/
structure Bucket where
  tokens : ℚ
  lastRefill : ℚ
deriving DecidableEq

abbrev Buckets := String → Option Bucket

/-- `TokenBucketRateLimiter.allow`; `now` is the monotonic clock in seconds. -/
def TokenBucketRateLimiter.allow (key : String) (ratePerMin : ℤ) (now : ℚ) (buckets : Buckets) :
    (Bool × ℤ) × Buckets :=
  if ratePerMin ≤ 0 then ((true, 0), buckets)
  else
    let capacity : ℚ := ratePerMin
    let refillPerSec := capacity / 60
    let bucket := (buckets key).getD ⟨capacity, now⟩
    let elapsed := max (now - bucket.lastRefill) 0
    let tokens := min capacity (bucket.tokens + elapsed * refillPerSec)
    if 1 ≤ tokens then ((true, 0), Function.update buckets key (some ⟨tokens - 1, now⟩))
    else
      let needed := 1 - tokens
      let retryAfter := ⌈needed / refillPerSec⌉
      ((false, max retryAfter 1), Function.update buckets key (some ⟨tokens, now⟩))

/-- A bucket in Redis. The server drops it when its own clock, in milliseconds, is past
`expiresAt`. -/
structure Hash where
  tokens : ℚ
  last : ℤ
  expiresAt : ℤ
deriving DecidableEq

abbrev Store := String → Option Hash

/-- The hash that a command finds. -/
def found (store : Store) (redisKey : String) (clock : ℤ) : Option Hash :=
  (store redisKey).filter fun hash => clock ≤ hash.expiresAt

/-- `_ALLOW_LUA`. -/
def allowLua (redisKey : String) (now : ℤ) (capacity refillPerMs : ℚ) (clock : ℤ)
    (store : Store) : (ℤ × ℤ) × Store :=
  if capacity ≤ 0 then ((1, 0), store)
  else
    let data := found store redisKey clock
    let tokens := (data.map Hash.tokens).getD capacity
    let last := (data.map Hash.last).getD now
    let elapsed := if now - last < 0 then 0 else now - last
    let tokens := min capacity (tokens + elapsed * refillPerMs)
    if 1 ≤ tokens then
      ((1, 0), Function.update store redisKey (some ⟨tokens - 1, now, clock + 120 * 1000⟩))
    else
      let needed := 1 - tokens
      let msNeeded := needed / refillPerMs
      let retryAfter := ⌈msNeeded / 1000⌉
      ((0, if retryAfter < 1 then 1 else retryAfter),
        Function.update store redisKey (some ⟨tokens, now, clock + 120 * 1000⟩))

/-- An attempt of `_allow_fallback` that no other writer disturbs. -/
def attempt (redisKey : String) (nowMs : ℤ) (capacity refillPerMs : ℚ) (clock : ℤ)
    (store : Store) : (ℤ × ℤ) × Store :=
  let raw := found store redisKey clock
  let tokens := (raw.map Hash.tokens).getD capacity
  let last := (raw.map Hash.last).getD nowMs
  let elapsed := max (nowMs - last) 0
  let tokens := min capacity (tokens + elapsed * refillPerMs)
  if 1 ≤ tokens then
    ((1, 0), Function.update store redisKey (some ⟨tokens - 1, nowMs, clock + 120 * 1000⟩))
  else
    let needed := 1 - tokens
    let msNeeded := needed / refillPerMs
    let retryAfter := ⌈msNeeded / 1000⌉
    ((0, max retryAfter 1),
      Function.update store redisKey (some ⟨tokens, nowMs, clock + 120 * 1000⟩))

/-- The loop of `_allow_fallback`. Another writer disturbs the first `conflicts` attempts,
which then write nothing; `store` is what the attempt after them finds. -/
def allowFallback (redisKey : String) (nowMs : ℤ) (capacity refillPerMs : ℚ) (clock : ℤ)
    (store : Store) : Nat → Nat → Except FcamError (ℤ × ℤ) × Store
  | 0, _ => (.error stateUnavailable, store)
  | tries + 1, conflicts + 1 =>
    allowFallback redisKey nowMs capacity refillPerMs clock store tries conflicts
  | _ + 1, 0 =>
    let done := attempt redisKey nowMs capacity refillPerMs clock store
    (.ok done.1, done.2)

/-- `str.strip(":")`. -/
def stripColons (text : String) : String :=
  String.ofList (((text.toList.dropWhile (· = ':')).reverse.dropWhile (· = ':')).reverse)

structure RedisTokenBucketRateLimiter where
  keyPrefix : String
  scope : String

/-- The constructor. -/
def RedisTokenBucketRateLimiter.make (keyPrefix scope : String) : RedisTokenBucketRateLimiter where
  keyPrefix := stripColons (if keyPrefix = "" then "fcam" else keyPrefix)
  scope := stripColons scope

def safeKey (key : String) : String := if stripColons key = "" then "unknown" else stripColons key

/-- `_redis_key`. -/
def RedisTokenBucketRateLimiter.redisKey (limiter : RedisTokenBucketRateLimiter) (key : String) :
    String :=
  limiter.keyPrefix ++ ":rate_limit:" ++ limiter.scope ++ ":" ++ safeKey key

/-- What `EVAL` does on the server. -/
inductive Eval where
  | runs
  | unknownCommand (conflicts : Nat)
  | fails
deriving DecidableEq

/-- `int` of a number. -/
def truncate (number : ℚ) : ℤ := if 0 ≤ number then ⌊number⌋ else ⌈number⌉

/-- When a call is made, on the clock of its instance and on the server's, and how the
server takes it. -/
structure Moment where
  time : ℚ
  clock : ℤ
  eval : Eval

def Moment.nowMs (moment : Moment) : ℤ := truncate (moment.time * 1000)

/-- `RedisTokenBucketRateLimiter.allow`. -/
def RedisTokenBucketRateLimiter.allow (limiter : RedisTokenBucketRateLimiter) (key : String)
    (ratePerMin : ℤ) (moment : Moment) (store : Store) : Except FcamError (Bool × ℤ) × Store :=
  if ratePerMin ≤ 0 then (.ok (true, 0), store)
  else
    let capacity : ℚ := ratePerMin
    let refillPerMs := capacity / 60000
    let replied : Except FcamError (ℤ × ℤ) × Store :=
      match moment.eval with
      | .runs =>
        let done := allowLua (limiter.redisKey key) moment.nowMs capacity refillPerMs moment.clock
          store
        (.ok done.1, done.2)
      | .unknownCommand conflicts =>
        allowFallback (limiter.redisKey key) moment.nowMs capacity refillPerMs moment.clock store
          5 conflicts
      | .fails => (.error stateUnavailable, store)
    (replied.1.map fun reply => (decide (reply.1 ≠ 0), reply.2), replied.2)

/-- The call reaches the bucket: neither the server nor five conflicts stop it. -/
def Moment.Reaches (moment : Moment) : Prop :=
  match moment.eval with
  | .runs => True
  | .unknownCommand conflicts => conflicts < 5
  | .fails => False

instance : DecidablePred Moment.Reaches := fun moment => by
  unfold Moment.Reaches
  split <;> infer_instance

variable {redisKey key : String} {nowMs clock : ℤ} {capacity refillPerMs : ℚ} {store : Store}
  {limiter : RedisTokenBucketRateLimiter} {ratePerMin : ℤ} {moment : Moment}

theorem found_expired {hash : Hash} (there : store redisKey = some hash)
    (late : hash.expiresAt < clock) : found store redisKey clock = none := by
  rw [found, there]
  exact Option.filter_some_neg (decide_eq_false (not_le.mpr late))

theorem found_live {hash : Hash} (there : store redisKey = some hash)
    (live : clock ≤ hash.expiresAt) : found store redisKey clock = some hash := by
  rw [found, there]
  exact Option.filter_some_pos (decide_eq_true live)

/-- The script and an undisturbed attempt do the same. -/
theorem allowLua_attempt (positive : 0 < capacity) :
    allowLua redisKey nowMs capacity refillPerMs clock store =
      attempt redisKey nowMs capacity refillPerMs clock store := by
  have clamp : ∀ elapsed : ℤ, (if elapsed < 0 then 0 else elapsed) = max elapsed 0 := by
    intro elapsed
    by_cases back : elapsed < 0
    · rw [if_pos back]
      omega
    · rw [if_neg back]
      omega
  have least : ∀ retryAfter : ℤ, (if retryAfter < 1 then 1 else retryAfter) = max retryAfter 1 := by
    intro retryAfter
    by_cases small : retryAfter < 1
    · rw [if_pos small]
      omega
    · rw [if_neg small]
      omega
  simp only [allowLua, attempt, if_neg (not_le.mpr positive), clamp, least]

theorem allowFallback_attempt {tries conflicts : Nat} (fewer : conflicts < tries) :
    allowFallback redisKey nowMs capacity refillPerMs clock store tries conflicts =
      (.ok (attempt redisKey nowMs capacity refillPerMs clock store).1,
        (attempt redisKey nowMs capacity refillPerMs clock store).2) := by
  induction tries generalizing conflicts with
  | zero => omega
  | succ tries ih =>
    cases conflicts with
    | zero => rfl
    | succ conflicts => exact ih (by omega)

theorem allowFallback_exhausted {tries conflicts : Nat} (many : tries ≤ conflicts) :
    allowFallback redisKey nowMs capacity refillPerMs clock store tries conflicts =
      (.error stateUnavailable, store) := by
  induction tries generalizing conflicts with
  | zero => cases conflicts <;> rfl
  | succ tries ih =>
    cases conflicts with
    | zero => omega
    | succ conflicts => exact ih (by omega)

/-- A call that reaches the bucket is one attempt. -/
theorem allow_attempt (positive : 0 < ratePerMin) (reaches : moment.Reaches) :
    limiter.allow key ratePerMin moment store =
      let done := attempt (limiter.redisKey key) moment.nowMs ratePerMin (ratePerMin / 60000)
        moment.clock store
      (.ok (decide (done.1.1 ≠ 0), done.1.2), done.2) := by
  have taken : ¬ ratePerMin ≤ 0 := by omega
  have room : (0 : ℚ) < ratePerMin := by exact_mod_cast positive
  simp only [RedisTokenBucketRateLimiter.allow, if_neg taken]
  cases answer : moment.eval with
  | runs => simp only [allowLua_attempt room, Except.map]
  | unknownCommand conflicts =>
    have fewer : conflicts < 5 := by simpa [Moment.Reaches, answer] using reaches
    simp only [allowFallback_attempt fewer, Except.map]
  | fails => simp [Moment.Reaches, answer] at reaches

/-- A call that does not reach the bucket fails and leaves it. -/
theorem allow_unreached (positive : 0 < ratePerMin) (stopped : ¬ moment.Reaches) :
    limiter.allow key ratePerMin moment store = (.error stateUnavailable, store) := by
  have taken : ¬ ratePerMin ≤ 0 := by omega
  simp only [RedisTokenBucketRateLimiter.allow, if_neg taken]
  cases answer : moment.eval with
  | runs => simp [Moment.Reaches, answer] at stopped
  | unknownCommand conflicts =>
    have many : 5 ≤ conflicts := by simpa [Moment.Reaches, answer] using stopped
    simp only [allowFallback_exhausted many, Except.map]
  | fails => rfl

/-- A call writes the bucket of its own key. -/
theorem allow_frame {other : String} {now : ℚ} {buckets : Buckets} (name : other ≠ key) :
    (TokenBucketRateLimiter.allow key ratePerMin now buckets).2 other = buckets other := by
  simp only [TokenBucketRateLimiter.allow]
  split
  · rfl
  · split
    · exact Function.update_of_ne name ..
    · exact Function.update_of_ne name ..

theorem attempt_frame {other : String} (name : other ≠ redisKey) :
    (attempt redisKey nowMs capacity refillPerMs clock store).2 other = store other := by
  simp only [attempt]
  split
  · exact Function.update_of_ne name ..
  · exact Function.update_of_ne name ..

theorem redis_frame {other : String} (name : other ≠ limiter.redisKey key) :
    (limiter.allow key ratePerMin moment store).2 other = store other := by
  by_cases positive : 0 < ratePerMin
  · by_cases reaches : moment.Reaches
    · rw [allow_attempt positive reaches]
      exact attempt_frame name
    · rw [allow_unreached positive reaches]
  · rw [RedisTokenBucketRateLimiter.allow, if_pos (not_lt.mp positive)]

end FcamGateway.RateLimit
