import FcamGateway.RateLimitBound

/-! The limiters give the same answers. A bucket in memory is related to the hash in
Redis that holds as much; a hash that has expired is related to the full bucket that
two minutes have made of it, whatever the rate has become. -/
namespace FcamGateway.RateLimit

open TokenBucket

structure Call where
  key : String
  ratePerMin : ℤ
  ms : ℤ

def answers : List Call → Buckets → List (Except FcamError (Bool × ℤ))
  | [], _ => []
  | call :: later, buckets =>
    let done := TokenBucketRateLimiter.allow call.key call.ratePerMin (call.ms / 1000) buckets
    .ok done.1 :: answers later done.2

/-- The moment of a call, where the server keeps the same time. -/
def Call.moment (eval : Eval) (call : Call) : Moment := ⟨call.ms / 1000, call.ms, eval⟩

def redisAnswers (limiter : RedisTokenBucketRateLimiter) (eval : Eval) :
    List Call → Store → List (Except FcamError (Bool × ℤ))
  | [], _ => []
  | call :: later, store =>
    let done := limiter.allow call.key call.ratePerMin (call.moment eval) store
    done.1 :: redisAnswers limiter eval later done.2

/-- What memory and Redis hold for a key at a time. -/
def Alike (limiter : RedisTokenBucketRateLimiter) (ms : ℤ) (buckets : Buckets) (store : Store)
    (key : String) : Prop :=
  (buckets key = none ∧ store (limiter.redisKey key) = none) ∨
    ∃ tokens last, 0 ≤ tokens ∧ last ≤ ms ∧ buckets key = some ⟨tokens, (last : ℚ) / 1000⟩ ∧
      store (limiter.redisKey key) = some ⟨tokens, last, last + 120 * 1000⟩

variable {limiter : RedisTokenBucketRateLimiter} {ms : ℤ} {buckets : Buckets} {store : Store}
  {key : String} {call : Call} {eval : Eval} {calls : List Call}

@[simp] theorem nowMs_moment : (call.moment eval).nowMs = call.ms := by
  have whole : (call.ms : ℚ) / 1000 * 1000 = call.ms := by ring
  simp only [Moment.nowMs, Call.moment, whole, truncate]
  split
  · exact Int.floor_intCast _
  · exact Int.ceil_intCast _

@[simp] theorem clock_moment : (call.moment eval).clock = call.ms := rfl

theorem redisKey_inj {one other : String} :
    limiter.redisKey one = limiter.redisKey other ↔ safeKey one = safeKey other := by
  simp [RedisTokenBucketRateLimiter.redisKey]

theorem Alike.later (alike : Alike limiter ms buckets store key) (order : ms ≤ call.ms) :
    Alike limiter call.ms buckets store key := by
  rcases alike with absent | ⟨tokens, last, held, before, there⟩
  · exact .inl absent
  · exact .inr ⟨tokens, last, held, by omega, there⟩

/-- A call refills the bucket and its hash to one level. -/
theorem Alike.level (eval : Eval) (alike : Alike limiter ms buckets store call.key)
    (positive : 0 < call.ratePerMin) :
    let bucket := (buckets call.key).getD ⟨call.ratePerMin, call.ms / 1000⟩
    let data := found store (limiter.redisKey call.key) (call.moment eval).clock
    let level := filled call.ratePerMin bucket.tokens (ahead bucket.lastRefill (call.ms / 1000))
    filled call.ratePerMin (refill call.ratePerMin (call.moment eval) data).1
      (refill call.ratePerMin (call.moment eval) data).2 = level ∧ 0 ≤ level := by
  have room : (0 : ℚ) < call.ratePerMin := by exact_mod_cast positive
  rcases alike with ⟨empty, absent⟩ | ⟨tokens, last, held, before, there, here⟩
  · simp only [found, absent, empty]
    simp [refill, ahead, filled, room.le]
  · have kept := filled_nonneg positive held (ahead_nonneg ((last : ℚ) / 1000) (call.ms / 1000))
    simp only [there, Option.getD_some, clock_moment]
    refine ⟨?_, kept⟩
    by_cases expired : last + 120 * 1000 < call.ms
    · have passed : (last : ℚ) + 120 * 1000 < call.ms := by exact_mod_cast expired
      have minutes : (120 : ℚ) ≤ ahead ((last : ℚ) / 1000) (call.ms / 1000) := by
        rw [ahead]
        apply le_max_of_le_left
        linarith
      have full : (call.ratePerMin : ℚ) ≤
          ahead ((last : ℚ) / 1000) (call.ms / 1000) * (call.ratePerMin / 60) := by
        have rate : (0 : ℚ) ≤ (call.ratePerMin : ℚ) / 60 := by positivity
        have refill := mul_le_mul_of_nonneg_right minutes rate
        linarith
      rw [found_expired here expired]
      simp only [refill, filled]
      rw [min_eq_left (by linarith), min_eq_left (by linarith)]
    · rw [found_live here (not_lt.mp expired)]
      simp [refill, Moment.stamp]

/-- One call: memory and Redis answer the same and hold the same afterwards. -/
theorem Alike.allow (alike : Alike limiter ms buckets store call.key) (order : ms ≤ call.ms)
    (reaches : (call.moment eval).Reaches) :
    let done := TokenBucketRateLimiter.allow call.key call.ratePerMin (call.ms / 1000) buckets
    let redis := limiter.allow call.key call.ratePerMin (call.moment eval) store
    redis.1 = .ok done.1 ∧ Alike limiter call.ms done.2 redis.2 call.key := by
  by_cases positive : 0 < call.ratePerMin
  · obtain ⟨level, filled⟩ := alike.level eval positive
    have rate : (0 : ℚ) < call.ratePerMin := by exact_mod_cast positive
    rw [allow_attempt positive reaches]
    simp only [attempt_level _ level, allow_level positive _ rfl]
    revert filled
    generalize RateLimit.filled call.ratePerMin _ _ = amount
    intro filled
    by_cases enough : 1 ≤ amount
    · simp only [if_pos enough, nowMs_moment]
      refine ⟨by simp, .inr ⟨amount - 1, call.ms, by linarith, le_refl _, ?_, ?_⟩⟩
      · exact Function.update_self ..
      · exact Function.update_self ..
    · have wait : (1 - amount) / (call.ratePerMin / 60000) / 1000 =
          (1 - amount) / ((call.ratePerMin : ℚ) / 60) := by
        field_simp
        ring
      simp only [if_neg enough, nowMs_moment, wait]
      refine ⟨by simp, .inr ⟨amount, call.ms, filled, le_refl _, ?_, ?_⟩⟩
      · exact Function.update_self ..
      · exact Function.update_self ..
  · have free : call.ratePerMin ≤ 0 := by omega
    simp only [TokenBucketRateLimiter.allow, RedisTokenBucketRateLimiter.allow, if_pos free]
    exact ⟨trivial, alike.later order⟩

/-- A call leaves what is held for keys of other names. -/
theorem Alike.frame (alike : Alike limiter ms buckets store key) (order : ms ≤ call.ms)
    (apart : safeKey key ≠ safeKey call.key) :
    Alike limiter call.ms
      (TokenBucketRateLimiter.allow call.key call.ratePerMin (call.ms / 1000) buckets).2
      (limiter.allow call.key call.ratePerMin (call.moment eval) store).2 key := by
  have name : key ≠ call.key := fun same => apart (congrArg safeKey same)
  have redisName : limiter.redisKey key ≠ limiter.redisKey call.key :=
    fun same => apart (redisKey_inj.mp same)
  rw [Alike, allow_frame name, redis_frame redisName]
  exact alike.later order

theorem Alike.answers (reaches : ∀ call : Call, (call.moment eval).Reaches)
    (ordered : calls.Pairwise (·.ms ≤ ·.ms)) (since : ∀ call ∈ calls, ms ≤ call.ms)
    (apart : ∀ one ∈ calls, ∀ other ∈ calls, safeKey one.key = safeKey other.key →
      one.key = other.key)
    (alike : ∀ call ∈ calls, Alike limiter ms buckets store call.key) :
    redisAnswers limiter eval calls store = RateLimit.answers calls buckets := by
  induction calls generalizing ms buckets store with
  | nil => rfl
  | cons call later ih =>
    have order := since call List.mem_cons_self
    obtain ⟨answer, held⟩ := (alike call List.mem_cons_self).allow order (reaches call)
    rw [redisAnswers, RateLimit.answers, answer]
    congr 1
    refine ih ordered.of_cons (fun _ member => List.rel_of_pairwise_cons ordered member) ?_ ?_
    · exact fun one first other second =>
        apart one (List.mem_cons_of_mem _ first) other (List.mem_cons_of_mem _ second)
    · intro other member
      by_cases same : safeKey other.key = safeKey call.key
      · rw [apart other (List.mem_cons_of_mem _ member) call List.mem_cons_self same]
        exact held
      · exact (alike other (List.mem_cons_of_mem _ member)).frame order same

/-- The three limiters answer every call of a history alike, where keys that differ are
still different in Redis. -/
theorem limiters_agree (limiter : RedisTokenBucketRateLimiter) (calls : List Call)
    (ordered : calls.Pairwise (·.ms ≤ ·.ms))
    (apart : ∀ one ∈ calls, ∀ other ∈ calls, safeKey one.key = safeKey other.key →
      one.key = other.key) :
    redisAnswers limiter .runs calls (fun _ => none) = answers calls (fun _ => none) ∧
      redisAnswers limiter (.unknownCommand 0) calls (fun _ => none) =
        answers calls (fun _ => none) := by
  have since : ∃ ms : ℤ, ∀ call ∈ calls, ms ≤ call.ms := by
    cases calls with
    | nil => exact ⟨0, by simp⟩
    | cons first later =>
      refine ⟨first.ms, ?_⟩
      intro call member
      rcases List.mem_cons.mp member with rfl | member
      · exact le_refl _
      · exact List.rel_of_pairwise_cons ordered member
  obtain ⟨ms, since⟩ := since
  constructor
  · exact Alike.answers (fun call => trivial) ordered since apart fun _ _ => .inl ⟨rfl, rfl⟩
  · exact Alike.answers (fun call => (by decide : 0 < 5)) ordered since apart
      fun _ _ => .inl ⟨rfl, rfl⟩

theorem two_keys_agree :
    redisAnswers (.make "fcam" "key") .runs [⟨"7", 60, 0⟩, ⟨"8", 0, 5⟩, ⟨"7", 1, 200000⟩]
        (fun _ => none) =
      answers [⟨"7", 60, 0⟩, ⟨"8", 0, 5⟩, ⟨"7", 1, 200000⟩] (fun _ => none) ∧
    redisAnswers (.make "fcam" "key") (.unknownCommand 0)
        [⟨"7", 60, 0⟩, ⟨"8", 0, 5⟩, ⟨"7", 1, 200000⟩] (fun _ => none) =
      answers [⟨"7", 60, 0⟩, ⟨"8", 0, 5⟩, ⟨"7", 1, 200000⟩] (fun _ => none) :=
  limiters_agree _ _ (by decide) (by decide)

/-- Colons around a key are lost in Redis: there two keys share one bucket. -/
theorem colons_disagree :
    answers [⟨"a", 1, 0⟩, ⟨":a", 1, 0⟩] (fun _ => none) = [.ok (true, 0), .ok (true, 0)] ∧
    redisAnswers (.make "fcam" "key") .runs [⟨"a", 1, 0⟩, ⟨":a", 1, 0⟩] (fun _ => none) =
      [.ok (true, 0), .ok (false, 60)] ∧
    redisAnswers (.make "fcam" "key") (.unknownCommand 0) [⟨"a", 1, 0⟩, ⟨":a", 1, 0⟩]
      (fun _ => none) = [.ok (true, 0), .ok (false, 60)] := by
  decide +kernel

end FcamGateway.RateLimit
