import FcamGateway.RateLimit

/-! How many calls a rate limiter allows. A bucket allows its rate, and as much again
for every minute its timestamps go forward. Where they go back and then forward
again, the same minute is counted again. -/
namespace FcamGateway.RateLimit

open TokenBucket

/-- The answers to calls on one key, one after the other. -/
def TokenBucketRateLimiter.run (key : String) (ratePerMin : ℤ) :
    List ℚ → Buckets → List (Bool × ℤ)
  | [], _ => []
  | now :: later, buckets =>
    let done := TokenBucketRateLimiter.allow key ratePerMin now buckets
    done.1 :: TokenBucketRateLimiter.run key ratePerMin later done.2

def RedisTokenBucketRateLimiter.run (limiter : RedisTokenBucketRateLimiter) (key : String)
    (ratePerMin : ℤ) : List Moment → Store → List (Except FcamError (Bool × ℤ))
  | [], _ => []
  | moment :: later, store =>
    let done := limiter.allow key ratePerMin moment store
    done.1 :: limiter.run key ratePerMin later done.2

/-- The calls that are let through. -/
def allowed (answers : List (Bool × ℤ)) : Nat := answers.countP fun answer => answer.1

def allowedRedis (answers : List (Except FcamError (Bool × ℤ))) : Nat :=
  answers.countP fun answer =>
    match answer with
    | .ok (passed, _) => passed
    | .error _ => false

def Moment.stamp (moment : Moment) : ℚ := moment.nowMs / 1000

/-- The seconds that the later of two successive calls finds refilled. A hash that has
expired between them is a full bucket again, as after a minute. -/
def refilled (early late : Moment) : ℚ :=
  if early.clock + 120 * 1000 < late.clock then 60 else ahead early.stamp late.stamp

variable {key : String} {ratePerMin : ℤ} {now last tokens : ℚ} {buckets : Buckets}
  {limiter : RedisTokenBucketRateLimiter} {moment prior : Moment} {store : Store}

/-- What a bucket holds when a call has refilled it. -/
def filled (ratePerMin : ℤ) (tokens seconds : ℚ) : ℚ :=
  min (ratePerMin : ℚ) (tokens + seconds * (ratePerMin / 60))

theorem filled_nonneg {seconds : ℚ} (positive : 0 < ratePerMin) (held : 0 ≤ tokens)
    (passed : 0 ≤ seconds) : 0 ≤ filled ratePerMin tokens seconds := by
  have room : (0 : ℚ) < ratePerMin := by exact_mod_cast positive
  have refill : 0 ≤ seconds * (ratePerMin / 60) := by positivity
  exact le_min room.le (by linarith)

/-- What a call does in memory, by the level its bucket is refilled to. -/
theorem allow_level (positive : 0 < ratePerMin) (level : ℚ)
    (held : filled ratePerMin ((buckets key).getD ⟨ratePerMin, now⟩).tokens
      (ahead ((buckets key).getD ⟨ratePerMin, now⟩).lastRefill now) = level) :
    TokenBucketRateLimiter.allow key ratePerMin now buckets =
      if 1 ≤ level then ((true, 0), Function.update buckets key (some ⟨level - 1, now⟩))
      else ((false, max ⌈(1 - level) / (ratePerMin / 60)⌉ 1),
        Function.update buckets key (some ⟨level, now⟩)) := by
  have taken : ¬ ratePerMin ≤ 0 := by omega
  simp only [TokenBucketRateLimiter.allow, if_neg taken, ← held, filled, ahead]

theorem allow_filled (positive : 0 < ratePerMin) (now : ℚ) (buckets : Buckets) (bucket : Bucket)
    (there : (buckets key).getD ⟨ratePerMin, now⟩ = bucket) :
    let level := filled ratePerMin bucket.tokens (ahead bucket.lastRefill now)
    let done := TokenBucketRateLimiter.allow key ratePerMin now buckets
    done.1.1 = decide (1 ≤ level) ∧ done.2 key = some ⟨remaining level, now⟩ := by
  subst there
  simp only [allow_level positive _ rfl]
  split
  · rename_i enough
    simp [enough, remaining]
  · rename_i short
    simp [short, remaining]

theorem allowed_cons (answer : Bool × ℤ) (answers : List (Bool × ℤ)) :
    allowed (answer :: answers) = allowed answers + if answer.1 then 1 else 0 := by
  simp [allowed, List.countP_cons]

/-- From a bucket that is there on, the calls allowed are those granted. -/
theorem run_granted (positive : 0 < ratePerMin) (later : List ℚ)
    (there : buckets key = some ⟨tokens, last⟩) :
    allowed (TokenBucketRateLimiter.run key ratePerMin later buckets) =
      granted (ratePerMin : ℚ) tokens
        ((gaps ahead (last :: later)).map (· * ((ratePerMin : ℚ) / 60))) := by
  induction later generalizing buckets tokens last with
  | nil => rfl
  | cons now later ih =>
    obtain ⟨answer, next⟩ := allow_filled positive now buckets ⟨tokens, last⟩
      (show (buckets key).getD _ = _ by rw [there]; rfl)
    rw [TokenBucketRateLimiter.run, allowed_cons, ih next, answer]
    simp [granted, gaps, filled]

/-- A bucket allows its rate, and as much again for every minute forward. -/
theorem allowed_le_forward (positive : 0 < ratePerMin) (times : List ℚ)
    (sound : ∀ bucket, buckets key = some bucket → 0 ≤ bucket.tokens) :
    (allowed (TokenBucketRateLimiter.run key ratePerMin times buckets) : ℚ) ≤
      ratePerMin + forward times * (ratePerMin / 60) := by
  have room : (0 : ℚ) < ratePerMin := by exact_mod_cast positive
  cases times with
  | nil => simpa [TokenBucketRateLimiter.run, allowed, forward, gaps] using positive.le
  | cons now later =>
    obtain ⟨answer, next⟩ := allow_filled positive now buckets ((buckets key).getD ⟨ratePerMin, now⟩) rfl
    have held : 0 ≤ ((buckets key).getD ⟨ratePerMin, now⟩).tokens := by
      cases here : buckets key with
      | none => exact room.le
      | some bucket => exact sound bucket here
    have level := filled_nonneg positive held
      (ahead_nonneg ((buckets key).getD ⟨ratePerMin, now⟩).lastRefill now)
    have bound := granted_remaining_le level (min_le_left _ _)
      (by positivity : (0 : ℚ) ≤ ratePerMin / 60) (gaps_nonneg ahead_nonneg (now :: later))
    rw [TokenBucketRateLimiter.run, allowed_cons, run_granted positive later next, answer]
    simpa [forward] using bound

/-- The tokens a call finds in Redis and the seconds it refills. -/
def refill (ratePerMin : ℤ) (moment : Moment) : Option Hash → ℚ × ℚ
  | none => (ratePerMin, 0)
  | some hash => (hash.tokens, ahead (hash.last / 1000) moment.stamp)

theorem ahead_ms (last now : ℤ) (rate : ℚ) :
    ((max (now - last) 0 : ℤ) : ℚ) * (rate / 60000) = ahead ((last : ℚ) / 1000) (now / 1000) * (rate / 60) := by
  rw [ahead]
  by_cases back : now - last ≤ 0
  · have order : (now : ℚ) - last ≤ 0 := by exact_mod_cast back
    rw [max_eq_right back, max_eq_right (by linarith)]
    simp
  · have order : 0 ≤ (now : ℚ) - last := by exact_mod_cast (not_le.mp back).le
    rw [max_eq_left (by omega), max_eq_left (by linarith)]
    push_cast
    ring

/-- What a call does in Redis, by the level its hash is refilled to. -/
theorem attempt_level (level : ℚ) {redisKey : String}
    (held : filled ratePerMin (refill ratePerMin moment (found store redisKey moment.clock)).1
      (refill ratePerMin moment (found store redisKey moment.clock)).2 = level) :
    attempt redisKey moment.nowMs ratePerMin (ratePerMin / 60000) moment.clock store =
      if 1 ≤ level then ((1, 0), Function.update store redisKey
        (some ⟨level - 1, moment.nowMs, moment.clock + 120 * 1000⟩))
      else ((0, max ⌈(1 - level) / (ratePerMin / 60000) / 1000⌉ 1), Function.update store redisKey
        (some ⟨level, moment.nowMs, moment.clock + 120 * 1000⟩)) := by
  have same : ∀ data : Option Hash,
      min (ratePerMin : ℚ) ((data.map Hash.tokens).getD ratePerMin +
        (max (moment.nowMs - (data.map Hash.last).getD moment.nowMs) 0 : ℤ) *
          ((ratePerMin : ℚ) / 60000)) =
      filled ratePerMin (refill ratePerMin moment data).1 (refill ratePerMin moment data).2 := by
    intro data
    rw [ahead_ms]
    cases data with
    | none => simp [filled, refill, ahead]
    | some hash => rfl
  simp only [attempt, same, held]

theorem attempt_filled (limiter : RedisTokenBucketRateLimiter) (key : String) (store : Store)
    (positive : 0 < ratePerMin) (reaches : moment.Reaches) :
    let held := refill ratePerMin moment (found store (limiter.redisKey key) moment.clock)
    let level := filled ratePerMin held.1 held.2
    let done := limiter.allow key ratePerMin moment store
    (∃ retryAfter, done.1 = .ok (decide (1 ≤ level), retryAfter)) ∧
      done.2 (limiter.redisKey key) =
        some ⟨remaining level, moment.nowMs, moment.clock + 120 * 1000⟩ := by
  rw [allow_attempt positive reaches]
  simp only [attempt_level _ rfl]
  split
  · rename_i enough
    simp [enough, remaining]
  · rename_i short
    simp [short, remaining]

theorem allowedRedis_cons (answer : Except FcamError (Bool × ℤ))
    (answers : List (Except FcamError (Bool × ℤ))) :
    allowedRedis (answer :: answers) = allowedRedis answers + allowedRedis [answer] := by
  simp [allowedRedis, List.countP_cons]

theorem refilled_nonneg (early late : Moment) : 0 ≤ refilled early late := by
  rw [refilled]
  split
  · norm_num
  · exact ahead_nonneg _ _

/-- An expired hash is as good as one that a minute has refilled. -/
theorem filled_found (moment : Moment) (positive : 0 < ratePerMin) (held : 0 ≤ tokens) {redisKey : String}
    (there : store redisKey = some ⟨tokens, prior.nowMs, prior.clock + 120 * 1000⟩) :
    filled ratePerMin (refill ratePerMin moment (found store redisKey moment.clock)).1
        (refill ratePerMin moment (found store redisKey moment.clock)).2 =
      filled ratePerMin tokens (refilled prior moment) := by
  have room : (0 : ℚ) < ratePerMin := by exact_mod_cast positive
  rw [refilled]
  by_cases expired : prior.clock + 120 * 1000 < moment.clock
  · rw [found_expired there expired, if_pos expired]
    simp only [filled, refill]
    rw [min_eq_left (by linarith), min_eq_left (by linarith)]
  · rw [found_live there (not_lt.mp expired), if_neg expired]
    rfl

theorem redis_run_granted (positive : 0 < ratePerMin) (later : List Moment) (held : 0 ≤ tokens)
    (there : store (limiter.redisKey key) =
      some ⟨tokens, prior.nowMs, prior.clock + 120 * 1000⟩) :
    allowedRedis (limiter.run key ratePerMin later store) =
      granted (ratePerMin : ℚ) tokens
        ((gaps refilled (prior :: later.filter Moment.Reaches)).map
          (· * ((ratePerMin : ℚ) / 60))) := by
  induction later generalizing store tokens prior with
  | nil => rfl
  | cons moment later ih =>
    rw [RedisTokenBucketRateLimiter.run, allowedRedis_cons]
    by_cases reaches : moment.Reaches
    · obtain ⟨⟨retryAfter, answer⟩, next⟩ :=
        attempt_filled limiter key store positive reaches
      have level := filled_found moment positive held there
      have kept := filled_nonneg positive held (refilled_nonneg prior moment)
      rw [level] at answer next
      rw [ih (remaining_nonneg kept) next, answer]
      simp [granted, gaps, filled, reaches, allowedRedis, List.countP_cons]
    · rw [allow_unreached positive reaches, ih held there]
      simp [reaches, allowedRedis]

theorem allowedRedis_le_refilled (positive : 0 < ratePerMin) (moments : List Moment)
    (sound : ∀ hash, store (limiter.redisKey key) = some hash → 0 ≤ hash.tokens) :
    (allowedRedis (limiter.run key ratePerMin moments store) : ℚ) ≤
      ratePerMin + (gaps refilled (moments.filter Moment.Reaches)).sum * (ratePerMin / 60) := by
  have room : (0 : ℚ) < ratePerMin := by exact_mod_cast positive
  induction moments with
  | nil => simpa [RedisTokenBucketRateLimiter.run, allowedRedis, gaps] using positive.le
  | cons moment later ih =>
    rw [RedisTokenBucketRateLimiter.run, allowedRedis_cons]
    by_cases reaches : moment.Reaches
    · obtain ⟨⟨retryAfter, answer⟩, next⟩ :=
        attempt_filled limiter key store positive reaches
      have level : 0 ≤ filled ratePerMin
          (refill ratePerMin moment (found store (limiter.redisKey key) moment.clock)).1
          (refill ratePerMin moment (found store (limiter.redisKey key) moment.clock)).2 := by
        cases data : found store (limiter.redisKey key) moment.clock with
        | none => exact filled_nonneg positive room.le (le_refl 0)
        | some hash =>
          have there := (Option.filter_eq_some_iff.mp data).1
          exact filled_nonneg positive (sound hash there) (ahead_nonneg _ _)
      have bound := granted_remaining_le level (min_le_left _ _)
        (by positivity : (0 : ℚ) ≤ ratePerMin / 60)
        (gaps_nonneg refilled_nonneg (moment :: later.filter Moment.Reaches))
      rw [redis_run_granted positive later (remaining_nonneg level) next, answer]
      simpa [reaches, allowedRedis, List.countP_cons] using bound
    · rw [allow_unreached positive reaches]
      simpa [reaches, allowedRedis] using ih

/-- A limiter allows its rate and as much again for every minute between the least and
the greatest timestamp, provided that the timestamps go forward no further than that
altogether. -/
theorem allowed_le_spread (positive : 0 < ratePerMin) :
    (∀ (key : String) (times : List ℚ) (buckets : Buckets),
      (∀ bucket, buckets key = some bucket → 0 ≤ bucket.tokens) →
      forward times ≤ spread times →
      (allowed (TokenBucketRateLimiter.run key ratePerMin times buckets) : ℚ) ≤
        ratePerMin + ratePerMin * spread times / 60) ∧
    (∀ (limiter : RedisTokenBucketRateLimiter) (key : String) (moments : List Moment) (store : Store),
      (∀ hash, store (limiter.redisKey key) = some hash → 0 ≤ hash.tokens) →
      (gaps refilled (moments.filter Moment.Reaches)).sum ≤
        spread ((moments.filter Moment.Reaches).map Moment.stamp) →
      (allowedRedis (limiter.run key ratePerMin moments store) : ℚ) ≤
        ratePerMin +
          ratePerMin * spread ((moments.filter Moment.Reaches).map Moment.stamp) / 60) := by
  have room : (0 : ℚ) < ratePerMin := by exact_mod_cast positive
  have scaled : ∀ sum bound : ℚ, sum ≤ bound →
      ratePerMin + sum * ((ratePerMin : ℚ) / 60) ≤ ratePerMin + ratePerMin * bound / 60 := by
    intro sum bound less
    have product : sum * (ratePerMin / 60) ≤ bound * ((ratePerMin : ℚ) / 60) :=
      mul_le_mul_of_nonneg_right less (by positivity)
    linarith
  constructor
  · intro key times buckets sound steady
    exact (allowed_le_forward positive times sound).trans (scaled _ _ steady)
  · intro limiter key moments store sound steady
    exact (allowedRedis_le_refilled positive moments sound).trans (scaled _ _ steady)

/-- Timestamps that never go back meet the condition. -/
theorem allowed_of_ascending (positive : 0 < ratePerMin) (times : List ℚ)
    (ascending : times.Pairwise (· ≤ ·)) :
    (allowed (TokenBucketRateLimiter.run key ratePerMin times fun _ => none) : ℚ) ≤
      ratePerMin + ratePerMin * spread times / 60 := by
  refine (allowed_le_spread positive).1 key times (fun _ => none) ?_
    (forward_of_ascending ascending)
  intro bucket there
  cases there

/-- Where all instances and the server share one clock, an expired hash is no extra
refill. -/
theorem refilled_le_forward (moments : List Moment) (skew : ℤ)
    (shared : ∀ moment ∈ moments, moment.clock = moment.nowMs + skew) :
    (gaps refilled moments).sum ≤ forward (moments.map Moment.stamp) := by
  induction moments with
  | nil => simp [gaps, forward]
  | cons early later ih =>
    have rest := ih fun moment member => shared moment (List.mem_cons_of_mem _ member)
    cases later with
    | nil => simp [gaps, forward]
    | cons late later =>
      have first : refilled early late ≤ ahead early.stamp late.stamp := by
        rw [refilled]
        split
        · rename_i expired
          rw [shared early (by simp), shared late (by simp)] at expired
          have apart : early.nowMs + 120 * 1000 < late.nowMs := by omega
          have stamps : (early.nowMs : ℚ) + 120 * 1000 < late.nowMs := by exact_mod_cast apart
          rw [ahead, Moment.stamp, Moment.stamp]
          apply le_max_of_le_left
          linarith
        · exact le_refl _
      simp only [gaps, List.sum_cons, List.map_cons, forward] at rest ⊢
      linarith

theorem allowedRedis_of_one_clock (positive : 0 < ratePerMin) (moments : List Moment) (skew : ℤ)
    (shared : ∀ moment ∈ moments, moment.clock = moment.nowMs + skew)
    (reaching : ∀ moment ∈ moments, moment.Reaches)
    (ascending : (moments.map Moment.stamp).Pairwise (· ≤ ·)) :
    (allowedRedis (limiter.run key ratePerMin moments fun _ => none) : ℚ) ≤
      ratePerMin + ratePerMin * spread (moments.map Moment.stamp) / 60 := by
  have all : moments.filter Moment.Reaches = moments :=
    List.filter_eq_self.mpr fun moment member => by simpa using reaching moment member
  have bound := (allowed_le_spread positive).2 limiter key moments (fun _ => none)
    (fun hash there => by cases there)
  rw [all] at bound
  exact bound ((refilled_le_forward moments skew shared).trans (forward_of_ascending ascending))

/-- A call of an instance that serves the script, at a millisecond of its own clock. -/
def scripted (nowMs clock : ℤ) : Moment := ⟨nowMs / 1000, clock, .runs⟩

theorem allowed_two_minutes :
    (allowed (TokenBucketRateLimiter.run "7" 1 [0, 60, 120] fun _ => none) : ℚ) ≤
      (1 : ℤ) + (1 : ℤ) * spread [0, 60, 120] / 60 ∧
    (allowedRedis ((RedisTokenBucketRateLimiter.make "fcam" "client").run "7" 1
      [scripted 0 0, scripted 60000 60000] fun _ => none) : ℚ) ≤
      (1 : ℤ) + (1 : ℤ) * spread (([scripted 0 0, scripted 60000 60000].filter
        Moment.Reaches).map Moment.stamp) / 60 := by
  constructor
  · refine (allowed_le_spread (by decide)).1 "7" _ _ ?_ (by decide +kernel)
    intro bucket there
    cases there
  · refine (allowed_le_spread (by decide)).2 _ "7" _ _ ?_ (by decide +kernel)
    intro hash there
    cases there

/-- One call a minute is the rate, yet three of four calls within one minute are let
through where every other timestamp is a minute behind. -/
theorem skewed_minute_allows_three :
    allowed (TokenBucketRateLimiter.run "7" 1 [0, 60, 0, 60] fun _ => none) = 3 ∧
    (∀ eval ∈ [Eval.runs, Eval.unknownCommand 0],
      allowedRedis ((RedisTokenBucketRateLimiter.make "fcam" "client").run "7" 1
        [⟨0, 0, eval⟩, ⟨60, 1, eval⟩, ⟨0, 2, eval⟩, ⟨60, 3, eval⟩] fun _ => none) = 3) ∧
    ¬ (3 : ℚ) ≤ (1 : ℤ) + (1 : ℤ) * spread [0, 60, 0, 60] / 60 := by
  decide +kernel

end FcamGateway.RateLimit
