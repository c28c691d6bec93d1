import FcamGateway.RateLimitBound
import Mathlib.Data.Finset.Dedup
import Mathlib.Data.Finset.Order

/-! The limiter in memory under calls of both kinds, `allow` and `peek`, whose times never
go back. Between calls a bucket only fills: what a later instant finds is what an earlier
one found and the refill since (`level_later`). -/
namespace FcamGateway.RateLimit

open TokenBucket

/-- `TokenBucketRateLimiter.peek`. -/
def TokenBucketRateLimiter.peek (key : String) (ratePerMin : ℤ) (now : ℚ) (buckets : Buckets) :
    Bool × ℤ :=
  if ratePerMin ≤ 0 then (true, 0)
  else
    let capacity : ℚ := ratePerMin
    let refillPerSec := capacity / 60
    match buckets key with
    | none => (true, 0)
    | some bucket =>
      let elapsed := max (now - bucket.lastRefill) 0
      let tokens := min capacity (bucket.tokens + elapsed * refillPerSec)
      if 1 ≤ tokens then (true, 0)
      else
        let needed := 1 - tokens
        let retryAfter := ⌈needed / refillPerSec⌉
        (false, max retryAfter 1)

/-- A call and the clock it reads. -/
inductive Query where
  | allow (now : ℚ)
  | peek (now : ℚ)
deriving DecidableEq

def Query.time : Query → ℚ
  | .allow now => now
  | .peek now => now

def Query.Peeks (call : Query) : Prop := call = .peek call.time

instance : DecidablePred Query.Peeks := fun _ => inferInstanceAs (Decidable (_ = _))

/-- No call reads an earlier clock than a call before it. -/
def Ascending (calls : List Query) : Prop :=
  calls.Pairwise fun early late => early.time ≤ late.time

instance : DecidablePred Ascending := fun calls =>
  inferInstanceAs (Decidable (calls.Pairwise _))

/-- What a call answers and leaves. -/
def TokenBucketRateLimiter.call (key : String) (ratePerMin : ℤ) (buckets : Buckets) :
    Query → (Bool × ℤ) × Buckets
  | .allow now => TokenBucketRateLimiter.allow key ratePerMin now buckets
  | .peek now => (TokenBucketRateLimiter.peek key ratePerMin now buckets, buckets)

/-- The buckets after a sequence of calls. -/
def TokenBucketRateLimiter.after (key : String) (ratePerMin : ℤ) (buckets : Buckets)
    (calls : List Query) : Buckets :=
  calls.foldl (fun buckets call => (TokenBucketRateLimiter.call key ratePerMin buckets call).2)
    buckets

/-- The calls of a sequence and the answers to them. -/
def TokenBucketRateLimiter.answers (key : String) (ratePerMin : ℤ) :
    List Query → Buckets → List (Query × Bool × ℤ)
  | [], _ => []
  | call :: calls, buckets =>
    let done := TokenBucketRateLimiter.call key ratePerMin buckets call
    (call, done.1) :: TokenBucketRateLimiter.answers key ratePerMin calls done.2

/-- A call to `allow` that is let through. -/
def passes : Query × Bool × ℤ → Bool
  | (.allow _, passed, _) => passed
  | (.peek _, _) => false

/-- How many calls are let through from `start` to `stop`. -/
def allowedWithin (start stop : ℚ) (answers : List (Query × Bool × ℤ)) : Nat :=
  answers.countP fun entry =>
    passes entry && decide (start ≤ entry.1.time ∧ entry.1.time ≤ stop)

/-- What a call on the key finds at an instant. -/
def level (key : String) (ratePerMin : ℤ) (buckets : Buckets) (now : ℚ) : ℚ :=
  filled ratePerMin ((buckets key).getD ⟨ratePerMin, now⟩).tokens
    (ahead ((buckets key).getD ⟨ratePerMin, now⟩).lastRefill now)

/-- The key's bucket holds what it may, and no later clock has touched it. -/
def Held (key : String) (ratePerMin : ℤ) (buckets : Buckets) (now : ℚ) : Prop :=
  ∀ bucket, buckets key = some bucket →
    0 ≤ bucket.tokens ∧ bucket.tokens ≤ ratePerMin ∧ bucket.lastRefill ≤ now

/-- What is answered to a call that finds a level. -/
def answer (ratePerMin : ℤ) (level : ℚ) : Bool × ℤ :=
  if 1 ≤ level then (true, 0) else (false, max ⌈(1 - level) / (ratePerMin / 60)⌉ 1)

variable {key : String} {ratePerMin : ℤ} {buckets : Buckets} {now later : ℚ} {call : Query}
  {calls : List Query}

theorem level_some {bucket : Bucket} (there : buckets key = some bucket) :
    level key ratePerMin buckets now =
      filled ratePerMin bucket.tokens (ahead bucket.lastRefill now) := by
  rw [level, there, Option.getD_some]

theorem level_none (missing : buckets key = none) :
    level key ratePerMin buckets now = ratePerMin := by
  rw [level, missing, Option.getD_none]
  simp [filled, ahead]

theorem level_le (key : String) (ratePerMin : ℤ) (buckets : Buckets) (now : ℚ) :
    level key ratePerMin buckets now ≤ ratePerMin := min_le_left _ _

theorem level_nonneg (positive : 0 < ratePerMin) (held : Held key ratePerMin buckets now) :
    0 ≤ level key ratePerMin buckets now := by
  cases there : buckets key with
  | none =>
    rw [level_none there]
    exact_mod_cast positive.le
  | some bucket =>
    rw [level_some there]
    exact filled_nonneg positive (held bucket there).1 (ahead_nonneg _ _)

/-- A bucket that is refilled twice is refilled for both stretches. -/
theorem filled_filled {tokens first second : ℚ} (positive : 0 < ratePerMin)
    (passed : 0 ≤ second) :
    filled ratePerMin (filled ratePerMin tokens first) second =
      filled ratePerMin tokens (first + second) := by
  have room : (0 : ℚ) < ratePerMin := by exact_mod_cast positive
  have refill : 0 ≤ second * ((ratePerMin : ℚ) / 60) := by positivity
  simp only [filled, min_add, add_mul, ← add_assoc, ← min_assoc]
  rw [min_eq_left (by linarith : (ratePerMin : ℚ) ≤ ratePerMin + second * (ratePerMin / 60))]

theorem level_later (positive : 0 < ratePerMin) (held : Held key ratePerMin buckets now)
    (order : now ≤ later) :
    level key ratePerMin buckets later =
      filled ratePerMin (level key ratePerMin buckets now) (later - now) := by
  have passed : 0 ≤ later - now := by linarith
  cases there : buckets key with
  | none =>
    have room : (0 : ℚ) < ratePerMin := by exact_mod_cast positive
    have refill : 0 ≤ (later - now) * ((ratePerMin : ℚ) / 60) := by positivity
    rw [level_none there, level_none there, filled, min_eq_left (by linarith)]
  | some bucket =>
    have touched : bucket.lastRefill ≤ now := (held bucket there).2.2
    rw [level_some there, level_some there, filled_filled positive passed]
    simp only [ahead]
    rw [max_eq_left (by linarith), max_eq_left (by linarith)]
    congr 1
    ring

theorem allow_answer (positive : 0 < ratePerMin) :
    TokenBucketRateLimiter.allow key ratePerMin now buckets =
      (answer ratePerMin (level key ratePerMin buckets now),
        Function.update buckets key
          (some ⟨remaining (level key ratePerMin buckets now), now⟩)) := by
  rw [allow_level positive (level key ratePerMin buckets now) rfl, answer, remaining]
  split <;> rfl

theorem peek_answer (positive : 0 < ratePerMin) :
    TokenBucketRateLimiter.peek key ratePerMin now buckets =
      answer ratePerMin (level key ratePerMin buckets now) := by
  have taken : ¬ ratePerMin ≤ 0 := by omega
  cases there : buckets key with
  | none =>
    have whole : (1 : ℚ) ≤ ratePerMin := by exact_mod_cast positive
    rw [level_none there, answer, if_pos whole]
    simp only [TokenBucketRateLimiter.peek, if_neg taken, there]
  | some bucket =>
    rw [level_some there]
    simp only [TokenBucketRateLimiter.peek, if_neg taken, there, answer, filled, ahead]
    rfl

/-- Either kind of call is answered by the level it finds. -/
theorem call_answer (positive : 0 < ratePerMin) :
    (TokenBucketRateLimiter.call key ratePerMin buckets call).1 =
      answer ratePerMin (level key ratePerMin buckets call.time) := by
  cases call with
  | allow now => rw [TokenBucketRateLimiter.call, allow_answer positive, Query.time]
  | peek now => rw [TokenBucketRateLimiter.call, peek_answer positive, Query.time]

theorem held_later (held : Held key ratePerMin buckets now) (order : now ≤ later) :
    Held key ratePerMin buckets later := by
  intro bucket there
  obtain ⟨filled, room, touched⟩ := held bucket there
  exact ⟨filled, room, touched.trans order⟩

theorem held_call (positive : 0 < ratePerMin) (held : Held key ratePerMin buckets call.time) :
    Held key ratePerMin (TokenBucketRateLimiter.call key ratePerMin buckets call).2 call.time := by
  cases call with
  | allow now =>
    intro bucket there
    simp only [TokenBucketRateLimiter.call, allow_answer positive, Function.update_self,
      Option.some.injEq] at there
    subst there
    have least := level_nonneg positive held
    have most := level_le key ratePerMin buckets now
    refine ⟨remaining_nonneg least, ?_, le_refl _⟩
    simp only [remaining]
    split <;> linarith
  | peek now => exact held

/-- What a call leaves is what it found, less the token of a call let through. -/
theorem level_call (positive : 0 < ratePerMin) (held : Held key ratePerMin buckets call.time) :
    let done := TokenBucketRateLimiter.call key ratePerMin buckets call
    level key ratePerMin done.2 call.time + (if passes (call, done.1) then 1 else 0) =
      level key ratePerMin buckets call.time := by
  cases call with
  | allow now =>
    have least := level_nonneg positive held
    have most := level_le key ratePerMin buckets now
    simp only [TokenBucketRateLimiter.call, allow_answer positive, Query.time, passes, answer]
    rw [level_some (Function.update_self ..), remaining]
    split
    · simp only [filled, ahead, sub_self, max_self, zero_mul, add_zero, if_true]
      rw [min_eq_right (by linarith)]
      ring
    · simp [filled, ahead, most]
  | peek now => simp [TokenBucketRateLimiter.call, passes]

theorem answers_calls :
    (TokenBucketRateLimiter.answers key ratePerMin calls buckets).map Prod.fst = calls := by
  induction calls generalizing buckets with
  | nil => rfl
  | cons call calls ih => simp only [TokenBucketRateLimiter.answers, List.map_cons, ih]

@[simp]
theorem after_cons :
    TokenBucketRateLimiter.after key ratePerMin buckets (call :: calls) =
      TokenBucketRateLimiter.after key ratePerMin
        (TokenBucketRateLimiter.call key ratePerMin buckets call).2 calls := rfl

theorem allowedWithin_cons (start stop : ℚ) (entry : Query × Bool × ℤ)
    (answers : List (Query × Bool × ℤ)) :
    allowedWithin start stop (entry :: answers) = allowedWithin start stop answers +
      if passes entry ∧ start ≤ entry.1.time ∧ entry.1.time ≤ stop then 1 else 0 := by
  simp [allowedWithin, List.countP_cons]

/-- Calls after an interval do not count in it. -/
theorem allowedWithin_beyond (start stop : ℚ) (beyond : ∀ call ∈ calls, stop < call.time) :
    allowedWithin start stop (TokenBucketRateLimiter.answers key ratePerMin calls buckets) = 0 := by
  apply List.countP_eq_zero.mpr
  intro entry listed
  have named : entry.1 ∈ calls := by
    have mapped := List.mem_map_of_mem (f := Prod.fst) listed
    rwa [answers_calls] at mapped
  have late := beyond entry.1 named
  simp [late]

/-- The bucket of a key stays sound over a sequence of calls. -/
theorem held_after (positive : 0 < ratePerMin) (held : Held key ratePerMin buckets now)
    (ascending : Ascending calls) (since : ∀ call ∈ calls, now ≤ call.time)
    (ended : ∀ call ∈ calls, call.time ≤ later) (order : now ≤ later) :
    Held key ratePerMin (TokenBucketRateLimiter.after key ratePerMin buckets calls) later := by
  induction calls generalizing buckets now with
  | nil => exact held_later held order
  | cons call calls ih =>
    have found := held_later held (since call List.mem_cons_self)
    rw [after_cons]
    apply ih (held_call positive found) ascending.of_cons
    · exact fun next member => List.rel_of_pairwise_cons ascending member
    · exact fun next member => ended next (List.mem_cons_of_mem _ member)
    · exact ended call List.mem_cons_self

/-- Calls up to an instant take no more than the first of them could have found and the
refill since. -/
theorem allowed_until (positive : 0 < ratePerMin) (held : Held key ratePerMin buckets now)
    (ascending : Ascending calls) (since : ∀ call ∈ calls, now ≤ call.time) (start stop : ℚ)
    (order : now ≤ stop) :
    (allowedWithin start stop (TokenBucketRateLimiter.answers key ratePerMin calls buckets) : ℚ) ≤
      level key ratePerMin buckets now + (stop - now) * (ratePerMin / 60) := by
  have room : (0 : ℚ) < ratePerMin := by exact_mod_cast positive
  have steady : (0 : ℚ) < ratePerMin / 60 := by positivity
  induction calls generalizing buckets now with
  | nil =>
    have least := level_nonneg positive held
    have refill := mul_nonneg (by linarith : 0 ≤ stop - now) steady.le
    simp only [TokenBucketRateLimiter.answers, allowedWithin, List.countP_nil, Nat.cast_zero]
    linarith
  | cons call calls ih =>
    have early : now ≤ call.time := since call List.mem_cons_self
    have next : ∀ other ∈ calls, call.time ≤ other.time := fun other member =>
      List.rel_of_pairwise_cons ascending member
    by_cases inside : call.time ≤ stop
    · have found := held_later held early
      have rest := ih (held_call positive found) ascending.of_cons next inside
      have taken := level_call positive found
      have grown : level key ratePerMin buckets call.time ≤
          level key ratePerMin buckets now + (call.time - now) * (ratePerMin / 60) := by
        rw [level_later positive held early]
        exact min_le_right _ _
      rw [TokenBucketRateLimiter.answers, allowedWithin_cons]
      push_cast
      have counted : (if passes (call, (TokenBucketRateLimiter.call key ratePerMin buckets call).1)
          ∧ start ≤ call.time ∧ call.time ≤ stop then (1 : ℚ) else 0) ≤
          if passes (call, (TokenBucketRateLimiter.call key ratePerMin buckets call).1)
          then 1 else 0 := by
        split_ifs with both passed
        · exact le_refl _
        · exact absurd both.1 passed
        · exact zero_le_one
        · exact le_refl _
      have stretch : (stop - now) * ((ratePerMin : ℚ) / 60) =
          (call.time - now) * (ratePerMin / 60) + (stop - call.time) * (ratePerMin / 60) := by ring
      linarith
    · have beyond : ∀ other ∈ call :: calls, stop < other.time := by
        intro other member
        rcases List.mem_cons.mp member with rfl | member
        · exact not_le.mp inside
        · exact (not_le.mp inside).trans_le (next other member)
      have least := level_nonneg positive held
      have refill := mul_nonneg (by linarith : 0 ≤ stop - now) steady.le
      rw [allowedWithin_beyond start stop beyond, Nat.cast_zero]
      linarith

/-- Within an interval a bucket allows its rate, and the refill of the interval. -/
theorem allowed_within (positive : 0 < ratePerMin) (held : Held key ratePerMin buckets now)
    (ascending : Ascending calls) (since : ∀ call ∈ calls, now ≤ call.time) (start stop : ℚ)
    (order : start ≤ stop) :
    (allowedWithin start stop (TokenBucketRateLimiter.answers key ratePerMin calls buckets) : ℚ) ≤
      ratePerMin + (stop - start) * (ratePerMin / 60) := by
  have room : (0 : ℚ) < ratePerMin := by exact_mod_cast positive
  have steady : (0 : ℚ) < ratePerMin / 60 := by positivity
  have refill := mul_nonneg (by linarith : 0 ≤ stop - start) steady.le
  induction calls generalizing buckets now with
  | nil =>
    simp only [TokenBucketRateLimiter.answers, allowedWithin, List.countP_nil, Nat.cast_zero]
    linarith
  | cons call calls ih =>
    have found := held_later held (since call List.mem_cons_self)
    have next : ∀ other ∈ calls, call.time ≤ other.time := fun other member =>
      List.rel_of_pairwise_cons ascending member
    by_cases early : call.time < start
    · have rest := ih (held_call positive found) ascending.of_cons next
      rw [TokenBucketRateLimiter.answers, allowedWithin_cons, if_neg (by simp [early])]
      simpa using rest
    · have here : ∀ other ∈ call :: calls, call.time ≤ other.time := by
        intro other member
        rcases List.mem_cons.mp member with rfl | member
        · exact le_refl _
        · exact next other member
      by_cases inside : call.time ≤ stop
      · have bound := allowed_until positive found ascending here start stop inside
        have most := level_le key ratePerMin buckets call.time
        have shorter := mul_le_mul_of_nonneg_right
          (by linarith [not_lt.mp early] : stop - call.time ≤ stop - start) steady.le
        linarith
      · have beyond : ∀ other ∈ call :: calls, stop < other.time := fun other member =>
          (not_le.mp inside).trans_le (here other member)
        rw [allowedWithin_beyond start stop beyond, Nat.cast_zero]
        linarith

/-- A peek leaves no trace: without it, the other calls of a sequence are answered alike. -/
theorem answers_peek (before after : List Query) (now : ℚ) :
    TokenBucketRateLimiter.answers key ratePerMin (before ++ after) buckets =
      (TokenBucketRateLimiter.answers key ratePerMin (before ++ .peek now :: after)
        buckets).eraseIdx before.length := by
  induction before generalizing buckets with
  | nil => rfl
  | cons call before ih =>
    simp only [List.cons_append, TokenBucketRateLimiter.answers, List.length_cons,
      List.eraseIdx_cons_succ, ih]

theorem after_peeks (peeks : ∀ call ∈ calls, call.Peeks) :
    TokenBucketRateLimiter.after key ratePerMin buckets calls = buckets := by
  induction calls with
  | nil => rfl
  | cons call calls ih =>
    rw [after_cons, peeks call List.mem_cons_self, TokenBucketRateLimiter.call]
    exact ih fun next member => peeks next (List.mem_cons_of_mem _ member)

theorem answer_refused {found : ℚ} {retryAfter : ℤ}
    (refused : answer ratePerMin found = (false, retryAfter)) :
    1 ≤ retryAfter ∧ (1 - found) / ((ratePerMin : ℚ) / 60) ≤ retryAfter := by
  rw [answer] at refused
  split at refused
  · cases refused
  · have named : max ⌈(1 - found) / ((ratePerMin : ℚ) / 60)⌉ 1 = retryAfter :=
      congrArg Prod.snd refused
    have most : ⌈(1 - found) / ((ratePerMin : ℚ) / 60)⌉ ≤ retryAfter := by omega
    exact ⟨by omega, (Int.le_ceil _).trans (by exact_mod_cast most)⟩

/-- The hint to a refused call is enough: the bucket holds a token again by then. -/
theorem answer_refilled {found seconds : ℚ} {retryAfter : ℤ} (positive : 0 < ratePerMin)
    (refused : answer ratePerMin found = (false, retryAfter))
    (waited : (retryAfter : ℚ) ≤ seconds) :
    answer ratePerMin (filled ratePerMin found seconds) = (true, 0) := by
  have room : (1 : ℚ) ≤ ratePerMin := by exact_mod_cast positive
  have steady : (0 : ℚ) < ratePerMin / 60 := by positivity
  have hint := (answer_refused refused).2.trans waited
  have needed : 1 - found ≤ seconds * (ratePerMin / 60) := (div_le_iff₀ steady).mp hint
  have enough : 1 ≤ filled ratePerMin found seconds := le_min room (by linarith)
  rw [answer, if_pos enough]

theorem allow_refilled {refused : Query} {retryAfter : ℤ} (positive : 0 < ratePerMin)
    (held : Held key ratePerMin buckets refused.time)
    (answered : (TokenBucketRateLimiter.call key ratePerMin buckets refused).1 =
      (false, retryAfter))
    (waited : refused.time + retryAfter ≤ now) :
    (TokenBucketRateLimiter.allow key ratePerMin now
      (TokenBucketRateLimiter.call key ratePerMin buckets refused).2).1 = (true, 0) := by
  have kept : level key ratePerMin (TokenBucketRateLimiter.call key ratePerMin buckets refused).2
      refused.time = level key ratePerMin buckets refused.time := by
    have taken := level_call positive held
    have unpassed : passes (refused, (false, retryAfter)) = false := by cases refused <;> rfl
    simpa [answered, unpassed] using taken
  rw [call_answer positive] at answered
  have whole : (1 : ℚ) ≤ retryAfter := by exact_mod_cast (answer_refused answered).1
  rw [allow_answer positive, level_later positive (held_call positive held) (by linarith), kept]
  exact answer_refilled positive answered (by linarith)

/-- The bucket of a key that was not seen before is sound after any sequence of calls. -/
theorem held_fresh (positive : 0 < ratePerMin) (fresh : buckets key = none)
    (ascending : Ascending calls) (ended : ∀ call ∈ calls, call.time ≤ later) :
    Held key ratePerMin (TokenBucketRateLimiter.after key ratePerMin buckets calls) later := by
  have unseen : ∀ now, Held key ratePerMin buckets now := by
    intro now bucket there
    rw [fresh] at there
    cases there
  cases calls with
  | nil => exact unseen later
  | cons first calls =>
    apply held_after positive (unseen first.time) ascending
    · intro call member
      rcases List.mem_cons.mp member with rfl | member
      · exact le_refl _
      · exact List.rel_of_pairwise_cons ascending member
    · exact ended
    · exact ended first List.mem_cons_self

/-- The limiter in memory, whatever calls a key sees at times that do not go back: no
interval has more calls let through than the rate and the refill of the interval, the
bucket stays between empty and full, a peek answers as `allow` would and leaves no trace,
and the hint to a refused call is enough. -/
theorem calls_sound (positive : 0 < ratePerMin) (fresh : buckets key = none)
    (ascending : Ascending calls) :
    (∀ start length : ℚ, 0 ≤ length →
      (allowedWithin start (start + length)
        (TokenBucketRateLimiter.answers key ratePerMin calls buckets) : ℚ) ≤
          ratePerMin + ratePerMin * length / 60) ∧
    (∀ bucket, TokenBucketRateLimiter.after key ratePerMin buckets calls key = some bucket →
      0 ≤ bucket.tokens ∧ bucket.tokens ≤ ratePerMin) ∧
    (∀ now, TokenBucketRateLimiter.peek key ratePerMin now
        (TokenBucketRateLimiter.after key ratePerMin buckets calls) =
      (TokenBucketRateLimiter.allow key ratePerMin now
        (TokenBucketRateLimiter.after key ratePerMin buckets calls)).1) ∧
    (∀ before now after, calls = before ++ .peek now :: after →
      TokenBucketRateLimiter.answers key ratePerMin (before ++ after) buckets =
        (TokenBucketRateLimiter.answers key ratePerMin calls buckets).eraseIdx before.length) ∧
    ∀ before refused peeks now after retryAfter,
      calls = before ++ refused :: peeks ++ .allow now :: after →
      (∀ call ∈ peeks, call.Peeks) →
      (TokenBucketRateLimiter.call key ratePerMin
        (TokenBucketRateLimiter.after key ratePerMin buckets before) refused).1 =
          (false, retryAfter) →
      refused.time + retryAfter ≤ now →
      (TokenBucketRateLimiter.allow key ratePerMin now
        (TokenBucketRateLimiter.after key ratePerMin buckets
          (before ++ refused :: peeks))).1 = (true, 0) := by
  refine ⟨?_, ?_, ?_, ?_, ?_⟩
  · intro start length some
    cases calls with
    | nil =>
      have room : (0 : ℚ) < ratePerMin := by exact_mod_cast positive
      simp only [TokenBucketRateLimiter.answers, allowedWithin, List.countP_nil, Nat.cast_zero]
      positivity
    | cons first calls =>
      have unseen : Held key ratePerMin buckets first.time :=
        held_fresh positive fresh List.Pairwise.nil (by simp)
      have bound := allowed_within positive unseen ascending ?_ start (start + length) (by linarith)
      · have scaled : (start + length - start) * ((ratePerMin : ℚ) / 60) =
            ratePerMin * length / 60 := by ring
        rw [scaled] at bound
        exact bound
      · intro call member
        rcases List.mem_cons.mp member with rfl | member
        · exact le_refl _
        · exact List.rel_of_pairwise_cons ascending member
  · intro bucket there
    obtain ⟨last, ended⟩ := (calls.map Query.time).toFinset.exists_le
    have sound := held_fresh positive fresh ascending fun call member =>
      ended call.time (List.mem_toFinset.mpr (List.mem_map_of_mem member))
    exact ⟨(sound bucket there).1, (sound bucket there).2.1⟩
  · intro now
    rw [peek_answer positive, allow_answer positive]
  · rintro before now after rfl
    exact answers_peek before after now
  · rintro before refused peeks now after retryAfter rfl quiet answered waited
    rw [Ascending, List.append_assoc] at ascending
    have early : Ascending before := (List.pairwise_append.mp ascending).1
    have held := held_fresh positive fresh early fun call member =>
      (List.pairwise_append.mp ascending).2.2 call member refused (by simp)
    have left : TokenBucketRateLimiter.after key ratePerMin buckets (before ++ refused :: peeks) =
        (TokenBucketRateLimiter.call key ratePerMin
          (TokenBucketRateLimiter.after key ratePerMin buckets before) refused).2 := by
      rw [TokenBucketRateLimiter.after, List.foldl_append, List.foldl_cons]
      exact after_peeks quiet
    rw [left]
    exact allow_refilled positive held answered waited

/-- Two calls to `allow` and, between them and a third, a peek. -/
def twice : List Query := [.allow 0, .allow 0, .peek 30, .allow 60]

/-- Of two calls to `allow` at once the second is refused for a minute, a peek halfway
does not change that, and a minute later the next call is let through. -/
theorem twice_sound :
    (allowedWithin 0 (0 + 60) (TokenBucketRateLimiter.answers "7" 1 twice fun _ => none) : ℚ) ≤
      (1 : ℤ) + (1 : ℤ) * 60 / 60 ∧
    (TokenBucketRateLimiter.allow "7" 1 60 (TokenBucketRateLimiter.after "7" 1 (fun _ => none)
      ([.allow 0] ++ .allow 0 :: [.peek 30]))).1 = (true, 0) := by
  have ascending : Ascending twice := by decide +kernel
  obtain ⟨bounded, -, -, -, refilled⟩ :=
    @calls_sound "7" 1 (fun _ => none) twice (by decide) rfl ascending
  constructor
  · exact bounded 0 60 (by norm_num)
  · exact refilled [.allow 0] (.allow 0) [.peek 30] 60 [] 60 rfl (by decide +kernel)
      (by decide +kernel) (by norm_num [Query.time])

end FcamGateway.RateLimit
