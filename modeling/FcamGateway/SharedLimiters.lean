import FcamGateway.ForwardConduct
import FcamGateway.Interleaving
import FcamGateway.LeaseCounter
import FcamGateway.RateLimitBound
import Mathlib.Algebra.Order.BigOperators.Group.Finset

/-! The limits of a key when the forwards of one process share its limiters. A forward asks the
limiters in its own order; what they grant is counted over all of them. -/
namespace FcamGateway.SharedLimiters
open Prog Credits Upstream Forwarder ForwardConduct RateLimit
open TokenBucket (ahead ahead_nonneg remaining remaining_nonneg)
open LeaseCounter (Grant outstanding)

set_option linter.unusedSectionVars false

variable {R : Type} [Field R] [LinearOrder R] [ScoreMath R]
  {Thread : Type} [DecidableEq Thread]

/-- The limiters of keys in one process, with the clock reading of each call that was limited, in
the order in which the calls got the lock. -/
structure Limiters where
  leases : LeaseCounter.World
  buckets : Buckets
  readings : List (String × ℚ)

/-- A question to the limiters and its reply. A release gives back a lease of the key that is out; where
there is none it does nothing. -/
def Limiters.moves (before : Limiters) (event : Event (Op R) (Reply R)) (after : Limiters) : Prop :=
  match event with
  | ⟨.allow id rate, reply⟩ => ∃ now,
    let done := TokenBucketRateLimiter.allow (toString id) rate now before.buckets
    reply = some done.1 ∧ after = { before with
      buckets := done.2
      readings := before.readings ++ if 0 < rate then [(toString id, now)] else [] }
  | ⟨.acquire id maximum, reply⟩ => ∃ leases,
    reply = some (before.leases.manager.tryAcquire (toString id) maximum).1.isSome ∧
      LeaseCounter.step before.leases (.tryAcquire (toString id) maximum) = some leases ∧
        after = { before with leases }
  | ⟨.release id, _⟩ =>
    (∃ index grant leases, before.leases.grants[index]? = some grant ∧ grant.key = toString id ∧
      grant.lease.released = false ∧ LeaseCounter.step before.leases (.release index) = some leases ∧
        after = { before with leases }) ∨
      ((∀ grant ∈ before.leases.grants, grant.key = toString id → grant.lease.released = true) ∧
        after = before)
  | _ => after = before

/-- How many leases of a key a forward holds. -/
def holding (id : Nat) (events : Exchange R) : Nat := (leases events).count (.key id)

variable {setups : Thread → Setup R} {calls : Thread → Forwarder.Call} {start before after last : Limiters}
  {front trace : Trace Thread (Op R) (Reply R)} {thread : Thread} {id most : Nat} {key : String}

/-- The forwards that share the limiters. -/
abbrev forwards (setups : Thread → Setup R) (calls : Thread → Forwarder.Call) (thread : Thread) :
    Gateway R (ForwardResult R) :=
  forward (setups thread) (calls thread)

theorem toString_injective : Function.Injective (toString : Nat → String) := by
  intro one two same
  rw [Nat.toString_eq_ofList_toDigits, Nat.toString_eq_ofList_toDigits] at same
  rw [← Nat.ofDigitChars_ten_toDigits (n := one), String.ofList_injective same,
    Nat.ofDigitChars_ten_toDigits]

/-- The threads ask for leases of the key with a maximum that is positive and no more than `most`. -/
def Limited (id most : Nat) (trace : Trace Thread (Op R) (Reply R)) : Prop :=
  ∀ thread maximum reply, (thread, (⟨.acquire id maximum, reply⟩ : Event (Op R) (Reply R))) ∈ trace →
    0 < maximum ∧ maximum ≤ most

/-- The leases of a key that are out are those that the threads hold, and no more than `most`. -/
structure Balanced (id most : Nat) (trace : Trace Thread (Op R) (Reply R))
    (world : LeaseCounter.World) : Prop where
  accurate : LeaseCounter.Accurate world
  limited : ∀ grant ∈ world.grants, grant.key = toString id → 0 < grant.maximum
  room : outstanding world.grants (toString id) ≤ most
  held : ∀ threads : Finset Thread, (∀ entry ∈ trace, entry.1 ∈ threads) →
    ∑ thread ∈ threads, holding id (own thread trace) = outstanding world.grants (toString id)

/-- The sum over the threads moves with what the thread of the event holds. -/
theorem Balanced.then {world next : LeaseCounter.World} {event : Event (Op R) (Reply R)}
    (balanced : Balanced id most front world) (accurate : LeaseCounter.Accurate next)
    (limited : ∀ grant ∈ next.grants, grant.key = toString id → 0 < grant.maximum)
    (room : outstanding next.grants (toString id) ≤ most)
    (moved : holding id (own thread front ++ [event]) + outstanding world.grants (toString id) =
      holding id (own thread front) + outstanding next.grants (toString id)) :
    Balanced id most (front ++ [(thread, event)]) next := by
  refine ⟨accurate, limited, room, fun threads covers => ?_⟩
  have member : thread ∈ threads := covers (thread, event) (by simp)
  have earlier := balanced.held threads fun entry listed => covers entry (by simp [listed])
  rw [← Finset.add_sum_erase threads _ member] at earlier
  rw [sum_own_concat _ member]
  omega

theorem tryAcquire_unreleased {manager : LeaseCounter.ConcurrencyManager} {maximum : Int}
    {lease : LeaseCounter.Lease} (granted : (manager.tryAcquire key maximum).1 = some lease) :
    lease.released = false := by
  unfold LeaseCounter.ConcurrencyManager.tryAcquire at granted
  split at granted
  · cases granted
    rfl
  · dsimp only at granted
    split at granted
    · cases granted
    · cases granted
      rfl

theorem out_other {grant : Grant} (apart : grant.key ≠ key) : grant.out key = false := by
  simp [Grant.out, apart]

theorem out_own {grant : Grant} (positive : 0 < grant.maximum)
    (unreleased : grant.lease.released = false) : grant.out grant.key = true := by
  simp [Grant.out, positive, unreleased]

theorem Balanced.acquire {world next : LeaseCounter.World} {other : Nat} {maximum : Int}
    {reply : Reply R (.acquire other maximum)} (balanced : Balanced id most front world)
    (limited : Limited id most (front ++ [(thread, ⟨.acquire other maximum, reply⟩)]))
    (replied : reply = some (world.manager.tryAcquire (toString other) maximum).1.isSome)
    (taken : LeaseCounter.step world (.tryAcquire (toString other) maximum) = some next) :
    Balanced id most (front ++ [(thread, ⟨.acquire other maximum, reply⟩)]) next := by
  have accurate := balanced.accurate.step taken
  cases taken
  cases granted : (world.manager.tryAcquire (toString other) maximum).1 with
  | none =>
    rw [granted] at replied
    subst replied
    simp only [granted, Option.map_none, Option.toList_none, List.append_nil] at accurate ⊢
    refine balanced.then accurate balanced.limited balanced.room ?_
    rw [holding, leases_concat]
    rfl
  | some lease =>
    rw [granted] at replied
    subst replied
    simp only [granted, Option.map_some, Option.toList_some] at accurate ⊢
    have asked (same : other = id) : 0 < maximum ∧ maximum ≤ most := by
      subst same
      exact limited thread maximum (some true) (by simp)
    have positive (same : other = id) : 0 < maximum := (asked same).1
    refine balanced.then accurate (fun grant member own => ?_) ?_ ?_
    · rcases List.mem_append.mp member with earlier | new
      · exact balanced.limited grant earlier own
      · obtain rfl := List.mem_singleton.mp new
        exact positive (toString_injective own)
    · by_cases same : other = id
      · subst same
        have counts := accurate.counts (toString other)
        have below : world.manager.current (toString other) < maximum := by
          by_contra full
          have refused := (LeaseCounter.tryAcquire_full (positive rfl) (Int.not_lt.mp full)).1
          rw [granted] at refused
          cases refused
        rw [(LeaseCounter.tryAcquire_room (positive rfl) below).2, if_pos rfl] at counts
        have most := (asked rfl).2
        omega
      · have apart : toString other ≠ toString id := fun equal => same (toString_injective equal)
        rw [LeaseCounter.outstanding_append, out_other apart]
        exact balanced.room
    · rw [LeaseCounter.outstanding_append, holding, leases_concat]
      change (LeaseReturns.Lease.key other :: leases (own thread front)).count (.key id) + _ = _
      rw [List.count_cons, holding]
      by_cases same : other = id
      · subst same
        rw [if_pos (out_own (positive rfl) (tryAcquire_unreleased granted)), if_pos (beq_self_eq_true _)]
        omega
      · have apart : toString other ≠ toString id := fun equal => same (toString_injective equal)
        rw [out_other apart]
        simp [same]

/-- A thread that gives a lease back holds just this one. -/
theorem Balanced.release {world next : LeaseCounter.World} {other index : Nat} {grant : Grant}
    {reply : Reply R (.release other)} (balanced : Balanced id most front world)
    (due : leases (own thread front) = [.key other]) (found : world.grants[index]? = some grant)
    (named : grant.key = toString other) (unreleased : grant.lease.released = false)
    (taken : LeaseCounter.step world (.release index) = some next) :
    Balanced id most (front ++ [(thread, ⟨.release other, reply⟩)]) next := by
  have accurate := balanced.accurate.step taken
  obtain ⟨there, same, rfl⟩ := Option.map_eq_some_iff.mp taken
  obtain rfl := Option.some.inj (found.symm.trans same)
  have gone : (grant.lease.release world.manager).1.released = true := by
    simp [LeaseCounter.Lease.release, unreleased]
  have fewer := LeaseCounter.outstanding_set found _ gone (toString id)
  refine balanced.then accurate (fun entry member own => ?_)
    (le_trans (Nat.le.intro fewer) balanced.room) ?_
  · rcases List.mem_or_eq_of_mem_set member with earlier | rfl
    · exact balanced.limited entry earlier own
    · exact balanced.limited grant (List.mem_of_getElem? found) own
  · have emptied : leases (own thread front ++ [⟨.release other, reply⟩]) = [] := by
      rw [leases_concat, due]
      exact List.erase_cons_head ..
    rw [holding, holding, emptied, due]
    by_cases same : other = id
    · subst same
      have positive := balanced.limited grant (List.mem_of_getElem? found) named
      rw [← named, if_pos (out_own positive unreleased)] at fewer
      rw [← named, List.count_nil, List.count_cons_self, List.count_nil]
      dsimp only
      omega
    · have apart : grant.key ≠ toString id := fun equal =>
        same (toString_injective (named.symm.trans equal))
      rw [out_other apart] at fewer
      simpa [same] using fewer.symm

/-- A thread that gives a lease back finds one that is out. -/
theorem Balanced.returns {world : LeaseCounter.World} {other : Nat} {reply : Reply R (.release other)}
    (balanced : Balanced id most front world) (due : leases (own thread front) = [.key other])
    (gone : ∀ grant ∈ world.grants, grant.key = toString other → grant.lease.released = true) :
    Balanced id most (front ++ [(thread, ⟨.release other, reply⟩)]) world := by
  refine balanced.then balanced.accurate balanced.limited balanced.room ?_
  have emptied : leases (own thread front ++ [⟨.release other, reply⟩]) = [] := by
    rw [leases_concat, due]
    exact List.erase_cons_head ..
  rw [holding, holding, emptied, due]
  by_cases same : other = id
  · subst same
    have covers (entry : Thread × Event (Op R) (Reply R)) (member : entry ∈ front) :
        entry.1 ∈ insert thread (front.map Prod.fst).toFinset :=
      Finset.mem_insert_of_mem (List.mem_toFinset.mpr (List.mem_map_of_mem member))
    have held := balanced.held _ covers
    have one : holding other (own thread front) = 1 := by
      rw [holding, due]
      exact List.count_cons_self
    have none : outstanding world.grants (toString other) = 0 := by
      refine List.countP_eq_zero.mpr fun grant member out => ?_
      obtain ⟨named, -, unreleased⟩ := of_decide_eq_true out
      rw [gone grant member named] at unreleased
      cases unreleased
    rw [none, Finset.sum_eq_zero_iff] at held
    rw [held thread (Finset.mem_insert_self _ _)] at one
    cases one
  · simp [same]

theorem Limited.earlier {entry : Thread × Event (Op R) (Reply R)}
    (limited : Limited id most (front ++ [entry])) : Limited id most front :=
  fun thread maximum reply member => limited thread maximum reply (List.mem_append_left _ member)

/-- The rate limit of the key lets a forward through. -/
def passing (id : Nat) : Event (Op R) (Reply R) → Bool
  | ⟨.allow other _, some (true, _)⟩ => other = id
  | _ => false

/-- The clock readings of a key's limited calls. -/
def Limiters.times (limiters : Limiters) (key : String) : List ℚ :=
  (limiters.readings.filter fun entry => entry.1 = key).map Prod.snd

/-- What a bucket has granted since its first call: what is left in it was not. -/
def Afforded (ratePerMin : ℤ) (granted : Nat) (times : List ℚ) (bucket : Option Bucket) : Prop :=
  match times.getLast? with
  | none => granted = 0 ∧ ∀ held, bucket = some held → 0 ≤ held.tokens
  | some last => ∃ tokens, bucket = some ⟨tokens, last⟩ ∧ 0 ≤ tokens ∧
    granted + tokens ≤ ratePerMin + TokenBucket.forward times * (ratePerMin / 60)

variable {ratePerMin : ℤ} {granted : Nat} {times : List ℚ} {buckets : Buckets}

/-- A level is what a call takes and what it leaves. -/
theorem remaining_taken (level : ℚ) :
    ((if 1 ≤ level then 1 else 0 : Nat) : ℚ) + remaining level = level := by
  unfold remaining
  split <;> norm_num

theorem Afforded.allow (positive : 0 < ratePerMin)
    (afforded : Afforded ratePerMin granted times (buckets key)) (now : ℚ) :
    Afforded ratePerMin
      (granted + if (TokenBucketRateLimiter.allow key ratePerMin now buckets).1.1 then 1 else 0)
      (times ++ [now]) ((TokenBucketRateLimiter.allow key ratePerMin now buckets).2 key) := by
  have room : (0 : ℚ) < ratePerMin := by exact_mod_cast positive
  obtain ⟨answer, next⟩ := allow_filled positive now buckets _ rfl
  generalize found : (buckets key).getD ⟨ratePerMin, now⟩ = bucket at answer next
  have taken := remaining_taken (filled ratePerMin bucket.tokens (ahead bucket.lastRefill now))
  have most : filled ratePerMin bucket.tokens (ahead bucket.lastRefill now) ≤ ratePerMin :=
    min_le_left _ _
  have whole : filled ratePerMin bucket.tokens (ahead bucket.lastRefill now) ≤
      bucket.tokens + ahead bucket.lastRefill now * (ratePerMin / 60) := min_le_right _ _
  have nonneg (held : 0 ≤ bucket.tokens) :
      0 ≤ remaining (filled ratePerMin bucket.tokens (ahead bucket.lastRefill now)) :=
    remaining_nonneg (filled_nonneg positive held (ahead_nonneg _ _))
  rw [Afforded] at afforded ⊢
  rw [List.getLast?_concat, answer, next]
  simp only [decide_eq_true_eq]
  split at afforded
  · rename_i none
    obtain ⟨rfl, sound⟩ := afforded
    obtain rfl := List.getLast?_eq_none_iff.mp none
    have held : 0 ≤ bucket.tokens := by
      cases there : buckets key with
      | none =>
        rw [there] at found
        exact found ▸ room.le
      | some bucket =>
        rw [there] at found
        exact found ▸ sound bucket there
    refine ⟨_, rfl, nonneg held, ?_⟩
    push_cast at taken ⊢
    simp only [TokenBucket.forward, List.nil_append, TokenBucket.gaps, List.sum_nil, zero_mul,
      zero_add, add_zero, taken]
    exact most
  · rename_i last ends
    obtain ⟨tokens, there, held, bound⟩ := afforded
    rw [there] at found
    obtain rfl : (⟨tokens, last⟩ : Bucket) = bucket := found
    refine ⟨_, rfl, nonneg held, ?_⟩
    rw [TokenBucket.forward_concat times ends, add_mul]
    push_cast at taken ⊢
    dsimp only at *
    linarith

theorem Afforded.bound (positive : 0 < ratePerMin) {bucket : Option Bucket}
    (afforded : Afforded ratePerMin granted times bucket) :
    (granted : ℚ) ≤ ratePerMin + TokenBucket.forward times * (ratePerMin / 60) := by
  have room : (0 : ℚ) < ratePerMin := by exact_mod_cast positive
  rw [Afforded] at afforded
  split at afforded
  · rename_i none
    obtain rfl := List.getLast?_eq_none_iff.mp none
    rw [afforded.1]
    simpa [TokenBucket.forward, TokenBucket.gaps] using room.le
  · obtain ⟨tokens, -, held, bound⟩ := afforded
    linarith

def passes (id : Nat) (trace : Trace Thread (Op R) (Reply R)) : Nat :=
  trace.countP fun entry => passing id entry.2

/-- Limiters whose clock stands still, beside a database with two keys and an upstream that answers
429. -/
def Limiters.answer (limiters : Limiters) : (op : Op ℚ) → Reply ℚ op × Limiters
  | .allow id rate =>
    let done := TokenBucketRateLimiter.allow (toString id) rate 0 limiters.buckets
    (some done.1, { limiters with
      buckets := done.2
      readings := limiters.readings ++ if 0 < rate then [(toString id, 0)] else [] })
  | .acquire id maximum =>
    let done := limiters.leases.manager.tryAcquire (toString id) maximum
    (some done.1.isSome, { limiters with
      leases := ⟨done.2, limiters.leases.grants ++
        (done.1.map fun lease => ⟨toString id, maximum, lease⟩).toList⟩ })
  | .release id =>
    match limiters.leases.grants.findIdx? fun grant =>
        grant.key = toString id && !grant.lease.released with
    | some index =>
      ((), { limiters with
        leases := (LeaseCounter.step limiters.leases (.release index)).getD limiters.leases })
    | none => ((), limiters)
  | op => ((refusingUpstream [] twoKeys op).1, limiters)

def unused : Limiters := ⟨.initial, fun _ => none, []⟩

/-- Two forwards of one call take turns. -/
def paired (config : AppConfig ℚ) (turns : Nat) :=
  schedule Limiters.answer (forwards (fun _ : Bool => plainSetup config) fun _ => plainCall) unused
    (List.replicate turns [false, true]).flatten

end FcamGateway.SharedLimiters
