import FcamGateway.Forwarder
import FcamGateway.RateLimit
import FcamGateway.Runs

/-! Concurrency limits held in Redis: a sorted set of leases, each with the time it
expires at. A lease that is not released in time is dropped by the next request, whether
its own request is still running or not. -/
namespace FcamGateway.Concurrency

open RateLimit (Eval stripColons safeKey)
open Runs

/-- The leases of one key: tokens with their scores, and when the server drops the key. -/
structure Leases where
  members : List (Nat × Int)
  expiresAt : Int
deriving DecidableEq

abbrev LeaseStore := String → Option Leases

/-- `lease_ttl_ms`, as the application computes it when it starts. -/
def leaseTtlMs (config : FirecrawlConfig) : Int :=
  (max config.timeout 1 * (max config.maxRetries 0 + 1) + 10) * 1000

structure RedisConcurrencyManager where
  keyPrefix : String
  scope : String
  leaseTtlMs : Int

/-- The constructor. -/
def RedisConcurrencyManager.make (keyPrefix scope : String) (leaseTtlMs : Int) :
    RedisConcurrencyManager where
  keyPrefix := stripColons (if keyPrefix = "" then "fcam" else keyPrefix)
  scope := stripColons scope
  leaseTtlMs := max leaseTtlMs 1000

/-- `_redis_key`. -/
def RedisConcurrencyManager.redisKey (manager : RedisConcurrencyManager) (key : String) : String :=
  manager.keyPrefix ++ ":concurrency:" ++ manager.scope ++ ":" ++ safeKey key

/-- The leases that a command finds. -/
def found (store : LeaseStore) (redisKey : String) (clock : Int) : Option Leases :=
  (store redisKey).filter fun leases => clock ≤ leases.expiresAt

/-- A set without members is no key. -/
def write (store : LeaseStore) (redisKey : String) (leases : Leases) : LeaseStore :=
  Function.update store redisKey (if leases.members = [] then none else some leases)

/-- `ZREMRANGEBYSCORE key -inf now`. -/
def prune (store : LeaseStore) (redisKey : String) (now clock : Int) : LeaseStore :=
  match found store redisKey clock with
  | none => Function.update store redisKey none
  | some leases => write store redisKey
      { leases with members := leases.members.filter (now < ·.2) }

/-- `ZCARD`. -/
def card (store : LeaseStore) (redisKey : String) (clock : Int) : Int :=
  ((found store redisKey clock).map (·.members.length)).getD 0

/-- `ZADD` and `EXPIRE`. -/
def add (store : LeaseStore) (redisKey : String) (token : Nat) (score ttl clock : Int) :
    LeaseStore :=
  let members := ((found store redisKey clock).map Leases.members).getD []
  write store redisKey
    ⟨(token, score) :: members.filter (·.1 ≠ token), clock + max 1 ((ttl + 999) / 1000) * 1000⟩

/-- `_ACQUIRE_LUA`. -/
def acquireLua (redisKey : String) (now ttl maximum : Int) (token : Nat) (clock : Int)
    (store : LeaseStore) : Int × LeaseStore :=
  let pruned := prune store redisKey now clock
  if maximum ≤ card pruned redisKey clock then (0, pruned)
  else (1, add pruned redisKey token (now + ttl) ttl clock)

/-- The loop of `_acquire_fallback`: a transaction that another writer disturbs has pruned
the set and is tried again. -/
def acquireFallback (redisKey : String) (now ttl maximum : Int) (token : Nat) (clock : Int) :
    Nat → Nat → LeaseStore → Except FcamError Int × LeaseStore
  | 0, _, store => (.error stateUnavailable, store)
  | tries + 1, conflicts, store =>
    let pruned := prune store redisKey now clock
    if maximum ≤ card pruned redisKey clock then (.ok 0, pruned)
    else
      match conflicts with
      | 0 => (.ok 1, add pruned redisKey token (now + ttl) ttl clock)
      | conflicts + 1 =>
        acquireFallback redisKey now ttl maximum token clock tries conflicts pruned

/-- A lease; without a token it is one that nothing limits. -/
structure Lease where
  token : Option Nat
deriving DecidableEq

/-- `RedisConcurrencyManager.try_acquire`. The clock `now` is read before the server has
its own reading `clock`. -/
def RedisConcurrencyManager.tryAcquire (manager : RedisConcurrencyManager) (key : String)
    (maximum : Int) (token : Nat) (now clock : Int) (eval : Eval) (store : LeaseStore) :
    Except FcamError (Option Lease) × LeaseStore :=
  if maximum ≤ 0 then (.ok (some ⟨none⟩), store)
  else
    let replied : Except FcamError Int × LeaseStore :=
      match eval with
      | .runs =>
        let done := acquireLua (manager.redisKey key) now manager.leaseTtlMs maximum token clock store
        (.ok done.1, done.2)
      | .unknownCommand conflicts =>
        acquireFallback (manager.redisKey key) now manager.leaseTtlMs maximum token clock 5
          conflicts store
      | .fails => (.error stateUnavailable, store)
    (replied.1.map fun ok => if ok = 1 then some ⟨some token⟩ else none, replied.2)

/-- `Lease.release` of a lease with a token. -/
def RedisConcurrencyManager.release (manager : RedisConcurrencyManager) (key : String) (token : Nat)
    (clock : Int) (store : LeaseStore) : LeaseStore :=
  match found store (manager.redisKey key) clock with
  | none => Function.update store (manager.redisKey key) none
  | some leases => write store (manager.redisKey key)
      { leases with members := leases.members.filter (·.1 ≠ token) }

/-- `RedisConcurrencyManager.current`. -/
def RedisConcurrencyManager.current (manager : RedisConcurrencyManager) (key : String)
    (now clock : Int) (store : LeaseStore) : Int × LeaseStore :=
  let pruned := prune store (manager.redisKey key) now clock
  (card pruned (manager.redisKey key) clock, pruned)

/-- A request between the success of `try_acquire` and its release, with the clock reading
its lease was asked for at. -/
structure Holder where
  token : Nat
  since : Int
deriving DecidableEq

/-- What the instances do for one client, each at the server's clock: a request asks for a
lease, a request that holds one releases it (refused by the rate limit or the quota, or at
its end), the dashboard asks for the number. -/
inductive Event where
  | acquire (token : Nat) (now clock : Int) (eval : Eval)
  | release (token : Nat) (clock : Int)
  | current (now clock : Int)

def Event.clock : Event → Int
  | .acquire _ _ clock _ => clock
  | .release _ clock => clock
  | .current _ clock => clock

/-- Redis, the clock of its last command, the requests that hold a lease and the tokens
drawn so far. -/
structure State where
  store : LeaseStore
  clock : Int
  holding : List Holder
  drawn : List Nat

def State.initial (clock : Int) : State := ⟨fun _ => none, clock, [], []⟩

/-- A new request draws a token that no other has, and reads the clock no later than the
server has its command. -/
def step (manager : RedisConcurrencyManager) (key : String) (maximum : Int) (state : State)
    (event : Event) : Option State :=
  if event.clock < state.clock then none
  else
    match event with
    | .acquire token now clock eval =>
      if clock < now ∨ token ∈ state.drawn then none
      else
        let done := manager.tryAcquire key maximum token now clock eval state.store
        let holding :=
          match done.1 with
          | .ok (some ⟨some token⟩) => ⟨token, now⟩ :: state.holding
          | _ => state.holding
        some ⟨done.2, clock, holding, token :: state.drawn⟩
    | .release token clock =>
      if token ∈ state.holding.map Holder.token then
        some { state with
          store := manager.release key token clock state.store, clock
          holding := state.holding.filter (·.token ≠ token) }
      else none
    | .current now clock =>
      if clock < now then none
      else some { state with store := (manager.current key now clock state.store).2, clock }

end FcamGateway.Concurrency
