import FcamGateway.Concurrency
import FcamGateway.ForwardAttribution
import Mathlib.Data.List.Perm.Subperm

/-! How many requests of a client run at a time. Every request that holds a lease has
its member in the sorted set for as long as its lease lasts, so the set bounds them;
a request that outlives its lease is no longer counted. -/
namespace FcamGateway.Concurrency

open RateLimit (Eval)
open Runs

/-- The members a command finds. -/
def members (store : LeaseStore) (redisKey : String) (clock : Int) : List (Nat × Int) :=
  ((found store redisKey clock).map Leases.members).getD []

/-- No request keeps its lease for longer than `life`, by the clock of the next event. -/
def InTime (life : Int) (state : State) (event : Event) : Prop :=
  ∀ holder ∈ state.holding, event.clock - holder.since ≤ life

/-- The sorted set counts every request that holds a lease. -/
structure Counted (manager : RedisConcurrencyManager) (redisKey : String) (maximum : Int)
    (state : State) : Prop where
  few : (members state.store redisKey state.clock).length ≤ maximum
  distinct : ((members state.store redisKey state.clock).map Prod.fst).Nodup
  held : ∀ holder ∈ state.holding, (holder.token, holder.since + manager.leaseTtlMs) ∈
    members state.store redisKey state.clock
  apart : (state.holding.map Holder.token).Nodup
  known : ∀ member ∈ members state.store redisKey state.clock, member.1 ∈ state.drawn
  lasting : ∀ leases, found state.store redisKey state.clock = some leases →
    (∀ member ∈ leases.members, member.2 ≤ leases.expiresAt) ∧
      leases.expiresAt ≤ state.clock + max 1 ((manager.leaseTtlMs + 999) / 1000) * 1000

/-- What `try_acquire` leaves: a set that was pruned, now and then more than once, and the
lease it adds when there is room. -/
inductive Acquired (manager : RedisConcurrencyManager) (redisKey : String) (maximum now clock : Int)
    (token : Nat) : LeaseStore → Except FcamError (Option Lease) → LeaseStore → Prop where
  | failed : Acquired manager redisKey maximum now clock token store (.error stateUnavailable) store
  | refused : Acquired manager redisKey maximum now clock token store (.ok none) store
  | granted : ((members store redisKey clock).length : Int) < maximum →
      Acquired manager redisKey maximum now clock token store (.ok (some ⟨some token⟩))
        (add store redisKey token (now + manager.leaseTtlMs) manager.leaseTtlMs clock)
  | pruned : Acquired manager redisKey maximum now clock token (prune store redisKey now clock)
        answer last →
      Acquired manager redisKey maximum now clock token store answer last

variable {manager : RedisConcurrencyManager} {redisKey key : String} {maximum life : Int}
  {state next last : State} {event : Event} {store : LeaseStore} {clock now score ttl : Int}
  {token : Nat} {leases : Leases} {eval : Eval}

theorem found_some : found store redisKey clock = some leases ↔
    store redisKey = some leases ∧ clock ≤ leases.expiresAt := by
  simp [found, Option.filter_eq_some_iff]

theorem members_found (here : found store redisKey clock = some leases) :
    members store redisKey clock = leases.members := by
  rw [members, here]
  rfl

theorem members_gone (gone : found store redisKey clock = none) :
    members store redisKey clock = [] := by
  rw [members, gone]
  rfl

theorem found_dropped : found (Function.update store redisKey none) redisKey clock = none := by
  rw [found, Function.update_self]
  rfl

theorem card_members : card store redisKey clock = (members store redisKey clock).length := by
  rw [card, members]
  cases found store redisKey clock <;> rfl

theorem found_write {other : Leases}
    (there : found (write store redisKey leases) redisKey clock = some other) : other = leases := by
  rw [found_some, write, Function.update_self] at there
  split at there
  · cases there.1
  · exact (Option.some.inj there.1).symm

theorem members_write (live : clock ≤ leases.expiresAt) :
    members (write store redisKey leases) redisKey clock = leases.members := by
  by_cases empty : leases.members = []
  · rw [write, if_pos empty, members_gone found_dropped, empty]
  · apply members_found
    rw [found_some, write, if_neg empty, Function.update_self]
    exact ⟨rfl, live⟩

theorem members_prune : members (prune store redisKey now clock) redisKey clock =
    (members store redisKey clock).filter (now < ·.2) := by
  rw [prune]
  cases here : found store redisKey clock with
  | none =>
    rw [members_gone here]
    exact members_gone found_dropped
  | some leases =>
    rw [members_found here]
    exact members_write (found_some.mp here).2

theorem members_add : members (add store redisKey token score ttl clock) redisKey clock =
    (token, score) :: (members store redisKey clock).filter (·.1 ≠ token) := by
  have live : clock ≤ clock + max 1 ((ttl + 999) / 1000) * 1000 := by omega
  exact members_write live

theorem members_release : members (manager.release key token clock store) (manager.redisKey key)
    clock = (members store (manager.redisKey key) clock).filter (·.1 ≠ token) := by
  rw [RedisConcurrencyManager.release]
  cases here : found store (manager.redisKey key) clock with
  | none =>
    rw [members_gone here]
    exact members_gone found_dropped
  | some leases =>
    rw [members_found here]
    exact members_write (found_some.mp here).2

/-- The set has a member for every holder. -/
theorem Counted.holders (counted : Counted manager redisKey maximum state) :
    (state.holding.length : Int) ≤ maximum := by
  have listed : state.holding.map Holder.token ⊆
      (members state.store redisKey state.clock).map Prod.fst := by
    intro token member
    obtain ⟨holder, holds, rfl⟩ := List.mem_map.mp member
    exact List.mem_map.mpr ⟨_, counted.held holder holds, rfl⟩
  have fewer := (counted.apart.subperm listed).length_le
  rw [List.length_map, List.length_map] at fewer
  have few := counted.few
  omega

/-- Time passes. The server drops the set only when no lease in it lasts any longer. -/
theorem Counted.later (counted : Counted manager redisKey maximum state) (after : state.clock ≤ clock)
    (fresh : ∀ holder ∈ state.holding, clock < holder.since + manager.leaseTtlMs) :
    Counted manager redisKey maximum { state with clock } := by
  cases here : found state.store redisKey clock with
  | none =>
    have none : members state.store redisKey clock = [] := members_gone here
    have few := counted.few
    refine ⟨?_, ?_, ?_, counted.apart, ?_, ?_⟩
    · rw [none]
      exact (Int.natCast_nonneg _).trans few
    · rw [none]
      exact List.nodup_nil
    · intro holder holds
      have member := counted.held holder holds
      cases before : found state.store redisKey state.clock with
      | none =>
        rw [members_gone before] at member
        cases member
      | some leases =>
        rw [members_found before] at member
        have lasts := (counted.lasting leases before).1 _ member
        have young := fresh holder holds
        have live : found state.store redisKey clock = some leases :=
          found_some.mpr ⟨(found_some.mp before).1, by dsimp only at lasts; omega⟩
        rw [here] at live
        cases live
    · rw [none]
      exact fun _ member => absurd member List.not_mem_nil
    · intro leases there
      rw [here] at there
      cases there
  | some leases =>
    have there := found_some.mp here
    have before : found state.store redisKey state.clock = some leases :=
      found_some.mpr ⟨there.1, by omega⟩
    have same : members state.store redisKey clock = members state.store redisKey state.clock := by
      rw [members_found here, members_found before]
    refine ⟨?_, ?_, ?_, counted.apart, ?_, ?_⟩
    · rw [same]
      exact counted.few
    · rw [same]
      exact counted.distinct
    · rw [same]
      exact counted.held
    · rw [same]
      exact counted.known
    · intro other there
      rw [here] at there
      obtain rfl := Option.some.inj there
      obtain ⟨scores, bound⟩ := counted.lasting leases before
      exact ⟨scores, by dsimp only; omega⟩

/-- A prune drops no lease of a holder whose lease has not expired. -/
theorem Counted.prune (counted : Counted manager redisKey maximum state)
    (fresh : ∀ holder ∈ state.holding, now < holder.since + manager.leaseTtlMs) :
    Counted manager redisKey maximum
      { state with store := Concurrency.prune state.store redisKey now state.clock } := by
  refine ⟨?_, ?_, ?_, counted.apart, ?_, ?_⟩
  · rw [members_prune]
    have fewer := List.length_filter_le (fun member : Nat × Int => decide (now < member.2))
      (members state.store redisKey state.clock)
    have few := counted.few
    omega
  · rw [members_prune]
    exact counted.distinct.sublist (List.filter_sublist.map _)
  · rw [members_prune]
    intro holder holds
    exact List.mem_filter.mpr ⟨counted.held holder holds, decide_eq_true (fresh holder holds)⟩
  · rw [members_prune]
    exact fun member listed => counted.known member (List.mem_of_mem_filter listed)
  · intro leases there
    rw [Concurrency.prune] at there
    cases here : found state.store redisKey state.clock with
    | none =>
      simp only [here, found_dropped] at there
      cases there
    | some old =>
      simp only [here] at there
      obtain rfl := found_write there
      obtain ⟨scores, bound⟩ := counted.lasting old here
      exact ⟨fun member listed => scores member (List.mem_of_mem_filter listed), bound⟩

/-- A request whose token is new joins a set that is not full. -/
theorem Counted.add (counted : Counted manager redisKey maximum state)
    (room : ((members state.store redisKey state.clock).length : Int) < maximum)
    (fresh : token ∉ state.drawn) (read : now ≤ state.clock)
    (drawn : ∀ holder ∈ state.holding, holder.token ∈ state.drawn) :
    Counted manager redisKey maximum
      { state with
        store := Concurrency.add state.store redisKey token (now + manager.leaseTtlMs)
          manager.leaseTtlMs state.clock
        holding := ⟨token, now⟩ :: state.holding
        drawn := token :: state.drawn } := by
  have other : (members state.store redisKey state.clock).filter (·.1 ≠ token) =
      members state.store redisKey state.clock := by
    apply List.filter_eq_self.mpr
    intro member listed
    exact decide_eq_true fun same => fresh (same ▸ counted.known member listed)
  have listed : members (Concurrency.add state.store redisKey token (now + manager.leaseTtlMs)
      manager.leaseTtlMs state.clock) redisKey state.clock =
      (token, now + manager.leaseTtlMs) :: members state.store redisKey state.clock := by
    rw [members_add, other]
  refine ⟨?_, ?_, ?_, ?_, ?_, ?_⟩
  · rw [listed, List.length_cons]
    push_cast
    omega
  · rw [listed, List.map_cons]
    refine List.nodup_cons.mpr ⟨?_, counted.distinct⟩
    intro member
    obtain ⟨entry, there, same⟩ := List.mem_map.mp member
    have drawn := counted.known entry there
    rw [same] at drawn
    exact fresh drawn
  · rw [listed]
    intro holder holds
    rcases List.mem_cons.mp holds with rfl | holds
    · exact List.mem_cons_self
    · exact List.mem_cons_of_mem _ (counted.held holder holds)
  · refine List.nodup_cons.mpr ⟨?_, counted.apart⟩
    intro member
    obtain ⟨holder, holds, same⟩ := List.mem_map.mp member
    have before := drawn holder holds
    rw [same] at before
    exact fresh before
  · rw [listed]
    intro member there
    rcases List.mem_cons.mp there with rfl | there
    · exact List.mem_cons_self
    · exact List.mem_cons_of_mem _ (counted.known member there)
  · intro leases there
    have written := (found_write there)
    have scores : leases.members = (token, now + manager.leaseTtlMs) ::
        members state.store redisKey state.clock := by
      rw [← members_found there, listed]
    have expires : leases.expiresAt =
        state.clock + max 1 ((manager.leaseTtlMs + 999) / 1000) * 1000 := by
      rw [written]
    refine ⟨?_, by rw [expires]⟩
    rw [scores, expires]
    intro member there
    rcases List.mem_cons.mp there with rfl | there
    · dsimp only
      omega
    · cases before : found state.store redisKey state.clock with
      | none =>
        rw [members_gone before] at there
        cases there
      | some old =>
        rw [members_found before] at there
        obtain ⟨within, bound⟩ := counted.lasting old before
        have score := within member there
        omega

theorem Counted.release (counted : Counted manager (manager.redisKey key) maximum state)
    (token : Nat) : Counted manager (manager.redisKey key) maximum
      { state with
        store := manager.release key token state.clock state.store
        holding := state.holding.filter (·.token ≠ token) } := by
  refine ⟨?_, ?_, ?_, ?_, ?_, ?_⟩
  · rw [members_release]
    have fewer := List.length_filter_le (fun member : Nat × Int => decide (member.1 ≠ token))
      (members state.store (manager.redisKey key) state.clock)
    have few := counted.few
    omega
  · rw [members_release]
    exact counted.distinct.sublist (List.filter_sublist.map _)
  · rw [members_release]
    intro holder holds
    obtain ⟨holds, other⟩ := List.mem_filter.mp holds
    exact List.mem_filter.mpr ⟨counted.held holder holds, other⟩
  · exact counted.apart.sublist (List.filter_sublist.map _)
  · rw [members_release]
    exact fun member listed => counted.known member (List.mem_of_mem_filter listed)
  · intro leases there
    rw [RedisConcurrencyManager.release] at there
    cases here : found state.store (manager.redisKey key) state.clock with
    | none =>
      simp only [here, found_dropped] at there
      cases there
    | some old =>
      simp only [here] at there
      obtain rfl := found_write there
      obtain ⟨scores, bound⟩ := counted.lasting old here
      exact ⟨fun member listed => scores member (List.mem_of_mem_filter listed), bound⟩

/-- The two programs that a server may run prune the set and add the lease if there is room. -/
theorem acquireLua_acquired (token : Nat) (store : LeaseStore) :
    Acquired manager redisKey maximum now clock token store
      (.ok (if (acquireLua redisKey now manager.leaseTtlMs maximum token clock store).1 = 1
        then some ⟨some token⟩ else none))
      (acquireLua redisKey now manager.leaseTtlMs maximum token clock store).2 := by
  by_cases full : maximum ≤ card (prune store redisKey now clock) redisKey clock
  · simp only [acquireLua, if_pos full]
    exact .pruned .refused
  · simp only [acquireLua, if_neg full]
    rw [card_members] at full
    exact .pruned (.granted (by omega))

theorem acquireFallback_acquired (token tries conflicts : Nat) (store : LeaseStore) :
    Acquired manager redisKey maximum now clock token store
      ((acquireFallback redisKey now manager.leaseTtlMs maximum token clock tries conflicts
        store).1.map fun ok => if ok = 1 then some ⟨some token⟩ else none)
      (acquireFallback redisKey now manager.leaseTtlMs maximum token clock tries conflicts
        store).2 := by
  induction tries generalizing conflicts store with
  | zero => exact .failed
  | succ tries ih =>
    by_cases full : maximum ≤ card (prune store redisKey now clock) redisKey clock
    · simp only [acquireFallback, if_pos full]
      exact .pruned .refused
    · cases conflicts with
      | zero =>
        simp only [acquireFallback, if_neg full]
        rw [card_members] at full
        exact .pruned (.granted (by omega))
      | succ conflicts =>
        simp only [acquireFallback, if_neg full]
        exact .pruned (ih conflicts _)

theorem tryAcquire_acquired (positive : 0 < maximum) (token : Nat) (eval : Eval)
    (store : LeaseStore) :
    Acquired manager (manager.redisKey key) maximum now clock token store
      (manager.tryAcquire key maximum token now clock eval store).1
      (manager.tryAcquire key maximum token now clock eval store).2 := by
  have limited : ¬ maximum ≤ 0 := by omega
  simp only [RedisConcurrencyManager.tryAcquire, if_neg limited]
  cases eval with
  | runs => exact acquireLua_acquired token store
  | unknownCommand conflicts => exact acquireFallback_acquired token 5 conflicts store
  | fails => exact .failed

/-- The requests that hold a lease after an answer. -/
def granted (answer : Except FcamError (Option Lease)) (now : Int) (holding : List Holder) :
    List Holder :=
  match answer with
  | .ok (some ⟨some token⟩) => ⟨token, now⟩ :: holding
  | _ => holding

/-- Asking for a lease keeps the count, whatever the server answers. -/
theorem Counted.acquire {answer : Except FcamError (Option Lease)} {after : LeaseStore}
    (acquired : Acquired manager redisKey maximum now clock token store answer after)
    (counted : Counted manager redisKey maximum ⟨store, clock, holding, drawn⟩)
    (live : ∀ holder ∈ holding, clock < holder.since + manager.leaseTtlMs)
    (fresh : token ∉ drawn) (read : now ≤ clock)
    (known : ∀ holder ∈ holding, holder.token ∈ drawn) :
    Counted manager redisKey maximum
      ⟨after, clock, granted answer now holding, token :: drawn⟩ := by
  induction acquired with
  | failed =>
    exact { counted with known := fun member there =>
      List.mem_cons_of_mem _ (counted.known member there) }
  | refused =>
    exact { counted with known := fun member there =>
      List.mem_cons_of_mem _ (counted.known member there) }
  | granted room => exact counted.add room fresh read known
  | pruned _ ih =>
    apply ih
    apply counted.prune
    intro holder holds
    have lasts := live holder holds
    omega

/-- The set counts the holders, and no holder's token is drawn again. -/
structure Tracked (manager : RedisConcurrencyManager) (redisKey : String) (maximum : Int)
    (state : State) : Prop where
  counted : Counted manager redisKey maximum state
  known : ∀ holder ∈ state.holding, holder.token ∈ state.drawn

theorem granted_known {answer : Except FcamError (Option Lease)} {after : LeaseStore}
    (acquired : Acquired manager redisKey maximum now clock token store answer after)
    (known : ∀ holder ∈ holding, holder.token ∈ drawn) :
    ∀ holder ∈ granted answer now holding, holder.token ∈ token :: drawn := by
  induction acquired with
  | failed => exact fun holder holds => List.mem_cons_of_mem _ (known holder holds)
  | refused => exact fun holder holds => List.mem_cons_of_mem _ (known holder holds)
  | granted =>
    intro holder holds
    rcases List.mem_cons.mp holds with rfl | holds
    · exact List.mem_cons_self
    · exact List.mem_cons_of_mem _ (known holder holds)
  | pruned _ ih => exact ih

/-- While every holder's lease lasts, each step keeps the count. -/
theorem Tracked.step (positive : 0 < maximum) (short : life < manager.leaseTtlMs)
    (tracked : Tracked manager (manager.redisKey key) maximum state)
    (within : InTime life state event)
    (taken : Concurrency.step manager key maximum state event = some next) :
    Tracked manager (manager.redisKey key) maximum next := by
  unfold Concurrency.step at taken
  split at taken
  · cases taken
  rename_i ascending
  have live : ∀ holder ∈ state.holding, event.clock < holder.since + manager.leaseTtlMs := by
    intro holder holds
    have young := within holder holds
    omega
  have later : Counted manager (manager.redisKey key) maximum
      { state with clock := event.clock } := tracked.counted.later (by omega) live
  cases event with
  | acquire token now clock eval =>
    simp only at taken
    split at taken
    · cases taken
    rename_i allowed
    cases taken
    have read : now ≤ clock := by
      by_contra late
      exact allowed (.inl (by omega))
    have acquired : Acquired manager (manager.redisKey key) maximum now clock token state.store
        (manager.tryAcquire key maximum token now clock eval state.store).1
        (manager.tryAcquire key maximum token now clock eval state.store).2 :=
      tryAcquire_acquired positive token eval state.store
    exact ⟨later.acquire acquired live (fun drawn => allowed (.inr drawn)) read tracked.known,
      granted_known acquired tracked.known⟩
  | release token clock =>
    simp only at taken
    split at taken
    · cases taken
      exact ⟨later.release token, fun holder holds =>
        tracked.known holder (List.mem_of_mem_filter holds)⟩
    · cases taken
  | current now clock =>
    simp only at taken
    split at taken
    · cases taken
    rename_i read
    cases taken
    refine ⟨later.prune fun holder holds => ?_, tracked.known⟩
    have lasts := live holder holds
    simp only [Event.clock] at lasts
    omega

theorem tracked_initial (positive : 0 < maximum) (clock : Int) :
    Tracked manager redisKey maximum (State.initial clock) := by
  refine ⟨⟨?_, ?_, ?_, ?_, ?_, ?_⟩, ?_⟩
  · exact positive.le
  · exact List.nodup_nil
  · exact fun _ holds => absurd holds List.not_mem_nil
  · exact List.nodup_nil
  · exact fun _ member => absurd member List.not_mem_nil
  · intro leases there
    cases there
  · exact fun _ holds => absurd holds List.not_mem_nil

/-- The requests of one client that ask for a lease at one moment. -/
def fill (clients : Nat) : List Event :=
  (List.range clients).map fun token => .acquire token 0 0 .runs

/-- Every request that asked holds a lease, and all leases expire together. -/
structure Filled (manager : RedisConcurrencyManager) (redisKey : String) (clients : Nat)
    (state : State) : Prop where
  clock : state.clock = 0
  drawn : ∀ token ∈ state.drawn, token < clients
  holding : state.holding.length = clients
  since : ∀ holder ∈ state.holding, holder.since = 0
  counts : (members state.store redisKey 0).length = clients
  tokens : ∀ member ∈ members state.store redisKey 0,
    member.1 < clients ∧ member.2 = manager.leaseTtlMs

/-- An instance asks for a lease where the set has room. -/
theorem step_acquire (positive : 0 < maximum) (later : state.clock ≤ clock)
    (fresh : token ∉ state.drawn)
    (room : (((members state.store (manager.redisKey key) clock).filter (clock < ·.2)).length
      : Int) < maximum) :
    step manager key maximum state (.acquire token clock clock .runs) =
      some ⟨add (prune state.store (manager.redisKey key) clock clock) (manager.redisKey key) token
        (clock + manager.leaseTtlMs) manager.leaseTtlMs clock, clock,
        ⟨token, clock⟩ :: state.holding, token :: state.drawn⟩ := by
  have limited : ¬ maximum ≤ 0 := by omega
  have free : ¬ maximum ≤ card (prune state.store (manager.redisKey key) clock clock)
      (manager.redisKey key) clock := by
    rw [card_members, members_prune]
    omega
  have ascending : ¬ (Event.acquire token clock clock .runs).clock < state.clock := by
    simp only [Event.clock]
    omega
  have allowed : ¬ (clock < clock ∨ token ∈ state.drawn) := by
    rintro (late | drawn)
    · omega
    · exact fresh drawn
  rw [step, if_neg ascending]
  simp only [if_neg allowed, RedisConcurrencyManager.tryAcquire, if_neg limited, acquireLua,
    if_neg free]
  rfl

/-- One more request asks at the same moment. -/
theorem Filled.grows {clients : Nat} (maximum : Int) (lasting : 0 < manager.leaseTtlMs)
    (filled : Filled manager (manager.redisKey key) clients state)
    (room : (clients : Int) < maximum) :
    ∃ next, step manager key maximum state (.acquire clients 0 0 .runs) = some next ∧
      Filled manager (manager.redisKey key) (clients + 1) next := by
  have unexpired : (members state.store (manager.redisKey key) 0).filter (0 < ·.2) =
      members state.store (manager.redisKey key) 0 := by
    apply List.filter_eq_self.mpr
    intro member listed
    rw [(filled.tokens member listed).2]
    exact decide_eq_true lasting
  have other : (members state.store (manager.redisKey key) 0).filter (·.1 ≠ clients) =
      members state.store (manager.redisKey key) 0 := by
    apply List.filter_eq_self.mpr
    intro member listed
    have older := (filled.tokens member listed).1
    exact decide_eq_true (by omega)
  have listed : members (add (prune state.store (manager.redisKey key) 0 0) (manager.redisKey key)
      clients (0 + manager.leaseTtlMs) manager.leaseTtlMs 0) (manager.redisKey key) 0 =
      (clients, 0 + manager.leaseTtlMs) :: members state.store (manager.redisKey key) 0 := by
    rw [members_add, members_prune, unexpired, other]
  refine ⟨_, step_acquire (by omega) filled.clock.le ?_ ?_, ?_⟩
  · intro drawn
    have older := filled.drawn clients drawn
    omega
  · rw [unexpired, filled.counts]
    exact room
  refine ⟨rfl, ?_, ?_, ?_, ?_, ?_⟩
  · intro token drawn
    rcases List.mem_cons.mp drawn with rfl | drawn
    · omega
    · have older := filled.drawn token drawn
      omega
  · simp only [List.length_cons, filled.holding]
  · intro holder holds
    rcases List.mem_cons.mp holds with rfl | holds
    · rfl
    · exact filled.since holder holds
  · simp only [listed, List.length_cons, filled.counts]
  · simp only [listed]
    intro member there
    rcases List.mem_cons.mp there with rfl | there
    · exact ⟨by omega, by omega⟩
    · obtain ⟨older, score⟩ := filled.tokens member there
      exact ⟨by omega, score⟩

theorem run_fill (key : String) (clients : Nat) (lasting : 0 < manager.leaseTtlMs) (lives : 0 ≤ life)
    (room : (clients : Int) ≤ maximum) :
    Meets (step manager key maximum) (InTime life) (State.initial 0) (fill clients) ∧
    ∃ last, run (step manager key maximum) (State.initial 0) (fill clients) = some last ∧
      Filled manager (manager.redisKey key) clients last := by
  induction clients with
  | zero =>
    refine ⟨trivial, _, rfl, rfl, ?_, rfl, ?_, rfl, ?_⟩
    · exact fun _ drawn => absurd drawn List.not_mem_nil
    · exact fun _ holds => absurd holds List.not_mem_nil
    · exact fun _ member => absurd member List.not_mem_nil
  | succ clients ih =>
    obtain ⟨met, middle, ran, filled⟩ := ih (by omega)
    obtain ⟨next, taken, more⟩ := filled.grows maximum lasting (by omega)
    have split : fill (clients + 1) = fill clients ++ [.acquire clients 0 0 .runs] := by
      rw [fill, List.range_succ, List.map_append]
      rfl
    rw [split]
    constructor
    · apply meets_append _ _ met
      intro reached same
      rw [ran] at same
      cases same
      refine ⟨?_, fun _ _ => trivial⟩
      intro holder holds
      rw [filled.since holder holds]
      simpa [Event.clock] using lives
    · exact ⟨next, run_append_single ran taken, more⟩

/-- A request that comes when all leases have just expired is one too many. -/
theorem Filled.exceeds {clients : Nat} (lasting : 0 < manager.leaseTtlMs)
    (filled : Filled manager (manager.redisKey key) clients state) (positive : 0 < maximum) :
    ∃ next, step manager key maximum state
        (.acquire clients manager.leaseTtlMs manager.leaseTtlMs .runs) = some next ∧
      next.holding.length = clients + 1 := by
  have expired : (members state.store (manager.redisKey key) manager.leaseTtlMs).filter
      (manager.leaseTtlMs < ·.2) = [] := by
    apply List.filter_eq_nil_iff.mpr
    intro member listed
    have before : member ∈ members state.store (manager.redisKey key) 0 := by
      cases here : found state.store (manager.redisKey key) manager.leaseTtlMs with
      | none =>
        rw [members_gone here] at listed
        cases listed
      | some leases =>
        rw [members_found here] at listed
        have there := found_some.mp here
        rw [members_found (found_some.mpr ⟨there.1, by omega⟩)]
        exact listed
    have score := (filled.tokens member before).2
    have passed : ¬ manager.leaseTtlMs < member.2 := by omega
    simp [passed]
  refine ⟨_, step_acquire positive ?_ ?_ ?_, ?_⟩
  · rw [filled.clock]
    exact lasting.le
  · intro drawn
    have older := filled.drawn clients drawn
    omega
  · rw [expired]
    exact positive
  · simp only [List.length_cons, filled.holding]

/-- A client has no more requests than its limit between a lease and its release exactly
when no request keeps its lease for as long as leases last. -/
theorem cap_holds_iff {keyPrefix scope : String} {ttl : Int} (key : String) (positive : 0 < maximum)
    (life : Int) :
    (∀ clock events last,
      run (step (.make keyPrefix scope ttl) key maximum) (State.initial clock) events = some last →
      Meets (step (.make keyPrefix scope ttl) key maximum) (InTime life) (State.initial clock)
        events →
      last.holding.length ≤ maximum) ↔
    life < (RedisConcurrencyManager.make keyPrefix scope ttl).leaseTtlMs := by
  have lasting : 0 < (RedisConcurrencyManager.make keyPrefix scope ttl).leaseTtlMs := by
    simp only [RedisConcurrencyManager.make]
    omega
  constructor
  · intro capped
    by_contra long
    have lives : 0 ≤ life := by omega
    have room : (maximum.toNat : Int) ≤ maximum := by omega
    obtain ⟨met, middle, ran, filled⟩ := run_fill key maximum.toNat lasting lives room
    obtain ⟨last, taken, more⟩ := filled.exceeds lasting positive
    have few := capped 0 (fill maximum.toNat ++ [.acquire maximum.toNat _ _ .runs]) last
      (run_append_single ran taken) (by
        apply meets_append _ _ met
        intro reached same
        rw [ran] at same
        cases same
        refine ⟨?_, fun _ _ => trivial⟩
        intro holder holds
        rw [filled.since holder holds, Event.clock]
        omega)
    rw [more] at few
    push_cast at few
    omega
  · intro short clock events last ran met
    have tracked := guarded_run_preserves
      (fun _ _ _ tracked within taken => Tracked.step positive short tracked within taken)
      events (tracked_initial positive clock) met ran
    exact tracked.counted.holders

/-- The manager of an application with the default configuration: four attempts of thirty
seconds and ten seconds more. -/
def defaultManager : RedisConcurrencyManager := .make "fcam" "client" (leaseTtlMs {})

theorem cap_holds_two_minutes :
    defaultManager.leaseTtlMs = 130000 ∧
      ∀ last, run (step defaultManager "1" 1) (State.initial 0)
        [.acquire 1 0 0 .runs, .acquire 2 120000 120000 .runs] = some last →
        last.holding.length ≤ (1 : Int) := by
  refine ⟨rfl, fun last ran => ?_⟩
  refine (cap_holds_iff "1" (by decide) 120000).mpr (by decide) 0 _ last ran ⟨?_, fun next taken => ?_⟩
  · exact fun _ holds => absurd holds List.not_mem_nil
  · refine ⟨?_, fun _ _ => trivial⟩
    have first : (step defaultManager "1" 1 (State.initial 0) (.acquire 1 0 0 .runs)).map
        State.holding = some [⟨1, 0⟩] := by decide +kernel
    have holding : next.holding = [⟨1, 0⟩] := by
      rw [show step defaultManager "1" 1 (State.initial 0) (.acquire 1 0 0 .runs) = some next from
        taken] at first
      exact Option.some.inj first
    intro holder holds
    rw [holding] at holds
    obtain rfl := List.mem_singleton.mp holds
    decide

open Forwarder

/-- A client that may retry four times, over five keys. -/
def patientCall : Call :=
  { plainCall with client := ClientObject.fresh 1 { maxRetries := 4 } }

def fiveKeys : Store :=
  { keys := ⟨[1, 2, 3, 4, 5], by decide, fun _ => {}⟩, clients := Table.empty {} }

/-- How long the upstream attempts of a forward take when each takes `attemptMs`. -/
def attemptsTime (attemptMs : Int) (events : Exchange ℚ) : Int := attemptMs * (sends events).length

/-- A client may have one request at a time. Its first request makes five attempts of 27
seconds and is still running when the second is let in. -/
theorem patient_client_exceeds_cap :
    let events := ((forward (plainSetup {}) patientCall).execute (refusingUpstream []) fiveKeys).1
    (27000 : Int) ≤ (plainSetup {}).config.firecrawl.timeout * 1000 ∧
      (run (step defaultManager "1" 1) (State.initial 0)
        [.acquire 1 0 0 .runs, .acquire 2 130000 130000 .runs]).map State.holding =
          some [⟨2, 130000⟩, ⟨1, 0⟩] ∧
      (run (step defaultManager "1" 1) (State.initial 0)
        [.acquire 1 0 0 .runs, .acquire 2 130000 130000 .runs,
          .release 1 (attemptsTime 27000 events)]).map State.holding = some [⟨2, 130000⟩] := by
  decide +kernel

end FcamGateway.Concurrency
