import FcamGateway.WatchedLeases

/-! The life of a lease in Redis. Its score and the expiry of the whole key run out on their own,
and calls for the same key may give different maxima; for as long as a lease lasts, the set has
its member. -/
namespace FcamGateway.LeaseLife

open Concurrency (LeaseStore Leases Lease RedisConcurrencyManager Attempt InOrder lastClock found
  write prune card add members scripted acquireWatched)
open Runs

/-- How `try_acquire` reaches the server: with the script, at a reading of the server's clock, by
the fallback, or with a script that raises for the request, whether or not the server ran it. -/
inductive Route where
  | script (clock : Int)
  | fallback (attempts : List Attempt)
  | failed (clock : Int) (ran : Bool)

/-- The commands come after a reading of the clock. -/
def Route.After (start : Int) : Route → Prop
  | .script clock => start ≤ clock
  | .fallback attempts => attempts.length = 5 ∧ InOrder start attempts
  | .failed clock _ => start ≤ clock

/-- The server's clock at the last command. -/
def Route.ends (start : Int) : Route → Int
  | .script clock => clock
  | .fallback attempts => lastClock start attempts
  | .failed clock _ => clock

instance (attempt : Attempt) : Decidable attempt.Ordered :=
  decidable_of_iff (attempt.watch ≤ attempt.prune ∧ attempt.prune ≤ attempt.card ∧
    attempt.card ≤ attempt.exec)
    ⟨fun ⟨pruned, counted, executed⟩ => ⟨pruned, counted, executed⟩,
      fun ⟨pruned, counted, executed⟩ => ⟨pruned, counted, executed⟩⟩

instance decidableInOrder : (start : Int) → (attempts : List Attempt) →
    Decidable (InOrder start attempts)
  | _, [] => isTrue trivial
  | _, attempt :: later =>
    have := decidableInOrder attempt.exec later
    inferInstanceAs (Decidable (_ ∧ _ ∧ _))

instance (start : Int) : (route : Route) → Decidable (route.After start)
  | .script clock => inferInstanceAs (Decidable (start ≤ clock))
  | .fallback _ => inferInstanceAs (Decidable (_ ∧ _))
  | .failed clock _ => inferInstanceAs (Decidable (start ≤ clock))

/-- `try_acquire`, on one of these routes. -/
def tryAcquire (manager : RedisConcurrencyManager) (key : String) (maximum : Int) (token : Nat)
    (now : Int) (route : Route) (store : LeaseStore) :
    Except FcamError (Option Lease) × LeaseStore :=
  if maximum ≤ 0 then (.ok (some ⟨none⟩), store)
  else
    let replied : Except FcamError Int × LeaseStore :=
      match route with
      | .script clock =>
        scripted (manager.redisKey key) now manager.leaseTtlMs maximum token clock store
      | .fallback attempts =>
        acquireWatched (manager.redisKey key) now manager.leaseTtlMs maximum token attempts store
      | .failed clock ran =>
        (.error stateUnavailable,
          if ran then
            (scripted (manager.redisKey key) now manager.leaseTtlMs maximum token clock store).2
          else store)
    (replied.1.map fun ok => if ok = 1 then some ⟨some token⟩ else none, replied.2)

/-- A lease that is not released, with the reading of the clock it was asked for at. -/
structure Held where
  key : String
  token : Nat
  since : Int
deriving DecidableEq

/-- Redis, the clock of its last command, the leases that are not released and the tokens drawn. -/
structure State where
  store : LeaseStore
  clock : Int
  leases : List Held
  drawn : List Nat

def State.initial (clock : Int) : State := ⟨fun _ => none, clock, [], []⟩

/-- The calls. A release may fail to reach the server, which is only logged. -/
inductive Call where
  | tryAcquire (key : String) (maximum : Int) (token : Nat) (now : Int) (route : Route)
  | release (token : Nat) (clock : Int) (reached : Bool)

def step (manager : RedisConcurrencyManager) (state : State) : Call → Option State
  | .tryAcquire key maximum token now route =>
    if token ∉ state.drawn ∧ route.After (max state.clock now) then
      let done := tryAcquire manager key maximum token now route state.store
      some
        { store := done.2
          clock := route.ends (max state.clock now)
          leases :=
            match done.1 with
            | .ok (some ⟨some token⟩) => ⟨key, token, now⟩ :: state.leases
            | _ => state.leases
          drawn := token :: state.drawn }
    else none
  | .release token clock reached =>
    if clock < state.clock then none
    else
      match state.leases.find? (·.token = token) with
      | none => some { state with clock }
      | some lease => some { state with
          clock
          store :=
            if reached then manager.release lease.key token clock state.store else state.store
          leases := state.leases.filter (·.token ≠ token) }

/-- What the leases of a manager rely on: each has its member in the set for as long as it lasts,
and no set expires before its members. -/
structure Kept (manager : RedisConcurrencyManager) (state : State) : Prop where
  held : ∀ lease ∈ state.leases, state.clock < lease.since + manager.leaseTtlMs →
    ∃ set, state.store (manager.redisKey lease.key) = some set ∧
      (lease.token, lease.since + manager.leaseTtlMs) ∈ set.members
  lasting : ∀ redisKey set, state.store redisKey = some set →
    (∀ member ∈ set.members, member.2 ≤ set.expiresAt) ∧
      set.expiresAt ≤ state.clock + max 1 ((manager.leaseTtlMs + 999) / 1000) * 1000
  drawn : ∀ lease ∈ state.leases, lease.token ∈ state.drawn

variable {manager : RedisConcurrencyManager} {state next : State} {key redisKey : String}
  {maximum now clock : Int} {token : Nat} {route : Route} {lease : Held} {store : LeaseStore}

/-- With the script, a call is what it is for the instances of one client. -/
theorem tryAcquire_script (store : LeaseStore) :
    tryAcquire manager key maximum token now (.script clock) store =
      manager.tryAcquire key maximum token now clock .runs store := rfl

/-- So it is with the fallback, at one instant. -/
theorem tryAcquire_fallback (store : LeaseStore) :
    tryAcquire manager key maximum token now (.fallback (List.replicate 5 (.still clock))) store =
      manager.tryAcquire key maximum token now clock (.unknownCommand
        (if (Attempt.still clock).changed store (manager.redisKey key) now then 1 else 0)) store := by
  rw [tryAcquire, RedisConcurrencyManager.tryAcquire]
  simp only [Concurrency.acquireWatched_still]

/-! ## One command -/

theorem Kept.later (kept : Kept manager state) (after : state.clock ≤ clock) :
    Kept manager { state with clock } := by
  refine ⟨fun lease member young => kept.held lease member (lt_of_le_of_lt after young), ?_, kept.drawn⟩
  intro redisKey set here
  obtain ⟨scores, bound⟩ := kept.lasting redisKey set here
  exact ⟨scores, by dsimp only; omega⟩

/-- The server still finds the set of a lease that lasts. -/
theorem Kept.found (kept : Kept manager state) (member : lease ∈ state.leases)
    (young : state.clock < lease.since + manager.leaseTtlMs) :
    ∃ set, Concurrency.found state.store (manager.redisKey lease.key) state.clock = some set ∧
      (lease.token, lease.since + manager.leaseTtlMs) ∈ set.members := by
  obtain ⟨set, here, listed⟩ := kept.held lease member young
  have score := (kept.lasting _ set here).1 _ listed
  exact ⟨set, Concurrency.found_some.mpr ⟨here, by dsimp only at score; omega⟩, listed⟩

/-- A command that takes members out of a set, and none of a lease that lasts. -/
theorem Kept.narrow (kept : Kept manager state) (redisKey : String) (keep : Nat × Int → Bool)
    (leases : List Held) (fewer : ∀ lease ∈ leases, lease ∈ state.leases)
    (stays : ∀ lease ∈ leases, state.clock < lease.since + manager.leaseTtlMs →
      keep (lease.token, lease.since + manager.leaseTtlMs) = true) :
    Kept manager
      { state with
        store := Function.update state.store redisKey
          ((Concurrency.found state.store redisKey state.clock).bind (Concurrency.narrow keep))
        leases } := by
  refine ⟨?_, ?_, fun lease member => kept.drawn lease (fewer lease member)⟩
  · intro lease member young
    by_cases same : manager.redisKey lease.key = redisKey
    · obtain ⟨set, there, listed⟩ := kept.found (fewer lease member) young
      have left := stays lease member young
      rw [same] at there
      refine ⟨{ set with members := set.members.filter keep }, ?_,
        List.mem_filter.mpr ⟨listed, left⟩⟩
      dsimp only
      rw [same, Function.update_self, there, Option.bind_some, Concurrency.narrow_mem listed left]
    · obtain ⟨set, here, listed⟩ := kept.held lease (fewer lease member) young
      exact ⟨set, by rw [← here]; exact Function.update_of_ne same _ _, listed⟩
  · intro other set here
    dsimp only at here
    by_cases same : other = redisKey
    · subst same
      rw [Function.update_self] at here
      obtain ⟨before, there, some_⟩ := Option.bind_eq_some_iff.mp here
      obtain ⟨scores, bound⟩ := kept.lasting other before (Concurrency.found_some.mp there).1
      rw [Concurrency.narrow_some some_]
      exact ⟨fun member listed => scores member (List.mem_of_mem_filter listed), bound⟩
    · rw [Function.update_of_ne same] at here
      exact kept.lasting other set here

theorem Kept.prune (kept : Kept manager state) (redisKey : String) (read : now ≤ state.clock) :
    Kept manager { state with store := Concurrency.prune state.store redisKey now state.clock } := by
  rw [Concurrency.prune_eq]
  exact kept.narrow redisKey _ _ (fun _ member => member)
    fun lease _ young => decide_eq_true (read.trans_lt young)

theorem Kept.remove (kept : Kept manager state) (key : String) (token : Nat) :
    Kept manager
      { state with
        store := manager.release key token state.clock state.store
        leases := state.leases.filter (·.token ≠ token) } := by
  rw [Concurrency.release_eq]
  exact kept.narrow _ _ _ (fun _ member => List.mem_of_mem_filter member)
    fun lease member _ => (List.mem_filter.mp member).2

/-- A new lease joins its set, whose expiry moves to its own. -/
theorem Kept.add (kept : Kept manager state) (key : String) (read : now ≤ state.clock)
    (fresh : token ∉ state.drawn) :
    Kept manager
      { state with
        store := Concurrency.add state.store (manager.redisKey key) token
          (now + manager.leaseTtlMs) manager.leaseTtlMs state.clock
        leases := ⟨key, token, now⟩ :: state.leases
        drawn := token :: state.drawn } := by
  have written : Concurrency.add state.store (manager.redisKey key) token
      (now + manager.leaseTtlMs) manager.leaseTtlMs state.clock =
      Function.update state.store (manager.redisKey key) (some
        ⟨(token, now + manager.leaseTtlMs) ::
            (members state.store (manager.redisKey key) state.clock).filter (·.1 ≠ token),
          state.clock + max 1 ((manager.leaseTtlMs + 999) / 1000) * 1000⟩) := rfl
  rw [written]
  refine ⟨?_, ?_, ?_⟩
  · intro lease member young
    dsimp only at young ⊢
    rcases List.mem_cons.mp member with rfl | before
    · exact ⟨_, Function.update_self _ _ _, List.mem_cons_self⟩
    · by_cases same : manager.redisKey lease.key = manager.redisKey key
      · obtain ⟨set, there, listed⟩ := kept.found before young
        rw [same] at there ⊢
        refine ⟨_, Function.update_self _ _ _, List.mem_cons_of_mem _ (List.mem_filter.mpr ⟨?_, ?_⟩)⟩
        · rw [Concurrency.members_found there]
          exact listed
        · exact decide_eq_true fun own => fresh (own ▸ kept.drawn lease before)
      · obtain ⟨set, here, listed⟩ := kept.held lease before young
        exact ⟨set, by rw [← here]; exact Function.update_of_ne same _ _, listed⟩
  · intro other set here
    dsimp only at here ⊢
    by_cases same : other = manager.redisKey key
    · subst same
      rw [Function.update_self] at here
      cases here
      refine ⟨?_, le_refl _⟩
      intro member listed
      dsimp only at listed ⊢
      rcases List.mem_cons.mp listed with rfl | before
      · dsimp only
        omega
      · have older := List.mem_of_mem_filter before
        cases there : Concurrency.found state.store (manager.redisKey key) state.clock with
        | none =>
          rw [Concurrency.members_gone there] at older
          cases older
        | some set =>
          rw [Concurrency.members_found there] at older
          obtain ⟨scores, bound⟩ := kept.lasting _ set (Concurrency.found_some.mp there).1
          exact (scores member older).trans bound
    · rw [Function.update_of_ne same] at here
      exact kept.lasting other set here
  · intro lease member
    rcases List.mem_cons.mp member with rfl | before
    · exact List.mem_cons_self
    · exact List.mem_cons_of_mem _ (kept.drawn lease before)

/-- The script prunes the set and adds the lease where there is room. -/
theorem scripted_cases (redisKey : String) (now ttl maximum : Int) (token : Nat) (clock : Int)
    (store : LeaseStore) :
    scripted redisKey now ttl maximum token clock store =
        (.ok 0, Concurrency.prune store redisKey now clock) ∨
      ((members (Concurrency.prune store redisKey now clock) redisKey clock).length : Int) < maximum ∧
        scripted redisKey now ttl maximum token clock store =
          (.ok 1, Concurrency.add (Concurrency.prune store redisKey now clock) redisKey token
            (now + ttl) ttl clock) := by
  by_cases full : maximum ≤ card (Concurrency.prune store redisKey now clock) redisKey clock
  · exact .inl (by simp only [scripted, Concurrency.acquireLua, if_pos full])
  · refine .inr ⟨?_, by simp only [scripted, Concurrency.acquireLua, if_neg full]⟩
    rw [Concurrency.card_members] at full
    omega

/-- The fallback does what the script does at some reading of the clock. -/
theorem fallback_scripted (manager : RedisConcurrencyManager) (key : String) (token : Nat)
    (now : Int) {start : Int} {attempts : List Attempt} (count : attempts.length = 5)
    (order : InOrder start attempts) (limited : 0 < maximum) (store : LeaseStore) :
    ∃ clock, start ≤ clock ∧ clock ≤ lastClock start attempts ∧
      tryAcquire manager key maximum token now (.fallback attempts) store =
        tryAcquire manager key maximum token now (.script clock) store := by
  obtain ⟨clock, least, most, same⟩ := @Concurrency.acquireWatched_scripted (manager.redisKey key)
    now maximum _ _ manager.leaseTtlMs token store limited (by omega) order
  refine ⟨clock, least, most, ?_⟩
  simp only [tryAcquire, same]

/-- What a call for a lease does: nothing where nothing is limited, a prune where the set is full,
and a lease where there is room. A call that raises may have left a member that no one holds. -/
inductive Taken (manager : RedisConcurrencyManager) (state : State) (key : String) (maximum : Int)
    (token : Nat) (now : Int) (next : State) : Prop where
  | free (limited : maximum ≤ 0) (after : state.clock ≤ next.clock)
      (same : next = { state with clock := next.clock, drawn := token :: state.drawn })
  | lost (after : state.clock ≤ next.clock)
      (same : next = { state with clock := next.clock, drawn := token :: state.drawn })
  | refused (clock : Int) (read : now ≤ clock) (after : state.clock ≤ clock)
      (ends : clock ≤ next.clock)
      (same : next =
        { store := Concurrency.prune state.store (manager.redisKey key) now clock
          clock := next.clock, leases := state.leases, drawn := token :: state.drawn })
  | granted (clock : Int) (read : now ≤ clock) (after : state.clock ≤ clock)
      (ends : clock ≤ next.clock) (fresh : token ∉ state.drawn)
      (room : ((members (Concurrency.prune state.store (manager.redisKey key) now clock)
        (manager.redisKey key) clock).length : Int) < maximum)
      (leases : List Held) (own : leases = ⟨key, token, now⟩ :: state.leases ∨ leases = state.leases)
      (same : next =
        { store := Concurrency.add (Concurrency.prune state.store (manager.redisKey key) now clock)
            (manager.redisKey key) token (now + manager.leaseTtlMs) manager.leaseTtlMs clock
          clock := next.clock, leases, drawn := token :: state.drawn })

theorem ends_after {start : Int} (after : route.After start) : start ≤ route.ends start := by
  cases route with
  | script clock => exact after
  | fallback attempts => exact Concurrency.le_lastClock after.2
  | failed clock ran => exact after

theorem step_fresh
    (taken : step manager state (.tryAcquire key maximum token now route) = some next) :
    token ∉ state.drawn := by
  simp only [step] at taken
  split at taken
  · rename_i allowed
    exact allowed.1
  · cases taken

theorem script_taken {clock : Int} (read : now ≤ clock) (after : state.clock ≤ clock)
    (ends : clock ≤ next.clock) (fresh : token ∉ state.drawn) (limited : 0 < maximum)
    (same : next =
      { store := (tryAcquire manager key maximum token now (.script clock) state.store).2
        clock := next.clock
        leases :=
          match (tryAcquire manager key maximum token now (.script clock) state.store).1 with
          | .ok (some ⟨some token⟩) => ⟨key, token, now⟩ :: state.leases
          | _ => state.leases
        drawn := token :: state.drawn }) :
    Taken manager state key maximum token now next := by
  simp only [tryAcquire, if_neg (not_le.mpr limited)] at same
  rcases scripted_cases (manager.redisKey key) now manager.leaseTtlMs maximum token clock
    state.store with refused | ⟨room, granted⟩
  · simp only [refused] at same
    exact .refused clock read after ends same
  · simp only [granted] at same
    exact .granted clock read after ends fresh room _ (.inl rfl) same

theorem failed_taken {clock : Int} {ran : Bool} (read : now ≤ clock) (after : state.clock ≤ clock)
    (ends : clock ≤ next.clock) (fresh : token ∉ state.drawn) (limited : 0 < maximum)
    (same : next =
      { store := (tryAcquire manager key maximum token now (.failed clock ran) state.store).2
        clock := next.clock, leases := state.leases, drawn := token :: state.drawn }) :
    Taken manager state key maximum token now next := by
  simp only [tryAcquire, if_neg (not_le.mpr limited)] at same
  cases ran with
  | false => exact .lost (after.trans ends) same
  | true =>
    rcases scripted_cases (manager.redisKey key) now manager.leaseTtlMs maximum token clock
      state.store with refused | ⟨room, granted⟩
    · simp only [refused] at same
      exact .refused clock read after ends same
    · simp only [granted] at same
      exact .granted clock read after ends fresh room _ (.inr rfl) same

theorem step_taken (taken : step manager state (.tryAcquire key maximum token now route) = some next) :
    Taken manager state key maximum token now next := by
  have fresh := step_fresh taken
  simp only [step] at taken
  split at taken
  · rename_i allowed
    obtain ⟨-, after⟩ := allowed
    have ends := ends_after after
    by_cases limited : 0 < maximum
    · cases route with
      | script clock =>
        cases taken
        exact script_taken ((le_max_right _ _).trans after) ((le_max_left _ _).trans after)
          (le_refl clock) fresh limited rfl
      | fallback attempts =>
        obtain ⟨clock, least, most, same⟩ :=
          fallback_scripted manager key token now after.1 after.2 limited state.store
        rw [same] at taken
        cases taken
        exact script_taken ((le_max_right _ _).trans least) ((le_max_left _ _).trans least)
          most fresh limited rfl
      | failed clock ran =>
        have raised : (tryAcquire manager key maximum token now (.failed clock ran) state.store).1 =
            .error stateUnavailable := by
          rw [tryAcquire, if_neg (not_le.mpr limited)]
          rfl
        rw [raised] at taken
        cases taken
        exact failed_taken ((le_max_right _ _).trans after) ((le_max_left _ _).trans after)
          (le_refl clock) fresh limited rfl
    · have free : maximum ≤ 0 := not_lt.mp limited
      simp only [tryAcquire, if_pos free] at taken
      cases taken
      exact .free free ((le_max_left _ _).trans ends) rfl
  · cases taken

theorem Kept.drawing (kept : Kept manager state) (token : Nat) :
    Kept manager { state with drawn := token :: state.drawn } :=
  ⟨kept.held, kept.lasting, fun lease member => List.mem_cons_of_mem _ (kept.drawn lease member)⟩

theorem Kept.fewer {leases : List Held} (kept : Kept manager state)
    (fewer : ∀ lease ∈ leases, lease ∈ state.leases) : Kept manager { state with leases } :=
  ⟨fun lease member => kept.held lease (fewer lease member), kept.lasting,
    fun lease member => kept.drawn lease (fewer lease member)⟩

theorem Kept.taken (kept : Kept manager state)
    (taken : Taken manager state key maximum token now next) : Kept manager next := by
  cases taken with
  | free limited after same =>
    rw [same]
    exact (kept.later after).drawing token
  | lost after same =>
    rw [same]
    exact (kept.later after).drawing token
  | refused clock read after ends same =>
    have pruned := (kept.later after).prune (manager.redisKey key) read
    rw [same]
    exact (pruned.drawing token).later ends
  | granted clock read after ends fresh room leases own same =>
    have pruned := (kept.later after).prune (manager.redisKey key) read
    have added := (pruned.add key read fresh).later ends
    have listed : ∀ lease ∈ leases, lease ∈ (⟨key, token, now⟩ : Held) :: state.leases := by
      intro lease member
      rcases own with own | own
      · exact own ▸ member
      · exact List.mem_cons_of_mem _ (own ▸ member)
    rw [same]
    exact added.fewer listed

theorem Kept.step {call : Call} (kept : Kept manager state)
    (taken : LeaseLife.step manager state call = some next) : Kept manager next := by
  cases call with
  | tryAcquire key maximum token now route => exact kept.taken (step_taken taken)
  | release token clock reached =>
    simp only [LeaseLife.step] at taken
    split at taken
    · cases taken
    rename_i early
    have after : state.clock ≤ clock := not_lt.mp early
    split at taken
    · cases taken
      exact kept.later after
    · rename_i lease held
      cases taken
      cases reached with
      | true => exact (kept.later after).remove lease.key token
      | false => exact (kept.later after).fewer fun lease member => List.mem_of_mem_filter member

theorem kept_initial (clock : Int) : Kept manager (State.initial clock) where
  held _ member := absurd member List.not_mem_nil
  lasting _ _ here := absurd here nofun
  drawn _ member := absurd member List.not_mem_nil

/-- A set that was just joined has no more members than the call allows. -/
theorem Taken.few (taken : Taken manager state key maximum token now next) (limited : 0 < maximum)
    (granted : ⟨key, token, now⟩ ∈ next.leases) (fresh : token ∉ state.leases.map Held.token) :
    ((members next.store (manager.redisKey key) next.clock).length : Int) ≤ maximum := by
  cases taken with
  | free free _ _ => omega
  | lost after same =>
    rw [same] at granted
    exact absurd (List.mem_map_of_mem granted) fresh
  | refused clock read after ends same =>
    rw [same] at granted
    exact absurd (List.mem_map_of_mem granted) fresh
  | granted clock read after ends _ room _ _ same =>
    have joined : ((members (Concurrency.add (Concurrency.prune state.store (manager.redisKey key)
        now clock) (manager.redisKey key) token (now + manager.leaseTtlMs) manager.leaseTtlMs clock)
        (manager.redisKey key) clock).length : Int) ≤ maximum := by
      rw [Concurrency.members_add, List.length_cons]
      have fewer := List.length_filter_le (fun member : Nat × Int => decide (member.1 ≠ token))
        (members (Concurrency.prune state.store (manager.redisKey key) now clock)
          (manager.redisKey key) clock)
      push_cast
      omega
    rw [same]
    dsimp only
    rcases Concurrency.members_later _ _ ends with none | same
    · rw [none, List.length_nil]
      omega
    · rw [same]
      exact joined

/-- Leases in Redis, for every sequence of calls. A lease that is not released and is younger than
`lease_ttl_ms` has its member in the set whenever the server looks; after a grant the set has
at most as many members as the call allows; and without other writers, the five attempts of the
fallback come to what the script does at one of their commands. -/
theorem leases_kept {start : Int} (manager : RedisConcurrencyManager) (calls : List Call)
    (ran : run (step manager) (State.initial start) calls = some state) :
    (∀ lease ∈ state.leases, ∀ clock, state.clock ≤ clock →
      clock - lease.since < manager.leaseTtlMs →
      (lease.token, lease.since + manager.leaseTtlMs) ∈
        members state.store (manager.redisKey lease.key) clock) ∧
    (∀ key maximum token now route next, 0 < maximum →
      step manager state (.tryAcquire key maximum token now route) = some next →
      ⟨key, token, now⟩ ∈ next.leases →
      ((members next.store (manager.redisKey key) next.clock).length : Int) ≤ maximum) ∧
    ∀ key maximum token now attempts, 0 < maximum → List.length attempts = 5 →
      InOrder state.clock attempts → ∃ clock, state.clock ≤ clock ∧
        clock ≤ lastClock state.clock attempts ∧
        acquireWatched (manager.redisKey key) now manager.leaseTtlMs maximum token attempts
          state.store =
        scripted (manager.redisKey key) now manager.leaseTtlMs maximum token clock state.store := by
  have kept : Kept manager state :=
    run_preserves (fun _ _ _ held taken => Kept.step held taken) calls (kept_initial start) ran
  refine ⟨?_, ?_, ?_⟩
  · intro lease member clock after young
    obtain ⟨set, there, listed⟩ := (kept.later after).found member (by dsimp only; omega)
    dsimp only at there
    rw [Concurrency.members_found there]
    exact listed
  · intro key maximum token now route next limited taken granted
    refine (step_taken taken).few limited granted fun held => ?_
    obtain ⟨lease, member, same⟩ := List.mem_map.mp held
    exact step_fresh taken (same ▸ kept.drawn lease member)
  · intro key maximum token now attempts limited count order
    exact Concurrency.acquireWatched_scripted _ token _ limited (by omega) order

/-- Two leases of one client, the second taken by the fallback under another maximum, and a
release. -/
def overlapping : List Call :=
  [.tryAcquire "1" 1 1 0 (.script 0),
    .tryAcquire "1" 2 2 1000 (.fallback (List.replicate 5 (.still 1000))), .release 1 2000 true]

theorem overlapping_kept : ∃ state,
    run (step Concurrency.defaultManager) (State.initial 0) overlapping = some state ∧
      state.leases = [⟨"1", 2, 1000⟩] ∧
      ∀ clock, state.clock ≤ clock → clock - 1000 < 130000 →
        (2, 131000) ∈ members state.store (Concurrency.defaultManager.redisKey "1") clock := by
  have ends : (run (step Concurrency.defaultManager) (State.initial 0) overlapping).map State.leases =
      some [⟨"1", 2, 1000⟩] := by decide +kernel
  obtain ⟨state, ran, held⟩ := Option.map_eq_some_iff.mp ends
  refine ⟨state, ran, held, fun clock after young => ?_⟩
  have member : (⟨"1", 2, 1000⟩ : Held) ∈ state.leases := held ▸ List.mem_singleton_self _
  exact (leases_kept Concurrency.defaultManager overlapping ran).1 _ member clock after young

end FcamGateway.LeaseLife
