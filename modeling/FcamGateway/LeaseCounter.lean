import FcamGateway.Runs
import Mathlib.Data.List.Count

/-! Concurrency limits held in memory: a counter for each key, and leases that take one off it
when they are released. The counter is tied to the leases that are out, whatever the order in
which they come back and however the maximum changes between calls. -/
namespace FcamGateway.LeaseCounter
open Runs

/-- `_State`. -/
structure State where
  current : Int := 0
  maximum : Int := 0
deriving DecidableEq

/-- A lease, and the key that its release takes one off. A lease that nothing limits takes
one off none. -/
structure Lease where
  releaseFn : Option String
  released : Bool := false
deriving DecidableEq

structure ConcurrencyManager where
  states : String → Option State

namespace ConcurrencyManager

def tryAcquire (manager : ConcurrencyManager) (key : String) (maximum : Int) :
    Option Lease × ConcurrencyManager :=
  if maximum ≤ 0 then (some { releaseFn := none }, manager)
  else
    let state := (manager.states key).getD { current := 0, maximum }
    let state := { state with maximum }
    if state.maximum ≤ state.current then
      (none, ⟨Function.update manager.states key (some state)⟩)
    else
      let state := { state with current := state.current + 1 }
      (some { releaseFn := some key }, ⟨Function.update manager.states key (some state)⟩)

/-- `_release`. -/
def release (manager : ConcurrencyManager) (key : String) : ConcurrencyManager :=
  match manager.states key with
  | none => manager
  | some state =>
    ⟨Function.update manager.states key (some { state with current := max (state.current - 1) 0 })⟩

def current (manager : ConcurrencyManager) (key : String) : Int :=
  match manager.states key with
  | none => 0
  | some state => state.current

end ConcurrencyManager

/-- `Lease.release`: only the first call does anything. -/
def Lease.release (lease : Lease) (manager : ConcurrencyManager) : Lease × ConcurrencyManager :=
  if lease.released then (lease, manager)
  else ({ lease with released := true }, lease.releaseFn.elim manager manager.release)

/-- A lease with the call it was granted to. -/
structure Grant where
  key : String
  maximum : Int
  lease : Lease

/-- The manager and every lease it has granted, in their order. -/
structure World where
  manager : ConcurrencyManager
  grants : List Grant

def World.initial : World := ⟨⟨fun _ => none⟩, []⟩

/-- A call of `try_acquire`, or of `release` on the lease that was granted as such a one. -/
inductive Call where
  | tryAcquire (key : String) (maximum : Int)
  | release (index : Nat)

def step (world : World) : Call → Option World
  | .tryAcquire key maximum =>
    let done := world.manager.tryAcquire key maximum
    some ⟨done.2, world.grants ++ (done.1.map fun lease => ⟨key, maximum, lease⟩).toList⟩
  | .release index =>
    world.grants[index]?.map fun grant =>
      let done := grant.lease.release world.manager
      ⟨done.2, world.grants.set index { grant with lease := done.1 }⟩

/-- The lease was granted for the key with a positive maximum, and is not released. -/
def Grant.out (grant : Grant) (key : String) : Bool :=
  grant.key = key ∧ 0 < grant.maximum ∧ grant.lease.released = false

/-- How many leases of a key are out. -/
def outstanding (grants : List Grant) (key : String) : Nat := grants.countP (·.out key)

/-- The counter of every key is the number of its leases that are out. -/
structure Accurate (world : World) : Prop where
  counts : ∀ key, world.manager.current key = outstanding world.grants key
  limited : ∀ grant ∈ world.grants,
    grant.lease.releaseFn = if 0 < grant.maximum then some grant.key else none

variable {manager : ConcurrencyManager} {world next : World} {key other : String} {maximum : Int}
  {grant : Grant} {state : State}

theorem current_update (manager : ConcurrencyManager) (key other : String) (state : State) :
    (⟨Function.update manager.states key (some state)⟩ : ConcurrencyManager).current other =
      if other = key then state.current else manager.current other := by
  by_cases same : other = key
  · subst same
    simp only [ConcurrencyManager.current, Function.update_self, if_true]
  · simp only [ConcurrencyManager.current, Function.update_of_ne same, if_neg same]

/-- The state that a call finds or makes counts what is current. -/
theorem current_getD (manager : ConcurrencyManager) (key : String) (maximum : Int) :
    ((manager.states key).getD { current := 0, maximum }).current = manager.current key := by
  rw [ConcurrencyManager.current]
  cases manager.states key <;> rfl

/-- A limited call grants a lease where the counter is below the maximum. -/
theorem tryAcquire_room (limited : 0 < maximum) (room : manager.current key < maximum) :
    (manager.tryAcquire key maximum).1 = some { releaseFn := some key } ∧
      ∀ other, (manager.tryAcquire key maximum).2.current other =
        if other = key then manager.current key + 1 else manager.current other := by
  have open_ : ¬ maximum ≤ ((manager.states key).getD { current := 0, maximum }).current := by
    rw [current_getD]
    omega
  simp only [ConcurrencyManager.tryAcquire, if_neg (Int.not_le.mpr limited), if_neg open_]
  refine ⟨trivial, fun other => ?_⟩
  rw [current_update, current_getD]

theorem tryAcquire_full (limited : 0 < maximum) (full : maximum ≤ manager.current key) :
    (manager.tryAcquire key maximum).1 = none ∧
      ∀ other, (manager.tryAcquire key maximum).2.current other = manager.current other := by
  have shut : maximum ≤ ((manager.states key).getD { current := 0, maximum }).current := by
    rw [current_getD]
    exact full
  simp only [ConcurrencyManager.tryAcquire, if_neg (Int.not_le.mpr limited), if_pos shut]
  refine ⟨trivial, fun other => ?_⟩
  rw [current_update, current_getD]
  split
  · rename_i same
    rw [same]
  · rfl

/-- A counter that is not zero goes down by one. -/
theorem current_release (positive : 0 < manager.current key) (other : String) :
    (manager.release key).current other =
      if other = key then manager.current key - 1 else manager.current other := by
  rw [ConcurrencyManager.release]
  cases here : manager.states key with
  | none =>
    rw [ConcurrencyManager.current, here] at positive
    exact absurd positive (Int.lt_irrefl 0)
  | some state =>
    have count : manager.current key = state.current := by
      rw [ConcurrencyManager.current, here]
    rw [count] at positive ⊢
    rw [current_update]
    split
    · exact Int.max_eq_left (by omega)
    · rfl

/-! ## One step -/

theorem outstanding_append (grants : List Grant) (grant : Grant) (key : String) :
    outstanding (grants ++ [grant]) key = outstanding grants key + if grant.out key then 1 else 0 := by
  rw [outstanding, List.countP_append, List.countP_singleton, outstanding]

/-- The release of a lease takes it out of the count of its key. -/
theorem outstanding_set {grants : List Grant} {index : Nat} (found : grants[index]? = some grant)
    (lease : Lease) (released : lease.released = true) (key : String) :
    outstanding (grants.set index { grant with lease }) key + (if grant.out key then 1 else 0) =
      outstanding grants key := by
  obtain ⟨within, rfl⟩ := List.getElem?_eq_some_iff.mp found
  have gone : Grant.out { grants[index] with lease } key = false := by
    simp [Grant.out, released]
  have counted : grants[index].out key = true → 0 < grants.countP (·.out key) :=
    fun out => List.countP_pos_iff.mpr ⟨_, List.getElem_mem within, out⟩
  rw [outstanding, List.countP_set within, gone, outstanding]
  split
  · rename_i out
    have positive := counted out
    simp only [Bool.false_eq_true, if_false]
    omega
  · simp only [Bool.false_eq_true, if_false]
    omega

theorem Accurate.tryAcquire (accurate : Accurate world)
    (taken : step world (.tryAcquire key maximum) = some next) : Accurate next := by
  cases taken
  by_cases limited : 0 < maximum
  · by_cases full : maximum ≤ world.manager.current key
    · obtain ⟨refused, unmoved⟩ := tryAcquire_full limited full
      simp only [refused, Option.map_none, Option.toList_none, List.append_nil]
      exact ⟨fun other => (unmoved other).trans (accurate.counts other), accurate.limited⟩
    · obtain ⟨granted, moved⟩ := tryAcquire_room limited (Int.not_le.mp full)
      simp only [granted, Option.map_some, Option.toList_some]
      constructor
      · intro other
        rw [moved, outstanding_append]
        by_cases same : other = key
        · subst same
          have counts := accurate.counts other
          simp [Grant.out, limited, counts]
        · have counts := accurate.counts other
          simp [Grant.out, same, Ne.symm same, counts]
      · intro grant member
        rcases List.mem_append.mp member with before | last
        · exact accurate.limited grant before
        · obtain rfl := List.mem_singleton.mp last
          exact (if_pos limited).symm
  · have free : maximum ≤ 0 := Int.not_lt.mp limited
    simp only [ConcurrencyManager.tryAcquire, if_pos free, Option.map_some, Option.toList_some]
    constructor
    · intro other
      rw [outstanding_append]
      have counts := accurate.counts other
      simp [Grant.out, limited, counts]
    · intro grant member
      rcases List.mem_append.mp member with before | last
      · exact accurate.limited grant before
      · obtain rfl := List.mem_singleton.mp last
        exact (if_neg limited).symm

/-- A lease that is out has its place in the counter of its key. -/
theorem Accurate.positive (accurate : Accurate world) (member : grant ∈ world.grants)
    (out : grant.out key = true) : 0 < world.manager.current key := by
  rw [accurate.counts]
  have counted : 0 < outstanding world.grants key := List.countP_pos_iff.mpr ⟨grant, member, out⟩
  omega

theorem Accurate.release {index : Nat} (accurate : Accurate world)
    (taken : step world (.release index) = some next) : Accurate next := by
  obtain ⟨grant, found, rfl⟩ := Option.map_eq_some_iff.mp taken
  have member := List.mem_of_getElem? found
  have limited : ∀ lease : Lease, lease.releaseFn = grant.lease.releaseFn →
      ∀ other ∈ world.grants.set index { grant with lease },
        other.lease.releaseFn = if 0 < other.maximum then some other.key else none := by
    intro lease same other listed
    rcases List.mem_or_eq_of_mem_set listed with before | rfl
    · exact accurate.limited other before
    · exact same.trans (accurate.limited grant member)
  cases released : grant.lease.released with
  | true =>
    simp only [Lease.release, released, if_true]
    have same : world.grants.set index grant = world.grants := by
      obtain ⟨within, rfl⟩ := List.getElem?_eq_some_iff.mp found
      exact List.set_getElem_self within
    rw [same]
    exact accurate
  | false =>
    simp only [Lease.release, released, Bool.false_eq_true, if_false]
    refine ⟨fun other => ?_, limited _ rfl⟩
    have set := outstanding_set found { grant.lease with released := true } rfl other
    have counts := accurate.counts other
    by_cases positive : 0 < grant.maximum
    · have gave : grant.lease.releaseFn.elim world.manager world.manager.release =
          world.manager.release grant.key := by
        rw [accurate.limited grant member, if_pos positive, Option.elim_some]
      have own : grant.out grant.key = true := by simp [Grant.out, positive, released]
      rw [gave, current_release (accurate.positive member own)]
      by_cases same : other = grant.key
      · subst same
        rw [if_pos own] at set
        rw [if_pos rfl]
        dsimp only at set ⊢
        omega
      · have apart : grant.out other = false := by simp [Grant.out, Ne.symm same]
        rw [apart] at set
        rw [if_neg same, counts, ← set]
        rfl
    · have kept : grant.lease.releaseFn.elim world.manager world.manager.release = world.manager := by
        rw [accurate.limited grant member, if_neg positive, Option.elim_none]
      have apart : grant.out other = false := by simp [Grant.out, positive]
      rw [apart] at set
      rw [kept, counts, ← set]
      rfl

theorem Accurate.step {call : Call} (accurate : Accurate world)
    (taken : LeaseCounter.step world call = some next) : Accurate next := by
  cases call with
  | tryAcquire key maximum => exact accurate.tryAcquire taken
  | release index => exact accurate.release taken

theorem accurate_initial : Accurate World.initial where
  counts _ := rfl
  limited _ member := absurd member List.not_mem_nil

/-! ## Runs -/

/-- After any calls on any keys, the counter of a key is the number of its limited leases that
are not released. A call grants a lease exactly where fewer than its maximum are out, so that a
grant leaves at most the maximum. No release that takes effect finds its counter at zero. -/
theorem counter_accurate (calls : List Call) (ran : run step World.initial calls = some world) :
    (∀ key, world.manager.current key = outstanding world.grants key) ∧
    (∀ key maximum next lease, 0 < maximum → (world.manager.tryAcquire key maximum).1 = some lease →
      step world (.tryAcquire key maximum) = some next →
      (outstanding next.grants key : Int) ≤ maximum) ∧
    (∀ key maximum, 0 < maximum → (world.manager.tryAcquire key maximum).1 = none →
      maximum ≤ outstanding world.grants key) ∧
    ∀ grant ∈ world.grants, ∀ key, grant.lease.released = false → grant.lease.releaseFn = some key →
      ∃ state, world.manager.states key = some state ∧ max (state.current - 1) 0 = state.current - 1 := by
  have accurate : Accurate world :=
    run_preserves (fun _ _ _ held taken => Accurate.step held taken) calls accurate_initial ran
  refine ⟨accurate.counts, ?_, ?_, ?_⟩
  · intro key maximum next lease limited granted taken
    have after := (accurate.step taken).counts key
    have room : world.manager.current key < maximum := by
      by_contra full
      have refused := (tryAcquire_full limited (Int.not_lt.mp full)).1
      rw [granted] at refused
      cases refused
    have moved := (tryAcquire_room limited room).2 key
    cases taken
    rw [← after]
    simp only [moved, if_true]
    omega
  · intro key maximum limited refused
    rw [← accurate.counts]
    by_contra room
    have granted := (tryAcquire_room limited (Int.not_le.mp room)).1
    rw [refused] at granted
    cases granted
  · intro grant member key unreleased closure
    have limited := accurate.limited grant member
    rw [closure] at limited
    split at limited
    · rename_i positive
      cases limited
      have own : grant.out grant.key = true := by simp [Grant.out, positive, unreleased]
      have counted := accurate.positive member own
      rw [ConcurrencyManager.current] at counted
      split at counted
      · cases counted
      · rename_i state here
        exact ⟨state, here, Int.max_eq_left (by omega)⟩
    · cases limited

/-- Of two leases one comes back twice, next to one that nothing limits. A call with a lower
maximum is refused. -/
def borrowing : List Call :=
  [.tryAcquire "1" 2, .tryAcquire "1" 0, .tryAcquire "1" 2, .release 0, .release 0, .release 1,
    .tryAcquire "1" 1]

theorem borrowing_counted : ∃ world, run step World.initial borrowing = some world ∧
    world.grants.length = 3 ∧ world.manager.current "1" = 1 := by
  refine ⟨_, rfl, rfl, ?_⟩
  rw [(counter_accurate borrowing rfl).1]
  rfl

end FcamGateway.LeaseCounter
