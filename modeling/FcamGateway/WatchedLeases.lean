import FcamGateway.ConcurrencyCap

/-! The two ways to take a lease. Without `EVAL` a request watches the set, prunes it itself and
adds its lease in a transaction, which its own prune can abort; what it comes to is what the
script does at one instant. -/
namespace FcamGateway.Concurrency

/-- The server's clock at the commands of one attempt. -/
structure Attempt where
  watch : Int
  prune : Int
  card : Int
  exec : Int

/-- The clock does not go back during an attempt. -/
structure Attempt.Ordered (attempt : Attempt) : Prop where
  pruned : attempt.watch ≤ attempt.prune
  counted : attempt.prune ≤ attempt.card
  executed : attempt.card ≤ attempt.exec

/-- The watched key has changed at `EXEC`, where no one else writes: the prune of the attempt has
removed a member, or the server has dropped the key. -/
def Attempt.changed (attempt : Attempt) (store : LeaseStore) (redisKey : String) (now : Int) : Bool :=
  match found store redisKey attempt.watch with
  | none => false
  | some leases => leases.members.any (·.2 ≤ now) || leases.expiresAt < attempt.exec

/-- The loop of `_acquire_fallback`, an attempt for each turn. -/
def acquireWatched (redisKey : String) (now ttl maximum : Int) (token : Nat) :
    List Attempt → LeaseStore → Except FcamError Int × LeaseStore
  | [], store => (.error stateUnavailable, store)
  | attempt :: later, store =>
    let pruned := prune store redisKey now attempt.prune
    if maximum ≤ card pruned redisKey attempt.card then (.ok 0, pruned)
    else if attempt.changed store redisKey now then
      acquireWatched redisKey now ttl maximum token later pruned
    else (.ok 1, add pruned redisKey token (now + ttl) ttl attempt.exec)

/-- What the script answers and leaves at a reading of the server's clock. -/
def scripted (redisKey : String) (now ttl maximum : Int) (token : Nat) (clock : Int)
    (store : LeaseStore) : Except FcamError Int × LeaseStore :=
  let done := acquireLua redisKey now ttl maximum token clock store
  (.ok done.1, done.2)

/-- The attempts of one call come one after the other. -/
def InOrder : Int → List Attempt → Prop
  | _, [] => True
  | clock, attempt :: later => clock ≤ attempt.watch ∧ attempt.Ordered ∧ InOrder attempt.exec later

/-- The server's clock when the attempts are over. -/
def lastClock : Int → List Attempt → Int
  | clock, [] => clock
  | _, attempt :: later => lastClock attempt.exec later

variable {redisKey : String} {now ttl maximum clock later start : Int} {token : Nat} {store : LeaseStore}
  {attempt : Attempt} {attempts : List Attempt}

/-- What is left of a set when members are taken out. -/
def narrow (keep : Nat × Int → Bool) (leases : Leases) : Option Leases :=
  let members := leases.members.filter keep
  if members = [] then none else some { leases with members }

theorem prune_eq (store : LeaseStore) (redisKey : String) (now clock : Int) :
    prune store redisKey now clock = Function.update store redisKey
      ((found store redisKey clock).bind (narrow fun member => now < member.2)) := by
  rw [prune]
  split
  · rename_i gone
    rw [gone, Option.bind_none]
  · rename_i leases there
    rw [there, Option.bind_some, write, narrow]

theorem release_eq (manager : RedisConcurrencyManager) (key : String) (token : Nat) (clock : Int)
    (store : LeaseStore) : manager.release key token clock store =
      Function.update store (manager.redisKey key) ((found store (manager.redisKey key) clock).bind
        (narrow fun member => member.1 ≠ token)) := by
  rw [RedisConcurrencyManager.release]
  cases there : found store (manager.redisKey key) clock with
  | none => rfl
  | some leases => rfl

theorem narrow_some {keep : Nat × Int → Bool} {leases other : Leases}
    (some_ : narrow keep leases = some other) :
    other = { leases with members := leases.members.filter keep } := by
  rw [narrow] at some_
  split at some_
  · cases some_
  · exact (Option.some.inj some_).symm

theorem narrow_mem {keep : Nat × Int → Bool} {leases : Leases} {member : Nat × Int}
    (listed : member ∈ leases.members) (stays : keep member = true) :
    narrow keep leases = some { leases with members := leases.members.filter keep } := by
  have left := List.mem_filter.mpr ⟨listed, stays⟩
  rw [narrow, if_neg (List.ne_nil_of_mem left)]

theorem narrow_narrow (keep : Nat × Int → Bool) (leases : Leases) :
    (narrow keep leases).bind (narrow keep) = narrow keep leases := by
  rw [narrow]
  split
  · rfl
  · rename_i some_
    simp only [Option.bind_some, narrow, List.filter_filter, Bool.and_self, if_neg some_]

theorem found_update (store : LeaseStore) (redisKey : String) (value : Option Leases) (clock : Int) :
    found (Function.update store redisKey value) redisKey clock =
      value.filter fun leases => clock ≤ leases.expiresAt := by
  rw [found, Function.update_self]

/-- What is found at a later reading was there before. -/
theorem found_later (after : clock ≤ later) : found store redisKey later =
    (found store redisKey clock).filter fun leases => later ≤ leases.expiresAt := by
  rw [found, found, Option.filter_filter]
  congr 1
  funext leases
  by_cases live : later ≤ leases.expiresAt
  · simp only [live, after.trans live, decide_true, Bool.and_self]
  · simp only [live, decide_false, Bool.and_false]

theorem narrow_expiry (keep : Nat × Int → Bool) (leases : Leases) (live : Int → Bool) :
    ((narrow keep leases).filter fun other => live other.expiresAt).bind (narrow keep) =
      ((some leases).filter fun other => live other.expiresAt).bind (narrow keep) := by
  cases some_ : narrow keep leases with
  | none => cases lives : live leases.expiresAt <;> simp [Option.filter, some_, lives]
  | some other =>
    have same : other.expiresAt = leases.expiresAt := by rw [narrow_some some_]
    have idle : narrow keep other = some other := by
      have twice := narrow_narrow keep leases
      rw [some_] at twice
      exact twice
    cases lives : live leases.expiresAt <;> simp [Option.filter, some_, lives, same, idle]

/-- A second prune at a later reading is the only one that counts. -/
theorem prune_prune (after : clock ≤ later) :
    prune (prune store redisKey now clock) redisKey now later = prune store redisKey now later := by
  rw [prune_eq, prune_eq, prune_eq, Function.update_idem, found_update, found_later after]
  congr 1
  cases found store redisKey clock with
  | none => rfl
  | some leases => exact narrow_expiry _ leases (fun expiry => later ≤ expiry)

theorem pruned_scores {member : Nat × Int}
    (listed : member ∈ members (prune store redisKey now clock) redisKey later) : now < member.2 := by
  rw [members, prune_eq, found_update] at listed
  cases there : (found store redisKey clock).bind (narrow fun member => now < member.2) with
  | none =>
    rw [there] at listed
    cases listed
  | some leases =>
    obtain ⟨before, -, some_⟩ := Option.bind_eq_some_iff.mp there
    rw [there, narrow_some some_] at listed
    simp only [Option.filter] at listed
    split at listed
    · exact of_decide_eq_true (List.mem_filter.mp listed).2
    · cases listed

/-- What a prune leaves for a later command. -/
theorem members_prune_later (after : clock ≤ later) :
    members (prune store redisKey now clock) redisKey later =
      (members store redisKey later).filter (now < ·.2) := by
  rw [← members_prune, ← prune_prune after, members_prune]
  exact (List.filter_eq_self.mpr fun member listed => decide_eq_true (pruned_scores listed)).symm

theorem members_later (store : LeaseStore) (redisKey : String) (after : clock ≤ later) :
    members store redisKey later = [] ∨
      members store redisKey later = members store redisKey clock := by
  rw [members, members, found_later after]
  cases found store redisKey clock with
  | none => exact .inl rfl
  | some leases =>
    by_cases live : later ≤ leases.expiresAt
    · exact .inr (by simp [Option.filter, live])
    · exact .inl (by simp [Option.filter, live])

/-! ## One attempt -/

/-- The script prunes for itself. -/
theorem scripted_prune (after : clock ≤ later) :
    scripted redisKey now ttl maximum token later (prune store redisKey now clock) =
      scripted redisKey now ttl maximum token later store := by
  simp only [scripted, acquireLua, prune_prune after]

/-- An attempt that finds no room answers as the script does when it counts. -/
theorem scripted_refuses (positive : 0 < maximum) (after : clock ≤ later)
    (full : maximum ≤ card (prune store redisKey now clock) redisKey later) :
    scripted redisKey now ttl maximum token later store =
      (.ok 0, prune store redisKey now clock) := by
  have same : prune store redisKey now later = prune store redisKey now clock := by
    cases there : found store redisKey later with
    | none =>
      rw [card_members, members_prune_later after, members_gone there] at full
      exact absurd (positive.trans_le full) (lt_irrefl 0)
    | some leases =>
      have before : found store redisKey clock = some leases := by
        obtain ⟨held, live⟩ := found_some.mp there
        exact found_some.mpr ⟨held, after.trans live⟩
      rw [prune_eq, prune_eq, there, before]
  simp only [scripted, acquireLua, same, if_pos full]

/-- An attempt whose transaction goes through answers as the script does at its `EXEC`. -/
theorem scripted_grants {counted : Int} (pruned : clock ≤ counted) (after : counted ≤ later)
    (room : ¬ maximum ≤ card (prune store redisKey now clock) redisKey counted) :
    scripted redisKey now ttl maximum token later store =
      (.ok 1, add (prune store redisKey now clock) redisKey token (now + ttl) ttl later) := by
  have left : members (prune store redisKey now later) redisKey later =
      members (prune store redisKey now clock) redisKey later := by
    rw [members_prune, members_prune_later (pruned.trans after)]
  have open_ : ¬ maximum ≤ card (prune store redisKey now later) redisKey later := by
    rw [card_members] at room ⊢
    rw [left]
    rcases members_later (prune store redisKey now clock) redisKey after with none | same
    · rw [none, List.length_nil]
      omega
    · rw [same]
      exact room
  have added : add (prune store redisKey now later) redisKey token (now + ttl) ttl later =
      add (prune store redisKey now clock) redisKey token (now + ttl) ttl later := by
    change write _ redisKey ⟨_ :: (members _ redisKey later).filter _, _⟩ =
      write _ redisKey ⟨_ :: (members _ redisKey later).filter _, _⟩
    rw [left, prune_eq, prune_eq, write, write, Function.update_idem, Function.update_idem]
  simp only [scripted, acquireLua, if_neg open_, added]

theorem le_lastClock (order : InOrder start attempts) : start ≤ lastClock start attempts := by
  induction attempts generalizing start with
  | nil => exact le_refl _
  | cons attempt attempts ih =>
    obtain ⟨first, ⟨pruned, counted, executed⟩, rest⟩ := order
    exact (first.trans (pruned.trans (counted.trans executed))).trans (ih rest)

/-- An attempt answers as the script does at one of its commands, or it is aborted and leaves
the set pruned to the next one. -/
theorem attempt_cases (ttl : Int) (token : Nat) (attempts : List Attempt) (store : LeaseStore)
    (positive : 0 < maximum) (ordered : attempt.Ordered) :
    (∃ clock, attempt.watch ≤ clock ∧ clock ≤ attempt.exec ∧
      acquireWatched redisKey now ttl maximum token (attempt :: attempts) store =
        scripted redisKey now ttl maximum token clock store) ∨
    attempt.changed store redisKey now = true ∧
      acquireWatched redisKey now ttl maximum token (attempt :: attempts) store =
        acquireWatched redisKey now ttl maximum token attempts
          (prune store redisKey now attempt.prune) := by
  obtain ⟨pruned, counted, executed⟩ := ordered
  by_cases full : maximum ≤ card (prune store redisKey now attempt.prune) redisKey attempt.card
  · refine .inl ⟨attempt.card, pruned.trans counted, executed, ?_⟩
    rw [scripted_refuses positive counted full]
    simp only [acquireWatched, if_pos full]
  · cases changed : attempt.changed store redisKey now with
    | true => exact .inr ⟨rfl, by simp only [acquireWatched, if_neg full, changed, if_true]⟩
    | false =>
      refine .inl ⟨attempt.exec, (pruned.trans counted).trans executed, le_refl _, ?_⟩
      rw [scripted_grants counted executed full]
      simp only [acquireWatched, if_neg full, changed, Bool.false_eq_true, if_false]

/-- A set that was pruned changes only when the server drops it, and then it is gone. -/
theorem changed_pruned (after : attempt.exec ≤ later)
    (changed : attempt.changed (prune store redisKey now clock) redisKey now = true) :
    found (prune store redisKey now clock) redisKey later = none := by
  rw [Attempt.changed] at changed
  split at changed
  · cases changed
  · rename_i leases there
    have fresh : leases.members.any (·.2 ≤ now) = false := by
      rw [List.any_eq_false]
      intro member listed old
      have kept : member ∈ members (prune store redisKey now clock) redisKey attempt.watch :=
        members_found there ▸ listed
      have score : now < member.2 := pruned_scores kept
      exact absurd (of_decide_eq_true old) (not_le.mpr score)
    rw [fresh, Bool.false_or] at changed
    have expired := of_decide_eq_true changed
    cases back : found (prune store redisKey now clock) redisKey later with
    | none => rfl
    | some other =>
      obtain ⟨held, live⟩ := found_some.mp back
      obtain rfl := Option.some.inj ((found_some.mp there).1.symm.trans held)
      omega

/-- A prune brings nothing back. -/
theorem found_prune_gone (gone : found store redisKey later = none) :
    found (prune store redisKey now clock) redisKey later = none := by
  rw [prune_eq, found_update]
  cases there : (found store redisKey clock).bind (narrow fun member => now < member.2) with
  | none => rfl
  | some other =>
    obtain ⟨leases, before, some_⟩ := Option.bind_eq_some_iff.mp there
    have passed : ¬ later ≤ other.expiresAt := by
      intro live
      rw [narrow_some some_] at live
      have back := found_some.mpr ⟨(found_some.mp before).1, live⟩
      rw [gone] at back
      cases back
    simp [Option.filter, passed]

/-- Without other writers, three attempts are enough: the first is aborted by its own prune at
most, the second by the server at most. What they come to is what the script does at one of
their commands. -/
theorem acquireWatched_scripted (ttl : Int) (token : Nat) (store : LeaseStore) (positive : 0 < maximum)
    (enough : 3 ≤ attempts.length) (order : InOrder start attempts) :
    ∃ clock, start ≤ clock ∧ clock ≤ lastClock start attempts ∧
      acquireWatched redisKey now ttl maximum token attempts store =
        scripted redisKey now ttl maximum token clock store := by
  match attempts, enough, order with
  | first :: second :: third :: rest, _, ⟨one, ordered, two, orderedSecond, three, orderedThird, more⟩ =>
    have ends := le_lastClock more
    have spent := (ordered.pruned.trans ordered.counted).trans ordered.executed
    have spentSecond :=
      (orderedSecond.pruned.trans orderedSecond.counted).trans orderedSecond.executed
    have spentThird := (orderedThird.pruned.trans orderedThird.counted).trans orderedThird.executed
    simp only [lastClock]
    rcases attempt_cases ttl token (second :: third :: rest) store positive ordered with
      ⟨clock, least, most, same⟩ | ⟨-, same⟩
    · exact ⟨clock, by omega, by omega, same⟩
    rw [same]
    have early := ordered.counted.trans ordered.executed
    rcases attempt_cases ttl token (third :: rest) (prune store redisKey now first.prune) positive
      orderedSecond with ⟨clock, least, most, same⟩ | ⟨changed, same⟩
    · refine ⟨clock, by omega, by omega, ?_⟩
      rw [same, scripted_prune (by omega)]
    rw [same]
    have gone : found (prune (prune store redisKey now first.prune) redisKey now second.prune) redisKey
        third.watch = none := found_prune_gone (changed_pruned three changed)
    rcases attempt_cases ttl token rest
      (prune (prune store redisKey now first.prune) redisKey now second.prune) positive
      orderedThird with ⟨clock, least, most, same⟩ | ⟨changed, -⟩
    · have later := orderedSecond.counted.trans orderedSecond.executed
      refine ⟨clock, by omega, by omega, ?_⟩
      rw [same, scripted_prune (by omega), scripted_prune (by omega)]
    · rw [Attempt.changed, gone] at changed
      cases changed

/-- All commands of an attempt at one instant. -/
def Attempt.still (clock : Int) : Attempt := ⟨clock, clock, clock, clock⟩

/-- At one instant, the conflicts of the fallback are those that its own prune makes. -/
theorem acquireWatched_still (ttl maximum : Int) (token tries : Nat) (store : LeaseStore) :
    acquireWatched redisKey now ttl maximum token
        (List.replicate (tries + 2) (Attempt.still clock)) store =
      acquireFallback redisKey now ttl maximum token clock (tries + 2)
        (if (Attempt.still clock).changed store redisKey now then 1 else 0) store := by
  have settled :
      (Attempt.still clock).changed (prune store redisKey now clock) redisKey now = false := by
    cases changed : (Attempt.still clock).changed (prune store redisKey now clock) redisKey now with
    | false => rfl
    | true =>
      have gone : found (prune store redisKey now clock) redisKey clock = none :=
        changed_pruned (Attempt.still clock).exec.le_refl changed
      rw [Attempt.changed, Attempt.still, gone] at changed
      cases changed
  have pruned : (Attempt.still clock).prune = clock := rfl
  have counted : (Attempt.still clock).card = clock := rfl
  have executed : (Attempt.still clock).exec = clock := rfl
  rw [List.replicate_succ, List.replicate_succ, acquireWatched, acquireWatched]
  simp only [pruned, counted, executed, settled]
  by_cases full : maximum ≤ card (prune store redisKey now clock) redisKey clock
  · rw [if_pos full]
    split <;> exact (if_pos full).symm
  · rw [if_neg full]
    cases changed : (Attempt.still clock).changed store redisKey now with
    | false => exact (if_neg full).symm
    | true => exact (if_neg full).symm

end FcamGateway.Concurrency
