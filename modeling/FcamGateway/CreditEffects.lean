import FcamGateway.Credits

/-! What applying a credit result can do to a row object. Everything that is
proved about refresh rounds, the probe after a refusal and the manual refresh
starts from this one description. -/
namespace FcamGateway.Credits
open Prog

/-- The columns after a result was applied. -/
inductive Applied (result : CreditFetchResult) (columns : KeyColumns) : KeyColumns → Prop where
  | decryptFailed (kind : result.kind = .decryptFailed) :
    Applied result columns { columns with
      status := "decrypt_failed", isActive := false, nextRefreshAt := none }
  | invalid (kind : result.kind = .invalid) :
    Applied result columns { columns with
      status := "invalid", isActive := false, nextRefreshAt := none
      cachedRemainingCredits := some 0 }
  | cooling (kind : result.kind = .cooling) (now : Instant)
    (read : ∀ fetchedAt, result.fetchedAt = some fetchedAt → now = fetchedAt) :
    Applied result columns { columns with status := "cooling", cooldownUntil := some now }
  | success (kind : result.kind = .success) (snapshotId : Nat) (now : Instant)
    (next : Option Instant) :
    Applied result columns { columns with
      cachedRemainingCredits := some result.remainingCredits
      cachedPlanCredits := some result.planCredits
      lastCreditSnapshotId := some snapshotId
      lastCreditCheckAt := some now
      nextRefreshAt := next }
  | error (kind : result.kind = .error) : Applied result columns columns

set_option linter.unusedSectionVars false

variable {R : Type} [Field R] [LinearOrder R] {State : Type}
  {monitor : Monitor State (Op R) (Reply R)} {holds : State → Prop} {state : State}

/-- The questions that applying a result asks. -/
structure KeepsApply (monitor : Monitor State (Op R) (Reply R)) (holds : State → Prop) : Prop where
  now : monitor.Keeps holds .now
  flush : ∀ snapshot, monitor.Keeps holds (.flushSnapshot snapshot)

theorem wp_flushSnapshot {post : Except Exn Nat → State → Prop}
    (keeps : KeepsApply monitor holds) (held : holds state) (snapshot : CreditSnapshot)
    (ok : ∀ id last, holds last → post (.ok id) last)
    (failed : ∀ last, holds last → post (.error .other) last) :
    (flushSnapshot snapshot).wp monitor post state := by
  refine wp_keeps (keeps.flush snapshot) held fun reply last held => ?_
  cases reply with
  | none => exact failed last held
  | some id => exact ok id last held

private theorem wp_applyFetchedAt {post : Except Exn KeyObject → State → Prop}
    (config : AppConfig R) (key : KeyObject) (result : CreditFetchResult) (now : Instant)
    (read : ∀ fetchedAt, result.fetchedAt = some fetchedAt → now = fetchedAt)
    (keeps : KeepsApply monitor holds) (held : holds state)
    (ok : ∀ columns last, holds last → Applied result key.current columns →
      post (.ok { key with current := columns }) last)
    (failed : ∀ last, holds last → post (.error .other) last) :
    (applyFetchedAt config key result now).wp monitor post state := by
  unfold applyFetchedAt
  split <;> rename_i kind <;> simp only [bind_eq, pure_eq, wp_bind]
  · exact wp_flushSnapshot keeps held _ (fun _ _ held => ok _ _ held (.decryptFailed kind)) failed
  · exact wp_flushSnapshot keeps held _ (fun _ _ held => ok _ _ held (.invalid kind)) failed
  · exact wp_flushSnapshot keeps held _ (fun _ _ held => ok _ _ held (.cooling kind now read)) failed
  · refine wp_flushSnapshot keeps held _ (fun id last held => ?_) failed
    refine wp_keeps keeps.now held fun clock last held => ?_
    exact ok _ _ held (.success kind id now _)
  · exact wp_flushSnapshot keeps held _ (fun _ _ held => ok _ _ held (.error kind)) failed

/-- Applying a result raises, or leaves the object with the columns described. -/
theorem wp_apply {post : Except Exn KeyObject → State → Prop} (config : AppConfig R)
    (key : KeyObject) (result : CreditFetchResult)
    (keeps : KeepsApply monitor holds) (held : holds state)
    (ok : ∀ columns last, holds last → Applied result key.current columns →
      post (.ok { key with current := columns }) last)
    (failed : ∀ last, holds last → post (.error .other) last) :
    (applyCreditFetchResult config key result).wp monitor post state := by
  unfold applyCreditFetchResult
  split <;> rename_i fetched
  · exact wp_applyFetchedAt config key result _ (by simp [fetched]) keeps held ok failed
  · refine wp_keeps keeps.now held fun now last held => ?_
    exact wp_applyFetchedAt config key result now (by simp [fetched]) keeps held ok failed

end FcamGateway.Credits
