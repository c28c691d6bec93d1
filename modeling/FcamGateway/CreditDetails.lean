import FcamGateway.CreditRefresh
import FcamGateway.KeyStore
import FcamGateway.Purge
import FcamGateway.Runs

/-! The credit details of a key. `api_keys.last_credit_snapshot_id` is a plain integer: a
refresh writes it, and neither the retention of snapshots nor the copy of the database into
another one looks at it. A state is what the transactions of the gateway have committed. -/
namespace FcamGateway.CreditDetails

open Credits CreditRefresh Purge

variable {R : Type} [Field R] {Rest : Type}

/-- The tables, with the `snapshot_at` column of the snapshots by id. -/
structure State (Rest : Type) where
  db : Database Rest
  snapshotAt : Nat → Instant

/-- What a session has sent to the table of snapshots. -/
structure Sent where
  added : Option CreditSnapshot := none
  cutoff : Option Instant := none

/-- A session whose statements succeed: its clock, and the id that a new snapshot gets. -/
def session (now : Instant) (id : Nat) (sent : Sent) : (op : Op R) → Reply R op × Sent
  | .flushSnapshot snapshot => (some id, { sent with added := some snapshot })
  | .deleteSnapshots cutoff => ((), { sent with cutoff := some cutoff })
  | op => ((Store.answer now ⟨Table.empty {}, Table.empty {}⟩ op).1, sent)

/-- A result applied in a session: the row object, and what was sent. -/
def applied (config : AppConfig R) (key : KeyObject) (result : CreditFetchResult) (now : Instant)
    (id : Nat) : Except Exn KeyObject × Sent :=
  ((applyCreditFetchResult config key result).execute (session now id) {}).2

/-- The instant before which `cleanup_old_snapshots` deletes. -/
def cutoff (config : AppConfig R) (now : Instant) : Option Instant :=
  ((cleanupOldSnapshots config).execute (session now 0) {}).2.2.cutoff

/-- One transaction. A refresh has a row object that was read at some time, and its caller may
set the next refresh itself. -/
inductive Action where
  | refresh (key : KeyObject) (result : CreditFetchResult) (now : Instant) (id : Nat)
    (next : KeyColumns → Option Instant)
  | cleanup (now : Instant)
  | purgeKey (asked : Asked) (id : Nat)
  | purgeKeys (asked : Asked) (ids : List Nat)
  | purgeClient (asked : Asked) (id : Nat)
  | createKey (id : Nat) (columns : KeyColumns)
  | writeKey (key : KeyObject)
  | migrate

/-- Only a refresh assigns the reference. -/
def Unassigned (key : KeyObject) : Prop :=
  key.current.lastCreditSnapshotId = key.loaded.lastCreditSnapshotId

instance (key : KeyObject) : Decidable (Unassigned key) := inferInstanceAs (Decidable (_ = _))

/-- The database that the migration tool leaves: snapshots and bindings are not on its list. -/
def migrated (db : Database Rest) : Database Rest :=
  { db with
    creditSnapshots := db.creditSnapshots.delete fun _ _ => true
    upstreamResourceBindings := db.upstreamResourceBindings.delete fun _ _ => true }

/-- The commit of an applied result. -/
def refresh (config : AppConfig R) (state : State Rest) (key : KeyObject)
    (result : CreditFetchResult) (now : Instant) (id : Nat) (next : KeyColumns → Option Instant) :
    Option (State Rest) := do
  let (.ok changed, { added := some snapshot, .. }) := applied config key result now id | none
  let _ ← state.db.apiKeys.get? key.id
  let creditSnapshots ← state.db.creditSnapshots.insert? id snapshot
  let changed := changed.assign fun columns => { columns with nextRefreshAt := next columns }
  return {
    db := { state.db with
      apiKeys := Store.flushKey state.db.apiKeys changed
      creditSnapshots }
    snapshotAt := Function.update state.snapshotAt id now }

/-- A transaction that a database without `AUTOINCREMENT` can commit: a new id is above the
ids in the table, and may be that of a deleted row. -/
def step (config : AppConfig R) (state : State Rest) : Action → Option (State Rest)
  | .refresh key result now id next =>
    if Unassigned key then refresh config state key result now id next else none
  | .cleanup now =>
    match cutoff config now with
    | some cutoff => some { state with
        db := { state.db with
          creditSnapshots := state.db.creditSnapshots.delete fun id _ =>
            state.snapshotAt id < cutoff } }
    | none => some state
  | .purgeKey asked id => some { state with db := (Purge.purgeKey asked id state.db).2 }
  | .purgeKeys asked ids => some { state with db := (batchItems asked ids state.db).2 }
  | .purgeClient asked id => some { state with db := (Purge.purgeClient asked id state.db).2 }
  | .createKey id columns => do
    let apiKeys ← state.db.apiKeys.insert? id { columns with lastCreditSnapshotId := none }
    return { state with db := { state.db with apiKeys } }
  | .writeKey key =>
    if Unassigned key ∧ key.id ∈ state.db.apiKeys.ids then
      some { state with db := { state.db with apiKeys := Store.flushKey state.db.apiKeys key } }
    else none
  | .migrate => some { state with db := migrated state.db }

/-- The snapshots of a key, by id. -/
def snapshotsOf (state : State Rest) (keyId : Nat) : List (Nat × CreditSnapshot) :=
  state.db.creditSnapshots.entries.filter fun entry => entry.2.apiKeyId = keyId

/-- `.order_by(...).first()`: no other row precedes the answer. Of equals it is the one with
the least id. -/
def firstBy {Row : Type} (precedes : Row → Row → Bool) : List Row → Option Row
  | [] => none
  | row :: rest =>
    match firstBy precedes rest with
    | some other => if precedes other row then some other else some row
    | none => some row

/-- The row that the reference names, or else the key's own latest one. -/
def latestSnapshot (state : State Rest) (keyId : Nat) (key : KeyColumns) :
    Option (Nat × CreditSnapshot) :=
  let referred := (key.lastCreditSnapshotId.filter (· ≠ 0)).bind fun id =>
    (state.db.creditSnapshots.get? id).map (id, ·)
  referred.or (firstBy (fun one other => state.snapshotAt other.1 < state.snapshotAt one.1)
    (snapshotsOf state keyId))

/-- The key's first snapshot of a probe that succeeded. -/
def firstSnapshot (state : State Rest) (keyId : Nat) : Option (Nat × CreditSnapshot) :=
  firstBy (fun one other => state.snapshotAt one.1 < state.snapshotAt other.1)
    ((snapshotsOf state keyId).filter fun entry => entry.2.fetchSuccess)

/-- The dictionary of `get_key_credits`, its dates not yet rendered. -/
structure KeyCredits where
  apiKeyId : Nat
  remainingCredits : Option Int
  planCredits : Option Int
  totalCredits : Option Int
  lastUpdatedAt : Option Instant
  isEstimated : Bool
  latestSnapshot : Option (CreditSnapshot × Instant)
  nextRefreshAt : Option Instant

/-- `get_key_credits`; an error is the text of its `ValueError`. -/
def getKeyCredits (state : State Rest) (keyId : Nat) : Except String KeyCredits :=
  match state.db.apiKeys.get? keyId with
  | none => .error ("Key " ++ toString keyId ++ " not found")
  | some key =>
    let latest := latestSnapshot state keyId key
    let remaining := key.cachedRemainingCredits
    .ok
      { apiKeyId := keyId
        remainingCredits := remaining
        planCredits := key.cachedPlanCredits
        totalCredits := (key.cachedPlanCredits.filter (0 < ·)).or
          (((firstSnapshot state keyId).map (·.2.remainingCredits)).or remaining)
        lastUpdatedAt := key.lastCreditCheckAt
        isEstimated := remaining.any fun cached =>
          latest.any fun snapshot => cached ≠ snapshot.2.remainingCredits
        latestSnapshot := latest.map fun snapshot => (snapshot.2, state.snapshotAt snapshot.1)
        nextRefreshAt := key.nextRefreshAt }

end FcamGateway.CreditDetails
