import FcamGateway.CreditDetails
import FcamGateway.Migration
import Mathlib.Algebra.Order.Field.Rat

/-! Whose snapshot the credit details show. A refresh and a purge keep every reference on a
snapshot of its own key; a cleanup does exactly when it deletes none that is referred to, and
the migration exactly when there is no reference. -/
namespace FcamGateway.CreditDetails

open Credits CreditRefresh Purge Prog Runs

variable {R : Type} [Field R] {Rest : Type}

/-- Every reference is to a snapshot of the key it stands in. -/
def Linked (db : Database Rest) : Prop :=
  ∀ id key snapshot, db.apiKeys.get? id = some key → key.lastCreditSnapshotId = some snapshot →
    ∃ row, db.creditSnapshots.get? snapshot = some row ∧ row.apiKeyId = id

/-- A cleanup deletes no snapshot that a key refers to, and a migration finds no reference. -/
def Spares (config : AppConfig R) (state : State Rest) : Action → Prop
  | .cleanup now => ∀ limit, cutoff config now = some limit → ∀ id key snapshot,
      state.db.apiKeys.get? id = some key → key.lastCreditSnapshotId = some snapshot →
        limit ≤ state.snapshotAt snapshot
  | .migrate => ∀ id key, state.db.apiKeys.get? id = some key → key.lastCreditSnapshotId = none
  | _ => True

variable {config : AppConfig R} {state next last : State Rest} {db after : Database Rest}
  {key : KeyObject} {result : CreditFetchResult} {now : Instant} {id : Nat} {action : Action}

/-- Applying a result adds one snapshot of the key, and leaves the reference or sets it to
that snapshot. -/
theorem applied_eq (config : AppConfig R) (key : KeyObject) (result : CreditFetchResult)
    (now : Instant) (id : Nat) : ∃ columns snapshot,
      applied config key result now id =
        (.ok { key with current := columns }, { added := some snapshot }) ∧
      snapshot.apiKeyId = key.id ∧
      (columns.lastCreditSnapshotId = key.current.lastCreditSnapshotId ∨
        columns.lastCreditSnapshotId = some id) := by
  obtain ⟨apiKeyId, kind, _, _, _, _, _, _, fetchedAt⟩ := result
  cases kind with
  | success => cases fetchedAt <;> exact ⟨_, _, rfl, rfl, .inr rfl⟩
  | _ => cases fetchedAt <;> exact ⟨_, _, rfl, rfl, .inl rfl⟩

/-- What a commit leaves in the reference is what the row had, or what was assigned. -/
theorem flush_reference (key : KeyObject) (row : KeyColumns) :
    (key.flush row).lastCreditSnapshotId = row.lastCreditSnapshotId ∨
      (key.flush row).lastCreditSnapshotId = key.current.lastCreditSnapshotId ∧
        ¬ Unassigned key := by
  by_cases same : Unassigned key
  · exact .inl (if_pos same)
  · exact .inr ⟨if_neg same, same⟩

/-- A row of the keys after one object was flushed. -/
theorem get_flushed {keys : Table KeyColumns} {key : KeyObject} {other : Nat} {columns : KeyColumns}
    (present : (Store.flushKey keys key).get? other = some columns) :
    other ≠ key.id ∧ keys.get? other = some columns ∨
      other = key.id ∧ ∃ row, keys.get? other = some row ∧ columns = key.flush row := by
  by_cases same : other = key.id
  · subst same
    rw [Store.get_flushKey_self, Option.map_eq_some_iff] at present
    obtain ⟨row, there, rfl⟩ := present
    exact .inr ⟨rfl, row, there, rfl⟩
  · rw [Store.get_flushKey_other same] at present
    exact .inl ⟨same, present⟩

theorem Linked.refresh {next : KeyColumns → Option Instant} (linked : Linked state.db)
    (clean : Unassigned key)
    (taken : CreditDetails.refresh config state key result now id next = some last) :
    Linked last.db := by
  obtain ⟨columns, snapshot, applied, own, reference⟩ := applied_eq config key result now id
  simp only [CreditDetails.refresh, applied, Option.bind_eq_bind, Option.bind_eq_some_iff] at taken
  obtain ⟨_, _, snapshots, added, same⟩ := taken
  cases same
  have grown : ∀ listed row, state.db.creditSnapshots.get? listed = some row →
      snapshots.get? listed = some row := by
    intro listed row there
    have below := (Table.insert_some added).1 listed (Table.get_some.mp there).1
    rw [Table.get_insert added, if_neg (by omega), there]
  have here : snapshots.get? id = some snapshot := by
    rw [Table.get_insert added, if_pos rfl]
  intro other found listed present refers
  have kept : ∀ row, state.db.apiKeys.get? other = some row →
      row.lastCreditSnapshotId = some listed →
        ∃ row, snapshots.get? listed = some row ∧ row.apiKeyId = other := by
    intro row there refers
    obtain ⟨old, there, whose⟩ := linked other row listed there refers
    exact ⟨old, grown listed old there, whose⟩
  rcases get_flushed present with ⟨_, there⟩ | ⟨rfl, row, there, rfl⟩
  · exact kept found there refers
  · rcases flush_reference _ row with same | ⟨assigned, changed⟩
    · exact kept row there (same ▸ refers)
    · rw [assigned] at refers
      rcases reference with same | same
      · exact absurd (same.trans clean) changed
      · obtain rfl : id = listed := Option.some.inj (same.symm.trans refers)
        exact ⟨snapshot, here, own⟩

/-- A commit of another kind writes the row's own reference back. -/
theorem Linked.writeKey (linked : Linked db) (clean : Unassigned key) :
    Linked { db with apiKeys := Store.flushKey db.apiKeys key } := by
  intro other found listed present refers
  rcases get_flushed present with ⟨_, there⟩ | ⟨_, row, there, rfl⟩
  · exact linked other found listed there refers
  · rcases flush_reference key row with same | ⟨_, changed⟩
    · exact linked other row listed there (same ▸ refers)
    · exact absurd clean changed

theorem Linked.createKey {apiKeys : Table KeyColumns} {columns : KeyColumns} (linked : Linked db)
    (added : db.apiKeys.insert? id { columns with lastCreditSnapshotId := none } = some apiKeys) :
    Linked { db with apiKeys } := by
  intro other found listed present refers
  rw [Table.get_insert added] at present
  split at present
  · cases present
    cases refers
  · exact linked other found listed present refers

/-- A key's purge takes the snapshots of that key only. -/
theorem Linked.withoutKey {auditLogs : Table AuditLog} (linked : Linked db) (id : Nat) :
    Linked (withoutKey id auditLogs db) := by
  intro other found listed present refers
  rw [Purge.withoutKey, Table.get_delete, Option.filter_eq_some_iff] at present
  obtain ⟨row, there, rfl⟩ := linked other found listed present.1 refers
  refine ⟨row, ?_, rfl⟩
  rw [Purge.withoutKey, Table.get_delete, there, Option.filter_some, if_pos]
  simpa using present.2

theorem Linked.transact {Err : Type} (linked : Linked db) (asked : Asked) (action : String)
    (id : Nat) (key : KeyColumns) (failed : Err) :
    Linked (transact (asked.takes id) (purgeKeyStatements asked action id key db) failed db).2 := by
  obtain ⟨auditLogs, _, statements⟩ := purgeKeyStatements_eq asked action id key db
  rw [statements]
  cases asked.takes id with
  | false => exact linked
  | true =>
    split
    · exact linked
    · exact linked.withoutKey id

theorem Linked.purgeKey (linked : Linked db) (asked : Asked) (id : Nat) :
    Linked (Purge.purgeKey asked id db).2 := by
  rw [Purge.purgeKey]
  split
  · exact linked
  · exact linked.transact asked _ id _ _

theorem Linked.purgeKeys (linked : Linked db) (asked : Asked) (ids : List Nat) :
    Linked (batchItems asked ids db).2 := by
  induction ids generalizing db with
  | nil => exact linked
  | cons id ids ih =>
    apply ih
    rw [batchItem]
    split
    · exact linked
    · exact linked.transact asked _ id _ _

/-- A client's purge only takes its name from its keys. -/
theorem Linked.withoutClient {auditLogs : Table AuditLog} (linked : Linked db) (id : Nat) :
    Linked (withoutClient id auditLogs db) := by
  intro other found listed present refers
  rw [Purge.withoutClient, Table.get_map, Option.map_eq_some_iff] at present
  obtain ⟨row, there, rfl⟩ := present
  apply linked other row listed there
  rw [unlinkOwner] at refers
  split at refers <;> exact refers

theorem Linked.purgeClient (linked : Linked db) (asked : Asked) (id : Nat) :
    Linked (Purge.purgeClient asked id db).2 := by
  rw [Purge.purgeClient]
  split
  · exact linked
  obtain ⟨auditLogs, _, statements⟩ := purgeClientStatements_eq asked id db
  rw [statements]
  cases asked.takes id with
  | false => exact linked
  | true =>
    split
    · exact linked
    · exact linked.withoutClient id

/-- A cleanup keeps the references on their rows exactly when it spares what they name. -/
theorem linked_cleanup_iff {limit : Instant} (linked : Linked state.db) :
    (∀ id key snapshot, state.db.apiKeys.get? id = some key →
        key.lastCreditSnapshotId = some snapshot → limit ≤ state.snapshotAt snapshot) ↔
      Linked { state.db with
        creditSnapshots := state.db.creditSnapshots.delete fun id _ => state.snapshotAt id < limit } := by
  constructor
  · intro spared id key snapshot present refers
    obtain ⟨row, there, own⟩ := linked id key snapshot present refers
    have young := spared id key snapshot present refers
    refine ⟨row, ?_, own⟩
    rw [Table.get_delete, there, Option.filter_some, if_pos]
    simpa using young
  · intro after id key snapshot present refers
    obtain ⟨row, there, _⟩ := after id key snapshot present refers
    rw [Table.get_delete, Option.filter_eq_some_iff] at there
    simpa using there.2

/-- The migration keeps the references on their rows exactly when there are none. -/
theorem linked_migrated_iff (db : Database Rest) :
    (∀ id key, db.apiKeys.get? id = some key → key.lastCreditSnapshotId = none) ↔
      Linked (migrated db) := by
  constructor
  · intro none id key snapshot present refers
    rw [none id key present] at refers
    cases refers
  · intro linked id key present
    cases refers : key.lastCreditSnapshotId with
    | none => rfl
    | some snapshot =>
      obtain ⟨row, there, _⟩ := linked id key snapshot present refers
      rw [migrated, Table.get_delete, Option.filter_eq_some_iff] at there
      cases there.2

/-- What one transaction keeps. -/
theorem spares_iff (config : AppConfig R) (state : State Rest) (action : Action)
    (next : State Rest) (linked : Linked state.db) (taken : step config state action = some next) :
    Spares config state action ↔ Linked next.db := by
  have sure (kept : Linked next.db) : True ↔ Linked next.db := iff_of_true trivial kept
  cases action with
  | refresh key result now id later =>
    simp only [step] at taken
    split at taken
    · exact sure (linked.refresh ‹_› taken)
    · cases taken
  | cleanup now =>
    simp only [step] at taken
    split at taken
    · rename_i limit found
      cases taken
      rw [← linked_cleanup_iff linked]
      simp [Spares, found]
    · rename_i found
      cases taken
      refine iff_of_true ?_ linked
      simp [Spares, found]
  | purgeKey asked id =>
    cases taken
    exact sure (linked.purgeKey asked id)
  | purgeKeys asked ids =>
    cases taken
    exact sure (linked.purgeKeys asked ids)
  | purgeClient asked id =>
    cases taken
    exact sure (linked.purgeClient asked id)
  | createKey id columns =>
    simp only [step, Option.bind_eq_bind, Option.bind_eq_some_iff] at taken
    obtain ⟨apiKeys, added, same⟩ := taken
    cases same
    exact sure (linked.createKey added)
  | writeKey key =>
    simp only [step] at taken
    split at taken
    · rename_i clean
      cases taken
      exact sure (linked.writeKey clean.1)
    · cases taken
  | migrate =>
    cases taken
    exact linked_migrated_iff state.db

theorem mem_firstBy {Row : Type} {precedes : Row → Row → Bool} {rows : List Row} {row : Row}
    (first : firstBy precedes rows = some row) : row ∈ rows := by
  induction rows with
  | nil => cases first
  | cons head rows ih =>
    simp only [firstBy] at first
    split at first
    · rename_i other found
      split at first
      · exact List.mem_cons_of_mem _ (ih (found.trans first))
      · cases first
        exact List.mem_cons_self
    · cases first
      exact List.mem_cons_self

theorem mem_snapshotsOf {entry : Nat × CreditSnapshot} (listed : entry ∈ snapshotsOf state id) :
    entry.2.apiKeyId = id := by
  simpa using (List.mem_filter.mp listed).2

/-- With the references on their rows the latest snapshot is the key's own. -/
theorem latestSnapshot_own {columns : KeyColumns} {entry : Nat × CreditSnapshot}
    (linked : Linked state.db) (present : state.db.apiKeys.get? id = some columns)
    (latest : latestSnapshot state id columns = some entry) : entry.2.apiKeyId = id := by
  simp only [latestSnapshot, Option.or_eq_some_iff] at latest
  rcases latest with referred | ⟨_, own⟩
  · obtain ⟨listed, refers, found⟩ := Option.bind_eq_some_iff.mp referred
    obtain ⟨row, there, rfl⟩ := Option.map_eq_some_iff.mp found
    obtain ⟨other, here, whose⟩ :=
      linked id columns listed present (Option.filter_eq_some_iff.mp refers).1
    rw [there] at here
    cases here
    exact whose
  · exact mem_snapshotsOf (mem_firstBy own)

/-- Credit details are the key's own. -/
def Owned (state : State Rest) : Prop :=
  Linked state.db ∧ ∀ keyId details, getKeyCredits state keyId = .ok details →
    ∀ latest ∈ details.latestSnapshot, latest.1.apiKeyId = keyId

theorem owned_iff : Owned state ↔ Linked state.db := by
  refine ⟨And.left, fun linked => ⟨linked, ?_⟩⟩
  intro keyId details answered latest shown
  rw [getKeyCredits] at answered
  split at answered
  · cases answered
  · rename_i columns present
    cases answered
    obtain ⟨entry, found, rfl⟩ := Option.map_eq_some_iff.mp shown
    exact latestSnapshot_own linked present found

/-- In every state of a run a reference is to a snapshot of its own key, and the details of a
key show its own snapshot, exactly when each cleanup and each migration of the run spares the
references it meets. -/
theorem owned_throughout_iff {start : State Rest} {actions : List Action}
    (linked : Linked start.db) (ran : run (step config) start actions = some last) :
    (∀ front back middle, actions = front ++ back → run (step config) start front = some middle →
      Owned middle) ↔ Meets (step config) (Spares config) start actions := by
  have kept : ∀ (state : State Rest) action next, Owned state →
      step config state action = some next → (Spares config state action ↔ Owned next) := by
    intro state action next owned taken
    rw [owned_iff]
    exact spares_iff config state action next owned.1 taken
  exact (meets_iff_reached kept actions (owned_iff.mpr linked) ran).symm

/-- What a run of the migration tool over all tables leaves, where the target's own snapshots
belong to keys that it has. -/
theorem main_migrated {args : Migration.Args} {around : Migration.Surroundings}
    {target after : Migration.Target} (encode : KeyColumns → Migration.Row)
    (all : args.included = none) (kept : args.excluded = none) (wet : args.dryRun = false)
    (source : ∀ id, (around.source "api_keys").get? id = (db.apiKeys.get? id).map encode)
    (bound : ∀ id row, (target.tables "credit_snapshots").get? id = some row →
      ∃ key ∈ (target.tables "api_keys").ids, row "api_key_id" = .int key)
    (ran : Migration.main args around target = (.ok 0, after)) :
    (∀ id, (after.tables "api_keys").get? id = ((migrated db).apiKeys.get? id).map encode) ∧
      ∀ id, (after.tables "credit_snapshots").get? id = none ∧
        (migrated db).creditSnapshots.get? id = none := by
  obtain ⟨_, vacant, copied⟩ := Migration.main_zero all kept wet ran
  obtain ⟨filled, frame⟩ := Migration.migrateTables_copied _ copied (by decide) vacant
  refine ⟨fun id => ?_, fun id => ⟨?_, ?_⟩⟩
  · rw [filled "api_keys" (by decide), source]
    rfl
  · rw [frame "credit_snapshots" (by decide)]
    cases there : (target.tables "credit_snapshots").get? id with
    | none => rfl
    | some row =>
      obtain ⟨key, listed, _⟩ := bound id row there
      rw [List.length_eq_zero_iff.mp (vacant "api_keys" (by decide))] at listed
      cases listed
  · rw [migrated, Table.get_delete]
    cases db.creditSnapshots.get? id <;> rfl

def noRows : Database Unit where
  apiKeys := Table.empty {}
  clients := Table.empty ⟨"", "", none, {}⟩
  requestLogs := Table.empty ⟨none, none, ()⟩
  creditSnapshots :=
    Table.empty { apiKeyId := 0, remainingCredits := 0, planCredits := 0, fetchSuccess := false }
  idempotencyRecords := Table.empty ⟨0, "", "", "", none, none, 0, none⟩
  upstreamResourceBindings := Table.empty ⟨0, 0, "", "", 0, none⟩
  auditLogs := Table.empty ⟨"", none, "", none, none, none, none⟩

/-- A refresh of a key that finds credits. -/
def refreshed (keyId : Nat) (now : Instant) (id : Nat) : Action :=
  .refresh (KeyObject.fresh keyId {})
    { apiKeyId := keyId, kind := .success, remainingCredits := 100 * keyId, fetchedAt := some now }
    now id KeyColumns.nextRefreshAt

theorem refreshes_owned : ∃ config : AppConfig ℚ, ∀ front back middle,
    [.createKey 1 {}, refreshed 1 0 1] = front ++ back →
      run (step config) ⟨noRows, fun _ => 0⟩ front = some middle → Owned middle := by
  have linked : Linked noRows := by
    intro id key snapshot present
    cases (Table.get_some.mp present).1
  exact ⟨{}, (owned_throughout_iff linked (show run _ _ _ = some _ from rfl)).mpr
    ⟨trivial, fun _ _ => ⟨trivial, fun _ _ => trivial⟩⟩⟩

/-- Key 1 is refreshed, and not again for a hundred days. -/
def forgottenKey : List Action :=
  let later : Instant := 100 * Instant.dayLength
  [.createKey 1 {}, .createKey 2 {}, .createKey 3 {}, refreshed 1 0 1, refreshed 2 later 2,
    .cleanup later, .purgeKey served 2, refreshed 3 later 1]

/-- The retention deletes the snapshot of key 1, its id is given to a snapshot of key 3, and the
details of key 1 show that one. -/
theorem other_key_shown : ∃ config : AppConfig ℚ, ∃ last details latest,
    run (step config) ⟨noRows, fun _ => 0⟩ forgottenKey = some last ∧
      getKeyCredits last 1 = .ok details ∧ details.latestSnapshot = some latest ∧
        latest.1.apiKeyId = 3 ∧ ¬ Owned last :=
  ⟨{}, _, _, _, rfl, rfl, rfl, rfl, fun owned => nomatch owned.2 1 _ rfl _ rfl⟩

end FcamGateway.CreditDetails
