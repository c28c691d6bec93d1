import FcamGateway.ClientAdmin
import FcamGateway.Idempotency

/-! Purging keys and clients. Five tables refer to them. A purge takes back the
references of request logs and keys, and deletes snapshots and idempotency records;
the bindings of upstream resources it leaves, and the database then refuses it. -/
namespace FcamGateway.Purge

open ClientAdmin Idempotency

/-- A `request_logs` row; `rest` are the columns no purge reads. -/
structure RequestLog (Rest : Type) where
  clientId : Option Nat
  apiKeyId : Option Nat
  rest : Rest
deriving DecidableEq

/-- An `upstream_resource_bindings` row. -/
structure UpstreamResourceBinding where
  clientId : Nat
  apiKeyId : Nat
  resourceType : String
  resourceId : String
  createdAt : Instant
  expiresAt : Option Instant
deriving DecidableEq

structure AuditLog where
  actorType : String := "admin"
  actorId : Option String := some "admin"
  action : String
  resourceType : Option String
  resourceId : Option String
  ip : Option String
  userAgent : Option String
deriving DecidableEq

structure Database (Rest : Type) where
  apiKeys : Table KeyColumns
  clients : Table ClientRow
  requestLogs : Table (RequestLog Rest)
  creditSnapshots : Table CreditSnapshot
  idempotencyRecords : Table RecordColumns
  upstreamResourceBindings : Table UpstreamResourceBinding
  auditLogs : Table AuditLog

variable {Rest : Type}

/-- Some row of a table satisfies the condition. -/
def holds {Columns : Type} (table : Table Columns) (condition : Columns → Bool) : Bool :=
  table.entries.any fun entry => condition entry.2

/-- A row that refers to the key. -/
def Database.refersToKey (db : Database Rest) (id : Nat) : Bool :=
  holds db.requestLogs (·.apiKeyId = some id) || holds db.creditSnapshots (·.apiKeyId = id) ||
    holds db.upstreamResourceBindings (·.apiKeyId = id)

/-- A row that refers to the client. -/
def Database.refersToClient (db : Database Rest) (id : Nat) : Bool :=
  holds db.apiKeys (·.clientId = some id) || holds db.requestLogs (·.clientId = some id) ||
    holds db.idempotencyRecords (·.clientId = id) ||
    holds db.upstreamResourceBindings (·.clientId = id)

/-- Every reference is to a row that is there. -/
structure Database.Sound (db : Database Rest) : Prop where
  keyClient : ∀ id key client, db.apiKeys.get? id = some key → key.clientId = some client →
    client ∈ db.clients.ids
  logClient : ∀ id log client, db.requestLogs.get? id = some log → log.clientId = some client →
    client ∈ db.clients.ids
  logKey : ∀ id log key, db.requestLogs.get? id = some log → log.apiKeyId = some key →
    key ∈ db.apiKeys.ids
  snapshotKey : ∀ id snapshot, db.creditSnapshots.get? id = some snapshot →
    snapshot.apiKeyId ∈ db.apiKeys.ids
  recordClient : ∀ id record, db.idempotencyRecords.get? id = some record →
    record.clientId ∈ db.clients.ids
  bindingClient : ∀ id binding, db.upstreamResourceBindings.get? id = some binding →
    binding.clientId ∈ db.clients.ids
  bindingKey : ∀ id binding, db.upstreamResourceBindings.get? id = some binding →
    binding.apiKeyId ∈ db.apiKeys.ids

/-- Where a request comes from, and whether the database takes what the purge of an id
sends it, foreign keys apart. -/
structure Asked where
  ip : Option String
  userAgent : Option String
  takes : Nat → Bool

/-- `_audit`. -/
def audit (asked : Asked) (action : String) (resourceType : Option String) (resourceId : String)
    (db : Database Rest) : Option (Database Rest) := do
  let auditLogs ← db.auditLogs.insert? db.auditLogs.nextId
    { action, resourceType, resourceId := some resourceId, ip := asked.ip
      userAgent := asked.userAgent }
  return { db with auditLogs }

/-- A log without its reference to the key, or to the client. -/
def unlinkKey (id : Nat) (log : RequestLog Rest) : RequestLog Rest :=
  if log.apiKeyId = some id then { log with apiKeyId := none } else log

def unlinkClient (id : Nat) (log : RequestLog Rest) : RequestLog Rest :=
  if log.clientId = some id then { log with clientId := none } else log

def unlinkOwner (id : Nat) (key : KeyColumns) : KeyColumns :=
  if key.clientId = some id then { key with clientId := none } else key

/-- The `DELETE` of a key. The snapshots follow by the rule of their foreign key; any other
reference makes the database refuse. -/
def dropKey (id : Nat) (db : Database Rest) : Option (Database Rest) :=
  let db := { db with
    creditSnapshots := db.creditSnapshots.delete fun _ snapshot => snapshot.apiKeyId = id }
  if db.refersToKey id then none
  else some { db with apiKeys := db.apiKeys.delete fun listed _ => listed = id }

/-- The flush of `db.delete(key)`: the object's logs lose their reference, its snapshots are
deleted with it. -/
def deleteKeyObject (id : Nat) (db : Database Rest) : Option (Database Rest) :=
  dropKey id { db with
    requestLogs := db.requestLogs.map (unlinkKey id)
    creditSnapshots := db.creditSnapshots.delete fun _ snapshot => snapshot.apiKeyId = id }

def dropClient (id : Nat) (db : Database Rest) : Option (Database Rest) :=
  if db.refersToClient id then none
  else some { db with clients := db.clients.delete fun listed _ => listed = id }

/-- The flush of `db.delete(client)`: keys and logs lose their reference. So would records,
whose column holds no null. -/
def deleteClientObject (id : Nat) (db : Database Rest) : Option (Database Rest) :=
  if holds db.idempotencyRecords (·.clientId = id) then none
  else dropClient id { db with
    apiKeys := db.apiKeys.map (unlinkOwner id)
    requestLogs := db.requestLogs.map (unlinkClient id) }

/-- The statements of a key's purge. -/
def purgeKeyStatements (asked : Asked) (action : String) (id : Nat) (key : KeyColumns)
    (db : Database Rest) : Option (Database Rest) := do
  let db := { db with requestLogs := db.requestLogs.map (unlinkKey id) }
  let db ← audit asked action (some ("api_key:" ++ key.provider)) (toString id) db
  deleteKeyObject id db

/-- A transaction that fails leaves the database as it was. -/
def transact (takes : Bool) (statements : Option (Database Rest)) (failed : Err)
    (db : Database Rest) : Except Err Unit × Database Rest :=
  match takes, statements with
  | true, some next => (.ok (), next)
  | _, _ => (.error failed, db)

/-- `purge_key`. -/
def purgeKey (asked : Asked) (keyId : Nat) (db : Database Rest) :
    Except FcamError Unit × Database Rest :=
  match db.apiKeys.get? keyId with
  | none => (.error notFound, db)
  | some key =>
    transact (asked.takes keyId) (purgeKeyStatements asked "key.purge" keyId key db) dbUnavailable db

/-- The statements of a client's purge. -/
def purgeClientStatements (asked : Asked) (id : Nat) (db : Database Rest) :
    Option (Database Rest) := do
  let db := { db with
    apiKeys := db.apiKeys.map (unlinkOwner id)
    requestLogs := db.requestLogs.map (unlinkClient id)
    idempotencyRecords := db.idempotencyRecords.delete fun _ record => record.clientId = id }
  let db ← audit asked "client.purge" (some "client") (toString id) db
  deleteClientObject id db

/-- `purge_client`. -/
def purgeClient (asked : Asked) (clientId : Nat) (db : Database Rest) :
    Except FcamError Unit × Database Rest :=
  match db.clients.get? clientId with
  | none => (.error notFound, db)
  | some _ =>
    transact (asked.takes clientId) (purgeClientStatements asked clientId db) dbUnavailable db

/-- The code and the message of a result of `batch_keys`. -/
abbrev ItemError := String × String

/-- One id of `batch_keys` with `purge`. What the request patches besides is written to a
row that the same flush deletes. -/
def batchItem (asked : Asked) (keyId : Nat) (db : Database Rest) :
    Except ItemError Unit × Database Rest :=
  match db.apiKeys.get? keyId with
  | none => (.error (notFound.code, notFound.message), db)
  | some key =>
    transact (asked.takes keyId) (purgeKeyStatements asked "key.batch_purge" keyId key db)
      ("INTERNAL_ERROR", "Internal error") db

def batchItems (asked : Asked) : List Nat → Database Rest →
    List (Nat × Except ItemError Unit) × Database Rest
  | [], db => ([], db)
  | keyId :: rest, db =>
    let item := batchItem asked keyId db
    let later := batchItems asked rest item.2
    ((keyId, item.1) :: later.1, later.2)

structure BatchKeysRequest where
  ids : List Nat
  testMode : Option String := none

/-- `batch_keys` with `purge`. A purged key is not tested, but a test that is asked for is
checked first. -/
def batchKeys (asked : Asked) (payload : BatchKeysRequest) (db : Database Rest) :
    Except FcamError (List (Nat × Except ItemError Unit)) × Database Rest :=
  let providers := ((db.apiKeys.entries.filter (·.1 ∈ payload.ids)).map (·.2.provider)).dedup
  if payload.testMode ≠ none ∧ payload.testMode ≠ some "scrape" then
    (.error (invalidRequest "Unsupported test mode"), db)
  else if payload.testMode ≠ none ∧ 1 < payload.ids.length ∧ 1 < providers.length then
    (.error
      { statusCode := 400, code := "MIXED_PROVIDER_BATCH"
        message := "Batch test does not support mixed providers: " ++
          ", ".intercalate (providers.mergeSort (· ≤ ·)) }, db)
  else
    let done := batchItems asked payload.ids db
    (.ok done.1, done.2)

/-- Some binding is to the key, or of the client. -/
def BoundKey (db : Database Rest) (id : Nat) : Prop :=
  ∃ binding row, db.upstreamResourceBindings.get? binding = some row ∧ row.apiKeyId = id

def BoundClient (db : Database Rest) (id : Nat) : Prop :=
  ∃ binding row, db.upstreamResourceBindings.get? binding = some row ∧ row.clientId = id

/-- A log without its reference to any of the keys. -/
def unlinkKeys (ids : List Nat) (log : RequestLog Rest) : RequestLog Rest :=
  if log.apiKeyId.any (· ∈ ids) then { log with apiKeyId := none } else log

/-- The keys are gone, with their snapshots and with every reference to them; nothing
else has changed but for new audit logs. -/
structure KeysPurged (ids : List Nat) (before after : Database Rest) : Prop where
  removed : ∀ id ∈ ids, after.apiKeys.get? id = none
  unreferenced : ∀ id ∈ ids, after.refersToKey id = false
  keys : ∀ id ∉ ids, after.apiKeys.get? id = before.apiKeys.get? id
  logs : ∀ log, after.requestLogs.get? log =
    (before.requestLogs.get? log).map (unlinkKeys ids)
  snapshots : ∀ snapshot, after.creditSnapshots.get? snapshot =
    (before.creditSnapshots.get? snapshot).filter (·.apiKeyId ∉ ids)
  clients : after.clients = before.clients
  records : after.idempotencyRecords = before.idempotencyRecords
  bindings : after.upstreamResourceBindings = before.upstreamResourceBindings
  audits : ∀ audit row, before.auditLogs.get? audit = some row →
    after.auditLogs.get? audit = some row
  sound : after.Sound

structure ClientPurged (id : Nat) (before after : Database Rest) : Prop where
  removed : after.clients.get? id = none
  unreferenced : after.refersToClient id = false
  clients : ∀ other, other ≠ id → after.clients.get? other = before.clients.get? other
  keys : ∀ key, after.apiKeys.get? key = (before.apiKeys.get? key).map (unlinkOwner id)
  logs : ∀ log, after.requestLogs.get? log = (before.requestLogs.get? log).map (unlinkClient id)
  records : ∀ record, after.idempotencyRecords.get? record =
    (before.idempotencyRecords.get? record).filter (·.clientId ≠ id)
  snapshots : after.creditSnapshots = before.creditSnapshots
  bindings : after.upstreamResourceBindings = before.upstreamResourceBindings
  audits : ∀ audit row, before.auditLogs.get? audit = some row →
    after.auditLogs.get? audit = some row
  sound : after.Sound

variable {db before middle after : Database Rest} {id : Nat} {asked : Asked} {action : String}
  {key : KeyColumns} {ids front back : List Nat}

theorem holds_iff {Columns : Type} {table : Table Columns} {condition : Columns → Bool} :
    holds table condition = true ↔
      ∃ id row, table.get? id = some row ∧ condition row = true := by
  simp only [holds, List.any_eq_true, Prod.exists, Table.mem_entries]

theorem holds_false {Columns : Type} {table : Table Columns} {condition : Columns → Bool} :
    holds table condition = false ↔
      ∀ id row, table.get? id = some row → condition row = false := by
  rw [Bool.eq_false_iff, Ne, holds_iff]
  simp

/-- The audit log takes its entry and keeps the others. -/
theorem audit_some (asked : Asked) (action : String) (resourceType : Option String)
    (resourceId : String) (db : Database Rest) :
    ∃ auditLogs, audit asked action resourceType resourceId db = some { db with auditLogs } ∧
      ∀ entry row, db.auditLogs.get? entry = some row → auditLogs.get? entry = some row := by
  obtain ⟨next, added⟩ := db.auditLogs.insert_nextId
    { action, resourceType, resourceId := some resourceId, ip := asked.ip
      userAgent := asked.userAgent }
  refine ⟨next, by simp [audit, added], ?_⟩
  intro entry row present
  have old := Table.le_foldr_max _ (Table.get_some.mp present).1
  have other : entry ≠ db.auditLogs.nextId := by
    rw [Table.nextId]
    omega
  rw [Table.get_insert added, if_neg other, present]

theorem mem_ids_delete {Columns : Type} {table : Table Columns} {member : Nat} :
    member ∈ (table.delete fun listed _ => listed = id).ids ↔ member ∈ table.ids ∧ member ≠ id := by
  simp

theorem unlinkKey_other (id : Nat) (log : RequestLog Rest) : (unlinkKey id log).apiKeyId ≠ some id := by
  rw [unlinkKey]
  split
  · simp
  · assumption

theorem unlinkClient_other (id : Nat) (log : RequestLog Rest) :
    (unlinkClient id log).clientId ≠ some id := by
  rw [unlinkClient]
  split
  · simp
  · assumption

theorem unlinkOwner_other (id : Nat) (key : KeyColumns) : (unlinkOwner id key).clientId ≠ some id := by
  rw [unlinkOwner]
  split
  · simp
  · assumption

theorem unlinkKey_of_other {log : RequestLog Rest} (other : log.apiKeyId ≠ some id) :
    unlinkKey id log = log := if_neg other

theorem unlinkClient_of_other {log : RequestLog Rest} (other : log.clientId ≠ some id) :
    unlinkClient id log = log := if_neg other

theorem unlinkOwner_of_other (other : key.clientId ≠ some id) : unlinkOwner id key = key :=
  if_neg other

/-- The tables as the purge of a key leaves them. -/
def withoutKey (id : Nat) (auditLogs : Table AuditLog) (db : Database Rest) : Database Rest :=
  { db with
    apiKeys := db.apiKeys.delete fun listed _ => listed = id
    requestLogs := db.requestLogs.map (unlinkKey id)
    creditSnapshots := db.creditSnapshots.delete fun _ snapshot => snapshot.apiKeyId = id
    auditLogs }

/-- What is left to refer to a key when its logs and snapshots are dealt with. -/
theorem refers_bound {logs : Table (RequestLog Rest)} {snapshots : Table CreditSnapshot}
    (requestLogs : logs = db.requestLogs.map (unlinkKey id))
    (creditSnapshots : snapshots =
      db.creditSnapshots.delete fun _ snapshot => snapshot.apiKeyId = id) (auditLogs : Table AuditLog) :
    ({ db with requestLogs := logs, creditSnapshots := snapshots, auditLogs } :
      Database Rest).refersToKey id = holds db.upstreamResourceBindings (·.apiKeyId = id) := by
  have noLog : holds logs (·.apiKeyId = some id) = false := by
    rw [holds_false]
    intro log row present
    rw [requestLogs, Table.get_map, Option.map_eq_some_iff] at present
    obtain ⟨old, _, rfl⟩ := present
    exact decide_eq_false (unlinkKey_other id old)
  have noSnapshot : holds snapshots (·.apiKeyId = id) = false := by
    rw [holds_false]
    intro snapshot row present
    rw [creditSnapshots, Table.get_delete, Option.filter_eq_some_iff] at present
    simpa using present.2
  simp only [Database.refersToKey, noLog, noSnapshot, Bool.false_or]

theorem delete_twice {Columns : Type} (table : Table Columns) (condition : Nat → Columns → Bool) :
    (table.delete condition).delete condition = table.delete condition := by
  simp [Table.delete]

theorem map_twice {Columns : Type} (table : Table Columns) {change : Columns → Columns}
    (same : ∀ row, change (change row) = change row) :
    (table.map change).map change = table.map change := by
  simp [Table.map, same]

theorem purgeKeyStatements_eq (asked : Asked) (action : String) (id : Nat) (key : KeyColumns)
    (db : Database Rest) :
    ∃ auditLogs, (∀ entry row, db.auditLogs.get? entry = some row →
        auditLogs.get? entry = some row) ∧
      purgeKeyStatements asked action id key db =
        if holds db.upstreamResourceBindings (·.apiKeyId = id) then none
        else some (withoutKey id auditLogs db) := by
  obtain ⟨auditLogs, audited, kept⟩ := audit_some asked action (some ("api_key:" ++ key.provider))
    (toString id) { db with requestLogs := db.requestLogs.map (unlinkKey id) }
  refine ⟨auditLogs, kept, ?_⟩
  have logs : (db.requestLogs.map (unlinkKey id)).map (unlinkKey id) =
      db.requestLogs.map (unlinkKey id) :=
    map_twice _ fun row => unlinkKey_of_other (unlinkKey_other id row)
  simp only [purgeKeyStatements, audited, Option.bind_eq_bind, Option.bind_some, deleteKeyObject,
    dropKey, logs, delete_twice]
  rw [refers_bound rfl rfl]
  rfl

theorem unlinkKey_client (id : Nat) (log : RequestLog Rest) :
    (unlinkKey id log).clientId = log.clientId := by
  rw [unlinkKey]
  split <;> rfl

theorem unlinkKey_key {log : RequestLog Rest} {other : Nat}
    (refers : (unlinkKey id log).apiKeyId = some other) :
    log.apiKeyId = some other ∧ other ≠ id := by
  have different : other ≠ id := by
    rintro rfl
    exact unlinkKey_other other log refers
  rw [unlinkKey] at refers
  split at refers
  · cases refers
  · exact ⟨refers, different⟩

/-- Where nothing is bound to the key, its purge leaves a sound database without it. -/
theorem withoutKey_sound {auditLogs : Table AuditLog} (sound : db.Sound)
    (free : ¬ BoundKey db id) : (withoutKey id auditLogs db).Sound where
  keyClient := by
    intro listed key client present refers
    simp only [withoutKey, Table.get_delete, Option.filter_eq_some_iff] at present
    exact sound.keyClient listed key client present.1 refers
  logClient := by
    intro listed log client present refers
    simp only [withoutKey, Table.get_map, Option.map_eq_some_iff] at present
    obtain ⟨old, present, rfl⟩ := present
    rw [unlinkKey_client] at refers
    exact sound.logClient listed old client present refers
  logKey := by
    intro listed log key present refers
    simp only [withoutKey, Table.get_map, Option.map_eq_some_iff] at present
    obtain ⟨old, present, rfl⟩ := present
    obtain ⟨refers, other⟩ := unlinkKey_key refers
    exact mem_ids_delete.mpr ⟨sound.logKey listed old key present refers, other⟩
  snapshotKey := by
    intro listed snapshot present
    simp only [withoutKey, Table.get_delete, Option.filter_eq_some_iff] at present
    exact mem_ids_delete.mpr ⟨sound.snapshotKey listed snapshot present.1, by simpa using present.2⟩
  recordClient := sound.recordClient
  bindingClient := sound.bindingClient
  bindingKey := by
    intro listed binding present
    refine mem_ids_delete.mpr ⟨sound.bindingKey listed binding present, ?_⟩
    intro same
    exact free ⟨listed, binding, present, same⟩

/-- Nothing refers to a key that a sound database does not have. -/
theorem Database.Sound.unreferenced_key (sound : db.Sound) (absent : db.apiKeys.get? id = none) :
    db.refersToKey id = false := by
  have unlisted : id ∉ db.apiKeys.ids := Table.get_none.mp absent
  have logs : holds db.requestLogs (·.apiKeyId = some id) = false := by
    rw [holds_false]
    intro log row present
    exact decide_eq_false fun same => unlisted (sound.logKey log row id present same)
  have snapshots : holds db.creditSnapshots (·.apiKeyId = id) = false := by
    rw [holds_false]
    intro snapshot row present
    exact decide_eq_false fun same => unlisted (same ▸ sound.snapshotKey snapshot row present)
  have bindings : holds db.upstreamResourceBindings (·.apiKeyId = id) = false := by
    rw [holds_false]
    intro binding row present
    exact decide_eq_false fun same => unlisted (same ▸ sound.bindingKey binding row present)
  simp only [Database.refersToKey, logs, snapshots, bindings, Bool.or_false]

theorem Database.Sound.unreferenced_client (sound : db.Sound) (absent : db.clients.get? id = none) :
    db.refersToClient id = false := by
  have unlisted : id ∉ db.clients.ids := Table.get_none.mp absent
  have keys : holds db.apiKeys (·.clientId = some id) = false := by
    rw [holds_false]
    intro listed key present
    exact decide_eq_false fun same => unlisted (sound.keyClient listed key id present same)
  have logs : holds db.requestLogs (·.clientId = some id) = false := by
    rw [holds_false]
    intro log row present
    exact decide_eq_false fun same => unlisted (sound.logClient log row id present same)
  have records : holds db.idempotencyRecords (·.clientId = id) = false := by
    rw [holds_false]
    intro record row present
    exact decide_eq_false fun same => unlisted (same ▸ sound.recordClient record row present)
  have bindings : holds db.upstreamResourceBindings (·.clientId = id) = false := by
    rw [holds_false]
    intro binding row present
    exact decide_eq_false fun same => unlisted (same ▸ sound.bindingClient binding row present)
  simp only [Database.refersToClient, keys, logs, records, bindings, Bool.or_false]

theorem unlinkKeys_single (id : Nat) :
    unlinkKeys [id] = (unlinkKey id : RequestLog Rest → RequestLog Rest) := by
  funext log
  cases refers : log.apiKeyId <;> simp [unlinkKeys, unlinkKey, refers]

theorem withoutKey_purged {auditLogs : Table AuditLog} (sound : db.Sound) (free : ¬ BoundKey db id)
    (kept : ∀ entry row, db.auditLogs.get? entry = some row → auditLogs.get? entry = some row) :
    KeysPurged [id] db (withoutKey id auditLogs db) where
  removed := by
    intro listed member
    obtain rfl := List.mem_singleton.mp member
    simp [withoutKey, Table.get_delete]
  unreferenced := by
    intro listed member
    obtain rfl := List.mem_singleton.mp member
    apply (withoutKey_sound sound free).unreferenced_key
    simp [withoutKey, Table.get_delete]
  keys := by
    intro listed other
    have different : listed ≠ id := by simpa using other
    cases present : db.apiKeys.get? listed <;> simp [withoutKey, Table.get_delete, different, present]
  logs := by
    intro log
    rw [unlinkKeys_single]
    exact Table.get_map
  snapshots := by
    intro snapshot
    simp [withoutKey, Table.get_delete]
  clients := rfl
  records := rfl
  bindings := rfl
  audits := kept
  sound := withoutKey_sound sound free

/-- A bound key is referred to wherever its binding is. -/
theorem bound_refers (bound : BoundKey db id) : db.refersToKey id = true := by
  obtain ⟨binding, row, present, same⟩ := bound
  have found : holds db.upstreamResourceBindings (·.apiKeyId = id) = true :=
    holds_iff.mpr ⟨binding, row, present, decide_eq_true same⟩
  simp [Database.refersToKey, found]

theorem bound_iff : holds db.upstreamResourceBindings (·.apiKeyId = id) = true ↔ BoundKey db id := by
  simp [holds_iff, BoundKey]

/-- A purge that is asked to take its statements ends as the bindings say. -/
theorem transact_key {Err : Type} (action : String) (key : KeyColumns) (sound : db.Sound)
    (failed : Err) (taken : asked.takes id = true) :
    let done := transact (asked.takes id) (purgeKeyStatements asked action id key db) failed db
    (¬ BoundKey db id → done.1 = .ok () ∧ KeysPurged [id] db done.2) ∧
      (BoundKey db id → done = (.error failed, db)) := by
  obtain ⟨auditLogs, kept, statements⟩ := purgeKeyStatements_eq asked action id key db
  rw [taken, statements]
  constructor
  · intro free
    rw [if_neg (mt bound_iff.mp free)]
    exact ⟨rfl, withoutKey_purged sound free kept⟩
  · intro bound
    rw [if_pos (bound_iff.mpr bound)]
    rfl

/-- A transaction that reports an error has changed nothing. -/
theorem transact_error {Err : Type} {takes : Bool} {statements : Option (Database Rest)}
    {failed error : Err} (reported : (transact takes statements failed db).1 = .error error) :
    (transact takes statements failed db).2 = db := by
  cases takes with
  | false => rfl
  | true =>
    cases statements with
    | none => rfl
    | some next => cases reported

theorem unlinkKeys_append (one two : List Nat) (log : RequestLog Rest) :
    unlinkKeys two (unlinkKeys one log) = unlinkKeys (one ++ two) log := by
  cases refers : log.apiKeyId with
  | none => simp [unlinkKeys, refers]
  | some key =>
    by_cases early : key ∈ one
    · simp [unlinkKeys, refers, early]
    · simp [unlinkKeys, refers, early]

theorem KeysPurged.trans {one two : List Nat} (first : KeysPurged one before middle)
    (second : KeysPurged two middle after) : KeysPurged (one ++ two) before after := by
  have removed : ∀ id ∈ one ++ two, after.apiKeys.get? id = none := by
    intro id member
    by_cases later : id ∈ two
    · exact second.removed id later
    · have earlier : id ∈ one := (List.mem_append.mp member).resolve_right later
      rw [second.keys id later, first.removed id earlier]
  constructor
  case removed => exact removed
  case unreferenced => exact fun id member => second.sound.unreferenced_key (removed id member)
  case keys =>
    intro id other
    have apart := mt List.mem_append.mpr other
    rw [second.keys id fun member => apart (.inr member),
      first.keys id fun member => apart (.inl member)]
  case logs =>
    intro log
    rw [second.logs, first.logs, Option.map_map]
    congr 1
    funext row
    exact unlinkKeys_append one two row
  case snapshots =>
    intro snapshot
    rw [second.snapshots, first.snapshots, Option.filter_filter]
    congr 1
    funext row
    simp
  case clients => exact second.clients.trans first.clients
  case records => exact second.records.trans first.records
  case bindings => exact second.bindings.trans first.bindings
  case audits => exact fun entry row present => second.audits entry row (first.audits entry row present)
  case sound => exact second.sound

theorem KeysPurged.congr {one two : List Nat} (purged : KeysPurged one before after)
    (same : ∀ id, id ∈ two ↔ id ∈ one) : KeysPurged two before after where
  removed id member := purged.removed id ((same id).mp member)
  unreferenced id member := purged.unreferenced id ((same id).mp member)
  keys id other := purged.keys id (mt (same id).mpr other)
  logs log := by
    rw [purged.logs]
    congr 1
    funext row
    simp only [unlinkKeys, same]
  snapshots snapshot := by
    rw [purged.snapshots]
    congr 1
    funext row
    simp only [same]
  clients := purged.clients
  records := purged.records
  bindings := purged.bindings
  audits := purged.audits
  sound := purged.sound

theorem KeysPurged.nothing (sound : db.Sound) : KeysPurged [] db db where
  removed id member := by cases member
  unreferenced id member := by cases member
  keys _ _ := rfl
  logs log := by
    have same : (unlinkKeys [] : RequestLog Rest → RequestLog Rest) = id := by
      funext row
      cases refers : row.apiKeyId <;> simp [unlinkKeys, refers]
    simp [same]
  snapshots snapshot := by
    cases db.creditSnapshots.get? snapshot <;> simp [Option.filter]
  clients := rfl
  records := rfl
  bindings := rfl
  audits _ _ present := present
  sound := sound

theorem unlinkClient_key (id : Nat) (log : RequestLog Rest) :
    (unlinkClient id log).apiKeyId = log.apiKeyId := by
  rw [unlinkClient]
  split <;> rfl

theorem unlinkClient_client {log : RequestLog Rest} {other : Nat}
    (refers : (unlinkClient id log).clientId = some other) :
    log.clientId = some other ∧ other ≠ id := by
  have different : other ≠ id := by
    rintro rfl
    exact unlinkClient_other other log refers
  rw [unlinkClient] at refers
  split at refers
  · cases refers
  · exact ⟨refers, different⟩

theorem unlinkOwner_client {other : Nat} (refers : (unlinkOwner id key).clientId = some other) :
    key.clientId = some other ∧ other ≠ id := by
  have different : other ≠ id := by
    rintro rfl
    exact unlinkOwner_other other key refers
  rw [unlinkOwner] at refers
  split at refers
  · cases refers
  · exact ⟨refers, different⟩

/-- The tables as the purge of a client leaves them. -/
def withoutClient (id : Nat) (auditLogs : Table AuditLog) (db : Database Rest) : Database Rest :=
  { db with
    apiKeys := db.apiKeys.map (unlinkOwner id)
    clients := db.clients.delete fun listed _ => listed = id
    requestLogs := db.requestLogs.map (unlinkClient id)
    idempotencyRecords := db.idempotencyRecords.delete fun _ record => record.clientId = id
    auditLogs }

theorem purgeClientStatements_eq (asked : Asked) (id : Nat) (db : Database Rest) :
    ∃ auditLogs, (∀ entry row, db.auditLogs.get? entry = some row →
        auditLogs.get? entry = some row) ∧
      purgeClientStatements asked id db =
        if holds db.upstreamResourceBindings (·.clientId = id) then none
        else some (withoutClient id auditLogs db) := by
  obtain ⟨auditLogs, audited, kept⟩ := audit_some asked "client.purge" (some "client") (toString id)
    { db with
      apiKeys := db.apiKeys.map (unlinkOwner id)
      requestLogs := db.requestLogs.map (unlinkClient id)
      idempotencyRecords := db.idempotencyRecords.delete fun _ record => record.clientId = id }
  refine ⟨auditLogs, kept, ?_⟩
  have keys : (db.apiKeys.map (unlinkOwner id)).map (unlinkOwner id) =
      db.apiKeys.map (unlinkOwner id) :=
    map_twice _ fun row => unlinkOwner_of_other (unlinkOwner_other id row)
  have logs : (db.requestLogs.map (unlinkClient id)).map (unlinkClient id) =
      db.requestLogs.map (unlinkClient id) :=
    map_twice _ fun row => unlinkClient_of_other (unlinkClient_other id row)
  have noRecord : holds (db.idempotencyRecords.delete fun _ record => record.clientId = id)
      (·.clientId = id) = false := by
    rw [holds_false]
    intro record row present
    rw [Table.get_delete, Option.filter_eq_some_iff] at present
    simpa using present.2
  have noKey : holds (db.apiKeys.map (unlinkOwner id)) (·.clientId = some id) = false := by
    rw [holds_false]
    intro listed row present
    rw [Table.get_map, Option.map_eq_some_iff] at present
    obtain ⟨old, _, rfl⟩ := present
    exact decide_eq_false (unlinkOwner_other id old)
  have noLog : holds (db.requestLogs.map (unlinkClient id)) (·.clientId = some id) = false := by
    rw [holds_false]
    intro log row present
    rw [Table.get_map, Option.map_eq_some_iff] at present
    obtain ⟨old, _, rfl⟩ := present
    exact decide_eq_false (unlinkClient_other id old)
  simp only [purgeClientStatements, audited, Option.bind_eq_bind, Option.bind_some,
    deleteClientObject, dropClient, keys, logs, Database.refersToClient, noRecord, noKey, noLog,
    Bool.false_or]
  rfl

theorem withoutClient_sound {auditLogs : Table AuditLog} (sound : db.Sound)
    (free : ¬ BoundClient db id) : (withoutClient id auditLogs db).Sound where
  keyClient := by
    intro listed key client present refers
    simp only [withoutClient, Table.get_map, Option.map_eq_some_iff] at present
    obtain ⟨old, present, rfl⟩ := present
    obtain ⟨refers, other⟩ := unlinkOwner_client refers
    exact mem_ids_delete.mpr ⟨sound.keyClient listed old client present refers, other⟩
  logClient := by
    intro listed log client present refers
    simp only [withoutClient, Table.get_map, Option.map_eq_some_iff] at present
    obtain ⟨old, present, rfl⟩ := present
    obtain ⟨refers, other⟩ := unlinkClient_client refers
    exact mem_ids_delete.mpr ⟨sound.logClient listed old client present refers, other⟩
  logKey := by
    intro listed log key present refers
    simp only [withoutClient, Table.get_map, Option.map_eq_some_iff] at present
    obtain ⟨old, present, rfl⟩ := present
    rw [unlinkClient_key] at refers
    exact sound.logKey listed old key present refers
  snapshotKey := sound.snapshotKey
  recordClient := by
    intro listed record present
    simp only [withoutClient, Table.get_delete, Option.filter_eq_some_iff] at present
    exact mem_ids_delete.mpr ⟨sound.recordClient listed record present.1, by simpa using present.2⟩
  bindingClient := by
    intro listed binding present
    refine mem_ids_delete.mpr ⟨sound.bindingClient listed binding present, ?_⟩
    intro same
    exact free ⟨listed, binding, present, same⟩
  bindingKey := sound.bindingKey

theorem withoutClient_purged {auditLogs : Table AuditLog} (sound : db.Sound)
    (free : ¬ BoundClient db id)
    (kept : ∀ entry row, db.auditLogs.get? entry = some row → auditLogs.get? entry = some row) :
    ClientPurged id db (withoutClient id auditLogs db) := by
  have removed : (withoutClient id auditLogs db).clients.get? id = none := by
    simp [withoutClient, Table.get_delete]
  constructor
  case removed => exact removed
  case unreferenced => exact (withoutClient_sound sound free).unreferenced_client removed
  case clients =>
    intro other different
    cases present : db.clients.get? other <;>
      simp [withoutClient, Table.get_delete, different, present]
  case keys => exact fun _ => Table.get_map
  case logs => exact fun _ => Table.get_map
  case records =>
    intro record
    simp [withoutClient, Table.get_delete]
  case snapshots => rfl
  case bindings => rfl
  case audits => exact kept
  case sound => exact withoutClient_sound sound free

theorem bound_client_iff :
    holds db.upstreamResourceBindings (·.clientId = id) = true ↔ BoundClient db id := by
  simp [holds_iff, BoundClient]

theorem purgeClient_taken {row : ClientRow} (sound : db.Sound) (taken : asked.takes id = true)
    (present : db.clients.get? id = some row) :
    (¬ BoundClient db id → (purgeClient asked id db).1 = .ok () ∧
        ClientPurged id db (purgeClient asked id db).2) ∧
      (BoundClient db id → purgeClient asked id db = (.error dbUnavailable, db)) := by
  obtain ⟨auditLogs, kept, statements⟩ := purgeClientStatements_eq asked id db
  simp only [purgeClient, present, taken, statements]
  constructor
  · intro free
    rw [if_neg (mt bound_client_iff.mp free)]
    exact ⟨rfl, withoutClient_purged sound free kept⟩
  · intro bound
    rw [if_pos (bound_client_iff.mpr bound)]
    rfl

theorem batchItem_error {error : ItemError}
    (reported : (batchItem asked id db).1 = .error error) : (batchItem asked id db).2 = db := by
  cases present : db.apiKeys.get? id with
  | none => simp only [batchItem, present]
  | some key =>
    simp only [batchItem, present] at reported ⊢
    exact transact_error reported

/-- The items purge the listed keys that are there, and each of those succeeds. -/
def ItemsPurged (asked : Asked) (ids : List Nat) (db : Database Rest) : Prop :=
  (∀ id ∈ ids, id ∈ db.apiKeys.ids → (id, .ok ()) ∈ (batchItems asked ids db).1) ∧
    KeysPurged (ids.filter (· ∈ db.apiKeys.ids)) db (batchItems asked ids db).2

def BatchPurged (asked : Asked) (ids : List Nat) (db : Database Rest) : Prop :=
  ∃ results, (batchKeys asked { ids } db).1 = .ok results ∧
    (∀ id ∈ ids, id ∈ db.apiKeys.ids → (id, .ok ()) ∈ results) ∧
    KeysPurged (ids.filter (· ∈ db.apiKeys.ids)) db (batchKeys asked { ids } db).2

theorem batchKeys_untested : batchKeys asked { ids } db =
    (.ok (batchItems asked ids db).1, (batchItems asked ids db).2) := by
  simp [batchKeys]

theorem items_purged (sound : db.Sound) (taken : ∀ id, asked.takes id = true) (ids : List Nat)
    (free : ∀ id ∈ ids, id ∈ db.apiKeys.ids → ¬ BoundKey db id) : ItemsPurged asked ids db := by
  induction ids generalizing db with
  | nil => exact ⟨fun id member => absurd member List.not_mem_nil, .nothing sound⟩
  | cons first rest ih =>
    have later : ∀ id ∈ rest, id ∈ db.apiKeys.ids → ¬ BoundKey db id :=
      fun id member => free id (List.mem_cons_of_mem _ member)
    cases present : db.apiKeys.get? first with
    | none =>
      have absent : first ∉ db.apiKeys.ids := Table.get_none.mp present
      obtain ⟨answers, purged⟩ := ih sound later
      simp only [ItemsPurged, batchItems, batchItem, present]
      constructor
      · intro id member there
        have other : id ≠ first := fun same => absent (same ▸ there)
        exact List.mem_cons_of_mem _ (answers id (List.mem_of_ne_of_mem other member) there)
      · rwa [List.filter_cons_of_neg (by simpa using absent)]
    | some key =>
      have there : first ∈ db.apiKeys.ids := (Table.get_some.mp present).1
      obtain ⟨answered, purged⟩ := (transact_key "key.batch_purge" key sound
        ("INTERNAL_ERROR", "Internal error") (taken first)).1 (free first List.mem_cons_self there)
      generalize done : transact (asked.takes first)
        (purgeKeyStatements asked "key.batch_purge" first key db)
        ("INTERNAL_ERROR", "Internal error") db = outcome at answered purged
      have kept : ∀ id, id ≠ first → (id ∈ outcome.2.apiKeys.ids ↔ id ∈ db.apiKeys.ids) := by
        intro id other
        have same := purged.keys id (by simpa using other)
        rw [← not_iff_not, ← Table.get_none, ← Table.get_none, same]
      have gone : first ∉ outcome.2.apiKeys.ids :=
        Table.get_none.mp (purged.removed first (List.mem_singleton_self _))
      obtain ⟨answers, rest_purged⟩ := ih purged.sound (by
        intro id member there bound
        have other : id ≠ first := fun same => gone (same ▸ there)
        rw [BoundKey, purged.bindings] at bound
        exact later id member ((kept id other).mp there) bound)
      simp only [ItemsPurged, batchItems, batchItem, present, done]
      constructor
      · intro id member listed
        by_cases same : id = first
        · subst same
          rw [answered]
          exact List.mem_cons_self
        · exact List.mem_cons_of_mem _ (answers id (List.mem_of_ne_of_mem same member)
            ((kept id same).mpr listed))
      · refine (purged.trans rest_purged).congr ?_
        intro id
        by_cases same : id = first
        · subst same
          simp [there]
        · simp [same, kept id same]

theorem batch_purged_iff (sound : db.Sound) (taken : ∀ id, asked.takes id = true) (ids : List Nat) :
    BatchPurged asked ids db ↔ ∀ id ∈ ids, id ∈ db.apiKeys.ids → ¬ BoundKey db id := by
  constructor
  · rintro ⟨_, _, _, purged⟩ id member listed bound
    have chosen : id ∈ ids.filter (· ∈ db.apiKeys.ids) :=
      List.mem_filter.mpr ⟨member, decide_eq_true listed⟩
    have still : BoundKey (batchKeys asked { ids } db).2 id := by
      rw [BoundKey, purged.bindings]
      exact bound
    have none := purged.unreferenced id chosen
    rw [bound_refers still] at none
    cases none
  · intro free
    obtain ⟨answers, purged⟩ := items_purged sound taken ids free
    rw [BatchPurged, batchKeys_untested]
    exact ⟨_, rfl, answers, purged⟩

/-- Whatever goes wrong, a purge that reports an error has changed nothing. -/
structure Atomic (asked : Asked) (db : Database Rest) : Prop where
  key : ∀ id error, (purgeKey asked id db).1 = .error error → (purgeKey asked id db).2 = db
  client : ∀ id error, (purgeClient asked id db).1 = .error error → (purgeClient asked id db).2 = db
  batch : ∀ payload error, (batchKeys asked payload db).1 = .error error →
    (batchKeys asked payload db).2 = db
  item : ∀ id error, (batchItem asked id db).1 = .error error → (batchItem asked id db).2 = db

theorem atomic (asked : Asked) (db : Database Rest) : Atomic asked db where
  key := by
    intro id error reported
    cases present : db.apiKeys.get? id with
    | none => simp only [purgeKey, present]
    | some key =>
      simp only [purgeKey, present] at reported ⊢
      exact transact_error reported
  client := by
    intro id error reported
    cases present : db.clients.get? id with
    | none => simp only [purgeClient, present]
    | some row =>
      simp only [purgeClient, present] at reported ⊢
      exact transact_error reported
  batch := by
    intro payload error reported
    simp only [batchKeys] at reported ⊢
    split
    · rfl
    · rename_i supported
      rw [if_neg supported] at reported
      split
      · rfl
      · rename_i unmixed
        rw [if_neg unmixed] at reported
        cases reported
  item := fun _ _ reported => batchItem_error reported

/-- A purge of a key or a client keeps the store consistent exactly where no binding of an
upstream resource refers to what is purged. -/
theorem purge_consistent_iff (sound : db.Sound) (taken : ∀ id, asked.takes id = true) :
    (∀ id ∈ db.apiKeys.ids, ((purgeKey asked id db).1 = .ok () ∧
        KeysPurged [id] db (purgeKey asked id db).2) ↔ ¬ BoundKey db id) ∧
    (∀ ids, BatchPurged asked ids db ↔
      ∀ id ∈ ids, id ∈ db.apiKeys.ids → ¬ BoundKey db id) ∧
    (∀ id ∈ db.clients.ids, ((purgeClient asked id db).1 = .ok () ∧
        ClientPurged id db (purgeClient asked id db).2) ↔ ¬ BoundClient db id) ∧
    ∀ (asked : Asked) (db : Database Rest), Atomic asked db := by
  refine ⟨?_, batch_purged_iff sound taken, ?_, atomic⟩
  · intro id listed
    have present : db.apiKeys.get? id = some (db.apiKeys.row id) := Table.get_some.mpr ⟨listed, rfl⟩
    obtain ⟨free, bound⟩ := transact_key "key.purge" (db.apiKeys.row id) sound dbUnavailable (taken id)
    simp only [purgeKey, present]
    constructor
    · rintro ⟨done, _⟩ referred
      rw [bound referred] at done
      cases done
    · exact free
  · intro id listed
    have present : db.clients.get? id = some (db.clients.row id) := Table.get_some.mpr ⟨listed, rfl⟩
    obtain ⟨free, bound⟩ := purgeClient_taken sound (taken id) present
    constructor
    · rintro ⟨done, _⟩ referred
      rw [bound referred] at done
      cases done
    · exact free

/-- A table with one row. -/
def oneRow {Columns : Type} (columns : Columns) : Table Columns :=
  Table.single 1 columns

/-- One client with one key that a request was logged for. -/
def sampleDatabase (bindings : Table UpstreamResourceBinding) : Database Unit where
  apiKeys := oneRow { clientId := some 1 }
  clients := oneRow ⟨"tenant", "hash", none, {}⟩
  requestLogs := oneRow ⟨some 1, some 1, ()⟩
  creditSnapshots :=
    oneRow { apiKeyId := 1, remainingCredits := 5, planCredits := 9, fetchSuccess := true }
  idempotencyRecords := oneRow ⟨1, "k", "", "in_progress", none, none, 0, none⟩
  upstreamResourceBindings := bindings
  auditLogs := Table.empty ⟨"", none, "", none, none, none, none⟩

def sampleBinding : UpstreamResourceBinding := ⟨1, 1, "crawl", "job", 0, none⟩

def served : Asked := ⟨none, none, fun _ => true⟩

theorem get_oneRow {Columns : Type} {columns found : Columns} {id : Nat}
    (present : (oneRow columns).get? id = some found) : id = 1 ∧ columns = found := by
  obtain ⟨member, same⟩ := Table.get_some.mp present
  exact ⟨List.mem_singleton.mp member, same⟩

theorem sampleDatabase_sound (bindings : Table UpstreamResourceBinding)
    (own : ∀ id binding, bindings.get? id = some binding → binding.clientId = 1 ∧ binding.apiKeyId = 1) :
    (sampleDatabase bindings).Sound where
  keyClient := by
    intro id key client present refers
    obtain ⟨_, rfl⟩ := get_oneRow present
    cases refers
    exact List.mem_singleton_self _
  logClient := by
    intro id log client present refers
    obtain ⟨_, rfl⟩ := get_oneRow present
    cases refers
    exact List.mem_singleton_self _
  logKey := by
    intro id log key present refers
    obtain ⟨_, rfl⟩ := get_oneRow present
    cases refers
    exact List.mem_singleton_self _
  snapshotKey := by
    intro id snapshot present
    obtain ⟨_, rfl⟩ := get_oneRow present
    exact List.mem_singleton_self _
  recordClient := by
    intro id record present
    obtain ⟨_, rfl⟩ := get_oneRow present
    exact List.mem_singleton_self _
  bindingClient := by
    intro id binding present
    rw [(own id binding present).1]
    exact List.mem_singleton_self _
  bindingKey := by
    intro id binding present
    rw [(own id binding present).2]
    exact List.mem_singleton_self _

theorem unbound_purged :
    let db := sampleDatabase (Table.empty sampleBinding)
    (purgeKey served 1 db).1 = .ok () ∧ KeysPurged [1] db (purgeKey served 1 db).2 := by
  have sound : (sampleDatabase (Table.empty sampleBinding)).Sound :=
    sampleDatabase_sound _ fun id binding present => by
      cases (Table.get_some.mp present).1
  have taken : ∀ id, served.takes id = true := fun _ => rfl
  refine ((purge_consistent_iff sound taken).1 1 (List.mem_singleton_self _)).mpr ?_
  rintro ⟨id, binding, present, _⟩
  cases (Table.get_some.mp present).1

/-- A job binding keeps its key and its client from being purged. -/
theorem binding_blocks_purge :
    let db := sampleDatabase (oneRow sampleBinding)
    db.Sound ∧ (purgeKey served 1 db).1 = .error dbUnavailable ∧
      (batchKeys served { ids := [1] } db).1 =
        .ok [(1, .error ("INTERNAL_ERROR", "Internal error"))] ∧
      (purgeClient served 1 db).1 = .error dbUnavailable := by
  refine ⟨sampleDatabase_sound _ ?_, rfl, rfl, rfl⟩
  intro id binding present
  obtain ⟨_, rfl⟩ := get_oneRow present
  exact ⟨rfl, rfl⟩

end FcamGateway.Purge
