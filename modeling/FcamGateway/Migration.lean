import FcamGateway.Models
import FcamGateway.PyText
import FcamGateway.Table

/-! The tool that copies a SQLite database into Postgres. It works down a list of tables
of its own: it truncates, copies and verifies the tables on the list, and says nothing of
those that are not. -/
namespace FcamGateway.Migration

inductive Value where
  | null
  | bool (value : Bool)
  | int (value : Int)
  | text (value : String)
  | bytes (value : Bytes)
  | time (value : Instant)
deriving DecidableEq

/-- The columns of a row besides its id, by name. -/
abbrev Row := String → Value

/-- `TABLE_ORDER`. -/
def tableOrder : List String :=
  ["clients", "api_keys", "idempotency_records", "request_logs", "audit_logs"]

/-- `DEPENDENCIES`. -/
def dependencies : List (String × List String) :=
  [("api_keys", ["clients"]), ("idempotency_records", ["clients"]),
    ("request_logs", ["clients", "api_keys"])]

/-- `SAMPLE_COLUMNS`. -/
def sampleColumns : List (String × List String) :=
  [("clients", ["id", "name", "token_hash", "is_active"]),
    ("api_keys", ["id", "client_id", "api_key_hash", "api_key_last4", "plan_type", "is_active",
      "api_key_ciphertext", "account_password_ciphertext"]),
    ("idempotency_records", ["id", "client_id", "idempotency_key", "request_hash", "status"]),
    ("request_logs", ["id", "request_id", "client_id", "api_key_id", "endpoint", "method",
      "status_code", "success", "retry_count"]),
    ("audit_logs", ["id", "actor_type", "action", "resource_type", "resource_id"])]

/-- `REQUIRED_TABLES`: what the application needs in its database. -/
def requiredTables : List String :=
  ["api_keys", "clients", "request_logs", "audit_logs", "idempotency_records",
    "upstream_resource_bindings", "credit_snapshots"]

/-- The foreign keys at the head revision, each from the table that refers. -/
def foreignKeys : List (String × String) :=
  [("request_logs", "clients"), ("request_logs", "api_keys"), ("idempotency_records", "clients"),
    ("upstream_resource_bindings", "clients"), ("upstream_resource_bindings", "api_keys"),
    ("credit_snapshots", "api_keys")]

/-- The Postgres database: its rows, and what each id sequence gives out next. -/
structure Target where
  tables : String → Table Row
  sequence : String → Nat

/-- Why the tool gives up. -/
inductive MigrationError where
  | missingSqlitePath
  | missingPostgresUrl
  | missingFile (path : String)
  | notPostgres (dialect : String)
  | unreachable (label : String)
  | missingScripts
  | severalHeads (heads : List String)
  | uninitialized (label : String)
  | behindHead (label current head : String)
  | unknownTables (names : List String)
  | noTables
  | missingDependencies (table : String) (missing : List String)
  | targetNotEmpty (counts : List (String × Nat))
  | countsDiffer (table : String) (source target : Nat)
  | sampleMissing (table : String) (id : Nat)
  | sampleDiffers (table : String) (id : Nat) (column : String)
deriving DecidableEq

/-- What leaves `main` other than by returning: its own error, or that of a database. -/
inductive Raised where
  | migration (error : MigrationError)
  | database
deriving DecidableEq

structure Args where
  sqlitePath : Option String := none
  postgresUrl : Option String := none
  dryRun : Bool := false
  truncate : Bool := false
  included : Option String := none
  excluded : Option String := none
  batchSize : Int := 1000
  verify : Bool := true

/-- What the tool meets: the environment, the file and its tables, the server and which
batches it takes, and the revisions. -/
structure Surroundings where
  environ : String → Option String
  fileExists : String → Bool
  dialect : String
  sqliteAnswers : Bool
  postgresAnswers : Bool
  heads : Option (List String)
  sqliteRevision : Option String
  postgresRevision : Option String
  source : String → Table Row
  accepts : String → List (Nat × Row) → Bool

/-- `_alembic_head_revision`. -/
def alembicHeadRevision (heads : Option (List String)) : Except MigrationError String :=
  match heads with
  | none => .error .missingScripts
  | some [head] => .ok head
  | some heads => .error (.severalHeads heads)

/-- `_require_alembic_at_head`. -/
def requireAlembicAtHead (heads : Option (List String)) (revision : Option String)
    (label : String) : Except MigrationError Unit := do
  let head ← alembicHeadRevision heads
  match revision with
  | none => throw (.uninitialized label)
  | some current => if current ≠ head then throw (.behindHead label current head)

/-- `_parse_csv_list`. -/
def parseCsvList (value : Option String) : Option (List String) :=
  value.map fun text => ((text.splitOn ",").map PyText.strip).filter (· ≠ "")

/-- `_resolve_tables`. -/
def resolveTables (included excluded : Option (List String)) :
    Except MigrationError (List String) :=
  let unknown := (included.getD [] ++ excluded.getD []).filter (· ∉ tableOrder)
  let tables := tableOrder.filter fun name =>
    (included.all fun names => name ∈ names) && name ∉ excluded.getD []
  if unknown ≠ [] then .error (.unknownTables unknown)
  else if tables = [] then .error .noTables
  else .ok tables

/-- `_validate_table_selection`. -/
def validateTableSelection (selected : List String) : Except MigrationError Unit :=
  match dependencies.find? fun entry => entry.1 ∈ selected && entry.2.any (· ∉ selected) with
  | some (table, needed) => .error (.missingDependencies table (needed.filter (· ∉ selected)))
  | none => .ok ()

/-- `_truncate_tables`. The server refuses to truncate a table that another one refers to
and the statement does not name. -/
def truncateTables (names : List String) (target : Target) : Option Target :=
  if foreignKeys.any fun key => key.2 ∈ names && key.1 ∉ names then none
  else some
    { tables := fun name => if name ∈ names then Table.empty (fun _ => .null) else target.tables name
      sequence := fun name => if name ∈ names then 1 else target.sequence name }

/-- Insert a batch: all of its rows or, with an error, none. -/
def insertBatch (accepts : List (Nat × Row) → Bool) (batch : List (Nat × Row))
    (table : Table Row) : Option (Table Row) :=
  if accepts batch then batch.foldlM (fun table entry => table.insert? entry.1 entry.2) table
  else none

/-- Where the loop of `_migrate_one_table` stands. -/
structure Copying where
  batch : List (Nat × Row)
  table : Table Row
  migrated : Nat

/-- Write the batch. -/
def Copying.flush (accepts : List (Nat × Row) → Bool) (copying : Copying) : Option Copying := do
  let table ← insertBatch accepts copying.batch copying.table
  return ⟨[], table, copying.migrated + copying.batch.length⟩

/-- The body of the loop: a batch that is long enough is written. -/
def Copying.row (accepts : List (Nat × Row) → Bool) (batchSize : Int) (copying : Copying)
    (entry : Nat × Row) : Option Copying :=
  let copying := { copying with batch := copying.batch ++ [entry] }
  if batchSize ≤ copying.batch.length then copying.flush accepts else some copying

/-- After the loop: what waits is written. -/
def Copying.finish (accepts : List (Nat × Row) → Bool) (copying : Copying) : Option Copying :=
  if copying.batch = [] then some copying else copying.flush accepts

/-- `_fix_postgres_sequence`: the sequence goes on after the greatest id. -/
def fixPostgresSequence (table : Table Row) : Nat :=
  if table.ids = [] then 1 else table.nextId

/-- `_migrate_one_table`, in one transaction. -/
def migrateOneTable (around : Surroundings) (batchSize : Int) (dryRun : Bool) (target : Target)
    (name : String) : Option Target :=
  if dryRun then some target
  else do
    let accepts := around.accepts name
    let copying ← (around.source name).entries.foldlM (Copying.row accepts batchSize)
      ⟨[], target.tables name, 0⟩
    let copying ← copying.finish accepts
    return {
      tables := Function.update target.tables name copying.table
      sequence := Function.update target.sequence name (fixPostgresSequence copying.table) }

def count (table : Table Row) : Nat := table.ids.length

/-- `_verify_counts`. -/
def verifyCounts (source target : String → Table Row) (names : List String) :
    Except MigrationError Unit :=
  names.forM fun name =>
    if count (source name) = count (target name) then .ok ()
    else .error (.countsDiffer name (count (source name)) (count (target name)))

def column (entry : Nat × Row) (name : String) : Value :=
  if name = "id" then .int entry.1 else entry.2 name

/-- A sampled column agrees. A ciphertext has to be a byte string that is not empty. -/
def sampleAgrees (source target : Nat × Row) (name : String) : Bool :=
  if PyText.contains name.toList "ciphertext" then
    match column source name, column target name with
    | .null, .null => true
    | .bytes one, .bytes other => one ≠ [] && other ≠ [] && one = other
    | _, _ => false
  else column source name = column target name

/-- `_verify_samples`. -/
def verifySamples (source target : String → Table Row) (names : List String) (sampleSize : Nat) :
    Except MigrationError Unit :=
  names.forM fun name =>
    let columns := (sampleColumns.lookup name).getD ["id"]
    ((source name).entries.take sampleSize).forM fun entry =>
      match (target name).get? entry.1 with
      | none => .error (.sampleMissing name entry.1)
      | some row => columns.forM fun column =>
        if sampleAgrees entry (entry.1, row) column then .ok ()
        else .error (.sampleDiffers name entry.1 column)

/-- `a or b or ...` of texts that may be missing. -/
def firstText (texts : List (Option String)) : Option String :=
  (texts.find? fun text => text.any (· ≠ "")).join

/-- What `main` checks before it chooses tables. -/
def checkSetup (args : Args) (around : Surroundings) : Except MigrationError Unit := do
  let some path := firstText [args.sqlitePath, around.environ "FCAM_DATABASE__PATH"]
    | throw .missingSqlitePath
  let some _ := firstText [args.postgresUrl, around.environ "FCAM_DATABASE__URL",
      around.environ "FCAM_DATABASE_URL"]
    | throw .missingPostgresUrl
  unless around.fileExists path do throw (.missingFile path)
  unless around.dialect = "postgresql" do throw (.notPostgres around.dialect)
  unless around.sqliteAnswers do throw (.unreachable "SQLite")
  unless around.postgresAnswers do throw (.unreachable "Postgres")
  requireAlembicAtHead around.heads around.sqliteRevision "SQLite"
  requireAlembicAtHead around.heads around.postgresRevision "Postgres"

/-- `main` up to the choice of tables. -/
def selectTables (args : Args) (around : Surroundings) : Except MigrationError (List String) := do
  checkSetup args around
  let tables ← resolveTables (parseCsvList args.included) (parseCsvList args.excluded)
  validateTableSelection tables
  return tables

/-- The target before the copy: truncated, or found empty. -/
def prepare (args : Args) (tables : List String) (target : Target) :
    Except Raised Target :=
  if args.truncate then
    if args.dryRun then .ok target
    else
      match truncateTables tables target with
      | some target => .ok target
      | none => .error .database
  else
    let counts := (tables.map fun name => (name, count (target.tables name))).filter (0 < ·.2)
    if counts ≠ [] then .error (.migration (.targetNotEmpty counts)) else .ok target

/-- The copy, one committed table after the other, and whether it came to its end. -/
def migrateTables (around : Surroundings) (batchSize : Int) (dryRun : Bool) :
    List String → Target → Bool × Target
  | [], target => (true, target)
  | name :: rest, target =>
    match migrateOneTable around batchSize dryRun target name with
    | some target => migrateTables around batchSize dryRun rest target
    | none => (false, target)

/-- `main`, with the target it leaves. -/
def main (args : Args) (around : Surroundings) (target : Target) : Except Raised Int × Target :=
  match selectTables args around with
  | .error error => (.error (.migration error), target)
  | .ok tables =>
    match prepare args tables target with
    | .error error => (.error error, target)
    | .ok prepared =>
      match migrateTables around args.batchSize args.dryRun tables prepared with
      | (false, target) => (.error .database, target)
      | (true, target) =>
        let verified := do
          if !args.dryRun && args.verify then
            verifyCounts around.source target.tables tables
            verifySamples around.source target.tables tables 10
        match verified with
        | .error error => (.error (.migration error), target)
        | .ok () => (.ok 0, target)

/-- Every row of every table of the application is in the target. -/
def Complete (source target : String → Table Row) : Prop :=
  ∀ name ∈ requiredTables, ∀ id row, (source name).get? id = some row →
    (target name).get? id = some row

/-- The statement names every table that refers to one it truncates. -/
def Closed (names : List String) : Prop :=
  ∀ key ∈ foreignKeys, key.2 ∈ names → key.1 ∈ names

variable {accepts : List (Nat × Row) → Bool} {batchSize : Int} {copying done : Copying}
  {table next : Table Row} {batch : List (Nat × Row)} {around : Surroundings}
  {target after : Target} {name : String} {id : Nat} {args : Args}

/-- What is written so far and what waits in the batch. -/
structure Copying.Holds (start : Table Row) (seen : List (Nat × Row)) (copying : Copying) : Prop where
  split : ∃ written, seen = written ++ copying.batch ∧
    written.foldlM (fun table entry => table.insert? entry.1 entry.2) start = some copying.table

theorem insertBatch_some (inserted : insertBatch accepts batch table = some next) :
    batch.foldlM (fun table entry => table.insert? entry.1 entry.2) table = some next := by
  rw [insertBatch] at inserted
  split at inserted
  · exact inserted
  · cases inserted

theorem Copying.Holds.flush {seen : List (Nat × Row)} (held : copying.Holds table seen)
    (flushed : copying.flush accepts = some done) :
    done.Holds table seen ∧ done.batch = [] := by
  obtain ⟨written, rfl, inserted⟩ := held.split
  simp only [Copying.flush, Option.bind_eq_bind, Option.bind_eq_some_iff] at flushed
  obtain ⟨next, added, same⟩ := flushed
  cases same
  refine ⟨⟨written ++ copying.batch, by simp, ?_⟩, rfl⟩
  rw [List.foldlM_append, inserted]
  exact insertBatch_some added

theorem Copying.Holds.row {seen : List (Nat × Row)} {entry : Nat × Row}
    (held : copying.Holds table seen)
    (taken : copying.row accepts batchSize entry = some done) :
    done.Holds table (seen ++ [entry]) := by
  have more : Copying.Holds table (seen ++ [entry])
      { copying with batch := copying.batch ++ [entry] } := by
    obtain ⟨written, rfl, inserted⟩ := held.split
    exact ⟨written, by simp, inserted⟩
  simp only [Copying.row] at taken
  split at taken
  · exact (more.flush taken).1
  · cases taken
    exact more

theorem Copying.Holds.loop {seen : List (Nat × Row)} (rows : List (Nat × Row))
    (held : copying.Holds table seen)
    (ran : rows.foldlM (Copying.row accepts batchSize) copying = some done) :
    done.Holds table (seen ++ rows) := by
  induction rows generalizing copying seen with
  | nil =>
    cases ran
    simpa using held
  | cons entry rows ih =>
    simp only [List.foldlM_cons, Option.bind_eq_bind, Option.bind_eq_some_iff] at ran
    obtain ⟨middle, taken, ran⟩ := ran
    have later := ih (held.row taken) ran
    rwa [List.append_assoc] at later

/-- A table after inserts holds what was inserted and what it held. -/
theorem get_inserted (rows : List (Nat × Row))
    (inserted : rows.foldlM (fun table entry => table.insert? entry.1 entry.2) table = some next)
    (id : Nat) (row : Row) :
    next.get? id = some row ↔ (id, row) ∈ rows ∨ table.get? id = some row := by
  induction rows generalizing table with
  | nil =>
    cases inserted
    simp
  | cons entry rows ih =>
    simp only [List.foldlM_cons, Option.bind_eq_bind, Option.bind_eq_some_iff] at inserted
    obtain ⟨middle, added, inserted⟩ := inserted
    have fresh : table.get? entry.1 = none := by
      apply Table.get_none.mpr
      intro listed
      have above := (Table.insert_some added).1 entry.1 listed
      omega
    rw [ih inserted, Table.get_insert added]
    by_cases same : id = entry.1
    · subst same
      rw [if_pos rfl, fresh, List.mem_cons]
      constructor
      · rintro (later | here)
        · exact .inl (.inr later)
        · obtain rfl := Option.some.inj here
          exact .inl (.inl rfl)
      · rintro ((here | later) | old)
        · exact .inr (congrArg some (congrArg Prod.snd here).symm)
        · exact .inl later
        · cases old
    · rw [if_neg same, List.mem_cons]
      have other : (id, row) ≠ entry := fun equal => same (congrArg Prod.fst equal)
      simp [other]

/-- A table that is copied into an empty one is there row for row; other tables stay. -/
theorem migrateOneTable_some (copied : migrateOneTable around batchSize false target name = some after)
    (vacant : count (target.tables name) = 0) :
    (∀ id, (after.tables name).get? id = (around.source name).get? id) ∧
      ∀ other, other ≠ name → after.tables other = target.tables other := by
  simp only [migrateOneTable, Bool.false_eq_true, if_false, Option.bind_eq_bind,
    Option.bind_eq_some_iff] at copied
  obtain ⟨looped, ran, finished, flushed, same⟩ := copied
  cases same
  rw [Copying.finish] at flushed
  have held : Copying.Holds (target.tables name) [] ⟨[], target.tables name, 0⟩ :=
    ⟨[], rfl, rfl⟩
  have loop := held.loop _ ran
  have all : (around.source name).entries.foldlM (fun table entry => table.insert? entry.1 entry.2)
      (target.tables name) = some finished.table := by
    have ended : finished.Holds (target.tables name) (around.source name).entries ∧
        finished.batch = [] := by
      split at flushed
      · rename_i empty
        cases flushed
        exact ⟨loop, empty⟩
      · exact loop.flush flushed
    obtain ⟨⟨written, split, inserted⟩, empty⟩ := ended
    rw [split, empty, List.append_nil]
    exact inserted
  have none : ∀ id, (target.tables name).get? id = none := by
    intro id
    apply Table.get_none.mpr
    rw [List.length_eq_zero_iff.mp vacant]
    exact List.not_mem_nil
  constructor
  · intro id
    ext row
    dsimp only
    rw [Function.update_self, get_inserted _ all, none, Table.mem_entries]
    simp
  · exact fun other different => Function.update_of_ne different ..

theorem migrateTables_copied (names : List String)
    (copied : migrateTables around batchSize false names target = (true, after))
    (distinct : names.Nodup) (vacant : ∀ name ∈ names, count (target.tables name) = 0) :
    (∀ name ∈ names, ∀ id, (after.tables name).get? id = (around.source name).get? id) ∧
      ∀ name, name ∉ names → after.tables name = target.tables name := by
  induction names generalizing target with
  | nil =>
    cases copied
    exact ⟨fun _ member => absurd member List.not_mem_nil, fun _ _ => rfl⟩
  | cons first rest ih =>
    obtain ⟨fresh, distinct⟩ := List.nodup_cons.mp distinct
    simp only [migrateTables] at copied
    split at copied
    · rename_i middle taken
      obtain ⟨filled, frame⟩ := migrateOneTable_some taken (vacant first List.mem_cons_self)
      have apart : ∀ name ∈ rest, name ≠ first := fun name member same => fresh (same ▸ member)
      obtain ⟨later, kept⟩ := ih copied distinct fun name member => by
        rw [frame name (apart name member)]
        exact vacant name (List.mem_cons_of_mem _ member)
      constructor
      · intro name member
        rcases List.mem_cons.mp member with rfl | member
        · rw [kept name fresh]
          exact filled
        · exact later name member
      · intro name other
        have different : name ≠ first := fun same => other (same ▸ List.mem_cons_self)
        rw [kept name (mt (List.mem_cons_of_mem _) other), frame name different]
    · cases copied

/-- The tables the tool chooses where it is not told to leave any out. -/
theorem selectTables_plain {tables : List String} (all : args.included = none)
    (kept : args.excluded = none) (selected : selectTables args around = .ok tables) :
    tables = tableOrder := by
  have resolved : resolveTables none none = .ok tableOrder := by decide
  simp only [selectTables, all, kept, parseCsvList, Option.map_none, resolved] at selected
  cases setup : checkSetup args around with
  | error error =>
    rw [setup] at selected
    cases selected
  | ok _ =>
    rw [setup] at selected
    cases selected
    rfl

/-- Postgres refuses to truncate the tables on the list. -/
theorem truncateTables_refused (target : Target) : truncateTables tableOrder target = none := by
  have uncovered : (foreignKeys.any fun key => key.2 ∈ tableOrder && key.1 ∉ tableOrder) = true := by
    decide
  rw [truncateTables, if_pos uncovered]

/-- A run that returns 0 found its tables empty and copied them. -/
theorem main_zero (all : args.included = none) (kept : args.excluded = none)
    (wet : args.dryRun = false) (ran : main args around target = (.ok 0, after)) :
    args.truncate = false ∧ (∀ name ∈ tableOrder, count (target.tables name) = 0) ∧
      migrateTables around args.batchSize false tableOrder target = (true, after) := by
  simp only [main, wet] at ran
  split at ran
  · cases ran
  · rename_i tables selected
    obtain rfl := selectTables_plain all kept selected
    simp only [prepare, wet, truncateTables_refused, Bool.false_eq_true, if_false] at ran
    by_cases truncates : args.truncate = true
    · simp only [if_pos truncates] at ran
      cases ran
    · simp only [if_neg truncates] at ran
      refine ⟨by simpa using truncates, ?_⟩
      split at ran
      · cases ran
      · rename_i prepared checked
        split at checked
        · cases checked
        · rename_i vacant
          cases checked
          split at ran
          · cases ran
          · rename_i last copied
            split at ran
            · cases ran
            · cases ran
              refine ⟨?_, copied⟩
              intro name member
              simp only [ne_eq, not_not, List.filter_eq_nil_iff, List.mem_map,
                forall_exists_index, and_imp] at vacant
              have zero := vacant (name, count (target.tables name)) name member rfl
              simpa using zero

/-- The tables of the application that are not on the tool's list. -/
def forgotten : List String := requiredTables.filter (· ∉ tableOrder)

/-- A run over all tables that returns 0 is complete exactly where the tables that are not
on the list had nothing to copy; with truncation no run returns 0, since other tables refer
to those that the statement names. -/
theorem migration_complete_iff (all : args.included = none) (kept : args.excluded = none)
    (wet : args.dryRun = false) :
    (∀ after, main args around target = (.ok 0, after) →
      (Complete around.source after.tables ↔ ∀ name ∈ forgotten, ∀ id row,
        (around.source name).get? id = some row → (target.tables name).get? id = some row)) ∧
    (args.truncate = true →
      (∀ tables, selectTables args around = .ok tables → ¬ Closed tables) ∧
        (main args around target).1 ≠ .ok 0) := by
  constructor
  · intro after ran
    obtain ⟨_, vacant, copied⟩ := main_zero all kept wet ran
    obtain ⟨filled, frame⟩ := migrateTables_copied tableOrder copied (by decide) vacant
    constructor
    · intro complete name member id row present
      obtain ⟨needed, unlisted⟩ := List.mem_filter.mp member
      have there := complete name needed id row present
      rwa [frame name (by simpa using unlisted)] at there
    · intro rest name needed id row present
      by_cases listed : name ∈ tableOrder
      · rw [filled name listed, present]
      · rw [frame name listed]
        exact rest name (List.mem_filter.mpr ⟨needed, by simpa using listed⟩) id row present
  · intro truncates
    constructor
    · intro tables selected closed
      obtain rfl := selectTables_plain all kept selected
      have listed := closed ("credit_snapshots", "api_keys") (by decide) (by decide)
      exact absurd listed (by decide)
    · intro zero
      have ran : main args around target = (.ok 0, (main args around target).2) :=
        Prod.ext zero rfl
      rw [(main_zero all kept wet ran).1] at truncates
      cases truncates

def noRows : Table Row := Table.empty fun _ => .null

/-- A source with one row in the table given. -/
def rowIn (name : String) (row : Row) : String → Table Row :=
  fun table => if table = name then Table.single 1 row else noRows

def migratedHead (source : String → Table Row) : Surroundings where
  environ _ := none
  fileExists _ := true
  dialect := "postgresql"
  sqliteAnswers := true
  postgresAnswers := true
  heads := some ["0012_perf_indexes"]
  sqliteRevision := some "0012_perf_indexes"
  postgresRevision := some "0012_perf_indexes"
  source := source
  accepts _ _ := true

def plainArgs : Args := { sqlitePath := some "a.db", postgresUrl := some "postgresql://db" }

def vacantTarget : Target := ⟨fun _ => noRows, fun _ => 1⟩

theorem client_migrated :
    let around := migratedHead (rowIn "clients" fun _ => .text "tenant")
    Complete around.source (main plainArgs around vacantTarget).2.tables := by
  refine ((migration_complete_iff rfl rfl rfl).1 _ (Prod.ext ?_ rfl)).mpr ?_
  · decide +kernel
  · intro name member id row present
    have other : name ≠ "clients" := by
      rintro rfl
      exact absurd member (by decide)
    simp only [migratedHead, rowIn, if_neg other] at present
    exact present

/-- A credit snapshot is not copied, and the run still reports success; with truncation
Postgres refuses. -/
theorem snapshot_forgotten :
    let around := migratedHead (rowIn "credit_snapshots" fun _ => .int 5)
    (main plainArgs around vacantTarget).1 = .ok 0 ∧
      ¬ Complete around.source (main plainArgs around vacantTarget).2.tables ∧
      (main { plainArgs with truncate := true } around vacantTarget).1 = .error .database := by
  refine ⟨by decide +kernel, ?_, by decide +kernel⟩
  intro complete
  have there := complete "credit_snapshots" (by decide) 1 (fun _ => .int 5) rfl
  have absent : ((main plainArgs (migratedHead (rowIn "credit_snapshots" fun _ => .int 5))
      vacantTarget).2.tables "credit_snapshots").get? 1 = none := rfl
  rw [absent] at there
  cases there

end FcamGateway.Migration
