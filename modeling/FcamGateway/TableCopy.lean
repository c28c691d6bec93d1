import FcamGateway.Migration
import FcamGateway.Prog

/-! The copy of one table, statement by statement. The rows come as a stream; they are written in
batches, with what is left over at the end, and then the sequence of the ids is set. -/
namespace FcamGateway.TableCopy
open Prog
open Migration (Row Raised count)

/-- The statements on the source and on the target. -/
inductive Statement where
  | countSource
  | selectSource
  | begin
  | insert (batch : List (Nat × Row))
  | serialSequence
  | maxId
  | setval (sequence : String) (value : Nat) (called : Bool)
  | commit
  | rollback

def Answer : Statement → Type
  | .countSource => Nat
  | .selectSource => List (Nat × Row)
  | .serialSequence => Option String
  | .maxId => Option Nat
  | _ => Unit

inductive Op where
  | perfCounter
  | run (statement : Statement)

/-- A statement that raises has no answer. -/
def Reply : Op → Type
  | .perfCounter => ℚ
  | .run statement => Option (Answer statement)

abbrev Program := Prog Op Reply Raised

def execute (statement : Statement) : Program (Answer statement) :=
  ask (Op.run statement) fun answer =>
    match answer with
    | some answer => done answer
    | none => raise .database

structure TableSummary where
  table : String
  sourceRows : Nat
  migratedRows : Nat
  seconds : ℚ

def flush (batch : List (Nat × Row)) (migrated : Nat) : Program Nat :=
  (execute (.insert batch)).bind fun _ => done (migrated + batch.length)

/-- The loop over the rows. It ends with the batch that waits and the number of rows written. -/
def copyRows (batchSize : Int) :
    List (Nat × Row) → List (Nat × Row) → Nat → Program (List (Nat × Row) × Nat)
  | [], batch, migrated => done (batch, migrated)
  | row :: rows, batch, migrated =>
    let batch := batch ++ [row]
    if batchSize ≤ batch.length then
      (flush batch migrated).bind fun migrated => copyRows batchSize rows [] migrated
    else copyRows batchSize rows batch migrated

/-- `_fix_postgres_sequence`. Every table has a column `id`. -/
def fixPostgresSequence : Program Unit :=
  (execute .serialSequence).bind fun name =>
    match name with
    | none => done ()
    | some name =>
      if name = "" then done ()
      else (execute .maxId).bind fun greatest =>
        match greatest with
        | none => execute (.setval name 1 false)
        | some greatest => execute (.setval name greatest true)

/-- What happens in the transaction. -/
def transfer (batchSize : Int) : Program Nat :=
  (execute .selectSource).bind fun rows =>
    (copyRows batchSize rows [] 0).bind fun copied =>
      (if copied.1 = [] then done copied.2 else flush copied.1 copied.2).bind fun migrated =>
        fixPostgresSequence.bind fun _ => done migrated

/-- `_migrate_one_table`. -/
def migrateOneTable (tableName : String) (batchSize : Int) (dryRun : Bool) : Program TableSummary :=
  ask Op.perfCounter fun (started : ℚ) =>
    (execute .countSource).bind fun sourceRows =>
      if dryRun then done ⟨tableName, sourceRows, 0, 0⟩
      else
        (execute .begin).bind fun _ =>
          ((transfer batchSize).attempt fun error =>
            (execute .rollback).bind fun _ => raise error).bind fun migratedRows =>
            (execute .commit).bind fun _ =>
              ask Op.perfCounter fun (ended : ℚ) =>
                done ⟨tableName, sourceRows, migratedRows, ended - started⟩

/-- The source table, and the target: its rows, those that an open transaction sees, and the
sequence behind its ids. -/
structure Server where
  source : Table Row
  rows : Table Row
  working : Option (Table Row)
  serial : Option String
  lastValue : Nat
  isCalled : Bool

/-- What the sequence gives out next. -/
def Server.nextval (server : Server) : Nat :=
  if server.isCalled then server.lastValue + 1 else server.lastValue

/-- Insert rows in order; a row with an id that is there already, or below one, is refused. -/
def insertAll (table : Table Row) (rows : List (Nat × Row)) : Option (Table Row) :=
  rows.foldlM (fun table entry => table.insert? entry.1 entry.2) table

/-- What a statement does. Only the transaction sees its inserts before it commits; a sequence is
set for everyone. -/
def moves (server : Server) : Event Op Reply → Server → Prop
  | ⟨.perfCounter, _⟩, last => last = server
  | ⟨.run .countSource, some rows⟩, last => rows = count server.source ∧ last = server
  | ⟨.run .selectSource, some rows⟩, last => rows = server.source.entries ∧ last = server
  | ⟨.run .begin, some _⟩, last =>
    server.working = none ∧ last = { server with working := some server.rows }
  | ⟨.run (.insert batch), some _⟩, last => ∃ table next, server.working = some table ∧
    insertAll table batch = some next ∧ last = { server with working := some next }
  | ⟨.run .serialSequence, some name⟩, last => name = server.serial ∧ last = server
  | ⟨.run .maxId, some greatest⟩, last =>
    ∃ table, server.working = some table ∧ greatest = table.ids.max? ∧ last = server
  | ⟨.run (.setval name value called), some _⟩, last => server.serial = some name ∧ 0 < value ∧
    last = { server with lastValue := value, isCalled := called }
  | ⟨.run .commit, some _⟩, last => ∃ table, server.working = some table ∧
    last = { server with rows := table, working := none }
  | ⟨.run .rollback, some _⟩, last => last = { server with working := none }
  | ⟨.run _, none⟩, last => last = server

/-- The statement does not raise. -/
def Succeeds : Event Op Reply → Prop
  | ⟨.perfCounter, _⟩ => True
  | ⟨.run _, answer⟩ => answer.isSome = true

/-- What a statement that does not raise does. -/
def answered (server : Server) (event : Event Op Reply) (last : Server) : Prop :=
  Succeeds event ∧ moves server event last

variable {Value : Type} {server last : Server} {seen events : List (Event Op Reply)}
  {table next : Table Row} {batchSize : Int}

theorem follows_answered (followed : Follows moves server events last)
    (succeeds : ∀ event ∈ events, Succeeds event) : Follows answered server events last := by
  induction followed with
  | nil => exact .nil
  | cons moved _ ih =>
    exact .cons ⟨succeeds _ List.mem_cons_self, moved⟩
      (ih fun event member => succeeds event (List.mem_cons_of_mem _ member))

/-- The rule for a statement. -/
theorem wp_statement {statement : Statement}
    {post : Except Raised (Answer statement) → Server × List (Event Op Reply) → Prop} :
    (execute statement).wp (.logging answered) post (server, seen) ↔
      ∀ answer last, moves server ⟨.run statement, some answer⟩ last →
        post (.ok answer) (last, seen ++ [⟨.run statement, some answer⟩]) := by
  refine (wp_logged (Op.run statement) _).trans ⟨fun met answer last moved => ?_, fun met => ?_⟩
  · exact met (some answer) last ⟨rfl, moved⟩
  · rintro (_ | answer) last ⟨succeeds, moved⟩
    · cases succeeds
    · exact met answer last moved

theorem wp_run {statement : Statement} {rest : Answer statement → Program Value}
    {post : Except Raised Value → Server × List (Event Op Reply) → Prop} :
    ((execute statement).bind rest).wp (.logging answered) post (server, seen) ↔
      ∀ answer last, moves server ⟨.run statement, some answer⟩ last →
        (rest answer).wp (.logging answered) post
          (last, seen ++ [⟨.run statement, some answer⟩]) :=
  (wp_bind _).trans wp_statement

/-- What a program asks, after what was asked before. -/
def Asked (seen : List (Event Op Reply)) (ops : List Op) (state : Server × List (Event Op Reply)) :
    Prop :=
  state.2.map Event.op = seen.map Event.op ++ ops

def insertOps (batches : List (List (Nat × Row))) : List Op :=
  batches.map fun batch => Op.run (.insert batch)

theorem insertAll_append {rows more : List (Nat × Row)} (inserted : insertAll table rows = some next) :
    insertAll table (rows ++ more) = insertAll next more := by
  rw [insertAll, List.foldlM_append]
  rw [insertAll] at inserted
  rw [inserted]
  rfl

/-- The rows written so far and those that wait are the rows read so far. -/
structure Wrote (server : Server) (table : Table Row) (seen : List (Event Op Reply))
    (rows waiting : List (Nat × Row)) (written : Nat) (state : Server × List (Event Op Reply)) :
    Prop where
  batches : ∃ batches next, rows = batches.flatten ++ waiting ∧ written = batches.flatten.length ∧
    insertAll table batches.flatten = some next ∧ state.1 = { server with working := some next } ∧
    Asked seen (insertOps batches) state

theorem Wrote.flush {rows waiting : List (Nat × Row)} {written : Nat}
    {state : Server × List (Event Op Reply)}
    (wrote : Wrote server table seen rows waiting written state) :
    (flush waiting written).wp (.logging answered)
      (fun outcome after => ∃ total, outcome = .ok total ∧
        Wrote server table seen rows [] total after) state := by
  obtain ⟨batches, next, rfl, rfl, inserted, stands, asked⟩ := wrote.batches
  obtain ⟨middle, history⟩ := state
  cases stands
  refine wp_run.mpr fun _ last moved => ?_
  obtain ⟨before, after, held, added, rfl⟩ := moved
  cases held
  refine ⟨_, rfl, ⟨batches ++ [waiting], after, by simp, by simp, ?_, rfl, ?_⟩⟩
  · rw [List.flatten_append, List.flatten_singleton, insertAll_append inserted]
    exact added
  · have same : history.map Event.op = seen.map Event.op ++ insertOps batches := asked
    simp [Asked, same, insertOps]

theorem Wrote.read {rows waiting : List (Nat × Row)} {written : Nat}
    {state : Server × List (Event Op Reply)} (row : Nat × Row)
    (wrote : Wrote server table seen rows waiting written state) :
    Wrote server table seen (rows ++ [row]) (waiting ++ [row]) written state := by
  obtain ⟨batches, next, rfl, rest⟩ := wrote.batches
  exact ⟨batches, next, List.append_assoc _ _ _, rest⟩

/-- The loop writes or keeps every row, in order. -/
theorem Wrote.loop {read waiting : List (Nat × Row)} {written : Nat}
    {state : Server × List (Event Op Reply)} (rows : List (Nat × Row))
    (wrote : Wrote server table seen read waiting written state) :
    (copyRows batchSize rows waiting written).wp (.logging answered)
      (fun outcome after => ∃ rest total, outcome = .ok (rest, total) ∧
        Wrote server table seen (read ++ rows) rest total after) state := by
  induction rows generalizing read waiting written state with
  | nil => exact ⟨waiting, written, rfl, by rwa [List.append_nil]⟩
  | cons row rows ih =>
    rw [List.append_cons]
    simp only [copyRows]
    split
    · refine (wp_bind _).mpr (wp_mono ?_ (wrote.read row).flush)
      rintro _ after ⟨total, rfl, more⟩
      exact ih more
    · exact ih (wrote.read row)

/-- An operation inside a transaction. -/
def Within : Op → Prop
  | .run .begin => False
  | .run .commit => False
  | .run .rollback => False
  | _ => True

theorem foldr_max_le {bound : Nat} (ids : List Nat) (below : ∀ id ∈ ids, id ≤ bound) :
    ids.foldr max 0 ≤ bound := by
  induction ids with
  | nil => exact Nat.zero_le _
  | cons id ids ih =>
    have rest := ih fun other member => below other (List.mem_cons_of_mem _ member)
    exact Nat.max_le.mpr ⟨below id List.mem_cons_self, rest⟩

/-- The abstract tool sets the sequence after the greatest id. -/
theorem fixPostgresSequence_max {greatest : Nat} (max : table.ids.max? = some greatest) :
    Migration.fixPostgresSequence table = greatest + 1 := by
  obtain ⟨member, above⟩ := List.max?_eq_some_iff.mp max
  rw [Migration.fixPostgresSequence, if_neg (List.ne_nil_of_mem member), Table.nextId]
  have least := Table.le_foldr_max table.ids member
  have most := foldr_max_le table.ids above
  omega

theorem fixPostgresSequence_none (max : table.ids.max? = none) :
    Migration.fixPostgresSequence table = 1 := by
  rw [Migration.fixPostgresSequence, if_pos (List.max?_eq_none_iff.mp max)]

/-- Nothing but the sequence has changed, and that goes on after the greatest id. -/
structure Sequenced (server : Server) (table : Table Row) (seen : List (Event Op Reply))
    (state : Server × List (Event Op Reply)) : Prop where
  within : ∃ ops, (∀ op ∈ ops, Within op ∧ ∀ batch, op ≠ .run (.insert batch)) ∧ Asked seen ops state
  stands : ∃ lastValue isCalled, state.1 = { server with lastValue, isCalled }
  next : ∀ name, server.serial = some name → name ≠ "" →
    state.1.nextval = Migration.fixPostgresSequence table

theorem wp_fixPostgresSequence (working : server.working = some table) :
    fixPostgresSequence.wp (.logging answered)
      (fun outcome after => outcome = .ok () ∧ Sequenced server table seen after) (server, seen) := by
  refine wp_run.mpr ?_
  rintro _ last ⟨rfl, same⟩
  rw [same]
  cases serial : server.serial with
  | none =>
    refine ⟨rfl, ⟨[.run .serialSequence], by simp [Within], by simp [Asked]⟩, ⟨_, _, rfl⟩, ?_⟩
    intro name named
    rw [serial] at named
    cases named
  | some name =>
    by_cases empty : name = ""
    · simp only [if_pos empty]
      refine ⟨rfl, ⟨[.run .serialSequence], by simp [Within], by simp [Asked]⟩, ⟨_, _, rfl⟩, ?_⟩
      intro other named filled
      rw [serial] at named
      cases named
      exact absurd empty filled
    · simp only [if_neg empty]
      refine wp_run.mpr ?_
      rintro greatest last ⟨held, current, max, same⟩
      rw [same]
      cases current.symm.trans working
      cases greatest with
      | none =>
        refine wp_statement.mpr ?_
        rintro _ _ ⟨_, _, rfl⟩
        refine ⟨rfl, ⟨[.run .serialSequence, .run .maxId, .run (.setval name 1 false)],
          by simp [Within], by simp [Asked]⟩, ⟨_, _, rfl⟩, fun _ _ _ => ?_⟩
        exact (fixPostgresSequence_none max.symm).symm
      | some greatest =>
        refine wp_statement.mpr ?_
        rintro _ _ ⟨_, _, rfl⟩
        refine ⟨rfl, ⟨[.run .serialSequence, .run .maxId, .run (.setval name greatest true)],
          by simp [Within], by simp [Asked]⟩, ⟨_, _, rfl⟩, fun _ _ _ => ?_⟩
        exact (fixPostgresSequence_max max.symm).symm

/-- Every row of the source is written, in order, and the sequence stands after them. -/
structure Transferred (server : Server) (table : Table Row) (seen : List (Event Op Reply))
    (state : Server × List (Event Op Reply)) : Prop where
  written : ∃ batches ops next lastValue isCalled, batches.flatten = server.source.entries ∧
    insertAll table batches.flatten = some next ∧
    state.1 = { server with working := some next, lastValue, isCalled } ∧
    Asked seen (.run .selectSource :: insertOps batches ++ ops) state ∧
    (∀ op ∈ ops, Within op ∧ ∀ batch, op ≠ .run (.insert batch)) ∧
    ∀ name, server.serial = some name → name ≠ "" →
      state.1.nextval = Migration.fixPostgresSequence next

theorem wp_transfer (working : server.working = some table) :
    (transfer batchSize).wp (.logging answered)
      (fun outcome after => outcome = .ok (count server.source) ∧ Transferred server table seen after)
      (server, seen) := by
  refine wp_run.mpr ?_
  rintro _ last ⟨rfl, same⟩
  rw [same]
  let asked : List (Event Op Reply) := seen ++ [⟨.run .selectSource, some server.source.entries⟩]
  have start : Wrote server table asked [] [] 0 (server, asked) := by
    refine ⟨[], table, rfl, rfl, rfl, ?_, by simp [Asked, insertOps]⟩
    rw [← working]
  refine (wp_bind _).mpr (wp_mono ?_ (start.loop server.source.entries))
  rintro _ after ⟨rest, total, rfl, wrote⟩
  refine (wp_bind _).mpr ?_
  have flushed : (if rest = [] then done total else flush rest total).wp (.logging answered)
      (fun outcome after => ∃ total, outcome = .ok total ∧
        Wrote server table asked server.source.entries [] total after) after := by
    split
    · rename_i empty
      subst empty
      exact ⟨total, rfl, wrote⟩
    · exact wrote.flush
  refine wp_mono ?_ flushed
  rintro _ ⟨middle, history⟩ ⟨total, rfl, batches, next, split, rfl, inserted, stands, questions⟩
  rw [List.append_nil] at split
  cases stands
  refine (wp_bind _).mpr (wp_mono ?_ (wp_fixPostgresSequence rfl))
  rintro _ ⟨ended, all⟩ ⟨rfl, ⟨ops, inside, more⟩, ⟨lastValue, isCalled, leaves⟩, goes⟩
  constructor
  · rw [← split, count, Table.entries, List.length_map]
  · refine ⟨batches, ops, next, lastValue, isCalled, split.symm, inserted, leaves, ?_, inside, goes⟩
    simp only [Asked] at questions more
    simp [Asked, more, questions, asked]

/-- A new row is the last one. -/
theorem entries_insert {id : Nat} {row : Row} (added : table.insert? id row = some next) :
    next.entries = table.entries ++ [(id, row)] := by
  rw [Table.insert?] at added
  split at added
  · rename_i above
    cases added
    have kept : ∀ listed ∈ table.ids, Function.update table.row id row listed = table.row listed := by
      intro listed member
      exact Function.update_of_ne (Nat.ne_of_lt (above listed member)) ..
    simpa [Table.entries] using kept
  · cases added

theorem entries_insertAll (rows : List (Nat × Row)) (inserted : insertAll table rows = some next) :
    next.entries = table.entries ++ rows := by
  induction rows generalizing table with
  | nil =>
    cases inserted
    exact (List.append_nil _).symm
  | cons entry rows ih =>
    simp only [insertAll, List.foldlM_cons, Option.bind_eq_bind, Option.bind_eq_some_iff] at inserted
    obtain ⟨middle, added, inserted⟩ := inserted
    rw [ih inserted, entries_insert added, List.append_assoc, List.singleton_append]

/-- What a copy leaves and reports. The statements between `begin` and `commit` are one reading of
the source, the batches, and what is asked of the sequence. -/
structure Copied (server : Server) (tableName : String) (outcome : Except Raised TableSummary)
    (state : Server × List (Event Op Reply)) : Prop where
  reports : ∃ seconds, outcome = .ok ⟨tableName, count server.source, count server.source, seconds⟩
  rows : state.1.rows.entries = server.source.entries
  closed : state.1.working = none
  transaction : ∃ batches ops, state.2.map Event.op =
      [.perfCounter, .run .countSource, .run .begin] ++
        (.run .selectSource :: insertOps batches ++ ops) ++ [.run .commit, .perfCounter] ∧
    batches.flatten = server.source.entries ∧
    ∀ op ∈ ops, Within op ∧ ∀ batch, op ≠ .run (.insert batch)
  above : ∀ name, server.serial = some name → name ≠ "" →
    ∀ id ∈ server.source.ids, id < state.1.nextval
  first : ∀ name, server.serial = some name → name ≠ "" → server.source.ids = [] →
    state.1.nextval = 1
  sequence : ∀ name, server.serial = some name → name ≠ "" →
    state.1.nextval = Migration.fixPostgresSequence state.1.rows

theorem ids_entries (table : Table Row) : table.entries.map Prod.fst = table.ids := by
  simp [Table.entries, Function.comp_def]

theorem wp_migrateOneTable {tableName : String} (vacant : server.rows.ids = []) :
    (migrateOneTable tableName batchSize false).wp (.logging answered) (Copied server tableName)
      (server, []) := by
  refine (wp_logged (Op.perfCounter) _).mpr ?_
  rintro started _ ⟨_, same⟩
  rw [same]
  refine wp_run.mpr ?_
  rintro _ _ ⟨rfl, same⟩
  rw [same]
  refine wp_run.mpr ?_
  rintro _ _ ⟨idle, rfl⟩
  refine (wp_bind _).mpr ((wp_attempt _).mpr (wp_mono ?_ (wp_transfer rfl)))
  rintro _ ⟨middle, history⟩ ⟨rfl, batches, ops, next, lastValue, isCalled, flat, inserted, stands,
    asked, inside, goes⟩
  cases stands
  refine wp_run.mpr ?_
  rintro _ _ ⟨_, held, rfl⟩
  cases held
  refine (wp_logged (Op.perfCounter) _).mpr ?_
  rintro ended _ ⟨_, same⟩
  rw [same]
  have same : next.entries = batches.flatten := by
    simpa [Table.entries, vacant] using entries_insertAll _ inserted
  have ids := congrArg (List.map Prod.fst) (same.trans flat)
  rw [ids_entries, ids_entries] at ids
  have nextval (name : String) (named : server.serial = some name) (filled : name ≠ "") :
      Server.nextval { server with rows := next, working := none, lastValue, isCalled } =
        if server.source.ids = [] then 1 else server.source.ids.foldr max 0 + 1 := by
    rw [← ids]
    exact goes name named filled
  refine ⟨⟨_, rfl⟩, same.trans flat, rfl, ⟨batches, ops, ?_, flat, inside⟩, ?_, ?_, goes⟩
  · simp only [Asked] at asked
    simp [asked]
  · intro name named filled id member
    rw [nextval name named filled, if_neg (List.ne_nil_of_mem member)]
    have least := Table.le_foldr_max _ member
    omega
  · intro name named filled empty
    rw [nextval name named filled, if_pos empty]

/-- A table that is copied into an empty one is there row for row, after one transaction, and the
sequence goes on above its ids. -/
theorem table_copied {tableName : String} {outcome : Except Raised TableSummary}
    (ran : Ran (migrateOneTable tableName batchSize false) events outcome)
    (followed : Follows moves server events last)
    (succeeds : ∀ event ∈ events, Succeeds event) (vacant : server.rows.ids = []) :
    Copied server tableName outcome (last, events) :=
  wp_logging ran (follows_answered followed succeeds) (wp_migrateOneTable vacant)

/-- Ascending ids above those of a table can be inserted. -/
theorem insertAll_ascending (rows : List (Nat × Row))
    (ascending : (table.ids ++ rows.map Prod.fst).Pairwise (· < ·)) :
    ∃ next, insertAll table rows = some next := by
  induction rows generalizing table with
  | nil => exact ⟨table, rfl⟩
  | cons entry rows ih =>
    rw [List.map_cons, List.append_cons] at ascending
    have above : ∀ listed ∈ table.ids, listed < entry.1 := by
      have front := (List.pairwise_append.mp ascending).1
      intro listed member
      exact (List.pairwise_append.mp front).2.2 listed member _ List.mem_cons_self
    obtain ⟨middle, added⟩ : ∃ middle, table.insert? entry.1 entry.2 = some middle :=
      ⟨_, dif_pos above⟩
    obtain ⟨next, inserted⟩ := @ih middle (by rwa [(Table.insert_some added).2.1])
    refine ⟨next, ?_⟩
    rw [insertAll, List.foldlM_cons, added]
    exact inserted

theorem insertAll_front {rows more : List (Nat × Row)}
    (inserted : insertAll table (rows ++ more) = some next) :
    ∃ middle, insertAll table rows = some middle ∧ insertAll middle more = some next := by
  rw [insertAll, List.foldlM_append] at inserted
  exact Option.bind_eq_some_iff.mp inserted

/-- Where every batch is taken, the loop of the tool writes what can be inserted. -/
theorem loop_accepted {accepts : List (Nat × Row) → Bool} (all : ∀ batch, accepts batch = true)
    (rows : List (Nat × Row)) (copying : Migration.Copying)
    (inserted : insertAll copying.table (copying.batch ++ rows) = some next) :
    ∃ looped finished, rows.foldlM (Migration.Copying.row accepts batchSize) copying = some looped ∧
      looped.finish accepts = some finished ∧ finished.table = next := by
  induction rows generalizing copying with
  | nil =>
    refine ⟨copying, ?_⟩
    rw [List.append_nil] at inserted
    rw [Migration.Copying.finish]
    split
    · rename_i empty
      rw [empty] at inserted
      exact ⟨copying, rfl, rfl, Option.some.inj inserted⟩
    · refine ⟨⟨[], next, copying.migrated + copying.batch.length⟩, rfl, ?_, rfl⟩
      rw [Migration.Copying.flush, Migration.insertBatch, if_pos (all _)]
      exact Option.bind_eq_some_iff.mpr ⟨next, inserted, rfl⟩
  | cons row rows ih =>
    rw [List.append_cons] at inserted
    rw [List.foldlM_cons, Migration.Copying.row]
    dsimp only
    split
    · obtain ⟨middle, written, more⟩ := insertAll_front inserted
      have flushed : Migration.Copying.flush accepts
          { copying with batch := copying.batch ++ [row] } =
            some ⟨[], middle, copying.migrated + (copying.batch ++ [row]).length⟩ := by
        rw [Migration.Copying.flush, Migration.insertBatch, if_pos (all _)]
        exact Option.bind_eq_some_iff.mpr ⟨middle, written, rfl⟩
      rw [flushed]
      exact ih _ more
    · exact ih _ inserted

/-- The tool of the whole run, where it takes every batch, leaves the same rows and the same
sequence as the statements of the copy. -/
theorem migrateOneTable_agrees {tableName : String} {outcome : Except Raised TableSummary}
    {around : Migration.Surroundings} {target : Migration.Target}
    (copied : Copied server tableName outcome (last, events)) (vacant : server.rows.ids = [])
    (source : around.source tableName = server.source)
    (empty : target.tables tableName = server.rows)
    (all : ∀ batch, around.accepts tableName batch = true) :
    ∃ after, Migration.migrateOneTable around batchSize false target tableName = some after ∧
      (after.tables tableName).entries = last.rows.entries ∧
      ∀ name, server.serial = some name → name ≠ "" → after.sequence tableName = last.nextval := by
  have ascending : (server.rows.ids ++ server.source.entries.map Prod.fst).Pairwise (· < ·) := by
    rw [vacant, List.nil_append, ids_entries]
    exact server.source.ascending
  obtain ⟨next, inserted⟩ := insertAll_ascending server.source.entries ascending
  have same : next.entries = last.rows.entries := by
    rw [entries_insertAll _ inserted, copied.rows, Table.entries, vacant]
    rfl
  obtain ⟨looped, finished, ran, ended, rfl⟩ :=
    @loop_accepted _ batchSize _ all server.source.entries ⟨[], server.rows, 0⟩ inserted
  refine ⟨⟨Function.update target.tables tableName finished.table, Function.update target.sequence
    tableName (Migration.fixPostgresSequence finished.table)⟩, ?_, ?_, ?_⟩
  · simp [Migration.migrateOneTable, source, empty, ran, ended]
  · rw [← same]
    exact congrArg Table.entries (Function.update_self ..)
  · intro name named filled
    have ids := congrArg (List.map Prod.fst) same
    rw [ids_entries, ids_entries] at ids
    refine (Function.update_self ..).trans ?_
    rw [copied.sequence name named filled, Migration.fixPostgresSequence, Table.nextId, ids]
    rfl

/-- A server that nobody else uses. -/
def Server.answer (server : Server) : (op : Op) → Reply op × Server
  | .perfCounter => ((0 : ℚ), server)
  | .run .countSource => (some (count server.source), server)
  | .run .selectSource => (some server.source.entries, server)
  | .run .begin =>
    if server.working.isNone then (some (), { server with working := some server.rows })
    else (none, server)
  | .run (.insert batch) =>
    match server.working.bind fun table => insertAll table batch with
    | some next => (some (), { server with working := some next })
    | none => (none, server)
  | .run .serialSequence => (some server.serial, server)
  | .run .maxId => (server.working.map fun table => table.ids.max?, server)
  | .run (.setval name value called) =>
    if server.serial = some name ∧ 0 < value then
      (some (), { server with lastValue := value, isCalled := called })
    else (none, server)
  | .run .commit =>
    match server.working with
    | some table => (some (), { server with rows := table, working := none })
    | none => (none, server)
  | .run .rollback => (some (), { server with working := none })

theorem Server.answer_honest (server : Server) (op : Op) :
    moves server ⟨op, (server.answer op).1⟩ (server.answer op).2 := by
  match op with
  | .perfCounter => rfl
  | .run .countSource => exact ⟨rfl, rfl⟩
  | .run .selectSource => exact ⟨rfl, rfl⟩
  | .run .begin =>
    simp only [Server.answer]
    split
    · rename_i idle
      exact ⟨Option.isNone_iff_eq_none.mp idle, rfl⟩
    · rfl
  | .run (.insert batch) =>
    simp only [Server.answer]
    split
    · rename_i next taken
      obtain ⟨table, held, inserted⟩ := Option.bind_eq_some_iff.mp taken
      exact ⟨table, next, held, inserted, rfl⟩
    · rfl
  | .run .serialSequence => exact ⟨rfl, rfl⟩
  | .run .maxId =>
    cases held : server.working with
    | none =>
      simp only [Server.answer, held]
      rfl
    | some table =>
      simp only [Server.answer, held]
      exact ⟨table, held, rfl, rfl⟩
  | .run (.setval name value called) =>
    simp only [Server.answer]
    split
    · rename_i fits
      exact ⟨fits.1, fits.2, rfl⟩
    · rfl
  | .run .commit =>
    simp only [Server.answer]
    split
    · rename_i table held
      exact ⟨table, held, rfl⟩
    · rfl
  | .run .rollback => rfl

instance : DecidablePred Succeeds
  | ⟨.perfCounter, _⟩ => isTrue trivial
  | ⟨.run _, answer⟩ => inferInstanceAs (Decidable (answer.isSome = true))

/-- Three rows in batches of two, with a gap in the ids. -/
def threeRows : Server where
  source := ⟨[1, 3, 4], by decide, fun id _ => .int id⟩
  rows := Table.empty fun _ => .null
  working := none
  serial := some "public.clients_id_seq"
  lastValue := 7
  isCalled := true

theorem threeRows_copied :
    let run := (migrateOneTable "clients" 2 false).execute Server.answer threeRows
    run.2.2.rows.entries = threeRows.source.entries ∧ 4 < run.2.2.nextval := by
  have copied := table_copied (execute_ran Server.answer (migrateOneTable "clients" 2 false) threeRows)
    (execute_follows Server.answer_honest _ _) (by decide) rfl
  exact ⟨copied.rows, copied.above _ rfl (by decide) 4 (by decide)⟩

end FcamGateway.TableCopy
