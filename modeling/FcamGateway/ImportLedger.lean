import FcamGateway.KeyImport
import FcamGateway.KeyStore
import FcamGateway.Selection

/-! The database as an import meets it: one transaction with a nested transaction for each
row, and the rows the session holds. Whatever an import does to a row that is there, it only
fills account fields that are empty. -/
namespace FcamGateway.KeyImport
open Prog KeyAdmin

set_option linter.unusedSectionVars false

variable {R : Type} [Field R] [LinearOrder R] [ScoreMath R]

/-- A request of `import_keys_text` with the text it came with. -/
def request (fromIsoFormat : String → Except String ReadDatetime) (text : String)
    (payload : ImportKeysTextRequest) : ImportKeysTextRequest :=
  { payload with
    items := (parseKeysText fromIsoFormat text).1
    parseFailures := (parseKeysText fromIsoFormat text).2 }

def HoldsHash (keys : Table KeyColumns) (hash : String) : Prop :=
  ∃ id row, keys.get? id = some row ∧ row.apiKeyHash = hash

/-- Some row that was there is not the same afterwards. -/
def Alters (before after : Table KeyColumns) : Prop :=
  ∃ id ∈ before.ids, after.get? id ≠ before.get? id

instance (before after : Table KeyColumns) : Decidable (Alters before after) :=
  inferInstanceAs (Decidable (∃ id ∈ before.ids, after.get? id ≠ before.get? id))

/-- What is committed, what the transaction holds now, and what it held when the nested
transaction began. The rest keeps account: the rows as the line that is worked on found them,
how many lines before it altered a row they found, and how many nested transactions failed
when they were left. -/
structure Ledger where
  committed : Table KeyColumns
  working : Table KeyColumns
  savepoint : Table KeyColumns
  lineStart : Table KeyColumns
  alteredBefore : Nat := 0
  failedExits : Nat := 0

namespace Ledger

def opened (keys : Table KeyColumns) : Ledger :=
  { committed := keys, working := keys, savepoint := keys, lineStart := keys }

/-- The lines so far that altered a row they found. -/
def altered (ledger : Ledger) : Nat :=
  ledger.alteredBefore + if Alters ledger.lineStart ledger.working then 1 else 0

/-- The work on a line begins with its insertion. -/
def startLine (ledger : Ledger) : Ledger :=
  { ledger with
    savepoint := ledger.working, lineStart := ledger.working, alteredBefore := ledger.altered }

/-- A nested transaction that fails when it is left. -/
def failExit (ledger : Ledger) : Ledger :=
  { ledger with working := ledger.savepoint, failedExits := ledger.failedExits + 1 }

/-- An insertion, with the unique index on the hash. -/
def inserts (ledger : Ledger) (row : KeyColumns) : Inserted → Ledger → Prop
  | .added id, last => ¬HoldsHash ledger.working row.apiKeyHash ∧
    ∃ keys, ledger.working.insert? id row = some keys ∧ last = { ledger.startLine with working := keys }
  | _, last => last = ledger.startLine

/-- A lookup by hash in a nested transaction. -/
def finds (ledger : Ledger) (hash : String) : Except String (Option (Nat × KeyColumns)) → Ledger → Prop
  | .error _, last => last = ledger
  | .ok none, last => ¬HoldsHash ledger.working hash ∧ last = { ledger with savepoint := ledger.working }
  | .ok (some (id, row)), last => ledger.working.get? id = some row ∧ row.apiKeyHash = hash ∧
    last = { ledger with savepoint := ledger.working }

/-- The nested transaction is left without changes. -/
def closes (ledger : Ledger) : Closed → Ledger → Prop
  | .released, last => last = ledger
  | .raised _ _, last => last = ledger.failExit

/-- The nested transaction is left with changes to a row. -/
def flushes (ledger : Ledger) (key : KeyObject) : Option String → Ledger → Prop
  | none, last => key.id ∈ ledger.working.ids ∧
    last = { ledger with working := Store.flushKey ledger.working key }
  | some _, last => last = ledger.failExit

def commits (ledger : Ledger) : Bool → Ledger → Prop
  | true, last => last = { ledger with committed := ledger.working }
  | false, last => last = { ledger with working := ledger.committed }

/-- The database may answer so, and stands in the last state afterwards. -/
def moves (ledger : Ledger) : Event (Question R) (Answer R) → Ledger → Prop
  | ⟨.inr (.insertKey row), reply⟩, last => ledger.inserts row reply last
  | ⟨.inr (.findHash hash), reply⟩, last => ledger.finds hash reply last
  | ⟨.inr .closeNested, reply⟩, last => ledger.closes reply last
  | ⟨.inr (.flushKey key), reply⟩, last => ledger.flushes key reply last
  | ⟨.inr (.commitImport _ _), reply⟩, last => ledger.commits reply last
  | _, last => last = ledger

/-- Every question is allowed. -/
def bookkeeping : Monitor Ledger (Question R) (Answer R) where
  demands _ _ := True
  moves := moves

end Ledger

/-- What an import may make of a row: account fields that are empty get filled. -/
structure Completes (before after : KeyColumns) : Prop where
  others : after = { before with
    accountUsername := after.accountUsername
    accountPasswordCiphertext := after.accountPasswordCiphertext
    accountVerifiedAt := after.accountVerifiedAt }
  username : before.accountUsername.any (· ≠ "") → after.accountUsername = before.accountUsername
  password : before.accountPasswordCiphertext.isSome →
    after.accountPasswordCiphertext = before.accountPasswordCiphertext
  verified : before.accountVerifiedAt.isSome → after.accountVerifiedAt = before.accountVerifiedAt

theorem Completes.refl (row : KeyColumns) : Completes row row :=
  ⟨rfl, fun _ => rfl, fun _ => rfl, fun _ => rfl⟩

theorem Completes.trans {before middle after : KeyColumns} (first : Completes before middle)
    (second : Completes middle after) : Completes before after := by
  constructor
  · rw [second.others, first.others]
  · intro some
    have kept := first.username some
    rw [← kept] at some
    exact (second.username some).trans kept
  · intro some
    have kept := first.password some
    rw [← kept] at some
    exact (second.password some).trans kept
  · intro some
    have kept := first.verified some
    rw [← kept] at some
    exact (second.verified some).trans kept

theorem fillAccount_username (row columns : KeyColumns) :
    (fillAccount row columns).accountUsername = columns.accountUsername ∨
      (row.accountUsername.any (· ≠ "") = true ∧ columns.accountUsername.any (· ≠ "") = false ∧
        (fillAccount row columns).accountUsername = row.accountUsername) := by
  unfold fillAccount
  split
  · next filled =>
    simp only [Bool.and_eq_true, Bool.not_eq_true'] at filled
    exact .inr ⟨filled.1, filled.2, rfl⟩
  · exact .inl rfl

theorem completes_fillAccount (row columns : KeyColumns) :
    Completes columns (fillAccount row columns) := by
  constructor
  · rfl
  · intro some
    obtain same | ⟨-, none, -⟩ := fillAccount_username row columns
    · exact same
    · cases some.symm.trans none
  · intro some
    obtain ⟨value, same⟩ := Option.isSome_iff_exists.mp some
    simp [fillAccount, same]
  · intro some
    obtain ⟨value, same⟩ := Option.isSome_iff_exists.mp some
    simp [fillAccount, same]

@[simp] theorem written_self [DecidableEq α] (loaded current : α) :
    written loaded current current = current := ite_self _

/-- A column takes its new value, if that is the row's or not the one that was loaded. -/
theorem written_new [DecidableEq α] {loaded current next : α}
    (changed : next = current ∨ loaded ≠ next) : written loaded next current = next := by
  rcases changed with rfl | changed
  · exact written_self loaded next
  · exact if_neg (Ne.symm changed)

/-- A column that is filled where it is empty takes what it is filled with. -/
theorem written_or [DecidableEq α] {loaded stored given : Option α}
    (kept : loaded.isSome → stored = loaded) :
    written loaded (stored.or given) stored = stored.or given := by
  apply written_new
  cases stored with
  | some value => exact .inl rfl
  | none =>
    cases loaded with
    | some value => cases kept rfl
    | none =>
      cases given with
      | none => exact .inl rfl
      | some value => exact .inr nofun

/-- A row object that was only completed writes what it holds onto the row it was read from. -/
theorem flush_completed {id : Nat} {loaded stored : KeyColumns} (row : KeyColumns)
    (completed : Completes loaded stored) :
    KeyObject.flush ⟨id, loaded, fillAccount row stored⟩ stored = fillAccount row stored := by
  have username : written loaded.accountUsername (fillAccount row stored).accountUsername
      stored.accountUsername = (fillAccount row stored).accountUsername := by
    apply written_new
    obtain same | ⟨given, empty, filled⟩ := fillAccount_username row stored
    · exact .inl same
    · right
      intro same
      rw [filled] at same
      rw [← same] at given
      rw [completed.username given, given] at empty
      cases empty
  unfold KeyObject.flush
  simp only [username]
  simp only [fillAccount, written_self, written_or completed.password,
    written_or completed.verified]

variable {keys after : Table KeyColumns} {session : ImportSession} {key : KeyObject} {id : Nat}
  {row stored : KeyColumns} {hash : String}

/-- The row objects of a session hold what the transaction's rows hold, and none of a new row
is among the changed ones. -/
structure Mirrored (session : ImportSession) (keys : Table KeyColumns) : Prop where
  rows : ∀ key ∈ session.inserted ++ session.changed,
    keys.get? key.id = some key.current ∧ Completes key.loaded key.current
  apart : ∀ key ∈ session.inserted, ∀ other ∈ session.changed, key.id ≠ other.id

theorem mirrored_empty (keys : Table KeyColumns) (failures : List ParseFailure) :
    Mirrored { failures } keys where
  rows _ member := absurd member List.not_mem_nil
  apart _ member := absurd member List.not_mem_nil

/-- The session's object of a row that a query found. -/
theorem Mirrored.object (mirrored : Mirrored session keys) (found : keys.get? id = some stored) :
    ∃ loaded, session.object id stored = ⟨id, loaded, stored⟩ ∧ Completes loaded stored := by
  unfold ImportSession.object
  cases held : (session.inserted ++ session.changed).find? (·.id = id) with
  | none => exact ⟨stored, rfl, Completes.refl stored⟩
  | some key =>
    obtain ⟨present, completed⟩ := mirrored.rows key (List.mem_of_find?_eq_some held)
    have same : key.id = id := by simpa using List.find?_some held
    rw [same, found] at present
    obtain ⟨keyId, loaded, current⟩ := key
    cases same
    cases present
    exact ⟨loaded, rfl, completed⟩

/-- A row that is inserted joins the session. -/
theorem Mirrored.insert (mirrored : Mirrored session keys)
    (added : keys.insert? id row = some after) :
    Mirrored { session with
      inserted := session.inserted ++ [KeyObject.fresh id row], created := created } after := by
  have above := (Table.insert_some added).1
  have older : ∀ key ∈ session.inserted ++ session.changed, key.id ≠ id := by
    intro key member same
    have present := (Table.get_some.mp (mirrored.rows key member).1).1
    rw [same] at present
    exact absurd (above id present) (Nat.lt_irrefl id)
  constructor
  · intro key member
    simp only [List.mem_append, List.mem_singleton] at member
    rcases member with (old | rfl) | old
    · rw [Table.get_insert added, if_neg (older key (List.mem_append_left _ old))]
      exact mirrored.rows key (List.mem_append_left _ old)
    · rw [Table.get_insert added]
      exact ⟨if_pos rfl, Completes.refl row⟩
    · rw [Table.get_insert added, if_neg (older key (List.mem_append_right _ old))]
      exact mirrored.rows key (List.mem_append_right _ old)
  · intro key member other changed
    rcases List.mem_append.mp member with old | new
    · exact mirrored.apart key old other changed
    · rw [List.mem_singleton.mp new]
      exact (older other (List.mem_append_right _ changed)).symm

/-- The completed object of a row that is written takes its place in the session. -/
theorem Mirrored.flush (mirrored : Mirrored session keys) (found : keys.get? id = some stored)
    (completed : Completes loaded stored) :
    Mirrored (session.keep ⟨id, loaded, fillAccount row stored⟩)
      (Store.flushKey keys ⟨id, loaded, fillAccount row stored⟩) := by
  have own : (Store.flushKey keys ⟨id, loaded, fillAccount row stored⟩).get? id =
      some (fillAccount row stored) := by
    rw [Store.get_flushKey_self keys ⟨id, loaded, fillAccount row stored⟩, found, Option.map_some,
      flush_completed row completed]
  have filled : Completes loaded (fillAccount row stored) :=
    completed.trans (completes_fillAccount row stored)
  have others : ∀ key ∈ session.inserted ++ session.changed, key.id ≠ id →
      (Store.flushKey keys ⟨id, loaded, fillAccount row stored⟩).get? key.id = some key.current ∧
        Completes key.loaded key.current := by
    intro key member different
    rw [Store.get_flushKey_other different]
    exact mirrored.rows key member
  unfold ImportSession.keep
  split
  · next new =>
    obtain ⟨insertedKey, inside, same⟩ := List.any_eq_true.mp new
    have sameId : insertedKey.id = id := by simpa using same
    constructor
    · intro key member
      rcases List.mem_append.mp member with new | changed
      · obtain ⟨old, listed, rfl⟩ := List.mem_map.mp new
        split
        · exact ⟨own, filled⟩
        · next different => exact others old (List.mem_append_left _ listed) different
      · refine others key (List.mem_append_right _ changed) ?_
        rw [← sameId]
        exact (mirrored.apart insertedKey inside key changed).symm
    · intro key member other changed
      obtain ⟨old, listed, rfl⟩ := List.mem_map.mp member
      split
      · rw [← sameId]
        exact mirrored.apart insertedKey inside other changed
      · exact mirrored.apart old listed other changed
  · next old =>
    have newOnly : ∀ key ∈ session.inserted, key.id ≠ id := by
      intro key member same
      exact old (List.any_eq_true.mpr ⟨key, member, by simpa using same⟩)
    constructor
    · intro key member
      simp only [List.mem_append, List.mem_filter, List.mem_singleton] at member
      rcases member with new | ⟨changed, different⟩ | rfl
      · exact others key (List.mem_append_left _ new) (newOnly key new)
      · exact others key (List.mem_append_right _ changed) (by simpa using different)
      · exact ⟨own, filled⟩
    · intro key member other changed
      simp only [List.mem_append, List.mem_filter, List.mem_singleton] at changed
      rcases changed with ⟨changed, -⟩ | rfl
      · exact mirrored.apart key member other changed
      · exact newOnly key member

/-- Every row that was there is there afterwards, completed at most. -/
def Preserves (before after : Table KeyColumns) : Prop :=
  ∀ id row, before.get? id = some row → ∃ kept, after.get? id = some kept ∧ Completes row kept

theorem Preserves.refl (keys : Table KeyColumns) : Preserves keys keys :=
  fun _ row found => ⟨row, found, Completes.refl row⟩

theorem Preserves.trans {before middle after : Table KeyColumns} (first : Preserves before middle)
    (second : Preserves middle after) : Preserves before after := by
  intro id row found
  obtain ⟨kept, found, completed⟩ := first id row found
  obtain ⟨last, found, again⟩ := second id kept found
  exact ⟨last, found, completed.trans again⟩

theorem preserves_insert (added : keys.insert? id row = some after) : Preserves keys after := by
  intro other columns found
  have above := (Table.insert_some added).1
  have older : other ≠ id := by
    rintro rfl
    exact absurd (above other (Table.get_some.mp found).1) (Nat.lt_irrefl other)
  refine ⟨columns, ?_, Completes.refl columns⟩
  rw [Table.get_insert added, if_neg older, found]

theorem preserves_flush (found : keys.get? id = some stored) (completed : Completes loaded stored)
    (row : KeyColumns) :
    Preserves keys (Store.flushKey keys ⟨id, loaded, fillAccount row stored⟩) := by
  intro other columns present
  by_cases same : other = id
  · subst same
    cases found.symm.trans present
    refine ⟨fillAccount row stored, ?_, completes_fillAccount row stored⟩
    rw [Store.get_flushKey_self keys ⟨other, loaded, fillAccount row stored⟩, found,
      Option.map_some, flush_completed row completed]
  · exact ⟨columns, by rw [Store.get_flushKey_other same, present], Completes.refl columns⟩

/-- The row that a query by hash finds. -/
def lookup (keys : Table KeyColumns) (hash : String) : Option (Nat × KeyColumns) :=
  keys.entries.find? fun entry => entry.2.apiKeyHash = hash

theorem lookup_some (found : lookup keys hash = some (id, row)) :
    keys.get? id = some row ∧ row.apiKeyHash = hash :=
  ⟨Table.mem_entries.mp (List.mem_of_find?_eq_some found), by simpa using List.find?_some found⟩

theorem lookup_none (missing : lookup keys hash = none) : ¬HoldsHash keys hash := by
  rintro ⟨id, row, found, same⟩
  have different := List.find?_eq_none.mp missing (id, row) (Table.mem_entries.mpr found)
  simp [same] at different

/-- A database whose statements fail only on the unique index, but where every nested
transaction with something to write is left as `closing` says. -/
def Ledger.respond (closing : Closed) (ledger : Ledger) :
    (question : Question R) → Answer R question × Ledger
  | .inl op => ((Store.answer 0 ⟨ledger.working, .empty {}⟩ op).1, ledger)
  | .inr (.insertKey row) =>
    match lookup ledger.working row.apiKeyHash,
      ledger.working.insert? ledger.working.nextId row with
    | none, some keys =>
      (.added ledger.working.nextId, { ledger.startLine with working := keys })
    | _, _ => (.duplicate, ledger.startLine)
  | .inr (.findHash hash) =>
    (.ok (lookup ledger.working hash), { ledger with savepoint := ledger.working })
  | .inr .closeNested => (closing, if closing = .released then ledger else ledger.failExit)
  | .inr (.flushKey key) =>
    if closing = .released ∧ key.id ∈ ledger.working.ids then
      (none, { ledger with working := Store.flushKey ledger.working key })
    else (some "value too long", ledger.failExit)
  | .inr (.commitImport _ _) => (true, { ledger with committed := ledger.working })
  | .inr (.purgeKey _) => (false, ledger)

theorem Ledger.respond_honest (closing : Closed) (ledger : Ledger) (question : Question R) :
    ledger.moves ⟨question, (ledger.respond closing question).1⟩
      (ledger.respond closing question).2 := by
  cases question with
  | inl op => rfl
  | inr op =>
    cases op with
    | insertKey row =>
      obtain ⟨keys, inserted⟩ := Table.insert_nextId ledger.working row
      cases found : lookup ledger.working row.apiKeyHash with
      | none =>
        simp only [respond, found, inserted]
        exact ⟨lookup_none found, keys, inserted, rfl⟩
      | some entry =>
        simp only [respond, found]
        rfl
    | findHash hash =>
      simp only [respond]
      cases found : lookup ledger.working hash with
      | none => exact ⟨lookup_none found, rfl⟩
      | some entry =>
        obtain ⟨present, same⟩ := lookup_some found
        exact ⟨present, same, rfl⟩
    | closeNested => cases closing <;> rfl
    | flushKey key =>
      simp only [respond]
      split
      · next written => exact ⟨written.2, rfl⟩
      · rfl
    | commitImport inserted changed => rfl
    | purgeKey id => rfl

/-- A vault whose hash is the key itself. -/
def readableVault : KeyVault :=
  { hmacSha256Hex := fun _ text => text, encryptApiKey := fun _ nonce _ => nonce
    encryptAccountPassword := fun _ nonce _ => nonce }

def importControl (config : AppConfig ℚ) : ControlPlane ℚ :=
  { setup := { foreign := openCipher, config, runtime := none, masterKey := some [] } }

/-- An import into a table. -/
def importRun (closing : Closed) (config : AppConfig ℚ) (keys : Table KeyColumns) (text : String) :=
  (importKeysText (importControl config) readableVault (fun _ => []) 0
    (request readFebruary text { items := [] })).execute (Ledger.respond closing) (.opened keys)

/-- The session of an import, where it returns. -/
def imported (outcome : Except Exn ImportSession) : ImportSession := outcome.toOption.getD {}

theorem imported_ok (outcome : Except Exn ImportSession)
    (counts : (imported outcome).created ≠ 0) : outcome = .ok (imported outcome) := by
  cases outcome with
  | ok session => rfl
  | error error => exact absurd rfl counts

end FcamGateway.KeyImport
