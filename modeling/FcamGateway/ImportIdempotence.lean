import FcamGateway.ImportLedger

/-! Importing a text again. After an import each of its items has a row that leaves it nothing
to add, and completing rows takes nothing away, so a second import finds every key there and
nothing to fill. -/
namespace FcamGateway.KeyImport
open Prog KeyAdmin

set_option linter.unusedSectionVars false

variable {R : Type} [Field R] [LinearOrder R] [ScoreMath R]

/-- The unique index on the hash. -/
def UniqueHash (keys : Table KeyColumns) : Prop :=
  ∀ id other row columns, keys.get? id = some row → keys.get? other = some columns →
    row.apiKeyHash = columns.apiKeyHash → id = other

/-- No statement fails, except an insertion on the unique index and the update of a row that
is not there. -/
def Lawful (ledger : Ledger) : Event (Question R) (Answer R) → Prop
  | ⟨.inr (.insertKey row), reply⟩ =>
    (∃ id, reply = Inserted.added id) ∨
      (reply = Inserted.duplicate ∧ HoldsHash ledger.working row.apiKeyHash)
  | ⟨.inr (.findHash _), reply⟩ => ∃ found, reply = Except.ok (ε := String) found
  | ⟨.inr .closeNested, reply⟩ => reply = Closed.released
  | ⟨.inr (.flushKey key), reply⟩ =>
    reply = (none : Option String) ∨ key.id ∉ ledger.working.ids
  | ⟨.inr (.commitImport _ _), reply⟩ => reply = true
  | _ => True

/-- The moves of a database where only the unique index makes a statement fail. -/
def lawfulMoves (ledger : Ledger) (event : Event (Question R) (Answer R)) (last : Ledger) : Prop :=
  ledger.moves event last ∧ Lawful ledger event

def lawful : Monitor Ledger (Question R) (Answer R) where
  demands _ _ := True
  moves := lawfulMoves

/-- The row leaves the item nothing to add. -/
structure Absorbs (stored : KeyColumns) (item : ParsedKeyLine) : Prop where
  username : item.accountUsername.any (· ≠ "") → stored.accountUsername.any (· ≠ "")
  password : item.accountPassword.isSome → stored.accountPasswordCiphertext.isSome
  verified : item.accountVerifiedAt.isSome → stored.accountVerifiedAt.isSome

/-- The key of the item has a row that leaves it nothing to add. -/
def Absorbed (vault : KeyVault) (masterKey : Bytes) (keys : Table KeyColumns)
    (item : ParsedKeyLine) : Prop :=
  ∃ id stored, keys.get? id = some stored ∧
    stored.apiKeyHash = vault.hmacSha256Hex masterKey item.apiKey ∧ Absorbs stored item

section
variable {vault : KeyVault} {masterKey : Bytes} {nonce : Nat → Bytes} {today : Int}
  {payload : ImportKeysTextRequest} {keys before after : Table KeyColumns} {item : ParsedKeyLine}
  {stored kept : KeyColumns} {id : Nat} {session : ImportSession} {ledger : Ledger}

theorem Completes.apiKeyHash (completed : Completes stored kept) :
    kept.apiKeyHash = stored.apiKeyHash := by
  rw [completed.others]

theorem Absorbs.completed (absorbs : Absorbs stored item) (completed : Completes stored kept) :
    Absorbs kept item := by
  constructor
  · intro given
    rw [completed.username (absorbs.username given)]
    exact absorbs.username given
  · intro given
    rw [completed.password (absorbs.password given)]
    exact absorbs.password given
  · intro given
    rw [completed.verified (absorbs.verified given)]
    exact absorbs.verified given

/-- Completing rows takes nothing away that an item added. -/
theorem Absorbed.preserved (absorbed : Absorbed vault masterKey before item)
    (preserved : Preserves before after) : Absorbed vault masterKey after item := by
  obtain ⟨id, stored, found, same, absorbs⟩ := absorbed
  obtain ⟨kept, present, completed⟩ := preserved id stored found
  exact ⟨id, kept, present, completed.apiKeyHash.trans same, absorbs.completed completed⟩

/-- The row of an item leaves it nothing to add. -/
theorem absorbs_importedRow : Absorbs (importedRow vault masterKey nonce today payload item) item := by
  constructor
  · exact id
  · intro given
    obtain ⟨password, same⟩ := Option.isSome_iff_exists.mp given
    simp [importedRow, same]
  · exact id

/-- A row that an item completed leaves it nothing to add. -/
theorem absorbs_fillAccount :
    Absorbs (fillAccount (importedRow vault masterKey nonce today payload item) stored) item := by
  constructor
  · intro given
    by_cases held : stored.accountUsername.any (· ≠ "")
    · rw [(completes_fillAccount _ stored).username held]
      exact held
    · have empty : stored.accountUsername.any (· ≠ "") = false := by simpa using held
      simp only [fillAccount, importedRow, given, empty, Bool.not_false, Bool.and_self, ↓reduceIte]
  · intro given
    obtain ⟨password, same⟩ := Option.isSome_iff_exists.mp given
    simp [fillAccount, importedRow, same]
  · intro given
    simp [fillAccount, importedRow, given]

/-- An item that a row absorbs changes nothing in it, whatever nonces encrypt it. -/
theorem fillAccount_absorbed (absorbs : Absorbs stored item) :
    fillAccount (importedRow vault masterKey nonce today payload item) stored = stored := by
  have username : (fillAccount (importedRow vault masterKey nonce today payload item)
      stored).accountUsername = stored.accountUsername := by
    obtain same | ⟨given, empty, -⟩ := fillAccount_username
      (importedRow vault masterKey nonce today payload item) stored
    · exact same
    · rw [absorbs.username given] at empty
      cases empty
  have password : stored.accountPasswordCiphertext.or
      (importedRow vault masterKey nonce today payload item).accountPasswordCiphertext =
        stored.accountPasswordCiphertext := by
    cases given : item.accountPassword with
    | none => simp [importedRow, given]
    | some password =>
      obtain ⟨value, held⟩ := Option.isSome_iff_exists.mp (absorbs.password (by rw [given]; rfl))
      rw [held]
      rfl
  have verified : stored.accountVerifiedAt.or
      (importedRow vault masterKey nonce today payload item).accountVerifiedAt =
        stored.accountVerifiedAt := by
    cases given : item.accountVerifiedAt with
    | none => simp [importedRow, given]
    | some instant =>
      obtain ⟨value, held⟩ := Option.isSome_iff_exists.mp (absorbs.verified (by rw [given]; rfl))
      rw [held]
      rfl
  have columns : fillAccount (importedRow vault masterKey nonce today payload item) stored =
      { stored with
        accountUsername := (fillAccount (importedRow vault masterKey nonce today payload item)
          stored).accountUsername
        accountPasswordCiphertext := stored.accountPasswordCiphertext.or
          (importedRow vault masterKey nonce today payload item).accountPasswordCiphertext
        accountVerifiedAt := stored.accountVerifiedAt.or
          (importedRow vault masterKey nonce today payload item).accountVerifiedAt } := rfl
  rw [columns, username, password, verified]

theorem UniqueHash.insert {row : KeyColumns} (unique : UniqueHash keys)
    (added : keys.insert? id row = some after) (new : ¬HoldsHash keys row.apiKeyHash) :
    UniqueHash after := by
  intro first second one other found present same
  rw [Table.get_insert added] at found present
  split at found
  · next isNew =>
    split at present
    · next isNewToo => rw [isNew, isNewToo]
    · cases found
      exact absurd ⟨second, other, present, same.symm⟩ new
  · split at present
    · cases present
      exact absurd ⟨first, one, found, same⟩ new
    · exact unique first second one other found present same

theorem UniqueHash.flush {loaded row : KeyColumns} (unique : UniqueHash keys)
    (found : keys.get? id = some stored) (completed : Completes loaded stored) :
    UniqueHash (Store.flushKey keys ⟨id, loaded, fillAccount row stored⟩) := by
  -- every row keeps its hash
  have kept : ∀ other columns,
      (Store.flushKey keys ⟨id, loaded, fillAccount row stored⟩).get? other = some columns →
      ∃ before, keys.get? other = some before ∧ before.apiKeyHash = columns.apiKeyHash := by
    intro other columns present
    by_cases same : other = id
    · subst same
      rw [Store.get_flushKey_self keys ⟨other, loaded, fillAccount row stored⟩, found,
        Option.map_some, flush_completed row completed] at present
      cases present
      exact ⟨stored, found, (completes_fillAccount row stored).apiKeyHash.symm⟩
    · rw [Store.get_flushKey_other same] at present
      exact ⟨columns, present, rfl⟩
  intro first second one other present again same
  obtain ⟨old, before, sameHash⟩ := kept first one present
  obtain ⟨older, earlier, sameToo⟩ := kept second other again
  exact unique first second old older before earlier (by rw [sameHash, same, sameToo])

/-- Where a first import stands after some items. -/
structure Importing (vault : KeyVault) (masterKey : Bytes) (keys : Table KeyColumns)
    (done : List ParsedKeyLine) (session : ImportSession) (working : Table KeyColumns) : Prop where
  preserved : Preserves keys working
  unique : UniqueHash working
  mirrored : Mirrored session working
  absorbed : ∀ item ∈ done, Absorbed vault masterKey working item

theorem Importing.more {working : Table KeyColumns} {done : List ParsedKeyLine}
    {later : ImportSession} (importing : Importing vault masterKey keys done session working)
    (preserved : Preserves working after) (unique : UniqueHash after)
    (mirrored : Mirrored later after) (absorbed : Absorbed vault masterKey after item) :
    Importing vault masterKey keys (done ++ [item]) later after where
  preserved := importing.preserved.trans preserved
  unique := unique
  mirrored := mirrored
  absorbed := by
    intro other member
    rcases List.mem_append.mp member with old | new
    · exact (importing.absorbed other old).preserved preserved
    · rw [List.mem_singleton.mp new]
      exact absorbed

/-- What a first import comes to. -/
def Imported (vault : KeyVault) (masterKey : Bytes) (keys : Table KeyColumns)
    (done : List ParsedKeyLine) (committed : Table KeyColumns) :
    Except Exn ImportSession → Ledger → Prop :=
  fun outcome last => last.committed = committed ∧
    ∃ session, outcome = .ok session ∧ Importing vault masterKey keys done session last.working

theorem wp_mergeItem_first {done : List ParsedKeyLine}
    (importing : Importing vault masterKey keys done session ledger.working)
    (held : HoldsHash ledger.working (vault.hmacSha256Hex masterKey item.apiKey)) :
    (mergeItem (R := R) session item (importedRow vault masterKey nonce today payload item)).wp
      lawful (Imported vault masterKey keys (done ++ [item]) ledger.committed) ledger := by
  refine ⟨trivial, fun reply last step => ?_⟩
  obtain ⟨moved, law⟩ := step
  obtain ⟨_ | ⟨id, stored⟩, rfl⟩ := law
  · exact absurd held moved.1
  · obtain ⟨found, sameHash, rfl⟩ := moved
    obtain ⟨loaded, object, completed⟩ := importing.mirrored.object found
    have absorbs : Absorbs (fillAccount (importedRow vault masterKey nonce today payload item) stored)
        item := absorbs_fillAccount
    simp only [Prog.bind]
    generalize session.object id stored = existing at object ⊢
    split
    · next unchanged =>
      subst object
      rw [show fillAccount _ stored = stored from unchanged] at absorbs
      refine ⟨trivial, fun reply last step => ?_⟩
      obtain ⟨moved, law⟩ := step
      cases law
      cases moved
      refine ⟨rfl, _, rfl, importing.more (Preserves.refl _) importing.unique ?_
        ⟨id, stored, found, sameHash, absorbs⟩⟩
      exact ⟨importing.mirrored.rows, importing.mirrored.apart⟩
    · subst object
      refine ⟨trivial, fun reply last step => ?_⟩
      obtain ⟨moved, law⟩ := step
      obtain rfl | missing := law
      swap
      · exact absurd (Table.get_some.mp found).1 missing
      obtain ⟨-, rfl⟩ := moved
      have mirrored : Mirrored { session with updated := session.updated + 1 } ledger.working :=
        ⟨importing.mirrored.rows, importing.mirrored.apart⟩
      refine ⟨rfl, _, rfl, importing.more (preserves_flush found completed _)
        (importing.unique.flush found completed) (mirrored.flush found completed)
        ⟨id, _, ?_, ?_, absorbs⟩⟩
      · exact (Store.get_flushKey_self ledger.working ⟨id, loaded, fillAccount _ stored⟩).trans
          (by rw [found, Option.map_some, flush_completed _ completed])
      · rw [(completes_fillAccount _ stored).apiKeyHash, sameHash]
        rfl

theorem wp_importItem_first {done : List ParsedKeyLine}
    (importing : Importing vault masterKey keys done session ledger.working) :
    (importItem (R := R) session item (importedRow vault masterKey nonce today payload item)).wp
      lawful (Imported vault masterKey keys (done ++ [item]) ledger.committed) ledger := by
  refine ⟨trivial, fun reply last step => ?_⟩
  obtain ⟨moved, law⟩ := step
  rcases law with ⟨id, rfl⟩ | ⟨rfl, held⟩
  · obtain ⟨new, after, added, rfl⟩ := moved
    refine ⟨trivial, fun reply last step => ?_⟩
    obtain ⟨moved, law⟩ := step
    cases law
    cases moved
    refine ⟨rfl, _, rfl, importing.more (preserves_insert added) (importing.unique.insert added new)
      (importing.mirrored.insert added)
      ⟨id, importedRow vault masterKey nonce today payload item, ?_, rfl, absorbs_importedRow⟩⟩
    exact (Table.get_insert added id).trans (if_pos rfl)
  · cases moved
    have begun : Importing vault masterKey keys done session ledger.startLine.working := importing
    exact wp_mergeItem_first begun held

theorem wp_importItems_first (items : List ParsedKeyLine) {done : List ParsedKeyLine}
    (importing : Importing vault masterKey keys done session ledger.working) :
    (importItems (R := R) vault masterKey nonce today payload session items).wp lawful
      (Imported vault masterKey keys (done ++ items) ledger.committed) ledger := by
  induction items generalizing done session ledger with
  | nil =>
    rw [List.append_nil]
    exact ⟨rfl, session, rfl, importing⟩
  | cons item rest ih =>
    apply (wp_bind _).mpr
    apply wp_mono _ (wp_importItem_first importing)
    rintro outcome last ⟨kept, after, rfl, further⟩
    have others := ih further
    rw [List.append_assoc, kept] at others
    exact others

/-- A session that an import has added nothing to. -/
structure Untouched (session : ImportSession) : Prop where
  inserted : session.inserted = []
  changed : session.changed = []
  created : session.created = 0
  updated : session.updated = 0

/-- What a second import comes to: nothing. -/
def Repeated (keys committed : Table KeyColumns) : Except Exn ImportSession → Ledger → Prop :=
  fun outcome last => last.working = keys ∧ last.committed = committed ∧
    ∃ session, outcome = .ok session ∧ Untouched session

theorem wp_importItem_second (untouched : Untouched session) (unique : UniqueHash ledger.working)
    (absorbed : Absorbed vault masterKey ledger.working item) :
    (importItem (R := R) session item (importedRow vault masterKey nonce today payload item)).wp
      lawful (Repeated ledger.working ledger.committed) ledger := by
  obtain ⟨owner, row, present, sameHash, absorbs⟩ := absorbed
  refine ⟨trivial, fun reply last step => ?_⟩
  obtain ⟨moved, law⟩ := step
  rcases law with ⟨id, rfl⟩ | ⟨rfl, held⟩
  · exact absurd ⟨owner, row, present, sameHash⟩ moved.1
  · cases moved
    refine ⟨trivial, fun reply last step => ?_⟩
    obtain ⟨moved, law⟩ := step
    obtain ⟨_ | ⟨id, stored⟩, rfl⟩ := law
    · exact absurd held moved.1
    · obtain ⟨found, hash, rfl⟩ := moved
      obtain rfl := unique owner id row stored present found (sameHash.trans hash.symm)
      cases present.symm.trans found
      have object : session.object owner row = KeyObject.fresh owner row := by
        simp [ImportSession.object, untouched.inserted, untouched.changed]
      simp only [Prog.bind]
      rw [object]
      split
      · refine ⟨trivial, fun reply last step => ?_⟩
        obtain ⟨moved, law⟩ := step
        cases law
        cases moved
        exact ⟨rfl, rfl, _, rfl, untouched.inserted, untouched.changed, untouched.created,
          untouched.updated⟩
      · next changes => exact absurd (fillAccount_absorbed absorbs) changes

theorem wp_importItems_second (items : List ParsedKeyLine) (untouched : Untouched session)
    (unique : UniqueHash ledger.working)
    (absorbed : ∀ item ∈ items, Absorbed vault masterKey ledger.working item) :
    (importItems (R := R) vault masterKey nonce today payload session items).wp lawful
      (Repeated ledger.working ledger.committed) ledger := by
  induction items generalizing session ledger with
  | nil => exact ⟨rfl, rfl, session, rfl, untouched⟩
  | cons item rest ih =>
    apply (wp_bind _).mpr
    apply wp_mono _ (wp_importItem_second untouched unique (absorbed item List.mem_cons_self))
    rintro outcome last ⟨working, committed, after, rfl, still⟩
    rw [← working, ← committed]
    apply ih still
    · rw [working]
      exact unique
    · rw [working]
      exact fun other member => absorbed other (List.mem_cons_of_mem _ member)

end

/-- The request gets past the checks that come before its first row. -/
def Admitted (control : ControlPlane R) (payload : ImportKeysTextRequest) (masterKey : Bytes) :
    Prop :=
  control.setup.masterKey = some masterKey ∧
    ¬(payload.provider ≠ "firecrawl" ∧ payload.provider ≠ "exa") ∧
    ¬(payload.items = [] ∧ payload.parseFailures ≠ [])

theorem wp_importKeysText_first (control : ControlPlane R) (vault : KeyVault) (nonce : Nat → Bytes)
    (today : Int) (payload : ImportKeysTextRequest) {keys : Table KeyColumns}
    (unique : UniqueHash keys) :
    (importKeysText control vault nonce today payload).wp lawful
      (fun outcome last => Preserves keys last.committed ∧ ∀ session, outcome = .ok session →
        ∃ masterKey, Admitted control payload masterKey ∧ UniqueHash last.committed ∧
          ∀ item ∈ payload.items, Absorbed vault masterKey last.committed item)
      (.opened keys) := by
  unfold importKeysText
  split
  · exact ⟨Preserves.refl keys, nofun⟩
  · next masterKey known =>
    split
    · exact ⟨Preserves.refl keys, nofun⟩
    · next valid =>
      split
      · exact ⟨Preserves.refl keys, nofun⟩
      · next some =>
        have begun : Importing vault masterKey keys [] { failures := payload.parseFailures }
            (Ledger.opened keys).working :=
          ⟨Preserves.refl keys, unique, mirrored_empty keys _,
            fun _ member => absurd member List.not_mem_nil⟩
        apply (wp_bind _).mpr
        apply wp_mono _ (wp_importItems_first payload.items begun)
        rintro outcome ledger ⟨-, session, rfl, importing⟩
        refine ⟨trivial, fun reply last step => ?_⟩
        obtain ⟨moved, law⟩ := step
        cases law
        cases moved
        exact ⟨importing.preserved, fun _ _ => ⟨masterKey, ⟨known, valid, some⟩,
          importing.unique, importing.absorbed⟩⟩

theorem wp_importKeysText_second (control : ControlPlane R) (vault : KeyVault)
    (nonce : Nat → Bytes) (today : Int) (payload : ImportKeysTextRequest) {keys : Table KeyColumns}
    (unique : UniqueHash keys) (admitted : Admitted control payload masterKey)
    (absorbed : ∀ item ∈ payload.items, Absorbed vault masterKey keys item) :
    (importKeysText control vault nonce today payload).wp lawful
      (fun outcome last => last.committed = keys ∧
        ∃ session, outcome = .ok session ∧ session.created = 0 ∧ session.updated = 0)
      (.opened keys) := by
  obtain ⟨known, valid, some⟩ := admitted
  unfold importKeysText
  simp only [known, if_neg valid, if_neg some]
  have untouched : Untouched { failures := payload.parseFailures } := ⟨rfl, rfl, rfl, rfl⟩
  have begun : ∀ item ∈ payload.items, Absorbed vault masterKey (Ledger.opened keys).working item :=
    absorbed
  apply (wp_bind _).mpr
  apply wp_mono _ (wp_importItems_second payload.items untouched unique begun)
  rintro outcome ledger ⟨working, -, session, rfl, still⟩
  refine ⟨trivial, fun reply last step => ?_⟩
  obtain ⟨moved, law⟩ := step
  cases law
  cases moved
  exact ⟨working, session, rfl, still.created, still.updated⟩

/-- Where statements fail only on the unique hash, an import completes at most the rows that
were there, and importing the same text again changes nothing. -/
theorem import_twice (control : ControlPlane R) (vault : KeyVault)
    (fromIsoFormat : String → Except String ReadDatetime) (text : String)
    (payload : ImportKeysTextRequest) (keys : Table KeyColumns) (unique : UniqueHash keys)
    (nonce again : Nat → Bytes) (today later : Int)
    (events : List (Event (Question R) (Answer R))) (outcome : Except Exn ImportSession)
    (middle : Ledger)
    (ran : Ran (importKeysText control vault nonce today (request fromIsoFormat text payload))
      events outcome)
    (followed : Follows lawfulMoves (.opened keys) events middle) :
    Preserves keys middle.committed ∧ ∀ session, outcome = .ok session →
      ∀ (repetition : List (Event (Question R) (Answer R))) (second : Except Exn ImportSession)
        (last : Ledger),
        Ran (importKeysText control vault again later (request fromIsoFormat text payload))
          repetition second →
        Follows lawfulMoves (.opened middle.committed) repetition last →
        last.committed = middle.committed ∧
          ∃ repeated, second = .ok repeated ∧ repeated.created = 0 ∧ repeated.updated = 0 := by
  obtain ⟨preserved, returned⟩ := wp_ran ran followed
    (wp_importKeysText_first control vault nonce today (request fromIsoFormat text payload) unique)
  refine ⟨preserved, fun session ended repetition second last reran followedAgain => ?_⟩
  obtain ⟨masterKey, admitted, kept, absorbed⟩ := returned session ended
  exact wp_ran reran followedAgain (wp_importKeysText_second control vault again later
    (request fromIsoFormat text payload) kept admitted absorbed)

theorem respond_lawful (ledger : Ledger) (question : Question R) :
    lawfulMoves ledger ⟨question, (ledger.respond .released question).1⟩
      (ledger.respond .released question).2 := by
  refine ⟨Ledger.respond_honest .released ledger question, ?_⟩
  cases question with
  | inl op => trivial
  | inr op =>
    cases op with
    | insertKey row =>
      obtain ⟨keys, inserted⟩ := Table.insert_nextId ledger.working row
      cases found : lookup ledger.working row.apiKeyHash with
      | none =>
        simp only [Ledger.respond, found, inserted]
        exact .inl ⟨_, rfl⟩
      | some entry =>
        simp only [Ledger.respond, found]
        obtain ⟨present, same⟩ := lookup_some found
        exact .inr ⟨rfl, entry.1, entry.2, present, same⟩
    | findHash hash => exact ⟨_, rfl⟩
    | closeNested => rfl
    | flushKey key =>
      simp only [Ledger.respond]
      split
      · exact .inl rfl
      · next missing => exact .inr fun present => missing ⟨trivial, present⟩
    | commitImport inserted changed => rfl
    | purgeKey id => trivial

def onlyKey : Table KeyColumns :=
  Table.single 1 { apiKeyHash := "fc-12345678", status := "cooling" }

theorem onlyKey_unique : UniqueHash onlyKey := by
  intro first second one other found present _
  rw [List.mem_singleton.mp (Table.get_some.mp found).1,
    List.mem_singleton.mp (Table.get_some.mp present).1]

/-- A row without a user name gets one and a new key gets a row; both are left alone when the
text comes again. -/
theorem two_keys_imported_twice :
    (importRun .released {} onlyKey "alice|fc-12345678\nfc-87654321").2.2.committed.ids = [1, 2] ∧
    (importRun .released {} (importRun .released {} onlyKey
        "alice|fc-12345678\nfc-87654321").2.2.committed
        "alice|fc-12345678\nfc-87654321").2.2.committed =
      (importRun .released {} onlyKey "alice|fc-12345678\nfc-87654321").2.2.committed :=
  ⟨by decide +kernel,
    ((import_twice (importControl {}) readableVault readFebruary
      "alice|fc-12345678\nfc-87654321" { items := [] } onlyKey onlyKey_unique (fun _ => [])
      (fun _ => []) 0 0 _ _ _ (execute_ran _ _ _) (execute_follows respond_lawful _ _)).2 _
      (imported_ok (importRun .released {} onlyKey "alice|fc-12345678\nfc-87654321").2.1
        (by decide +kernel)) _ _ _ (execute_ran _ _ _) (execute_follows respond_lawful _ _)).1⟩

end FcamGateway.KeyImport
