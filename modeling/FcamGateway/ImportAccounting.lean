import FcamGateway.ImportLedger

/-! What an import counts. A line is counted when its work is done inside its nested
transaction, and once more when that transaction fails as it is left. So the counts come out
exactly if no nested transaction fails there. -/
namespace FcamGateway.KeyImport
open Prog KeyAdmin PyText

set_option linter.unusedSectionVars false

variable {R : Type} [Field R] [LinearOrder R] [ScoreMath R]

/-- The lines that are neither blank nor comments. -/
def entryLines (text : String) : List (List Char) :=
  (splitLines text.toList).filter fun raw => !isIgnored raw

/-- The rows that are there now and were not. -/
def newRows (before after : Table KeyColumns) : List Nat :=
  after.ids.filter fun id => id ∉ before.ids

/-- A nested transaction fails when it is left: the audit entry, the change or the release of
the savepoint raises. -/
def failedExit : Event (Question R) (Answer R) → Bool
  | ⟨.inr .closeNested, reply⟩ => decide (reply ≠ Closed.released)
  | ⟨.inr (.flushKey _), reply⟩ => Option.isSome (α := String) reply
  | _ => false

theorem parsed_length (outcomes : List (Except ParseFailure ParsedKeyLine)) :
    (parsed outcomes).1.length + (parsed outcomes).2.length = outcomes.length := by
  induction outcomes with
  | nil => rfl
  | cons outcome others ih =>
    cases outcome with
    | ok item =>
      change (parsed others).1.length + 1 + (parsed others).2.length = others.length + 1
      omega
    | error failure =>
      change (parsed others).1.length + ((parsed others).2.length + 1) = others.length + 1
      omega

theorem parseLine_isSome (fromIsoFormat : String → Except String ReadDatetime) (lineNo : Nat)
    (raw : List Char) : (parseLine fromIsoFormat lineNo raw).isSome = !isIgnored raw := by
  unfold parseLine
  split <;> simp_all

theorem length_filterMap_zipIdx (parse : List Char × Nat → Option α) (counts : List Char → Bool)
    (given : ∀ line, (parse line).isSome = counts line.1) (lines : List (List Char)) (start : Nat) :
    ((lines.zipIdx start).filterMap parse).length = (lines.filter counts).length := by
  induction lines generalizing start with
  | nil => rfl
  | cons line others ih =>
    have own := given (line, start)
    rw [List.zipIdx_cons, List.filterMap_cons]
    cases found : parse (line, start) with
    | none =>
      rw [found] at own
      rw [List.filter_cons_of_neg (by simp [← own])]
      exact ih (start + 1)
    | some outcome =>
      rw [found] at own
      rw [List.filter_cons_of_pos (by simp [← own])]
      simp [ih (start + 1)]

/-- Every line that says something becomes an item or a failure. -/
theorem length_parseKeysText (fromIsoFormat : String → Except String ReadDatetime) (text : String) :
    (parseKeysText fromIsoFormat text).1.length + (parseKeysText fromIsoFormat text).2.length =
      (entryLines text).length := by
  unfold parseKeysText parseLines entryLines
  rw [parsed_length]
  exact length_filterMap_zipIdx _ _ (fun line => parseLine_isSome fromIsoFormat line.2 line.1) _ 1

namespace Ledger
variable {ledger last : Ledger}

theorem moves_failedExits {event : Event (Question R) (Answer R)} (moved : ledger.moves event last) :
    last.failedExits = ledger.failedExits + if failedExit event then 1 else 0 := by
  obtain ⟨op | op, reply⟩ := event
  · cases moved
    rfl
  · cases op with
    | insertKey row =>
      cases reply with
      | added id =>
        obtain ⟨-, keys, -, rfl⟩ := moved
        rfl
      | duplicate | failed message =>
        cases moved
        rfl
    | findHash hash =>
      rcases reply with message | _ | ⟨id, row⟩
      · cases moved
        rfl
      · obtain ⟨-, rfl⟩ := moved
        rfl
      · obtain ⟨-, -, rfl⟩ := moved
        rfl
    | closeNested => cases reply <;> cases moved <;> rfl
    | flushKey key =>
      cases reply with
      | none =>
        obtain ⟨-, rfl⟩ := moved
        rfl
      | some message =>
        cases moved
        rfl
    | commitImport inserted changed => cases reply <;> cases moved <;> rfl
    | purgeKey id =>
      cases moved
      rfl

theorem follows_failedExits {events : List (Event (Question R) (Answer R))}
    (followed : Follows Ledger.moves ledger events last) :
    last.failedExits = ledger.failedExits + events.countP failedExit := by
  induction followed with
  | nil => rfl
  | cons moved _ ih =>
    rw [ih, moves_failedExits moved, List.countP_cons]
    omega

end Ledger

/-- The accounts of an import after so many lines. Without a nested transaction that failed as
it was left, they are right. -/
structure Tallied (keys : Table KeyColumns) (lines : Nat) (session : ImportSession)
    (ledger : Ledger) : Prop where
  total : session.created + session.updated + session.skipped + session.failures.length =
    lines + ledger.failedExits
  created : ledger.failedExits = 0 →
    ∃ new, ledger.working.ids = keys.ids ++ new ∧ new.length = session.created
  updated : ledger.failedExits = 0 → session.updated = ledger.altered
  mirrored : Mirrored session ledger.working

def Counted (keys : Table KeyColumns) (lines : Nat) : Except Exn ImportSession → Ledger → Prop :=
  fun outcome last => ∃ after, outcome = .ok after ∧ Tallied keys lines after last

section
variable {keys : Table KeyColumns} {lines id : Nat} {session : ImportSession} {ledger : Ledger}
  {loaded stored : KeyColumns}

theorem Mirrored.same {after : ImportSession} {held : Table KeyColumns}
    (mirrored : Mirrored session held) (inserted : after.inserted = session.inserted)
    (changed : after.changed = session.changed) : Mirrored after held := by
  constructor
  · rw [inserted, changed]
    exact mirrored.rows
  · rw [inserted, changed]
    exact mirrored.apart

/-- A nested transaction fails as it is left: the line is counted once more, and the rows are
what they were. -/
theorem tallied_failExit (total : session.created + session.updated + session.skipped +
      session.failures.length = lines + ledger.failedExits)
    (restored : Mirrored session ledger.savepoint) (item : ParsedKeyLine) (message : String) :
    Tallied keys lines (session.fail item message) ledger.failExit where
  total := by
    simp only [ImportSession.fail, Ledger.failExit, List.length_append, List.length_singleton]
    omega
  created failed := nomatch failed
  updated failed := nomatch failed
  mirrored := restored.same rfl rfl

theorem altered_startLine (ledger : Ledger) : ledger.startLine.altered = ledger.altered := by
  have same : ¬Alters ledger.working ledger.working := by
    rintro ⟨id, -, different⟩
    exact different rfl
  simp [Ledger.altered, Ledger.startLine, same]

theorem Tallied.startLine (tallied : Tallied keys lines session ledger) :
    Tallied keys lines session ledger.startLine where
  total := tallied.total
  created := tallied.created
  updated clean := (tallied.updated clean).trans (altered_startLine ledger).symm
  mirrored := tallied.mirrored

/-- One more line is counted, the rows being as they are. -/
theorem Tallied.count {after : ImportSession} (tallied : Tallied keys lines session ledger)
    (once : after.created + after.updated + after.skipped + after.failures.length =
      session.created + session.updated + session.skipped + session.failures.length + 1)
    (created : after.created = session.created) (updated : after.updated = session.updated)
    (inserted : after.inserted = session.inserted) (changed : after.changed = session.changed) :
    Tallied keys (lines + 1) after ledger where
  total := by
    have total := tallied.total
    omega
  created clean := by
    rw [created]
    exact tallied.created clean
  updated clean := by
    rw [updated]
    exact tallied.updated clean
  mirrored := tallied.mirrored.same inserted changed

theorem Tallied.fail (tallied : Tallied keys lines session ledger) (item : ParsedKeyLine)
    (message : String) : Tallied keys (lines + 1) (session.fail item message) ledger := by
  apply tallied.count
  · simp only [ImportSession.fail, List.length_append, List.length_singleton]
    omega
  all_goals rfl

theorem Tallied.open (tallied : Tallied keys lines session ledger) :
    Tallied keys lines session { ledger with savepoint := ledger.working } :=
  ⟨tallied.total, tallied.created, tallied.updated, tallied.mirrored⟩

theorem wp_closeMerge (tallied : Tallied keys lines session ledger)
    (opened : ledger.savepoint = ledger.working) (item : ParsedKeyLine) :
    (closeMerge (R := R) session item).wp Ledger.bookkeeping (Counted keys lines) ledger := by
  refine ⟨trivial, fun reply last moved => ?_⟩
  cases reply with
  | released =>
    cases moved
    exact ⟨session, rfl, tallied⟩
  | raised integrity message =>
    cases moved
    exact ⟨_, rfl, tallied_failExit tallied.total (opened ▸ tallied.mirrored) item message⟩

/-- The row of a line is written: the line altered a row that it found. -/
theorem Tallied.flush (tallied : Tallied keys lines session ledger)
    (begun : ledger.lineStart = ledger.working) (found : ledger.working.get? id = some stored)
    (completed : Completes loaded stored) (row : KeyColumns)
    (changes : fillAccount row stored ≠ stored) :
    Tallied keys (lines + 1)
      ({ session with updated := session.updated + 1 }.keep ⟨id, loaded, fillAccount row stored⟩)
      { ledger with
        working := Store.flushKey ledger.working ⟨id, loaded, fillAccount row stored⟩ } := by
  have counts : ∀ key : KeyObject, ∃ inserted changed,
      { session with updated := session.updated + 1 }.keep key =
        { session with updated := session.updated + 1, inserted, changed } := by
    intro key
    unfold ImportSession.keep
    split
    · exact ⟨_, _, rfl⟩
    · exact ⟨_, _, rfl⟩
  have alters : Alters ledger.working
      (Store.flushKey ledger.working ⟨id, loaded, fillAccount row stored⟩) := by
    refine ⟨id, (Table.get_some.mp found).1, ?_⟩
    rw [Store.get_flushKey_self ledger.working ⟨id, loaded, fillAccount row stored⟩, found,
      Option.map_some, flush_completed row completed]
    exact fun same => changes (Option.some.inj same)
  have before : ¬Alters ledger.working ledger.working := by
    rintro ⟨id, -, different⟩
    exact different rfl
  have mirrored : Mirrored { session with updated := session.updated + 1 } ledger.working :=
    tallied.mirrored.same rfl rfl
  obtain ⟨inserted, changed, kept⟩ := counts ⟨id, loaded, fillAccount row stored⟩
  constructor
  · have total := tallied.total
    rw [kept]
    dsimp only
    omega
  · intro clean
    rw [kept]
    exact tallied.created clean
  · intro clean
    have altered := tallied.updated clean
    rw [kept]
    simp only [Ledger.altered, begun, alters, before, ↓reduceIte] at altered ⊢
    omega
  · exact mirrored.flush found completed

theorem wp_mergeItem (tallied : Tallied keys lines session ledger)
    (begun : ledger.lineStart = ledger.working) (item : ParsedKeyLine) (row : KeyColumns) :
    (mergeItem (R := R) session item row).wp Ledger.bookkeeping (Counted keys (lines + 1)) ledger := by
  refine ⟨trivial, fun reply last moved => ?_⟩
  rcases reply with message | _ | ⟨id, stored⟩
  · cases moved
    exact ⟨_, rfl, tallied.fail item message⟩
  · obtain ⟨-, rfl⟩ := moved
    apply wp_closeMerge (tallied.fail item _).open
    rfl
  · obtain ⟨found, -, rfl⟩ := moved
    obtain ⟨loaded, object, completed⟩ := tallied.mirrored.object found
    simp only [Prog.bind]
    generalize session.object id stored = existing at object ⊢
    split
    · apply wp_closeMerge (Tallied.open _)
      · rfl
      · apply tallied.count
        · dsimp only
          omega
        all_goals rfl
    · next changes =>
      subst object
      refine ⟨trivial, fun reply last moved => ?_⟩
      cases reply with
      | none =>
        obtain ⟨-, rfl⟩ := moved
        exact ⟨_, rfl, tallied.open.flush begun found completed row changes⟩
      | some message =>
        cases moved
        refine ⟨_, rfl, tallied_failExit ?_ ?_ item message⟩
        · have total := tallied.total
          dsimp only
          omega
        · exact tallied.mirrored.same rfl rfl

theorem wp_importItem (tallied : Tallied keys lines session ledger) (item : ParsedKeyLine)
    (row : KeyColumns) :
    (importItem (R := R) session item row).wp Ledger.bookkeeping (Counted keys (lines + 1)) ledger := by
  refine ⟨trivial, fun reply last moved => ?_⟩
  cases reply with
  | failed message =>
    cases moved
    exact ⟨_, rfl, tallied.startLine.fail item message⟩
  | duplicate =>
    cases moved
    apply wp_mergeItem tallied.startLine
    rfl
  | added id =>
    obtain ⟨-, after, added, rfl⟩ := moved
    have counted : session.created + 1 + session.updated + session.skipped +
        session.failures.length = lines + 1 + ledger.failedExits := by
      have total := tallied.total
      omega
    have mirrored : Mirrored { session with created := session.created + 1 } ledger.working :=
      tallied.mirrored.same rfl rfl
    refine ⟨trivial, fun reply last moved => ?_⟩
    rcases reply with _ | ⟨_ | _, message⟩
    · cases moved
      refine ⟨_, rfl, counted, ?_, ?_, tallied.mirrored.insert added⟩
      · intro clean
        obtain ⟨new, ids, length⟩ := tallied.created clean
        refine ⟨new ++ [id], ?_, by simp [length]⟩
        rw [(Table.insert_some added).2.1, ids, List.append_assoc]
      · intro clean
        rw [tallied.updated clean]
        have same : ¬Alters ledger.working after := by
          rintro ⟨other, member, different⟩
          apply different
          rw [Table.get_insert added, if_neg]
          rintro rfl
          exact absurd ((Table.insert_some added).1 other member) (Nat.lt_irrefl other)
        simp [Ledger.altered, Ledger.startLine, same]
    · cases moved
      refine ⟨_, rfl, tallied_failExit ?_ ?_ item message⟩
      · exact counted
      · exact mirrored
    · cases moved
      -- the new row is counted and gone, and the line is tried as a duplicate
      apply wp_mergeItem
      · constructor
        · change session.created + 1 + session.updated + session.skipped + session.failures.length =
            lines + (ledger.failedExits + 1)
          omega
        · exact fun failed => nomatch failed
        · exact fun failed => nomatch failed
        · exact mirrored
      · rfl

theorem wp_importItems (vault : KeyVault) (masterKey : Bytes) (nonce : Nat → Bytes) (today : Int)
    (payload : ImportKeysTextRequest) (items : List ParsedKeyLine)
    (tallied : Tallied keys lines session ledger) :
    (importItems (R := R) vault masterKey nonce today payload session items).wp Ledger.bookkeeping
      (Counted keys (lines + items.length)) ledger := by
  induction items generalizing lines session ledger with
  | nil => exact ⟨session, rfl, tallied⟩
  | cons item rest ih =>
    apply (wp_bind _).mpr
    apply wp_mono _ (wp_importItem tallied item _)
    rintro outcome last ⟨after, rfl, counted⟩
    have others := ih counted
    rw [Nat.add_assoc, Nat.add_comm 1] at others
    exact others

end

/-- The accounts that an import returns. -/
def Accounted (keys : Table KeyColumns) (entries : Nat) (session : ImportSession) (last : Ledger) :
    Prop :=
  session.created + session.updated + session.skipped + session.failures.length = entries ∧
    session.created = (newRows keys last.committed).length ∧ session.updated = last.altered

theorem Tallied.newRows {keys : Table KeyColumns} {session : ImportSession} {ledger : Ledger}
    (tallied : Tallied keys lines session ledger) (clean : ledger.failedExits = 0) :
    session.created = (newRows keys ledger.working).length := by
  obtain ⟨new, ids, length⟩ := tallied.created clean
  have nodup := ledger.working.nodup
  rw [ids] at nodup
  have fresh : ∀ id ∈ new, id ∉ keys.ids := fun id member listed =>
    (List.nodup_append.mp nodup).2.2 id listed id member rfl
  have old : keys.ids.filter (fun id => id ∉ keys.ids) = [] := by simp
  have all : new.filter (fun id => id ∉ keys.ids) = new := by simpa using fresh
  unfold KeyImport.newRows
  rw [ids, List.filter_append, old, all, ← length]
  rfl

/-- An import that returns is balanced, and what the transaction holds is committed. -/
theorem wp_importKeysText (control : ControlPlane R) (vault : KeyVault) (nonce : Nat → Bytes)
    (today : Int) (payload : ImportKeysTextRequest) (keys : Table KeyColumns) :
    (importKeysText control vault nonce today payload).wp Ledger.bookkeeping
      (fun outcome last => ∀ session, outcome = .ok session →
        Tallied keys (payload.parseFailures.length + payload.items.length) session last ∧
          last.committed = last.working) (.opened keys) := by
  unfold importKeysText
  split
  · exact nofun
  · split
    · exact nofun
    · split
      · exact nofun
      · have opened : Tallied keys payload.parseFailures.length
            { failures := payload.parseFailures } (.opened keys) := by
          constructor
          · simp [Ledger.opened]
          · exact fun _ => ⟨[], (List.append_nil _).symm, rfl⟩
          · intro _
            have same : ¬Alters keys keys := by
              rintro ⟨id, -, different⟩
              exact different rfl
            simp [Ledger.altered, Ledger.opened, same]
          · exact mirrored_empty keys _
        apply (wp_bind _).mpr
        apply wp_mono _ (wp_importItems vault _ nonce today payload payload.items opened)
        rintro outcome ledger ⟨session, rfl, tallied⟩
        refine ⟨trivial, fun reply last moved => ?_⟩
        cases reply with
        | true =>
          cases moved
          rintro _ ⟨⟩
          exact ⟨⟨tallied.total, tallied.created, tallied.updated, tallied.mirrored⟩, rfl⟩
        | false => exact nofun

/-- However its statements fail, an import that returns has counted every line once, its new
rows and the lines that altered a row, exactly if no nested transaction failed as it was left. -/
theorem imports_accounted_iff (control : ControlPlane R) (vault : KeyVault) (nonce : Nat → Bytes)
    (today : Int) (fromIsoFormat : String → Except String ReadDatetime) (text : String)
    (payload : ImportKeysTextRequest) (keys : Table KeyColumns) (session : ImportSession)
    (events : List (Event (Question R) (Answer R))) (last : Ledger)
    (ran : Ran (importKeysText control vault nonce today (request fromIsoFormat text payload))
      events (.ok session))
    (followed : Follows Ledger.moves (.opened keys) events last) :
    Accounted keys (entryLines text).length session last ↔
      ∀ event ∈ events, failedExit event = false := by
  obtain ⟨tallied, committed⟩ := wp_ran ran followed (wp_importKeysText control vault nonce today
    (request fromIsoFormat text payload) keys) session rfl
  have entries : (request fromIsoFormat text payload).parseFailures.length +
      (request fromIsoFormat text payload).items.length = (entryLines text).length :=
    (Nat.add_comm _ _).trans (length_parseKeysText fromIsoFormat text)
  have failed : last.failedExits = events.countP failedExit := by
    rw [Ledger.follows_failedExits followed]
    exact Nat.zero_add _
  have total := tallied.total
  rw [entries] at total
  have clean : last.failedExits = 0 ↔ ∀ event ∈ events, failedExit event = false := by
    rw [failed, List.countP_eq_zero]
    simp
  rw [← clean]
  constructor
  · rintro ⟨once, -, -⟩
    omega
  · intro none
    refine ⟨by omega, ?_, tallied.updated none⟩
    rw [committed]
    exact tallied.newRows none

/-- Two lines, the second for the key of the first: one row, completed by the second line. -/
theorem two_lines_accounted :
    Accounted (.empty {}) 2
      (imported (importRun .released {} (.empty {}) "fc-12345678\nalice|fc-12345678").2.1)
      (importRun .released {} (.empty {}) "fc-12345678\nalice|fc-12345678").2.2 :=
  (imports_accounted_iff (importControl {}) readableVault (fun _ => []) 0 readFebruary
      "fc-12345678\nalice|fc-12345678" { items := [] } (.empty {}) _ _ _
      (imported_ok (importRun .released {} (.empty {}) "fc-12345678\nalice|fc-12345678").2.1
        (by decide +kernel) ▸ execute_ran _ _ _)
      (execute_follows (Ledger.respond_honest .released) _ _)).mpr (by decide +kernel)

/-- An audit entry whose text does not fit its column: the one line is counted as created and
as failed, and there is no new row. -/
theorem overlong_audit_miscounts : ¬ ∀ (events : List (Event (Question ℚ) (Answer ℚ)))
    (session : ImportSession) (last : Ledger),
    Ran (importKeysText (importControl {}) readableVault (fun _ => []) 0
      (request readFebruary "fc-12345678" { items := [] })) events (.ok session) →
    Follows Ledger.moves (.opened (.empty {})) events last →
    Accounted (.empty {}) (entryLines "fc-12345678").length session last := by
  intro claim
  obtain ⟨-, created, -⟩ := claim _ _ _
    (imported_ok (importRun (.raised false "value too long") {} (.empty {}) "fc-12345678").2.1
      (by decide +kernel) ▸ execute_ran _ _ _)
    (execute_follows (Ledger.respond_honest _) _ _)
  revert created
  decide +kernel

end FcamGateway.KeyImport
