import FcamGateway.IdempotencyRecords

/-! The life of a record: where the rows of a run come from, and what becomes of
the row one handler inserted, as long as no id is given out twice. It is there
with its response once the response is stored, unless its time has passed. -/
namespace FcamGateway.Idempotency
open Prog

set_option linter.unusedSectionVars false

variable {Thread : Type} [DecidableEq Thread]

abbrev Log (Thread : Type) := Trace Thread Op Reply

/-- The ids given to new rows, in order. -/
def given (trace : Log Thread) : List Nat :=
  trace.filterMap fun entry => (insertedRow entry.2).map Prod.snd

/-- No id is given out twice. -/
def FreshIds (trace : Log Thread) : Prop := (given trace).Nodup

instance (trace : Log Thread) : Decidable (FreshIds trace) :=
  inferInstanceAs (Decidable (given trace).Nodup)

/-- Some clock reading of the trace is later. -/
def Passed (instant : Instant) (trace : Log Thread) : Prop :=
  ∃ thread now, (thread, ⟨.now, now⟩) ∈ trace ∧ instant < now

/-- The reading an event is. -/
def reading : Event Op Reply → Option Instant
  | ⟨.now, now⟩ => some now
  | _ => none

theorem reading_some {event : Event Op Reply} {now : Instant} (read : reading event = some now) :
    event = ⟨.now, now⟩ := by
  unfold reading at read
  split at read
  · cases read
    rfl
  · cases read

theorem passed_iff {instant : Instant} {trace : Log Thread} :
    Passed instant trace ↔ ∃ entry ∈ trace, ∃ now ∈ reading entry.2, instant < now := by
  constructor
  · rintro ⟨thread, now, read, later⟩
    exact ⟨_, read, now, rfl, later⟩
  · rintro ⟨⟨thread, event⟩, member, now, found, later⟩
    obtain rfl := reading_some found
    exact ⟨thread, now, member, later⟩

instance (instant : Instant) (trace : Log Thread) : Decidable (Passed instant trace) :=
  decidable_of_iff _ passed_iff.symm

theorem insertedRow_some {event : Event Op Reply} {draft : Draft} {id : Nat}
    (inserted : insertedRow event = some (draft, id)) : event = ⟨.insert draft, .row id⟩ := by
  unfold insertedRow at inserted
  split at inserted
  · cases inserted
    rfl
  · cases inserted

theorem Passed.mono {instant : Instant} {front trace : Log Thread} (passed : Passed instant front)
    (grown : front <+: trace) : Passed instant trace := by
  obtain ⟨thread, now, read, later⟩ := passed
  exact ⟨thread, now, grown.subset read, later⟩

theorem given_append (front back : Log Thread) : given (front ++ back) = given front ++ given back :=
  List.filterMap_append

theorem FreshIds.upto {trace more : Log Thread} (fresh : FreshIds more) (grown : trace <+: more) :
    FreshIds trace := by
  obtain ⟨rest, rfl⟩ := grown
  rw [FreshIds, given_append] at fresh
  exact (List.nodup_append.mp fresh).1

theorem mem_given {trace : Log Thread} {thread : Thread} {draft : Draft} {id : Nat}
    (inserted : (thread, ⟨.insert draft, .row id⟩) ∈ trace) : id ∈ given trace :=
  List.mem_filterMap.mpr ⟨_, inserted, rfl⟩

/-- An id that was given out before is not given out again. -/
theorem FreshIds.once {front back : Log Thread} (fresh : FreshIds (front ++ back))
    {thread : Thread} {draft : Draft} {id : Nat}
    (inserted : (thread, ⟨.insert draft, .row id⟩) ∈ front) : id ∉ given back := by
  intro again
  rw [FreshIds, given_append] at fresh
  exact (List.nodup_append.mp fresh).2.2 id (mem_given inserted) id again rfl

/-- One insert gave out the id. -/
theorem FreshIds.unique {front front' back back' : Log Thread} {thread other : Thread}
    {draft draft' : Draft} {id : Nat}
    (fresh : FreshIds (front ++ (thread, ⟨.insert draft, .row id⟩) :: back))
    (again : front ++ (thread, ⟨.insert draft, .row id⟩) :: back =
      front' ++ (other, ⟨.insert draft', .row id⟩) :: back') :
    front = front' ∧ thread = other ∧ draft = draft' := by
  rcases split_cases again with ⟨rfl, same, _⟩ | ⟨middle, _, rfl⟩ | ⟨middle, rfl, _⟩
  · cases same
    exact ⟨rfl, rfl, rfl⟩
  · rw [List.append_cons] at fresh
    have again := fresh.once (List.mem_append_right _ (List.mem_singleton_self _))
    exact absurd (mem_given (List.mem_append_right _ List.mem_cons_self)) again
  · have again := fresh.once (List.mem_append_right _ List.mem_cons_self)
    exact absurd (mem_given List.mem_cons_self) again

theorem FreshIds.maker {trace : Log Thread} (fresh : FreshIds trace) {thread other : Thread}
    {draft draft' : Draft} {id : Nat} (inserted : (thread, ⟨.insert draft, .row id⟩) ∈ trace)
    (again : (other, ⟨.insert draft', .row id⟩) ∈ trace) : thread = other := by
  obtain ⟨front, back, rfl⟩ := List.append_of_mem inserted
  obtain ⟨front', back', split⟩ := List.append_of_mem again
  exact (fresh.unique split).2.1

variable {config : IdempotencyConfig} {codec : Codec} {depth : Thread → Nat}
  {request : Thread → Incoming} {start last : Shelf} {trace front : Log Thread}

/-- The run of handlers side by side. -/
abbrev Served (config : IdempotencyConfig) (codec : Codec) (depth : Thread → Nat)
    (request : Thread → Incoming) (start : Shelf) (trace : Log Thread) (last : Shelf) : Prop :=
  Interleaved (handlers config codec depth request) Shelf.moves start trace last

theorem duly {thread : Thread} {op : Op}
    (asking : Asking (handlers config codec depth request) front thread op) :
    Duly config codec (request thread) (own thread front) op :=
  asking.checked (wp_handle (depth thread))

/-- What a handler inserted after the part of the run before it. -/
structure Inserts (config : IdempotencyConfig) (codec : Codec) (request : Thread → Incoming)
    (trace front : Log Thread) (thread : Thread) (draft : Draft) (id : Nat) : Prop where
  placed : ∃ back, trace = front ++ (thread, ⟨.insert draft, .row id⟩) :: back
  claimed : (request thread).claimedKey config = some draft.idempotencyKey
  drafted : draft = (request thread).draft codec draft.idempotencyKey draft.expiresAt

/-- A row and the insert it comes from. -/
structure RowOf (front : Log Thread) (draft : Draft) (row : RecordColumns) : Prop where
  client : row.clientId = draft.clientId
  key : row.idempotencyKey = draft.idempotencyKey
  hash : row.requestHash = draft.requestHash
  expires : row.expiresAt = some draft.expiresAt
  created : ∀ thread now, (thread, ⟨.now, now⟩) ∈ front → now ≤ row.createdAt

theorem Inserts.member {trace front : Log Thread} {thread : Thread} {draft : Draft} {id : Nat}
    (inserts : Inserts config codec request trace front thread draft id) :
    (thread, ⟨.insert draft, .row id⟩) ∈ trace := by
  obtain ⟨back, rfl⟩ := inserts.placed
  exact List.mem_append_right _ List.mem_cons_self

theorem Inserts.of_mem (run : Served config codec depth request start trace last) {thread : Thread}
    {draft : Draft} {id : Nat} (inserted : (thread, ⟨.insert draft, .row id⟩) ∈ trace) :
    ∃ made, Inserts config codec request trace made thread draft id := by
  obtain ⟨front, back, rfl⟩ := List.append_of_mem inserted
  obtain ⟨_, _, _, _, _, _, asking⟩ := run.at
  obtain ⟨earlier, key, now, expiresAt, opened, rfl, _⟩ := duly asking
  exact ⟨front, ⟨back, rfl⟩, opened.claimed, rfl⟩

theorem Inserts.mono {trace more front : Log Thread} {thread : Thread} {draft : Draft} {id : Nat}
    (inserts : Inserts config codec request trace front thread draft id) (grown : trace <+: more) :
    Inserts config codec request more front thread draft id := by
  obtain ⟨back, rfl⟩ := inserts.placed
  obtain ⟨rest, rfl⟩ := grown
  exact ⟨⟨back ++ rest, by simp⟩, inserts.claimed, inserts.drafted⟩

theorem Inserts.trim {trace more made : Log Thread} {maker thread : Thread} {draft draft' : Draft}
    {id : Nat} (inserts : Inserts config codec request more made maker draft id)
    (fresh : FreshIds more) (grown : trace <+: more)
    (present : (thread, ⟨.insert draft', .row id⟩) ∈ trace) :
    Inserts config codec request trace made maker draft id := by
  obtain ⟨front, back, rfl⟩ := List.append_of_mem present
  obtain ⟨rest, rfl⟩ := grown
  obtain ⟨after, placed⟩ := inserts.placed
  have split := placed
  rw [List.append_assoc, List.cons_append] at split
  rw [placed] at fresh
  obtain ⟨rfl, rfl, rfl⟩ := fresh.unique split.symm
  exact ⟨⟨back, rfl⟩, inserts.claimed, inserts.drafted⟩

/-- An insert is the last event, or it was there before. -/
theorem Inserts.snoc {front made : Log Thread} {maker thread : Thread} {event : Event Op Reply}
    {draft : Draft} {id : Nat}
    (inserts : Inserts config codec request (front ++ [(thread, event)]) made maker draft id) :
    event = ⟨.insert draft, .row id⟩ ∧ front = made ∨
      Inserts config codec request front made maker draft id := by
  obtain ⟨back, placed⟩ := inserts.placed
  rcases split_cases placed.symm with ⟨rfl, same, _⟩ | ⟨middle, rfl, _⟩ | ⟨_, _, none⟩
  · cases same
    exact .inl ⟨rfl, rfl⟩
  · exact .inr ⟨⟨middle, rfl⟩, inserts.claimed, inserts.drafted⟩
  · simp at none

theorem Inserts.same {trace more front front' : Log Thread} {thread other : Thread}
    {draft draft' : Draft} {id : Nat} (fresh : FreshIds more) (grown : trace <+: more)
    (inserts : Inserts config codec request more front thread draft id)
    (again : Inserts config codec request trace front' other draft' id) :
    front = front' ∧ thread = other ∧ draft = draft' := by
  obtain ⟨back, rfl⟩ := inserts.placed
  obtain ⟨back', split⟩ := (again.mono grown).placed
  exact fresh.unique split

/-- Every row comes from an insert, no key has two rows, and no clock reading is
ahead of the clock. -/
structure Kept (config : IdempotencyConfig) (codec : Codec) (request : Thread → Incoming)
    (trace : Log Thread) (shelf : Shelf) : Prop where
  rows : ∀ id row, shelf.records.get? id = some row → ∃ front thread draft,
    Inserts config codec request trace front thread draft id ∧ RowOf front draft row
  unique : ∀ id other row row', shelf.records.get? id = some row →
    shelf.records.get? other = some row' → row.clientId = row'.clientId →
    row.idempotencyKey = row'.idempotencyKey → id = other
  clock : ∀ thread now, (thread, ⟨.now, now⟩) ∈ trace → now ≤ shelf.clock

/-- An event that gives, takes or writes the row of an id. -/
def Touches (id : Nat) : Event Op Reply → Prop
  | ⟨.insert _, .row other⟩ => other = id
  | ⟨.delete other, reply⟩ => reply = true ∧ other = id
  | ⟨.complete other _ _, reply⟩ => reply = true ∧ other = id
  | _ => False

/-- What an event does with the row of an id. -/
inductive RowMove (shelf : Shelf) (id : Nat) : Event Op Reply → Option RecordColumns → Prop
  | same : ¬Touches id event → RowMove shelf id event (shelf.records.get? id)
  | created {draft : Draft} : shelf.records.get? id = none → shelf.clock ≤ instant →
      shelf.taken draft.clientId draft.idempotencyKey = none →
      RowMove shelf id ⟨.insert draft, .row id⟩ (some (draft.row instant))
  | deleted : RowMove shelf id ⟨.delete id, true⟩ none
  | expired : shelf.records.get? id = some row → row.expiresAt.any (· < now) →
      RowMove shelf id ⟨.cleanup clientId now, ()⟩ none
  | stored : shelf.records.get? id = some row →
      RowMove shelf id ⟨.complete id statusCode body, true⟩
        (some (Shelf.completed statusCode body row))

theorem Shelf.row_move {before after : Shelf} {event : Event Op Reply}
    (moved : before.moves event after) (id : Nat) :
    RowMove before id event (after.records.get? id) := by
  obtain ⟨op, reply⟩ := event
  cases op with
  | now =>
    obtain ⟨_, rfl⟩ := moved
    exact .same nofun
  | cleanup clientId now =>
    rcases moved with rfl | rfl
    · exact .same nofun
    · rw [Table.get_delete]
      cases found : before.records.get? id with
      | none =>
        rw [Option.filter_none, ← found]
        exact .same nofun
      | some row =>
        cases gone : Shelf.expired clientId now row with
        | false =>
          rw [Option.filter_some_pos (by simp [gone]), ← found]
          exact .same nofun
        | true =>
          rw [Option.filter_some_neg (by simp [gone])]
          simp only [Shelf.expired, Bool.and_eq_true] at gone
          exact .expired found gone.2
  | insert draft =>
    cases reply with
    | row other =>
      obtain ⟨free, created, records, later, added, rfl⟩ := moved
      rw [Table.get_insert added]
      split
      · rename_i given
        subst given
        refine .created (Table.get_none.mpr fun listed => ?_) later free
        exact Nat.lt_irrefl _ ((Table.insert_some added).1 id listed)
      · exact .same fun given => absurd given.symm ‹_›
    | conflict =>
      obtain rfl := moved
      exact .same nofun
    | failed =>
      obtain rfl := moved
      exact .same nofun
  | refresh other =>
    obtain ⟨rfl, _⟩ := moved
    exact .same nofun
  | lookup clientId key =>
    obtain ⟨rfl, _⟩ := moved
    exact .same nofun
  | delete other =>
    rcases moved with ⟨rfl, rfl⟩ | ⟨rfl, rfl⟩
    · rw [Table.get_delete]
      by_cases given : id = other
      · subst given
        have gone : ((before.records.get? id).filter fun _ => !decide (id = id)) = none := by simp
        rw [gone]
        exact .deleted
      · have stays : ((before.records.get? id).filter fun _ => !decide (id = other)) =
            before.records.get? id := by
          cases before.records.get? id <;> simp [given]
        rw [stays]
        exact .same fun ⟨_, touched⟩ => given touched.symm
    · exact .same nofun
  | forward method path body =>
    obtain rfl := moved
    exact .same nofun
  | find other =>
    obtain ⟨rfl, _⟩ := moved
    exact .same nofun
  | complete other statusCode body =>
    rcases moved with ⟨rfl, listed, rfl⟩ | ⟨rfl, rfl⟩
    · rw [Table.get_modify]
      by_cases given : id = other
      · subst given
        have found := Table.get_some.mpr ⟨listed, rfl⟩
        rw [if_pos rfl, found]
        exact .stored found
      · rw [if_neg given]
        exact .same fun ⟨_, touched⟩ => given touched.symm
    · exact .same nofun

/-- The clock does not go back, and a reading is not ahead of it. -/
theorem Shelf.clock_move {before after : Shelf} {event : Event Op Reply}
    (moved : before.moves event after) : before.clock ≤ after.clock ∧
      ∀ now, event = ⟨.now, now⟩ → now ≤ after.clock := by
  cases event with | mk op reply =>
  cases op with
  | now =>
    obtain ⟨later, rfl⟩ := moved
    refine ⟨later, fun now same => ?_⟩
    cases same
    exact Int.le_refl _
  | cleanup clientId now => rcases moved with rfl | rfl <;> exact ⟨Int.le_refl _, nofun⟩
  | insert draft =>
    cases reply with
    | row id =>
      obtain ⟨_, created, records, later, _, rfl⟩ := moved
      exact ⟨later, nofun⟩
    | conflict => exact ⟨Int.le_of_eq (congrArg Shelf.clock moved).symm, nofun⟩
    | failed => exact ⟨Int.le_of_eq (congrArg Shelf.clock moved).symm, nofun⟩
  | refresh id => exact ⟨Int.le_of_eq (congrArg Shelf.clock moved.1).symm, nofun⟩
  | lookup clientId key => exact ⟨Int.le_of_eq (congrArg Shelf.clock moved.1).symm, nofun⟩
  | delete id => rcases moved with ⟨_, rfl⟩ | ⟨_, rfl⟩ <;> exact ⟨Int.le_refl _, nofun⟩
  | forward method path body => exact ⟨Int.le_of_eq (congrArg Shelf.clock moved).symm, nofun⟩
  | find id => exact ⟨Int.le_of_eq (congrArg Shelf.clock moved.1).symm, nofun⟩
  | complete id statusCode body =>
    rcases moved with ⟨_, _, rfl⟩ | ⟨_, rfl⟩ <;> exact ⟨Int.le_refl _, nofun⟩

/-- A row before and after its response is stored. -/
structure Kin (row next : RecordColumns) : Prop where
  client : next.clientId = row.clientId
  key : next.idempotencyKey = row.idempotencyKey
  hash : next.requestHash = row.requestHash
  expires : next.expiresAt = row.expiresAt
  created : next.createdAt = row.createdAt

/-- A row that is there was there before, or is new. -/
theorem RowMove.origin {shelf : Shelf} {id : Nat} {event : Event Op Reply} {row : RecordColumns}
    (moved : RowMove shelf id event (some row)) :
    (∃ old, shelf.records.get? id = some old ∧ Kin old row) ∨
      ∃ draft instant, event = ⟨.insert draft, .row id⟩ ∧ row = draft.row instant ∧
        shelf.clock ≤ instant ∧ shelf.taken draft.clientId draft.idempotencyKey = none := by
  generalize left : some row = found at moved
  cases moved with
  | same _ => exact .inl ⟨row, left.symm, rfl, rfl, rfl, rfl, rfl⟩
  | created _ later free => exact .inr ⟨_, _, rfl, Option.some.inj left, later, free⟩
  | deleted => cases left
  | expired _ _ => cases left
  | stored held =>
    cases left
    exact .inl ⟨_, held, rfl, rfl, rfl, rfl, rfl⟩

theorem Kin.rowOf {old row : RecordColumns} {front : Log Thread} {draft : Draft}
    (kin : Kin old row) (made : RowOf front draft old) : RowOf front draft row :=
  ⟨kin.client.trans made.client, kin.key.trans made.key, kin.hash.trans made.hash,
    kin.expires.trans made.expires, fun thread now read =>
      (made.created thread now read).trans_eq kin.created.symm⟩

/-- No other row has the key of a new row. -/
theorem Shelf.alone {before after : Shelf} {event : Event Op Reply} (moved : before.moves event after)
    {draft : Draft} {id other : Nat} {row : RecordColumns} (new : event = ⟨.insert draft, .row id⟩)
    (free : before.taken draft.clientId draft.idempotencyKey = none) (apart : other ≠ id)
    (there : after.records.get? other = some row) :
    ¬(row.clientId = draft.clientId ∧ row.idempotencyKey = draft.idempotencyKey) := by
  rintro ⟨client, key⟩
  rcases (there ▸ Shelf.row_move moved other).origin with ⟨old, had, kin⟩ | ⟨_, _, again, _⟩
  · exact Shelf.taken_none free had ⟨kin.client.symm.trans client, kin.key.symm.trans key⟩
  · rw [new] at again
    cases again
    exact apart rfl

theorem kept (run : Served config codec depth request start trace last)
    (empty : start.records.ids = []) : Kept config codec request trace last := by
  refine run.induct ⟨fun id row found => ?_, fun id _ row _ found => ?_, nofun⟩ ?_
  · simp [Table.get?, empty] at found
  · simp [Table.get?, empty] at found
  intro front thread event before after _ held asking moved
  have forward := Shelf.clock_move moved
  refine ⟨fun id row found => ?_, fun id other row row' found beside client key => ?_, ?_⟩
  · rcases (found ▸ Shelf.row_move moved id).origin with
      ⟨old, there, kin⟩ | ⟨draft, created, rfl, rfl, later, _⟩
    · obtain ⟨early, maker, draft, inserts, made⟩ := held.rows id old there
      exact ⟨early, maker, draft, inserts.mono (List.prefix_append _ _), kin.rowOf made⟩
    · obtain ⟨earlier, key, now, expiresAt, opened, rfl, whole⟩ := duly asking
      refine ⟨front, thread, _, ⟨⟨[], rfl⟩, opened.claimed, rfl⟩, rfl, rfl, rfl, rfl, ?_⟩
      exact fun reader now read => (held.clock reader now read).trans later
  · by_contra different
    rcases (found ▸ Shelf.row_move moved id).origin with
      ⟨old, there, kin⟩ | ⟨draft, created, new, rfl, _, free⟩
    · rcases (beside ▸ Shelf.row_move moved other).origin with
        ⟨old', there', kin'⟩ | ⟨draft, created, new, rfl, _, free⟩
      · refine different (held.unique id other old old' there there' ?_ ?_)
        · rw [← kin.client, ← kin'.client, client]
        · rw [← kin.key, ← kin'.key, key]
      · exact Shelf.alone moved new free different found ⟨client, key⟩
    · exact Shelf.alone moved new free (Ne.symm different) beside ⟨client.symm, key.symm⟩
  · intro reader now read
    rcases List.mem_append.mp read with earlier | last
    · exact (held.clock reader now earlier).trans forward.1
    · cases List.mem_singleton.mp last
      exact forward.2 now rfl

/-- A row whose response is not stored. -/
structure Unfinished (row : RecordColumns) : Prop where
  status : row.status = "in_progress"
  body : row.responseBody = none

/-- A row whose response is stored. -/
structure Holds (statusCode : Int) (body : String) (row : RecordColumns) : Prop where
  status : row.status = "completed"
  code : row.responseStatusCode = some statusCode
  body : row.responseBody = some body

theorem verdict_takeOver {now : Instant} {hash : String} {row : RecordColumns}
    (decided : verdict config now hash row = .takeOver) : row.expiresAt.any (· < now) ∨
      row.status = "in_progress" ∧ staleAfter config * Instant.second < now - row.createdAt := by
  have late (taken : verdict.unfinished config now row = .takeOver) : row.status = "in_progress" ∧
      staleAfter config * Instant.second < now - row.createdAt := by
    simp only [verdict.unfinished] at taken
    split at taken
    · assumption
    · cases taken
  simp only [verdict] at decided
  split at decided
  · exact .inl ‹_›
  · split at decided
    · cases decided
    · split at decided
      · split at decided
        · cases decided
        · exact .inr (late decided)
      · exact .inr (late decided)

theorem verdict_replay {now : Instant} {hash body : String} {row : RecordColumns} {statusCode : Int}
    (decided : verdict config now hash row = .replay statusCode body) :
    row.requestHash = hash ∧ row.responseStatusCode = some statusCode ∧
      row.responseBody = some body := by
  have unlike : verdict.unfinished config now row ≠ .replay statusCode body := by
    simp only [verdict.unfinished]
    split <;> nofun
  simp only [verdict] at decided
  split at decided
  · cases decided
  · split at decided
    · cases decided
    · rename_i same
      split at decided
      · split at decided
        · cases decided
          exact ⟨not_not.mp same, ‹_›, ‹_›⟩
        · exact absurd decided unlike
      · exact absurd decided unlike

theorem verdict_holds {now : Instant} {hash body : String} {row : RecordColumns} {statusCode : Int}
    (holds : Holds statusCode body row) (nonempty : body ≠ "")
    (alive : ¬row.expiresAt.any (· < now)) : verdict config now hash row =
      if row.requestHash = hash then .replay statusCode body else .conflict := by
  by_cases same : row.requestHash = hash
  · simp [verdict, alive, same, holds.status, holds.code, holds.body, nonempty]
  · simp [verdict, alive, same]

theorem ReadRow.reading {thread : Thread} {front : Log Thread} {id : Nat} {record : RecordColumns}
    {decided : Verdict}
    (read : ReadRow config codec (request thread) (own thread front) id record decided) :
    (thread, ⟨.now, read.now⟩) ∈ front := by
  obtain ⟨earlier, key, now, expiresAt, opened, whole, _⟩ := read
  exact mem_own.mp (by simp [whole, opening])

/-- A record that has not expired conflicts exactly with another fingerprint. -/
theorem verdict_conflict {now : Instant} {hash : String} {row : RecordColumns}
    (alive : ¬row.expiresAt.any (· < now)) :
    verdict config now hash row = .conflict ↔ row.requestHash ≠ hash := by
  have unlike : verdict.unfinished config now row ≠ .conflict := by
    simp only [verdict.unfinished]
    split <;> simp
  simp only [verdict, alive, if_false, Bool.false_eq_true]
  split
  · simp_all
  · rename_i same
    refine ⟨fun decided => absurd decided ?_, fun differ => absurd differ same⟩
    split
    · split
      · simp
      · exact unlike
    · exact unlike

/-- Where a handler that has just read its row stands in the run. -/
theorem ReadRow.back {thread : Thread} {front : Log Thread} {id : Nat} {record : RecordColumns}
    {decided : Verdict}
    (read : ReadRow config codec (request thread) (own thread front) id record decided) :
    ∃ upto since, front = upto ++ (thread, ⟨.lookup (request thread).clientId read.key,
        some (some (id, record))⟩) :: since ∧ own thread since = [] := by
  have whole := read.whole
  rw [← List.append_assoc] at whole
  obtain ⟨upto, since, split, _, quiet⟩ := own_last whole
  exact ⟨upto, since, split, quiet⟩

/-- What a handler reads stands in the table. -/
theorem lookup_found {thread : Thread} {front back : Log Thread} {clientId id : Nat} {key : String}
    {record : RecordColumns} (run : Served config codec depth request start
      (front ++ (thread, ⟨.lookup clientId key, some (some (id, record))⟩) :: back) last) :
    ∃ shelf, Served config codec depth request start front shelf ∧
      shelf.records.get? id = some record ∧ record.clientId = clientId ∧
      record.idempotencyKey = key := by
  obtain ⟨shelf, _, upto, ⟨_, replied⟩, _⟩ := run.at
  rcases replied with none | found
  · cases none
  · exact ⟨shelf, upto, Shelf.taken_some (Option.some.inj found).symm⟩

section

variable {maker thread : Thread} {draft : Draft} {id : Nat} {made back : Log Thread}
  {statusCode : Int} {body : String} {reply : Bool}

/-- The row of an insert while it is there. -/
theorem Inserts.rowOf (run : Served config codec depth request start trace last)
    (empty : start.records.ids = []) (fresh : FreshIds more) (grown : trace <+: more)
    (inserts : Inserts config codec request more made maker draft id) {row : RecordColumns}
    (found : last.records.get? id = some row) : RowOf made draft row := by
  obtain ⟨front, thread, draft', again, rowOf⟩ := (kept run empty).rows id row found
  obtain ⟨rfl, rfl, rfl⟩ := inserts.same fresh grown again
  exact rowOf

/-- A handler that deletes the row read it as expired or as unfinished for too long. -/
theorem Inserts.taken_over (empty : start.records.ids = []) (fresh : FreshIds more)
    (run : Served config codec depth request start trace last) (grown : trace <+: more)
    (inserts : Inserts config codec request more made maker draft id) {thread : Thread}
    (asking : Asking (handlers config codec depth request) trace thread (.delete id)) :
    Passed draft.expiresAt trace ∨ ∃ record, RowOf made draft record ∧
      ∃ read : ReadRow config codec (request thread) (own thread trace) id record .takeOver,
        record.status = "in_progress" ∧
        staleAfter config * Instant.second < read.now - record.createdAt := by
  obtain ⟨record, ⟨read⟩⟩ := duly asking
  obtain ⟨upto, since, split, _⟩ := read.back
  obtain ⟨shelf, earlier, found, _⟩ := lookup_found (split ▸ run)
  have prior : upto <+: trace := ⟨_, split.symm⟩
  have rowOf := inserts.rowOf earlier empty fresh (prior.trans grown) found
  rcases verdict_takeOver read.verdict_eq with expired | stale
  · refine .inl ⟨thread, read.now, read.reading, ?_⟩
    simpa [rowOf.expires] using expired
  · exact .inr ⟨record, rowOf, read, stale⟩

/-- A cleanup that deletes the row comes after its time. -/
theorem Inserts.cleaned {thread : Thread} {clientId : Nat} {now : Instant} {row : RecordColumns}
    (rowOf : RowOf made draft row) (expired : row.expiresAt.any (· < now))
    (asking : Asking (handlers config codec depth request) trace thread (.cleanup clientId now)) :
    Passed draft.expiresAt trace := by
  refine ⟨thread, now, mem_own.mp (duly asking).2, ?_⟩
  simpa [rowOf.expires] using expired

/-- No response was written to the row of the id. -/
def Unstored (id : Nat) (trace : Log Thread) : Prop :=
  ∀ thread statusCode body, (thread, ⟨.complete id statusCode body, true⟩) ∉ trace

/-- The row of an insert waits for its response, or its time or its grace is over. -/
def Waiting (config : IdempotencyConfig) (made : Log Thread) (draft : Draft) (id : Nat)
    (opened : Instant) (trace : Log Thread) (shelf : Shelf) : Prop :=
  Passed draft.expiresAt trace ∨ Passed (opened + staleAfter config * Instant.second) trace ∨
    ∃ row, shelf.records.get? id = some row ∧ RowOf made draft row ∧ Unfinished row

/-- The row of an insert waits until a response is stored. The grace counts from
any reading before the insert. -/
theorem waiting (run : Served config codec depth request start trace last)
    (empty : start.records.ids = []) {reader : Thread} {opened : Instant}
    (read : (reader, ⟨.now, opened⟩) ∈ made) (fresh : FreshIds trace)
    (inserts : Inserts config codec request trace made maker draft id)
    (unstored : Unstored id trace) : Waiting config made draft id opened trace last := by
  revert fresh inserts unstored
  refine Interleaved.induct (motive := fun trace last => FreshIds trace →
    Inserts config codec request trace made maker draft id → Unstored id trace →
    Waiting config made draft id opened trace last) ?_ ?_ run
  · intro _ inserts
    cases inserts.member
  intro front thread event before after earlier held asking moved fresh inserts unstored
  have grown : front <+: front ++ [(thread, event)] := List.prefix_append _ _
  have stays {instant : Instant} (passed : Passed instant front) :
      Passed instant (front ++ [(thread, event)]) := passed.mono (List.prefix_append _ _)
  have upto : Served config codec depth request start (front ++ [(thread, event)]) after :=
    earlier.snoc asking moved
  -- a row that is unfinished afterwards is what is left to show
  suffices found : Passed draft.expiresAt front ∨
      Passed (opened + staleAfter config * Instant.second) front ∨
      ∃ row, after.records.get? id = some row ∧ Unfinished row by
    rcases found with passed | passed | ⟨row, found, unfinished⟩
    · exact .inl (stays passed)
    · exact .inr (.inl (stays passed))
    · refine .inr (.inr ⟨row, found, ?_, unfinished⟩)
      exact inserts.rowOf upto empty fresh (List.prefix_refl _) found
  have move := Shelf.row_move moved id
  rcases inserts.snoc with ⟨rfl, rfl⟩ | begun
  · generalize after.records.get? id = found at move
    cases move with
    | same untouched => exact absurd rfl untouched
    | created => exact .inr (.inr ⟨_, rfl, rfl, rfl⟩)
  rcases held (fresh.upto grown) begun fun _ _ _ stored => unstored _ _ _ (List.mem_append_left _ stored)
    with passed | passed | ⟨row, found, rowOf, unfinished⟩
  · exact .inl passed
  · exact .inr (.inl passed)
  generalize after.records.get? id = left at move ⊢
  cases move with
  | same => exact .inr (.inr ⟨row, found, unfinished⟩)
  | created none =>
    rw [found] at none
    cases none
  | deleted =>
    rcases begun.taken_over empty (fresh.upto grown) earlier (List.prefix_refl _) asking with
      passed | ⟨record, recordOf, again, _, late⟩
    · exact .inl passed
    · have since : opened ≤ record.createdAt := recordOf.created _ _ read
      refine .inr (.inl ⟨thread, again.now, again.reading, ?_⟩)
      exact (Int.add_le_add_right since _).trans_lt (lt_sub_iff_add_lt'.mp late)
  | expired there late =>
    rw [found] at there
    cases there
    exact .inl (Inserts.cleaned rowOf late asking)
  | stored => exact absurd (List.mem_append_right _ (List.mem_singleton_self _)) (unstored _ _ _)

/-- The row of a deleted record was read as it was, or as expired, or no response
was written to it since. -/
def Spared (config : IdempotencyConfig) (codec : Codec) (request : Thread → Incoming) (id : Nat)
    (trace : Log Thread) : Prop :=
  ∀ front thread back record upto since,
    trace = front ++ (thread, ⟨.delete id, true⟩) :: back →
    ∀ read : ReadRow config codec (request thread) (own thread front) id record .takeOver,
      front = upto ++ (thread, ⟨.lookup (request thread).clientId read.key,
        some (some (id, record))⟩) :: since → own thread since = [] →
      record.expiresAt.any (· < read.now) ∨ Unstored id since

theorem Spared.upto {more : Log Thread} (spared : Spared config codec request id more)
    (grown : trace <+: more) : Spared config codec request id trace := by
  obtain ⟨rest, rfl⟩ := grown
  rintro early thread later record seen since rfl
  exact spared early thread (later ++ rest) record seen since (by simp)

/-- The row of an insert holds the response, or its time is over. -/
def Stored (made : Log Thread) (draft : Draft) (id : Nat) (statusCode : Int) (body : String)
    (trace : Log Thread) (shelf : Shelf) : Prop :=
  Passed draft.expiresAt trace ∨
    ∃ row, shelf.records.get? id = some row ∧ RowOf made draft row ∧ Holds statusCode body row

/-- A handler writes a response to a row it inserted, and only once. -/
theorem completes (run : Served config codec depth request start
      (front ++ (thread, ⟨.complete id statusCode body, reply⟩) :: back) last) :
    (∃ draft, (thread, ⟨.insert draft, .row id⟩) ∈ front) ∧
      ∀ other statusCode body reply, (thread, ⟨.complete other statusCode body, reply⟩) ∉ front := by
  obtain ⟨_, _, _, _, _, _, asking⟩ := run.at
  obtain ⟨⟨draft, inserted⟩, first⟩ := duly asking
  refine ⟨⟨draft, mem_own.mp inserted⟩, fun other _ _ _ written => ?_⟩
  cases first _ (mem_own.mpr written)

theorem completes_mem (run : Served config codec depth request start trace last)
    (stored : (thread, ⟨.complete id statusCode body, reply⟩) ∈ trace) :
    ∃ draft, (thread, ⟨.insert draft, .row id⟩) ∈ trace := by
  obtain ⟨front, back, rfl⟩ := List.append_of_mem stored
  obtain ⟨⟨draft, inserted⟩, _⟩ := completes run
  exact ⟨draft, List.mem_append_left _ inserted⟩

/-- Once a response is stored in the row of an insert, it stays. -/
theorem stored (run : Served config codec depth request start trace last)
    (empty : start.records.ids = []) {front back : Log Thread} {thread : Thread} {statusCode : Int}
    {body : String} (split : trace = front ++ (thread, ⟨.complete id statusCode body, true⟩) :: back)
    (fresh : FreshIds trace) (inserts : Inserts config codec request trace made maker draft id)
    (spared : Spared config codec request id trace) :
    Stored made draft id statusCode body trace last := by
  revert back
  revert fresh inserts spared
  refine Interleaved.induct_upto (motive := fun trace last => FreshIds trace →
    Inserts config codec request trace made maker draft id → Spared config codec request id trace →
    ∀ {back}, trace = front ++ (thread, ⟨.complete id statusCode body, true⟩) :: back →
    Stored made draft id statusCode body trace last) ?_ ?_ run
  · intro _ inserts
    cases inserts.member
  intro whole other event before after earlier held asking moved fresh inserts spared back split
  have upto : Served config codec depth request start (whole ++ [(other, event)]) after :=
    earlier.snoc asking moved
  suffices found : Passed draft.expiresAt whole ∨
      ∃ row, after.records.get? id = some row ∧ Holds statusCode body row by
    rcases found with passed | ⟨row, found, holds⟩
    · exact .inl (passed.mono (List.prefix_append _ _))
    · refine .inr ⟨row, found, ?_, holds⟩
      exact inserts.rowOf upto empty fresh (List.prefix_refl _) found
  have move := Shelf.row_move moved id
  rcases split_cases split with ⟨rfl, same, _⟩ | ⟨middle, rfl, none⟩ | ⟨middle, inside, rfl⟩
  · cases same
    generalize after.records.get? id = found at move
    cases move with
    | same untouched => exact absurd ⟨rfl, rfl⟩ untouched
    | stored => exact .inr ⟨_, rfl, rfl, rfl, rfl⟩
  · simp at none
  obtain ⟨⟨own, ahead⟩, _⟩ := completes (inside ▸ earlier)
  have grown : whole <+: whole ++ [(other, event)] := List.prefix_append _ _
  have clean := fresh.upto grown
  have written : front ++ [(thread, ⟨.complete id statusCode body, true⟩)] <+: whole :=
    ⟨middle, by simp [inside]⟩
  have present : (thread, ⟨.insert own, .row id⟩) ∈
      front ++ [(thread, ⟨.complete id statusCode body, true⟩)] := List.mem_append_left _ ahead
  have begun := inserts.trim fresh grown (written.subset present)
  rcases held whole before (List.prefix_refl _) earlier clean begun (spared.upto grown) inside with
    passed | ⟨row, found, rowOf, holds⟩
  · exact .inl passed
  generalize after.records.get? id = left at move ⊢
  cases move with
  | same => exact .inr ⟨row, found, holds⟩
  | created none =>
    rw [found] at none
    cases none
  | expired there late =>
    rw [found] at there
    cases there
    exact .inl (Inserts.cleaned rowOf late asking)
  | stored there =>
    -- a second response would be written by the same handler
    obtain ⟨⟨draft', again⟩, first⟩ := duly asking
    obtain rfl := clean.maker (mem_own.mp again) (written.subset present)
    cases first _ (mem_own.mpr (written.subset (List.mem_append_right _ (List.mem_singleton_self _))))
  | deleted =>
    rcases begun.taken_over empty clean earlier (List.prefix_refl _) asking with
      passed | ⟨record, recordOf, read, unfinished, late⟩
    · exact .inl passed
    obtain ⟨seen, since, placed, quiet⟩ := read.back
    rcases spared whole other [] record seen since rfl read placed quiet with expired | unwritten
    · refine .inl ⟨other, read.now, read.reading, ?_⟩
      simpa [recordOf.expires] using expired
    rcases split_cases (inside.symm.trans placed) with ⟨_, same, _⟩ | ⟨gap, rfl, _⟩ | ⟨gap, _, rfl⟩
    · cases same
    · -- the record was read after the response was stored, so it shows it
      have prior : front ++ (thread, ⟨.complete id statusCode body, true⟩) :: gap <+: whole :=
        ⟨_, placed.symm⟩
      obtain ⟨shelf, ran, there, _⟩ := lookup_found (placed ▸ earlier)
      rcases held _ shelf prior ran (clean.upto prior)
        (begun.trim clean prior (List.mem_append_left _ ahead)) (spared.upto (prior.trans grown)) rfl
        with passed | ⟨row', found', _, holds'⟩
      · exact .inl (passed.mono prior)
      · rw [there] at found'
        cases found'
        exact absurd (holds'.status.symm.trans unfinished) (by decide)
    · exact absurd (List.mem_append_right _ List.mem_cons_self) (unwritten _ _ _)

end

/-- An upstream response to a created job. -/
def jobResponse : UpstreamResponse :=
  { statusCode := 200, headers := [("content-type", "application/json")]
    content := "\x7b\"id\":\"j\"\x7d".toUTF8.toList }

/-- What the library makes of that response; the digest is the digested text itself. -/
def jobCodec : Codec where
  sha256 := id
  dumps _ := "\x7b\"v\": 1, \"headers\": \x7b\"content-type\": \"application/json\"\x7d, \"body_b64\": \"eyJpZCI6ImoifQ==\"\x7d"
  loads _ := some (.obj [("v", .int 1), ("headers", .obj [("content-type", .str "application/json")]),
    ("body_b64", .str "eyJpZCI6ImoifQ==")])
  b64encode _ := "eyJpZCI6ImoifQ=="
  b64decode _ := some jobResponse.content
  pyStr
    | .str text => text
    | _ => ""

/-- A request of client 1 under the key `k`. -/
def jobRequest (endpoint : Endpoint) : Incoming :=
  { clientId := 1, idempotencyKey := some "k", endpoint, query := "", payload := .obj [("url", .str "u")] }

def emptyShelf : Shelf := ⟨0, .empty (Draft.row ⟨0, "", "", 0⟩ 0)⟩

/-- Two handlers in the order given, on an empty table. -/
def twoHandlers (config : IdempotencyConfig) (tick : Nat) (request : Bool → Incoming)
    (order : List Bool) : Log Bool × (Bool → Handler UpstreamResponse) × Shelf :=
  schedule (Shelf.answer tick (.ok jobResponse)) (handlers config jobCodec (fun _ => 4) request)
    emptyShelf order

theorem twoHandlers_served (config : IdempotencyConfig) (tick : Nat) (request : Bool → Incoming)
    (order : List Bool) : Served config jobCodec (fun _ => 4) request emptyShelf
      (twoHandlers config tick request order).1 (twoHandlers config tick request order).2.2 :=
  schedule_interleaved (Shelf.answer_honest tick _) order _ _

theorem twoHandlers_ran {config : IdempotencyConfig} {tick : Nat} {request : Bool → Incoming}
    {order : List Bool} {thread : Bool} {response : UpstreamResponse}
    (ended : (twoHandlers config tick request order).2.1 thread = .done response) :
    Ran (handlers config jobCodec (fun _ => 4) request thread)
      (own thread (twoHandlers config tick request order).1) (.ok response) := by
  have reached : Reaches (handlers config jobCodec (fun _ => 4) request thread)
      (own thread (twoHandlers config tick request order).1)
      ((twoHandlers config tick request order).2.1 thread) := schedule_reaches _ _ _ _ thread
  rw [ended] at reached
  exact reached

end FcamGateway.Idempotency
