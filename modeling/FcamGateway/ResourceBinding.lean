import FcamGateway.PyText
import FcamGateway.Session
import FcamGateway.Table

/-! Resource bindings: a job that a key created upstream is looked up by its id, so that later
requests for it use the same key. A binding is a row that is unique for its client, type and id;
an expired row goes when a lookup meets it. -/
namespace FcamGateway.ResourceBinding
open Prog

/-- The columns that are unique together. -/
structure Resource where
  clientId : Nat
  resourceType : String
  resourceId : String
deriving DecidableEq

/-- The columns of an `upstream_resource_bindings` row besides its id. -/
structure BindingColumns where
  clientId : Nat
  apiKeyId : Nat
  resourceType : String
  resourceId : String
  createdAt : Instant
  expiresAt : Option Instant
deriving DecidableEq

def BindingColumns.resource (row : BindingColumns) : Resource :=
  ⟨row.clientId, row.resourceType, row.resourceId⟩

/-- How the insert of a row ends. A conflict is an `IntegrityError`. -/
inductive Inserted where
  | row (id : Nat)
  | conflict
  | failed
deriving DecidableEq

/-- A question to the clock or the database. -/
inductive Op where
  | now
  | insert (row : BindingColumns)
  | find (resource : Resource)
  | extend (id : Nat) (expiresAt : Instant)
  | delete (id : Nat)

/-- The reply to a question. A query that raises replies `none`, and a failed commit `false`. -/
abbrev Reply : Op → Type
  | .now => Instant
  | .insert _ => Inserted
  | .find _ => Option (Option (Nat × BindingColumns))
  | .extend _ _ => Bool
  | .delete _ => Bool

abbrev Access := Prog Op Reply Exn

def ask (op : Op) : Access (Reply op) := Prog.query op

/-- `text[:n]`. -/
def firstChars (n : Nat) (text : String) : String := String.ofList (text.toList.take n)

/-- The resource that a lookup asks for. -/
structure Query where
  clientId : Nat
  resourceType : String
  resourceId : String

/-- `(resource_id or "").strip()`. -/
@[irreducible] def Query.rid (query : Query) : String := PyText.strip query.resourceId

/-- The resource that is meant. -/
def Query.resource (query : Query) : Resource :=
  ⟨query.clientId, query.resourceType, query.rid⟩

/-- The columns that stand for a resource. -/
def Resource.columns (resource : Resource) : Resource :=
  { resource with
    resourceType := firstChars 32 resource.resourceType
    resourceId := firstChars 128 resource.resourceId }

/-- What `bind_resource` is given besides the session. -/
structure BindCall extends Query where
  apiKeyId : Nat
  ttlSeconds : Option Int := none

/-- The expiry of a new binding, if it has one; the outer `none` is the `OverflowError`. -/
def expiry (now : Instant) (ttlSeconds : Option Int) : Option (Option Instant) :=
  match ttlSeconds with
  | none => some none
  | some seconds => if seconds = 0 then some none else (now.addSeconds? seconds).map some

def BindCall.row (call : BindCall) (now : Instant) (expiresAt : Option Instant) : BindingColumns :=
  let columns := call.resource.columns
  { clientId := columns.clientId, apiKeyId := call.apiKeyId, resourceType := columns.resourceType
    resourceId := columns.resourceId, createdAt := now, expiresAt }

/-- The expiry that a binding is extended to. -/
def extension (existing : BindingColumns) (expiresAt : Option Instant) : Option Instant :=
  expiresAt.filter fun new => existing.expiresAt.all (· < new)

/-- `bind_resource`. -/
def bindResource (call : BindCall) : Access Unit := do
  if call.rid = "" then return
  else
    let now ← ask .now
    match expiry now call.ttlSeconds with
    | none => .raise .other
    | some expiresAt =>
      match ← ask (.insert (call.row now expiresAt)) with
      | .row _ => return
      | .failed => return
      | .conflict =>
        match ← ask (.find call.resource.columns) with
        | none => .raise .other
        | some none => return
        | some (some (id, existing)) =>
          if existing.apiKeyId ≠ call.apiKeyId then return
          else
            match extension existing expiresAt with
            | none => return
            | some new =>
              let _ ← ask (.extend id new)

/-- `lookup_bound_key_id`. -/
def lookupBoundKeyId (query : Query) : Access (Option Nat) := do
  if query.rid = "" then return none
  else
    match ← ask (.find query.resource.columns) with
    | none => return none
    | some none => return none
    | some (some (id, record)) =>
      match record.expiresAt with
      | none => return some record.apiKeyId
      | some expiresAt =>
        let now ← ask .now
        if expiresAt < now then
          let _ ← ask (.delete id)
          return none
        else return some record.apiKeyId

/-- The table of bindings, with its unique constraint. -/
structure Bindings where
  rows : Table BindingColumns
  unique : ∀ {id other row same}, rows.get? id = some row → rows.get? other = some same →
    row.resource = same.resource → id = other

namespace Bindings

def found (bindings : Bindings) (resource : Resource) : Option (Nat × BindingColumns) :=
  bindings.rows.entries.find? fun entry => entry.2.resource = resource

/-- The row of a resource. -/
def held (bindings : Bindings) (resource : Resource) : Option BindingColumns :=
  (bindings.found resource).map Prod.snd

def empty : Bindings where
  rows := .empty ⟨0, 0, "", "", 0, none⟩
  unique found := nomatch Table.get_some.mp found

/-- Rows that are rows of the table, with the same unique columns, keep the constraint. -/
theorem unique_within {bindings : Bindings} {rows : Table BindingColumns}
    (within : ∀ id row, rows.get? id = some row →
      ∃ old, bindings.rows.get? id = some old ∧ old.resource = row.resource)
    {id other : Nat} {row same : BindingColumns} (first : rows.get? id = some row)
    (second : rows.get? other = some same) (alike : row.resource = same.resource) : id = other := by
  obtain ⟨one, there, own⟩ := within id row first
  obtain ⟨two, listed, others⟩ := within other same second
  exact bindings.unique there listed (own.trans (alike.trans others.symm))

/-- A new expiry for one row. -/
def extend (bindings : Bindings) (id : Nat) (expiresAt : Instant) : Bindings where
  rows := bindings.rows.modify id fun row => { row with expiresAt := some expiresAt }
  unique := by
    apply unique_within
    intro other row there
    rw [Table.get_modify] at there
    split at there
    · obtain ⟨old, listed, rfl⟩ := Option.map_eq_some_iff.mp there
      exact ⟨old, listed, rfl⟩
    · exact ⟨row, there, rfl⟩

def delete (bindings : Bindings) (id : Nat) : Bindings where
  rows := bindings.rows.delete fun other _ => other = id
  unique := by
    apply unique_within
    intro other row there
    rw [Table.get_delete] at there
    exact ⟨row, (Option.filter_eq_some_iff.mp there).1, rfl⟩

/-- At the instant given a working database may answer so, and holds the last rows afterwards. -/
def moves (now : Instant) (bindings : Bindings) : Event Op Reply → Bindings → Prop
  | ⟨.now, reply⟩, last => reply = now ∧ last = bindings
  | ⟨.insert row, .row id⟩, last => bindings.found row.resource = none ∧
    bindings.rows.insert? id row = some last.rows
  | ⟨.insert row, .conflict⟩, last => bindings.found row.resource ≠ none ∧ last = bindings
  | ⟨.insert _, .failed⟩, _ => False
  | ⟨.find resource, reply⟩, last => reply = some (bindings.found resource) ∧ last = bindings
  | ⟨.extend id expiresAt, reply⟩, last => reply = true ∧ last = bindings.extend id expiresAt
  | ⟨.delete id, reply⟩, last => reply = true ∧ last = bindings.delete id

variable {bindings last : Bindings} {resource : Resource} {id : Nat} {row : BindingColumns}
  {now expiresAt : Instant}

theorem found_some (there : bindings.found resource = some (id, row)) :
    bindings.rows.get? id = some row ∧ row.resource = resource := by
  have chosen := List.find?_some there
  exact ⟨Table.mem_entries.mp (List.mem_of_find?_eq_some there), of_decide_eq_true chosen⟩

theorem held_of_found (there : bindings.found resource = some (id, row)) :
    bindings.held resource = some row := congrArg (Option.map Prod.snd) there

theorem held_some : bindings.held resource = some row ↔
    ∃ id, bindings.rows.get? id = some row ∧ row.resource = resource := by
  constructor
  · intro held
    obtain ⟨⟨id, same⟩, there, rfl⟩ := Option.map_eq_some_iff.mp held
    exact ⟨id, found_some there⟩
  · rintro ⟨id, listed, rfl⟩
    cases there : bindings.found row.resource with
    | none =>
      have absent := List.find?_eq_none.mp there (id, row) (Table.mem_entries.mpr listed)
      exact absurd (decide_eq_true rfl) absent
    | some entry =>
      obtain ⟨other, same⟩ := entry
      obtain ⟨present, alike⟩ := found_some there
      obtain rfl := bindings.unique listed present alike.symm
      rw [held_of_found there]
      exact present.symm.trans listed

/-- Rows that are a resource's before and after. -/
theorem held_eq {value : Option BindingColumns}
    (same : ∀ row, (∃ id, last.rows.get? id = some row ∧ row.resource = resource) ↔
      value = some row) : last.held resource = value :=
  Option.ext fun _ => held_some.trans (same _)

theorem held_insert (free : bindings.held row.resource = none)
    (added : bindings.rows.insert? id row = some last.rows) (other : Resource) :
    last.held other = if other = row.resource then some row else bindings.held other := by
  apply held_eq
  intro listed
  constructor
  · rintro ⟨key, there, rfl⟩
    rw [Table.get_insert added] at there
    split at there
    · cases there
      exact if_pos rfl
    · have old := held_some.mpr ⟨key, there, rfl⟩
      rw [if_neg fun same => ?_]
      · exact old
      · rw [same, free] at old
        cases old
  · split
    · rintro ⟨⟩
      refine ⟨id, ?_, (‹other = _›).symm⟩
      rw [Table.get_insert added, if_pos rfl]
    · intro old
      obtain ⟨key, there, alike⟩ := held_some.mp old
      refine ⟨key, ?_, alike⟩
      rw [Table.get_insert added, if_neg fun same => ?_]
      · exact there
      · have present := (Table.insert_some added).1 key (Table.get_some.mp there).1
        exact absurd same (Nat.ne_of_lt present)

/-- A write to the row of a resource, which stays its row or goes. -/
theorem held_written {value : Option BindingColumns}
    (there : bindings.found resource = some (id, row))
    (written : ∀ other, last.rows.get? other = if other = id then value else bindings.rows.get? other)
    (kept : ∀ new, value = some new → new.resource = resource) (other : Resource) :
    last.held other = if other = resource then value else bindings.held other := by
  obtain ⟨present, same⟩ := found_some there
  apply held_eq
  intro listed
  constructor
  · rintro ⟨key, stands, rfl⟩
    rw [written] at stands
    split at stands
    · rw [if_pos (kept listed stands)]
      exact stands
    · rename_i apart
      rw [if_neg fun alike => apart (bindings.unique stands present (alike.trans same.symm))]
      exact held_some.mpr ⟨key, stands, rfl⟩
  · split
    · rename_i this
      intro new
      exact ⟨id, (written id).trans ((if_pos rfl).trans new), (kept listed new).trans this.symm⟩
    · rename_i apart
      intro old
      obtain ⟨key, stands, rfl⟩ := held_some.mp old
      refine ⟨key, (written key).trans ((if_neg ?_).trans stands), rfl⟩
      rintro rfl
      rw [present] at stands
      cases stands
      exact apart same

theorem held_extend (there : bindings.found resource = some (id, row)) (expiresAt : Instant)
    (other : Resource) : (bindings.extend id expiresAt).held other =
      if other = resource then some { row with expiresAt := some expiresAt }
      else bindings.held other := by
  obtain ⟨present, same⟩ := found_some there
  refine held_written there (fun key => ?_) ?_ other
  · rw [extend, Table.get_modify]
    split
    · rename_i this
      rw [this, present]
      rfl
    · rfl
  · rintro _ ⟨⟩
    exact same

theorem held_delete (there : bindings.found resource = some (id, row)) (other : Resource) :
    (bindings.delete id).held other =
      if other = resource then none else bindings.held other := by
  refine held_written there (fun key => ?_) ?_ other
  · rw [delete, Table.get_delete]
    by_cases same : key = id <;> cases bindings.rows.get? key <;> simp [same]
  · rintro _ ⟨⟩

/-- A row whose columns were free keeps the constraint. -/
theorem unique_insert {rows : Table BindingColumns} (free : bindings.found row.resource = none)
    (added : bindings.rows.insert? id row = some rows) {one two : Nat} {new same : BindingColumns}
    (first : rows.get? one = some new) (second : rows.get? two = some same)
    (alike : new.resource = same.resource) : one = two := by
  have apart (key : Nat) (old : BindingColumns) (listed : bindings.rows.get? key = some old) :
      old.resource ≠ row.resource := by
    intro shared
    have none : bindings.held row.resource = none := congrArg (Option.map _) free
    rw [held_some.mpr ⟨key, listed, shared⟩] at none
    cases none
  rw [Table.get_insert added] at first second
  split at first <;> split at second
  · exact (‹one = id›).trans (‹two = id›).symm
  · cases first
    exact absurd alike.symm (apart two same second)
  · cases second
    exact absurd alike (apart one new first)
  · exact bindings.unique first second alike

/-- A database that works. New rows take the key after the greatest one. -/
def answer (now : Instant) (bindings : Bindings) : (op : Op) → Reply op × Bindings
  | .now => (now, bindings)
  | .insert row =>
    if free : bindings.found row.resource = none then
      match added : bindings.rows.insert? bindings.rows.nextId row with
      | some rows => (.row bindings.rows.nextId, ⟨rows, unique_insert free added⟩)
      | none => (.failed, bindings)
    else (.conflict, bindings)
  | .find resource => (some (bindings.found resource), bindings)
  | .extend id expiresAt => (true, bindings.extend id expiresAt)
  | .delete id => (true, bindings.delete id)

theorem answer_honest (now : Instant) (bindings : Bindings) (op : Op) :
    moves now bindings ⟨op, (answer now bindings op).1⟩ (answer now bindings op).2 := by
  cases op with
  | now => exact ⟨rfl, rfl⟩
  | insert row =>
    obtain ⟨rows, added⟩ := Table.insert_nextId bindings.rows row
    simp only [answer]
    split
    · rename_i free
      split
      · exact ⟨free, ‹_›⟩
      · rename_i failed
        rw [added] at failed
        cases failed
    · exact ⟨‹_›, rfl⟩
  | find resource => exact ⟨rfl, rfl⟩
  | extend id expiresAt => exact ⟨rfl, rfl⟩
  | delete id => exact ⟨rfl, rfl⟩

/-- The surroundings of one call: a clock and a working database. -/
abbrev served (now : Instant) : Monitor Bindings Op Reply where
  demands _ _ := True
  moves := moves now

theorem wp_served {post : Except Exn Value → Bindings → Prop} (op : Op)
    {rest : Reply op → Access Value}
    (met : ∀ reply last, moves now bindings ⟨op, reply⟩ last →
      (rest reply).wp (served now) post last) :
    ((ask op).bind rest).wp (served now) post bindings :=
  ⟨trivial, met⟩

theorem wp_now {post : Except Exn Value → Bindings → Prop} {rest : Instant → Access Value}
    (met : (rest now).wp (served now) post bindings) :
    ((ask .now).bind rest).wp (served now) post bindings := by
  refine wp_served .now ?_
  rintro reply last ⟨same, unchanged⟩
  cases same
  cases unchanged
  exact met

theorem wp_find {post : Except Exn Value → Bindings → Prop} (resource : Resource)
    {rest : Option (Option (Nat × BindingColumns)) → Access Value}
    (met : (rest (some (bindings.found resource))).wp (served now) post bindings) :
    ((ask (.find resource)).bind rest).wp (served now) post bindings := by
  refine wp_served (.find resource) ?_
  rintro reply last ⟨same, unchanged⟩
  cases same
  cases unchanged
  exact met

end Bindings

/-- The row of a resource after a bind. -/
def settled (call : BindCall) (now : Instant) (expiresAt : Option Instant) :
    Option BindingColumns → BindingColumns
  | none => call.row now expiresAt
  | some existing =>
    if existing.apiKeyId ≠ call.apiKeyId then existing
    else
      match extension existing expiresAt with
      | none => existing
      | some new => { existing with expiresAt := some new }

/-- How a bind ends. -/
inductive Bound (call : BindCall) (now : Instant) (before after : Bindings) :
    Except Exn Unit → Prop where
  | blank (unnamed : call.rid = "") (same : after = before) : Bound call now before after (.ok ())
  | overflown (overdue : expiry now call.ttlSeconds = none) (same : after = before) :
      Bound call now before after (.error .other)
  | written (named : call.rid ≠ "") (expires : expiry now call.ttlSeconds = some expiresAt)
      (rows : ∀ other, after.held other =
        if other = call.resource.columns
        then some (settled call now expiresAt (before.held call.resource.columns))
        else before.held other) : Bound call now before after (.ok ())

/-- How a lookup ends. -/
inductive Looked (query : Query) (now : Instant) (before after : Bindings) :
    Except Exn (Option Nat) → Prop where
  | blank (unnamed : query.rid = "") (same : after = before) : Looked query now before after (.ok none)
  | missing (absent : before.held query.resource.columns = none) (same : after = before) :
      Looked query now before after (.ok none)
  | live (named : query.rid ≠ "") (there : before.held query.resource.columns = some row)
      (lasting : row.expiresAt.all (now ≤ ·) = true) (same : after = before) :
      Looked query now before after (.ok (some row.apiKeyId))
  | expired (there : before.held query.resource.columns = some row)
      (overdue : row.expiresAt.any (· < now) = true)
      (rows : ∀ other, after.held other =
        if other = query.resource.columns then none else before.held other) :
      Looked query now before after (.ok none)

open Bindings

theorem unwritten {bindings : Bindings} {call : BindCall} {row : BindingColumns}
    (there : bindings.held call.resource.columns = some row) (other : Resource) :
    bindings.held other = if other = call.resource.columns then some row else bindings.held other := by
  split
  · rename_i same
    rw [same, there]
  · rfl

theorem wp_bindResource (call : BindCall) (now : Instant) (bindings : Bindings) :
    (bindResource call).wp (served now)
    (fun outcome after => Bound call now bindings after outcome) bindings := by
  unfold bindResource
  split
  · rename_i unnamed
    exact Bound.blank unnamed rfl
  · rename_i named
    apply wp_now
    split
    · rename_i overdue
      exact Bound.overflown overdue rfl
    · rename_i expiresAt expires
      refine wp_served (.insert _) fun inserted middle moved => ?_
      cases inserted with
      | failed => exact moved.elim
      | row id =>
        obtain ⟨free, added⟩ := moved
        have none : bindings.held call.resource.columns = none := congrArg (Option.map _) free
        refine Bound.written named expires fun other => ?_
        rw [none]
        exact held_insert none added other
      | conflict =>
        obtain ⟨taken, unchanged⟩ := moved
        cases unchanged
        apply wp_find
        cases there : bindings.found call.resource.columns with
        | none => exact absurd there taken
        | some entry =>
          obtain ⟨id, existing⟩ := entry
          have stands := held_of_found there
          dsimp only
          split
          · rename_i other
            refine Bound.written named expires ?_
            rw [stands, settled, if_pos other]
            exact unwritten stands
          · rename_i same
            split
            · rename_i short
              refine Bound.written named expires ?_
              rw [stands, settled, if_neg same, short]
              exact unwritten stands
            · rename_i new longer
              refine wp_served (.extend id new) ?_
              rintro _ _ ⟨-, rfl⟩
              refine Bound.written named expires ?_
              rw [stands, settled, if_neg same, longer]
              exact held_extend there new

theorem wp_lookupBoundKeyId (query : Query) (now : Instant) (bindings : Bindings) :
    (lookupBoundKeyId query).wp (served now)
    (fun outcome after => Looked query now bindings after outcome) bindings := by
  unfold lookupBoundKeyId
  split
  · rename_i unnamed
    exact Looked.blank unnamed rfl
  · rename_i named
    apply wp_find
    cases there : bindings.found query.resource.columns with
    | none => exact Looked.missing (congrArg (Option.map _) there) rfl
    | some entry =>
      obtain ⟨id, record⟩ := entry
      have stands := held_of_found there
      dsimp only
      split
      · rename_i endless
        exact Looked.live named stands (by rw [endless]; rfl) rfl
      · rename_i expiresAt expires
        apply wp_now
        split
        · rename_i overdue
          refine wp_served (.delete id) ?_
          rintro _ _ ⟨-, rfl⟩
          refine Looked.expired stands ?_ (held_delete there)
          rw [expires]
          exact decide_eq_true overdue
        · rename_i lasting
          refine Looked.live named stands ?_ rfl
          rw [expires]
          exact decide_eq_true (not_lt.mp lasting)

end FcamGateway.ResourceBinding
