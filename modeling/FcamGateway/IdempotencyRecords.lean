import FcamGateway.Idempotency
import FcamGateway.Table

/-! The records as handlers side by side leave them, and what a handler asks after
its exchange so far. A new row may be given any id above the ids present, so the
id of a deleted row can come back. -/
namespace FcamGateway.Idempotency
open Prog

/-- The shared clock, which does not go back, and the table of records. -/
structure Shelf where
  clock : Instant
  records : Table RecordColumns

namespace Shelf

def taken (shelf : Shelf) (clientId : Nat) (key : String) : Option (Nat × RecordColumns) :=
  shelf.records.entries.find? fun entry =>
    entry.2.clientId = clientId && entry.2.idempotencyKey = key

def expired (clientId : Nat) (now : Instant) (columns : RecordColumns) : Bool :=
  columns.clientId = clientId && columns.expiresAt.any (· < now)

def completed (statusCode : Int) (body : String) (columns : RecordColumns) : RecordColumns :=
  { columns with
    status := "completed", responseStatusCode := some statusCode, responseBody := some body }

/-- The shelf may answer so, and stands in the last state afterwards. -/
def moves (shelf : Shelf) : Event Op Reply → Shelf → Prop
  | ⟨.now, reply⟩, last => shelf.clock ≤ reply ∧ last = { shelf with clock := reply }
  | ⟨.cleanup clientId now, _⟩, last => last = shelf ∨
    last = { shelf with records := shelf.records.delete fun _ row => expired clientId now row }
  | ⟨.insert draft, .row id⟩, last => shelf.taken draft.clientId draft.idempotencyKey = none ∧
    ∃ created records, shelf.clock ≤ created ∧
      shelf.records.insert? id (draft.row created) = some records ∧ last = ⟨created, records⟩
  | ⟨.refresh id, reply⟩, last => last = shelf ∧ (reply = true → id ∈ shelf.records.ids)
  | ⟨.lookup clientId key, reply⟩, last => last = shelf ∧
    (reply = none ∨ reply = some (shelf.taken clientId key))
  | ⟨.delete id, reply⟩, last =>
    (reply = true ∧ last = { shelf with records := shelf.records.delete fun other _ => other = id }) ∨
      (reply = false ∧ last = shelf)
  | ⟨.find id, reply⟩, last => last = shelf ∧ (reply = none ∨ reply = some (shelf.records.get? id))
  | ⟨.complete id statusCode body, reply⟩, last =>
    (reply = true ∧ id ∈ shelf.records.ids ∧
      last = { shelf with records := shelf.records.modify id (completed statusCode body) }) ∨
      (reply = false ∧ last = shelf)
  | _, last => last = shelf

theorem taken_some {shelf : Shelf} {clientId : Nat} {key : String} {id : Nat}
    {columns : RecordColumns} (found : shelf.taken clientId key = some (id, columns)) :
    shelf.records.get? id = some columns ∧ columns.clientId = clientId ∧
      columns.idempotencyKey = key := by
  have member := List.mem_of_find?_eq_some found
  have chosen := List.find?_some found
  simp only [Bool.and_eq_true, decide_eq_true_eq] at chosen
  exact ⟨Table.mem_entries.mp member, chosen⟩

theorem taken_none {shelf : Shelf} {clientId : Nat} {key : String}
    (none : shelf.taken clientId key = none) {id : Nat} {columns : RecordColumns}
    (found : shelf.records.get? id = some columns) :
    ¬(columns.clientId = clientId ∧ columns.idempotencyKey = key) := by
  rintro ⟨client, named⟩
  have absent := List.find?_eq_none.mp none (id, columns) (Table.mem_entries.mpr found)
  simp [client, named] at absent

/-- A shelf on which every statement succeeds, the clock advances by the same span at
each reading and the upstream always answers alike. -/
def answer (tick : Nat) (upstream : Except Exn UpstreamResponse) (shelf : Shelf) :
    (op : Op) → Reply op × Shelf
  | .now => (shelf.clock + tick, { shelf with clock := shelf.clock + tick })
  | .cleanup clientId now =>
    ((), { shelf with records := shelf.records.delete fun _ row => expired clientId now row })
  | .insert draft =>
    match shelf.taken draft.clientId draft.idempotencyKey,
      shelf.records.insert? shelf.records.nextId (draft.row shelf.clock) with
    | none, some records => (.row shelf.records.nextId, { shelf with records })
    | _, _ => (.conflict, shelf)
  | .refresh id => (decide (id ∈ shelf.records.ids), shelf)
  | .lookup clientId key => (some (shelf.taken clientId key), shelf)
  | .delete id => (true, { shelf with records := shelf.records.delete fun other _ => other = id })
  | .forward _ _ _ => (upstream, shelf)
  | .find id => (some (shelf.records.get? id), shelf)
  | .complete id statusCode body =>
    if id ∈ shelf.records.ids then
      (true, { shelf with records := shelf.records.modify id (completed statusCode body) })
    else (false, shelf)

theorem answer_honest (tick : Nat) (upstream : Except Exn UpstreamResponse) (shelf : Shelf)
    (op : Op) : shelf.moves ⟨op, (answer tick upstream shelf op).1⟩ (answer tick upstream shelf op).2 := by
  cases op with
  | now => exact ⟨Int.le_add_of_nonneg_right (Int.natCast_nonneg tick), rfl⟩
  | cleanup clientId now => exact .inr rfl
  | insert draft =>
    simp only [answer]
    split
    · rename_i free added
      exact ⟨free, shelf.clock, _, Int.le_refl _, added, rfl⟩
    · rfl
  | refresh id => exact ⟨rfl, fun found => of_decide_eq_true found⟩
  | lookup clientId key => exact ⟨rfl, .inr rfl⟩
  | delete id => exact .inl ⟨rfl, rfl⟩
  | forward method path body => rfl
  | find id => exact ⟨rfl, .inr rfl⟩
  | complete id statusCode body =>
    simp only [answer]
    split
    · exact .inl ⟨rfl, ‹_›, rfl⟩
    · exact .inr ⟨rfl, rfl⟩

end Shelf

/-- The record a request inserts. -/
def Incoming.draft (request : Incoming) (codec : Codec) (key : String) (expiresAt : Instant) : Draft :=
  { clientId := request.clientId, idempotencyKey := key, requestHash := request.hash codec, expiresAt }

/-- The handler of each thread. -/
def handlers {Thread : Type} (config : IdempotencyConfig) (codec : Codec) (depth : Thread → Nat)
    (request : Thread → Incoming) (thread : Thread) : Handler UpstreamResponse :=
  handle config codec (depth thread) (request thread)

abbrev Exchange := List (Event Op Reply)

/-- The row an event inserted. -/
def insertedRow : Event Op Reply → Option (Draft × Nat)
  | ⟨.insert draft, .row id⟩ => some (draft, id)
  | _ => none

/-- The row an event tried to write a response to. -/
def completedRow : Event Op Reply → Option Nat
  | ⟨.complete id _ _, _⟩ => some id
  | _ => none

/-- No event has inserted a row or written a response. -/
def Fruitless (events : Exchange) : Prop :=
  ∀ event ∈ events, insertedRow event = none ∧ completedRow event = none

section

variable (config : IdempotencyConfig) (codec : Codec) (request : Incoming)

/-- A round of `start_or_replay` up to its insert. -/
def opening (key : String) (now expiresAt : Instant) (inserted : Inserted) : Exchange :=
  [⟨.now, now⟩, ⟨.cleanup request.clientId now, ()⟩,
    ⟨.insert (request.draft codec key expiresAt), inserted⟩]

/-- What a round is opened with, after rounds that inserted nothing. -/
structure Opened (earlier : Exchange) (key : String) (now expiresAt : Instant) : Prop where
  fruitless : Fruitless earlier
  claimed : request.claimedKey config = some key
  expires : now.addSeconds? (max config.ttlSeconds 1) = some expiresAt

/-- A round whose insert met the row of its key, read as the record given. -/
structure ReadRow (events : Exchange) (id : Nat) (record : RecordColumns) (decided : Verdict) where
  earlier : Exchange
  key : String
  now : Instant
  expiresAt : Instant
  opened : Opened config request earlier key now expiresAt
  whole : events = earlier ++ (opening codec request key now expiresAt .conflict ++
    [⟨.lookup request.clientId key, some (some (id, record))⟩])
  verdict_eq : verdict config now (request.hash codec) record = decided

/-- What a handler may ask after its exchange so far. -/
def Duly (events : Exchange) : Op → Prop
  | .now => Fruitless events
  | .cleanup clientId now => clientId = request.clientId ∧ ⟨.now, now⟩ ∈ events
  | .insert draft => ∃ earlier key now expiresAt, Opened config request earlier key now expiresAt ∧
    draft = request.draft codec key expiresAt ∧
    events = earlier ++ [⟨.now, now⟩, ⟨.cleanup request.clientId now, ()⟩]
  | .lookup clientId key => clientId = request.clientId ∧ request.claimedKey config = some key
  | .delete id => ∃ record, Nonempty (ReadRow config codec request events id record .takeOver)
  | .forward _ _ _ => ∀ key, request.claimedKey config = some key →
    ∃ draft id, ⟨.insert draft, .row id⟩ ∈ events
  | .find id => ∃ draft, ⟨.insert draft, .row id⟩ ∈ events
  | .complete id _ _ => (∃ draft, ⟨.insert draft, .row id⟩ ∈ events) ∧
    ∀ event ∈ events, completedRow event = none
  | _ => True

/-- A statement of the start that failed. -/
def Broken : Event Op Reply → Prop
  | ⟨.insert _, reply⟩ => reply = .failed
  | ⟨.refresh _, reply⟩ => reply = false
  | ⟨.lookup _ _, reply⟩ => reply = none ∨ reply = some none
  | ⟨.delete _, reply⟩ => reply = false
  | _ => False

instance : DecidablePred Broken
  | ⟨.insert _, reply⟩ => inferInstanceAs (Decidable (reply = .failed))
  | ⟨.refresh _, reply⟩ => inferInstanceAs (Decidable (reply = false))
  | ⟨.lookup _ _, reply⟩ => inferInstanceAs (Decidable (reply = none ∨ reply = some none))
  | ⟨.delete _, reply⟩ => inferInstanceAs (Decidable (reply = false))
  | ⟨.now, _⟩ | ⟨.cleanup _ _, _⟩ | ⟨.forward _ _ _, _⟩ | ⟨.find _, _⟩ | ⟨.complete _ _ _, _⟩ =>
    inferInstanceAs (Decidable False)

/-- How `start_or_replay` ends, by its exchange. -/
inductive Started (depth : Nat) :
    Exchange → Except Exn (Option Nat × Option UpstreamResponse) → Prop where
  | unclaimed : request.claimedKey config = none → Started depth events (.ok (none, none))
  | keyless : request.claimedKey config = none → Started depth events (.error (.fcam keyRequired))
  | created {id : Nat} : Opened config request earlier key now expiresAt →
      Started depth (earlier ++ (opening codec request key now expiresAt (.row id) ++
        [⟨.refresh id, true⟩])) (.ok (some id, none))
  | replayed {id : Nat} : ReadRow config codec request events id record (.replay statusCode body) →
      deserializeResponse codec statusCode body = some response →
      Started depth events (.ok (none, some response))
  | unreadable {id : Nat} : ReadRow config codec request events id record (.replay statusCode body) →
      deserializeResponse codec statusCode body = none →
      Started depth events (.error (.fcam invalidRecord))
  | conflict {id : Nat} : ReadRow config codec request events id record .conflict →
      Started depth events (.error (.fcam keyConflict))
  | busy {id : Nat} : ReadRow config codec request events id record .busy →
      Started depth events (.error (.fcam inProgress))
  | broken {event : Event Op Reply} : Broken event → Started depth (events ++ [event]) (.error error)
  | overflown : now.addSeconds? (max config.ttlSeconds 1) = none →
      Started depth (events ++ [⟨.now, now⟩, ⟨.cleanup request.clientId now, ()⟩]) (.error .other)
  | unused : depth = 0 → Started depth [] (.error .other)
  | exhausted {id : Nat} : Started depth (events ++ [⟨.delete id, true⟩]) (.error .other)

variable {config codec request}

theorem Fruitless.snoc {events : Exchange} (fruitless : Fruitless events) {event : Event Op Reply}
    (one : insertedRow event = none) (two : completedRow event = none) :
    Fruitless (events ++ [event]) := by
  intro other member
  rcases List.mem_append.mp member with earlier | last
  · exact fruitless other earlier
  · cases List.mem_singleton.mp last
    exact ⟨one, two⟩

abbrev checked (config : IdempotencyConfig) (codec : Codec) (request : Incoming) :
    Monitor Exchange Op Reply :=
  .checking (Duly config codec request)

private theorem wp_next {post : Except Exn Value → Exchange → Prop} {seen : Exchange} (op : Op)
    {rest : Reply op → Handler Value} (duly : Duly config codec request seen op)
    (met : ∀ reply, (rest reply).wp (checked config codec request) post (seen ++ [⟨op, reply⟩])) :
    ((ask op).bind rest).wp (checked config codec request) post seen :=
  (wp_check op _).mpr ⟨duly, met⟩

theorem wp_startOrReplay (top depth : Nat) {seen : Exchange} (fruitless : Fruitless seen)
    (last : top = depth ∧ seen = [] ∨ ∃ front id, seen = front ++ [⟨.delete id, true⟩]) :
    (startOrReplay config codec request depth).wp (checked config codec request)
      (fun outcome events => Started config codec request top events outcome) seen := by
  induction depth generalizing seen with
  | zero =>
    rcases last with ⟨rfl, rfl⟩ | ⟨front, id, rfl⟩
    · exact Started.unused rfl
    · exact Started.exhausted
  | succ depth ih =>
    simp only [startOrReplay, bind_eq, pure_eq]
    split
    · rename_i off
      exact Started.unclaimed (by simp_all [Incoming.claimedKey])
    split
    · rename_i claimed
      split
      · exact Started.keyless claimed
      · exact Started.unclaimed claimed
    · rename_i key claimed
      refine wp_next .now fruitless fun now => ?_
      refine wp_next (.cleanup request.clientId now) ⟨rfl, by simp⟩ fun _ => ?_
      split
      · rename_i overflow
        have whole : Started config codec request top (seen ++ _) _ := .overflown overflow
        simpa using whole
      rename_i expiresAt expires
      have opened : Opened config request seen key now expiresAt := ⟨fruitless, claimed, expires⟩
      refine wp_next (.insert (request.draft codec key expiresAt))
        ⟨seen, key, now, expiresAt, opened, rfl, by simp⟩ fun inserted => ?_
      cases inserted with
      | failed => exact Started.broken rfl
      | row id =>
        refine wp_next (.refresh id) trivial fun found => ?_
        cases found with
        | false => exact Started.broken rfl
        | true =>
          have whole : Started config codec request top _ (.ok (some id, none)) := .created opened
          simpa [opening] using whole
      | conflict =>
        refine wp_next (.lookup request.clientId key) ⟨rfl, claimed⟩ fun found => ?_
        rcases found with _ | _ | ⟨id, record⟩
        · exact Started.broken (.inl rfl)
        · exact Started.broken (.inr rfl)
        have read {decided : Verdict} (same : verdict config now (request.hash codec) record = decided) :
            ReadRow config codec request (seen ++ [⟨.now, now⟩] ++
              [⟨.cleanup request.clientId now, ()⟩] ++
              [⟨.insert (request.draft codec key expiresAt), .conflict⟩] ++
              [⟨.lookup request.clientId key, some (some (id, record))⟩]) id record decided :=
          ⟨seen, key, now, expiresAt, opened, by simp [opening], same⟩
        dsimp only
        split <;> rename_i decided
        · refine wp_next (.delete id) ⟨record, ⟨read decided⟩⟩ fun deleted => ?_
          cases deleted with
          | false => exact Started.broken rfl
          | true =>
            refine ih ?_ (.inr ⟨_, id, rfl⟩)
            exact ((((fruitless.snoc rfl rfl).snoc rfl rfl).snoc rfl rfl).snoc rfl rfl).snoc rfl rfl
        · exact Started.conflict (read decided)
        · split <;> rename_i stored
          · exact Started.replayed (read decided) stored
          · exact Started.unreadable (read decided) stored
        · exact Started.busy (read decided)

/-- A handler that goes on to forward with a row has inserted it. -/
theorem Started.owned {depth id : Nat} {events : Exchange}
    (started : Started config codec request depth events (.ok (some id, none))) :
    (∃ draft, ⟨.insert draft, .row id⟩ ∈ events) ∧ ∀ event ∈ events, completedRow event = none := by
  cases started with
  | created opened =>
    rename_i earlier key now expiresAt
    refine ⟨⟨request.draft codec key expiresAt, by simp [opening]⟩, ?_⟩
    intro event member
    simp only [opening, List.mem_append, List.mem_cons, List.not_mem_nil, or_false] at member
    rcases member with earlier | (rfl | rfl | rfl) | rfl
    · exact (opened.fruitless event earlier).2
    · rfl
    · rfl
    · rfl
    · rfl

end

section

variable (config : IdempotencyConfig) (codec : Codec) (request : Incoming)

/-- Only requests to the upstream. -/
def Forwards (events : Exchange) : Prop :=
  ∀ event ∈ events, ∃ method path body reply, event = ⟨.forward method path body, reply⟩

/-- What `complete` does with the row of a handler. -/
inductive Finished (id : Nat) (response : UpstreamResponse) : Exchange → Prop where
  | unread : Finished id response [⟨.find id, none⟩]
  | gone : Finished id response [⟨.find id, some none⟩]
  | tooLarge : serializeResponse codec response (max config.maxResponseBytes 1) = .error error →
      Finished id response [⟨.find id, some (some row)⟩]
  | written : serializeResponse codec response (max config.maxResponseBytes 1) =
        .ok (statusCode, body) →
      Finished id response [⟨.find id, some (some row)⟩, ⟨.complete id statusCode body, reply⟩]

/-- How a handler ends, by its exchange. -/
inductive Handled (depth : Nat) : Exchange → Except Exn UpstreamResponse → Prop where
  | unclaimed : request.claimedKey config = none → Handled depth events outcome
  | stopped : Started config codec request depth events (.error error) →
      Handled depth events (.error error)
  | replayed : Started config codec request depth events (.ok (ctx, some response)) →
      Handled depth events (.ok response)
  | failed {id : Nat} : Started config codec request depth start (.ok (some id, none)) →
      Forwards more → Handled depth (start ++ more) (.error error)
  | created {id : Nat} : Started config codec request depth start (.ok (some id, none)) →
      Forwards more → Finished config codec id response tail →
      Handled depth (start ++ (more ++ tail)) (.ok response)

variable {config codec request}

theorem wp_forwardTo {post : Except Exn UpstreamResponse → Exchange → Prop} {seen : Exchange}
    (path : String) (payload : Json) (duly : Duly config codec request seen (.forward "POST" path payload))
    (ended : ∀ outcome, post outcome (seen ++ [⟨.forward "POST" path payload, outcome⟩])) :
    (forwardTo path payload).wp (checked config codec request) post seen := by
  refine wp_next _ duly fun reply => ?_
  cases reply <;> exact ended _

theorem wp_forwardRequest {post : Except Exn UpstreamResponse → Exchange → Prop} {seen : Exchange}
    (duly : ∀ more path, Duly config codec request (seen ++ more)
      (.forward "POST" path request.payload))
    (ended : ∀ outcome more, Forwards more → post outcome (seen ++ more)) :
    (forwardRequest request).wp (checked config codec request) post seen := by
  refine (wp_bind _).mpr (wp_forwardTo _ _ (by simpa using duly [] _) fun outcome => ?_)
  have sent : Forwards [⟨.forward "POST" (request.endpoint.primaryPath request.query)
      request.payload, outcome⟩] := by
    intro event member
    cases List.mem_singleton.mp member
    exact ⟨_, _, _, _, rfl⟩
  cases outcome with
  | error error => exact ended _ _ sent
  | ok response =>
    simp only [thenPost]
    split
    · exact ended _ _ sent
    · split
      · refine wp_forwardTo _ _ (duly _ _) fun outcome => ?_
        rw [List.append_assoc]
        refine ended _ _ fun event member => ?_
        rcases List.mem_append.mp member with first | second
        · exact sent event first
        · cases List.mem_singleton.mp second
          exact ⟨_, _, _, _, rfl⟩
      · exact ended _ _ sent

theorem wp_complete {post : Except Exn Unit → Exchange → Prop} {seen : Exchange} {id : Nat}
    (response : UpstreamResponse) (enabled : config.enabled = true)
    (owned : ∃ draft, ⟨.insert draft, .row id⟩ ∈ seen)
    (duly : ∀ row statusCode body, Duly config codec request (seen ++ [⟨.find id, row⟩])
      (.complete id statusCode body))
    (ended : ∀ tail, Finished config codec id response tail → post (.ok ()) (seen ++ tail)) :
    (complete config codec (some id) response).wp (checked config codec request) post seen := by
  simp only [complete, enabled, Bool.not_true, Bool.false_eq_true, if_false, bind_eq, pure_eq]
  refine wp_next (.find id) owned fun found => ?_
  rcases found with _ | _ | row
  · exact ended _ .unread
  · exact ended _ .gone
  · dsimp only
    split
    · rename_i large
      exact ended _ (.tooLarge large)
    · rename_i stored
      refine wp_next _ (duly _ _ _) fun written => ?_
      rw [List.append_assoc]
      exact ended _ (.written stored)

theorem wp_handle (depth : Nat) :
    (handle config codec depth request).wp (checked config codec request)
      (fun outcome events => Handled config codec request depth events outcome) [] := by
  refine (wp_bind _).mpr (wp_mono ?_ (wp_startOrReplay depth depth nofun (.inl ⟨rfl, rfl⟩)))
  rintro (error | ⟨ctx, replay⟩) start started
  · exact .stopped started
  cases replay with
  | some response => exact Handled.replayed started
  | none =>
    refine (wp_bind _).mpr ?_
    cases ctx with
    | none =>
      have unclaimed : request.claimedKey config = none := by
        cases started with
        | unclaimed none => exact none
      refine wp_forwardRequest (fun more path key claimed => ?_) fun outcome more _ => ?_
      · rw [unclaimed] at claimed
        cases claimed
      · cases outcome <;> exact Handled.unclaimed unclaimed
    | some id =>
      obtain ⟨⟨draft, inserted⟩, clean⟩ := started.owned
      have enabled : config.enabled = true := by
        cases started with
        | created opened =>
          have claimed := opened.claimed
          simp only [Incoming.claimedKey] at claimed
          split at claimed
          · assumption
          · cases claimed
      refine wp_forwardRequest (fun more path key _ => ?_) fun outcome more forwards => ?_
      · exact ⟨draft, id, List.mem_append_left _ inserted⟩
      · cases outcome with
        | error error => exact Handled.failed started forwards
        | ok response =>
          refine (wp_bind _).mpr (wp_complete response enabled
            ⟨draft, List.mem_append_left _ inserted⟩ (fun row statusCode body => ?_) ?_)
          · refine ⟨⟨draft, by simp [inserted]⟩, fun event member => ?_⟩
            simp only [List.mem_append, List.mem_singleton] at member
            rcases member with (first | sent) | rfl
            · exact clean event first
            · obtain ⟨_, _, _, _, rfl⟩ := forwards event sent
              rfl
            · rfl
          · intro tail finished
            rw [List.append_assoc]
            exact Handled.created started forwards finished

/-- What a handler ends with after its decision on the record it read. -/
def ending (codec : Codec) : Verdict → Option (Except Exn UpstreamResponse)
  | .takeOver => none
  | .conflict => some (.error (.fcam keyConflict))
  | .replay statusCode body =>
    match deserializeResponse codec statusCode body with
    | some response => some (.ok response)
    | none => some (.error (.fcam invalidRecord))
  | .busy => some (.error (.fcam inProgress))

theorem ReadRow.last {events : Exchange} {id : Nat} {record : RecordColumns} {decided : Verdict}
    (read : ReadRow config codec request events id record decided) : ∃ key,
      events.getLast? = some ⟨.lookup request.clientId key, some (some (id, record))⟩ := by
  obtain ⟨earlier, key, now, expiresAt, _, whole, _⟩ := read
  refine ⟨key, ?_⟩
  rw [whole, ← List.append_assoc]
  exact List.getLast?_concat

/-- A handler that has read a record has inserted none. -/
theorem ReadRow.unmade {events : Exchange} {id : Nat} {record : RecordColumns} {decided : Verdict}
    (read : ReadRow config codec request events id record decided) (draft : Draft) (row : Nat) :
    ⟨.insert draft, .row row⟩ ∉ events := by
  obtain ⟨earlier, key, now, expiresAt, opened, rfl, _⟩ := read
  intro inserted
  simp only [opening, List.mem_append, List.mem_cons, List.not_mem_nil, or_false] at inserted
  rcases inserted with before | (same | same | same) | same
  · cases (opened.fruitless _ before).1
  · cases same
  · cases same
  · cases same
  · cases same

/-- The row a handler goes on with is the one it inserted. -/
theorem Started.only {depth id row : Nat} {start more tail : Exchange} {draft : Draft}
    {response : UpstreamResponse}
    (started : Started config codec request depth start (.ok (some id, none)))
    (forwards : Forwards more) (finished : Finished config codec id response tail)
    (inserted : ⟨.insert draft, .row row⟩ ∈ start ++ (more ++ tail)) : row = id := by
  rcases List.mem_append.mp inserted with opening | later
  · cases started with | created opened =>
    simp only [Idempotency.opening, List.mem_append, List.mem_cons, List.not_mem_nil,
      or_false] at opening
    rcases opening with before | (same | same | same) | same
    · cases (opened.fruitless _ before).1
    · cases same
    · cases same
    · cases same
      rfl
    · cases same
  rcases List.mem_append.mp later with sent | last
  · obtain ⟨_, _, _, _, same⟩ := forwards _ sent
    cases same
  · cases finished <;> simp at last

/-- An exchange ends with at most one read. -/
theorem ReadRow.unique {events : Exchange} {id id' : Nat} {record record' : RecordColumns}
    {decided decided' : Verdict} (one : ReadRow config codec request events id record decided)
    (other : ReadRow config codec request events id' record' decided') : decided = decided' := by
  obtain ⟨earlier, key, now, expiresAt, _, whole, rfl⟩ := one
  obtain ⟨earlier', key', now', expiresAt', _, again, rfl⟩ := other
  obtain ⟨_, same⟩ := List.append_inj' (whole.symm.trans again) rfl
  simp only [opening, List.cons_append, List.nil_append, List.cons.injEq, Event.mk.injEq] at same
  obtain ⟨⟨_, now⟩, _, _, ⟨_, found⟩, _⟩ := same
  cases now
  cases found
  rfl

/-- A handler that returns a response without a row of its own replays a record. -/
theorem Handled.answered {depth : Nat} {events : Exchange} {response : UpstreamResponse}
    (handled : Handled config codec request depth events (.ok response))
    (claimed : request.claimedKey config ≠ none)
    (unmade : ∀ draft id, ⟨.insert draft, .row id⟩ ∉ events) : ∃ id record statusCode body,
      Nonempty (ReadRow config codec request events id record (.replay statusCode body)) ∧
        deserializeResponse codec statusCode body = some response := by
  cases handled with
  | unclaimed none => exact absurd none claimed
  | replayed started =>
    cases started with
    | replayed read found => exact ⟨_, _, _, _, ⟨read⟩, found⟩
  | created started _ _ =>
    obtain ⟨⟨draft, inserted⟩, _⟩ := started.owned
    exact absurd (List.mem_append_left _ inserted) (unmade draft _)

theorem Forwards.last {events : Exchange} (forwards : Forwards events) : events = [] ∨
    ∃ front method path body reply, events = front ++ [⟨.forward method path body, reply⟩] := by
  rcases List.eq_nil_or_concat events with none | ⟨front, event, rfl⟩
  · exact .inl none
  · obtain ⟨method, path, body, reply, rfl⟩ := forwards event (by simp)
    exact .inr ⟨front, method, path, body, reply, List.concat_eq_append⟩

/-- A handler that has just read a record ends as it decides on it. -/
theorem Handled.read {depth : Nat} {events : Exchange} {outcome : Except Exn UpstreamResponse}
    {id : Nat} {record : RecordColumns} {decided : Verdict}
    (handled : Handled config codec request depth events outcome)
    (read : ReadRow config codec request events id record decided) :
    ending codec decided = some outcome := by
  obtain ⟨key, last⟩ := read.last
  cases handled with
  | unclaimed none =>
    rw [read.opened.claimed] at none
    cases none
  | stopped started =>
    cases started with
    | keyless none =>
      rw [read.opened.claimed] at none
      cases none
    | unreadable again unread =>
      obtain rfl := again.unique read
      simp [ending, unread]
    | conflict again =>
      obtain rfl := again.unique read
      rfl
    | busy again =>
      obtain rfl := again.unique read
      rfl
    | broken broken =>
      rw [List.getLast?_concat] at last
      obtain rfl := Option.some.inj last
      rcases broken with none | none <;> cases none
    | overflown _ => simp at last
    | unused _ => simp at last
    | exhausted => simp at last
  | replayed started =>
    cases started with
    | replayed again found =>
      obtain rfl := again.unique read
      simp [ending, found]
  | failed started forwards =>
    cases started with | created opened =>
    rcases forwards.last with rfl | ⟨_, _, _, _, _, rfl⟩
    · simp at last
    · rw [← List.append_assoc, List.getLast?_concat] at last
      cases last
  | created started forwards finished => cases finished <;> simp [List.getLast?_append] at last

end

end FcamGateway.Idempotency
