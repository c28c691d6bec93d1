import FcamGateway.IdempotencyOnce
import FcamGateway.IdempotencyOwnership
import FcamGateway.IdempotencyReplay
import FcamGateway.IdempotencyRounds

/-! Calls on the records one after the other: once a response is stored for a client's key, a call
with the same request is answered with it until the record expires, a call with another request is
refused, and after that the key is free again. -/
namespace FcamGateway.Idempotency
open Prog

set_option linter.unusedSectionVars false

/-- A call on the records. -/
inductive Act where
  | start (request : Incoming)
  | complete (ctx : Option Nat) (response : UpstreamResponse)

/-- A call that is over. -/
structure Past where
  act : Act
  events : Exchange
  outcome : Except Exn (Option Nat × Option UpstreamResponse)

def Act.program (config : IdempotencyConfig) (codec : Codec) (depth : Nat) :
    Act → Handler (Option Nat × Option UpstreamResponse)
  | .start request => startOrReplay config codec request depth
  | .complete ctx response => do
    Idempotency.complete config codec ctx response
    return (none, none)

/-- Calls one after the other on the shared shelf. -/
inductive Sequential (config : IdempotencyConfig) (codec : Codec) (depth : Nat) :
    Shelf → List Past → Shelf → Prop where
  | nil : Sequential config codec depth shelf [] shelf
  | cons (ran : (call.act.program config codec depth).Ran call.events call.outcome)
      (followed : Follows Shelf.moves before call.events middle)
      (rest : Sequential config codec depth middle more last) :
      Sequential config codec depth before (call :: more) last

/-- When a call first reads the clock. -/
def calledAt (events : Exchange) : Option Instant := events.findSome? reading

/-- Requests for one idempotency key of one client. -/
structure Paired (config : IdempotencyConfig) (one other : Incoming) : Prop where
  client : one.clientId = other.clientId
  key : one.claimedKey config = other.claimedKey config

/-- A claimed pair: its record's id, expiry and fingerprint. -/
structure Slot where
  clientId : Nat
  key : String
  id : Nat
  expiresAt : Instant
  requestHash : String

/-- Until the slot expires its record is in the table, and no other record is the pair's. -/
structure Claimed (slot : Slot) (holds : RecordColumns → Prop) (shelf : Shelf) : Prop where
  alone : ∀ other row, shelf.records.get? other = some row → row.clientId = slot.clientId →
    row.idempotencyKey = slot.key → other = slot.id ∧ row.expiresAt = some slot.expiresAt
  stands : shelf.clock ≤ slot.expiresAt → ∃ row, shelf.records.get? slot.id = some row ∧
    row.clientId = slot.clientId ∧ row.idempotencyKey = slot.key ∧
    row.requestHash = slot.requestHash ∧ holds row

variable {config : IdempotencyConfig} {codec : Codec} {depth : Nat} {request : Incoming}
  {key : String} {slot : Slot} {holds : RecordColumns → Prop} {shelf before middle after last : Shelf}
  {now expiresAt created : Instant} {id clientId : Nat} {events : Exchange}
  {row record : RecordColumns}

theorem Claimed.found (claimed : Claimed slot holds shelf) (alive : shelf.clock ≤ slot.expiresAt) :
    ∃ row, shelf.taken slot.clientId slot.key = some (slot.id, row) ∧
      row.requestHash = slot.requestHash ∧ row.expiresAt = some slot.expiresAt ∧ holds row := by
  obtain ⟨row, there, client, named, hash, held⟩ := claimed.stands alive
  obtain ⟨-, dated⟩ := claimed.alone slot.id row there client named
  cases found : shelf.taken slot.clientId slot.key with
  | none => exact absurd ⟨client, named⟩ (Shelf.taken_none found there)
  | some entry =>
    obtain ⟨other, same⟩ := entry
    obtain ⟨listed, own, alike⟩ := Shelf.taken_some found
    obtain ⟨rfl, -⟩ := claimed.alone other same listed own alike
    cases there.symm.trans listed
    exact ⟨row, rfl, hash, dated, held⟩

/-- Time goes on. -/
theorem Claimed.later (claimed : Claimed slot holds shelf) (later : shelf.clock ≤ now) :
    Claimed slot holds { shelf with clock := now } where
  alone := claimed.alone
  stands alive := claimed.stands (later.trans alive)

/-- A cleanup spares the record until it has expired. -/
theorem Claimed.swept (claimed : Claimed slot holds before)
    (swept : Swept clientId now before after) : Claimed slot holds after := by
  cases swept with
  | kept notBefore => exact claimed.later notBefore
  | cleaned notBefore =>
    refine ⟨fun other row there => ?_, fun alive => ?_⟩
    · rw [Table.get_delete] at there
      exact claimed.alone other row (Option.filter_eq_some_iff.mp there).1
    · obtain ⟨row, there, client, named, rest⟩ := claimed.stands (notBefore.trans alive)
      obtain ⟨-, dated⟩ := claimed.alone slot.id row there client named
      refine ⟨row, ?_, client, named, rest⟩
      rw [Table.get_delete, there]
      have spared : Shelf.expired clientId now row = false := by
        have notOver : ¬ slot.expiresAt < now := not_lt.mpr alive
        simp [Shelf.expired, dated, notOver]
      simp [spared]

/-- A record of another pair is inserted. -/
theorem Claimed.inserted {draft : Draft} {records : Table RecordColumns}
    (claimed : Claimed slot holds shelf)
    (other : ¬(draft.clientId = slot.clientId ∧ draft.idempotencyKey = slot.key))
    (later : shelf.clock ≤ created)
    (inserted : shelf.records.insert? id (draft.row created) = some records) :
    Claimed slot holds ⟨created, records⟩ := by
  refine ⟨fun key row there client named => ?_, fun alive => ?_⟩
  · rw [Table.get_insert inserted] at there
    split at there
    · cases there
      exact absurd ⟨client, named⟩ other
    · exact claimed.alone key row there client named
  · obtain ⟨row, there, rest⟩ := claimed.stands (later.trans alive)
    refine ⟨row, ?_, rest⟩
    rw [Table.get_insert inserted, if_neg]
    · exact there
    · exact Nat.ne_of_lt ((Table.insert_some inserted).1 _ (Table.get_some.mp there).1)

/-- Another record is deleted, or the slot has expired. -/
theorem Claimed.deleted (claimed : Claimed slot holds shelf)
    (spared : shelf.clock ≤ slot.expiresAt → id ≠ slot.id) :
    Claimed slot holds
      { shelf with records := shelf.records.delete fun other _ => other = id } := by
  refine ⟨fun other row there => ?_, fun alive => ?_⟩
  · rw [Table.get_delete] at there
    exact claimed.alone other row (Option.filter_eq_some_iff.mp there).1
  · obtain ⟨row, there, rest⟩ := claimed.stands alive
    refine ⟨row, ?_, rest⟩
    rw [Table.get_delete, there]
    simp [(spared alive).symm]

/-- A response that is written to a record moves no key. -/
theorem Claimed.alone_completed {statusCode : Int} {body : String} (claimed : Claimed slot holds shelf)
    {other : Nat} (there : (shelf.records.modify id (Shelf.completed statusCode body)).get? other =
      some row) (client : row.clientId = slot.clientId) (named : row.idempotencyKey = slot.key) :
    other = slot.id ∧ row.expiresAt = some slot.expiresAt := by
  rw [Table.get_modify] at there
  split at there
  · obtain ⟨old, listed, rfl⟩ := Option.map_eq_some_iff.mp there
    exact claimed.alone other old listed client named
  · exact claimed.alone other row there client named

/-- A response is written to another record. -/
theorem Claimed.completed {statusCode : Int} {body : String} (claimed : Claimed slot holds shelf)
    (other : id ≠ slot.id) : Claimed slot holds
      { shelf with records := shelf.records.modify id (Shelf.completed statusCode body) } := by
  refine ⟨fun _ _ there client named => claimed.alone_completed there client named,
    fun alive => ?_⟩
  · obtain ⟨row, there, rest⟩ := claimed.stands alive
    refine ⟨row, ?_, rest⟩
    rw [Table.get_modify, if_neg other.symm, there]

/-- No statement of a call failed, and no expiry overflowed. -/
structure Faultless (config : IdempotencyConfig) (events : Exchange) : Prop where
  intact : ∀ event ∈ events, ¬Broken event
  dated : ∀ now, ⟨.now, now⟩ ∈ events → now.addSeconds? (max config.ttlSeconds 1) ≠ none

theorem opening_insert {inserted : Inserted} :
    ⟨.insert (request.draft codec key expiresAt), inserted⟩ ∈
      opening codec request key now expiresAt inserted :=
  List.mem_cons_of_mem _ (List.mem_cons_of_mem _ List.mem_cons_self)

section

variable {outcome : Option (Except Exn (Option Nat × Option UpstreamResponse))}
  {ended : Except Exn (Option Nat × Option UpstreamResponse)} {decided : Verdict}

/-- A record that a round of another pair reads is not the slot's. -/
theorem Claimed.apart (claimed : Claimed slot holds shelf)
    (other : ¬(request.clientId = slot.clientId ∧ key = slot.key))
    (found : shelf.taken request.clientId key = some (id, record))
    (alive : shelf.clock ≤ slot.expiresAt) : id ≠ slot.id := by
  rintro rfl
  obtain ⟨row, there, client, named, -⟩ := claimed.stands alive
  obtain ⟨listed, own, alike⟩ := Shelf.taken_some found
  cases there.symm.trans listed
  exact other ⟨own.symm.trans client, alike.symm.trans named⟩

/-- A round of another pair leaves the slot's record. -/
theorem Claimed.round_other (claimed : Claimed slot holds before)
    (other : ¬(request.clientId = slot.clientId ∧ key = slot.key))
    (round : Round config codec request key before events after outcome) :
    Claimed slot holds after := by
  cases round with
  | overflown swept overdue => exact claimed.swept swept
  | created entered free later inserted =>
    exact (claimed.swept entered.swept).inserted other (entered.swept.clock.trans_le later) inserted
  | unread entered free later inserted =>
    exact (claimed.swept entered.swept).inserted other (entered.swept.clock.trans_le later) inserted
  | failed entered => exact claimed.swept entered.swept
  | lost entered missing => exact claimed.swept entered.swept
  | answered entered found kept => exact claimed.swept entered.swept
  | stuck entered found overdue => exact claimed.swept entered.swept
  | again entered found overdue =>
    have claimed := claimed.swept entered.swept
    exact claimed.deleted (claimed.apart other found)

theorem Claimed.rounds_other (claimed : Claimed slot holds before)
    (other : ¬(request.clientId = slot.clientId ∧ key = slot.key))
    (rounds : Rounds config codec request key depth before events after ended) :
    Claimed slot holds after := by
  induction rounds with
  | spent => exact claimed
  | last round => exact claimed.round_other other round
  | again round _ ih => exact ih (claimed.round_other other round)

/-- A round of the pair itself, before the slot expires, only reads the slot's record. -/
theorem Claimed.round_own (claimed : Claimed slot holds before)
    (client : request.clientId = slot.clientId) (named : key = slot.key)
    (decides : ∀ row, row.requestHash = slot.requestHash →
      row.expiresAt = some slot.expiresAt → holds row →
        verdict config now (request.hash codec) row = decided) (kept : decided ≠ .takeOver)
    (round : Round config codec request key before events after outcome)
    (called : calledAt events = some now) (alive : now ≤ slot.expiresAt) :
    Claimed slot holds after ∧ outcome ≠ none ∧
      (Faultless config events → outcome = some (decided.answer codec)) := by
  have stands {middle : Shelf} (swept : Swept request.clientId now before middle) :
      Claimed slot holds middle ∧ ∃ row,
        middle.taken request.clientId key = some (slot.id, row) ∧
          verdict config now (request.hash codec) row = decided := by
    have claimed := claimed.swept swept
    obtain ⟨row, found, hash, dated, held⟩ := claimed.found (swept.clock.trans_le alive)
    exact ⟨claimed, row, client ▸ named ▸ found, decides row hash dated held⟩
  cases round with
  | overflown swept overdue =>
    cases called
    refine ⟨(stands swept).1, nofun, fun faultless => ?_⟩
    exact absurd overdue (faultless.dated _ List.mem_cons_self)
  | created entered free =>
    cases called
    obtain ⟨-, row, found, -⟩ := stands entered.swept
    cases found.symm.trans free
  | unread entered free =>
    cases called
    obtain ⟨-, row, found, -⟩ := stands entered.swept
    cases found.symm.trans free
  | failed entered =>
    cases called
    refine ⟨(stands entered.swept).1, nofun, fun faultless => ?_⟩
    exact (faultless.intact _ opening_insert rfl).elim
  | lost entered missing =>
    cases called
    refine ⟨(stands entered.swept).1, nofun, fun faultless => ?_⟩
    exact (faultless.intact _ (List.mem_append_right _ (List.mem_singleton_self _)) missing).elim
  | answered entered found =>
    cases called
    obtain ⟨claimed, row, own, same⟩ := stands entered.swept
    cases own.symm.trans found
    exact ⟨claimed, nofun, fun _ => same ▸ rfl⟩
  | stuck entered found overdue =>
    cases called
    obtain ⟨-, row, own, same⟩ := stands entered.swept
    cases own.symm.trans found
    exact absurd (same.symm.trans overdue) kept
  | again entered found overdue =>
    cases called
    obtain ⟨-, row, own, same⟩ := stands entered.swept
    cases own.symm.trans found
    exact absurd (same.symm.trans overdue) kept

/-- A call that reads no clock does nothing. -/
theorem Rounds.unread (rounds : Rounds config codec request key depth before events after ended)
    (unread : calledAt events = none) : after = before := by
  cases rounds with
  | spent => rfl
  | last round =>
    obtain ⟨now, more, rfl⟩ := round.called
    cases unread
  | again round =>
    obtain ⟨now, more, rfl⟩ := round.called
    cases unread

theorem Claimed.rounds_own (claimed : Claimed slot holds before)
    (client : request.clientId = slot.clientId) (named : key = slot.key)
    (decides : ∀ row, row.requestHash = slot.requestHash →
      row.expiresAt = some slot.expiresAt → holds row →
        verdict config now (request.hash codec) row = decided) (kept : decided ≠ .takeOver)
    (rounds : Rounds config codec request key depth before events after ended)
    (called : calledAt events = some now) (alive : now ≤ slot.expiresAt) :
    Claimed slot holds after ∧ (Faultless config events → ended = decided.answer codec) := by
  cases rounds with
  | spent => cases called
  | last round =>
    obtain ⟨claimed, -, answers⟩ :=
      claimed.round_own client named decides kept round called alive
    exact ⟨claimed, fun faultless => Option.some.inj (answers faultless)⟩
  | again round rest =>
    obtain ⟨start, more, rfl⟩ := round.called
    exact absurd rfl (claimed.round_own client named decides kept round called alive).2.1

/-- A faultless round claims the key, reads a record that it does not take over, or takes one
over. -/
theorem Round.faultless (round : Round config codec request key before events after outcome)
    (faultless : Faultless config events) : (∃ id, outcome = some (.ok (some id, none))) ∨
      ∃ now middle id record, calledAt events = some now ∧ Swept request.clientId now before middle ∧
        middle.taken request.clientId key = some (id, record) ∧
          if verdict config now (request.hash codec) record = .takeOver then
            outcome = none ∧ after =
              { middle with records := middle.records.delete fun other _ => other = id }
          else outcome = some ((verdict config now (request.hash codec) record).answer codec) := by
  cases round with
  | overflown swept overdue => exact absurd overdue (faultless.dated _ List.mem_cons_self)
  | created entered free => exact .inl ⟨_, rfl⟩
  | unread entered free =>
    exact (faultless.intact _ (List.mem_append_right _ (List.mem_singleton_self _)) rfl).elim
  | failed entered => exact (faultless.intact _ opening_insert rfl).elim
  | lost entered missing =>
    exact (faultless.intact _ (List.mem_append_right _ (List.mem_singleton_self _)) missing).elim
  | answered entered found kept =>
    exact .inr ⟨_, _, _, _, rfl, entered.swept, found, by rw [if_neg kept]⟩
  | stuck entered found overdue =>
    exact (faultless.intact _ (List.mem_append_right _
      (List.mem_cons_of_mem _ (List.mem_singleton_self _))) rfl).elim
  | again entered found overdue =>
    exact .inr ⟨_, _, _, _, rfl, entered.swept, found, by rw [if_pos overdue]; exact ⟨rfl, rfl⟩⟩

/-- No record is the pair's. -/
def Vacant (clientId : Nat) (key : String) (shelf : Shelf) : Prop :=
  ∀ other row, shelf.records.get? other = some row →
    ¬(row.clientId = clientId ∧ row.idempotencyKey = key)

theorem Vacant.swept {owner : Nat} (vacant : Vacant owner key before)
    (swept : Swept clientId now before after) : Vacant owner key after := by
  intro other row there
  cases swept with
  | kept => exact vacant other row there
  | cleaned =>
    rw [Table.get_delete] at there
    exact vacant other row (Option.filter_eq_some_iff.mp there).1

theorem Faultless.front {front back : Exchange} (faultless : Faultless config (front ++ back)) :
    Faultless config front where
  intact event member := faultless.intact event (List.mem_append_left _ member)
  dated now member := faultless.dated now (List.mem_append_left _ member)

theorem Faultless.back {front back : Exchange} (faultless : Faultless config (front ++ back)) :
    Faultless config back where
  intact event member := faultless.intact event (List.mem_append_right _ member)
  dated now member := faultless.dated now (List.mem_append_right _ member)

/-- A key without a record is claimed. -/
theorem Vacant.rounds (vacant : Vacant request.clientId key before)
    (rounds : Rounds config codec request key (depth + 1) before events after ended)
    (faultless : Faultless config events) : ∃ id, ended = .ok (some id, none) := by
  have claims {events : Exchange} {after : Shelf}
      {outcome : Option (Except Exn (Option Nat × Option UpstreamResponse))}
      (round : Round config codec request key before events after outcome)
      (faultless : Faultless config events) : ∃ id, outcome = some (.ok (some id, none)) := by
    rcases round.faultless faultless with claimed | ⟨now, middle, id, record, _, swept, found, _⟩
    · exact claimed
    · obtain ⟨listed, own⟩ := Shelf.taken_some found
      exact absurd own (vacant.swept swept id record listed)
  cases rounds with
  | last round =>
    obtain ⟨id, same⟩ := claims round faultless
    exact ⟨id, Option.some.inj same⟩
  | again round rest =>
    obtain ⟨id, same⟩ := claims round faultless.front
    cases same

/-- A call with the fingerprint that reads the slot's record then takes it over. -/
def Lapsed (config : IdempotencyConfig) (slot : Slot) (holds : RecordColumns → Prop) (now : Instant)
    (hash : String) : Prop :=
  ∀ row, row.expiresAt = some slot.expiresAt →
    (now ≤ slot.expiresAt → row.requestHash = slot.requestHash ∧ holds row) →
      verdict config now hash row = .takeOver

theorem lapsed_of_expired {hash : String} (overdue : slot.expiresAt < now) :
    Lapsed config slot holds now hash := by
  intro row dated _
  refine if_pos ?_
  rw [dated]
  exact decide_eq_true overdue

theorem Claimed.round_over (claimed : Claimed slot holds before)
    (client : request.clientId = slot.clientId) (named : key = slot.key)
    (round : Round config codec request key before events after outcome)
    (called : calledAt events = some now)
    (lapsed : Lapsed config slot holds now (request.hash codec))
    (faultless : Faultless config events) : (∃ id, outcome = some (.ok (some id, none))) ∨
      outcome = none ∧ Vacant request.clientId key after := by
  rcases round.faultless faultless with fresh | ⟨start, middle, id, record, begun, swept, found, ends⟩
  · exact .inl fresh
  · cases called.symm.trans begun
    have claimed := claimed.swept swept
    obtain ⟨listed, own, alike⟩ := Shelf.taken_some found
    obtain ⟨rfl, dated⟩ := claimed.alone id record listed (own.trans client) (alike.trans named)
    have decided : verdict config now (request.hash codec) record = .takeOver := by
      refine lapsed record dated fun alive => ?_
      obtain ⟨row, there, -, -, hash, held⟩ := claimed.stands (swept.clock.trans_le alive)
      cases there.symm.trans listed
      exact ⟨hash, held⟩
    rw [if_pos decided] at ends
    obtain ⟨again, rfl⟩ := ends
    refine .inr ⟨again, ?_⟩
    rintro other row there ⟨mine, same⟩
    obtain ⟨kept, spared⟩ := Option.filter_eq_some_iff.mp (Table.get_delete.symm.trans there)
    obtain ⟨rfl, -⟩ := claimed.alone other row kept (mine.trans client) (same.trans named)
    simp at spared

/-- A pair whose record is not kept is claimed afresh. -/
theorem Claimed.rounds_over (claimed : Claimed slot holds before)
    (client : request.clientId = slot.clientId) (named : key = slot.key)
    (rounds : Rounds config codec request key (depth + 2) before events after ended)
    (called : calledAt events = some now)
    (lapsed : Lapsed config slot holds now (request.hash codec))
    (faultless : Faultless config events) : ∃ id, ended = .ok (some id, none) := by
  cases rounds with
  | last round =>
    rcases claimed.round_over client named round called lapsed faultless with ⟨id, same⟩ | ⟨none, -⟩
    · exact ⟨id, Option.some.inj same⟩
    · cases none
  | again round rest =>
    obtain ⟨start, more, rfl⟩ := round.called
    rcases claimed.round_over client named round called lapsed faultless.front with
      ⟨id, same⟩ | ⟨-, vacant⟩
    · cases same
    · exact vacant.rounds rest faultless.back

end

/-- What a `complete` does to the shelf: nothing, or it writes the response to its record. -/
inductive Written (config : IdempotencyConfig) (codec : Codec) (ctx : Option Nat)
    (response : UpstreamResponse) (shelf : Shelf) : Exchange → Shelf → Prop where
  | idle {events : Exchange}
      (unstored : ∀ id statusCode body, ⟨.complete id statusCode body, true⟩ ∉ events) :
      Written config codec ctx response shelf events shelf
  | stored {events : Exchange} {id : Nat} (own : ctx = some id)
      (fits : serializeResponse codec response (max config.maxResponseBytes 1) =
        .ok (statusCode, body)) :
      Written config codec ctx response shelf events
        { shelf with records := shelf.records.modify id (Shelf.completed statusCode body) }

theorem written_of_ran {ctx : Option Nat} {response : UpstreamResponse}
    {ended : Except Exn (Option Nat × Option UpstreamResponse)}
    (ran : ((Act.complete ctx response).program config codec depth).Ran events ended)
    (followed : Follows Shelf.moves shelf events last) :
    Written config codec ctx response shelf events last := by
  have met : ((Act.complete ctx response).program config codec depth).wp logged
      (fun _ last => Written config codec ctx response shelf last.2 last.1) (shelf, []) := by
    simp only [Act.program, complete, bind_eq, pure_eq]
    cases ctx with
    | none => exact Written.idle (by simp)
    | some id =>
      dsimp only
      split
      · exact Written.idle (by simp)
      · refine wp_put (.find id) fun found middle moved => ?_
        obtain ⟨rfl, -⟩ := moved
        rcases found with _ | _ | row
        · exact Written.idle (by simp)
        · exact Written.idle (by simp)
        · dsimp only
          split
          · exact Written.idle (by simp)
          · rename_i statusCode body fits
            refine wp_put (.complete id statusCode body) fun written after moved => ?_
            rcases moved with ⟨rfl, -, rfl⟩ | ⟨rfl, rfl⟩
            · exact Written.stored rfl fits
            · exact Written.idle (by simp)
  exact wp_logging ran followed met

/-- A call without a key asks nothing. -/
theorem unclaimed_ran {ended : Except Exn (Option Nat × Option UpstreamResponse)}
    (unclaimed : request.claimedKey config = none)
    (ran : (startOrReplay config codec request depth).Ran events ended) : events = [] := by
  have met : (startOrReplay config codec request depth).wp (.history Op Reply)
      (fun _ last => last = []) [] := by
    cases depth with
    | zero => rfl
    | succ depth =>
      simp only [startOrReplay, unclaimed]
      split
      · rfl
      · split <;> rfl
  exact wp_history ran met

/-- The record that a free key is inserted with claims its slot. -/
theorem claimed_of_insert {records : Table RecordColumns}
    (free : middle.taken request.clientId key = none)
    (inserted : middle.records.insert? id ((request.draft codec key expiresAt).row created) =
      some records) (held : holds ((request.draft codec key expiresAt).row created)) :
    Claimed ⟨request.clientId, key, id, expiresAt, request.hash codec⟩ holds
      ⟨created, records⟩ := by
  refine ⟨fun other found there client named => ?_, fun _ => ?_⟩
  · rw [Table.get_insert inserted] at there
    split at there
    · cases there
      exact ⟨‹other = id›, rfl⟩
    · exact absurd ⟨client, named⟩ (Shelf.taken_none free there)
  · refine ⟨(request.draft codec key expiresAt).row created, ?_, rfl, rfl, rfl, held⟩
    rw [Table.get_insert inserted, if_pos rfl]

/-- A round that inserts a record is the last. -/
theorem Round.claims {draft : Draft}
    {outcome : Option (Except Exn (Option Nat × Option UpstreamResponse))}
    (round : Round config codec request key before events after outcome)
    (drafted : ⟨.insert draft, .row id⟩ ∈ events) : outcome ≠ none ∧
      Claimed ⟨request.clientId, key, id, draft.expiresAt, request.hash codec⟩ (fun _ => True)
        after := by
  cases round with
  | created entered free later inserted =>
    obtain ⟨rfl, rfl⟩ : draft = _ ∧ id = _ := by simpa [opening] using drafted
    exact ⟨Option.some_ne_none _, claimed_of_insert free inserted trivial⟩
  | unread entered free later inserted =>
    obtain ⟨rfl, rfl⟩ : draft = _ ∧ id = _ := by simpa [opening] using drafted
    exact ⟨Option.some_ne_none _, claimed_of_insert free inserted trivial⟩
  | _ => simp [opening] at drafted

/-- A call that inserts a record has claimed its slot. -/
theorem claimed_of_rounds {draft : Draft}
    {ended : Except Exn (Option Nat × Option UpstreamResponse)}
    (rounds : Rounds config codec request key depth before events after ended)
    (drafted : ⟨.insert draft, .row id⟩ ∈ events) :
    Claimed ⟨request.clientId, key, id, draft.expiresAt, request.hash codec⟩ (fun _ => True) after := by
  induction rounds with
  | spent => cases drafted
  | last round => exact (round.claims drafted).2
  | again round rest ih =>
    rcases List.mem_append.mp drafted with member | member
    · exact absurd rfl (round.claims member).1
    · exact ih member

/-- The response is written to the slot's record. -/
theorem Claimed.stored {statusCode : Int} {body : String} (claimed : Claimed slot holds shelf) :
    Claimed slot (Holds statusCode body) { shelf with
      records := shelf.records.modify slot.id (Shelf.completed statusCode body) } := by
  refine ⟨fun _ _ there client named => claimed.alone_completed there client named,
    fun alive => ?_⟩
  · obtain ⟨row, there, client, named, hash, -⟩ := claimed.stands alive
    refine ⟨Shelf.completed statusCode body row, ?_, client, named, hash, rfl, rfl, rfl⟩
    rw [Table.get_modify, if_pos rfl, there]
    rfl

/-- A call that touches neither the pair nor its record. -/
def Apart (config : IdempotencyConfig) (request : Incoming) (id : Nat) (call : Past) : Prop :=
  match call.act with
  | .start other => ¬Paired config other request
  | .complete ctx _ => ctx ≠ some id

/-- A call of the pair before the expiry, or one that touches neither the pair nor its record. -/
def Between (config : IdempotencyConfig) (request : Incoming) (id : Nat) (expiresAt : Instant)
    (call : Past) : Prop :=
  match call.act with
  | .start other => Paired config other request →
    ∀ now, calledAt call.events = some now → now ≤ expiresAt
  | .complete ctx _ => ctx ≠ some id

/-- The request was given a context, and its response was stored. -/
structure Concluded (request : Incoming) (response : UpstreamResponse) (draft : Draft) (id : Nat)
    (opened kept : Past) : Prop where
  asked : opened.act = .start request
  context : opened.outcome = .ok (some id, none)
  drafted : ⟨.insert draft, .row id⟩ ∈ opened.events
  completes : kept.act = .complete (some id) response
  stores : ∃ statusCode body, ⟨.complete id statusCode body, true⟩ ∈ kept.events

theorem sequential_append {front back : List Past} :
    Sequential config codec depth before (front ++ back) last ↔
      ∃ middle, Sequential config codec depth before front middle ∧
        Sequential config codec depth middle back last := by
  induction front generalizing before with
  | nil =>
    constructor
    · exact fun run => ⟨before, .nil, run⟩
    · rintro ⟨_, ⟨⟩, run⟩
      exact run
  | cons call front ih =>
    constructor
    · rintro (_ | ⟨ran, followed, rest⟩)
      obtain ⟨middle, first, second⟩ := ih.mp rest
      exact ⟨middle, .cons ran followed first, second⟩
    · rintro ⟨middle, _ | ⟨ran, followed, rest⟩, second⟩
      exact .cons ran followed (ih.mpr ⟨middle, rest, second⟩)

/-- What every call keeps, a run keeps. -/
theorem sequential_keeps {holds : Shelf → Prop} {calls : List Past}
    (run : Sequential config codec depth before calls last)
    (step : ∀ call ∈ calls, ∀ shelf next, holds shelf →
      (call.act.program config codec depth).Ran call.events call.outcome →
      Follows Shelf.moves shelf call.events next → holds next)
    (held : holds before) : holds last := by
  induction run with
  | nil => exact held
  | cons ran followed rest ih =>
    refine ih (fun call member => step call (List.mem_cons_of_mem _ member)) ?_
    exact step _ List.mem_cons_self _ _ held ran followed

/-- A `complete` of another record leaves the slot's. -/
theorem Claimed.written {ctx : Option Nat} {response : UpstreamResponse}
    (claimed : Claimed slot holds shelf) (other : ctx ≠ some slot.id)
    (written : Written config codec ctx response shelf events last) : Claimed slot holds last := by
  cases written with
  | idle => exact claimed
  | stored own fits =>
    refine claimed.completed ?_
    rintro rfl
    exact other own

theorem Claimed.apart_call {call : Past} (claimed : Claimed slot holds shelf)
    (client : request.clientId = slot.clientId)
    (named : request.claimedKey config = some slot.key)
    (apart : Apart config request slot.id call)
    (ran : (call.act.program config codec depth).Ran call.events call.outcome)
    (followed : Follows Shelf.moves shelf call.events last) : Claimed slot holds last := by
  obtain ⟨act, events, outcome⟩ := call
  cases act with
  | complete ctx response => exact claimed.written apart (written_of_ran ran followed)
  | start other =>
    cases claims : other.claimedKey config with
    | none =>
      obtain rfl := unclaimed_ran claims ran
      cases followed
      exact claimed
    | some key =>
      refine claimed.rounds_other ?_ (rounds_of_ran claims ran followed)
      rintro ⟨same, alike⟩
      exact apart ⟨same.trans client.symm, claims.trans (alike ▸ named.symm)⟩

/-- The decision on the stored record of a slot that has not expired. -/
theorem verdict_stored {statusCode : Int} {body : String} (nonempty : body ≠ "")
    (alive : now ≤ slot.expiresAt) (hash : row.requestHash = slot.requestHash)
    (dated : row.expiresAt = some slot.expiresAt) (held : Holds statusCode body row) :
    verdict config now (request.hash codec) row =
      if slot.requestHash = request.hash codec then .replay statusCode body else .conflict := by
  rw [verdict_holds held nonempty, hash]
  rw [dated]
  simpa using alive

theorem Claimed.between_call {call : Past} {statusCode : Int} {body : String}
    (nonempty : body ≠ "") (claimed : Claimed slot (Holds statusCode body) shelf)
    (client : request.clientId = slot.clientId)
    (named : request.claimedKey config = some slot.key)
    (between : Between config request slot.id slot.expiresAt call)
    (ran : (call.act.program config codec depth).Ran call.events call.outcome)
    (followed : Follows Shelf.moves shelf call.events last) :
    Claimed slot (Holds statusCode body) last := by
  by_cases apart : Apart config request slot.id call
  · exact claimed.apart_call client named apart ran followed
  obtain ⟨act, events, outcome⟩ := call
  cases act with
  | complete ctx response => exact absurd between apart
  | start other =>
    have paired : Paired config other request := not_not.mp apart
    have claims := paired.key.trans named
    have rounds := rounds_of_ran claims ran followed
    cases called : calledAt events with
    | none =>
      rw [rounds.unread called]
      exact claimed
    | some now =>
      have alive := between paired now called
      refine (claimed.rounds_own (paired.client.trans client) rfl
        (fun row hash dated held => verdict_stored nonempty alive hash dated held) ?_ rounds
          called alive).1
      split <;> nofun

/-- Replay fidelity. -/
theorem replays_faithful (injective : Function.Injective codec.sha256) {start : Shelf}
    {opened kept call : Past} {waiting more : List Past} {draft : Draft}
    {response : UpstreamResponse} {repeated : Incoming} (trips : codec.RoundTrips response)
    (distinct : (response.headers.map Prod.fst).Nodup) (deep : 2 ≤ depth)
    (run : Sequential config codec depth start
      (opened :: (waiting ++ kept :: (more ++ [call]))) last)
    (concluded : Concluded request response draft id opened kept)
    (waited : ∀ past ∈ waiting, Apart config request id past)
    (between : ∀ past ∈ more, Between config request id draft.expiresAt past)
    (again : call.act = .start repeated) (paired : Paired config repeated request)
    (faultless : Faultless config call.events) (called : calledAt call.events = some now) :
    (now < draft.expiresAt → (Alike request repeated → call.outcome = .ok (none, some response)) ∧
      (¬Alike request repeated → call.outcome = .error (.fcam keyConflict))) ∧
    (draft.expiresAt < now → ∃ fresh, call.outcome = .ok (some fresh, none)) := by
  obtain ⟨asked, -, drafted, completes, statusCode, body, stored⟩ := concluded
  obtain _ | ⟨ran, followed, run⟩ := run
  obtain ⟨_, waits, run⟩ := sequential_append.mp run
  obtain _ | ⟨ranKept, followedKept, run⟩ := run
  obtain ⟨_, betweens, run⟩ := sequential_append.mp run
  obtain _ | ⟨ranCall, followedCall, _⟩ := run
  rw [asked] at ran
  rw [completes] at ranKept
  rw [again] at ranCall
  cases claims : request.claimedKey config with
  | none =>
    rw [unclaimed_ran claims ran] at drafted
    cases drafted
  | some key =>
    have claimed := claimed_of_rounds (rounds_of_ran claims ran followed) drafted
    have claimed := sequential_keeps waits (fun call member shelf next held ran followed =>
      held.apart_call rfl claims (waited call member) ran followed) claimed
    cases written_of_ran ranKept followedKept with
    | idle unstored => exact absurd stored (unstored _ _ _)
    | stored own fits =>
      cases own
      obtain ⟨nonempty, rebuilt⟩ := deserialize_serialize trips fits
      have claimed := sequential_keeps betweens (fun call member shelf next held ran followed =>
        held.between_call nonempty rfl claims (between call member) ran followed) claimed.stored
      have rounds := rounds_of_ran (paired.key.trans claims) ranCall followedCall
      constructor
      · intro alive
        have answered := (claimed.rounds_own paired.client rfl
          (fun row hash dated held => verdict_stored nonempty alive.le hash dated held)
          (by split <;> nofun) rounds called alive.le).2 faultless
        constructor
        · intro alike
          rw [answered, if_pos ((hash_eq injective).mpr alike)]
          simp only [Verdict.answer, rebuilt, dictOf_distinct distinct]
        · intro unlike
          rw [answered, if_neg fun same => unlike ((hash_eq injective).mp same)]
          rfl
      · intro overdue
        obtain ⟨depth, rfl⟩ := Nat.exists_eq_add_of_le' deep
        exact claimed.rounds_over paired.client rfl rounds called (lapsed_of_expired overdue) faultless

/-- The call that a working database serves. -/
def served (config : IdempotencyConfig) (shelf : Shelf) (tick : Nat) (act : Act) : Past × Shelf :=
  let ended := (act.program config jobCodec 4).execute (Shelf.answer tick (.error .other)) shelf
  (⟨act, ended.1, ended.2.1⟩, ended.2.2)

theorem served_cons {tick : Nat} {act : Act} {more : List Past}
    (rest : Sequential config jobCodec 4 (served config shelf tick act).2 more last) :
    Sequential config jobCodec 4 shelf ((served config shelf tick act).1 :: more) last :=
  .cons (execute_ran _ _ _) (execute_follows (Shelf.answer_honest tick _) _ _) rest

theorem inserted_at {place id : Nat} {draft : Draft}
    (inserted : (events[place]?.map insertedRow) = some (some (draft, id))) :
    ⟨.insert draft, .row id⟩ ∈ events := by
  obtain ⟨event, found, made⟩ := Option.map_eq_some_iff.mp inserted
  obtain rfl := insertedRow_some made
  exact List.mem_of_getElem? found

theorem stored_at {place id : Nat} (stored : (events[place]?.map storedRow) = some (some id)) :
    ∃ statusCode body, ⟨.complete id statusCode body, true⟩ ∈ events := by
  obtain ⟨event, found, wrote⟩ := Option.map_eq_some_iff.mp stored
  obtain ⟨statusCode, body, rfl⟩ := storedRow_some wrote
  exact ⟨statusCode, body, List.mem_of_getElem? found⟩

theorem faultless_of (intact : ∀ event ∈ events, ¬Broken event)
    (dated : ∀ event ∈ events, ∀ now ∈ reading event,
      now.addSeconds? (max config.ttlSeconds 1) ≠ none) : Faultless config events :=
  ⟨intact, fun now read => dated _ read now rfl⟩

def job : Incoming := jobRequest .v2Crawl

/-- A job is created. -/
def jobOpened : Past × Shelf := served {} emptyShelf 0 (.start job)

/-- Its response is stored. -/
def jobKept : Past × Shelf := served {} jobOpened.2 0 (.complete (some 1) jobResponse)

/-- The job is asked for again. -/
def jobRepeated : Past × Shelf := served {} jobKept.2 0 (.start job)

theorem job_replayed : jobRepeated.1.outcome = .ok (none, some jobResponse) := by
  have run : Sequential {} jobCodec 4 emptyShelf
      (jobOpened.1 :: ([] ++ jobKept.1 :: ([] ++ [jobRepeated.1]))) jobRepeated.2 :=
    served_cons (served_cons (served_cons .nil))
  have concluded : Concluded job jobResponse (job.draft jobCodec "k" (86400 * Instant.second)) 1
      jobOpened.1 jobKept.1 := by
    refine ⟨rfl, by decide +kernel, ?_, rfl, ?_⟩
    · exact inserted_at (show (jobOpened.1.events[2]?.map insertedRow) = _ by decide +kernel)
    · exact stored_at (show (jobKept.1.events[1]?.map storedRow) = _ by decide +kernel)
  have faultless : Faultless {} jobRepeated.1.events :=
    faultless_of (by decide +kernel) (by decide +kernel)
  have called : calledAt jobRepeated.1.events = some 0 := by decide +kernel
  obtain ⟨intime, -⟩ := replays_faithful Function.injective_id jobCodec_trips (by decide) (by decide)
    run concluded (List.forall_mem_nil _) (List.forall_mem_nil _) rfl ⟨rfl, rfl⟩ faultless called
  exact (intime (by decide)).1 ⟨rfl, rfl⟩

/-- Records last a minute. -/
def brief : IdempotencyConfig := { ttlSeconds := 60 }

def elderJob : Incoming := { job with idempotencyKey := some "elder" }

/-- Another job is created and waits for its response. -/
def elderOpened : Past × Shelf := served brief emptyShelf 0 (.start elderJob)

/-- The record of the elder job has expired when the job is created. -/
def renewed : Past × Shelf := served brief elderOpened.2 61000000 (.start job)

def renewedKept : Past × Shelf := served brief renewed.2 0 (.complete (some 1) jobResponse)

/-- The response to the elder job arrives. -/
def elderLate : Past × Shelf :=
  served brief renewedKept.2 0 (.complete (some 1) { jobResponse with statusCode := 404 })

def repeatedLate : Past × Shelf := served brief elderLate.2 1000000 (.start job)

/-- The new record was given the id of the expired one, so the job is answered with the response to
the elder job. -/
theorem late_response_replayed : Sequential brief jobCodec 4 emptyShelf
      [elderOpened.1, renewed.1, renewedKept.1, elderLate.1, repeatedLate.1] repeatedLate.2 ∧
    elderOpened.1.act = .start elderJob ∧ elderOpened.1.outcome = .ok (some 1, none) ∧
    elderJob.claimedKey brief ≠ job.claimedKey brief ∧
    (∃ expiresAt,
      Concluded job jobResponse (job.draft jobCodec "k" expiresAt) 1 renewed.1 renewedKept.1 ∧
        ∃ now, calledAt repeatedLate.1.events = some now ∧ now < expiresAt) ∧
    elderLate.1.act = .complete (some 1) { jobResponse with statusCode := 404 } ∧
    repeatedLate.1.act = .start job ∧ Faultless brief repeatedLate.1.events ∧
    repeatedLate.1.outcome ≠ .ok (none, some jobResponse) := by
  refine ⟨served_cons (served_cons (served_cons (served_cons (served_cons .nil)))), rfl,
    by decide +kernel, by decide +kernel, ⟨121 * Instant.second, ⟨rfl, by decide +kernel, ?_, rfl, ?_⟩,
      62 * Instant.second, by decide +kernel, by decide⟩, rfl, rfl,
    faultless_of (by decide +kernel) (by decide +kernel), by decide +kernel⟩
  · exact inserted_at (show (renewed.1.events[2]?.map insertedRow) = _ by decide +kernel)
  · exact stored_at (show (renewedKept.1.events[1]?.map storedRow) = _ by decide +kernel)

end FcamGateway.Idempotency
