import FcamGateway.ForwardRefusals
import FcamGateway.IdempotencyFidelity

/-! What a handler leaves behind that ends with an error: the table of records as it found it, less
records that are over, and its own record if it had claimed its key. That record is not given up: it
withholds the key until it has expired or its grace is over. -/
namespace FcamGateway.Idempotency
open Prog

variable {config : IdempotencyConfig} {codec : Codec} {depth : Nat} {request again : Incoming}
  {key : String} {before middle after last : Shelf} {events more : Exchange}
  {now expiresAt created : Instant} {id : Nat}

/-- A record that a request of the client may remove at the reading given: it has expired, or its
grace is over. -/
def Removable (config : IdempotencyConfig) (clientId : Nat) (now : Instant) (row : RecordColumns) :
    Prop :=
  row.clientId = clientId ∧ (row.expiresAt.any (· < now) = true ∨ row.status = "in_progress" ∧
    staleAfter config * Instant.second < now - row.createdAt)

/-- The table is as it was, less records that were over. -/
def Pruned (config : IdempotencyConfig) (clientId : Nat) (events : Exchange) (before after : Shelf) :
    Prop :=
  ∀ id, after.records.get? id = before.records.get? id ∨ after.records.get? id = none ∧
    ∃ row now, before.records.get? id = some row ∧ ⟨.now, now⟩ ∈ events ∧
      Removable config clientId now row

theorem Pruned.mono {clientId : Nat} (pruned : Pruned config clientId events before after)
    (grown : events ⊆ more) : Pruned config clientId more before after := by
  intro id
  rcases pruned id with same | ⟨gone, row, now, there, read, overdue⟩
  · exact .inl same
  · exact .inr ⟨gone, row, now, there, grown read, overdue⟩

theorem Pruned.trans {clientId : Nat} (first : Pruned config clientId events before middle)
    (second : Pruned config clientId events middle after) :
    Pruned config clientId events before after := by
  intro id
  rcases second id with same | ⟨gone, row, now, there, read, overdue⟩
  · rw [same]
    exact first id
  · rcases first id with same | ⟨none, _⟩
    · exact .inr ⟨gone, row, now, same ▸ there, read, overdue⟩
    · cases there.symm.trans none

/-- A cleanup removes expired records. -/
theorem Swept.pruned {clientId : Nat} (swept : Swept clientId now before after)
    (read : ⟨.now, now⟩ ∈ events) : Pruned config clientId events before after := by
  intro id
  cases swept with
  | kept => exact .inl rfl
  | cleaned =>
    rw [Table.get_delete]
    cases found : before.records.get? id with
    | none => exact .inl rfl
    | some row =>
      cases overdue : Shelf.expired clientId now row with
      | false => exact .inl (Option.filter_some_pos (by simp [overdue]))
      | true =>
        simp only [Shelf.expired, Bool.and_eq_true, decide_eq_true_eq] at overdue
        refine .inr ⟨Option.filter_some_neg (by simp [Shelf.expired, overdue]), row, now, rfl, read, ?_⟩
        exact ⟨overdue.1, .inl overdue.2⟩

/-- A record that is taken over has expired, or its grace is over. -/
theorem removable_of_takeOver {hash : String} {row : RecordColumns}
    (overdue : verdict config now hash row = .takeOver) :
    row.expiresAt.any (· < now) = true ∨ row.status = "in_progress" ∧
      staleAfter config * Instant.second < now - row.createdAt := by
  unfold verdict at overdue
  split at overdue
  · exact .inl ‹_›
  right
  have stale (unfinished : verdict.unfinished config now row = .takeOver) :
      row.status = "in_progress" ∧ staleAfter config * Instant.second < now - row.createdAt := by
    unfold verdict.unfinished at unfinished
    split at unfinished
    · assumption
    · cases unfinished
  split at overdue
  · cases overdue
  split at overdue
  · split at overdue
    · cases overdue
    · exact stale overdue
  · exact stale overdue

/-- The deletion of a record that is taken over. -/
theorem deleted_pruned {clientId : Nat} {hash : String} {row : RecordColumns}
    (found : before.taken clientId key = some (id, row))
    (overdue : verdict config now hash row = .takeOver) (read : ⟨.now, now⟩ ∈ events) :
    Pruned config clientId events before
      { before with records := before.records.delete fun other _ => other = id } := by
  obtain ⟨there, own, -⟩ := Shelf.taken_some found
  intro other
  rw [Table.get_delete]
  by_cases same : other = id
  · subst same
    refine .inr ⟨?_, row, now, there, read, own, removable_of_takeOver overdue⟩
    rw [there]
    exact Option.filter_some_neg (by simp)
  · refine .inl ?_
    cases before.records.get? other with
    | none => rfl
    | some row => exact Option.filter_some_pos (by simp [same])

/-- No record was inserted. -/
def Unmade (events : Exchange) : Prop := ∀ draft id, ⟨.insert draft, .row id⟩ ∉ events

/-- What a request leaves of the table: no record of its own, or the one it inserted. -/
inductive Leaves (config : IdempotencyConfig) (codec : Codec) (request : Incoming) (events : Exchange)
    (before after : Shelf) : Prop where
  | none (pruned : Pruned config request.clientId events before after) (unmade : Unmade events)
  | own {key : String} {id : Nat} {expiresAt : Instant} {middle : Shelf}
      (claimed : request.claimedKey config = some key)
      (inserted : ⟨.insert (request.draft codec key expiresAt), .row id⟩ ∈ events)
      (only : ∀ draft other, ⟨.insert draft, .row other⟩ ∈ events →
        draft = request.draft codec key expiresAt ∧ other = id)
      (pruned : Pruned config request.clientId events before middle)
      (free : middle.taken request.clientId key = none)
      (added : middle.records.insert? id ((request.draft codec key expiresAt).row after.clock) =
        some after.records)

theorem Leaves.preceded (pruned : Pruned config request.clientId events before middle)
    (unmade : Unmade events) (leaves : Leaves config codec request more middle after) :
    Leaves config codec request (events ++ more) before after := by
  have front := pruned.mono (List.subset_append_left events more)
  cases leaves with
  | none second unmade' =>
    refine .none (front.trans (second.mono (List.subset_append_right events more))) ?_
    intro draft id member
    rcases List.mem_append.mp member with first | last
    · exact unmade draft id first
    · exact unmade' draft id last
  | own claimed inserted only second free added =>
    refine .own claimed (List.mem_append_right _ inserted) ?_
      (front.trans (second.mono (List.subset_append_right events more))) free added
    intro draft id member
    rcases List.mem_append.mp member with first | last
    · exact absurd first (unmade draft id)
    · exact only draft id last

theorem Leaves.followed (leaves : Leaves config codec request events before after)
    (unmade : Unmade more) : Leaves config codec request (events ++ more) before after := by
  cases leaves with
  | none pruned unmade' =>
    refine .none (pruned.mono (List.subset_append_left events more)) fun draft id member => ?_
    rcases List.mem_append.mp member with first | last
    · exact unmade' draft id first
    · exact unmade draft id last
  | own claimed inserted only pruned free added =>
    refine .own claimed (List.mem_append_left _ inserted) (fun draft id member => ?_)
      (pruned.mono (List.subset_append_left events more)) free added
    rcases List.mem_append.mp member with first | last
    · exact only draft id first
    · exact absurd last (unmade draft id)

section

variable {outcome : Option (Except Exn (Option Nat × Option UpstreamResponse))}
  {ended : Except Exn (Option Nat × Option UpstreamResponse)}

/-- A round that is not the last inserts nothing. -/
theorem Round.unmade (round : Round config codec request key before events after none) :
    Unmade events ∧ Pruned config request.clientId events before after := by
  cases round with | again entered found overdue =>
  refine ⟨by simp [Unmade, opening], (entered.swept.pruned List.mem_cons_self).trans ?_⟩
  exact deleted_pruned found overdue List.mem_cons_self

theorem Round.leaves (claimed : request.claimedKey config = some key)
    (round : Round config codec request key before events after outcome) :
    Leaves config codec request events before after := by
  cases outcome with
  | none => exact .none round.unmade.2 round.unmade.1
  | some ended =>
    cases round with
    | overflown swept overdue =>
      exact .none (swept.pruned List.mem_cons_self) (by simp [Unmade])
    | created entered free later inserted =>
      refine .own claimed (List.mem_append_left _ opening_insert) ?_
        (entered.swept.pruned List.mem_cons_self) free inserted
      simp [opening]
    | unread entered free later inserted =>
      refine .own claimed (List.mem_append_left _ opening_insert) ?_
        (entered.swept.pruned List.mem_cons_self) free inserted
      simp [opening]
    | failed entered =>
      exact .none (entered.swept.pruned List.mem_cons_self) (by simp [Unmade, opening])
    | lost entered missing =>
      exact .none (entered.swept.pruned List.mem_cons_self) (by simp [Unmade, opening])
    | answered entered found kept =>
      exact .none (entered.swept.pruned List.mem_cons_self) (by simp [Unmade, opening])
    | stuck entered found overdue =>
      exact .none (entered.swept.pruned List.mem_cons_self) (by simp [Unmade, opening])

theorem Rounds.leaves (claimed : request.claimedKey config = some key)
    (rounds : Rounds config codec request key depth before events after ended) :
    Leaves config codec request events before after := by
  induction rounds with
  | spent => exact .none (fun _ => .inl rfl) nofun
  | last round => exact round.leaves claimed
  | again round _ ih => exact ih.preceded round.unmade.2 round.unmade.1

/-- A call reads the clock. -/
theorem Rounds.called (rounds : Rounds config codec request key (depth + 1) before events after ended) :
    ∃ now rest, events = ⟨.now, now⟩ :: rest := by
  cases rounds with
  | last round => exact round.called
  | again round =>
    obtain ⟨now, rest, rfl⟩ := round.called
    exact ⟨now, _, rfl⟩

theorem Rounds.unsent (rounds : Rounds config codec request key depth before events after ended) :
    ∀ event ∈ events, ¬sent event := by
  have one {events : Exchange} {before after : Shelf}
      {outcome : Option (Except Exn (Option Nat × Option UpstreamResponse))}
      (round : Round config codec request key before events after outcome) :
      ∀ event ∈ events, ¬sent event := by
    cases round <;> simp [opening, sent]
  induction rounds with
  | spent => exact List.forall_mem_nil _
  | last round => exact one round
  | again round _ ih => exact List.forall_mem_append.mpr ⟨one round, ih⟩

end

theorem forwardTo_ran {path : String} {payload : Json} {outcome : Except Exn UpstreamResponse}
    (ran : (forwardTo path payload).Ran events outcome) :
    events = [⟨.forward "POST" path payload, outcome⟩] := by
  have met : (forwardTo path payload).wp (.history Op Reply)
      (fun outcome seen => seen = [⟨.forward "POST" path payload, outcome⟩]) [] := by
    refine (wp_asked _ _).mpr fun reply => ?_
    cases reply <;> rfl
  exact wp_history ran met

/-- The forward of a handler sends its request, and asks nothing else. -/
theorem forwarded {outcome : Except Exn UpstreamResponse}
    (ran : (forwardRequest request).Ran events outcome) : Forwards events ∧ ∃ reply rest,
      events = ⟨.forward "POST" (request.endpoint.primaryPath request.query) request.payload, reply⟩ ::
        rest := by
  have one (path : String) (reply : Except Exn UpstreamResponse) :
      Forwards [⟨.forward "POST" path request.payload, reply⟩] := by
    intro event member
    cases List.mem_singleton.mp member
    exact ⟨_, _, _, _, rfl⟩
  rcases ran_bind ran with ⟨error, _, first⟩ | ⟨response, front, back, rfl, first, second⟩
  · rw [forwardTo_ran first]
    exact ⟨one _ _, _, _, rfl⟩
  · rw [forwardTo_ran first]
    refine ⟨?_, _, _, rfl⟩
    suffices rest : Forwards back from List.forall_mem_append.mpr ⟨one _ _, rest⟩
    have idle (done : (Prog.done response : Handler UpstreamResponse).Ran back outcome) :
        Forwards back := by
      obtain ⟨rfl, -⟩ := ran_done done
      exact nofun
    split at second
    · exact idle second
    · split at second
      · rw [forwardTo_ran second]
        exact one _ _
      · exact idle second

/-- Requests to the upstream leave the table. -/
theorem Forwards.same (forwards : Forwards events) (followed : Follows Shelf.moves before events after) :
    after = before := by
  induction followed with
  | nil => rfl
  | cons moved _ ih =>
    obtain ⟨_, _, _, _, rfl⟩ := forwards _ List.mem_cons_self
    cases moved
    exact ih fun event member => forwards event (List.mem_cons_of_mem _ member)

theorem Forwards.unmade (forwards : Forwards events) : Unmade events := by
  intro draft id member
  obtain ⟨_, _, _, _, same⟩ := forwards _ member
  cases same

/-- `complete` swallows its errors. -/
theorem complete_swallows {ctx : Option Nat} {response : UpstreamResponse} {outcome : Except Exn Unit}
    (ran : (complete config codec ctx response).Ran events outcome) : outcome = .ok () := by
  have swallows : (complete config codec ctx response).Asks (fun _ => True) (fun _ => False)
      (fun _ => True) := by
    cases ctx with
    | none => trivial
    | some id =>
      simp only [complete, bind_eq, pure_eq]
      split
      · trivial
      · refine ⟨trivial, fun found => ?_⟩
        rcases found with _ | _ | row
        · trivial
        · trivial
        · dsimp only
          split
          · trivial
          · exact ⟨trivial, fun _ => trivial⟩
  cases outcome with
  | ok value => rfl
  | error error => exact (asks_reaches ran swallows).elim

/-- A handler that ends with an error has come to its end in its start, or in its forward. -/
theorem refused_cases {error : Exn} (ran : (handle config codec depth request).Ran events (.error error)) :
    (startOrReplay config codec request depth).Ran events (.error error) ∨
      ∃ ctx front back, events = front ++ back ∧
        (startOrReplay config codec request depth).Ran front (.ok (ctx, none)) ∧
        (forwardRequest request).Ran back (.error error) := by
  rcases ran_bind ran with ⟨_, same, started⟩ | ⟨⟨ctx, replay⟩, front, back, rfl, started, rest⟩
  · cases same
    exact .inl started
  cases replay with
  | some response => cases rest
  | none =>
    refine .inr ⟨ctx, front, back, rfl, started, ?_⟩
    rcases ran_bind rest with ⟨_, same, forwarded⟩ | ⟨response, first, tail, rfl, _, completed⟩
    · cases same
      exact forwarded
    · rcases ran_bind completed with ⟨_, same, failed⟩ | ⟨_, _, _, _, _, done⟩
      · cases complete_swallows failed
      · cases done

theorem refused_leaves {error : Exn}
    (ran : (handle config codec depth request).Ran events (.error error))
    (followed : Follows Shelf.moves before events after) :
    Leaves config codec request events before after := by
  have started {ended : Except Exn (Option Nat × Option UpstreamResponse)} {front : Exchange}
      {middle : Shelf} (ran : (startOrReplay config codec request depth).Ran front ended)
      (followed : Follows Shelf.moves before front middle) :
      Leaves config codec request front before middle := by
    cases claimed : request.claimedKey config with
    | none =>
      obtain rfl := unclaimed_ran claimed ran
      cases followed
      exact .none (fun _ => .inl rfl) nofun
    | some key => exact (rounds_of_ran claimed ran followed).leaves claimed
  rcases refused_cases ran with whole | ⟨ctx, front, back, rfl, first, second⟩
  · exact started whole followed
  · obtain ⟨middle, followed, rest⟩ := (follows_append front back).mp followed
    have forwards := (forwarded second).1
    obtain rfl := forwards.same rest
    exact (started first followed).followed forwards.unmade
/-- The record of a request that stored no response. -/
structure Unanswered (created : Instant) (row : RecordColumns) : Prop where
  status : row.status = "in_progress"
  code : row.responseStatusCode = none
  createdAt : row.createdAt = created

/-- A waiting record keeps its key: it has not expired, and its grace is not over. -/
def Holding (config : IdempotencyConfig) (created expiresAt now : Instant) : Prop :=
  now ≤ expiresAt ∧ now - created ≤ staleAfter config * Instant.second

instance : Decidable (Holding config created expiresAt now) := inferInstanceAs (Decidable (_ ∧ _))

theorem verdict_unanswered {row : RecordColumns} (unanswered : Unanswered created row)
    (dated : row.expiresAt = some expiresAt) : verdict config now row.requestHash row =
      if Holding config created expiresAt now then .busy else .takeOver := by
  by_cases alive : now ≤ expiresAt
  · have notOver : ¬ expiresAt < now := not_lt.mpr alive
    by_cases graced : now - created ≤ staleAfter config * Instant.second
    · simp [verdict, verdict.unfinished, Holding, unanswered.status, unanswered.code, unanswered.createdAt,
        dated, alive, notOver, graced, not_lt.mpr graced]
    · simp [verdict, verdict.unfinished, Holding, unanswered.status, unanswered.code, unanswered.createdAt,
        dated, notOver, graced, not_le.mp graced]
  · simp [verdict, Holding, dated, alive, not_le.mp alive]

/-- The request again, by the one client at the table, with statements that succeed. -/
structure Retry (config : IdempotencyConfig) (codec : Codec) (request again : Incoming) (depth : Nat)
    (shelf : Shelf) (now : Instant) (events : Exchange) (outcome : Except Exn UpstreamResponse) :
    Prop where
  paired : Paired config again request
  alike : Alike again request
  ran : (handle config codec depth again).Ran events outcome
  followed : ∃ last, Follows Shelf.moves shelf events last
  faultless : Faultless config events
  called : calledAt events = some now

/-- The handler claims its key and forwards its request, as the first one with the key does. -/
def Afresh (config : IdempotencyConfig) (codec : Codec) (request : Incoming) (depth : Nat)
    (events : Exchange) : Prop :=
  ∃ front fresh reply back,
    (startOrReplay config codec request depth).Ran front (.ok (some fresh, none)) ∧
      events = front ++ ⟨.forward "POST" (request.endpoint.primaryPath request.query) request.payload,
        reply⟩ :: back

/-- A claimed handler starts in rounds; an error of theirs is its own, and with a context it goes on
to forward its request. -/
theorem Retry.started {outcome : Except Exn UpstreamResponse} {shelf : Shelf}
    (retry : Retry config codec request again (depth + 1) shelf now events outcome)
    (claimed : again.claimedKey config = some key) : ∃ front middle ended,
      Rounds config codec again key (depth + 1) shelf front middle ended ∧
        Faultless config front ∧ calledAt front = some now ∧
        (∀ error, ended = .error error → outcome = .error error ∧ events = front) ∧
        ∀ fresh, ended = .ok (some fresh, none) → Afresh config codec again (depth + 1) events := by
  obtain ⟨-, -, ran, ⟨last, followed⟩, faultless, called⟩ := retry
  rcases ran_bind ran with ⟨error, rfl, started⟩ | ⟨⟨ctx, replay⟩, front, back, rfl, started, rest⟩
  · refine ⟨events, last, _, rounds_of_ran claimed started followed, faultless, called, ?_, nofun⟩
    rintro _ ⟨⟩
    exact ⟨rfl, rfl⟩
  · obtain ⟨middle, followed, _⟩ := (follows_append front back).mp followed
    have rounds := rounds_of_ran claimed started followed
    obtain ⟨first, more, rfl⟩ := rounds.called
    refine ⟨_, middle, _, rounds, faultless.front, called, nofun, fun fresh same => ?_⟩
    cases same
    rcases ran_bind rest with ⟨_, rfl, sent⟩ | ⟨_, sending, _, rfl, sent, _⟩
    · obtain ⟨-, reply, back, rfl⟩ := forwarded sent
      exact ⟨_, fresh, reply, back, started, rfl⟩
    · obtain ⟨-, reply, back, rfl⟩ := forwarded sent
      exact ⟨_, fresh, reply, _, started, rfl⟩

/-- What a refused request leaves withholds its key from a retry, as long as it holds. -/
def Withholds (config : IdempotencyConfig) (codec : Codec) (request : Incoming)
    (created expiresAt : Instant) (shelf : Shelf) : Prop :=
  ∀ again depth now events outcome, 2 ≤ depth →
    Retry config codec request again depth shelf now events outcome →
      (Holding config created expiresAt now →
        outcome = .error (.fcam inProgress) ∧ ∀ event ∈ events, ¬sent event) ∧
      (¬Holding config created expiresAt now → Afresh config codec again depth events)

theorem withholds_of_claimed (claimed : request.claimedKey config = some key)
    (held : Claimed ⟨request.clientId, key, id, expiresAt, request.hash codec⟩
      (Unanswered created) after) : Withholds config codec request created expiresAt after := by
  intro again depth now events outcome deep retry
  obtain ⟨depth, rfl⟩ := Nat.exists_eq_add_of_le' deep
  have client : again.clientId = request.clientId := retry.paired.client
  have hash : again.hash codec = request.hash codec := retry.alike.hash
  obtain ⟨front, middle, ended, rounds, faultless, called, fails, goes⟩ :=
    retry.started (retry.paired.key.trans claimed)
  have decided (row : RecordColumns) (same : row.requestHash = request.hash codec)
      (dated : row.expiresAt = some expiresAt) (unanswered : Unanswered created row) :
      verdict config now (again.hash codec) row =
        if Holding config created expiresAt now then .busy else .takeOver := by
    rw [hash, ← same, verdict_unanswered unanswered dated]
  constructor
  · intro holding
    simp only [if_pos holding] at decided
    have answered := (held.rounds_own client rfl decided nofun rounds called holding.1).2 faultless
    obtain ⟨ended, same⟩ := fails _ answered
    exact ⟨ended, same ▸ rounds.unsent⟩
  · intro overdue
    simp only [if_neg overdue] at decided
    have lapsed : Lapsed config ⟨request.clientId, key, id, expiresAt, request.hash codec⟩
        (Unanswered created) now (again.hash codec) := by
      intro row dated there
      by_cases alive : now ≤ expiresAt
      · obtain ⟨same, unanswered⟩ := there alive
        exact decided row same dated unanswered
      · exact lapsed_of_expired (not_le.mp alive) row dated there
    obtain ⟨fresh, claims⟩ := held.rounds_over client rfl rounds called lapsed faultless
    exact goes fresh claims

/-- An error of a handler keeps its key claimed. -/
theorem refusal_withholds {error : Exn}
    (ran : (handle config codec depth request).Ran events (.error error))
    (followed : Follows Shelf.moves before events after) :
    Leaves config codec request events before after ∧
      ∀ draft id, ⟨.insert draft, .row id⟩ ∈ events → ∃ created,
        after.records.get? id = some (draft.row created) ∧
          Withholds config codec request created draft.expiresAt after := by
  have leaves := refused_leaves ran followed
  refine ⟨leaves, fun draft id inserted => ?_⟩
  cases leaves with
  | none _ unmade => exact absurd inserted (unmade draft id)
  | own claimed _ only pruned free added =>
    obtain ⟨rfl, rfl⟩ := only draft id inserted
    refine ⟨after.clock, ?_, ?_⟩
    · rw [Table.get_insert added, if_pos rfl]
    · exact withholds_of_claimed claimed (claimed_of_insert free added ⟨rfl, rfl, rfl⟩)

/-- The forward of the job over a pool without keys. -/
def jobCall : Forwarder.Call :=
  { Forwarder.plainCall with
    method := "POST", upstreamPath := "/v2/crawl", jsonBody := some job.payload }

def keylessRun (config : AppConfig ℚ) :
    Forwarder.Exchange ℚ × Except Exn (Forwarder.ForwardResult ℚ) × FcamGateway.Store :=
  (Forwarder.forward (Forwarder.plainSetup config) jobCall).execute (Forwarder.refusingUpstream [])
    { keys := Table.empty {}, clients := Table.empty {} }

/-- The job's handler, whose forward ends so. -/
def jobHandled (upstream : Except Exn UpstreamResponse) (shelf : Shelf) :
    Exchange × Except Exn UpstreamResponse × Shelf :=
  (handle {} jobCodec 4 job).execute (Shelf.answer 0 upstream) shelf

/-- The handler that is given the error of an empty pool. -/
def jobRefused (config : AppConfig ℚ) : Exchange × Except Exn UpstreamResponse × Shelf :=
  jobHandled ((keylessRun config).2.1.map Forwarder.ForwardResult.response) emptyShelf

/-- The job again, at once, when the pool has keys. -/
def jobRetried (config : AppConfig ℚ) : Exchange × Except Exn UpstreamResponse × Shelf :=
  jobHandled (.ok jobResponse) (jobRefused config).2.2

/-- The reply to a forward. -/
def forwardReply : Event Op Reply → Option (Except Exn UpstreamResponse)
  | ⟨.forward _ _ _, reply⟩ => some reply
  | _ => none

def refusedCode {Value : Type} : Except Exn Value → Option String
  | .error (.fcam error) => some error.code
  | _ => none

theorem refusedCode_some {Value : Type} {outcome : Except Exn Value} {code : String}
    (failed : refusedCode outcome = some code) :
    ∃ refusal, refusal.code = code ∧ outcome = .error (.fcam refusal) := by
  unfold refusedCode at failed
  split at failed
  · exact ⟨_, Option.some.inj failed, rfl⟩
  · cases failed

theorem keyless_refused : ∃ refusal, refusal.code = "NO_KEY_CONFIGURED" ∧
    (keylessRun {}).2.1 = .error (.fcam refusal) ∧ (jobRefused {}).2.1 = .error (.fcam refusal) := by
  obtain ⟨refusal, code, ended⟩ : ∃ refusal, refusal.code = "NO_KEY_CONFIGURED" ∧
    (keylessRun {}).2.1 = .error (.fcam refusal) := refusedCode_some (by decide +kernel)
  have same : (jobRefused {}).2.1 = (keylessRun {}).2.1.map Forwarder.ForwardResult.response := by
    decide +kernel
  rw [ended] at same
  exact ⟨refusal, code, ended, same⟩

theorem job_withheld : Leaves {} jobCodec job (jobRefused {}).1 emptyShelf (jobRefused {}).2.2 ∧
    ∃ created, (jobRefused {}).2.2.records.get? 1 =
        some ((job.draft jobCodec "k" (86400 * Instant.second)).row created) ∧
      Withholds {} jobCodec job created (86400 * Instant.second) (jobRefused {}).2.2 := by
  obtain ⟨refusal, _, _, ended⟩ := keyless_refused
  have ran : (handle {} jobCodec 4 job).Ran (jobRefused {}).1 (jobRefused {}).2.1 := execute_ran _ _ _
  rw [ended] at ran
  obtain ⟨leaves, withholds⟩ := refusal_withholds ran
    (execute_follows (Shelf.answer_honest 0 _) _ emptyShelf)
  refine ⟨leaves, withholds (job.draft jobCodec "k" (86400 * Instant.second)) 1 ?_⟩
  exact inserted_at (show ((jobRefused {}).1[2]?.map insertedRow) = _ by decide +kernel)

/-- The pool has no keys and nothing is sent upstream, but the job's record stays, and the job is
refused when it is asked for again at once. -/
theorem refusal_keeps_key : ∃ refusal, refusal.code = "NO_KEY_CONFIGURED" ∧
    (Forwarder.forward (Forwarder.plainSetup {}) jobCall).Ran (keylessRun {}).1 (.error (.fcam refusal)) ∧
    Forwarder.sends (keylessRun {}).1 = [] ∧
    (handle {} jobCodec 4 job).Ran (jobRefused {}).1 (.error (.fcam refusal)) ∧
    (jobRefused {}).1.filterMap forwardReply = [.error (.fcam refusal)] ∧
    Follows Shelf.moves emptyShelf (jobRefused {}).1 (jobRefused {}).2.2 ∧
    emptyShelf.records.ids = [] ∧ (jobRefused {}).2.2.records.ids = [1] ∧
    (handle {} jobCodec 4 job).Ran (jobRetried {}).1 (.error (.fcam inProgress)) ∧
    Follows Shelf.moves (jobRefused {}).2.2 (jobRetried {}).1 (jobRetried {}).2.2 := by
  obtain ⟨refusal, code, keyless, ended⟩ := keyless_refused
  have forward : (Forwarder.forward (Forwarder.plainSetup {}) jobCall).Ran (keylessRun {}).1
      (keylessRun {}).2.1 := execute_ran _ _ _
  have ran : (handle {} jobCodec 4 job).Ran (jobRefused {}).1 (jobRefused {}).2.1 := execute_ran _ _ _
  have again : (handle {} jobCodec 4 job).Ran (jobRetried {}).1 (jobRetried {}).2.1 := execute_ran _ _ _
  have replied : (jobRefused {}).1.filterMap forwardReply =
      [(keylessRun {}).2.1.map Forwarder.ForwardResult.response] := by decide +kernel
  have busy : (jobRetried {}).2.1 = .error (.fcam inProgress) := by decide +kernel
  rw [keyless] at forward replied
  rw [ended] at ran
  rw [busy] at again
  exact ⟨refusal, code, forward, by decide +kernel, ran, replied,
    execute_follows (Shelf.answer_honest 0 _) _ _, rfl, by decide +kernel, again,
    execute_follows (Shelf.answer_honest 0 _) _ _⟩

end FcamGateway.Idempotency
