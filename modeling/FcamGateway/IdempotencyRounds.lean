import FcamGateway.IdempotencyRecords

/-! The rounds of one `start_or_replay` on the table of records, while no other handler is at it.
A round ends the call, or deletes the record it takes over and leads to another round. -/
namespace FcamGateway.Idempotency
open Prog

/-- The shelf after the reading of a round and its cleanup, which may have failed. -/
inductive Swept (clientId : Nat) (now : Instant) (before : Shelf) : Shelf → Prop where
  | kept (notBefore : before.clock ≤ now) : Swept clientId now before { before with clock := now }
  | cleaned (notBefore : before.clock ≤ now) : Swept clientId now before
      { clock := now, records := before.records.delete fun _ row => Shelf.expired clientId now row }

theorem Swept.clock {clientId : Nat} {now : Instant} {before after : Shelf}
    (swept : Swept clientId now before after) : after.clock = now := by
  cases swept <;> rfl

theorem Swept.notBefore {clientId : Nat} {now : Instant} {before after : Shelf}
    (swept : Swept clientId now before after) : before.clock ≤ now := by
  cases swept <;> assumption

/-- The answer of a call that met a record which it does not take over. -/
def Verdict.answer (codec : Codec) : Verdict → Except Exn (Option Nat × Option UpstreamResponse)
  | .takeOver => .error .other
  | .conflict => .error (.fcam keyConflict)
  | .replay statusCode body =>
    match deserializeResponse codec statusCode body with
    | some response => .ok (none, some response)
    | none => .error (.fcam invalidRecord)
  | .busy => .error (.fcam inProgress)

section

variable (config : IdempotencyConfig) (codec : Codec) (request : Incoming) (key : String)

/-- A round has swept its client's expired records and knows when a new one would expire. -/
structure Entered (before middle : Shelf) (now expiresAt : Instant) : Prop where
  swept : Swept request.clientId now before middle
  expires : now.addSeconds? (max config.ttlSeconds 1) = some expiresAt

/-- How a round goes: what it asks, the shelf it leaves, and the outcome if it is the last. -/
inductive Round (before : Shelf) :
    Exchange → Shelf → Option (Except Exn (Option Nat × Option UpstreamResponse)) → Prop where
  | overflown (swept : Swept request.clientId now before after)
      (overdue : now.addSeconds? (max config.ttlSeconds 1) = none) :
      Round before [⟨.now, now⟩, ⟨.cleanup request.clientId now, ()⟩] after (some (.error .other))
  | created {id : Nat} {created : Instant}
      (entered : Entered config request before middle now expiresAt)
      (free : middle.taken request.clientId key = none) (later : now ≤ created)
      (inserted : middle.records.insert? id ((request.draft codec key expiresAt).row created) =
        some records) :
      Round before (opening codec request key now expiresAt (.row id) ++ [⟨.refresh id, true⟩])
        ⟨created, records⟩ (some (.ok (some id, none)))
  | unread {id : Nat} {created : Instant}
      (entered : Entered config request before middle now expiresAt)
      (free : middle.taken request.clientId key = none) (later : now ≤ created)
      (inserted : middle.records.insert? id ((request.draft codec key expiresAt).row created) =
        some records) :
      Round before (opening codec request key now expiresAt (.row id) ++ [⟨.refresh id, false⟩])
        ⟨created, records⟩ (some (.error (.fcam dbUnavailable)))
  | failed (entered : Entered config request before after now expiresAt) :
      Round before (opening codec request key now expiresAt .failed) after
        (some (.error (.fcam dbUnavailable)))
  | lost (entered : Entered config request before after now expiresAt)
      (missing : found = none ∨ found = some none) :
      Round before (opening codec request key now expiresAt .conflict ++
        [⟨.lookup request.clientId key, found⟩]) after (some (.error error))
  | answered {id : Nat} (entered : Entered config request before after now expiresAt)
      (found : after.taken request.clientId key = some (id, record))
      (kept : verdict config now (request.hash codec) record ≠ .takeOver) :
      Round before (opening codec request key now expiresAt .conflict ++
        [⟨.lookup request.clientId key, some (some (id, record))⟩]) after
        (some ((verdict config now (request.hash codec) record).answer codec))
  | stuck {id : Nat} (entered : Entered config request before after now expiresAt)
      (found : after.taken request.clientId key = some (id, record))
      (overdue : verdict config now (request.hash codec) record = .takeOver) :
      Round before (opening codec request key now expiresAt .conflict ++
        [⟨.lookup request.clientId key, some (some (id, record))⟩, ⟨.delete id, false⟩]) after
        (some (.error (.fcam dbUnavailable)))
  | again {id : Nat} (entered : Entered config request before middle now expiresAt)
      (found : middle.taken request.clientId key = some (id, record))
      (overdue : verdict config now (request.hash codec) record = .takeOver) :
      Round before (opening codec request key now expiresAt .conflict ++
        [⟨.lookup request.clientId key, some (some (id, record))⟩, ⟨.delete id, true⟩])
        { middle with records := middle.records.delete fun other _ => other = id } none

/-- How a call goes that may start so many rounds. -/
inductive Rounds : Nat → Shelf → Exchange → Shelf →
    Except Exn (Option Nat × Option UpstreamResponse) → Prop where
  | spent : Rounds 0 shelf [] shelf (.error .other)
  | last (round : Round config codec request key before events after (some outcome)) :
      Rounds (depth + 1) before events after outcome
  | again (round : Round config codec request key before events middle none)
      (rest : Rounds depth middle more after outcome) :
      Rounds (depth + 1) before (events ++ more) after outcome

end

variable {config : IdempotencyConfig} {codec : Codec} {request : Incoming} {key : String}

/-- A round begins with a reading. -/
theorem Round.called {before after : Shelf} {events : Exchange}
    {outcome : Option (Except Exn (Option Nat × Option UpstreamResponse))}
    (round : Round config codec request key before events after outcome) :
    ∃ now rest, events = ⟨.now, now⟩ :: rest := by
  cases round <;> exact ⟨_, _, rfl⟩

abbrev logged : Monitor (Shelf × Exchange) Op Reply := .logging Shelf.moves

theorem wp_put {post : Except Exn Value → Shelf × Exchange → Prop} {shelf : Shelf}
    {seen : Exchange} (op : Op) {rest : Reply op → Handler Value}
    (met : ∀ reply last, shelf.moves ⟨op, reply⟩ last →
      (rest reply).wp logged post (last, seen ++ [⟨op, reply⟩])) :
    ((ask op).bind rest).wp logged post (shelf, seen) :=
  (wp_logged op _).mpr met

/-- A claimed call goes in rounds. -/
theorem wp_rounds (claimed : request.claimedKey config = some key) (depth : Nat) (before : Shelf)
    (seen : Exchange) : (startOrReplay config codec request depth).wp logged
      (fun outcome last => ∃ events, last.2 = seen ++ events ∧
        Rounds config codec request key depth before events last.1 outcome) (before, seen) := by
  induction depth generalizing before seen with
  | zero => exact ⟨[], (List.append_nil _).symm, .spent⟩
  | succ depth ih =>
    have enabled : config.enabled = true := by
      by_contra off
      simp [Incoming.claimedKey, off] at claimed
    simp only [startOrReplay, enabled, claimed, Bool.not_true, Bool.false_eq_true, if_false, bind_eq,
      pure_eq]
    refine wp_put .now ?_
    rintro now _ ⟨notBefore, rfl⟩
    refine wp_put (.cleanup request.clientId now) fun _ middle moved => ?_
    have swept : Swept request.clientId now before middle := by
      rcases moved with rfl | rfl
      · exact .kept notBefore
      · exact .cleaned notBefore
    split
    · rename_i overdue
      exact ⟨_, List.append_assoc .., .last (.overflown swept overdue)⟩
    rename_i expiresAt expires
    have entered : Entered config request before middle now expiresAt := ⟨swept, expires⟩
    have ended {events : Exchange} {after : Shelf}
        {outcome : Except Exn (Option Nat × Option UpstreamResponse)} {last : Exchange}
        (whole : last = seen ++ events)
        (round : Round config codec request key before events after (some outcome)) :
        ∃ events, last = seen ++ events ∧
          Rounds config codec request key (depth + 1) before events after outcome :=
      ⟨events, whole, .last round⟩
    refine wp_put (.insert (request.draft codec key expiresAt)) fun inserted last moved => ?_
    cases inserted with
    | failed =>
      cases moved
      exact ended (by simp [opening]) (.failed entered)
    | row id =>
      obtain ⟨free, created, records, notBefore, inserted, rfl⟩ := moved
      have later : now ≤ created := swept.clock ▸ notBefore
      refine wp_put (.refresh id) fun found last moved => ?_
      obtain ⟨rfl, -⟩ := moved
      cases found with
      | false => exact ended (by simp [opening]) (.unread entered free later inserted)
      | true => exact ended (by simp [opening]) (.created entered free later inserted)
    | conflict =>
      cases moved
      refine wp_put (.lookup request.clientId key) fun found last moved => ?_
      obtain ⟨rfl, replied⟩ := moved
      rcases found with _ | _ | ⟨id, record⟩
      · exact ended (by simp [opening]) (.lost entered (.inl rfl))
      · exact ended (by simp [opening]) (.lost entered (.inr rfl))
      have taken : last.taken request.clientId key = some (id, record) :=
        (Option.some.inj (replied.resolve_left (Option.some_ne_none _))).symm
      have answered {decided : Verdict}
          (same : verdict config now (request.hash codec) record = decided)
          (kept : decided ≠ .takeOver) : Round config codec request key before
            (opening codec request key now expiresAt .conflict ++
              [⟨.lookup request.clientId key, some (some (id, record))⟩]) last
            (some (decided.answer codec)) := by
        subst same
        exact .answered entered taken kept
      dsimp only
      split <;> rename_i decided
      · refine wp_put (.delete id) fun deleted next moved => ?_
        rcases moved with ⟨rfl, rfl⟩ | ⟨rfl, rfl⟩
        · apply wp_mono _ (ih _ _)
          rintro outcome ⟨after, _⟩ ⟨more, rfl, rest⟩
          exact ⟨_, by simp [opening], .again (.again entered taken decided) rest⟩
        · exact ended (by simp [opening]) (.stuck entered taken decided)
      · exact ended (by simp [opening]) (answered decided (by simp))
      · have round := answered decided (by simp)
        simp only [Verdict.answer] at round
        split <;> rename_i stored <;> rw [stored] at round <;>
          exact ended (by simp [opening]) round
      · exact ended (by simp [opening]) (answered decided (by simp))

/-- A run of a claimed call, round by round. -/
theorem rounds_of_ran {depth : Nat} {before after : Shelf} {events : Exchange}
    {outcome : Except Exn (Option Nat × Option UpstreamResponse)}
    (claimed : request.claimedKey config = some key)
    (ran : (startOrReplay config codec request depth).Ran events outcome)
    (followed : Follows Shelf.moves before events after) :
    Rounds config codec request key depth before events after outcome := by
  obtain ⟨_, rfl, rounds⟩ := wp_logging ran followed (wp_rounds claimed depth before [])
  exact rounds

end FcamGateway.Idempotency
