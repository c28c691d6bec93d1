import FcamGateway.DataPlane

/-! The course of one request for the row of its client: it is turned away, refused for the quota or
let through, and a success is accounted once. -/
namespace FcamGateway.DataPlane
open Prog Credits Upstream Forwarder ForwardEffects

set_option linter.unusedSectionVars false

variable {R : Type} [Field R] [LinearOrder R] [ScoreMath R]

/-- The questions to sessions and upstream, with their replies. -/
def database (events : DataEvents R) : Exchange R :=
  events.filterMap fun
    | ⟨.session op, reply⟩ => some ⟨op, reply⟩
    | _ => none

/-- The day on which the quota was checked. -/
def dayOf (events : DataEvents R) : Option Int :=
  events.findSome? fun
    | ⟨.today _, reply⟩ => reply
    | _ => none

/-- The governance let the request through to its handler. -/
def admitted (events : DataEvents R) : Bool :=
  events.any fun event => match event.op with
    | .prepare => true
    | _ => false

/-- The request obtained a 2xx response from the upstream. -/
def succeeded (events : DataEvents R) : Bool :=
  (replies (database events)).any fun entry => Succeeds entry.2

/-- The client's row after the commits of an exchange. -/
def rowAfter (id : Nat) (row : ClientColumns) (events : DataEvents R) : ClientColumns :=
  ((database events).filterMap accountOf).foldl
    (fun row client => if client.id = id then client.flush row else row) row

variable {setup : Setup R} {id : Nat} {row : ClientColumns} {history last : DataEvents R}
  {client : ClientObject} {request : ProxyRequest}

/-- A gateway event as an event of a request. -/
def embed (event : Event (Op R) (Reply R)) : Event (DataOp R) (DataReply R) :=
  ⟨.session event.op, event.reply⟩

abbrev watched : Monitor (DataEvents R) (DataOp R) (DataReply R) :=
  .history (DataOp R) (DataReply R)

theorem wp_put {post : Except Exn Value → DataEvents R → Prop} (op : DataOp R)
    (rest : DataReply R op → Part R Value) :
    ((put op).bind rest).wp watched post history ↔
      ∀ reply, (rest reply).wp watched post (history ++ [⟨op, reply⟩]) :=
  wp_asked op _

/-- A gateway function within a request has the exchanges that it has alone. -/
theorem wp_within {program : Gateway R Value} {post : Except Exn Value → DataEvents R → Prop}
    (ends : ∀ inner outcome, program.Ran inner outcome →
      post outcome (history ++ inner.map embed)) :
    (within program).wp watched post history := by
  induction program generalizing history with
  | done value =>
    have ended := ends [] (.ok value) .here
    rwa [List.map_nil, List.append_nil] at ended
  | raise error =>
    have ended := ends [] (.error error) .here
    rwa [List.map_nil, List.append_nil] at ended
  | ask op next ih =>
    refine (wp_asked _ _).mpr fun reply => ih reply fun inner outcome ran => ?_
    have ended := ends (⟨op, reply⟩ :: inner) outcome (.ask ran)
    rwa [List.map_cons, List.append_cons] at ended

@[simp] theorem database_append (front back : DataEvents R) :
    database (front ++ back) = database front ++ database back := List.filterMap_append

@[simp] theorem admitted_append (front back : DataEvents R) :
    admitted (front ++ back) = (admitted front || admitted back) := List.any_append

theorem dayOf_append (back : DataEvents R) {day : Int} (known : dayOf history = some day) :
    dayOf (history ++ back) = some day := by
  rw [dayOf, List.findSome?_append]
  exact congrArg (Option.or · _) known

@[simp] theorem database_embed (inner : Exchange R) : database (inner.map embed) = inner := by
  induction inner with
  | nil => rfl
  | cons event inner ih => exact congrArg (event :: ·) ih

/-- What a gateway function asks admits nothing. -/
@[simp] theorem admitted_embed (inner : Exchange R) : admitted (inner.map embed) = false := by
  induction inner with
  | nil => rfl
  | cons event inner ih => exact ih

/-- What the forwards of a request have done for their client: nothing, or they obtained one
success and accounted it as the mode says. -/
def Balanced (setup : Setup R) (client : ClientObject) (inner : Exchange R) : Prop :=
  Fruitless inner ∨ ((replies inner).any (fun entry => Succeeds entry.2) = true ∧
    if setup.config.quota.countMode = "success"
    then ∃ usedAt, accounts inner = [counted client usedAt] else accounts inner = [])

/-- How a forward ends, by its exchange. -/
theorem forward_ends {call : Call} {inner : Exchange R} {outcome : Except Exn (ForwardResult R)}
    (ran : (forward setup call).Ran inner outcome) : Ends setup call outcome inner := by
  have known (other : Bytes) (given : setup.masterKey = some other) : other = master setup := by
    rw [master, given]
    rfl
  exact wp_history ran (wp_forward setup call known)

theorem fruitless_append {front back : Exchange R} (one : Fruitless front) (two : Fruitless back) :
    Fruitless (front ++ back) := by
  constructor
  · rw [replies_append]
    exact List.forall_mem_append.mpr ⟨one.failed, two.failed⟩
  · rw [accounts_append, one.unaccounted, two.unaccounted]
    rfl

/-- A forward that did nothing changes no balance. -/
theorem Balanced.after {front back : Exchange R} (fruitless : Fruitless front)
    (balanced : Balanced setup client back) : Balanced setup client (front ++ back) := by
  rcases balanced with nothing | ⟨success, accounted⟩
  · exact .inl (fruitless_append fruitless nothing)
  · refine .inr ⟨?_, ?_⟩
    · rw [replies_append, List.any_append, success, Bool.or_true]
    · rw [accounts_append, fruitless.unaccounted, List.nil_append]
      exact accounted

theorem balanced_of_ends {call : Call} {inner : Exchange R}
    {outcome : Except Exn (ForwardResult R)} (ends : Ends setup call outcome inner) :
    Faulted inner ∨ Balanced setup call.client inner := by
  cases outcome with
  | error error =>
    rcases ends with fruitless | faulted
    · exact .inr (.inl fruitless)
    · exact .inl faulted
  | ok result =>
    simp only [Ends] at ends
    split at ends
    · refine .inr (.inr ⟨?_, ends.accounted⟩)
      obtain ⟨entry, member, success⟩ :=
        List.countP_pos_iff.mp (ends.succeeded ▸ Nat.one_pos)
      exact List.any_eq_true.mpr ⟨entry, member, success⟩
    · exact .inr (.inl ends)

/-- More events of a request, all of its forwards. -/
def Forwarded (setup : Setup R) (client : ClientObject) (history last : DataEvents R) : Prop :=
  ∃ inner, last = history ++ inner.map embed ∧ (Faulted inner ∨ Balanced setup client inner)

theorem wp_forwardWithFallback (pinnedApiKeyId : Option Nat) :
    (forwardWithFallback setup request client pinnedApiKeyId).wp watched
      (fun _ last => Forwarded setup client history last) history := by
  unfold forwardWithFallback
  refine (wp_bind _).mpr (wp_within fun inner outcome ran => ?_)
  have ends := forward_ends ran
  have balanced := balanced_of_ends ends
  cases outcome with
  | error error => exact ⟨inner, rfl, balanced⟩
  | ok result =>
    simp only [thenPost]
    split
    · exact ⟨inner, rfl, balanced⟩
    · split
      · rename_i unknown
        -- a response that is not known upstream is no success
        have fruitless : Fruitless inner := by
          simp only [Ends] at ends
          split at ends
          · rename_i success
            rcases List.mem_cons.mp unknown with same | same
            · simp [isSuccess, same] at success
            · simp [isSuccess, List.mem_singleton.mp same] at success
          · exact ends
        refine wp_within fun again outcome ran => ⟨inner ++ again, ?_, ?_⟩
        · rw [List.map_append, List.append_assoc]
        · rcases balanced_of_ends (forward_ends ran) with ⟨batch, member⟩ | balanced
          · exact .inl ⟨batch, List.mem_append_right _ member⟩
          · exact .inr (balanced.after fruitless)
      · exact ⟨inner, rfl, balanced⟩

/-- The handler was entered, and what it did for its client. -/
structure Handled (setup : Setup R) (client : ClientObject) (history last : DataEvents R) :
    Prop where
  entered : admitted last = true
  day : ∀ day, dayOf history = some day → dayOf last = some day
  forwarded : ∃ inner, database last = database history ++ inner ∧
    (Faulted inner ∨ Balanced setup client inner)

theorem wp_handle :
    (handle setup request client).wp watched (fun _ last => Handled setup client history last)
      history := by
  unfold handle
  refine (wp_put .prepare _).mpr fun prepared => ?_
  have entered (back : DataEvents R) :
      admitted (history ++ [⟨.prepare, prepared⟩] ++ back) = true := by simp [admitted]
  have idle : Handled setup client history (history ++ [⟨.prepare, prepared⟩]) := by
    refine ⟨by simp [admitted], fun day known => dayOf_append _ known, [], ?_,
      .inr (.inl ⟨nofun, rfl⟩)⟩
    rw [database_append]
    rfl
  rcases prepared with error | _ | pinnedApiKeyId
  · exact idle
  · exact idle
  · refine (wp_bind _).mpr (wp_mono ?_ (wp_forwardWithFallback pinnedApiKeyId))
    rintro outcome last ⟨inner, rfl, balanced⟩
    have handled (back : DataEvents R) (none : database back = []) : Handled setup client history
        (history ++ [⟨.prepare, .ok (.go pinnedApiKeyId)⟩] ++ inner.map embed ++ back) := by
      refine ⟨?_, fun day known => ?_, inner, ?_, balanced⟩
      · rw [List.append_assoc]
        exact entered _
      · exact dayOf_append _ (dayOf_append _ (dayOf_append _ known))
      · rw [database_append, database_append, database_append, database_embed, none]
        simp [database]
    cases outcome with
    | error error =>
      have ended := handled [] rfl
      rwa [List.append_nil] at ended
    | ok result =>
      refine (wp_put .conclude _).mpr fun concluded => ?_
      have ended := handled [⟨.conclude, concluded⟩] rfl
      rcases concluded with error | ⟨⟩ <;> exact ended

/-- A client object flushed onto the row it was loaded from leaves what it holds. -/
theorem flush_loaded (client : ClientObject) : client.flush client.loaded = client.current := by
  simp only [ClientObject.flush, KeyObject.written_loaded]

/-- The course of a request whose commits succeed, by what it does to the client's row: it is
turned away by a limit or an error, refused for the quota, or let through to its handler. -/
inductive Course (setup : Setup R) (id : Nat) (quota : Int) (row : ClientColumns)
    (outcome : Except Exn (Option UpstreamResponse)) (events : DataEvents R) : Prop where
  | away (outside : admitted events = false) (kept : rowAfter id row events = row)
      (other : ∀ retryAfter, outcome ≠ .error (.fcam (clientQuotaExceeded retryAfter)))
  | refused (today : Int) (day : dayOf events = some today) (outside : admitted events = false)
      (kept : rowAfter id row events = resetUsage today row)
      (spent : quota ≤ (resetUsage today row).dailyUsage)
  | entered (today : Int) (day : dayOf events = some today) (inside : admitted events = true)
      (left : (resetUsage today row).dailyUsage < quota)
      (kept : (rowAfter id row events).dailyQuota = row.dailyQuota ∧
        (rowAfter id row events).quotaResetAt = some today)
      (usage : (rowAfter id row events).dailyUsage = (resetUsage today row).dailyUsage +
        if succeeded events = true ∧ setup.config.quota.countMode = "success" then 1 else 0)

@[simp] theorem resetUsage_day (today : Int) (row : ClientColumns) :
    (resetUsage today row).quotaResetAt = some today := by
  simp only [resetUsage]
  split
  · assumption
  · rfl

@[simp] theorem resetUsage_quota (today : Int) (row : ClientColumns) :
    (resetUsage today row).dailyQuota = row.dailyQuota := by
  simp only [resetUsage]
  split <;> rfl

/-- Where every commit succeeds, the objects written are those committed. -/
theorem accountOf_unfaulted {inner : Exchange R} (committed : ¬ Faulted inner) :
    inner.filterMap accountOf = accounts inner := by
  refine List.filterMap_congr fun event member => ?_
  obtain ⟨op, reply⟩ := event
  cases op with
  | commit batch =>
    cases reply with
    | true => rfl
    | false => exact absurd ⟨batch, member⟩ committed
  | _ => rfl

/-- What the governance hands to the handler. -/
def Governed (id : Nat) (quota : Int) (row : ClientColumns) (governed : ClientObject)
    (last : DataEvents R) : Prop :=
  ∃ today, governed = ClientObject.fresh id (resetUsage today row) ∧ dayOf last = some today ∧
    (resetUsage today row).dailyUsage < quota ∧ rowAfter id row last = resetUsage today row ∧
    replies (database last) = []

/-- How the quota check ends. -/
def Checked (setup : Setup R) (id : Nat) (quota : Int) (row : ClientColumns) :
    Except Exn ClientObject → DataEvents R → Prop
  | .ok governed, last => Faulted (database last) ∨ Governed id quota row governed last
  | .error error, last => Faulted (database last) ∨ Course setup id quota row (.error error) last

/-- The commit of the reset object writes the row so. -/
theorem rowAfter_reset (id : Nat) (today : Int) (row : ClientColumns) (front back : DataEvents R)
    (before : database front = []) (after : database back = []) :
    rowAfter id row (front ++ [⟨.session (.commit
      { site := .quotaReset, keys := []
        client := some ((ClientObject.fresh id row).assign (resetUsage today)) }), true⟩] ++ back) =
      resetUsage today row := by
  have flushed := flush_loaded ((ClientObject.fresh id row).assign (resetUsage today))
  simp only [rowAfter, database_append, before, after, List.nil_append, List.append_nil]
  exact (if_pos rfl).trans flushed

theorem rowAfter_idle {events : DataEvents R} (idle : database events = []) :
    rowAfter id row events = row := by
  simp only [rowAfter, idle]
  rfl

/-- A question that neither enters the handler nor is put to a session. -/
def Outer : DataOp R → Prop
  | .prepare => False
  | .session _ => False
  | _ => True

/-- The exchange of a request that has not reached a session or its handler. -/
structure Waiting (events : DataEvents R) : Prop where
  quiet : database events = []
  outside : admitted events = false

theorem Waiting.then (waiting : Waiting history) (op : DataOp R) (reply : DataReply R op)
    (outer : Outer op) : Waiting (history ++ [⟨op, reply⟩]) := by
  have added : database [⟨op, reply⟩] = [] ∧ admitted [⟨op, reply⟩] = false := by
    cases op with
    | prepare => exact outer.elim
    | session op => exact outer.elim
    | _ => exact ⟨rfl, rfl⟩
  exact ⟨by rw [database_append, waiting.quiet, added.1]; rfl,
    by rw [admitted_append, waiting.outside, added.2]; rfl⟩

/-- A request that is turned away with an error. -/
theorem wp_releaseAnd {post : Except Exn Value → DataEvents R → Prop} (client : ClientObject)
    (error : FcamError)
    (ended : ∀ reply, post (.error (.fcam error)) (history ++ [⟨.release client.id, reply⟩])) :
    (releaseAnd client error : Part R Value).wp watched post history :=
  (wp_put _ _).mpr ended

/-- The handler of an exception adds to the exchange. -/
theorem wp_quotaCheckFailed (client : ClientObject) :
    (quotaCheckFailed client : Part R Value).wp watched (fun _ last => ∃ back, last = history ++ back)
      history := by
  refine (wp_put (.logClient client.id) _).mpr fun read => ?_
  cases read with
  | false => exact ⟨_, rfl⟩
  | true => exact wp_releaseAnd _ _ fun reply => ⟨_, List.append_assoc _ _ _⟩

theorem Waiting.away {error : FcamError} (waiting : Waiting history)
    (other : error.code ≠ "CLIENT_QUOTA_EXCEEDED") (quota : Int) :
    Course setup id quota row (.error (.fcam error)) history := by
  refine .away waiting.outside (rowAfter_idle waiting.quiet) ?_
  rintro retryAfter ⟨⟩
  exact other rfl

theorem faulted_reset (front : DataEvents R) (batch : Commit) :
    Faulted (database (front ++ [⟨.session (.commit batch), false⟩])) := by
  refine ⟨batch, ?_⟩
  rw [database_append]
  exact List.mem_append_right _ (List.mem_singleton_self _)

theorem faulted_grown (faulted : Faulted (database history)) (back : DataEvents R) :
    Faulted (database (history ++ back)) := by
  obtain ⟨batch, member⟩ := faulted
  refine ⟨batch, ?_⟩
  rw [database_append]
  exact List.mem_append_left _ member

/-- A quota check that went on after a failed commit. -/
theorem checked_faulted {quota : Int} {outcome : Except Exn ClientObject}
    (faulted : Faulted (database last)) : Checked setup id quota row outcome last := by
  cases outcome <;> exact .inl faulted

/-- The quota part of the governance, with the lease and the limit granted. -/
theorem wp_enforceQuota (quota : Int) (given : row.dailyQuota = some quota)
    (enabled : setup.config.quota.enableQuotaCheck = true) (waiting : Waiting history)
    (undated : dayOf history = none) :
    (enforceQuota setup.config.quota (ClientObject.fresh id row)).wp watched
      (Checked setup id quota row) history := by
  have current : (ClientObject.fresh id row).current.dailyQuota = some quota := given
  unfold enforceQuota commitReset
  rw [current]
  simp only [enabled, Bool.not_true, Bool.false_eq_true, ↓reduceIte]
  refine (wp_put (.today setup.config.quota.timezone) _).mpr fun found => ?_
  have waiting := waiting.then (.today setup.config.quota.timezone) found trivial
  cases found with
  | none =>
    refine wp_releaseAnd _ dbUnavailable fun reply => .inr ?_
    exact (waiting.then (.release _) reply trivial).away (by decide) quota
  | some today =>
    have dated : dayOf (history ++ [⟨.today setup.config.quota.timezone, some today⟩]) =
        some today := by
      rw [dayOf, List.findSome?_append]
      change (dayOf history).or _ = _
      rw [undated]
      rfl
    generalize history ++ [⟨.today setup.config.quota.timezone, some today⟩] = dayed
      at waiting dated
    have clean (same : ¬ (ClientObject.fresh id row).current.quotaResetAt ≠ some today) :
        resetUsage today row = row := if_pos (not_not.mp same)
    dsimp only
    split
    · rename_i spent
      refine (wp_put (.untilMidnight setup.config.quota.timezone) _).mpr fun found => ?_
      have waiting := waiting.then (.untilMidnight setup.config.quota.timezone) found trivial
      have dated := dayOf_append [⟨.untilMidnight setup.config.quota.timezone, found⟩] dated
      cases found with
      | none =>
        refine wp_releaseAnd _ dbUnavailable fun reply => .inr ?_
        exact (waiting.then (.release _) reply trivial).away (by decide) quota
      | some retryAfter =>
        dsimp only
        split
        · refine (wp_put (.session (.commit _)) _).mpr fun written => ?_
          cases written with
          | false =>
            refine (wp_put .rollback _).mpr fun undone => ?_
            cases undone with
            | false =>
              apply wp_mono _ (wp_quotaCheckFailed _)
              rintro outcome last ⟨back, rfl⟩
              exact checked_faulted (faulted_grown (faulted_grown (faulted_reset _ _) _) back)
            | true =>
              refine wp_releaseAnd _ _ fun reply => ?_
              exact checked_faulted (faulted_grown (faulted_grown (faulted_reset _ _) _) _)
          | true =>
            refine wp_releaseAnd _ (clientQuotaExceeded retryAfter) fun reply => ?_
            refine .inr (.refused today (dayOf_append _ (dayOf_append _ dated)) ?_ ?_ spent)
            · rw [admitted_append, admitted_append, waiting.outside]
              rfl
            · exact rowAfter_reset id today row _ _ waiting.quiet rfl
        · rename_i same
          refine wp_releaseAnd _ (clientQuotaExceeded retryAfter) fun reply => .inr ?_
          have waiting := waiting.then (.release _) reply trivial
          exact .refused today (dayOf_append _ dated) waiting.outside
            ((rowAfter_idle waiting.quiet).trans (clean same).symm) spent
    · rename_i left
      have left : (resetUsage today row).dailyUsage < quota := not_le.mp left
      split
      · refine (wp_put (.session (.commit _)) _).mpr fun written => ?_
        cases written with
        | false =>
          apply wp_mono _ (wp_quotaCheckFailed _)
          rintro outcome last ⟨back, rfl⟩
          exact checked_faulted (faulted_grown (faulted_reset _ _) back)
        | true =>
          refine .inr ⟨today, rfl, dayOf_append _ dated, left, ?_, ?_⟩
          · have reset := rowAfter_reset id today row dayed [] waiting.quiet rfl
            rwa [List.append_nil] at reset
          · rw [database_append, waiting.quiet]
            rfl
      · rename_i same
        refine .inr ⟨today, ?_, dated, left, ?_, ?_⟩
        · simp only [ClientObject.assign, ClientObject.fresh, clean same]
        · rw [rowAfter_idle waiting.quiet, clean same]
        · rw [waiting.quiet]
          rfl

theorem Handled.released (handled : Handled setup client history last) (id : Nat) (reply : Unit) :
    Handled setup client history (last ++ [⟨.release id, reply⟩]) := by
  refine ⟨?_, fun day known => dayOf_append _ (handled.day day known), ?_⟩
  · rw [admitted_append, handled.entered, Bool.true_or]
  · rw [database_append]
    exact (List.append_nil _).symm ▸ handled.forwarded

/-- What the handler does to the row that the governance left. -/
theorem course_entered {quota today : Int} {outcome : Except Exn (Option UpstreamResponse)}
    (given : row.dailyQuota = some quota)
    (dated : dayOf history = some today) (left : (resetUsage today row).dailyUsage < quota)
    (kept : rowAfter id row history = resetUsage today row)
    (unsent : replies (database history) = [])
    (handled : Handled setup (ClientObject.fresh id (resetUsage today row)) history last) :
    Faulted (database last) ∨ Course setup id quota row outcome last := by
  obtain ⟨inner, whole, faulted | balanced⟩ := handled.forwarded
  · obtain ⟨batch, member⟩ := faulted
    exact .inl ⟨batch, whole ▸ List.mem_append_right _ member⟩
  by_cases faulted : Faulted (database last)
  · exact .inl faulted
  have committed : ¬ Faulted inner := by
    rintro ⟨batch, member⟩
    exact faulted ⟨batch, whole ▸ List.mem_append_right _ member⟩
  have rows : rowAfter id row last = (accounts inner).foldl
      (fun row client => if client.id = id then client.flush row else row)
      (resetUsage today row) := by
    rw [← kept, ← accountOf_unfaulted committed]
    simp only [rowAfter, whole, List.filterMap_append, List.foldl_append]
  have success : succeeded last = (replies inner).any fun entry => Succeeds entry.2 := by
    rw [succeeded, whole, replies_append, unsent, List.nil_append]
  have idle (none : accounts inner = []) (uncounted : ¬ (succeeded last = true ∧
      setup.config.quota.countMode = "success")) : Course setup id quota row outcome last := by
    rw [none, List.foldl_nil] at rows
    refine .entered today (handled.day today dated) handled.entered left ?_ ?_
    · rw [rows]
      exact ⟨resetUsage_quota today row, resetUsage_day today row⟩
    · rw [rows, if_neg uncounted, add_zero]
  rcases balanced with fruitless | ⟨obtained, accounted⟩
  · refine .inr (idle fruitless.unaccounted fun counts => ?_)
    obtain ⟨entry, member, succeeds⟩ := List.any_eq_true.mp (success ▸ counts.1)
    rw [fruitless.failed entry member] at succeeds
    cases succeeds
  · split at accounted
    · rename_i mode
      obtain ⟨usedAt, accounted⟩ := accounted
      have flushed : rowAfter id row last =
          (counted (ClientObject.fresh id (resetUsage today row)) usedAt).current := by
        rw [rows, accounted]
        exact (if_pos rfl).trans (flush_loaded (counted _ usedAt))
      have limited : (resetUsage today row).dailyQuota.isSome = true := by
        rw [resetUsage_quota, given]
        rfl
      refine .inr (.entered today (handled.day today dated) handled.entered left ?_ ?_)
      · rw [flushed]
        exact ⟨resetUsage_quota today row, resetUsage_day today row⟩
      · rw [flushed, if_pos ⟨success.trans obtained, mode⟩]
        exact if_pos limited
    · rename_i mode
      exact .inr (idle accounted fun counts => mode counts.2)

/-- The course of every request, unless one of its commits failed. -/
theorem serve_course {quota : Int} (given : row.dailyQuota = some quota)
    (enabled : setup.config.quota.enableQuotaCheck = true) {events : DataEvents R}
    {outcome : Except Exn (Option UpstreamResponse)}
    (ran : (serve setup request (ClientObject.fresh id row)).Ran events outcome)
    (committed : ¬ Faulted (database events)) : Course setup id quota row outcome events := by
  have met : (serve setup request (ClientObject.fresh id row)).wp watched
      (fun outcome last => Faulted (database last) ∨ Course setup id quota row outcome last)
      [] := by
    have start : Waiting ([] : DataEvents R) := ⟨rfl, rfl⟩
    unfold serve enforceClientGovernance
    refine (wp_put _ _).mpr fun slot => ?_
    have waiting := start.then (.acquire (ClientObject.fresh id row).id
      (ClientObject.fresh id row).current.maxConcurrent) slot trivial
    rcases slot with _ | _ | _
    · exact .inr (waiting.away (by decide) quota)
    · exact .inr (waiting.away (by decide) quota)
    refine (wp_put _ _).mpr fun limited => ?_
    have waiting := waiting.then (.allow (ClientObject.fresh id row).id
      (ClientObject.fresh id row).current.rateLimitPerMin) limited trivial
    rcases limited with _ | ⟨_ | _, retryAfter⟩
    · exact .inr (waiting.away (by decide) quota)
    · exact wp_releaseAnd _ _ fun reply =>
        .inr ((waiting.then (.release _) reply trivial).away (by simp [clientRateLimited]) quota)
    refine (wp_bind _).mpr (wp_mono ?_ (wp_enforceQuota quota given enabled waiting rfl))
    rintro (error | governed) middle checked
    · exact checked
    refine (wp_ensuring _).mpr (wp_mono ?_ wp_handle)
    intro outcome last handled
    refine (wp_put _ _).mpr fun reply => ?_
    have released := handled.released id reply
    have ended : Faulted (database (last ++ [⟨.release id, reply⟩])) ∨
        Course setup id quota row outcome (last ++ [⟨.release id, reply⟩]) := by
      rcases checked with ⟨batch, member⟩ | ⟨today, rfl, dated, left, kept, unsent⟩
      · obtain ⟨inner, whole, _⟩ := released.forwarded
        exact .inl ⟨batch, whole ▸ List.mem_append_left _ member⟩
      · exact course_entered given dated left kept unsent released
    cases outcome <;> exact ended
  exact (wp_history ran met).resolve_left committed

end FcamGateway.DataPlane
