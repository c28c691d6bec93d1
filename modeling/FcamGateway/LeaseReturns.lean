import FcamGateway.DataPlaneQuota

/-! The leases of a request: the client's own, and one of a key for each attempt of a forward. An
attempt gives its lease back however it ends. The client's lease is given back on every path but
two: its rate limiter raises after the lease was taken, or the log line of a failed quota check
cannot read the client's row again. -/
namespace FcamGateway.LeaseReturns
open Prog Credits Upstream Forwarder DataPlane

set_option linter.unusedSectionVars false

variable {R : Type} [Field R] [LinearOrder R] [ScoreMath R]

/-- A lease that a limiter granted. -/
inductive Lease where
  | client (id : Nat)
  | key (id : Nat)
deriving DecidableEq

/-- The leases held after a question to a session. -/
def lent (held : List Lease) : Event (Op R) (Reply R) → List Lease
  | ⟨.acquire id _, some true⟩ => .key id :: held
  | ⟨.release id, _⟩ => held.erase (.key id)
  | _ => held

/-- What is given back is held. -/
def Lent (held : List Lease) : Op R → Prop
  | .release id => .key id ∈ held
  | _ => True

/-- The leases held after a question of a request. -/
def hold (held : List Lease) : Event (DataOp R) (DataReply R) → List Lease
  | ⟨.acquire id _, some true⟩ => .client id :: held
  | ⟨.release id, _⟩ => held.erase (.client id)
  | ⟨.session op, reply⟩ => lent held ⟨op, reply⟩
  | _ => held

/-- What is given back is held. -/
def Held (held : List Lease) : DataOp R → Prop
  | .release id => .client id ∈ held
  | .session op => Lent held op
  | _ => True

/-- Every release of an exchange gives back a lease that was granted and not yet given back, and
in the end none is left. -/
structure Returned (events : DataEvents R) : Prop where
  once : Meets hold Held [] events
  all : events.foldl hold [] = []

/-- The limiter of the client raises, or the row of the client cannot be read for the log line. -/
def Strands : Event (DataOp R) (DataReply R) → Prop
  | ⟨.allow _ _, none⟩ => True
  | ⟨.logClient _, false⟩ => True
  | _ => False

def Stranded (events : DataEvents R) : Prop := ∃ event ∈ events, Strands event

variable {setup : Setup R} {call : Call} {held : List Lease} {id : Nat} {key : KeyObject}
  {request : ProxyRequest} {client : ClientObject} {history last : DataEvents R}

/-! ### The leases of a forward -/

/-- A question that neither takes a lease nor gives one back. -/
def Unleased : Op R → Prop
  | .acquire _ _ => False
  | .release _ => False
  | _ => True

abbrev lending : Monitor (List Lease) (Op R) (Reply R) := .folding lent Lent

/-- However a part ends, the leases held before it are those held after it. -/
def Keeping (program : Gateway R Value) : Prop :=
  ∀ held, program.wp lending (fun _ last => last = held) held

theorem lending_keeps {op : Op R} (unleased : Unleased op) (held : List Lease) :
    lending.Keeps (· = held) op := by
  rintro _ rfl
  cases op with
  | acquire id maximum => exact unleased.elim
  | release id => exact unleased.elim
  | _ => exact ⟨trivial, fun reply last moved => moved⟩

theorem keeping_done (value : Value) : Keeping (.done value : Gateway R Value) := fun _ => rfl

theorem keeping_raise (error : Exn) : Keeping (.raise error : Gateway R Value) := fun _ => rfl

/-- A question that leaves the leases as they are. -/
theorem keeping_query (op : Op R) {rest : Reply R op → Gateway R Value} (unleased : Unleased op)
    (more : ∀ reply, Keeping (rest reply)) : Keeping ((query op).bind rest) := by
  intro held
  apply wp_keeps (lending_keeps unleased held) rfl
  rintro reply last rfl
  exact more reply last

theorem keeping_bind {program : Gateway R Value} {rest : Value → Gateway R Other}
    (first : Keeping program) (second : ∀ value, Keeping (rest value)) :
    Keeping (program.bind rest) := by
  intro held
  apply (wp_bind _).mpr
  apply wp_mono _ (first held)
  rintro (error | value) last rfl
  · rfl
  · exact second value last

/-- What is about one key takes no lease. -/
theorem keeping_about {returns : Value → Prop} {program : Gateway R Value}
    (asks : program.Asks (About id) Mild returns) : Keeping program := by
  have unleased (op : Op R) (about : About id op) : Unleased op := by
    cases op <;> trivial
  intro held
  apply wp_mono _ (wp_asks asks (fun op about => lending_keeps (unleased op about) held) rfl)
  rintro (error | value) last ⟨same, -⟩ <;> exact same

/-- A lease is given back after its part, whether or not the part raises. -/
theorem keeping_lease {program : Gateway R Value} {maximum : Int}
    {next : Option Bool → Gateway R Other} {rest : Value → Gateway R Other}
    (part : Keeping program) (refused : Keeping (next (some false))) (failed : Keeping (next none))
    (granted : next (some true) = (program.ensuring (query (.release id))).bind rest)
    (more : ∀ value, Keeping (rest value)) :
    Keeping (.ask (.acquire id maximum) next) := by
  refine fun held => ⟨trivial, ?_⟩
  rintro (_ | _ | _) last moved
  · cases moved
    exact failed held
  · cases moved
    exact refused held
  · cases moved
    rw [granted]
    apply (wp_bind _).mpr
    apply (wp_ensuring _).mpr
    apply wp_mono _ (part (.key id :: held))
    rintro outcome last rfl
    constructor
    · exact List.mem_cons_self
    · rintro ⟨⟩ last rfl
      have back : lent (.key id :: held) (⟨.release id, ()⟩ : Event (Op R) (Reply R)) = held :=
        List.erase_cons_head ..
      rw [back]
      cases outcome with
      | error error => rfl
      | ok value => exact more value held

theorem keeping_recordFailure (key : KeyObject) (reason : String) (statusCode : Option Int) :
    Keeping (recordFailure setup key reason statusCode) :=
  keeping_about (about_recordFailure setup key reason statusCode)

theorem keeping_refresh (key : KeyObject) (statusCode : Int) :
    Keeping (refreshCreditsOn4xx setup key statusCode) :=
  keeping_about (about_refreshCreditsOn4xx setup key statusCode)

theorem keeping_markCooling (key : KeyObject) (seconds : Int) :
    Keeping (markCooling (R := R) key seconds) :=
  keeping_about (about_markCooling key seconds)

theorem keeping_disableKey (key : KeyObject) : Keeping (disableKey (R := R) key) :=
  keeping_about (about_disableKey key)

theorem keeping_zeroCredits (key : KeyObject) : Keeping (zeroCredits (R := R) key) :=
  keeping_about (about_zeroCredits key)

theorem keeping_rollback (key : KeyObject) : Keeping (rollback (R := R) key) :=
  keeping_about (about_rollback key)

theorem keeping_commit (batch : Commit) {rest : Bool → Gateway R Value}
    (failed : Keeping (rest false)) (written : Keeping (rest true)) :
    Keeping ((query (.commit batch)).bind rest) := by
  refine keeping_query (.commit batch) trivial fun ok => ?_
  cases ok
  · exact failed
  · exact written

theorem keeping_commitKey (site : Site) (key : KeyObject) :
    Keeping (commitKey (R := R) site key) :=
  keeping_commit _ (keeping_rollback key) (keeping_done _)

theorem keeping_sendUpstream (key : KeyObject) (secret : String) :
    Keeping (sendUpstream setup call key secret) := by
  refine keeping_query (.request _ _) trivial fun reply => ?_
  cases reply
  · exact keeping_done _
  · exact keeping_bind (keeping_recordFailure key _ _) fun _ => keeping_raise _
  · exact keeping_bind (keeping_recordFailure key _ _) fun _ => keeping_raise _
  · exact keeping_raise _

theorem keeping_consumeQuota (client : ClientObject) (key : KeyObject) :
    Keeping (consumeQuotaOnSuccess (R := R) client key) := by
  refine keeping_query .now trivial fun usedAt => ?_
  refine keeping_query .now trivial fun keyUsedAt => ?_
  exact keeping_commit _ (keeping_bind (keeping_rollback _) fun _ => keeping_raise _)
    (keeping_done _)

theorem keeping_settleResponse (key : KeyObject) (resp : UpstreamResponse) :
    Keeping (settleResponse setup call key resp) := by
  unfold settleResponse countUsage
  split
  · apply keeping_bind
    · split
      · exact keeping_consumeQuota _ _
      · split
        · exact keeping_bind (keeping_commitKey _ _) fun _ => keeping_done _
        · exact keeping_done _
    · intro counted
      exact keeping_query (.keepFailures _) trivial keeping_done
  · exact keeping_done _

theorem keeping_select (tried : List Nat) :
    Keeping (KeyPool.select setup.config setup.runtime call.provider tried) := by
  refine keeping_query (.readPool _ _) trivial fun view => ?_
  cases view with
  | none => exact keeping_done _
  | some view =>
    refine keeping_query (.keepFailures _) trivial fun _ => ?_
    dsimp only
    split
    · exact keeping_done _
    · have unsaved (key : KeyObject) (error : KeyPool.Unselected) : Keeping (R := R)
          ((rollback key).bind fun _ => .done (.error error : Except _ (KeyPool.SelectedKey R))) :=
        keeping_bind (keeping_rollback key) fun _ => keeping_done _
      split
      · refine keeping_query (.keepCursor _ _) trivial fun _ => ?_
        exact keeping_commit _ (unsaved _ _) (keeping_done _)
      · exact keeping_commit _ (unsaved _ _) (keeping_done _)

theorem keeping_poolResponse (progress : Progress R) (key : KeyObject) (resp : UpstreamResponse) :
    Keeping (poolResponse setup call progress key resp) := by
  unfold poolResponse
  split
  · refine keeping_bind (keeping_refresh _ _) fun refreshed => ?_
    exact keeping_bind (keeping_markCooling _ _) fun _ => keeping_done _
  · refine keeping_bind (keeping_refresh _ _) fun refreshed => ?_
    exact keeping_bind (keeping_zeroCredits _) fun _ => keeping_done _
  · refine keeping_bind (keeping_refresh _ _) fun refreshed => ?_
    exact keeping_bind (keeping_disableKey _) fun _ => keeping_done _
  · exact keeping_bind (keeping_recordFailure _ _ _) fun _ => keeping_done _
  · exact keeping_bind (keeping_settleResponse _ _) fun _ => keeping_done _

/-- An attempt with a key of the pool. -/
theorem keeping_selectedTurn (masterKey : Bytes) (progress : Progress R) (key : KeyObject) :
    Keeping (selectedTurn setup call masterKey progress key) := by
  refine keeping_query (.allow _ _) trivial fun allowed => ?_
  rcases allowed with _ | ⟨_ | _, retryAfter⟩
  · exact keeping_raise _
  · exact keeping_done _
  · refine keeping_lease ?_ (keeping_done _) (keeping_raise _) rfl fun found => ?_
    · split
      · exact keeping_bind (keeping_commitKey _ _) fun _ => keeping_done _
      · exact keeping_bind (keeping_sendUpstream _ _) fun _ => keeping_done _
    · cases found with
      | none => exact keeping_done _
      | some resp => exact keeping_poolResponse _ _ _

theorem keeping_poolTurn (masterKey : Bytes) (progress : Progress R) :
    Keeping (poolTurn setup call masterKey progress) := by
  refine keeping_bind (keeping_select _) fun selected => ?_
  cases selected with
  | error failed =>
    dsimp only
    split
    · exact keeping_raise _
    · split
      · split
        · exact keeping_done _
        · exact keeping_raise _
      · exact keeping_raise _
  | ok selected => exact keeping_selectedTurn _ _ _

theorem keeping_afterPool (progress : Progress R) : Keeping (afterPool setup call progress) := by
  unfold afterPool
  split
  · exact keeping_raise _
  · split
    · exact keeping_done _
    · exact keeping_raise _

theorem keeping_poolLoop (masterKey : Bytes) (tries : Nat) (progress : Progress R) :
    Keeping (poolLoop setup call masterKey tries progress) := by
  induction tries generalizing progress with
  | zero => exact keeping_afterPool progress
  | succ tries ih =>
    unfold poolLoop
    split
    · refine keeping_bind (keeping_poolTurn _ _) fun turn => ?_
      cases turn with
      | leave result => exact keeping_done _
      | again progress => exact ih progress
    · exact keeping_afterPool progress

/-- An attempt with the pinned key. -/
theorem keeping_pinnedTurn (masterKey : Bytes) (attempt : Nat) (loop : KeyObject × Progress R) :
    Keeping (pinnedTurn setup call masterKey attempt loop) := by
  obtain ⟨key, progress⟩ := loop
  refine keeping_query (.allow _ _) trivial fun allowed => ?_
  rcases allowed with _ | ⟨_ | _, retryAfter⟩
  · exact keeping_raise _
  · exact keeping_raise _
  · refine keeping_lease ?_ (keeping_raise _) (keeping_raise _) rfl fun resp => ?_
    · split
      · exact keeping_bind (keeping_commitKey _ _) fun _ => keeping_raise _
      · exact keeping_sendUpstream _ _
    · dsimp only
      split
      · refine keeping_bind (keeping_refresh _ _) fun refreshed => ?_
        refine keeping_bind (keeping_markCooling _ _) fun cooled => ?_
        split <;> exact keeping_done _
      · refine keeping_bind (keeping_refresh _ _) fun refreshed => ?_
        exact keeping_bind (keeping_disableKey _) fun _ => keeping_done _
      · exact keeping_bind (keeping_recordFailure _ _ _) fun _ => keeping_done _
      · split
        · refine keeping_bind (keeping_refresh _ _) fun refreshed => ?_
          refine keeping_bind (keeping_zeroCredits _) fun _ => ?_
          exact keeping_bind (keeping_settleResponse _ _) fun _ => keeping_done _
        · exact keeping_bind (keeping_settleResponse _ _) fun _ => keeping_done _

theorem keeping_pinnedLoop (masterKey : Bytes) (left : Nat) (loop : KeyObject × Progress R) :
    Keeping (pinnedLoop setup call masterKey left loop) := by
  induction left generalizing loop with
  | zero => exact keeping_done _
  | succ left ih =>
    refine keeping_bind (keeping_pinnedTurn _ _ _) fun turn => ?_
    cases turn with
    | leave result => exact keeping_done _
    | again loop => exact ih loop

theorem keeping_forward : Keeping (forward setup call) := by
  unfold forward
  split
  · exact keeping_raise _
  · split
    · exact keeping_raise _
    · apply keeping_bind
      · unfold pinnedBranch
        split
        · exact keeping_done _
        · refine keeping_query (.findKey _) trivial fun found => ?_
          rcases found with _ | _ | row
          · exact keeping_raise _
          · exact keeping_done _
          · dsimp only
            split
            · exact keeping_pinnedLoop _ _ _
            · exact keeping_done _
      · intro turn
        cases turn with
        | leave result => exact keeping_done _
        | again progress => exact keeping_poolLoop _ _ _

/-! ### The leases of a request -/

theorem meets_embed (inner : Exchange R) (held : List Lease) :
    Meets hold Held held (inner.map embed) ↔ Meets lent Lent held inner := by
  induction inner generalizing held with
  | nil => exact Iff.rfl
  | cons event inner ih => exact and_congr_right fun _ => ih _

theorem stranded_append (front back : DataEvents R) :
    Stranded (front ++ back) ↔ Stranded front ∨ Stranded back := by
  simp only [Stranded, List.mem_append, or_and_right, exists_or]

theorem steady_embed (inner : Exchange R) : ¬ Stranded (inner.map embed) := by
  rintro ⟨event, member, strands⟩
  obtain ⟨asked, -, rfl⟩ := List.mem_map.mp member
  exact strands

/-- What a request holds after the questions so far, none of which stranded a lease. -/
structure Holding (held : List Lease) (events : DataEvents R) : Prop where
  lawful : Meets hold Held [] events
  held : events.foldl hold [] = held
  steady : ¬ Stranded events

/-- How a request ends: with no lease left, or with one stranded. -/
def Settled (events : DataEvents R) : Prop :=
  Holding [] events ∨ Stranded events ∧ events.foldl hold [] ≠ []

theorem Holding.then (holding : Holding held history) (event : Event (DataOp R) (DataReply R))
    (given : Held held event.op) (steady : ¬ Strands event) :
    Holding (hold held event) (history ++ [event]) := by
  constructor
  · apply (meets_append _ _).mpr
    rw [holding.held]
    exact ⟨holding.lawful, given, trivial⟩
  · rw [List.foldl_append, holding.held]
    rfl
  · rw [stranded_append]
    rintro (before | ⟨other, member, strands⟩)
    · exact holding.steady before
    · cases List.mem_singleton.mp member
      exact steady strands

theorem Holding.commit (holding : Holding held history) (batch : Commit) (written : Bool) :
    Holding held (history ++ [⟨.session (.commit batch), written⟩]) :=
  holding.then ⟨.session (.commit batch), written⟩ trivial not_false

theorem Holding.release (holding : Holding [.client id] history) (reply : Unit) :
    Holding [] (history ++ [⟨.release id, reply⟩]) := by
  have released := holding.then ⟨.release id, reply⟩ (List.mem_singleton_self _) not_false
  have none : hold [.client id] (⟨.release id, reply⟩ : Event (DataOp R) _) = [] :=
    List.erase_cons_head ..
  rwa [none] at released

/-- A question after which the client's lease is lost. -/
theorem Holding.strand (holding : Holding [.client id] history)
    {event : Event (DataOp R) (DataReply R)} (strands : Strands event)
    (idle : hold [.client id] event = [.client id]) : Settled (history ++ [event]) := by
  refine .inr ⟨(stranded_append _ _).mpr (.inr ⟨event, List.mem_singleton_self _, strands⟩), ?_⟩
  rw [List.foldl_append, holding.held, List.foldl_cons, List.foldl_nil, idle]
  exact List.cons_ne_nil _ _

/-- A forward leaves the leases as they were. -/
theorem Holding.forward {inner : Exchange R} {outcome : Except Exn (ForwardResult R)}
    (holding : Holding held history) (ran : (forward setup call).Ran inner outcome) :
    Holding held (history ++ inner.map embed) := by
  obtain ⟨lawful, same⟩ := wp_folding ran (keeping_forward held)
  constructor
  · apply (meets_append _ _).mpr
    rw [holding.held]
    exact ⟨holding.lawful, (meets_embed inner held).mpr lawful⟩
  · rw [List.foldl_append, holding.held, List.foldl_map]
    exact same
  · rw [stranded_append]
    rintro (before | within)
    · exact holding.steady before
    · exact steady_embed inner within

theorem wp_forwardWithFallback_leases {pinnedApiKeyId : Option Nat}
    (holding : Holding held history) :
    (forwardWithFallback setup request client pinnedApiKeyId).wp watched
      (fun _ last => Holding held last) history := by
  unfold forwardWithFallback
  refine (wp_bind _).mpr (wp_within fun inner outcome ran => ?_)
  have holding := holding.forward ran
  cases outcome with
  | error error => exact holding
  | ok result =>
    dsimp only [thenPost]
    split
    · exact holding
    · split
      · exact wp_within fun again outcome ran => holding.forward ran
      · exact holding

theorem wp_handle_leases (holding : Holding held history) :
    (handle setup request client).wp watched (fun _ last => Holding held last) history := by
  unfold handle
  refine (wp_put .prepare _).mpr fun prepared => ?_
  have holding := holding.then ⟨.prepare, prepared⟩ trivial not_false
  rcases prepared with error | _ | pinnedApiKeyId
  · exact holding
  · exact holding
  · apply (wp_bind _).mpr
    apply wp_mono _ (wp_forwardWithFallback_leases holding)
    rintro (error | result) last holding
    · exact holding
    · refine (wp_put .conclude _).mpr fun concluded => ?_
      have holding := holding.then ⟨.conclude, concluded⟩ trivial not_false
      cases concluded <;> exact holding

/-- A part of the governance that raises has settled the lease. -/
def Checked (proceeds : Value → DataEvents R → Prop) : Except Exn Value → DataEvents R → Prop
  | .ok value, last => proceeds value last
  | .error _, last => Settled last

variable {proceeds : Value → DataEvents R → Prop}

theorem wp_releaseAnd_leases (error : FcamError) (holding : Holding [.client client.id] history) :
    (releaseAnd client error).wp watched (Checked proceeds) history := by
  exact wp_releaseAnd client error fun reply => .inl (holding.release reply)

theorem wp_quotaCheckFailed_leases (holding : Holding [.client client.id] history) :
    (quotaCheckFailed client).wp watched (Checked proceeds) history := by
  refine (wp_put (.logClient client.id) _).mpr fun read => ?_
  cases read with
  | false => exact holding.strand trivial rfl
  | true => exact wp_releaseAnd_leases _ (holding.then ⟨.logClient client.id, true⟩ trivial not_false)

/-- The quota part goes on with the lease held, or settles it. -/
theorem wp_enforceQuota_leases {quota : QuotaConfig}
    (holding : Holding [.client client.id] history) :
    (enforceQuota quota client).wp watched
      (Checked fun _ last => Holding [.client client.id] last) history := by
  unfold enforceQuota commitReset
  split
  · exact holding
  · split
    · exact holding
    · refine (wp_put (.today quota.timezone) _).mpr fun found => ?_
      have holding := holding.then ⟨.today quota.timezone, found⟩ trivial not_false
      cases found with
      | none => exact wp_releaseAnd_leases _ holding
      | some today =>
        dsimp only
        split
        · refine (wp_put (.untilMidnight quota.timezone) _).mpr fun found => ?_
          have holding := holding.then ⟨.untilMidnight quota.timezone, found⟩ trivial not_false
          cases found with
          | none => exact wp_releaseAnd_leases _ holding
          | some retryAfter =>
            dsimp only
            split
            · refine (wp_put (.session (.commit _)) _).mpr fun written => ?_
              cases written with
              | true => exact wp_releaseAnd_leases _ (holding.commit _ true)
              | false =>
                refine (wp_put .rollback _).mpr fun undone => ?_
                cases undone with
                | true =>
                  exact wp_releaseAnd_leases _
                    ((holding.commit _ false).then ⟨.rollback, true⟩ trivial not_false)
                | false =>
                  exact wp_quotaCheckFailed_leases
                    ((holding.commit _ false).then ⟨.rollback, false⟩ trivial not_false)
            · exact wp_releaseAnd_leases _ holding
        · split
          · refine (wp_put (.session (.commit _)) _).mpr fun written => ?_
            cases written with
            | true => exact holding.commit _ true
            | false => exact wp_quotaCheckFailed_leases (holding.commit _ false)
          · exact holding

theorem settled_of_checked {program : Part R Value}
    (checked : program.wp watched (Checked fun _ last => Settled last) history) :
    program.wp watched (fun _ last => Settled last) history := by
  apply wp_mono _ checked
  rintro (error | value) last settled <;> exact settled

theorem wp_serve_leases :
    (serve setup request client).wp watched (fun _ last => Settled last) [] := by
  have unheld : Holding [] ([] : DataEvents R) :=
    ⟨trivial, rfl, fun ⟨_, member, _⟩ => List.not_mem_nil member⟩
  unfold serve enforceClientGovernance
  refine (wp_put (.acquire client.id client.current.maxConcurrent) _).mpr fun granted => ?_
  have started := unheld.then ⟨.acquire client.id client.current.maxConcurrent, granted⟩ trivial not_false
  rcases granted with _ | _ | _
  · exact .inl started
  · exact .inl started
  · refine (wp_put (.allow client.id client.current.rateLimitPerMin) _).mpr fun allowed => ?_
    cases allowed with
    | none => exact started.strand trivial rfl
    | some allowed =>
      have holding := started.then ⟨.allow client.id client.current.rateLimitPerMin, allowed⟩
        trivial not_false
      obtain ⟨_ | _, retryAfter⟩ := allowed
      · exact settled_of_checked (wp_releaseAnd_leases _ holding)
      · apply (wp_bind _).mpr
        apply wp_mono _ (wp_enforceQuota_leases holding)
        rintro (error | governed) last checked
        · exact checked
        · apply (wp_ensuring _).mpr
          apply wp_mono _ (wp_handle_leases checked)
          intro outcome last holding
          refine (wp_put (.release client.id) _).mpr fun reply => ?_
          have released := holding.release reply
          cases outcome <;> exact .inl released

theorem Settled.returns_iff {events : DataEvents R} (settled : Settled events) :
    Returned events ↔ ¬ Stranded events := by
  rcases settled with holding | ⟨stranded, some⟩
  · exact iff_of_true ⟨holding.lawful, holding.held⟩ holding.steady
  · exact iff_of_false (fun returned => some returned.all) (not_not.mpr stranded)

/-- However the surroundings of a request answer, its leases are given back once each, exactly
where the client's limiter did not raise after the lease and no log line needed a row that could
not be read. -/
theorem returned_iff {events : DataEvents R} {outcome : Except Exn (Option UpstreamResponse)}
    (ran : (serve setup request client).Ran events outcome) :
    Returned events ↔ ¬ Stranded events :=
  (wp_history ran wp_serve_leases).returns_iff

/-- A status request that is served gives both its leases back. -/
theorem status_returned :
    Returned (statusEvents ({ quota := { enableQuotaCheck := true, countMode := "attempt" } } :
      AppConfig ℚ) 1 1) := by
  apply (returned_iff (status_served _ (by decide) rfl 1 (by decide))).mpr
  rintro ⟨event, member, strands⟩
  simp only [statusEvents, statusHandled, statusExchange, List.map_cons, List.map_nil,
    List.cons_append, List.nil_append, List.mem_cons, List.not_mem_nil, or_false] at member
  rcases member with rfl | rfl | rfl | rfl | rfl | rfl | rfl | rfl | rfl | rfl | rfl | rfl <;>
    exact strands

/-- The state backend fails between the lease and the rate limit, and the lease is not given
back. -/
theorem limiter_failure_strands : ∃ (setup : Setup ℚ) (request : ProxyRequest)
    (client : ClientObject) (events : DataEvents ℚ) (outcome : Except Exn (Option UpstreamResponse)),
      (serve setup request client).Ran events outcome ∧ ¬ Returned events := by
  refine ⟨openSetup {}, statusRequest, ClientObject.fresh 1 (meteredRow 1),
    [⟨.acquire 1 (meteredRow 1).maxConcurrent, some true⟩,
      ⟨.allow 1 (meteredRow 1).rateLimitPerMin, none⟩], .error (.fcam stateUnavailable),
    .ask (.ask .here), fun returned => ?_⟩
  exact absurd returned.all (List.cons_ne_nil _ _)

end FcamGateway.LeaseReturns
