import FcamGateway.Handlers

/-! The handlers against the request of the data plane. What a request asks of limiters, dates and
sessions is a run of the request that leaves its handler's other questions open, so that whatever is
known of every run of that one holds of the endpoints as they are. -/
namespace FcamGateway.Endpoints
open Prog Upstream Forwarder DataPlane ForwardEffects

set_option linter.unusedSectionVars false

variable {R : Type} [Field R] [LinearOrder R] [ScoreMath R]

/-- A question that is not about records or bindings. -/
def dataOf : Event (HandlerOp R) (HandlerReply R) → Option (Event (DataOp R) (DataReply R))
  | ⟨.data op, reply⟩ => some ⟨op, reply⟩
  | _ => none

/-- What a handler asks of the data plane. -/
def dataPart (events : HandlerEvents R) : DataEvents R := events.filterMap dataOf

/-- What a handler asks of sessions and upstream. -/
def forwarded (events : HandlerEvents R) : Exchange R := database (dataPart events)

/-- An outcome of the request that leaves its handler open shows the outcome of the handler. -/
inductive Shown : Except Exn (Answered R) → Except Exn (Option UpstreamResponse) → Prop where
  | replayed (response : UpstreamResponse) : Shown (.ok { response }) (.ok none)
  | answered (result : ForwardResult R) :
      Shown (.ok { response := result.response, result := some result })
        (.ok (some result.response))
  | raised (error : Exn) : Shown (.error error) (.error error)

variable {app : AppState R} {endpoint : Endpoint} {inbound : Inbound} {client : ClientObject}
  {events : HandlerEvents R} {arrival : Arrival}

@[simp] theorem dataPart_append (front back : HandlerEvents R) :
    dataPart (front ++ back) = dataPart front ++ dataPart back := List.filterMap_append

theorem dataPart_data (inner : DataEvents R) : dataPart (inner.map (widen .data)) = inner := by
  rw [dataPart, List.filterMap_map]
  exact List.filterMap_some

theorem ran_onData {part : Part R Value} {outcome : Except Exn Value}
    (ran : (onData part).Ran events outcome) : part.Ran (dataPart events) outcome := by
  obtain ⟨inner, rfl, alone⟩ := ran_embed ran
  rwa [dataPart_data]

/-- A question about records or bindings. -/
def Aside : HandlerOp R → Prop
  | .data _ => False
  | _ => True

theorem dataPart_aside {program left : Handling R Value} {fails : Exn → Prop}
    {returns : Value → Prop} (asks : program.Asks Aside fails returns)
    (reached : Reaches program events left) : dataPart events = [] := by
  refine List.filterMap_eq_nil_iff.mpr fun event member => ?_
  have aside := asks_every asks reached event member
  obtain ⟨op, reply⟩ := event
  cases op with
  | data op => exact aside.elim
  | _ => rfl

theorem forwarded_append (front back : HandlerEvents R) :
    forwarded (front ++ back) = forwarded front ++ forwarded back := by
  rw [forwarded, dataPart_append, database_append]
  rfl

theorem forwarded_aside {program left : Handling R Value} {fails : Exn → Prop}
    {returns : Value → Prop} (asks : program.Asks Aside fails returns)
    (reached : Reaches program events left) : forwarded events = [] := by
  rw [forwarded, dataPart_aside asks reached]
  rfl

theorem asks_claim (app : AppState R) (endpoint : Endpoint) (inbound : Inbound)
    (client : ClientObject) :
    (claim app endpoint inbound client).Asks Aside (fun _ => True) fun _ => True := by
  unfold claim
  split
  · trivial
  · exact asks_embed (asks_any _)

theorem asks_lookUp (endpoint : Endpoint) (client : ClientObject) :
    (lookUp (R := R) endpoint client).Asks Aside (fun _ => True) fun _ => True := by
  unfold lookUp
  split
  · trivial
  · exact asks_embed (asks_any _)

theorem asks_maybeBind (result : ForwardResult R) :
    (maybeBindCreatedResource app endpoint client result).Asks Aside (fun _ => True)
      fun _ => True := by
  unfold maybeBindCreatedResource
  split
  · trivial
  · exact asks_attempt (asks_embed (asks_any _))
      fun _ _ => trivial

theorem asks_complete (app : AppState R) (ctx : Option Nat) (response : UpstreamResponse) :
    (onRecords (R := R) (Idempotency.complete app.setup.config.idempotency app.codec ctx
      response)).Asks Aside (fun _ => True) fun _ => True :=
  asks_embed (asks_any _)

/-- What a handler that is left open asks of sessions is what its forwards ask. -/
theorem database_go {pinned : Option Nat} (inner rest : DataEvents R)
    (concluded : Except Exn Unit) :
    database (⟨.prepare, .ok (.go pinned)⟩ :: (inner ++ ⟨.conclude, concluded⟩ :: rest)) =
      database (inner ++ rest) := by
  change database (inner ++ ([⟨.conclude, concluded⟩] ++ rest)) = _
  simp only [database_append]
  rfl

/-- A run of a handler shows a run of the handler that is left open. -/
theorem proceed_refines {ctx : Option Nat} {outcome : Except Exn (Answered R)}
    (ran : (proceed app endpoint inbound client ctx).Ran events outcome) :
    ∃ data ended, (handle app.setup (endpoint.proxied inbound) client).Ran data ended ∧
      database data = forwarded events ∧ Shown outcome ended := by
  rcases ran_bind ran with ⟨error, rfl, looked⟩ | ⟨pinned, front, back, rfl, looked, ran⟩
  · refine ⟨[⟨.prepare, .error error⟩], .error error, .ask .here, ?_, .raised error⟩
    rw [forwarded, dataPart_aside (asks_lookUp _ _) looked]
    rfl
  have unlooked := dataPart_aside (asks_lookUp _ _) looked
  rcases ran_bind ran with ⟨error, rfl, sent⟩ | ⟨result, middle, rest, rfl, sent, ran⟩
  · have alone := ran_onData sent
    have raised : (handle app.setup (endpoint.proxied inbound) client).Ran
        (⟨.prepare, .ok (.go pinned)⟩ :: dataPart back) (.error error) := by
      refine .ask ?_
      change Reaches
        ((forwardWithFallback app.setup (endpoint.proxied inbound) client pinned).bind _) _ _
      exact raised_bind alone
    refine ⟨_, .error error, raised, ?_, .raised error⟩
    rw [forwarded, dataPart_append, unlooked]
    rfl
  have alone := ran_onData sent
  have concluded (reply : Except Exn Unit) (quiet : dataPart rest = []) :
      database (⟨.prepare, .ok (.go pinned)⟩ :: (dataPart middle ++ [⟨.conclude, reply⟩])) =
        forwarded (front ++ (middle ++ rest)) := by
    rw [database_go, forwarded, dataPart_append, dataPart_append, unlooked, quiet]
    rfl
  have go (reply : Except Exn Unit) : (handle app.setup (endpoint.proxied inbound) client).Ran
      (⟨.prepare, .ok (.go pinned)⟩ :: (dataPart middle ++ [⟨.conclude, reply⟩]))
      (reply.map fun _ => some result.response) := by
    refine .ask ?_
    change Reaches ((forwardWithFallback app.setup (endpoint.proxied inbound) client pinned).bind _)
      _ _
    refine reaches_bind alone (.ask ?_)
    cases reply <;> exact .here
  rcases ran_bind ran with ⟨error, rfl, bound⟩ | ⟨_, early, late, rfl, bound, ran⟩
  · exact ⟨_, .error error, go (.error error), concluded (.error error)
      (dataPart_aside (asks_maybeBind result) bound), .raised error⟩
  have unbound := dataPart_aside (asks_maybeBind result) bound
  rcases ran_bind ran with ⟨error, rfl, kept⟩ | ⟨_, first, last, rfl, kept, ended⟩
  · refine ⟨_, .error error, go (.error error), concluded (.error error) ?_, .raised error⟩
    rw [dataPart_append, unbound, dataPart_aside (asks_complete _ _ _) kept]
    rfl
  · obtain ⟨rfl, rfl⟩ := ran_done ended
    refine ⟨_, .ok (some result.response), go (.ok ()), concluded (.ok ()) ?_,
      .answered result⟩
    rw [dataPart_append, dataPart_append, unbound, dataPart_aside (asks_complete _ _ _) kept]
    rfl

theorem answer_refines {outcome : Except Exn (Answered R)}
    (ran : (answer app endpoint inbound client).Ran events outcome) :
    ∃ data ended, (handle app.setup (endpoint.proxied inbound) client).Ran data ended ∧
      database data = forwarded events ∧ Shown outcome ended := by
  rcases ran_bind ran with ⟨error, rfl, claimed⟩ | ⟨⟨ctx, replay⟩, front, back, rfl, claimed, ran⟩
  · refine ⟨[⟨.prepare, .error error⟩], .error error, .ask .here, ?_, .raised error⟩
    rw [forwarded, dataPart_aside (asks_claim _ _ _ _) claimed]
    rfl
  have unclaimed := dataPart_aside (asks_claim _ _ _ _) claimed
  cases replay with
  | some response =>
    obtain ⟨rfl, rfl⟩ := ran_done ran
    refine ⟨[⟨.prepare, .ok .replay⟩], .ok none, .ask .here, ?_, .replayed response⟩
    rw [List.append_nil, forwarded, unclaimed]
    rfl
  | none =>
    obtain ⟨data, ended, shown⟩ := proceed_refines ran
    refine ⟨data, ended, shown.1, ?_, shown.2.2⟩
    rw [shown.2.1, forwarded, forwarded, dataPart_append, unclaimed]
    rfl

/-- The parts of a run of a request that is routed: its governance turns it away, or its handler
runs between that and the release. -/
theorem serve_parts {outcome : Except Exn (Answered R)}
    (routed : arrival.endpoint app = some endpoint) (ran : (serve app arrival).Ran events outcome) :
    (∃ error, outcome = .error error ∧
      (onData (enter (R := R) app.setup.config.quota arrival.client)).Ran events (.error error)) ∨
    ∃ governed front middle,
      events = front ++ (middle ++ [⟨.data (.release arrival.client.id), ()⟩]) ∧
      (onData (enter app.setup.config.quota arrival.client)).Ran front (.ok governed) ∧
      (answer app endpoint arrival.toInbound governed).Ran middle outcome := by
  simp only [serve, routed] at ran
  rcases ran_bind ran with ⟨error, rfl, entered⟩ | ⟨governed, front, back, rfl, entered, ran⟩
  · exact .inl ⟨error, rfl, entered⟩
  obtain ⟨inner, middle, rest, rfl, answered, released⟩ := ran_ensuring ran
  obtain ⟨_, last, rfl, left⟩ := ran_ask released
  have done : last = [] ∧ outcome = inner := by
    cases inner with
    | ok response => exact ran_done left
    | error error => exact ran_raise left
  obtain ⟨rfl, rfl⟩ := done
  exact .inr ⟨governed, front, middle, rfl, entered, answered⟩

/-- Every run of a request that is routed shows a run of the request whose handler is left open: it
asks the same of sessions and upstream, in the same order, and ends alike. -/
theorem serve_refines {outcome : Except Exn (Answered R)}
    (routed : arrival.endpoint app = some endpoint) (ran : (serve app arrival).Ran events outcome) :
    ∃ data ended, (DataPlane.serve app.setup (endpoint.proxied arrival.toInbound)
        arrival.client).Ran data ended ∧
      database data = forwarded events ∧ Shown outcome ended := by
  rw [DataPlane.serve, enforceClientGovernance_eq]
  obtain ⟨error, rfl, entered⟩ | ⟨governed, front, middle, rfl, entered, answered⟩ :=
    serve_parts routed ran
  · exact ⟨_, .error error, raised_bind (ran_onData entered), rfl, .raised error⟩
  obtain ⟨data, ended, handled, same, shown⟩ := answer_refines answered
  have closed : Reaches ((put (R := R) (.release arrival.client.id)).bind fun _ => leaf ended)
      [⟨.release arrival.client.id, ()⟩] (leaf ended) := by
    refine .ask ?_
    cases ended <;> exact .here
  refine ⟨_, ended, reaches_bind (ran_onData entered) (reaches_ensuring handled closed), ?_, shown⟩
  simp only [database_append, same, forwarded, dataPart_append]
  rfl

/-- The request that opens a session, alone. -/
def openedAlone (config : AppConfig ℚ) :=
  (serve (sessionApp config) (sessionArrivals true)).execute sessionAnswer .empty

theorem opened_refines : ∃ data ended, (DataPlane.serve (sessionApp {}).setup
      ((V2.browserCreate (sessionArrivals true).toInbound).proxied (sessionArrivals true).toInbound)
        (sessionArrivals true).client).Ran data ended ∧
      sends (database data) = [1] ∧ Shown (openedAlone {}).2.1 ended := by
  have routed : (sessionArrivals true).endpoint (sessionApp {}) =
      some (V2.browserCreate (sessionArrivals true).toInbound) := rfl
  have alone : (serve (sessionApp {}) (sessionArrivals true)).Ran (openedAlone {}).1
      (openedAlone {}).2.1 := execute_ran sessionAnswer _ .empty
  obtain ⟨data, ended, ran, same, shown⟩ := serve_refines routed alone
  have sent : sends (forwarded (openedAlone {}).1) = [1] := by decide +kernel
  exact ⟨data, ended, ran, same ▸ sent, shown⟩

/-! ### Claims -/

/-- What a handler asks of the idempotency records. -/
def recordPart (events : HandlerEvents R) : Idempotency.Exchange :=
  events.filterMap fun
    | ⟨.record op, reply⟩ => some ⟨op, reply⟩
    | _ => none

/-- A question of an idempotent handler that is no forward. -/
def shelved : Idempotency.Op → Bool
  | .forward _ _ _ => false
  | _ => true

/-- The questions of an idempotent handler besides its forwards. -/
def onShelf (events : Idempotency.Exchange) : Idempotency.Exchange :=
  events.filter fun event => shelved event.op

/-- The request that an endpoint claims a key for. -/
def incoming (claimed : Idempotency.Endpoint) (endpoint : Endpoint) (inbound : Inbound)
    (client : ClientObject) : Idempotency.Incoming :=
  { clientId := client.id, idempotencyKey := inbound.header "x-idempotency-key"
    endpoint := claimed, query := inbound.query, payload := endpoint.payload.getD .null }

/-- The endpoint forwards as the claim says. -/
structure Claims (claimed : Idempotency.Endpoint) (endpoint : Endpoint) (inbound : Inbound) :
    Prop where
  claims : endpoint.claims = some claimed
  free : endpoint.follows = none
  primary : endpoint.primaryPath = claimed.primaryPath inbound.query
  fallback : endpoint.fallbackPath = claimed.fallbackPath inbound.query

variable {claimed : Idempotency.Endpoint}

@[simp] theorem recordPart_append (front back : HandlerEvents R) :
    recordPart (front ++ back) = recordPart front ++ recordPart back := List.filterMap_append

@[simp] theorem onShelf_append (front back : Idempotency.Exchange) :
    onShelf (front ++ back) = onShelf front ++ onShelf back := List.filter_append front back

theorem recordPart_record (inner : Idempotency.Exchange) :
    recordPart (R := R) (inner.map (widen .record)) = inner := by
  rw [recordPart, List.filterMap_map]
  exact List.filterMap_some

/-- One forward of a handler as the claim sees it. -/
theorem forwardTo_shown (path : String) (payload : Json) (response : Except Exn UpstreamResponse) :
    (Idempotency.forwardTo path payload).Ran [⟨.forward "POST" path payload, response⟩]
      response := by
  refine .ask ?_
  cases response <;> exact .here

/-- The forwards of a handler as the claim sees them. -/
theorem forwards_shown {pinned : Option Nat} {data : DataEvents R}
    {outcome : Except Exn (ForwardResult R)} (claims : Claims claimed endpoint inbound)
    (ran : (forwardWithFallback app.setup (endpoint.proxied inbound) client pinned).Ran data
      outcome) :
    ∃ records, (Idempotency.forwardRequest (incoming claimed endpoint inbound client)).Ran records
      (outcome.map ForwardResult.response) ∧ onShelf records = [] := by
  have first (response : Except Exn UpstreamResponse) :=
    forwardTo_shown endpoint.primaryPath (endpoint.payload.getD .null) response
  unfold Idempotency.forwardRequest
  simp only [incoming, ← claims.primary, ← claims.fallback]
  rcases ran_bind ran with ⟨error, rfl, sent⟩ | ⟨result, front, back, rfl, sent, ran⟩
  · exact ⟨_, raised_bind (first (.error error)), rfl⟩
  have went := first (.ok result.response)
  cases fallback : endpoint.fallbackPath with
  | none =>
    simp only [Endpoint.proxied, fallback] at ran
    obtain ⟨rfl, rfl⟩ := ran_done ran
    exact ⟨_, reaches_bind went .here, rfl⟩
  | some path =>
    simp only [Endpoint.proxied, fallback] at ran
    have second := forwardTo_shown path (endpoint.payload.getD .null)
    by_cases missing : result.response.statusCode = 404 ∨ result.response.statusCode = 405
    · have listed : result.response.statusCode ∈ ([404, 405] : List Int) := by simpa using missing
      rw [if_pos listed] at ran
      refine ⟨[_] ++ [⟨.forward "POST" path (endpoint.payload.getD .null),
        outcome.map ForwardResult.response⟩], reaches_bind went ?_, rfl⟩
      dsimp only
      rw [if_pos missing]
      exact second _
    · have unlisted : result.response.statusCode ∉ ([404, 405] : List Int) := by simpa using missing
      rw [if_neg unlisted] at ran
      obtain ⟨rfl, rfl⟩ := ran_done ran
      refine ⟨[_] ++ [], reaches_bind went ?_, rfl⟩
      dsimp only
      rw [if_neg missing]
      exact .here

theorem onShelf_asks {program left : Idempotency.Handler Value} {fails : Exn → Prop}
    {returns : Value → Prop} {records : Idempotency.Exchange}
    (asks : program.Asks (fun op => shelved op = true) fails returns)
    (reached : Reaches program records left) : onShelf records = records :=
  List.filter_eq_self.mpr fun event member => asks_every asks reached event member

theorem asks_startOrReplay (config : IdempotencyConfig) (codec : Idempotency.Codec)
    (request : Idempotency.Incoming) (depth : Nat) :
    (Idempotency.startOrReplay config codec request depth).Asks (fun op => shelved op = true)
      (fun _ => True) fun _ => True := by
  induction depth with
  | zero => trivial
  | succ depth ih =>
    unfold Idempotency.startOrReplay
    split
    · trivial
    · split
      · split <;> trivial
      · refine ⟨rfl, fun now => ⟨rfl, fun _ => ?_⟩⟩
        dsimp only
        split
        · trivial
        · refine ⟨rfl, fun inserted => ?_⟩
          rcases inserted with id | _ | _
          · exact ⟨rfl, fun read => by cases read <;> trivial⟩
          · refine ⟨rfl, fun found => ?_⟩
            rcases found with _ | _ | ⟨id, existing⟩
            · trivial
            · trivial
            · dsimp only [Prog.bind]
              split
              · exact ⟨rfl, fun deleted => by cases deleted <;> trivial⟩
              · trivial
              · split <;> trivial
              · trivial
          · trivial

theorem asks_completes (config : IdempotencyConfig) (codec : Idempotency.Codec) (ctx : Option Nat)
    (response : UpstreamResponse) :
    (Idempotency.complete config codec ctx response).Asks (fun op => shelved op = true)
      (fun _ => False) fun _ => True := by
  unfold Idempotency.complete
  split
  · trivial
  · split
    · trivial
    · refine ⟨rfl, fun found => ?_⟩
      rcases found with _ | _ | row
      · trivial
      · trivial
      · dsimp only [Prog.bind]
        split
        · trivial
        · exact ⟨rfl, fun _ => trivial⟩

/-- A question that is not about records. -/
def Unrecorded : HandlerOp R → Prop
  | .record _ => False
  | _ => True

theorem recordPart_unrecorded {program left : Handling R Value} {fails : Exn → Prop}
    {returns : Value → Prop} (asks : program.Asks Unrecorded fails returns)
    (reached : Reaches program events left) : recordPart events = [] := by
  refine List.filterMap_eq_nil_iff.mpr fun event member => ?_
  have aside := asks_every asks reached event member
  obtain ⟨op, reply⟩ := event
  cases op with
  | record op => exact aside.elim
  | _ => rfl

theorem unrecorded_maybeBind (result : ForwardResult R) :
    (maybeBindCreatedResource app endpoint client result).Asks Unrecorded (fun _ => False)
      fun _ => True := by
  unfold maybeBindCreatedResource
  split
  · trivial
  · exact asks_attempt (asks_embed (asks_any _)) fun _ _ => trivial

/-- A run of a handler that claims a key shows a run of the idempotent handler: it asks the same of
the records, in the same order, and ends alike. -/
theorem answer_claims {outcome : Except Exn (Answered R)}
    (claims : Claims claimed endpoint inbound)
    (ran : (answer app endpoint inbound client).Ran events outcome) :
    ∃ records, (Idempotency.handle app.setup.config.idempotency app.codec app.depth
        (incoming claimed endpoint inbound client)).Ran records
          (outcome.map Answered.response) ∧
      onShelf records = recordPart events := by
  rcases ran_bind ran with ⟨error, rfl, started⟩ | ⟨⟨ctx, replay⟩, front, back, rfl, started, ran⟩
  · simp only [claim, claims.claims] at started
    obtain ⟨records, rfl, alone⟩ := ran_embed started
    refine ⟨records, raised_bind alone, ?_⟩
    rw [recordPart_record, onShelf_asks (asks_startOrReplay _ _ _ _) alone]
  simp only [claim, claims.claims] at started
  obtain ⟨records, rfl, alone⟩ := ran_embed started
  have shelf := onShelf_asks (asks_startOrReplay _ _ _ _) alone
  cases replay with
  | some response =>
    obtain ⟨rfl, rfl⟩ := ran_done ran
    refine ⟨records ++ [], reaches_bind alone .here, ?_⟩
    rw [List.append_nil, List.append_nil, recordPart_record, shelf]
  | none =>
    have unpinned : lookUp (R := R) endpoint client = .done none := by
      simp only [lookUp, Endpoint.followed, claims.free]
      rfl
    simp only [proceed, unpinned] at ran
    change Ran
      ((onData (forwardWithFallback app.setup (endpoint.proxied inbound) client none)).bind _) _ _
      at ran
    rcases ran_bind ran with ⟨error, rfl, sent⟩ | ⟨result, middle, rest, rfl, sent, ran⟩
    · obtain ⟨forwards, went, none⟩ := forwards_shown claims (ran_onData sent)
      have quiet := recordPart_unrecorded (asks_embed (asks_any _)) sent
      refine ⟨records ++ forwards, reaches_bind alone (raised_bind went), ?_⟩
      rw [onShelf_append, shelf, none, recordPart_append, recordPart_record, quiet]
    obtain ⟨forwards, went, unshelved⟩ := forwards_shown claims (ran_onData sent)
    have quiet := recordPart_unrecorded (asks_embed (asks_any _)) sent
    rcases ran_bind ran with ⟨error, rfl, bound⟩ | ⟨_, early, late, rfl, bound, ran⟩
    · exact (asks_reaches bound (unrecorded_maybeBind result)).elim
    have unbound := recordPart_unrecorded (unrecorded_maybeBind result) bound
    rcases ran_bind ran with ⟨error, rfl, kept⟩ | ⟨_, first, last, rfl, kept, ended⟩
    · obtain ⟨completing, rfl, completed⟩ := ran_embed kept
      exact (asks_reaches completed (asks_completes _ _ _ _)).elim
    · obtain ⟨rfl, rfl⟩ := ran_done ended
      obtain ⟨completing, rfl, completed⟩ := ran_embed kept
      have shelved := onShelf_asks (asks_completes _ _ _ _) completed
      refine ⟨records ++ (forwards ++ (completing ++ [])),
        reaches_bind alone (reaches_bind went (reaches_bind completed .here)), ?_⟩
      simp only [onShelf_append, recordPart_append, recordPart_record, shelf, unshelved, quiet,
        unbound, shelved]
      rfl

/-- The path of a request, as its segments make it. -/
def pathOf (segments : List String) : String := "/" ++ String.intercalate "/" segments

/-- A path without a parameter fits itself alone. -/
theorem fits_texts (texts : List String) {segments : List String} {param : String}
    (fitting : fits (texts.map .text) segments = some param) : segments = texts := by
  induction texts generalizing segments with
  | nil =>
    cases segments with
    | nil => rfl
    | cons segment segments => cases fitting
  | cons text texts ih =>
    cases segments with
    | nil => cases fitting
    | cons segment segments =>
      simp only [List.map_cons, fits] at fitting
      split at fitting
      · rename_i same
        rw [same, ih fitting]
      · cases fitting

/-- A route whose handler claims a key forwards as the claim says. -/
def Conforms (entry : Route) : Prop :=
  ∀ (inbound : Inbound) (segments : List String) (param : String) (claimed : Idempotency.Endpoint),
    fits entry.path segments = some param → inbound.urlPath = pathOf segments →
      (entry.endpoint inbound param).claims = some claimed →
        Claims claimed (entry.endpoint inbound param) inbound

theorem routes_conform (exaEnabled : Bool) : ∀ entry ∈ routes exaEnabled, Conforms entry := by
  have first : ∀ entry ∈ apiRoutes ++ v1Routes ++ v2Routes, Conforms entry := by
    simp only [apiRoutes, v1Routes, v2Routes, List.cons_append, List.nil_append,
      List.forall_mem_cons, List.not_mem_nil, false_implies, implies_true, and_true]
    repeat' apply And.intro
    all_goals rintro inbound segments param claimed fitting url ⟨⟩
    · exact ⟨rfl, rfl, rfl, rfl⟩
    · exact ⟨rfl, rfl, rfl, rfl⟩
    · obtain rfl := fits_texts ["v1", "crawl"] fitting
      exact ⟨rfl, rfl, congrArg inbound.withQuery url, rfl⟩
    · obtain rfl := fits_texts ["v1", "agent"] fitting
      exact ⟨rfl, rfl, rfl, congrArg (fun path => some (inbound.withQuery path)) url⟩
    · exact ⟨rfl, rfl, rfl, rfl⟩
    · exact ⟨rfl, rfl, rfl, rfl⟩
    · obtain rfl := fits_texts ["v2", "agent"] fitting
      exact ⟨rfl, rfl, congrArg inbound.withQuery url, rfl⟩
  have exa : ∀ entry ∈ exaRoutes, Conforms entry := by
    simp only [exaRoutes, List.forall_mem_cons, List.not_mem_nil, false_implies, implies_true,
      and_true]
    repeat' apply And.intro
    all_goals rintro inbound segments param claimed fitting url ⟨⟩
  refine List.forall_mem_append.mpr ⟨first, ?_⟩
  split
  · exact exa
  · intro entry listed
    cases listed

theorem route_claims (routed : arrival.endpoint app = some endpoint)
    (url : arrival.urlPath = pathOf arrival.segments) (claims : endpoint.claims = some claimed) :
    Claims claimed endpoint arrival.toInbound := by
  obtain ⟨entry, param, listed, fitting, rfl⟩ := route_some routed
  exact routes_conform app.exaEnabled entry listed _ _ param _ fitting url claims

/-- A question that sends nothing upstream. -/
def Unsent : DataOp R → Prop
  | .session (.request _ _) => False
  | _ => True

theorem asks_releaseAnd {returns : Value → Prop} (client : ClientObject) (error : FcamError) :
    (releaseAnd (R := R) client error).Asks Unsent (fun _ => True) returns :=
  ⟨trivial, fun _ => trivial⟩

theorem asks_quotaCheckFailed {returns : Value → Prop} (client : ClientObject) :
    (quotaCheckFailed (R := R) client).Asks Unsent (fun _ => True) returns := by
  refine ⟨trivial, fun read => ?_⟩
  cases read with
  | true => exact asks_releaseAnd _ _
  | false => trivial

/-- The governance sends nothing and hands on the client that it was given. -/
theorem asks_enter (quota : QuotaConfig) (client : ClientObject) :
    (enter (R := R) quota client).Asks Unsent (fun _ => True)
      fun governed => governed.id = client.id := by
  refine ⟨trivial, fun slot => ?_⟩
  rcases slot with _ | _ | _
  · trivial
  · trivial
  refine ⟨trivial, fun limited => ?_⟩
  rcases limited with _ | ⟨_ | _, retryAfter⟩
  · trivial
  · exact asks_releaseAnd _ _
  dsimp only [Prog.bind]
  unfold enforceQuota
  split
  · rfl
  · split
    · rfl
    · refine ⟨trivial, fun found => ?_⟩
      cases found with
      | none => exact asks_releaseAnd _ _
      | some today =>
        dsimp only [Prog.bind]
        split
        · refine ⟨trivial, fun wait => ?_⟩
          cases wait with
          | none => exact asks_releaseAnd _ _
          | some retryAfter =>
            dsimp only [Prog.bind]
            split
            · refine ⟨trivial, fun written => ?_⟩
              cases written with
              | true => exact asks_releaseAnd _ _
              | false =>
                refine ⟨trivial, fun undone => ?_⟩
                cases undone with
                | true => exact asks_releaseAnd _ _
                | false => exact asks_quotaCheckFailed _
            · exact asks_releaseAnd _ _
        · split
          · refine ⟨trivial, fun written => ?_⟩
            cases written with
            | true => rfl
            | false => exact asks_quotaCheckFailed _
          · rfl

/-- Every run of a request whose endpoint claims a key shows a run of the idempotent handler, unless
the governance turned it away. -/
theorem serve_claims {outcome : Except Exn (Answered R)}
    (routed : arrival.endpoint app = some endpoint)
    (url : arrival.urlPath = pathOf arrival.segments) (claims : endpoint.claims = some claimed)
    (ran : (serve app arrival).Ran events outcome) :
    (recordPart events = [] ∧ ∃ error, outcome = .error error) ∨
      ∃ records, (Idempotency.handle app.setup.config.idempotency app.codec app.depth
          (incoming claimed endpoint arrival.toInbound arrival.client)).Ran records
            (outcome.map Answered.response) ∧
        onShelf records = recordPart events := by
  have claims := route_claims routed url claims
  obtain ⟨error, rfl, entered⟩ | ⟨governed, front, middle, rfl, entered, answered⟩ :=
    serve_parts routed ran
  · exact .inl ⟨recordPart_unrecorded (asks_embed (asks_any _)) entered, error, rfl⟩
  have quiet := recordPart_unrecorded (asks_embed (asks_any _)) entered
  have same : governed.id = arrival.client.id := asks_reaches (ran_onData entered) (asks_enter _ _)
  obtain ⟨records, handled, shelf⟩ := answer_claims claims answered
  refine .inr ⟨records, ?_, ?_⟩
  · rwa [incoming, same] at handled
  · rw [shelf, recordPart_append, recordPart_append, quiet]
    exact (List.append_nil _).symm

/-- A client starts a crawl under a key of its own. -/
def crawlArrival : Arrival :=
  { requestId := "", query := "", headers := [("x-idempotency-key", "k")], payload := none
    client := ClientObject.fresh 1 {}, method := "POST", urlPath := "/v2/crawl"
    segments := ["v2", "crawl"] }

def crawledAlone (config : AppConfig ℚ) :=
  (serve (sessionApp config) crawlArrival).execute sessionAnswer .empty

theorem crawled_claims : ∃ records, (Idempotency.handle ({} : AppConfig ℚ).idempotency
      (sessionApp {}).codec 1 (incoming .v2Crawl (V2.crawl crawlArrival.toInbound)
        crawlArrival.toInbound crawlArrival.client)).Ran records
          ((crawledAlone {}).2.1.map Answered.response) ∧
      onShelf records = recordPart (crawledAlone {}).1 ∧ recordPart (crawledAlone {}).1 ≠ [] := by
  have asked : (recordPart (crawledAlone {}).1).isEmpty = false := by decide +kernel
  have recorded : recordPart (crawledAlone {}).1 ≠ [] := by simpa using asked
  have routed : crawlArrival.endpoint (sessionApp {}) =
      some (V2.crawl crawlArrival.toInbound) := rfl
  have alone : (serve (sessionApp {}) crawlArrival).Ran (crawledAlone {}).1 (crawledAlone {}).2.1 :=
    execute_ran sessionAnswer _ .empty
  obtain ⟨unrecorded, -⟩ | ⟨records, ran, shelf⟩ := serve_claims routed (by decide) rfl alone
  · exact absurd unrecorded recorded
  · exact ⟨records, ran, shelf, recorded⟩

end FcamGateway.Endpoints
