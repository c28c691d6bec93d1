import FcamGateway.HandlerRefinement
import FcamGateway.PyFields

/-! Which keys the handlers use for jobs. A handler binds a job to the key whose request the
upstream answered with it, and to no other; and a handler that follows a job sends with the key that
it found the job bound to, as long as that key may be used. -/
namespace FcamGateway.Endpoints
open Prog Upstream Forwarder DataPlane ForwardEffects ForwardOrigin ResourceBinding

set_option linter.unusedSectionVars false

variable {R : Type} [Field R] [LinearOrder R] [ScoreMath R]

/-- The upstream answered a request with the key by a success that names the job. -/
def Created (app : AppState R) (endpoint : Endpoint) (clientId : Nat)
    (events : HandlerEvents R) (key : Nat) (job : Resource) : Prop :=
  ∃ resourceType resourceId resp, endpoint.creates = some resourceType ∧
    (key, .response resp) ∈ replies (forwarded events) ∧
    extractIdFromResponse app.setup.foreign.parseJson (toFastapiResponse resp) = some resourceId ∧
    job = (Query.mk clientId resourceType resourceId).resource.columns

/-- A handler that follows a job sends with the key it found the job bound to, if this key may be
used. -/
def Keeps (endpoint : Endpoint) (clientId : Nat) (events : HandlerEvents R) (id : Nat) : Prop :=
  ∀ query, endpoint.followed clientId = some query → query.rid ≠ "" →
    ∃ reply, ⟨.binding (.find query.resource.columns), reply⟩ ∈ events ∧
      ∀ own row, reply = some (some (own, row)) → row.expiresAt = none →
        (∀ found, ⟨.data (.session (.findKey row.apiKeyId)), found⟩ ∈ events →
          ∃ columns, found = some (some columns) ∧ usablePinned endpoint.provider columns = true) →
        id = row.apiKeyId

/-- A question that neither writes a binding nor sends. -/
def Harmless : HandlerOp R → Prop
  | .binding (.insert _) => False
  | .binding (.extend _ _) => False
  | .binding (.delete _) => False
  | .data op => Unsent op
  | _ => True

/-- What a handler may ask after an exchange. -/
inductive Due (app : AppState R) (endpoint : Endpoint) (clientId : Nat)
    (events : HandlerEvents R) : HandlerOp R → Prop where
  | harmless {op : HandlerOp R} (harmless : Harmless op) : Due app endpoint clientId events op
  | insert {row : BindingColumns} (created : Created app endpoint clientId events row.apiKeyId
      row.resource) (lasting : row.expiresAt = none) :
      Due app endpoint clientId events (.binding (.insert row))
  | delete {own : Nat} {resource : Resource} {row : BindingColumns}
      (found : ⟨.binding (.find resource), some (some (own, row))⟩ ∈ events)
      (expires : row.expiresAt ≠ none) : Due app endpoint clientId events (.binding (.delete own))
  | request {id : Nat} (sent : UpstreamRequest) (keeps : Keeps endpoint clientId events id) :
      Due app endpoint clientId events (.data (.session (.request id sent)))

/-- Each job that the upstream created was put to the bindings. -/
def Stored (app : AppState R) (endpoint : Endpoint) (clientId : Nat)
    (events : HandlerEvents R) : Prop :=
  ∀ key job, Created app endpoint clientId events key job →
    ∃ row reply, ⟨.binding (.insert row), reply⟩ ∈ events ∧ row.apiKeyId = key ∧ row.resource = job

variable {app : AppState R} {endpoint : Endpoint} {inbound : Inbound} {client : ClientObject}
  {clientId : Nat} {events history : HandlerEvents R} {request : ProxyRequest} {setup : Setup R}

abbrev minding (app : AppState R) (endpoint : Endpoint) (clientId : Nat) :
    Monitor (HandlerEvents R) (HandlerOp R) (HandlerReply R) :=
  .checking (Due app endpoint clientId)

/-- Harmless questions only add to the exchange. -/
theorem wp_harmless {program : Handling R Value} {fails : Exn → Prop} {returns : Value → Prop}
    {post : Except Exn Value → HandlerEvents R → Prop} (asks : program.Asks Harmless fails returns)
    (raised : ∀ error more, (∀ event ∈ more, Harmless event.op) → fails error →
      post (.error error) (history ++ more))
    (returned : ∀ value more, (∀ event ∈ more, Harmless event.op) → returns value →
      post (.ok value) (history ++ more)) :
    program.wp (minding app endpoint clientId) post history := by
  have keeps (op : HandlerOp R) (harmless : Harmless op) :
      (minding app endpoint clientId).Keeps
        (fun events => ∃ more, events = history ++ more ∧ ∀ event ∈ more, Harmless event.op)
        op := by
    rintro _ ⟨more, rfl, only⟩
    refine ⟨.harmless harmless, ?_⟩
    rintro reply _ ⟨⟩
    refine ⟨more ++ [⟨op, reply⟩], List.append_assoc _ _ _, ?_⟩
    exact List.forall_mem_append.mpr ⟨only, by simpa using harmless⟩
  refine wp_mono ?_ (wp_asks asks keeps ⟨[], (List.append_nil _).symm, fun _ => nofun⟩)
  rintro (error | value) last ⟨⟨more, rfl, only⟩, ended⟩
  · exact raised error more only ended
  · exact returned value more only ended

/-- Harmless questions leave the upstream without a request. -/
theorem unanswered {more : HandlerEvents R} (harmless : ∀ event ∈ more, Harmless event.op) :
    replies (forwarded more) = [] := by
  induction more with
  | nil => rfl
  | cons event more ih =>
    obtain ⟨first, rest⟩ := List.forall_mem_cons.mp harmless
    rw [← List.singleton_append, forwarded_append, replies_append, ih rest, List.append_nil]
    obtain ⟨op, reply⟩ := event
    cases op with
    | data op =>
      cases op with
      | session op =>
        cases op with
        | request id sent => exact first.elim
        | _ => rfl
      | _ => rfl
    | _ => rfl

/-- What is sent is asked for. -/
theorem sent_asked {events : HandlerEvents R} {id : Nat} (member : id ∈ sends (forwarded events)) :
    ∃ sent reply, ⟨.data (.session (.request id sent)), reply⟩ ∈ events := by
  induction events with
  | nil => cases member
  | cons event events ih =>
    rw [← List.singleton_append, forwarded_append, sends_append, List.mem_append] at member
    rcases member with first | later
    · obtain ⟨op, reply⟩ := event
      cases op with
      | data op =>
        cases op with
        | session op =>
          cases op with
          | request other sent =>
            obtain rfl := List.mem_singleton.mp first
            exact ⟨sent, reply, List.mem_cons_self⟩
          | _ => cases first
        | _ => cases first
      | _ => cases first
    · obtain ⟨sent, reply, asked⟩ := ih later
      exact ⟨sent, reply, List.mem_cons_of_mem _ asked⟩

/-- What the lookup of a handler found, in its exchange. -/
def Looked (endpoint : Endpoint) (clientId : Nat) (pinned : Option Nat)
    (events : HandlerEvents R) : Prop :=
  ∀ query, endpoint.followed clientId = some query → query.rid ≠ "" →
    ∃ reply, ⟨.binding (.find query.resource.columns), reply⟩ ∈ events ∧
      ∀ own row, reply = some (some (own, row)) → row.expiresAt = none →
        pinned = some row.apiKeyId

/-- The lookup of a bound key asks for the row of its resource, and takes it if it does not
expire. -/
theorem wp_looked (query : Query) {demands : List (Event ResourceBinding.Op
      ResourceBinding.Reply) → ResourceBinding.Op → Prop}
    (asks : ∀ seen resource, demands seen (.find resource))
    (dates : ∀ seen, demands seen .now)
    (deletes : ∀ seen own resource row, ⟨.find resource, some (some (own, row))⟩ ∈ seen →
      row.expiresAt ≠ none → demands seen (.delete own)) :
    (lookupBoundKeyId query).wp (.checking demands) (fun outcome seen =>
      ∃ pinned, outcome = .ok pinned ∧ (query.rid ≠ "" →
        ∃ reply, ⟨.find query.resource.columns, reply⟩ ∈ seen ∧
          ∀ own row, reply = some (some (own, row)) → row.expiresAt = none →
            pinned = some row.apiKeyId)) [] := by
  unfold lookupBoundKeyId
  split
  · rename_i unnamed
    exact ⟨none, rfl, fun named => absurd unnamed named⟩
  refine (wp_check _ _).mpr ⟨asks _ _, fun reply => ?_⟩
  have listed : (⟨.find query.resource.columns, reply⟩ : Event ResourceBinding.Op
      ResourceBinding.Reply) ∈ [] ++ [⟨.find query.resource.columns, reply⟩] := by simp
  rcases reply with _ | _ | ⟨own, row⟩
  · exact ⟨none, rfl, fun _ => ⟨none, listed, nofun⟩⟩
  · exact ⟨none, rfl, fun _ => ⟨some none, listed, nofun⟩⟩
  dsimp only [Prog.bind]
  cases expires : row.expiresAt with
  | none =>
    refine ⟨some row.apiKeyId, rfl, fun _ => ⟨_, listed, ?_⟩⟩
    rintro _ _ ⟨⟩ _
    rfl
  | some expiresAt =>
    have passed (seen : List (Event ResourceBinding.Op ResourceBinding.Reply)) (pinned : Option Nat)
        (member : ⟨.find query.resource.columns, some (some (own, row))⟩ ∈ seen) :
        ∃ found, (.ok pinned : Except Exn (Option Nat)) = .ok found ∧ (query.rid ≠ "" →
          ∃ reply, ⟨.find query.resource.columns, reply⟩ ∈ seen ∧
            ∀ own row, reply = some (some (own, row)) → row.expiresAt = none →
              found = some row.apiKeyId) := by
      refine ⟨pinned, rfl, fun _ => ⟨_, member, ?_⟩⟩
      rintro _ _ ⟨⟩ lasting
      rw [expires] at lasting
      cases lasting
    refine (wp_check _ _).mpr ⟨dates _, fun now => ?_⟩
    have member := List.mem_append_left [⟨.now, now⟩] listed
    dsimp only [Prog.bind]
    split
    · refine (wp_check _ _).mpr ⟨deletes _ _ query.resource.columns row member (by simp [expires]),
        fun deleted => ?_⟩
      exact passed _ none (List.mem_append_left _ member)
    · exact passed _ _ member

/-- The lookup of a handler. -/
theorem wp_lookUp : (lookUp (R := R) endpoint client).wp (minding app endpoint client.id)
    (fun outcome last => ∃ pinned more, outcome = .ok pinned ∧ last = history ++ more ∧
      dataPart more = [] ∧ Looked endpoint client.id pinned last) history := by
  unfold lookUp
  split
  · rename_i free
    refine ⟨none, [], rfl, (List.append_nil _).symm, rfl, fun query followed => ?_⟩
    rw [free] at followed
    cases followed
  · rename_i query followed
    refine wp_embed (wp_mono ?_ (wp_looked query ?_ ?_ ?_))
    · rintro _ seen ⟨pinned, rfl, found⟩
      refine ⟨pinned, _, rfl, rfl, ?_, ?_⟩
      · rw [dataPart, List.filterMap_map]
        exact List.filterMap_eq_nil_iff.mpr fun _ _ => rfl
      · intro other same named
        obtain rfl := Option.some.inj (followed.symm.trans same)
        obtain ⟨reply, member, taken⟩ := found named
        exact ⟨reply, List.mem_append_right _ (List.mem_map_of_mem member), taken⟩
    · exact fun _ _ => .harmless trivial
    · exact fun _ => .harmless trivial
    · intro seen own resource row member expires
      exact .delete (List.mem_append_right _ (List.mem_map_of_mem member)) expires

/-- One forward of a handler, after its lookup. -/
theorem wp_forwarding {call : Forwarder.Call} {pinned : Option Nat}
    (looked : Looked endpoint client.id pinned history) (given : call.pinnedApiKeyId = pinned)
    (provider : call.provider = endpoint.provider) (seen : DataEvents R) :
    (within (forward setup call)).wp (.checking fun inner op =>
      Due app endpoint client.id (history ++ inner.map (widen .data)) (.data op)) (fun _ _ => True)
      seen := by
  rw [within_eq]
  refine wp_embed (wp_of_exchanges (fun inner op next reached => ?_) fun _ _ _ => trivial)
  cases op with
  | request id sent =>
    refine .request sent fun query followed named => ?_
    obtain ⟨reply, member, taken⟩ := looked query followed named
    refine ⟨reply, List.mem_append_left _ member, fun own row found lasting usable => ?_⟩
    refine bound_sends (given.trans (taken own row found lasting)) reached fun reply asked => ?_
    rw [provider]
    refine usable reply (List.mem_append_right _ ?_)
    exact List.mem_map_of_mem (List.mem_append_right _ (List.mem_map_of_mem asked))
  | _ => exact .harmless trivial

/-- The forwards of a handler, after its lookup. -/
theorem wp_forwards {pinned : Option Nat} (looked : Looked endpoint client.id pinned history) :
    (onData (forwardWithFallback setup (endpoint.proxied inbound) client pinned)).wp
      (minding app endpoint client.id) (fun outcome last => ∃ data, last = history ++
        data.map (widen .data) ∧ (forwardWithFallback setup (endpoint.proxied inbound) client
          pinned).Ran data outcome) history := by
  refine wp_embed (wp_mono (fun outcome data ran => ⟨data, rfl, ran⟩) (wp_exchanged ?_))
  refine (wp_bind _).mpr (wp_mono ?_ (wp_forwarding looked rfl rfl []))
  rintro (error | result) seen -
  · trivial
  · simp only [thenPost]
    split
    · trivial
    · split
      · exact wp_forwarding looked rfl rfl seen
      · trivial

/-- A bind without a lifetime puts a row to the bindings that does not expire. -/
theorem wp_stored {call : BindCall} (lasting : call.ttlSeconds = none) (named : call.rid ≠ "")
    {demands : List (Event ResourceBinding.Op ResourceBinding.Reply) → ResourceBinding.Op → Prop}
    (asks : ∀ seen resource, demands seen (.find resource)) (dates : ∀ seen, demands seen .now)
    (inserts : ∀ seen row, row.apiKeyId = call.apiKeyId → row.resource = call.resource.columns →
      row.expiresAt = none → demands seen (.insert row)) :
    (bindResource call).wp (.checking demands) (fun _ seen => ∃ row reply,
      ⟨.insert row, reply⟩ ∈ seen ∧ row.apiKeyId = call.apiKeyId ∧
        row.resource = call.resource.columns) [] := by
  unfold bindResource
  rw [if_neg named]
  refine (wp_check _ _).mpr ⟨dates _, fun now => ?_⟩
  have kept : expiry now call.ttlSeconds = some none := by rw [lasting, expiry]
  simp only [Prog.bind, kept]
  refine (wp_check _ _).mpr ⟨inserts _ (call.row now none) rfl rfl rfl, fun inserted => ?_⟩
  have stored (more : List (Event ResourceBinding.Op ResourceBinding.Reply)) : ∃ row reply,
      (⟨.insert row, reply⟩ : Event ResourceBinding.Op ResourceBinding.Reply) ∈
        [] ++ [⟨.now, now⟩] ++ [⟨.insert (call.row now none), inserted⟩] ++ more ∧
      row.apiKeyId = call.apiKeyId ∧ row.resource = call.resource.columns :=
    ⟨call.row now none, inserted, by simp, rfl, rfl⟩
  have ended := stored []
  rw [List.append_nil] at ended
  rcases inserted with id | _ | _
  · exact ended
  · refine (wp_check _ _).mpr ⟨asks _ _, fun found => ?_⟩
    have ended := stored [⟨.find call.resource.columns, found⟩]
    rcases found with _ | _ | ⟨id, existing⟩
    · exact ended
    · exact ended
    · dsimp only [Prog.bind]
      split
      · exact ended
      · simp only [extension, Option.filter_none]
        exact ended
  · exact ended

theorem created_some {result : ForwardResult R} {call : BindCall}
    (made : created app endpoint client result = some call) :
    ∃ resourceType resourceId, endpoint.creates = some resourceType ∧
      extractIdFromResponse app.setup.foreign.parseJson result.response = some resourceId ∧
      result.apiKeyId = some call.apiKeyId ∧
      call.toQuery = ⟨client.id, resourceType, resourceId⟩ ∧ call.ttlSeconds = none := by
  unfold created at made
  split at made
  · rename_i resourceType resourceId apiKeyId creates extracted named
    cases made
    exact ⟨resourceType, resourceId, creates, extracted, named, rfl, rfl⟩
  · cases made

/-- A job that a response names has a name, and the response is a success. -/
theorem extracted_some {parseJson : Bytes → Option Json} {response : UpstreamResponse}
    {resourceId : String} (extracted : extractIdFromResponse parseJson response = some resourceId) :
    isSuccess response.statusCode = true ∧ PyText.strip resourceId = resourceId ∧
      resourceId ≠ "" := by
  unfold extractIdFromResponse at extracted
  split at extracted
  · cases extracted
  · rename_i inside
    refine ⟨?_, ?_⟩
    · simp only [isSuccess, Bool.and_eq_true, decide_eq_true_eq]
      omega
    · repeat' split at extracted
      all_goals first
        | cases extracted
      rename_i raw _ named
      exact ⟨by simp only [PyText.strip, String.toList_ofList, PyText.stripChars_stripChars], named⟩

theorem Query.rid_stripped {query : Query}
    (stripped : PyText.strip query.resourceId = query.resourceId) :
    query.rid = query.resourceId := by
  unfold Query.rid
  exact stripped

/-- What a job was created with in an exchange, it was in a longer one. -/
theorem Created.grown {key : Nat} {job : Resource}
    (created : Created app endpoint clientId events key job)
    (more : HandlerEvents R) : Created app endpoint clientId (events ++ more) key job := by
  obtain ⟨resourceType, resourceId, resp, creates, answered, rest⟩ := created
  refine ⟨resourceType, resourceId, resp, creates, ?_, rest⟩
  rw [forwarded_append, replies_append]
  exact List.mem_append_left _ answered

/-- What an exchange that has no more answers of the upstream created was created before. -/
theorem Created.before {key : Nat} {job : Resource} {more : HandlerEvents R}
    (created : Created app endpoint clientId (events ++ more) key job)
    (quiet : replies (forwarded more) = []) :
    Created app endpoint clientId events key job := by
  obtain ⟨resourceType, resourceId, resp, creates, answered, rest⟩ := created
  refine ⟨resourceType, resourceId, resp, creates, ?_, rest⟩
  rwa [forwarded_append, replies_append, quiet, List.append_nil] at answered

/-- The bind of a handler that has the result of its forwards. -/
theorem wp_maybeBind {result : ForwardResult R}
    (credited : ∀ call, created app endpoint client result = some call →
      Created app endpoint client.id history call.apiKeyId call.resource.columns ∧ call.rid ≠ "") :
    (maybeBindCreatedResource app endpoint client result).wp (minding app endpoint client.id)
      (fun outcome last => outcome = .ok () ∧ ∃ more, last = history ++ more ∧ dataPart more = [] ∧
        ∀ call, created app endpoint client result = some call → ∃ row reply,
          ⟨.binding (.insert row), reply⟩ ∈ more ∧ row.apiKeyId = call.apiKeyId ∧
            row.resource = call.resource.columns) history := by
  unfold maybeBindCreatedResource
  split
  · refine ⟨rfl, [], (List.append_nil _).symm, rfl, ?_⟩
    rename_i none
    intro call made
    rw [none] at made
    cases made
  · rename_i call made
    obtain ⟨stands, named⟩ := credited call made
    obtain ⟨-, -, -, -, -, -, lasting⟩ := created_some made
    refine (wp_attempt _).mpr (wp_embed (wp_mono ?_ (wp_stored lasting named ?_ ?_ ?_)))
    · rintro outcome seen ⟨row, reply, member, key, resource⟩
      have ended : (.ok () : Except Exn Unit) = .ok () ∧ ∃ more,
          history ++ seen.map (widen .binding) = history ++ more ∧ dataPart more = [] ∧
          ∀ other, some call = some other → ∃ row reply,
            ⟨.binding (.insert row), reply⟩ ∈ more ∧ row.apiKeyId = other.apiKeyId ∧
              row.resource = other.resource.columns := by
        refine ⟨rfl, _, rfl, ?_, ?_⟩
        · rw [dataPart, List.filterMap_map]
          exact List.filterMap_eq_nil_iff.mpr fun _ _ => rfl
        · rintro _ ⟨⟩
          exact ⟨row, reply, List.mem_map_of_mem member, key, resource⟩
      rw [made]
      cases outcome <;> exact ended
    · exact fun _ _ => .harmless trivial
    · exact fun _ => .harmless trivial
    · intro seen row key resource expires
      refine .insert ?_ expires
      rw [key, resource]
      exact stands.grown _

/-- A handler asks only what is due, and puts the job that it created to the bindings. -/
theorem wp_proceed (ctx : Option Nat) (unsent : replies (forwarded history) = []) :
    (proceed app endpoint inbound client ctx).wp (minding app endpoint client.id)
      (fun outcome last => ∀ answered, outcome = .ok answered → Stored app endpoint client.id last)
      history := by
  refine (wp_bind _).mpr (wp_mono ?_ wp_lookUp)
  rintro _ _ ⟨pinned, more, rfl, rfl, quiet, looked⟩
  refine (wp_bind _).mpr (wp_mono ?_ (wp_forwards looked))
  rintro (error | result) _ ⟨data, rfl, ran⟩
  · intro response same
    cases same
  have answers : replies (forwarded (history ++ more ++ data.map (widen .data))) =
      replies (database data) := by
    rw [forwarded_append, forwarded_append, replies_append, replies_append, unsent,
      forwarded, quiet, forwarded, dataPart_data]
    rfl
  -- the job that is bound is the one that the upstream answered with
  have credited (call : BindCall) (made : created app endpoint client result = some call) :
      Created app endpoint client.id (history ++ more ++ data.map (widen .data)) call.apiKeyId
        call.resource.columns ∧ call.rid ≠ "" := by
    obtain ⟨resourceType, resourceId, creates, extracted, named, query, -⟩ := created_some made
    obtain ⟨success, stripped, filled⟩ := extracted_some extracted
    obtain ⟨front, key, resp, whole, own, same⟩ := (fallback_credited ran).2 success
    obtain rfl := Option.some.inj (own.symm.trans named)
    have text : call.resourceId = resourceId := congrArg Query.resourceId query
    refine ⟨⟨resourceType, resourceId, resp, creates, ?_, same ▸ extracted, ?_⟩, ?_⟩
    · rw [answers, whole]
      exact List.mem_append_right front (List.mem_singleton_self _)
    · rw [query]
    · rw [Query.rid_stripped (by rw [text, stripped]), text]
      exact filled
  refine (wp_bind _).mpr (wp_mono ?_ (wp_maybeBind credited))
  rintro _ _ ⟨rfl, later, rfl, aside, bound⟩
  have completes : (onRecords (R := R) (Idempotency.complete app.setup.config.idempotency app.codec
      ctx result.response)).Asks Harmless (fun _ => True) fun _ => True :=
    asks_embed (asks_any _)
  refine (wp_bind _).mpr (wp_harmless completes ?_ ?_)
  · intro _ _ _ _ response same
    cases same
  · rintro _ last harmless - response ⟨⟩ key job made
    have unheard : replies (forwarded later) = [] := by
      rw [forwarded, aside]
      rfl
    obtain ⟨resourceType, resourceId, resp, creates, answered, extracted, rfl⟩ :=
      (made.before (unanswered harmless)).before unheard
    rw [answers] at answered
    have success := (extracted_some extracted).1
    obtain ⟨named, same⟩ := (fallback_credited ran).1 key resp answered success
    let call : BindCall := { clientId := client.id, resourceType, resourceId, apiKeyId := key }
    have binds : created app endpoint client result = some call := by
      rw [created, creates, same, extracted, named]
    obtain ⟨row, reply, member, own, resource⟩ := bound call binds
    exact ⟨row, reply, by simp [member], own, resource⟩

/-- Where the upstream has answered nothing, no job was created. -/
theorem stored_unsent (unsent : replies (forwarded events) = []) :
    Stored app endpoint clientId events := by
  rintro key job ⟨_, _, resp, -, answered, -⟩
  rw [unsent] at answered
  cases answered

theorem wp_answer (unsent : replies (forwarded history) = []) :
    (answer app endpoint inbound client).wp (minding app endpoint client.id)
      (fun outcome last => ∀ answered, outcome = .ok answered → Stored app endpoint client.id last)
      history := by
  have claims : (claim app endpoint inbound client).Asks Harmless (fun _ => True)
      fun _ => True := by
    unfold claim
    split
    · trivial
    · exact asks_embed (asks_any _)
  have still {more : HandlerEvents R} (harmless : ∀ event ∈ more, Harmless event.op) :
      replies (forwarded (history ++ more)) = [] := by
    rw [forwarded_append, replies_append, unsent, unanswered harmless]
    rfl
  refine (wp_bind _).mpr (wp_harmless claims ?_ ?_)
  · intro _ _ _ _ response same
    cases same
  · rintro ⟨ctx, _ | replay⟩ more harmless -
    · exact wp_proceed ctx (still harmless)
    · exact fun _ _ => stored_unsent (still harmless)

/-- A request of a client asks only what is due, and puts the job that it created to the
bindings. -/
theorem wp_serve {arrival : Arrival} (routed : arrival.endpoint app = some endpoint) :
    (serve app arrival).wp (minding app endpoint arrival.client.id)
      (fun outcome last => ∀ answered, outcome = .ok answered →
        Stored app endpoint arrival.client.id last) [] := by
  simp only [serve, routed]
  have enters : (onData (enter (R := R) app.setup.config.quota arrival.client)).Asks Harmless
      (fun _ => True) fun governed => governed.id = arrival.client.id :=
    asks_embed (asks_enter _ _)
  refine (wp_bind _).mpr (wp_harmless enters ?_ ?_)
  · intro _ _ _ _ response same
    cases same
  · intro governed more harmless same
    have met : (answer app endpoint arrival.toInbound governed).wp
        (minding app endpoint governed.id) (fun outcome last => ∀ answered,
          outcome = .ok answered → Stored app endpoint governed.id last) ([] ++ more) :=
      wp_answer (unanswered harmless)
    rw [same] at met
    refine (wp_ensuring _).mpr (wp_mono ?_ met)
    intro outcome last stored
    refine (wp_check _ _).mpr ⟨.harmless trivial, fun reply => ?_⟩
    cases outcome with
    | error error =>
      intro response ended
      cases ended
    | ok response =>
      rintro _ - key job made
      obtain ⟨row, given, member, rest⟩ := stored response rfl key job (made.before rfl)
      exact ⟨row, given, List.mem_append_left _ member, rest⟩

end FcamGateway.Endpoints
