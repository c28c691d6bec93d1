import FcamGateway.Endpoints
import FcamGateway.ForwardAttribution
import FcamGateway.ForwardOrigin
import FcamGateway.IdempotencyRecords

/-! The handlers of the data plane over all that they ask: the idempotency records, the resource
bindings and the sessions of their forwards. -/
namespace FcamGateway.Endpoints
open Prog Upstream Forwarder DataPlane ForwardEffects

set_option linter.unusedSectionVars false

variable {R : Type} [Field R] [LinearOrder R] [ScoreMath R]

/-- A question of a handler. -/
inductive HandlerOp (R : Type) where
  | data (op : DataOp R)
  | binding (op : ResourceBinding.Op)
  | record (op : Idempotency.Op)

abbrev HandlerReply (R : Type) : HandlerOp R → Type
  | .data op => DataReply R op
  | .binding op => ResourceBinding.Reply op
  | .record op => Idempotency.Reply op

abbrev Handling (R : Type) := Prog (HandlerOp R) (HandlerReply R) Exn

abbrev HandlerEvents (R : Type) := List (Event (HandlerOp R) (HandlerReply R))

def onData (part : Part R Value) : Handling R Value := part.embed .data

def onBindings (access : ResourceBinding.Access Value) : Handling R Value := access.embed .binding

def onRecords (handler : Idempotency.Handler Value) : Handling R Value := handler.embed .record

/-- `_extract_id_from_response`. -/
def extractIdFromResponse (parseJson : Bytes → Option Json) (response : UpstreamResponse) :
    Option String :=
  if response.statusCode < 200 ∨ 300 ≤ response.statusCode then none
  else if !PyText.contains
      (PyText.lowerChars ((header response.headers "content-type").getD "").toList)
      "application/json" then none
  else if response.content = [] then none
  else
    match parseJson response.content with
    | some (.obj members) =>
      match Json.get? members "id" with
      | some (.str resourceId) =>
        if PyText.strip resourceId = "" then none else some (PyText.strip resourceId)
      | _ => none
    | _ => none

/-- What the handlers share. The depth is how often `start_or_replay` may call itself, and
`redirectUrl` is how Starlette spells the URL of another path of the request. -/
structure AppState (R : Type) [Field R] where
  setup : Setup R
  codec : Idempotency.Codec
  depth : Nat
  exaEnabled : Bool
  redirectUrl : Inbound → List String → String

/-- The response of a handler, and the result of its forwards unless it is a replay. -/
structure Answered (R : Type) where
  response : UpstreamResponse
  result : Option (ForwardResult R) := none

/-- The claim of the idempotency key, if the handler makes one. -/
def claim (app : AppState R) (endpoint : Endpoint) (inbound : Inbound) (client : ClientObject) :
    Handling R (Option Nat × Option UpstreamResponse) :=
  match endpoint.claims with
  | none => return (none, none)
  | some claimed =>
    onRecords (Idempotency.startOrReplay app.setup.config.idempotency app.codec
      { clientId := client.id, idempotencyKey := inbound.header "x-idempotency-key"
        endpoint := claimed, query := inbound.query, payload := endpoint.payload.getD .null }
      app.depth)

/-- The resource that a handler looks up. -/
def Endpoint.followed (endpoint : Endpoint) (clientId : Nat) : Option ResourceBinding.Query :=
  endpoint.follows.map fun followed => ⟨clientId, followed.1, followed.2⟩

def lookUp (endpoint : Endpoint) (client : ClientObject) : Handling R (Option Nat) :=
  match endpoint.followed client.id with
  | none => return none
  | some query => onBindings (ResourceBinding.lookupBoundKeyId query)

/-- The binding that a handler makes of a result. -/
def created (app : AppState R) (endpoint : Endpoint) (client : ClientObject)
    (result : ForwardResult R) : Option ResourceBinding.BindCall :=
  match endpoint.creates, extractIdFromResponse app.setup.foreign.parseJson result.response,
    result.apiKeyId with
  | some resourceType, some resourceId, some apiKeyId =>
    some { clientId := client.id, resourceType, resourceId, apiKeyId }
  | _, _, _ => none

/-- `_maybe_bind_created_resource`. Every error is logged and swallowed. -/
def maybeBindCreatedResource (app : AppState R) (endpoint : Endpoint) (client : ClientObject)
    (result : ForwardResult R) : Handling R Unit :=
  match created app endpoint client result with
  | none => return
  | some call => (onBindings (ResourceBinding.bindResource call)).attempt fun _ => return

/-- The request that a handler forwards. -/
def Endpoint.proxied (endpoint : Endpoint) (inbound : Inbound) : ProxyRequest :=
  { requestId := inbound.requestId, method := endpoint.method, primaryPath := endpoint.primaryPath
    fallbackPath := endpoint.fallbackPath, payload := endpoint.payload
    inboundHeaders := inbound.headers, provider := endpoint.provider }

/-- What follows the claim of a handler. -/
def proceed (app : AppState R) (endpoint : Endpoint) (inbound : Inbound) (client : ClientObject)
    (ctx : Option Nat) : Handling R (Answered R) := do
  let pinnedApiKeyId ← lookUp endpoint client
  let result ← onData (forwardWithFallback app.setup (endpoint.proxied inbound) client
    pinnedApiKeyId)
  maybeBindCreatedResource app endpoint client result
  onRecords (Idempotency.complete app.setup.config.idempotency app.codec ctx result.response)
  return { response := result.response, result := some result }

/-- The handler of an endpoint. -/
def answer (app : AppState R) (endpoint : Endpoint) (inbound : Inbound) (client : ClientObject) :
    Handling R (Answered R) := do
  match ← claim app endpoint inbound client with
  | (_, some replay) => return { response := replay }
  | (ctx, none) => proceed app endpoint inbound client ctx

/-- A request of a client to the gateway, with the segments of its path. -/
structure Arrival extends Inbound where
  segments : List String
  client : ClientObject

/-- The endpoint that a request is routed to. -/
def Arrival.endpoint (arrival : Arrival) (app : AppState R) : Option Endpoint :=
  route app.exaEnabled arrival.toInbound arrival.segments

/-- The governance of a client up to its handler: the client object that it hands on. -/
def enter (quota : QuotaConfig) (client : ClientObject) : Part R ClientObject := do
  match ← put (.acquire client.id client.current.maxConcurrent) with
  | none => refuse stateUnavailable
  | some false => refuse clientConcurrencyLimited
  | some true =>
    match ← put (.allow client.id client.current.rateLimitPerMin) with
    | none => refuse stateUnavailable
    | some (false, retryAfter) => releaseAnd client (clientRateLimited retryAfter)
    | some (true, _) => enforceQuota quota client

/-- The governance of a client is what comes before its handler, and the release behind it. -/
theorem enforceClientGovernance_eq (quota : QuotaConfig) (client : ClientObject)
    (handler : ClientObject → Part R Value) : enforceClientGovernance quota client handler =
      (enter quota client).bind fun governed =>
        (handler governed).ensuring (put (.release client.id)) := by
  refine congrArg (Prog.ask _) (funext fun slot => ?_)
  rcases slot with _ | _ | _
  · rfl
  · rfl
  refine congrArg (Prog.ask _) (funext fun limited => ?_)
  rcases limited with _ | ⟨_ | _, retryAfter⟩ <;> rfl

/-- A handler under the slot that a client holds. -/
def held (app : AppState R) (endpoint : Endpoint) (inbound : Inbound) (clientId : Nat)
    (client : ClientObject) : Handling R (Answered R) :=
  (answer app endpoint inbound client).ensuring (onData (put (.release clientId)))

/-- `RedirectResponse`. -/
def redirectResponse (url : String) : UpstreamResponse :=
  { statusCode := 307, headers := [("location", url)], content := [] }

/-- What a request that fits no route is answered with. -/
def strayed (app : AppState R) (arrival : Arrival) : Except FcamError UpstreamResponse :=
  match unrouted app.exaEnabled arrival.segments with
  | .redirect segments => .ok (redirectResponse (app.redirectUrl arrival.toInbound segments))
  | .refused error => .error error

/-- A request of a client, from its governance to its response. -/
def serve (app : AppState R) (arrival : Arrival) : Handling R (Answered R) :=
  match arrival.endpoint app with
  | none =>
    match strayed app arrival with
    | .ok response => return { response }
    | .error error => .raise (.fcam error)
  | some endpoint => do
    let governed ← onData (enter app.setup.config.quota arrival.client)
    held app endpoint arrival.toInbound arrival.client.id governed

/-- A request that fits no route asks nothing. -/
theorem asks_strayed {app : AppState R} {arrival : Arrival} (stray : arrival.endpoint app = none) :
    (serve app arrival).Asks (fun _ => False) (fun _ => True) fun _ => True := by
  simp only [serve, stray]
  split <;> trivial

/-! ### A browser session -/

/-- A database with two keys and a table of bindings, whose upstream answers with a session. -/
def sessionAnswer (bindings : ResourceBinding.Bindings) :
    (op : HandlerOp ℚ) → HandlerReply ℚ op × ResourceBinding.Bindings
  | .binding op => bindings.answer 0 op
  | .record op => ((Idempotency.Shelf.answer 0 (.error .other)
      ⟨0, .empty (Idempotency.Draft.row ⟨0, "", "", 0⟩ 0)⟩ op).1, bindings)
  | .data (.session (.request _ _)) =>
    (.response { statusCode := 200, headers := [("content-type", "application/json")]
                 content := [1] }, bindings)
  | .data (.session op) => ((twoKeys.answer 0 op).1, bindings)
  | .data (.acquire _ _) => (some true, bindings)
  | .data (.allow _ _) => (some (true, 0), bindings)
  | .data (.release _) => ((), bindings)
  | .data (.today _) => (none, bindings)
  | .data (.untilMidnight _) => (none, bindings)
  | .data .rollback => (true, bindings)
  | .data (.logClient _) => (true, bindings)
  | .data .prepare => (.error .other, bindings)
  | .data .conclude => (.error .other, bindings)

/-- The upstream's text is an object that names the session. -/
def sessionApp (config : AppConfig ℚ) : AppState ℚ where
  setup := { plainSetup config with
    foreign := { openCipher with parseJson := fun _ => some (.obj [("id", .str "s")]) } }
  codec :=
    { sha256 := id, dumps := fun _ => "", loads := fun _ => none, b64encode := fun _ => ""
      b64decode := fun _ => none, pyStr := fun _ => "" }
  depth := 1
  exaEnabled := false
  redirectUrl _ segments := "/" ++ String.intercalate "/" segments

/-- A client opens a browser session, and closes it. -/
def sessionArrivals (opens : Bool) : Arrival :=
  { requestId := "", query := "", headers := [], payload := none
    client := ClientObject.fresh 1 {}
    method := if opens then "POST" else "DELETE"
    urlPath := if opens then "/v2/browser" else "/v2/browser/s"
    segments := if opens then ["v2", "browser"] else ["v2", "browser", "s"] }

end FcamGateway.Endpoints
