import FcamGateway.ForwardIsolation

/-! One request of the data plane: the governance of its client, with the lease, the rate limit and
the daily quota, and the handler behind it, which forwards once, or again by another path when the
first is not known upstream. Clocks, limiters and the parts of a handler that touch no row of a
client answer as they like. -/
namespace FcamGateway.DataPlane
open Prog Credits Upstream Forwarder ForwardEffects

set_option linter.unusedSectionVars false

variable {R : Type} [Field R] [LinearOrder R] [ScoreMath R]

/-- What a handler finds before it forwards: a response to replay, or leave to forward, with the key
that a resource of the request is bound to. -/
inductive Prepared where
  | replay
  | go (pinnedApiKeyId : Option Nat)

/-- A question of a request. Limiters, dates and sessions are asked; `prepare` and `conclude` are
what a handler does around its forwards. After a commit that failed the session is rolled back, or
the client's row object is read for a log line. -/
inductive DataOp (R : Type) where
  | acquire (clientId : Nat) (maximum : Int)
  | allow (clientId : Nat) (ratePerMin : Int)
  | release (clientId : Nat)
  | today (timezone : String)
  | untilMidnight (timezone : String)
  | rollback
  | logClient (clientId : Nat)
  | prepare
  | conclude
  | session (op : Op R)

/-- The reply to a question. A date that raises replies `none`, a rollback or a reading that raises
`false`. -/
abbrev DataReply (R : Type) : DataOp R → Type
  | .acquire _ _ => Option Bool
  | .allow _ _ => Option (Bool × Int)
  | .release _ => Unit
  | .today _ => Option Int
  | .untilMidnight _ => Option Int
  | .rollback => Bool
  | .logClient _ => Bool
  | .prepare => Except Exn Prepared
  | .conclude => Except Exn Unit
  | .session op => Reply R op

/-- A part of a request. -/
abbrev Part (R : Type) := Prog (DataOp R) (DataReply R) Exn

abbrev DataEvents (R : Type) := List (Event (DataOp R) (DataReply R))

def put (op : DataOp R) : Part R (DataReply R op) := Prog.query op

def refuse (error : FcamError) : Part R Value := .raise (.fcam error)

/-- A gateway function as a part of a request. -/
def within : Gateway R Value → Part R Value
  | .done value => .done value
  | .raise error => .raise error
  | .ask op next => .ask (.session op) fun reply => within (next reply)

def clientConcurrencyLimited : FcamError :=
  { statusCode := 429, code := "CLIENT_CONCURRENCY_LIMITED"
    message := "Client concurrency limited" }

def clientRateLimited (retryAfter : Int) : FcamError :=
  { statusCode := 429, code := "CLIENT_RATE_LIMITED", message := "Client rate limited"
    retryAfter := some retryAfter }

def clientQuotaExceeded (retryAfter : Int) : FcamError :=
  { statusCode := 429, code := "CLIENT_QUOTA_EXCEEDED", message := "Client quota exceeded"
    retryAfter := some retryAfter }

/-- The usage counted anew on a day it was not yet counted on. -/
def resetUsage (today : Int) (columns : ClientColumns) : ClientColumns :=
  if columns.quotaResetAt = some today then columns
  else { columns with dailyUsage := 0, quotaResetAt := some today }

/-- `lease.release()`, and the exception. -/
def releaseAnd (client : ClientObject) (error : FcamError) : Part R Value := do
  put (.release client.id)
  refuse error

/-- The commit of the client's object from the quota check. -/
def commitReset (client : ClientObject) : Part R Bool :=
  put (.session (.commit { site := .quotaReset, keys := [], client := some client }))

/-- The handler of an exception of the quota part, in a session whose commit failed: the log line
comes before the release. -/
def quotaCheckFailed (client : ClientObject) : Part R Value := do
  if ← put (.logClient client.id) then releaseAnd client dbUnavailable else .raise .other

/-- The quota part of `enforce_client_governance`; the client object as it leaves it. -/
def enforceQuota (quota : QuotaConfig) (client : ClientObject) : Part R ClientObject :=
  match client.current.dailyQuota with
  | none => return client
  | some dailyQuota =>
    if !quota.enableQuotaCheck then return client
    else do
      match ← put (.today quota.timezone) with
      | none => releaseAnd client dbUnavailable
      | some today =>
        let dirty := client.current.quotaResetAt ≠ some today
        let client := client.assign (resetUsage today)
        if dailyQuota ≤ client.current.dailyUsage then
          match ← put (.untilMidnight quota.timezone) with
          | none => releaseAnd client dbUnavailable
          | some retryAfter =>
            if dirty then
              if ← commitReset client then releaseAnd client (clientQuotaExceeded retryAfter)
              else if ← put .rollback then releaseAnd client (clientQuotaExceeded retryAfter)
              else quotaCheckFailed client
            else releaseAnd client (clientQuotaExceeded retryAfter)
        else if dirty then
          if ← commitReset client then return client.saved
          else quotaCheckFailed client
        else return client

/-- `enforce_client_governance` around a handler. -/
def enforceClientGovernance (quota : QuotaConfig) (client : ClientObject)
    (handler : ClientObject → Part R Value) : Part R Value := do
  match ← put (.acquire client.id client.current.maxConcurrent) with
  | none => refuse stateUnavailable
  | some false => refuse clientConcurrencyLimited
  | some true =>
    match ← put (.allow client.id client.current.rateLimitPerMin) with
    | none => refuse stateUnavailable
    | some (false, retryAfter) => releaseAnd client (clientRateLimited retryAfter)
    | some (true, _) =>
      let governed ← enforceQuota quota client
      (handler governed).ensuring (put (.release client.id))

/-- What a request of the data plane is forwarded with. -/
structure ProxyRequest where
  requestId : String
  method : String
  primaryPath : String
  fallbackPath : Option String := none
  payload : Option Json := none
  inboundHeaders : List (String × String) := []
  provider : String := "firecrawl"

def ProxyRequest.call (request : ProxyRequest) (client : ClientObject) (path : String)
    (pinnedApiKeyId : Option Nat) : Call :=
  { requestId := request.requestId, client, method := request.method, upstreamPath := path
    jsonBody := request.payload, inboundHeaders := request.inboundHeaders, pinnedApiKeyId
    provider := request.provider }

/-- `_forward_with_fallback`. A first answer that is no success leaves the client's object as it
was. -/
def forwardWithFallback (setup : Setup R) (request : ProxyRequest) (client : ClientObject)
    (pinnedApiKeyId : Option Nat) : Part R (ForwardResult R) := do
  let result ← within (forward setup (request.call client request.primaryPath pinnedApiKeyId))
  match request.fallbackPath with
  | none => return result
  | some path =>
    if result.response.statusCode ∈ ([404, 405] : List Int) then
      within (forward setup (request.call client path pinnedApiKeyId))
    else return result

/-- A handler of the data plane; `none` is a replayed response. -/
def handle (setup : Setup R) (request : ProxyRequest) (client : ClientObject) :
    Part R (Option UpstreamResponse) := do
  match ← put .prepare with
  | .error error => .raise error
  | .ok .replay => return none
  | .ok (.go pinnedApiKeyId) =>
    let result ← forwardWithFallback setup request client pinnedApiKeyId
    match ← put .conclude with
    | .error error => .raise error
    | .ok () => return some result.response

/-- A request of the client, whose row was loaded for it. -/
def serve (setup : Setup R) (request : ProxyRequest) (client : ClientObject) :
    Part R (Option UpstreamResponse) :=
  enforceClientGovernance setup.config.quota client (handle setup request)

end FcamGateway.DataPlane
