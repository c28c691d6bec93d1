import FcamGateway.Credits
import FcamGateway.Upstream

/-! The forwarder: one client request becomes upstream requests with keys of the
pool, or with the one key a resource is bound to. Failures that are the key's
own lead to another key; everything else goes back to the client. -/
namespace FcamGateway.Forwarder
open Credits Upstream

variable {R : Type} [Field R] [LinearOrder R] [ScoreMath R]

/-- The parts of a forwarder that its functions read. -/
structure Setup (R : Type) [Field R] where
  foreign : Foreign
  config : AppConfig R
  runtime : Option (RuntimeScheduling R)
  masterKey : Option Bytes

/-- What one call of `forward` is given besides the session. -/
structure Call where
  requestId : String
  client : ClientObject
  method : String
  upstreamPath : String
  jsonBody : Option Json
  inboundHeaders : List (String × String)
  pinnedApiKeyId : Option Nat := none
  provider : String := "firecrawl"

/-- `ForwardResult`, with the row objects a failed last selection left changed
in the session. -/
structure ForwardResult (R : Type) where
  response : UpstreamResponse
  upstreamStatusCode : Option Int
  apiKeyId : Option Nat
  retryCount : Int
  switchReasons : List String
  selectionScore : Option R
  unsaved : List KeyObject := []

/-- `_client_retry_budget`. The column is never missing. -/
def clientRetryBudget (client : ClientColumns) : Nat := (max client.maxRetries 0 + 1).toNat

/-- `_provider_base_url`. -/
def providerBaseUrl (config : AppConfig R) (provider : String) : Except FcamError String :=
  if provider = "firecrawl" then .ok config.firecrawl.baseUrl
  else
    let missing : FcamError :=
      { statusCode := 400, code := "PROVIDER_NOT_CONFIGURED"
        message := "Provider '" ++ provider ++ "' is not configured or enabled" }
    match config.providers.lookup provider with
    | none => .error missing
    | some settings => if settings.enabled then .ok settings.baseUrl else .error missing

/-- `_provider_auth_header`. -/
def providerAuthHeader (config : AppConfig R) (provider secret : String) : List (String × String) :=
  if provider = "firecrawl" then [("authorization", "Bearer " ++ secret)]
  else
    match config.providers.lookup provider with
    | some settings =>
      if settings.authMode = "x-api-key" then [("x-api-key", secret)]
      else [("authorization", "Bearer " ++ secret)]
    | none => [("authorization", "Bearer " ++ secret)]

/-- `_refresh_credits_on_4xx`. -/
def refreshCreditsOn4xx (setup : Setup R) (key : KeyObject) (statusCode : Int) :
    Gateway R KeyObject := do
  KeyPool.recordFailure key.id ("key_4xx_" ++ toString statusCode) (some statusCode)
  refreshCreditsAfter4xx setup.foreign setup.config setup.masterKey key

/-- `_disable_key_decrypt_failed`. -/
def disableKeyDecryptFailed (key : KeyObject) : Gateway R KeyObject :=
  commitKey .decryptFailed (key.assign fun columns =>
    { columns with status := "decrypt_failed", isActive := false, nextRefreshAt := none })

/-- `_mark_active`. -/
def markActive (key : KeyObject) : Gateway R KeyObject := do
  if !key.current.isActive || key.current.status = "disabled" then return key
  else commitKey .active (key.assign fun columns =>
    { columns with status := "active", cooldownUntil := none })

/-- `_mark_cooling`. A cooldown past the last date rolls back. -/
def markCooling (key : KeyObject) (cooldownSeconds : Int) : Gateway R KeyObject := do
  if !key.current.isActive || key.current.status = "disabled" then return key
  else
    let now ← query .now
    match now.addSeconds? cooldownSeconds with
    | none => rollback key
    | some until_ =>
      let changed := key.assign fun columns =>
        { columns with status := "cooling", cooldownUntil := some until_ }
      if ← query (.commit { site := .cooling cooldownSeconds, keys := [changed] }) then
        query (.setCooldown key.id cooldownSeconds)
        return changed.saved
      else rollback changed

/-- `_disable_key`. -/
def disableKey (key : KeyObject) : Gateway R KeyObject :=
  commitKey .invalid (key.assign fun columns =>
    { columns with
      status := "invalid", isActive := false, nextRefreshAt := none
      cachedRemainingCredits := some 0 })

/-- The failures of a key counted so far, this one included, and when the count
began: it starts again once it is older than the window. -/
def failureWindow (settings : FirecrawlConfig) (entry : Option (Int × Instant)) (now : Instant) :
    Int × Instant :=
  let (count, firstAt) := entry.getD (0, now)
  if settings.failureWindowSeconds * Instant.second < now - firstAt then (1, now)
  else (count + 1, firstAt)

/-- `_record_failure`. -/
def recordFailure (setup : Setup R) (key : KeyObject) (reason : String) (statusCode : Option Int) :
    Gateway R KeyObject := do
  if !key.current.isActive || key.current.status = "disabled" then return key
  else
    KeyPool.recordFailure key.id reason statusCode
    let now ← query .now
    let entry ← query (.readWindow key.id)
    let counted := failureWindow setup.config.firecrawl entry now
    query (.keepWindow key.id counted.1 counted.2)
    if counted.1 < setup.config.firecrawl.failureThreshold then return key
    else
      match now.addSeconds? (max setup.config.firecrawl.failedCooldownSeconds 1) with
      | none => rollback key
      | some until_ => commitKey .failed (key.assign fun columns =>
          { columns with status := "failed", cooldownUntil := some until_ })

/-- The commit after an answer that the key has no credits left. The row object
is not used again. -/
def zeroCredits (key : KeyObject) : Gateway R Unit := do
  let emptied := key.assign fun columns => { columns with cachedRemainingCredits := some 0 }
  let _ ← query (.commit { site := .zeroCredits, keys := [emptied] })

/-- `_consume_quota_on_success`. -/
def consumeQuotaOnSuccess (client : ClientObject) (key : KeyObject) : Gateway R Unit := do
  let usedAt ← query .now
  let client := client.assign fun columns =>
    { columns with
      dailyUsage := if columns.dailyQuota.isSome then columns.dailyUsage + 1 else columns.dailyUsage
      lastUsedAt := some usedAt }
  let keyUsedAt ← query .now
  let key := key.assign fun columns =>
    { columns with totalRequests := columns.totalRequests + 1, lastUsedAt := some keyUsedAt }
  if ← query (.commit { site := .quota, keys := [key], client := some client }) then return
  else
    let _ ← rollback key
    reject dbUnavailable

def upstreamTimeout (setup : Setup R) (call : Call) : FcamError :=
  { statusCode := 504, code := "UPSTREAM_TIMEOUT", message := "Upstream timeout"
    details := [("base_url", .text setup.config.firecrawl.baseUrl),
      ("timeout_s", .int setup.config.firecrawl.timeout), ("attempts", .int 1),
      ("method", .text call.method), ("upstream_path", .text call.upstreamPath)] }

def upstreamUnavailable (setup : Setup R) (call : Call) (text : String) : FcamError :=
  { statusCode := 503, code := "UPSTREAM_UNAVAILABLE", message := "Upstream unavailable"
    details := [("base_url", .text setup.config.firecrawl.baseUrl), ("attempts", .int 1),
      ("method", .text call.method), ("upstream_path", .text call.upstreamPath),
      ("error", .text text)] }

def keyDecryptFailed : FcamError :=
  { statusCode := 503, code := "KEY_DECRYPT_FAILED"
    message := "Failed to decrypt API key; check FCAM_MASTER_KEY" }

/-- The proxied request with a key's secret. -/
def upstreamRequest (setup : Setup R) (call : Call) (secret : String) : UpstreamRequest :=
  { method := call.method, url := call.upstreamPath
    headers := upstreamHeaders (sanitizedRequestHeaders call.inboundHeaders call.requestId)
      (providerAuthHeader setup.config call.provider secret)
    json := call.jsonBody }

/-- Send one proxied request. A transport error is recorded and ends the call. -/
def sendUpstream (setup : Setup R) (call : Call) (key : KeyObject) (secret : String) :
    Gateway R UpstreamResponse := do
  match ← query (.request key.id (upstreamRequest setup call secret)) with
  | .response resp => return resp
  | .timeout =>
    let _ ← recordFailure setup key "timeout" none
    reject (upstreamTimeout setup call)
  | .httpError text =>
    let _ ← recordFailure setup key "http_error" none
    reject (upstreamUnavailable setup call text)
  | .other => .raise .other

/-- The row object with its credits as estimated. -/
def withEstimate (key : KeyObject) : Option Int → KeyObject
  | some remaining => key.assign fun columns => { columns with cachedRemainingCredits := some remaining }
  | none => key

/-- The accounting of a success: the usage counters, or at least the estimate. -/
def countUsage (setup : Setup R) (client : ClientObject) (key : KeyObject) (estimate : Option Int) :
    Gateway R Unit := do
  if setup.config.quota.countMode = "success" then
    consumeQuotaOnSuccess client (withEstimate key estimate)
  else if estimate.isSome then
    let _ ← commitKey .localCredits (withEstimate key estimate)

/-- What follows a response that is not held against the key. -/
def settleResponse (setup : Setup R) (call : Call) (key : KeyObject) (resp : UpstreamResponse) :
    Gateway R Unit := do
  if isSuccess resp.statusCode then
    countUsage setup call.client key (estimatedRemaining setup.foreign setup.config.creditMonitoring
      call.method call.upstreamPath key.current resp)
    KeyPool.recordSuccess key.id

/-- The loop variables of `forward`. -/
structure Progress (R : Type) where
  lastUpstreamStatus : Option Int := none
  lastApiKeyId : Option Nat := none
  lastErrorResponse : Option UpstreamResponse := none
  retryCount : Int := 0
  triedKeyIds : List Nat := []
  switchReasons : List String := []
  selectionScore : Option R := none
  upstreamAttempts : Nat := 0
  decryptFailedSeen : Bool := false

/-- The result the loop variables describe, for the response given. -/
def Progress.result (progress : Progress R) (resp : UpstreamResponse) (retryCount : Int) :
    ForwardResult R :=
  { response := toFastapiResponse resp
    upstreamStatusCode := progress.lastUpstreamStatus
    apiKeyId := progress.lastApiKeyId
    retryCount
    switchReasons := progress.switchReasons
    selectionScore := progress.selectionScore }

def allKeysBusyPinned (setup : Setup R) (call : Call) (keyId : Nat) (retryAfter : Option Int) :
    FcamError :=
  { statusCode := 503, code := "ALL_KEYS_BUSY", message := "All keys busy or rate-limited"
    retryAfter
    details := [("client_id", .int call.client.id), ("api_key_id", .int keyId),
      ("base_url", .text setup.config.firecrawl.baseUrl),
      ("attempts", .int (clientRetryBudget call.client.current)), ("method", .text call.method),
      ("upstream_path", .text call.upstreamPath)] }

/-- How one turn of a loop ends. -/
inductive Turn (Result Loop : Type) where
  | leave (result : Result)
  | again (loop : Loop)

/-- The request of a pinned attempt, under its lease. -/
def pinnedRequest (setup : Setup R) (call : Call) (masterKey : Bytes) (key : KeyObject) :
    Gateway R UpstreamResponse :=
  Prog.ensuring (do
    match setup.foreign.decryptApiKey masterKey key.current.apiKeyCiphertext with
    | .error _ =>
      let _ ← disableKeyDecryptFailed key
      reject keyDecryptFailed
    | .ok secret => sendUpstream setup call key secret) (query (.release key.id))

/-- One attempt with the pinned key; `attempt` counts from zero. -/
def pinnedTurn (setup : Setup R) (call : Call) (masterKey : Bytes) (attempt : Nat)
    (loop : KeyObject × Progress R) :
    Gateway R (Turn (ForwardResult R) (KeyObject × Progress R)) := do
  let (key, progress) := loop
  match ← query (.allow key.id key.current.rateLimitPerMin) with
  | none => reject stateUnavailable
  | some (false, retryAfter) => reject (allKeysBusyPinned setup call key.id (some retryAfter))
  | some (true, _) =>
    match ← query (.acquire key.id key.current.maxConcurrent) with
    | none => reject stateUnavailable
    | some false => reject (allKeysBusyPinned setup call key.id none)
    | some true =>
      let resp ← pinnedRequest setup call masterKey key
      let progress := { progress with
        lastUpstreamStatus := some resp.statusCode
        retryCount := if 0 < attempt then (attempt : Int) else progress.retryCount }
      match classifyUpstreamOutcome resp with
      | .rateLimit =>
        let key ← refreshCreditsOn4xx setup key 429
        let key ← markCooling key (cooldownSeconds resp.headers setup.config.cooldownSeconds)
        if clientRetryBudget call.client.current ≤ attempt + 1 then
          return .leave (progress.result resp progress.retryCount)
        else return .again (key, progress)
      | .invalidKey =>
        let key ← refreshCreditsOn4xx setup key resp.statusCode
        let _ ← disableKey key
        return .leave (progress.result resp progress.retryCount)
      | .upstream5xx =>
        let _ ← recordFailure setup key "upstream_5xx" (some resp.statusCode)
        return .leave (progress.result resp progress.retryCount)
      | outcome =>
        if outcome = .credit then
          let refreshed ← refreshCreditsOn4xx setup key resp.statusCode
          zeroCredits refreshed
        settleResponse setup call key resp
        return .leave (progress.result resp progress.retryCount)

/-- `for attempt in range(total_attempts)` over the pinned key. A loop that runs
out is left without a result. -/
def pinnedLoop (setup : Setup R) (call : Call) (masterKey : Bytes) :
    Nat → KeyObject × Progress R → Gateway R (Turn (ForwardResult R) (Progress R))
  | 0, loop => return .again loop.2
  | left + 1, loop => do
    match ← pinnedTurn setup call masterKey
        (clientRetryBudget call.client.current - (left + 1)) loop with
    | .leave result => return .leave result
    | .again loop => pinnedLoop setup call masterKey left loop

/-- The key skipped in this call: counted, and not selected again. -/
def Progress.skip (progress : Progress R) (keyId : Nat) : Progress R :=
  { progress with
    triedKeyIds := keyId :: progress.triedKeyIds
    retryCount := progress.retryCount + 1 }

/-- After a response that is held against the key: leave when the attempts are
used up, else go on with another key. -/
def failOver (call : Call) (progress : Progress R) (keyId : Nat) (resp : UpstreamResponse) :
    Turn (ForwardResult R) (Progress R) :=
  let progress := { progress.skip keyId with lastErrorResponse := some resp }
  if clientRetryBudget call.client.current ≤ progress.upstreamAttempts then
    .leave (progress.result resp (progress.retryCount - 1))
  else .again progress

/-- The status a refusal is recorded with. -/
def refusalStatus (resp : UpstreamResponse) : Int :=
  if 400 ≤ resp.statusCode ∧ resp.statusCode < 500 then resp.statusCode else 429

/-- The part of a turn after the upstream response of the selected key. -/
def poolResponse (setup : Setup R) (call : Call) (progress : Progress R) (key : KeyObject)
    (resp : UpstreamResponse) : Gateway R (Turn (ForwardResult R) (Progress R)) := do
  match classifyUpstreamOutcome resp with
  | .rateLimit =>
    let refreshed ← refreshCreditsOn4xx setup key (refusalStatus resp)
    let _ ← markCooling refreshed (cooldownSeconds resp.headers setup.config.cooldownSeconds)
    return failOver call progress key.id resp
  | .credit =>
    let refreshed ← refreshCreditsOn4xx setup key (refusalStatus resp)
    let _ ← zeroCredits refreshed
    return failOver call progress key.id resp
  | .invalidKey =>
    let refreshed ← refreshCreditsOn4xx setup key resp.statusCode
    let _ ← disableKey refreshed
    return failOver call progress key.id resp
  | .upstream5xx =>
    let _ ← recordFailure setup key "upstream_5xx" (some resp.statusCode)
    return .leave (progress.result resp progress.retryCount)
  | _ =>
    settleResponse setup call key resp
    return .leave (progress.result resp progress.retryCount)

/-- The request with a selected key, under its lease; `none` when the key does
not decrypt. -/
def poolRequest (setup : Setup R) (call : Call) (masterKey : Bytes) (key : KeyObject) :
    Gateway R (Option UpstreamResponse) :=
  Prog.ensuring (do
    match setup.foreign.decryptApiKey masterKey key.current.apiKeyCiphertext with
    | .error _ =>
      let _ ← disableKeyDecryptFailed key
      return none
    | .ok secret =>
      let resp ← sendUpstream setup call key secret
      return some resp) (query (.release key.id))

/-- The part of a turn after the selection of a key. -/
def selectedTurn (setup : Setup R) (call : Call) (masterKey : Bytes) (progress : Progress R)
    (key : KeyObject) : Gateway R (Turn (ForwardResult R) (Progress R)) := do
  match ← query (.allow key.id key.current.rateLimitPerMin) with
  | none => reject stateUnavailable
  | some (false, _) => return .again (progress.skip key.id)
  | some (true, _) =>
    match ← query (.acquire key.id key.current.maxConcurrent) with
    | none => reject stateUnavailable
    | some false => return .again (progress.skip key.id)
    | some true =>
      match ← poolRequest setup call masterKey key with
      | none => return .again { progress.skip key.id with
          decryptFailedSeen := true
          switchReasons := progress.switchReasons ++ ["decrypt_failed"] }
      | some resp =>
        let progress := { progress with
          lastUpstreamStatus := some resp.statusCode
          upstreamAttempts := progress.upstreamAttempts + 1 }
        poolResponse setup call progress key resp

/-- One turn of the pool loop. -/
def poolTurn (setup : Setup R) (call : Call) (masterKey : Bytes) (progress : Progress R) :
    Gateway R (Turn (ForwardResult R) (Progress R)) := do
  match ← KeyPool.select setup.config setup.runtime call.provider progress.triedKeyIds with
  | .error failed =>
    if progress.decryptFailedSeen && failed.error.code ∈ ["NO_KEY_CONFIGURED",
        "ALL_KEYS_DISABLED", "NO_KEY_AVAILABLE", "ALL_KEYS_NO_CREDITS"] then
      reject keyDecryptFailed
    else
      match progress.lastErrorResponse with
      | some resp =>
        if 0 < progress.upstreamAttempts then
          return .leave { progress.result resp (max (progress.retryCount - 1) 0) with
            unsaved := failed.unsaved }
        else reject failed.error
      | none => reject failed.error
  | .ok selected =>
    let progress := { progress with
      selectionScore := some selected.score, lastApiKeyId := some selected.apiKey.id }
    selectedTurn setup call masterKey progress selected.apiKey

def allKeysBusy (setup : Setup R) (call : Call) : FcamError :=
  { statusCode := 503, code := "ALL_KEYS_BUSY", message := "All keys busy or rate-limited"
    details := [("client_id", .int call.client.id),
      ("base_url", .text setup.config.firecrawl.baseUrl),
      ("attempts", .int (clientRetryBudget call.client.current)), ("method", .text call.method),
      ("upstream_path", .text call.upstreamPath)] }

/-- The error at the end of `forward`. -/
def trailingUnavailable (setup : Setup R) (call : Call) (progress : Progress R) : FcamError :=
  { statusCode := 503, code := "UPSTREAM_UNAVAILABLE", message := "Upstream unavailable"
    details := [("client_id", .int call.client.id),
      ("base_url", .text setup.config.firecrawl.baseUrl),
      ("attempts", .int (clientRetryBudget call.client.current)), ("method", .text call.method),
      ("upstream_path", .text call.upstreamPath),
      ("last_upstream_status_code", progress.lastUpstreamStatus.elim .null .int),
      ("last_api_key_id", progress.lastApiKeyId.elim .null fun id => .int id)] }

/-- What follows the pool loop once its condition fails. -/
def afterPool (setup : Setup R) (call : Call) (progress : Progress R) :
    Gateway R (ForwardResult R) := do
  if progress.upstreamAttempts = 0 then reject (allKeysBusy setup call)
  else
    match progress.lastErrorResponse with
    | some resp => return progress.result resp (max (progress.retryCount - 1) 0)
    | none => reject (trailingUnavailable setup call progress)

/-- The pool loop, by the selection tries it has left. -/
def poolLoop (setup : Setup R) (call : Call) (masterKey : Bytes) :
    Nat → Progress R → Gateway R (ForwardResult R)
  | 0, progress => afterPool setup call progress
  | left + 1, progress => do
    if progress.upstreamAttempts < clientRetryBudget call.client.current then
      match ← poolTurn setup call masterKey progress with
      | .leave result => return result
      | .again progress => poolLoop setup call masterKey left progress
    else afterPool setup call progress

/-- The selection tries of one call: `max(total_attempts * 20, 50)`. -/
def maxSelectionTries (call : Call) : Nat := max (clientRetryBudget call.client.current * 20) 50

/-- A pinned key that the pinned branch may use. -/
def usablePinned (provider : String) (key : KeyColumns) : Bool :=
  key.isActive && !(key.status ∈ ["disabled", "invalid", "decrypt_failed"]) && key.provider = provider

/-- The pinned branch up to the place where the pool loop starts. -/
def pinnedBranch (setup : Setup R) (call : Call) (masterKey : Bytes) :
    Gateway R (Turn (ForwardResult R) (Progress R)) := do
  match call.pinnedApiKeyId with
  | none => return .again {}
  | some id =>
    match ← query (.findKey id) with
    | none => reject dbUnavailable
    | some none => return .again {}
    | some (some row) =>
      if usablePinned call.provider row then
        pinnedLoop setup call masterKey (clientRetryBudget call.client.current)
          (KeyObject.fresh id row, { lastApiKeyId := some id })
      else return .again {}

/-- `Forwarder.forward`. -/
def forward (setup : Setup R) (call : Call) : Gateway R (ForwardResult R) := do
  match setup.masterKey with
  | none => reject { statusCode := 503, code := "NOT_READY", message := "Master key not configured" }
  | some masterKey =>
    match providerBaseUrl setup.config call.provider with
    | .error error => reject error
    | .ok _ =>
      match ← pinnedBranch setup call masterKey with
      | .leave result => return result
      | .again progress => poolLoop setup call masterKey (maxSelectionTries call) progress

end FcamGateway.Forwarder
