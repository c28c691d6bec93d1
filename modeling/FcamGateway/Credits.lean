import FcamGateway.KeyPool

/-! Credit probes and what they do to a key's row: how a reply of the credit
endpoint is read, how a result is applied, when the key is probed next, and the
probe that follows a key-attributable refusal. -/
namespace FcamGateway.Credits

variable {R : Type} [Field R] [LinearOrder R]

inductive Kind where
  | success
  | decryptFailed
  | invalid
  | cooling
  | error
deriving DecidableEq

/-- `CreditFetchResult`. -/
structure CreditFetchResult where
  apiKeyId : Nat
  kind : Kind
  remainingCredits : Int := 0
  planCredits : Int := 0
  billingPeriodStart : Option Instant := none
  billingPeriodEnd : Option Instant := none
  errorMessage : Option String := none
  httpStatus : Option Int := none
  fetchedAt : Option Instant := none

/-- `_parse_datetime` of a member that may be missing or of any type. -/
def parseDatetime (foreign : Foreign) : Option Json → Option Instant
  | some (.str text) =>
    if text = "" then none
    else foreign.fromIsoFormat (String.ofList (text.toList.flatMap fun c =>
      if c = 'Z' then "+00:00".toList else [c]))
  | _ => none

/-- `int(data.get(name) or 0)`. -/
def readCount (data : List (String × Json)) (name : String) : Option Int :=
  match Json.get? data name with
  | some value => if value.truthy then value.toInt? else some 0
  | none => some 0

/-- The result of a reply of status 200. `none` is an exception that the body's
shape raises. -/
def readPayload (foreign : Foreign) (apiKeyId : Nat) (now : Instant) :
    Json → Option CreditFetchResult
  | .obj payload =>
    if !((Json.get? payload "success").any Json.truthy) then
      let error := match Json.get? payload "error" with
        | some value =>
          if value.truthy then foreign.pyStr value else "Upstream returned success=false"
        | none => "Upstream returned success=false"
      some { apiKeyId, kind := .error, errorMessage := some error, httpStatus := some 200
             fetchedAt := some now }
    else
      let data : Option (List (String × Json)) := match Json.get? payload "data" with
        | some value => if value.truthy then
            match value with
            | .obj members => some members
            | _ => none
          else some []
        | none => some []
      data.bind fun data =>
        (readCount data "remainingCredits").bind fun remaining =>
          (readCount data "planCredits").map fun plan =>
            { apiKeyId, kind := .success, remainingCredits := remaining, planCredits := plan
              billingPeriodStart := parseDatetime foreign (Json.get? data "billingPeriodStart")
              billingPeriodEnd := parseDatetime foreign (Json.get? data "billingPeriodEnd")
              fetchedAt := some now }
  | _ => none

/-- How `probe_credit_from_firecrawl` and its synchronous twin read a reply. An
error is the text of the exception they raise. -/
def readProbe (foreign : Foreign) (apiKeyId : Nat) (now : Instant) :
    ProbeReply → Except String CreditFetchResult
  | .timeout => .ok { apiKeyId, kind := .error, errorMessage := some "Request timeout"
                      httpStatus := some 504, fetchedAt := some now }
  | .failed text => .ok { apiKeyId, kind := .error, errorMessage := some text, fetchedAt := some now }
  | .response statusCode json text =>
    if statusCode = 200 then
      match json with
      | none => .ok { apiKeyId, kind := .error, errorMessage := some "Invalid JSON response"
                      httpStatus := some 200, fetchedAt := some now }
      | some payload =>
        match readPayload foreign apiKeyId now payload with
        | some result => .ok result
        | none => .error (foreign.payloadError payload)
    else if statusCode = 401 ∨ statusCode = 403 then
      .ok { apiKeyId, kind := .invalid, errorMessage := some (toString statusCode ++ " " ++ text)
            httpStatus := some statusCode, fetchedAt := some now }
    else if statusCode = 429 then
      .ok { apiKeyId, kind := .cooling, errorMessage := some "429 Rate Limited"
            httpStatus := some 429, fetchedAt := some now }
    else
      .ok { apiKeyId, kind := .error, errorMessage := some (toString statusCode ++ " " ++ text)
            httpStatus := some statusCode, fetchedAt := some now }

/-- `1 - remaining / plan > tenths / 10`. -/
def usageAbove (remaining plan tenths : Int) : Bool :=
  if 0 < plan then 10 * remaining < (10 - tenths) * plan else (10 - tenths) * plan < 10 * remaining

/-- `calculate_next_refresh_time` after its clock reading. The outer `none` is
an exception of the date calculation. -/
def nextRefreshTime (config : CreditMonitoringConfig) (key : KeyColumns) (now : Instant) :
    Option (Option Instant) :=
  if !key.isActive || PyText.lower key.status ∈ KeyPool.disabledStatuses then some none
  else
    match key.cachedRemainingCredits, key.cachedPlanCredits with
    | some remaining, some plan =>
      if plan = 0 then (now.addSeconds? (60 * config.fixedRefreshIntervalMinutes)).map some
      else if remaining = 0 then (now.startOfNextMonth?).map some
      else
        let smart := config.smartRefresh
        let minutes :=
          if !smart.enabled then config.fixedRefreshIntervalMinutes
          else
            let byUsage :=
              if usageAbove remaining plan 9 then smart.highUsageInterval
              else if usageAbove remaining plan 7 then smart.mediumUsageInterval
              else if usageAbove remaining plan 5 then smart.normalUsageInterval
              else smart.lowUsageInterval
            if orDefault smart.abundantRemainingThreshold 1000 ≤ remaining then
              max byUsage (orDefault smart.abundantMinIntervalMinutes 120)
            else byUsage
        (now.addSeconds? (60 * minutes)).map some
    | _, _ => some (some now)

/-- `message or fallback`. -/
def messageOr (message : Option String) (fallback : String) : String :=
  match message with
  | some text => if text = "" then fallback else text
  | none => fallback

/-- `db.add(snapshot)` and `db.flush()`: the id of the new row. -/
def flushSnapshot (snapshot : CreditSnapshot) : Gateway R Nat := do
  match ← query (.flushSnapshot snapshot) with
  | some id => return id
  | none => .raise .other

def failedSnapshot (keyId : Nat) (message : String) : CreditSnapshot :=
  { apiKeyId := keyId, remainingCredits := 0, planCredits := 0, fetchSuccess := false
    errorMessage := some message }

/-- `apply_credit_fetch_result` once its `now` is fixed. -/
def applyFetchedAt (config : AppConfig R) (key : KeyObject) (result : CreditFetchResult)
    (now : Instant) : Gateway R KeyObject := do
  match result.kind with
  | .decryptFailed =>
    let _ ← flushSnapshot (failedSnapshot key.id (messageOr result.errorMessage "Decryption failed"))
    return key.assign fun columns =>
      { columns with status := "decrypt_failed", isActive := false, nextRefreshAt := none }
  | .invalid =>
    let _ ← flushSnapshot (failedSnapshot key.id (messageOr result.errorMessage "invalid key"))
    return key.assign fun columns =>
      { columns with
        status := "invalid", isActive := false, nextRefreshAt := none
        cachedRemainingCredits := some 0 }
  | .cooling =>
    let _ ← flushSnapshot (failedSnapshot key.id (messageOr result.errorMessage "429 Rate Limited"))
    return key.assign fun columns => { columns with status := "cooling", cooldownUntil := some now }
  | .success =>
    let snapshotId ← flushSnapshot
      { apiKeyId := key.id, remainingCredits := result.remainingCredits
        planCredits := result.planCredits, billingPeriodStart := result.billingPeriodStart
        billingPeriodEnd := result.billingPeriodEnd, fetchSuccess := true }
    let key := key.assign fun columns =>
      { columns with
        cachedRemainingCredits := some result.remainingCredits
        cachedPlanCredits := some result.planCredits
        lastCreditSnapshotId := some snapshotId
        lastCreditCheckAt := some now }
    let clock ← query .now
    let next := nextRefreshTime config.creditMonitoring key.current clock
    return key.assign fun columns => { columns with nextRefreshAt := next.join }
  | .error =>
    let _ ← flushSnapshot (failedSnapshot key.id (messageOr result.errorMessage "Upstream error"))
    return key

/-- `apply_credit_fetch_result`: the row object after its assignments. The
caller commits. -/
def applyCreditFetchResult (config : AppConfig R) (key : KeyObject) (result : CreditFetchResult) :
    Gateway R KeyObject := do
  match result.fetchedAt with
  | some fetchedAt => applyFetchedAt config key result fetchedAt
  | none =>
    let now ← query .now
    applyFetchedAt config key result now

def decryptFailedResult (keyId : Nat) (error : String) (now : Instant) : CreditFetchResult :=
  { apiKeyId := keyId, kind := .decryptFailed
    errorMessage := some ("Decryption failed: " ++ error), fetchedAt := some now }

/-- Apply a result and commit it; whatever raises on the way rolls back. -/
def applyAndCommit (config : AppConfig R) (key : KeyObject) (result : CreditFetchResult) :
    Gateway R KeyObject := do
  let applied ← ((applyCreditFetchResult config key result).bind fun key => pure (some key)).attempt
    fun _ => pure none
  match applied with
  | some changed => commitKey .creditResult changed
  | none => rollback key

/-- Seconds in which a key is probed once after a refusal. -/
def refreshDebounceSeconds : R := 10

/-- `refresh_credits_after_4xx`: the row object as the session keeps it. -/
def refreshCreditsAfter4xx (foreign : Foreign) (config : AppConfig R) (masterKey : Option Bytes)
    (key : KeyObject) : Gateway R KeyObject := do
  match masterKey with
  | none => return key
  | some masterKey =>
    if key.current.provider ≠ "firecrawl" ∧ key.current.provider ≠ "" then return key
    else if !key.current.isActive &&
        PyText.lower key.current.status ∈ ["disabled", "decrypt_failed"] then return key
    else
      let now ← query .monotonic
      let last ← query (.readRefresh key.id)
      if last.any (now - · < refreshDebounceSeconds) then return key
      else
        query (.keepRefresh key.id now)
        match foreign.decryptApiKey masterKey key.current.apiKeyCiphertext with
        | .error error =>
          let clock ← query .now
          applyAndCommit config key (decryptFailedResult key.id error clock)
        | .ok secret =>
          let clock ← query .now
          let reply ← query (.probe key.id secret)
          match readProbe foreign key.id clock reply with
          | .error _ => return key
          | .ok result => applyAndCommit config key result

/-- The error of the manual refresh for a result that is not a success. -/
def fetchError (result : CreditFetchResult) : FcamError :=
  let message := result.errorMessage.getD ""
  match result.kind with
  | .invalid =>
    { statusCode := orDefault (result.httpStatus.getD 0) 401, code := "INVALID_API_KEY"
      message := "API key is invalid or unauthorized" }
  | .cooling =>
    { statusCode := 429, code := "RATE_LIMITED", message := "Firecrawl API rate limited" }
  | kind =>
    if kind = .error ∧ result.httpStatus = some 504 then
      { statusCode := 504, code := "TIMEOUT", message := "Firecrawl API request timeout" }
    else if kind = .error ∧ "Invalid JSON".toList <+: message.toList then
      { statusCode := 502, code := "UPSTREAM_ERROR", message := "Invalid upstream JSON" }
    else if kind = .error ∧ PyText.contains message.toList "success=false" then
      { statusCode := 502, code := "UPSTREAM_ERROR", message := "Firecrawl credit usage failed" }
    else
      { statusCode := orDefault (result.httpStatus.getD 0) 502, code := "UPSTREAM_ERROR"
        message := "Firecrawl API error: " ++
          (if result.httpStatus.getD 0 ≠ 0 then toString (result.httpStatus.getD 0) else message) }

/-- `fetch_credit_from_firecrawl`: decrypt, probe, apply and commit one key. -/
def fetchCreditFromFirecrawl (foreign : Foreign) (config : AppConfig R) (masterKey : Bytes)
    (key : KeyObject) : Gateway R KeyObject := do
  match foreign.decryptApiKey masterKey key.current.apiKeyCiphertext with
  | .error error =>
    let clock ← query .now
    let key ← applyCreditFetchResult config key (decryptFailedResult key.id error clock)
    if ← query (.commit { site := .creditResult, keys := [key] }) then
      reject { statusCode := 500, code := "DECRYPTION_FAILED", message := "Failed to decrypt API key" }
    else .raise .other
  | .ok secret =>
    let clock ← query .now
    let reply ← query (.probe key.id secret)
    match readProbe foreign key.id clock reply with
    | .error _ => .raise .other
    | .ok result =>
      let applied ← ((applyCreditFetchResult config key result).bind fun key =>
        pure (some key)).attempt fun _ => pure none
      match applied with
      | none => reject dbUnavailable
      | some key =>
        if ← query (.commit { site := .creditResult, keys := [key] }) then
          if result.kind = .success then return key.saved else reject (fetchError result)
        else reject dbUnavailable

end FcamGateway.Credits
