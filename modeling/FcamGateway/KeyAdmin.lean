import FcamGateway.Forwarder

/-! The operations on key rows besides the data plane and the background refresh: the
endpoints that update, revive, import, test and refresh keys and reset their quota. They
put the gateway's questions and some of their own. -/
namespace FcamGateway.KeyAdmin
open Credits Upstream Forwarder

variable {R : Type} [Field R] [LinearOrder R] [ScoreMath R]

/-- How the insertion of a row in a nested transaction ends. -/
inductive Inserted where
  | added (id : Nat)
  | duplicate
  | failed (text : String)
deriving DecidableEq

/-- How a nested transaction is left. Its last statements may fail, which rolls it back. -/
inductive Closed where
  | released
  | raised (integrity : Bool) (text : String)
deriving DecidableEq

/-- The questions that only the administration puts: to insert a row in a nested transaction,
to find a row by its hash in one, to leave it without or with changes to that row, and to
commit rows with an import or without the row that is purged. -/
inductive AdminOp where
  | insertKey (row : KeyColumns)
  | findHash (hash : String)
  | closeNested
  | flushKey (key : KeyObject)
  | commitImport (inserted changed : List KeyObject)
  | purgeKey (id : Nat)

abbrev AdminReply : AdminOp → Type
  | .insertKey _ => Inserted
  | .findHash _ => Except String (Option (Nat × KeyColumns))
  | .closeNested => Closed
  | .flushKey _ => Option String
  | .commitImport _ _ => Bool
  | .purgeKey _ => Bool

abbrev Question (R : Type) := Op R ⊕ AdminOp

abbrev Answer (R : Type) : Question R → Type
  | .inl op => Reply R op
  | .inr op => AdminReply op

/-- An endpoint of the control plane. -/
abbrev Endpoint (R : Type) := Prog (Question R) (Answer R) Exn

/-- A gateway function among the questions of an endpoint. -/
def gateway : Gateway R Value → Endpoint R Value
  | .done value => .done value
  | .raise error => .raise error
  | .ask op next => .ask (.inl op) fun reply => gateway (next reply)

def ask (op : AdminOp) : Endpoint R (AdminReply op) := .ask (.inr op) .done

/-- What the endpoints read besides the forwarder's settings. -/
structure ControlPlane (R : Type) [Field R] where
  setup : Setup R
  firecrawlUpstreamVersion : Option String := none
  minManualRefreshIntervalSeconds : Int := 300

def notReady : FcamError :=
  { statusCode := 503, code := "NOT_READY", message := "Master key not configured" }

def notFound : FcamError := { statusCode := 404, code := "NOT_FOUND", message := "Not found" }

def invalidRequest (message : String) : FcamError :=
  { statusCode := 400, code := "VALIDATION_ERROR", message }

/-- The row object of a key, or the endpoint's error for a key that is not there. -/
def loadKey (id : Nat) (missing : FcamError) : Gateway R KeyObject := do
  match ← query (.findKey id) with
  | none => .raise .other
  | some none => reject missing
  | some (some row) => return KeyObject.fresh id row

/-- `KeyTestResult` without the latency. -/
structure KeyTestResult where
  ok : Bool
  upstreamStatusCode : Option Int
  observedStatus : String
  observedCooldownUntil : Option Instant

def tested (key : KeyObject) (ok : Bool) (upstreamStatusCode : Option Int) :
    KeyTestResult × KeyObject :=
  ({ ok, upstreamStatusCode, observedStatus := key.current.status
     observedCooldownUntil := key.current.cooldownUntil }, key)

/-- The request of a key test. -/
def testRequest (control : ControlPlane R) (requestId provider secret url : String) (json : Json) :
    UpstreamRequest :=
  { method := "POST", url
    headers := upstreamHeaders [("x-request-id", requestId), ("content-type", "application/json")]
      (providerAuthHeader control.setup.config provider secret)
    json := some json }

/-- The paths of a key test, in the order they are tried. -/
def testPaths (control : ControlPlane R) : List String :=
  if control.firecrawlUpstreamVersion = some "v1" then ["/v1/scrape", "/v2/scrape"]
  else ["/v2/scrape", "/v1/scrape"]

/-- Try the paths until one is neither missing nor refuses the method. -/
def tryPaths (keyId : Nat) (sent : String → UpstreamRequest) : String → List String →
    Gateway R UpstreamReply
  | path, [] => query (.request keyId (sent path))
  | path, next :: rest => do
    match ← query (.request keyId (sent path)) with
    | .response resp =>
      if resp.statusCode = 404 ∨ resp.statusCode = 405 then tryPaths keyId sent next rest
      else return .response resp
    | reply => return reply

/-- What follows the response of a test of a Firecrawl key. -/
def testResponse (control : ControlPlane R) (key : KeyObject) (resp : UpstreamResponse) :
    Gateway R (KeyTestResult × KeyObject) := do
  if isSuccess resp.statusCode then
    let key ← markActive key
    return tested key true (some resp.statusCode)
  else if resp.statusCode = 429 then
    let key ← markCooling key (cooldownSeconds resp.headers control.setup.config.cooldownSeconds)
    return tested key false (some resp.statusCode)
  else if classifyUpstreamOutcome resp = .invalidKey then
    let key ← disableKey key
    return tested key false (some resp.statusCode)
  else if 500 ≤ resp.statusCode then
    let key ← recordFailure control.setup key "upstream_5xx" (some resp.statusCode)
    return tested key false (some resp.statusCode)
  else return tested key false (some resp.statusCode)

/-- What follows the response of a test of an Exa key: the tests are made one after the
other. -/
def testResponseExa (control : ControlPlane R) (key : KeyObject) (resp : UpstreamResponse) :
    Gateway R (KeyTestResult × KeyObject) := do
  if isSuccess resp.statusCode then
    let key ← markActive key
    return tested key true (some resp.statusCode)
  else
    let key ← if resp.statusCode = 429 then
        markCooling key (cooldownSeconds resp.headers control.setup.config.cooldownSeconds)
      else pure key
    let key ← if classifyUpstreamOutcome resp = .invalidKey then disableKey key else pure key
    let key ← if 500 ≤ resp.statusCode then
        recordFailure control.setup key "upstream_5xx" (some resp.statusCode)
      else pure key
    return tested key false (some resp.statusCode)

/-- `Forwarder.test_key`, with the row object as the session keeps it. -/
def testKey (control : ControlPlane R) (requestId : String) (key : KeyObject) (mode testUrl : String) :
    Gateway R (KeyTestResult × KeyObject) := do
  match control.setup.masterKey with
  | none => reject notReady
  | some masterKey =>
    let provider := if key.current.provider = "" then "firecrawl" else key.current.provider
    if mode ≠ "scrape" then reject (invalidRequest "Unsupported test mode")
    else
      match control.setup.foreign.decryptApiKey masterKey key.current.apiKeyCiphertext with
      | .error _ =>
        let key ← disableKeyDecryptFailed key
        return tested key false none
      | .ok secret =>
        match providerBaseUrl control.setup.config provider with
        | .error error => reject error
        | .ok _ =>
          let reply ←
            if provider = "exa" then
              query (.request key.id (testRequest control requestId provider secret "/search"
                (.obj [("query", .str "test"), ("numResults", .int 1)])))
            else
              let paths := testPaths control
              tryPaths key.id (fun path => testRequest control requestId provider secret path
                (.obj [("url", .str testUrl)])) (paths.headD "") paths.tail
          match reply with
          | .other => .raise .other
          | .timeout =>
            let key ← recordFailure control.setup key "timeout" none
            return tested key false none
          | .httpError _ =>
            let key ← recordFailure control.setup key "http_error" none
            return tested key false none
          | .response resp =>
            if provider = "exa" then testResponseExa control key resp
            else testResponse control key resp

def testFailed : FcamError :=
  { statusCode := 503, code := "UPSTREAM_UNAVAILABLE", message := "Upstream unavailable" }

/-- Test a key in a session of its own and commit; whatever is no error of the gateway's
own is reported as one. -/
def testAndCommit (control : ControlPlane R) (requestId : String) (key : KeyObject)
    (mode testUrl : String) : Gateway R (KeyTestResult × KeyObject) :=
  Prog.attempt (do
    let (result, key) ← testKey control requestId key mode testUrl
    if ← query (.commit { site := .admin, keys := [key] }) then
      match ← query (.reload key.id) with
      | some row => return (result, KeyObject.fresh key.id row)
      | none => .raise .other
    else .raise .other) fun error =>
      match error with
      | .fcam error => reject error
      | .other => reject testFailed

/-- The endpoint that tests a key. -/
def testKeyEndpoint (control : ControlPlane R) (requestId : String) (keyId : Nat)
    (mode testUrl : String) : Gateway R KeyTestResult := do
  let key ← loadKey keyId notFound
  let (result, _) ← testAndCommit control requestId key mode testUrl
  return result

def keyNotFound : FcamError :=
  { statusCode := 404, code := "KEY_NOT_FOUND", message := "API Key not found" }

def unsupportedRefresh (provider : String) : FcamError :=
  { statusCode := 400, code := "UNSUPPORTED_PROVIDER_OPERATION"
    message := "Credit refresh is not supported for provider '" ++ provider ++ "'" }

/-- A manual refresh waits this long after the last check. -/
def ControlPlane.minInterval (control : ControlPlane R) : Int :=
  orDefault control.minManualRefreshIntervalSeconds 300

/-- The error of a manual refresh that comes too early. -/
def tooFrequent (control : ControlPlane R) (key : KeyColumns) (now : Instant) : Option FcamError :=
  key.lastCreditCheckAt.bind fun last =>
    let left := control.minInterval * Instant.second - (now - last)
    if 0 < left then
      some { statusCode := 429, code := "REFRESH_TOO_FREQUENT"
             message := "Please wait " ++ toString (left / Instant.second) ++
               " seconds before refreshing again" }
    else none

/-- `refresh_key_credits_api`. -/
def refreshKeyCredits (control : ControlPlane R) (keyId : Nat) : Gateway R KeyObject := do
  match control.setup.masterKey with
  | none => reject notReady
  | some masterKey =>
    let key ← loadKey keyId keyNotFound
    if key.current.provider ≠ "firecrawl" then reject (unsupportedRefresh key.current.provider)
    else
      let now ← query .now
      match tooFrequent control key.current now with
      | some error => reject error
      | none => fetchCreditFromFirecrawl control.setup.foreign control.setup.config masterKey key

/-- How the refresh of one key in `refresh_all_credits_api` ends. -/
inductive RefreshOutcome where
  | refreshed
  | tooFrequent
  | failed (error : Exn)

/-- Whether the refresh that ended so has rolled its session back. -/
def rolledBack (foreign : Foreign) (masterKey : Bytes) (key : KeyObject) : Exn → Bool
  | .fcam error => error = dbUnavailable
  | .other => (foreign.decryptApiKey masterKey key.current.apiKeyCiphertext).toOption.isNone

/-- The loop of `refresh_all_credits_api`. After a rollback the row objects that are left are
read again when they are used. -/
def refreshKeys (control : ControlPlane R) (masterKey : Bytes) (force : Bool) (now : Instant) :
    Bool → List KeyObject → Gateway R (List (Nat × RefreshOutcome))
  | _, [] => return []
  | expired, listed :: rest => do
    let key ← if expired then rollback listed else pure listed
    if !force && (tooFrequent control key.current now).isSome then
      let others ← refreshKeys control masterKey force now expired rest
      return (key.id, .tooFrequent) :: others
    else
      let error ← ((fetchCreditFromFirecrawl control.setup.foreign control.setup.config masterKey
        key).bind fun _ => pure none).attempt fun error => pure (some error)
      let others ← refreshKeys control masterKey force now
        (expired || error.any (rolledBack control.setup.foreign masterKey key)) rest
      return (key.id, error.elim .refreshed .failed) :: others

/-- `refresh_all_credits_api`; without ids it takes every active key. -/
def refreshAllCredits (control : ControlPlane R) (keyIds : List Nat) (force : Bool) :
    Gateway R (List (Nat × RefreshOutcome)) := do
  match control.setup.masterKey with
  | none => reject notReady
  | some masterKey =>
    match ← query .listKeys with
    | none => .raise .other
    | some keys =>
      let listed := (keys.entries.filter fun entry => entry.2.isActive &&
        entry.2.provider = "firecrawl" && (keyIds = [] || entry.1 ∈ keyIds)).map fun entry =>
          KeyObject.fresh entry.1 entry.2
      let now ← query .now
      refreshKeys control masterKey force now false listed

/-- Hash, last characters and encryption of a key's text. The nonce is drawn anew each time. -/
structure KeyVault where
  hmacSha256Hex : Bytes → String → String
  encryptApiKey : Bytes → Bytes → String → Bytes
  encryptAccountPassword : Bytes → Bytes → String → Bytes

def last4 (text : String) : String := String.ofList (text.toList.drop (text.toList.length - 4))

structure UpdateKeyRequest where
  clientId : Option Nat := none
  name : Option String := none
  planType : Option String := none
  dailyQuota : Option Int := none
  maxConcurrent : Option Int := none
  rateLimitPerMin : Option Int := none
  isActive : Option Bool := none
  apiKey : Option String := none

/-- The assignments of `is_active`, which carry the status along. -/
def setActive (isActive : Bool) (columns : KeyColumns) : KeyColumns :=
  { columns with
    isActive
    status := if !isActive then "disabled"
      else if columns.status = "disabled" then "active" else columns.status }

/-- The rotation of a key: what depends on its text. -/
def rotate (vault : KeyVault) (masterKey nonce : Bytes) (apiKey : String) (columns : KeyColumns) :
    KeyColumns :=
  { columns with
    apiKeyCiphertext := vault.encryptApiKey masterKey nonce apiKey
    apiKeyHash := vault.hmacSha256Hex masterKey apiKey
    apiKeyLast4 := last4 apiKey }

/-- The assignments of `update_key` besides the rotation. -/
def UpdateKeyRequest.assign (payload : UpdateKeyRequest) (columns : KeyColumns) : KeyColumns :=
  let columns := { columns with
    clientId := if payload.clientId.isSome then none else columns.clientId
    name := payload.name.or columns.name
    planType := payload.planType.getD columns.planType
    dailyQuota := payload.dailyQuota.getD columns.dailyQuota
    maxConcurrent := payload.maxConcurrent.getD columns.maxConcurrent
    rateLimitPerMin := payload.rateLimitPerMin.getD columns.rateLimitPerMin }
  match payload.isActive with
  | some isActive => setActive isActive columns
  | none => columns

/-- How the commit of `update_key` fails. -/
def updateFailed (duplicate : Bool) : FcamError :=
  if duplicate then
    { statusCode := 409, code := "API_KEY_DUPLICATE", message := "Duplicate api key" }
  else dbUnavailable

/-- `update_key`. The flag says whether a failure of the commit is a violation of the unique
hash. -/
def updateKey (control : ControlPlane R) (vault : KeyVault) (nonce : Bytes) (duplicate : Bool)
    (keyId : Nat) (payload : UpdateKeyRequest) : Gateway R KeyObject := do
  let key ← loadKey keyId notFound
  let rotated ← match payload.apiKey, control.setup.masterKey with
    | none, _ => pure key
    | some _, none => reject notReady
    | some apiKey, some masterKey => pure (key.assign (rotate vault masterKey nonce apiKey))
  if ← query (.commit { site := .admin, keys := [rotated.assign payload.assign] }) then
    match ← query (.reload key.id) with
    | some row => return KeyObject.fresh key.id row
    | none => reject dbUnavailable
  else reject (updateFailed duplicate)

/-- `delete_key`, which puts the key away and keeps its row. -/
def deleteKey (keyId : Nat) : Gateway R Unit := do
  let key ← loadKey keyId notFound
  let key := key.assign fun columns => { columns with isActive := false, status := "disabled" }
  if ← query (.commit { site := .admin, keys := [key] }) then return else reject dbUnavailable

structure ReviveKeyRequest where
  test : Bool := true
  requeueRefresh : Bool := true

/-- `revive_key`, with the outcome of the test it may make. -/
def reviveKey (control : ControlPlane R) (requestId : String) (keyId : Nat)
    (payload : ReviveKeyRequest) : Gateway R (KeyObject × Option KeyTestResult) := do
  let key ← loadKey keyId notFound
  let revived := key.assign fun columns =>
    { columns with isActive := true, status := "active", cooldownUntil := none }
  let revived ← if payload.requeueRefresh then do
      let now ← query .now
      pure (revived.assign fun columns => { columns with nextRefreshAt := some now })
    else pure revived
  if ← query (.commit { site := .admin, keys := [revived] }) then
    match ← query (.reload key.id) with
    | none => reject dbUnavailable
    | some row =>
      let key := KeyObject.fresh key.id row
      let (test, key) ← if payload.test then do
          let (result, key) ← testAndCommit control requestId key "scrape" "https://example.com"
          pure (some result, key)
        else pure (none, key)
      let _ ← query (.commit { site := .admin, keys := [key] })
      return (key, test)
  else reject dbUnavailable

/-- `reset_keys_quota`; the day is today in the configured zone. -/
def resetKeysQuota (today : Int) : Gateway R Nat := do
  match ← query .listKeys with
  | none => reject dbUnavailable
  | some keys =>
    let objects := keys.entries.map fun entry =>
      (KeyObject.fresh entry.1 entry.2).assign fun columns =>
        { columns with
          dailyUsage := 0
          quotaResetAt := some today
          status := if columns.status = "quota_exceeded" ∧ columns.isActive then "active"
            else columns.status }
    if ← query (.commit { site := .quotaReset, keys := objects }) then return objects.length
    else reject dbUnavailable

/-- The fields of a batch patch that were set; a name may be set to null. -/
structure BatchKeyPatch where
  name : Option (Option String) := none
  planType : Option String := none
  dailyQuota : Option Int := none
  maxConcurrent : Option Int := none
  rateLimitPerMin : Option Int := none
  isActive : Option Bool := none

/-- The request of `batch_keys`. The tests it may ask for run afterwards, each in a session of
its own. -/
structure BatchKeysRequest where
  ids : List Nat
  patch : Option BatchKeyPatch := none
  resetCooldown : Bool := false
  softDelete : Bool := false
  purge : Bool := false
  testMode : Option String := none

def BatchKeyPatch.assign (patch : BatchKeyPatch) (columns : KeyColumns) : KeyColumns :=
  let columns := { columns with
    name := patch.name.getD columns.name
    planType := patch.planType.getD columns.planType
    dailyQuota := patch.dailyQuota.getD columns.dailyQuota
    maxConcurrent := patch.maxConcurrent.getD columns.maxConcurrent
    rateLimitPerMin := patch.rateLimitPerMin.getD columns.rateLimitPerMin }
  match patch.isActive with
  | some isActive => setActive isActive columns
  | none => columns

/-- Whether a patch has a field that changes the row object. -/
def BatchKeyPatch.changes (patch : BatchKeyPatch) : Bool :=
  patch.name.isSome || patch.planType.isSome || patch.dailyQuota.isSome ||
    patch.maxConcurrent.isSome || patch.rateLimitPerMin.isSome || patch.isActive.isSome

/-- The assignments of a batch to one row object. -/
def BatchKeysRequest.assign (payload : BatchKeysRequest) (columns : KeyColumns) : KeyColumns :=
  let columns := if payload.resetCooldown then
      { columns with
        cooldownUntil := none
        status := if columns.status ∈ ["cooling", "failed"] ∧ columns.isActive then "active"
          else columns.status }
    else columns
  let columns := payload.patch.elim columns (·.assign columns)
  if payload.softDelete && !payload.purge then
    { columns with isActive := false, status := "disabled" }
  else columns

def BatchKeysRequest.changes (payload : BatchKeysRequest) : Bool :=
  payload.resetCooldown || payload.patch.any (·.changes) || (payload.softDelete && !payload.purge)

/-- What a batch answers for one key. -/
inductive BatchOutcome where
  | changed (key : KeyObject)
  | purged
  | failed (error : FcamError)

def internalError : FcamError :=
  { statusCode := 500, code := "INTERNAL_ERROR", message := "Internal error" }

/-- One turn of the loop of `batch_keys`, inside its `try`. -/
def batchKey (payload : BatchKeysRequest) (keyId : Nat) : Endpoint R BatchOutcome := do
  let key ← gateway (loadKey keyId notFound)
  let key := key.assign payload.assign
  if payload.purge then
    if ← ask (.purgeKey keyId) then return .purged else .raise .other
  else if payload.changes then gateway do
    if ← query (.commit { site := .admin, keys := [key] }) then
      match ← query (.reload keyId) with
      | some row => return .changed (KeyObject.fresh keyId row)
      | none => .raise .other
    else .raise .other
  else return .changed key

/-- `batch_keys` up to its tests. A batch test of several keys needs one provider. -/
def batchKeys (payload : BatchKeysRequest) : Endpoint R (List (Nat × BatchOutcome)) := do
  if payload.testMode.any (· ≠ "scrape") then
    gateway (reject (invalidRequest "Unsupported test mode"))
  else
    if payload.testMode.isSome && 1 < payload.ids.length then
      match ← gateway (query .listKeys) with
      | none => .raise .other
      | some keys =>
        let providers := ((keys.entries.filter (·.1 ∈ payload.ids)).map (·.2.provider)).dedup
        if 1 < providers.length then
          gateway (reject { statusCode := 400, code := "MIXED_PROVIDER_BATCH"
                            message := "Batch test does not support mixed providers: " ++
                              String.intercalate ", " (providers.insertionSort (· ≤ ·)) })
    payload.ids.mapM fun keyId => do
      let outcome ← (batchKey payload keyId).attempt fun error =>
        match error with
        | .fcam error => return .failed error
        | .other => return .failed internalError
      return (keyId, outcome)

/-- The request of `create_key`; the client and the quota that it may name are ignored. -/
structure CreateKeyRequest where
  apiKey : String
  name : Option String := none
  planType : String := "free"
  maxConcurrent : Int := 5
  rateLimitPerMin : Int := 60
  isActive : Bool := true
  provider : String := "firecrawl"

/-- The row that `create_key` inserts. -/
def createdRow (vault : KeyVault) (masterKey nonce : Bytes) (today : Int)
    (payload : CreateKeyRequest) : KeyColumns :=
  { apiKeyCiphertext := vault.encryptApiKey masterKey nonce payload.apiKey
    apiKeyHash := vault.hmacSha256Hex masterKey payload.apiKey
    apiKeyLast4 := last4 payload.apiKey
    name := payload.name
    planType := payload.planType
    isActive := payload.isActive
    status := if payload.isActive then "active" else "disabled"
    dailyQuota := 0
    dailyUsage := 0
    quotaResetAt := some today
    maxConcurrent := payload.maxConcurrent
    rateLimitPerMin := payload.rateLimitPerMin
    provider := payload.provider }

/-- A line of the text that parses. -/
structure ParsedKeyLine where
  lineNo : Nat
  raw : String
  apiKey : String
  accountUsername : Option String := none
  accountPassword : Option String := none
  accountVerifiedAt : Option Instant := none

structure ParseFailure where
  lineNo : Nat
  raw : String
  message : String

/-- The request of `import_keys_text`, its text parsed. -/
structure ImportKeysTextRequest where
  items : List ParsedKeyLine
  parseFailures : List ParseFailure := []
  planType : String := "free"
  maxConcurrent : Int := 5
  rateLimitPerMin : Int := 60
  isActive : Bool := true
  provider : String := "firecrawl"

/-- The row that a line is inserted as. -/
def importedRow (vault : KeyVault) (masterKey : Bytes) (nonce : Nat → Bytes) (today : Int)
    (payload : ImportKeysTextRequest) (item : ParsedKeyLine) : KeyColumns :=
  { apiKeyCiphertext := vault.encryptApiKey masterKey (nonce (2 * item.lineNo)) item.apiKey
    apiKeyHash := vault.hmacSha256Hex masterKey item.apiKey
    apiKeyLast4 := last4 item.apiKey
    accountUsername := item.accountUsername
    accountPasswordCiphertext := item.accountPassword.map
      (vault.encryptAccountPassword masterKey (nonce (2 * item.lineNo + 1)))
    accountVerifiedAt := item.accountVerifiedAt
    planType := payload.planType
    isActive := payload.isActive
    status := if payload.isActive then "active" else "disabled"
    dailyQuota := 0
    dailyUsage := 0
    quotaResetAt := some today
    maxConcurrent := payload.maxConcurrent
    rateLimitPerMin := payload.rateLimitPerMin
    provider := payload.provider }

/-- What a line adds to the row that has its key already: account fields that are missing. -/
def fillAccount (row columns : KeyColumns) : KeyColumns :=
  { columns with
    accountUsername :=
      if row.accountUsername.any (· ≠ "") && !columns.accountUsername.any (· ≠ "") then
        row.accountUsername
      else columns.accountUsername
    accountPasswordCiphertext := columns.accountPasswordCiphertext.or row.accountPasswordCiphertext
    accountVerifiedAt := columns.accountVerifiedAt.or row.accountVerifiedAt }

/-- The session of an import: new rows, changed rows, and what is counted. -/
structure ImportSession where
  inserted : List KeyObject := []
  changed : List KeyObject := []
  created : Nat := 0
  updated : Nat := 0
  skipped : Nat := 0
  failures : List ParseFailure := []

def ImportSession.fail (session : ImportSession) (item : ParsedKeyLine) (message : String) :
    ImportSession :=
  { session with
    failures := session.failures ++ [{ lineNo := item.lineNo, raw := item.raw, message }] }

/-- The object of a row in the session. -/
def ImportSession.object (session : ImportSession) (id : Nat) (row : KeyColumns) : KeyObject :=
  ((session.inserted ++ session.changed).find? (·.id = id)).getD (KeyObject.fresh id row)

/-- The session with a changed object in its place. -/
def ImportSession.keep (session : ImportSession) (key : KeyObject) : ImportSession :=
  if session.inserted.any (·.id = key.id) then
    { session with inserted := session.inserted.map fun old => if old.id = key.id then key else old }
  else { session with changed := session.changed.filter (·.id ≠ key.id) ++ [key] }

/-- Leave the nested transaction of a row that needs no change. -/
def closeMerge (session : ImportSession) (item : ParsedKeyLine) : Endpoint R ImportSession := do
  match ← ask .closeNested with
  | .released => return session
  | .raised _ message => return session.fail item message

/-- The row of a line is there already: complete it. The change is counted before it is
written. -/
def mergeItem (session : ImportSession) (item : ParsedKeyLine) (row : KeyColumns) :
    Endpoint R ImportSession := do
  match ← ask (.findHash row.apiKeyHash) with
  | .error message => return session.fail item message
  | .ok none =>
    closeMerge (session.fail item "duplicate api key but existing record missing") item
  | .ok (some (id, stored)) =>
    let existing := session.object id stored
    let filled := existing.assign (fillAccount row)
    if filled.current = existing.current then
      closeMerge { session with skipped := session.skipped + 1 } item
    else
      let counted := { session with updated := session.updated + 1 }
      match ← ask (.flushKey filled) with
      | some message => return counted.fail item message
      | none => return counted.keep filled

/-- One turn of the loop of `import_keys_text`. The new row is counted before its nested
transaction is left. -/
def importItem (session : ImportSession) (item : ParsedKeyLine) (row : KeyColumns) :
    Endpoint R ImportSession := do
  match ← ask (.insertKey row) with
  | .added id =>
    let counted := { session with created := session.created + 1 }
    match ← ask .closeNested with
    | .released => return { counted with inserted := session.inserted ++ [KeyObject.fresh id row] }
    | .raised true _ => mergeItem counted item row
    | .raised false message => return counted.fail item message
  | .duplicate => mergeItem session item row
  | .failed message => return session.fail item message

def importItems (vault : KeyVault) (masterKey : Bytes) (nonce : Nat → Bytes) (today : Int)
    (payload : ImportKeysTextRequest) : ImportSession → List ParsedKeyLine →
    Endpoint R ImportSession
  | session, [] => return session
  | session, item :: rest => do
    let session ← importItem session item (importedRow vault masterKey nonce today payload item)
    importItems vault masterKey nonce today payload session rest

/-- `import_keys_text`. -/
def importKeysText (control : ControlPlane R) (vault : KeyVault) (nonce : Nat → Bytes) (today : Int)
    (payload : ImportKeysTextRequest) : Endpoint R ImportSession := do
  match control.setup.masterKey with
  | none => gateway (reject notReady)
  | some masterKey =>
    if payload.provider ≠ "firecrawl" ∧ payload.provider ≠ "exa" then
      gateway (reject (invalidRequest ("Invalid provider '" ++ payload.provider ++
        "'. Allowed: exa, firecrawl")))
    else if payload.items = [] ∧ payload.parseFailures ≠ [] then
      gateway (reject (invalidRequest "No valid lines to import"))
    else
      let session ← importItems vault masterKey nonce today payload
        { failures := payload.parseFailures } payload.items
      if ← ask (.commitImport session.inserted session.changed) then return session
      else gateway (reject dbUnavailable)

end FcamGateway.KeyAdmin
