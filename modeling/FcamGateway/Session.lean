import FcamGateway.Models
import FcamGateway.Prog

/-! What the gateway's functions ask of their surroundings: the database through
sessions, the clocks, the limiters, the upstream peer and the memory that
requests share. A row object keeps the columns it was loaded with, and a commit
writes the columns that were assigned another value since. -/
namespace FcamGateway

/-- The value a flush leaves in a column: the row's own unless the object's was
changed. -/
def written [DecidableEq α] (loaded current row : α) : α := if current = loaded then row else current

/-- An `api_keys` row object of a session. -/
structure KeyObject where
  id : Nat
  loaded : KeyColumns
  current : KeyColumns
deriving DecidableEq

namespace KeyObject

def fresh (id : Nat) (columns : KeyColumns) : KeyObject := ⟨id, columns, columns⟩

def assign (key : KeyObject) (change : KeyColumns → KeyColumns) : KeyObject :=
  { key with current := change key.current }

/-- The object after its changes were committed. It is not read again. -/
def saved (key : KeyObject) : KeyObject := { key with loaded := key.current }

/-- The row after the object's flush. -/
def flush (key : KeyObject) (row : KeyColumns) : KeyColumns :=
  let loaded := key.loaded
  let current := key.current
  { clientId := written loaded.clientId current.clientId row.clientId
    apiKeyCiphertext := written loaded.apiKeyCiphertext current.apiKeyCiphertext row.apiKeyCiphertext
    apiKeyHash := written loaded.apiKeyHash current.apiKeyHash row.apiKeyHash
    apiKeyLast4 := written loaded.apiKeyLast4 current.apiKeyLast4 row.apiKeyLast4
    accountUsername := written loaded.accountUsername current.accountUsername row.accountUsername
    accountPasswordCiphertext := written loaded.accountPasswordCiphertext
      current.accountPasswordCiphertext row.accountPasswordCiphertext
    accountVerifiedAt :=
      written loaded.accountVerifiedAt current.accountVerifiedAt row.accountVerifiedAt
    name := written loaded.name current.name row.name
    planType := written loaded.planType current.planType row.planType
    isActive := written loaded.isActive current.isActive row.isActive
    dailyQuota := written loaded.dailyQuota current.dailyQuota row.dailyQuota
    dailyUsage := written loaded.dailyUsage current.dailyUsage row.dailyUsage
    quotaResetAt := written loaded.quotaResetAt current.quotaResetAt row.quotaResetAt
    maxConcurrent := written loaded.maxConcurrent current.maxConcurrent row.maxConcurrent
    currentConcurrent :=
      written loaded.currentConcurrent current.currentConcurrent row.currentConcurrent
    rateLimitPerMin := written loaded.rateLimitPerMin current.rateLimitPerMin row.rateLimitPerMin
    rateLimitResetAt :=
      written loaded.rateLimitResetAt current.rateLimitResetAt row.rateLimitResetAt
    cooldownUntil := written loaded.cooldownUntil current.cooldownUntil row.cooldownUntil
    totalRequests := written loaded.totalRequests current.totalRequests row.totalRequests
    lastUsedAt := written loaded.lastUsedAt current.lastUsedAt row.lastUsedAt
    createdAt := written loaded.createdAt current.createdAt row.createdAt
    lastCreditSnapshotId :=
      written loaded.lastCreditSnapshotId current.lastCreditSnapshotId row.lastCreditSnapshotId
    lastCreditCheckAt :=
      written loaded.lastCreditCheckAt current.lastCreditCheckAt row.lastCreditCheckAt
    cachedRemainingCredits := written loaded.cachedRemainingCredits current.cachedRemainingCredits
      row.cachedRemainingCredits
    cachedPlanCredits :=
      written loaded.cachedPlanCredits current.cachedPlanCredits row.cachedPlanCredits
    nextRefreshAt := written loaded.nextRefreshAt current.nextRefreshAt row.nextRefreshAt
    provider := written loaded.provider current.provider row.provider
    status := written loaded.status current.status row.status }

@[simp] theorem id_assign : (assign key change).id = key.id := rfl

@[simp] theorem loaded_assign : (assign key change).loaded = key.loaded := rfl

@[simp] theorem current_assign : (assign key change).current = change key.current := rfl

@[simp] theorem id_saved : (saved key).id = key.id := rfl

@[simp] theorem current_saved : (saved key).current = key.current := rfl

@[simp] theorem loaded_saved : (saved key).loaded = key.current := rfl

theorem written_loaded [DecidableEq α] (loaded current : α) :
    written loaded current loaded = current := by
  simp only [written]
  split <;> simp_all

/-- An object flushed onto the row it was loaded from leaves what it holds. -/
theorem flush_loaded (key : KeyObject) : key.flush key.loaded = key.current := by
  simp only [flush, written_loaded]

end KeyObject

/-- A `clients` row object of a session. -/
structure ClientObject where
  id : Nat
  loaded : ClientColumns
  current : ClientColumns
deriving DecidableEq

namespace ClientObject

def fresh (id : Nat) (columns : ClientColumns) : ClientObject := ⟨id, columns, columns⟩

def assign (client : ClientObject) (change : ClientColumns → ClientColumns) : ClientObject :=
  { client with current := change client.current }

def saved (client : ClientObject) : ClientObject := { client with loaded := client.current }

def flush (client : ClientObject) (row : ClientColumns) : ClientColumns :=
  let loaded := client.loaded
  let current := client.current
  { isActive := written loaded.isActive current.isActive row.isActive
    dailyQuota := written loaded.dailyQuota current.dailyQuota row.dailyQuota
    dailyUsage := written loaded.dailyUsage current.dailyUsage row.dailyUsage
    quotaResetAt := written loaded.quotaResetAt current.quotaResetAt row.quotaResetAt
    rateLimitPerMin := written loaded.rateLimitPerMin current.rateLimitPerMin row.rateLimitPerMin
    maxConcurrent := written loaded.maxConcurrent current.maxConcurrent row.maxConcurrent
    maxRetries := written loaded.maxRetries current.maxRetries row.maxRetries
    lastUsedAt := written loaded.lastUsedAt current.lastUsedAt row.lastUsedAt
    status := written loaded.status current.status row.status }

end ClientObject

/-- The place in the source a commit is made from. -/
inductive Site where
  | reactivate
  | decryptFailed
  | cooling (seconds : Int)
  | failed
  | invalid
  | active
  | creditResult
  | clearRefresh
  | zeroCredits
  | localCredits
  | quota
  | quotaReset
  | handler
  | admin
deriving DecidableEq

/-- The changes one commit writes in one transaction. -/
structure Commit where
  site : Site
  keys : List KeyObject
  client : Option ClientObject := none

/-- What the upstream client is given for one request. -/
structure UpstreamRequest where
  method : String
  url : String
  headers : List (String × String)
  json : Option Json

structure UpstreamResponse where
  statusCode : Int
  headers : List (String × String)
  content : Bytes
deriving DecidableEq

/-- How a request of the upstream client ends. -/
inductive UpstreamReply where
  | response (resp : UpstreamResponse)
  | timeout
  | httpError (text : String)
  | other
deriving DecidableEq

/-- How a request to the credit endpoint ends. A body that is not JSON has no
parsed value. -/
inductive ProbeReply where
  | response (statusCode : Int) (json : Option Json) (text : String)
  | timeout
  | failed (text : String)

/-- What one selection reads besides its settings: the committed rows, the
clocks, the peek of the rate limiter, the cooldown store, the failure memory,
the rotation cursor and the random draws. -/
structure PoolView (R : Type) where
  keys : Table KeyColumns
  now : Instant
  storeRemaining : Nat → Option Int
  peek : Nat → Int → Option Bool
  failures : Nat → Option (R × R)
  monotonic : Nat → R
  cursor : Nat
  roll : R
  draw : R

/-- A question a gateway function puts to its surroundings. -/
inductive Op (R : Type) where
  | now
  | monotonic
  | readPool (provider : String) (exclude : List Nat)
  | keepFailures (updates : List (Nat × Option (R × R)))
  | keepCursor (provider : String) (cursor : Nat)
  | readFailure (keyId : Nat)
  | findKey (id : Nat)
  | reload (id : Nat)
  | commit (batch : Commit)
  | flushSnapshot (snapshot : CreditSnapshot)
  | allow (keyId : Nat) (ratePerMin : Int)
  | acquire (keyId : Nat) (maximum : Int)
  | release (keyId : Nat)
  | request (keyId : Nat) (sent : UpstreamRequest)
  | probe (keyId : Nat) (secret : String)
  | probeAll (workers : Int) (secrets : List (Nat × String))
  | setCooldown (keyId : Nat) (seconds : Int)
  | readWindow (keyId : Nat)
  | keepWindow (keyId : Nat) (count : Int) (firstAt : Instant)
  | readRefresh (keyId : Nat)
  | keepRefresh (keyId : Nat) (monotonic : R)
  | listKeys
  | clearRefresh (ids : List Nat)
  | deleteSnapshots (cutoff : Instant)
  | handlerCommits

/-- The reply to a question. A database statement that raises replies `none`,
a failed commit `false`, and a limiter that cannot reach its state backend
`none`. A gathered probe replies, for each key, with the
instant it started and how it ended. -/
abbrev Reply (R : Type) : Op R → Type
  | .now => Instant
  | .monotonic => R
  | .readPool _ _ => Option (PoolView R)
  | .keepFailures _ => Unit
  | .keepCursor _ _ => Unit
  | .readFailure _ => Option (R × R)
  | .findKey _ => Option (Option KeyColumns)
  | .reload _ => Option KeyColumns
  | .commit _ => Bool
  | .flushSnapshot _ => Option Nat
  | .allow _ _ => Option (Bool × Int)
  | .acquire _ _ => Option Bool
  | .release _ => Unit
  | .request _ _ => UpstreamReply
  | .probe _ _ => ProbeReply
  | .probeAll _ _ => Nat → Instant × ProbeReply
  | .setCooldown _ _ => Unit
  | .readWindow _ => Option (Int × Instant)
  | .keepWindow _ _ _ => Unit
  | .readRefresh _ => Option R
  | .keepRefresh _ _ => Unit
  | .listKeys => Option (Table KeyColumns)
  | .clearRefresh _ => Option Bool
  | .deleteSnapshots _ => Unit
  | .handlerCommits => Bool

/-- Code outside the repository that the functions call: the cipher, the JSON
parser and the texts and dates of the source language's library. -/
structure Foreign where
  decryptApiKey : Bytes → Bytes → Except String String
  parseJson : Bytes → Option Json
  fromIsoFormat : String → Option Instant
  pyStr : Json → String
  payloadError : Json → String

/-- A gateway function. -/
abbrev Gateway (R : Type) := Prog (Op R) (Reply R) Exn

variable {R : Type}

def query (op : Op R) : Gateway R (Reply R op) := Prog.query op

def reject (error : FcamError) : Gateway R Value := .raise (.fcam error)

/-- A failed commit rolls the session back, and the next use of a row object
reads the row again. -/
def rollback (key : KeyObject) : Gateway R KeyObject := do
  match ← query (.reload key.id) with
  | some row => return KeyObject.fresh key.id row
  | none => .raise .other

/-- Commit the changes of one key object; the object as the session keeps it. -/
def commitKey (site : Site) (key : KeyObject) : Gateway R KeyObject := do
  if ← query (.commit { site, keys := [key] }) then return key.saved else rollback key

end FcamGateway
