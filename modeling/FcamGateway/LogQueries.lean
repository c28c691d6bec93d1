import FcamGateway.Models
import FcamGateway.Pagination
import FcamGateway.PyText

/-! The queries of the request log and of the audit log: filters as the database evaluates
them, newest rows first, one page at a time. -/
namespace FcamGateway.LogQueries

open Pagination

/-- The columns of `request_logs`. -/
structure RequestLog where
  requestId : String
  clientId : Option Nat := none
  apiKeyId : Option Nat := none
  endpoint : String
  method : String
  statusCode : Option Int := none
  responseTimeMs : Option Int := none
  success : Option Bool := none
  retryCount : Int := 0
  errorMessage : Option String := none
  errorDetails : Option String := none
  idempotencyKey : Option String := none
  createdAt : Instant

/-- The columns of `audit_logs`. -/
structure AuditLog where
  actorType : String
  actorId : Option String := none
  action : String
  resourceType : Option String := none
  resourceId : Option String := none
  ip : Option String := none
  userAgent : Option String := none
  createdAt : Instant

/-- The text functions of the database and the dates of the source language's library. -/
structure Library where
  lower : String → String
  like : String → String → Bool
  fromIsoFormat : String → Option Instant
  rfc3339 : Instant → String

inductive LogLevel where
  | info
  | warn
  | error
deriving DecidableEq

def validationError (message : String) : FcamError :=
  { statusCode := 400, code := "VALIDATION_ERROR", message }

/-- `_limit`. -/
def limit (limit : Int) : Except FcamError Nat :=
  if limit ≤ 0 then .error (validationError "limit must be positive")
  else if 200 < limit then .error (validationError "limit too large")
  else .ok limit.toNat

/-- `_parse_rfc3339`. -/
def parseRfc3339 (library : Library) (value : String) : Except FcamError Instant :=
  match library.fromIsoFormat (value.replace "Z" "+00:00") with
  | some instant => .ok instant
  | none => .error (validationError "Invalid datetime")

/-! ## Conditions -/

/-- A truth value of the database; `none` is `NULL`. -/
abbrev Truth := Option Bool

namespace Truth

def and : Truth → Truth → Truth
  | some false, _ => some false
  | _, some false => some false
  | some true, some true => some true
  | _, _ => none

def or : Truth → Truth → Truth
  | some true, _ => some true
  | _, some true => some true
  | some false, some false => some false
  | _, _ => none

end Truth

/-- A comparison of a column that may be null. -/
def compare {Kind : Type} (column : Option Kind) (test : Kind → Bool) : Truth := column.map test

/-- What a query demands of a row and its key. -/
abbrev Condition (Row : Type) := Nat × Row → Truth

/-- A filter that is left out where the parameter is. -/
def whenGiven {Kind Row : Type} (parameter : Option Kind) (condition : Kind → Condition Row) :
    List (Condition Row) :=
  parameter.toList.map condition

/-- The rows that meet every condition, newest first. -/
def selected {Row : Type} (conditions : List (Condition Row)) (table : Table Row) :
    List (Nat × Row) :=
  (table.entries.filter fun entry => conditions.all fun condition =>
    condition entry == some true).reverse

/-- The parameters of `query_logs` apart from the limit and the cursor. -/
structure LogFilters where
  from_ : Option String := none
  to_ : Option String := none
  clientId : Option Nat := none
  apiKeyId : Option Nat := none
  endpoint : Option String := none
  statusCode : Option Int := none
  success : Option Bool := none
  level : Option String := none
  q : Option String := none
  requestId : Option String := none
  idempotencyKey : Option String := none

/-- A text parameter that is absent or blank counts for nothing. -/
def filled (parameter : Option String) : Option String :=
  parameter.bind fun text => if PyText.strip text = "" then none else some (PyText.strip text)

def readLevel (level : Option String) : Except FcamError (Option LogLevel) :=
  match filled level with
  | none => .ok none
  | some text =>
    let text := PyText.lower text
    if text = "info" then .ok (some .info)
    else if text = "warn" then .ok (some .warn)
    else if text = "error" then .ok (some .error)
    else .error (validationError "level must be one of info|warn|error")

/-- The pattern of a text search. -/
def readSearch (q : Option String) : Except FcamError (Option String) :=
  match filled q with
  | none => .ok none
  | some text =>
    if 200 < text.length then .error (validationError "q too long")
    else .ok (some ("%" ++ PyText.lower text ++ "%"))

def parseBound (library : Library) : Option String → Except FcamError (Option Instant)
  | none => .ok none
  | some text => (parseRfc3339 library text).map some

/-- A text of a row that contains the search. -/
def searched (library : Library) (pattern : String) : Condition RequestLog := fun entry =>
  let log := entry.2
  let found := fun text => some (library.like (library.lower text) pattern)
  .or (.or (.or (found log.requestId) (found log.endpoint)) (found (log.errorMessage.getD "")))
    (found (log.errorDetails.getD ""))

/-- The conditions of a level. -/
def levelConditions : LogLevel → List (Condition RequestLog)
  | .info =>
    [fun entry => some entry.2.statusCode.isSome,
     fun entry => compare entry.2.statusCode (· < 400),
     fun entry => some (entry.2.success == some true)]
  | .warn =>
    [fun entry => some entry.2.statusCode.isSome,
     fun entry => compare entry.2.statusCode (400 ≤ ·),
     fun entry => compare entry.2.statusCode (· < 500)]
  | .error =>
    [fun entry =>
      .or (.or (some entry.2.statusCode.isNone) (compare entry.2.statusCode (500 ≤ ·)))
        (.and (compare entry.2.statusCode (· < 400)) (some (entry.2.success.getD false == false)))]

/-- The filters of `query_logs`. -/
def LogFilters.conditions (filters : LogFilters) (library : Library) :
    Except FcamError (List (Condition RequestLog)) := do
  let level ← readLevel filters.level
  let since ← parseBound library filters.from_
  let upTo ← parseBound library filters.to_
  let pattern ← readSearch filters.q
  return [whenGiven since fun since entry => some (since ≤ entry.2.createdAt),
    whenGiven upTo fun upTo entry => some (entry.2.createdAt ≤ upTo),
    whenGiven filters.clientId fun id entry => compare entry.2.clientId (· == id),
    whenGiven filters.apiKeyId fun id entry => compare entry.2.apiKeyId (· == id),
    whenGiven filters.endpoint fun name entry => some (entry.2.endpoint == name),
    whenGiven filters.statusCode fun code entry => compare entry.2.statusCode (· == code),
    whenGiven filters.success fun success entry => compare entry.2.success (· == success),
    whenGiven pattern (searched library),
    whenGiven filters.requestId fun id entry => some (entry.2.requestId == id),
    whenGiven filters.idempotencyKey fun name entry =>
      compare entry.2.idempotencyKey (· == name)].flatten ++ level.elim [] levelConditions

/-- The parameters of `query_audit_logs` apart from the limit and the cursor. -/
structure AuditFilters where
  from_ : Option String := none
  to_ : Option String := none
  actorType : Option String := none
  action : Option String := none
  resourceType : Option String := none
  resourceId : Option String := none

/-- The filters of `query_audit_logs`. -/
def AuditFilters.conditions (filters : AuditFilters) (library : Library) :
    Except FcamError (List (Condition AuditLog)) := do
  let since ← parseBound library filters.from_
  let upTo ← parseBound library filters.to_
  return [whenGiven since fun since entry => some (since ≤ entry.2.createdAt),
    whenGiven upTo fun upTo entry => some (entry.2.createdAt ≤ upTo),
    whenGiven filters.actorType fun name entry => some (entry.2.actorType == name),
    whenGiven filters.action fun name entry => some (entry.2.action == name),
    whenGiven filters.resourceType fun name entry => compare entry.2.resourceType (· == name),
    whenGiven filters.resourceId fun id entry => compare entry.2.resourceId (· == id)].flatten

/-! ## Pages -/

end FcamGateway.LogQueries
