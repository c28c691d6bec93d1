import FcamGateway.Json
import FcamGateway.Table
import Mathlib.Algebra.Order.Field.Basic

/-! The rows, settings and errors of the gateway. Instants are microseconds
since 1970 in UTC and every date calculation checks the range of `datetime`;
a row read without a zone is UTC. Floats of the scheduling settings live in an
ordered field, so a run on concrete numbers is exact. -/
namespace FcamGateway

abbrev Instant := Int

namespace Instant

def second : Int := 1000000

/-- `datetime.min` and `datetime.max` in UTC. -/
def earliest : Instant := -62135596800 * second
def latest : Instant := 253402300800 * second - 1

/-- `instant + timedelta(seconds=seconds)`; `none` is the `OverflowError`. -/
def addSeconds? (instant : Instant) (seconds : Int) : Option Instant :=
  let moved := instant + seconds * second
  if earliest ≤ moved ∧ moved ≤ latest then some moved else none

/-- `int((later - earlier).total_seconds())`. -/
def secondsBetween (later earlier : Instant) : Int := (later - earlier).tdiv second

/-- Civil year, month and day of a day number counted from 1970. -/
def civil (days : Int) : Int × Int × Int :=
  let shifted := days + 719468
  let era := shifted / 146097
  let dayOfEra := shifted % 146097
  let yearOfEra := (dayOfEra - dayOfEra / 1460 + dayOfEra / 36524 - dayOfEra / 146096) / 365
  let dayOfYear := dayOfEra - (365 * yearOfEra + yearOfEra / 4 - yearOfEra / 100)
  let shiftedMonth := (5 * dayOfYear + 2) / 153
  let day := dayOfYear - (153 * shiftedMonth + 2) / 5 + 1
  let month := if shiftedMonth < 10 then shiftedMonth + 3 else shiftedMonth - 9
  (yearOfEra + era * 400 + (if month ≤ 2 then 1 else 0), month, day)

def dayLength : Int := 86400 * second

/-- Midnight of the first day of the month. -/
def startOfMonth (instant : Instant) : Instant :=
  let days := instant / dayLength
  (days - (civil days).2.2 + 1) * dayLength

/-- `now.replace(day=1, ...) + timedelta(days=32)`, then its first day. -/
def startOfNextMonth? (instant : Instant) : Option Instant :=
  (addSeconds? (startOfMonth instant) (32 * 86400)).map startOfMonth

end Instant

abbrev Bytes := List UInt8

/-- The columns of an `api_keys` row besides its id. -/
structure KeyColumns where
  clientId : Option Nat := none
  apiKeyCiphertext : Bytes := []
  apiKeyHash : String := ""
  apiKeyLast4 : String := ""
  accountUsername : Option String := none
  accountPasswordCiphertext : Option Bytes := none
  accountVerifiedAt : Option Instant := none
  name : Option String := none
  planType : String := "free"
  isActive : Bool := true
  dailyQuota : Int := 0
  dailyUsage : Int := 0
  quotaResetAt : Option Int := none
  maxConcurrent : Int := 5
  currentConcurrent : Int := 0
  rateLimitPerMin : Int := 60
  rateLimitResetAt : Option Instant := none
  cooldownUntil : Option Instant := none
  totalRequests : Int := 0
  lastUsedAt : Option Instant := none
  createdAt : Instant := 0
  lastCreditSnapshotId : Option Nat := none
  lastCreditCheckAt : Option Instant := none
  cachedRemainingCredits : Option Int := none
  cachedPlanCredits : Option Int := none
  nextRefreshAt : Option Instant := none
  provider : String := "firecrawl"
  status : String := "active"
deriving DecidableEq

/-- The columns of a `clients` row that the data plane reads or writes. -/
structure ClientColumns where
  isActive : Bool := true
  dailyQuota : Option Int := none
  dailyUsage : Int := 0
  quotaResetAt : Option Int := none
  rateLimitPerMin : Int := 60
  maxConcurrent : Int := 10
  maxRetries : Int := 3
  lastUsedAt : Option Instant := none
  status : String := "active"
deriving DecidableEq

/-- A `credit_snapshots` row as `apply_credit_fetch_result` builds it. -/
structure CreditSnapshot where
  apiKeyId : Nat
  remainingCredits : Int
  planCredits : Int
  billingPeriodStart : Option Instant := none
  billingPeriodEnd : Option Instant := none
  fetchSuccess : Bool
  errorMessage : Option String := none
deriving DecidableEq

structure FirecrawlConfig where
  baseUrl : String := "https://api.firecrawl.dev"
  timeout : Int := 30
  maxRetries : Int := 3
  failureThreshold : Int := 3
  failureWindowSeconds : Int := 60
  failedCooldownSeconds : Int := 60

structure ProviderConfig where
  enabled : Bool := true
  baseUrl : String
  authMode : String := "bearer"
  timeout : Int := 30
  maxRetries : Int := 3

/-- `ProvidersConfig` has one field, so any other provider is not configured. -/
structure ProvidersConfig where
  exa : ProviderConfig :=
    { enabled := false, baseUrl := "https://api.exa.ai", authMode := "x-api-key" }

def ProvidersConfig.lookup (providers : ProvidersConfig) (provider : String) :
    Option ProviderConfig :=
  if provider = "exa" then some providers.exa else none

structure QuotaConfig where
  timezone : String := "UTC"
  countMode : String := "success"
  enableQuotaCheck : Bool := false

structure SmartRefreshConfig where
  enabled : Bool := true
  highUsageInterval : Int := 30
  mediumUsageInterval : Int := 60
  normalUsageInterval : Int := 120
  lowUsageInterval : Int := 240
  abundantRemainingThreshold : Int := 1000
  abundantMinIntervalMinutes : Int := 120

structure CreditMonitoringConfig where
  enabled : Bool := false
  smartRefresh : SmartRefreshConfig := {}
  fixedRefreshIntervalMinutes : Int := 60
  batchSize : Int := 10
  batchDelaySeconds : Int := 5
  workers : Int := 4
  localEstimationEnabled : Bool := true
  localEstimationSyncOnRequest : Bool := true
  retentionDays : Int := 90
  retryDelayMinutes : Int := 10

structure SchedulingConfig (R : Type) [Field R] where
  freshnessHalfLifeSeconds : Int := 6 * 3600
  unknownCreditBaseline : R := 50
  epsilonGreedy : R := 1 / 10
  nearScoreRatio : R := 95 / 100
  failurePenaltyHalfLifeSeconds : R := 300
  failurePenaltyUnit : R := 1

structure IdempotencyConfig where
  enabled : Bool := true
  ttlSeconds : Int := 86400
  maxResponseBytes : Int := 1048576
  requireOn : List String := []

structure AppConfig (R : Type) [Field R] where
  firecrawl : FirecrawlConfig := {}
  providers : ProvidersConfig := {}
  quota : QuotaConfig := {}
  cooldownSeconds : Int := 60
  creditMonitoring : CreditMonitoringConfig := {}
  scheduling : SchedulingConfig R := {}
  idempotency : IdempotencyConfig := {}

/-- The hot overrides that key selection and the refresh round read. The first
two and the last are set from the configuration file when the process starts. -/
structure RuntimeScheduling (R : Type) where
  freshnessHalfLifeSeconds : Option Int := none
  unknownCreditBaseline : Option R := none
  creditWorkers : Option Int := none
  creditBatchSize : Option Int := none
  creditBatchDelaySeconds : Option Int := none
  creditRetryDelayMinutes : Option Int := none
  epsilonGreedy : Option R := none

/-- A value of an error's `details`. -/
inductive Detail where
  | null
  | int (value : Int)
  | text (value : String)
deriving DecidableEq

structure FcamError where
  statusCode : Int
  code : String
  message : String
  details : List (String × Detail) := []
  retryAfter : Option Int := none
deriving DecidableEq

/-- What leaves a function other than by returning: a gateway error, or an
exception of another kind. -/
inductive Exn where
  | fcam (error : FcamError)
  | other
deriving DecidableEq

def dbUnavailable : FcamError :=
  { statusCode := 503, code := "DB_UNAVAILABLE", message := "Database unavailable" }

/-- What the limiters raise when their state backend fails. -/
def stateUnavailable : FcamError :=
  { statusCode := 503, code := "DB_UNAVAILABLE", message := "State backend unavailable" }

/-- `value or fallback` for an integer setting. -/
def orDefault (value fallback : Int) : Int := if value = 0 then fallback else value

example : Instant.startOfNextMonth? 1709210096000000 = some 1709251200000000 := by decide

end FcamGateway
