import FcamGateway.Session
import Mathlib.Data.List.Sort

/-! The global key pool: which keys are eligible, how they are scored and which
one a selection returns. A selection decides from one reading of its
surroundings; the rows whose cooldown ran out are reactivated by its commit. -/
namespace FcamGateway

/-- The transcendental functions of the score. -/
class ScoreMath (R : Type) where
  log1p : R → R
  halfPower : R → R

namespace KeyPool

/-- Terminal statuses: never selected, never credit-refreshed. -/
def disabledStatuses : List String := ["disabled", "decrypt_failed", "invalid"]

/-- Statuses that may recover after a cooldown. -/
def coolingStatuses : List String := ["cooling", "failed"]

def scoreReasonTokens : List String :=
  ["401", "402", "429", "key_4xx_401", "key_4xx_402", "key_4xx_429", "invalid_key", "credit",
   "rate_limit"]

def keyAttributableStatuses : List Int := [401, 402, 429]

def splitOn (separator : Char → Bool) : List Char → List (List Char)
  | [] => [[]]
  | c :: rest =>
    match splitOn separator rest with
    | [] => [[]]
    | first :: others => if separator c then [] :: first :: others else (c :: first) :: others

/-- True when a failure lowers the selection score. -/
def is4xxScoreFailure (reason : String) (statusCode : Option Int) : Bool :=
  match statusCode with
  | some code =>
    if code ∈ keyAttributableStatuses then true
    else if code ≠ 0 then false
    else byReason
  | none => byReason
where
  byReason : Bool :=
    let text := PyText.lower (PyText.strip reason)
    if text = "" then false
    else if text ∈ scoreReasonTokens then true
    else (splitOn (fun c => c == '-' || c == '_') text.toList).any fun token =>
      match PyText.readNat token with
      | some code => (code : Int) ∈ keyAttributableStatuses
      | none => false

def isDisabled (key : KeyColumns) : Bool :=
  if !key.isActive then true else PyText.lower key.status ∈ disabledStatuses

def cooldownRemainingSeconds (key : KeyColumns) (now : Instant) : Int :=
  match key.cooldownUntil with
  | none => 0
  | some until_ => max (Instant.secondsBetween until_ now) 0

variable {R : Type} [Field R] [LinearOrder R] [ScoreMath R]

/-- The selection score; `none` for a key without credits. -/
def scoreKey (key : KeyColumns) (now : Instant) (freshnessHalfLifeSeconds unknownCreditBaseline
    nonNetworkFailureCount failurePenaltyUnit : R) : Option R :=
  let creditWeight : Option R :=
    match key.cachedRemainingCredits with
    | some remaining =>
      if remaining ≤ 0 then none else some (ScoreMath.log1p ((max remaining 0 : Int) : R))
    | none => some (ScoreMath.log1p (max unknownCreditBaseline 0))
  let freshnessWeight : R :=
    match key.lastCreditCheckAt with
    | none => 55 / 100
    | some lastCheck =>
      let age := max (((now - lastCheck : Int) : R) / 1000000) 0
      1 / (1 + age / max freshnessHalfLifeSeconds 1)
  let fails := max nonNetworkFailureCount 0
  let unit := max failurePenaltyUnit 0
  let failureWeight : R := if unit ≤ 0 ∨ fails ≤ 0 then 1 else 1 / (1 + fails * unit)
  creditWeight.map fun weight => weight * freshnessWeight * failureWeight

/-- The decayed failure weight of a key, and what its memory holds afterwards. -/
def failureCount (entry : Option (R × R)) (now halfLifeSeconds : R) : R × Option (R × R) :=
  match entry with
  | none => (0, none)
  | some (count, last) =>
    if count ≤ 0 then (0, entry)
    else
      let half := max halfLifeSeconds 1
      let age := max (now - last) 0
      let decayed := count * ScoreMath.halfPower (age / half)
      if decayed < 5 / 100 then (0, none) else (decayed, some (decayed, now))

/-- The schedule-time gate of the per-minute limit. -/
def rpmAllows (view : PoolView R) (id : Nat) (key : KeyColumns) : Bool :=
  if key.rateLimitPerMin ≤ 0 then true else (view.peek id key.rateLimitPerMin).getD true

/-- The settings of one selection after defaults and overrides. -/
structure Weights (R : Type) where
  halfLife : R
  unknownBaseline : R
  epsilon : R
  nearRatio : R
  failHalf : R
  failUnit : R

def orElse (value fallback : R) : R := if value = 0 then fallback else value

def clamp (value low high : R) : R := min (max value low) high

def weights (config : AppConfig R) (runtime : Option (RuntimeScheduling R)) : Weights R :=
  let sched := config.scheduling
  let cfgHalf := orDefault sched.freshnessHalfLifeSeconds (6 * 3600)
  let cfgBase := orElse sched.unknownCreditBaseline 50
  let halfLife := (runtime.bind (·.freshnessHalfLifeSeconds)).getD cfgHalf
  let unknownBaseline := (runtime.bind (·.unknownCreditBaseline)).getD cfgBase
  let epsilon := (runtime.bind (·.epsilonGreedy)).getD sched.epsilonGreedy
  { halfLife := (halfLife : R)
    unknownBaseline
    epsilon := clamp epsilon 0 1
    nearRatio := clamp (orElse sched.nearScoreRatio (95 / 100)) (1 / 2) 1
    failHalf := orElse sched.failurePenaltyHalfLifeSeconds 300
    failUnit := orElse sched.failurePenaltyUnit 1 }

/-- What the filter loop has seen so far. -/
structure Scan (R : Type) where
  coolingRetryAfter : Option Int := none
  coolingSeen : Nat := 0
  disabledSeen : Nat := 0
  zeroCreditSeen : Nat := 0
  excludedSeen : Nat := 0
  rpmBlocked : Nat := 0
  candidates : List (R × KeyObject) := []
  reactivated : List KeyObject := []
  failures : List (Nat × Option (R × R)) := []

/-- Seconds of cooldown left, by the row and by the cooldown store. -/
def remainingSeconds (view : PoolView R) (key : KeyObject) : Int :=
  let remaining := cooldownRemainingSeconds key.current view.now
  match view.storeRemaining key.id with
  | some stored => max remaining stored
  | none => remaining

def isCooling (key : KeyColumns) : Bool :=
  PyText.lower key.status ∈ coolingStatuses || key.cooldownUntil.isSome

/-- A cooldown that ran out is cleared on the row object. -/
def reactivate (key : KeyObject) : KeyObject :=
  key.assign fun columns =>
    { columns with
      cooldownUntil := none
      status := if PyText.lower columns.status ∈ coolingStatuses then "active" else columns.status }

/-- The part of the filter loop after the cooldown test. -/
def consider (view : PoolView R) (weights : Weights R) (scan : Scan R) (key : KeyObject) : Scan R :=
  if key.current.cachedRemainingCredits.any (· ≤ 0) then
    { scan with zeroCreditSeen := scan.zeroCreditSeen + 1 }
  else if !rpmAllows view key.id key.current then { scan with rpmBlocked := scan.rpmBlocked + 1 }
  else
    let counted := failureCount (view.failures key.id) (view.monotonic key.id) weights.failHalf
    let scan := { scan with failures := scan.failures ++ [(key.id, counted.2)] }
    match scoreKey key.current view.now weights.halfLife weights.unknownBaseline counted.1
        weights.failUnit with
    | none => { scan with zeroCreditSeen := scan.zeroCreditSeen + 1 }
    | some score => { scan with candidates := scan.candidates ++ [(score, key)] }

/-- One turn of the filter loop. -/
def scanKey (view : PoolView R) (weights : Weights R) (exclude : List Nat) (scan : Scan R)
    (key : KeyObject) : Scan R :=
  if key.id ∈ exclude then { scan with excludedSeen := scan.excludedSeen + 1 }
  else if isDisabled key.current then { scan with disabledSeen := scan.disabledSeen + 1 }
  else if isCooling key.current then
    let remaining := remainingSeconds view key
    if 0 < remaining then
      { scan with
        coolingSeen := scan.coolingSeen + 1
        coolingRetryAfter := some (match scan.coolingRetryAfter with
          | none => remaining
          | some least => min least remaining) }
    else
      let key := reactivate key
      consider view weights { scan with reactivated := scan.reactivated ++ [key] } key
  else consider view weights scan key

def allKeysDisabled : FcamError :=
  { statusCode := 503, code := "ALL_KEYS_DISABLED", message := "All keys disabled" }

/-- Why no key of `n` could be chosen. -/
def noCandidate (scan : Scan R) (n : Nat) : FcamError :=
  let { coolingSeen, disabledSeen, zeroCreditSeen, excludedSeen, rpmBlocked, .. } := scan
  if n ≤ disabledSeen + excludedSeen ∧ 0 < disabledSeen ∧ zeroCreditSeen = 0 ∧ coolingSeen = 0 ∧
      rpmBlocked = 0 then allKeysDisabled
  else if 0 < zeroCreditSeen ∧
      n ≤ zeroCreditSeen + disabledSeen + excludedSeen + coolingSeen + rpmBlocked ∧
      coolingSeen = 0 ∧ rpmBlocked = 0 then
    { statusCode := 503, code := "ALL_KEYS_NO_CREDITS"
      message := "All keys have zero remaining credits" }
  else if 0 < coolingSeen ∧
      n ≤ coolingSeen + disabledSeen + excludedSeen + zeroCreditSeen + rpmBlocked then
    { statusCode := 429, code := "ALL_KEYS_COOLING", message := "All keys cooling"
      retryAfter := scan.coolingRetryAfter }
  else if 0 < rpmBlocked ∧
      n ≤ rpmBlocked + disabledSeen + excludedSeen + zeroCreditSeen + coolingSeen then
    { statusCode := 429, code := "ALL_KEYS_RATE_LIMITED", message := "All keys rate-limited (RPM)"
      retryAfter := some 1 }
  else { statusCode := 503, code := "NO_KEY_AVAILABLE", message := "No key available" }

/-- The first key at which the accumulated weight reaches the draw. -/
def pickWeighted (draw : R) : R → List (R × KeyObject) → Option (R × KeyObject)
  | _, [] => none
  | acc, (score, key) :: rest =>
    if draw ≤ acc + max score 0 then some (score, key)
    else pickWeighted draw (acc + max score 0) rest

/-- Highest score first, ties by id. -/
def Before (first second : R × KeyObject) : Prop :=
  second.1 < first.1 ∨ (first.1 = second.1 ∧ first.2.id ≤ second.2.id)

instance : DecidableRel (Before (R := R)) := fun _ _ => inferInstanceAs (Decidable (_ ∨ _))

/-- The exploit path: a weighted draw among the scores near the best one. -/
def exploit (view : PoolView R) (weights : Weights R) (first : R × KeyObject)
    (rest : List (R × KeyObject)) : R × KeyObject :=
  match (first :: rest).insertionSort Before with
  | [] => first
  | best :: others =>
    let near := (best :: others).filter fun candidate => best.1 * weights.nearRatio ≤ candidate.1
    let top := near.headD best
    if near.length = 1 then top
    else
      let total := (near.map fun candidate => max candidate.1 0).sum
      if total ≤ 0 then top
      else (pickWeighted (view.draw * total) 0 near).getD top

/-- The key a selection settles on. The flag marks the explore path. -/
def choose (view : PoolView R) (weights : Weights R) (first : R × KeyObject)
    (rest : List (R × KeyObject)) : (R × KeyObject) × Bool :=
  if 0 < weights.epsilon ∧ view.roll < weights.epsilon ∧ rest ≠ [] then
    let ordered := (first :: rest).insertionSort fun one other => one.2.id ≤ other.2.id
    (ordered.getD (view.cursor % ordered.length) first, true)
  else (exploit view weights first rest, false)

structure SelectedKey (R : Type) where
  apiKey : KeyObject
  now : Instant
  score : R
  explore : Bool

/-- The rows of the provider, as the session loads them. -/
def providerKeys (keys : Table KeyColumns) (provider : String) : List KeyObject :=
  (keys.entries.filter fun entry => entry.2.provider = provider).map fun entry =>
    KeyObject.fresh entry.1 entry.2

/-- The filter loop over the rows of the provider. -/
def scanKeys (view : PoolView R) (weights : Weights R) (provider : String) (exclude : List Nat) :
    Scan R :=
  (providerKeys view.keys provider).foldl (scanKey view weights exclude) {}

/-- The decision of a selection: an error, or the chosen key. -/
def decision (view : PoolView R) (weights : Weights R) (provider : String) (exclude : List Nat) :
    Except FcamError (SelectedKey R) :=
  let keys := providerKeys view.keys provider
  if keys = [] then
    .error { statusCode := 503, code := "NO_KEY_CONFIGURED", message := "No key configured" }
  else if !keys.any (fun key =>
      key.current.isActive && !(PyText.lower key.current.status ∈ disabledStatuses)) then
    .error allKeysDisabled
  else
    let scan := scanKeys view weights provider exclude
    match scan.candidates with
    | [] => .error (noCandidate scan keys.length)
    | first :: rest =>
      let chosen := choose view weights first rest
      .ok { apiKey := chosen.1.2, now := view.now, score := chosen.1.1, explore := chosen.2 }

/-- A failed selection, with the row objects it left changed in the session. -/
structure Unselected where
  error : FcamError
  unsaved : List KeyObject := []

/-- `KeyPool.select`. -/
def select (config : AppConfig R) (runtime : Option (RuntimeScheduling R)) (provider : String)
    (exclude : List Nat) : Gateway R (Except Unselected (SelectedKey R)) := do
  match ← query (.readPool provider exclude) with
  | none => return .error { error := dbUnavailable }
  | some view =>
    let weights := weights config runtime
    let scan := scanKeys view weights provider exclude
    query (.keepFailures scan.failures)
    match decision view weights provider exclude with
    | .error error => return .error { error, unsaved := scan.reactivated }
    | .ok selected =>
      if selected.explore then
        query (.keepCursor provider (view.cursor % scan.candidates.length + 1))
      if ← query (.commit { site := .reactivate, keys := scan.reactivated }) then
        return .ok { selected with apiKey := selected.apiKey.saved }
      else
        -- the log line of the failed commit reads the chosen row again
        let _ ← rollback selected.apiKey
        return .error { error := dbUnavailable }

/-- Clear the failure memory of a key after a successful call. -/
def recordSuccess (keyId : Nat) : Gateway R Unit := query (.keepFailures [(keyId, none)])

/-- Note a failure for scoring. Other failures than a key's own are ignored. -/
def recordFailure (keyId : Nat) (reason : String) (statusCode : Option Int) : Gateway R Unit := do
  if is4xxScoreFailure reason statusCode then
    let now ← query .monotonic
    let entry ← query (.readFailure keyId)
    query (.keepFailures [(keyId, some ((entry.elim 0 Prod.fst) + 1, now))])

end KeyPool

end FcamGateway
