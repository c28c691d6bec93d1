import FcamGateway.Credits

/-! The background refresh round: list the due keys, probe them batch by batch
with several workers and apply the results one after the other. -/
namespace FcamGateway.CreditRefresh
open Credits

variable {R : Type} [Field R] [LinearOrder R]

/-- The filter of the round's query. -/
def selected (now : Instant) (row : KeyColumns) : Bool :=
  row.isActive && !(row.status ∈ KeyPool.disabledStatuses) && row.nextRefreshAt.all (· ≤ now)

/-- The test on the rows the query returned. -/
def terminal (row : KeyColumns) : Bool :=
  !row.isActive || PyText.lower row.status ∈ KeyPool.disabledStatuses

/-- Keys to probe, with their ciphertexts. -/
def dueKeys (keys : Table KeyColumns) (now : Instant) : List (Nat × Bytes) :=
  (keys.entries.filter fun entry => selected now entry.2 && !terminal entry.2).map fun entry =>
    (entry.1, entry.2.apiKeyCiphertext)

/-- Keys that only lose their next refresh. -/
def clearRefreshIds (keys : Table KeyColumns) (now : Instant) : List Nat :=
  (keys.entries.filter fun entry => selected now entry.2 && terminal entry.2).map Prod.fst

/-- Workers, batch size, batch delay and retry delay of a round. -/
structure Pacing where
  workers : Int
  batchSize : Int
  batchDelay : Int
  retryDelayMinutes : Int

def pacing (config : CreditMonitoringConfig) (runtime : Option (RuntimeScheduling R)) : Pacing :=
  let workers := max (orDefault config.workers 4) 1
  let batchSize := max config.batchSize 1
  let batchDelay := max config.batchDelaySeconds 0
  let retryDelayMinutes := max config.retryDelayMinutes 1
  { workers := max ((runtime.bind (·.creditWorkers)).getD workers) 1
    batchSize := max ((runtime.bind (·.creditBatchSize)).getD batchSize) 1
    batchDelay := max ((runtime.bind (·.creditBatchDelaySeconds)).getD batchDelay) 0
    retryDelayMinutes := max ((runtime.bind (·.creditRetryDelayMinutes)).getD retryDelayMinutes) 1 }

/-- `due[i : i + size]` for every start `i` of a batch. -/
def batches (size : Nat) (due : List (Nat × Bytes)) : List (List (Nat × Bytes)) :=
  (List.range ((due.length + size - 1) / size)).map fun index => (due.drop (index * size)).take size

/-- The result of `_probe_one_key` once the gathered probes have ended. -/
def probeResult (foreign : Foreign) (masterKey : Bytes) (now : Instant)
    (replies : Nat → Instant × ProbeReply) (due : Nat × Bytes) : CreditFetchResult :=
  match foreign.decryptApiKey masterKey due.2 with
  | .error error => decryptFailedResult due.1 error now
  | .ok _ =>
    match readProbe foreign due.1 (replies due.1).1 (replies due.1).2 with
    | .ok result => result
    | .error message =>
      { apiKeyId := due.1, kind := .error, errorMessage := some message, fetchedAt := some now }

/-- The requests of one batch: every key whose ciphertext decrypts. -/
def opened (foreign : Foreign) (masterKey : Bytes) (batch : List (Nat × Bytes)) :
    List (Nat × String) :=
  batch.filterMap fun due => (foreign.decryptApiKey masterKey due.2).toOption.map (due.1, ·)

/-- The probes of a batch run concurrently under the semaphore and share no
state, so gathering them is one exchange; its results stand in the batch's order. -/
def probeBatch (foreign : Foreign) (masterKey : Bytes) (workers : Int) (now : Instant)
    (batch : List (Nat × Bytes)) : Gateway R (List CreditFetchResult) := do
  let replies ← query (.probeAll workers (opened foreign masterKey batch))
  return batch.map (probeResult foreign masterKey now replies)

/-- One turn of `_apply_results_serial`, inside its `try`. -/
def applyResult (config : AppConfig R) (now : Instant) (retryMinutes : Int)
    (result : CreditFetchResult) : Gateway R Unit := do
  match ← query (.findKey result.apiKeyId) with
  | none => .raise .other
  | some none => return
  | some (some row) =>
    let key := KeyObject.fresh result.apiKeyId row
    if result.kind = .decryptFailed ∨ result.kind = .invalid then
      let key ← applyCreditFetchResult config key result
      let _ ← query (.commit { site := .creditResult, keys := [key] })
    else if terminal row then
      if row.nextRefreshAt.isSome then
        let key := key.assign fun columns => { columns with nextRefreshAt := none }
        let _ ← query (.commit { site := .clearRefresh, keys := [key] })
    else
      let key ← applyCreditFetchResult config key result
      let key ←
        if terminal key.current then
          pure (key.assign fun columns => { columns with nextRefreshAt := none })
        else if result.kind = .success then pure key
        else
          match now.addSeconds? (60 * retryMinutes) with
          | some retry => pure (key.assign fun columns => { columns with nextRefreshAt := some retry })
          | none => .raise .other
      let _ ← query (.commit { site := .creditResult, keys := [key] })

/-- `_apply_results_serial`: an exception gives up on one result only. -/
def applyResultsSerial (config : AppConfig R) (now : Instant) (retryMinutes : Int) :
    List CreditFetchResult → Gateway R Unit
  | [] => return
  | result :: rest => do
    (applyResult config now retryMinutes result).attempt fun _ => return
    applyResultsSerial config now retryMinutes rest

def refreshBatches (foreign : Foreign) (config : AppConfig R) (masterKey : Bytes) (pacing : Pacing)
    (now : Instant) : List (List (Nat × Bytes)) → Gateway R Unit
  | [] => return
  | batch :: rest => do
    let results ← probeBatch foreign masterKey pacing.workers now batch
    applyResultsSerial config now (max pacing.retryDelayMinutes 1) results
    refreshBatches foreign config masterKey pacing now rest

/-- `cleanup_old_snapshots`. -/
def cleanupOldSnapshots (config : AppConfig R) : Gateway R Unit := do
  let retentionDays := config.creditMonitoring.retentionDays
  if retentionDays ≤ 0 then return
  else
    let now ← query .now
    match now.addSeconds? (-(retentionDays * 86400)) with
    | some cutoff => query (.deleteSnapshots cutoff)
    | none => .raise .other

/-- The rest of the round once the due keys are listed. -/
def refreshDue (foreign : Foreign) (config : AppConfig R) (runtime : Option (RuntimeScheduling R))
    (masterKey : Bytes) (now : Instant) (due : List (Nat × Bytes)) : Gateway R Unit := do
  if due = [] then return
  else
    let pacing := pacing config.creditMonitoring runtime
    refreshBatches foreign config masterKey pacing now (batches pacing.batchSize.toNat due)
    cleanupOldSnapshots config

/-- `_refresh_once` after its clock reading. -/
def refreshAt (foreign : Foreign) (config : AppConfig R) (runtime : Option (RuntimeScheduling R))
    (masterKey : Bytes) (now : Instant) : Gateway R Unit := do
  match ← query .listKeys with
  | none => .raise .other
  | some keys =>
    let due := dueKeys keys now
    let clear := clearRefreshIds keys now
    if clear ≠ [] then
      match ← query (.clearRefresh clear) with
      | none => .raise .other
      | some _ => pure ()
    refreshDue foreign config runtime masterKey now due

/-- `_refresh_once`. -/
def refreshOnce (foreign : Foreign) (config : AppConfig R) (runtime : Option (RuntimeScheduling R))
    (masterKey : Bytes) : Gateway R Unit := do
  let now ← query .now
  refreshAt foreign config runtime masterKey now

end FcamGateway.CreditRefresh
