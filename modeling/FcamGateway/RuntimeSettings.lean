import FcamGateway.KeyPool
import Mathlib.Data.Rat.Cast.OfScientific

/-! `RuntimeSettings`: the overrides of scheduling and refresh that an administrator sets
while the process runs. They start from the configuration file, are patched, and are kept
in a file that the next process reads. -/
namespace FcamGateway

namespace RuntimeSettings

/-- What `json.loads` makes of a file. -/
inductive Value (R : Type) where
  | null
  | bool (value : Bool)
  | int (value : Int)
  | float (value : R)
  | str (value : String)
  | arr (items : List (Value R))
  | obj (members : List (String × Value R))

/-- `int` of a float, and `float` of a text; `none` is an exception. -/
class Numerals (R : Type) where
  truncated : R → Option Int
  readFloat : String → Option R

/-- `RuntimeScheduling`, with the two fields that neither a request nor a refresh round
reads. -/
structure Scheduling (R : Type) extends RuntimeScheduling R where
  httpConnectionPoolEnabled : Option Bool := none
  creditRefreshCheckIntervalSeconds : Option Int := none

/-- The arguments of `patch_scheduling`. -/
structure Patch (R : Type) where
  freshnessHalfLifeSeconds : Option Int := none
  unknownCreditBaseline : Option R := none
  creditWorkers : Option Int := none
  unsetCreditWorkers : Bool := false
  httpConnectionPoolEnabled : Option Bool := none
  clearHttpConnectionPoolOverride : Bool := false
  creditBatchSize : Option Int := none
  clearCreditBatchSize : Bool := false
  creditBatchDelaySeconds : Option Int := none
  clearCreditBatchDelaySeconds : Bool := false
  creditRefreshCheckIntervalSeconds : Option Int := none
  clearCreditRefreshCheckIntervalSeconds : Bool := false
  creditRetryDelayMinutes : Option Int := none
  clearCreditRetryDelayMinutes : Bool := false
  epsilonGreedy : Option R := none
  clearEpsilonGreedy : Bool := false

/-- The files by path: what `json.loads` makes of each, where it can. -/
abbrev Disk (R : Type) := String → Option (Option (Value R))

variable {R : Type} [Field R] [LinearOrder R]

/-- A field after a patch. -/
def patched {Kind : Type} (clear : Bool) (given : Option Kind) (bounded : Kind → Kind)
    (current : Option Kind) : Option Kind :=
  if clear then none else (given.map bounded).or current

/-- The assignments of `patch_scheduling`. -/
def Scheduling.patch (s : Scheduling R) (patch : Patch R) : Scheduling R where
  freshnessHalfLifeSeconds :=
    patched false patch.freshnessHalfLifeSeconds (max · 1) s.freshnessHalfLifeSeconds
  unknownCreditBaseline :=
    patched false patch.unknownCreditBaseline (max · 0) s.unknownCreditBaseline
  creditWorkers := patched patch.unsetCreditWorkers patch.creditWorkers (max · 1) s.creditWorkers
  httpConnectionPoolEnabled :=
    patched patch.clearHttpConnectionPoolOverride patch.httpConnectionPoolEnabled (fun on => on)
      s.httpConnectionPoolEnabled
  creditBatchSize :=
    patched patch.clearCreditBatchSize patch.creditBatchSize (max · 1) s.creditBatchSize
  creditBatchDelaySeconds :=
    patched patch.clearCreditBatchDelaySeconds patch.creditBatchDelaySeconds (max · 0)
      s.creditBatchDelaySeconds
  creditRefreshCheckIntervalSeconds :=
    patched patch.clearCreditRefreshCheckIntervalSeconds patch.creditRefreshCheckIntervalSeconds
      (max · 1) s.creditRefreshCheckIntervalSeconds
  creditRetryDelayMinutes :=
    patched patch.clearCreditRetryDelayMinutes patch.creditRetryDelayMinutes (max · 1)
      s.creditRetryDelayMinutes
  epsilonGreedy :=
    patched patch.clearEpsilonGreedy patch.epsilonGreedy (KeyPool.clamp · 0 1) s.epsilonGreedy

/-- `effective_half_life`. -/
def Scheduling.effectiveHalfLife (s : Scheduling R) (fallback : Int) : R :=
  (s.freshnessHalfLifeSeconds.getD fallback : Int)

def Scheduling.effectiveUnknownBaseline (s : Scheduling R) (fallback : R) : R :=
  s.unknownCreditBaseline.getD fallback

def Scheduling.effectiveEpsilonGreedy (s : Scheduling R) (fallback : R) : R :=
  KeyPool.clamp (s.epsilonGreedy.getD fallback) 0 1

def Scheduling.effectiveCreditWorkers (s : Scheduling R) (fallback : Int) : Int :=
  s.creditWorkers.getD fallback

def Scheduling.effectiveHttpConnectionPoolEnabled (s : Scheduling R) (fallback : Bool) : Bool :=
  s.httpConnectionPoolEnabled.getD fallback

def Scheduling.effectiveCreditBatchSize (s : Scheduling R) (fallback : Int) : Int :=
  max (s.creditBatchSize.getD fallback) 1

def Scheduling.effectiveCreditBatchDelaySeconds (s : Scheduling R) (fallback : Int) : Int :=
  max (s.creditBatchDelaySeconds.getD fallback) 0

def Scheduling.effectiveCreditRefreshCheckIntervalSeconds (s : Scheduling R) (fallback : Int) :
    Int :=
  max (s.creditRefreshCheckIntervalSeconds.getD fallback) 1

def Scheduling.effectiveCreditRetryDelayMinutes (s : Scheduling R) (fallback : Int) : Int :=
  max (s.creditRetryDelayMinutes.getD fallback) 1

namespace Value

/-- `dict.get` of a parsed object. A repeated name keeps the last value. -/
def get? (members : List (String × Value R)) (name : String) : Option (Value R) :=
  (members.reverse.find? fun member => member.1 == name).map Prod.snd

/-- `bool` of a parsed value. -/
def truthy : Value R → Bool
  | null => false
  | bool value => value
  | int value => value != 0
  | float value => decide (value ≠ 0)
  | str value => value != ""
  | arr items => !items.isEmpty
  | obj members => !members.isEmpty

/-- `int` of a parsed value; `none` is an exception. -/
def toInt? [Numerals R] : Value R → Option Int
  | bool value => some (if value then 1 else 0)
  | int value => some value
  | float value => Numerals.truncated value
  | str value => PyText.readInt value
  | _ => none

/-- `float` of a parsed value. -/
def toFloat? [Numerals R] : Value R → Option R
  | bool value => some (if value then 1 else 0)
  | int value => some value
  | float value => some value
  | str value => Numerals.readFloat value
  | _ => none

end Value

/-- The fields of `_PERSIST_FIELDS`. -/
def persistFields (s : Scheduling R) : List (String × Option (Value R)) :=
  [("freshness_half_life_seconds", s.freshnessHalfLifeSeconds.map .int),
   ("unknown_credit_baseline", s.unknownCreditBaseline.map .float),
   ("credit_workers", s.creditWorkers.map .int),
   ("http_connection_pool_enabled", s.httpConnectionPoolEnabled.map .bool),
   ("credit_batch_size", s.creditBatchSize.map .int),
   ("credit_batch_delay_seconds", s.creditBatchDelaySeconds.map .int),
   ("credit_refresh_check_interval_seconds", s.creditRefreshCheckIntervalSeconds.map .int),
   ("credit_retry_delay_minutes", s.creditRetryDelayMinutes.map .int),
   ("epsilon_greedy", s.epsilonGreedy.map .float)]

/-- The members of a dictionary that has no place for `None`. -/
def given (fields : List (String × Option (Value R))) : List (String × Value R) :=
  fields.filterMap fun field => field.2.map (Prod.mk field.1)

/-- `_overrides_dict_unlocked`. -/
def overridesDict (s : Scheduling R) : List (String × Value R) := given (persistFields s)

/-- A field after the file was read; `none` is an exception. A null leaves a field that
always has a value. -/
def readField {Kind : Type} (convert : Value R → Option Kind) (nullable : Bool)
    (data : List (String × Value R)) (name : String) (current : Option Kind) :
    Option (Option Kind) :=
  match Value.get? data name with
  | none => some current
  | some .null => some (if nullable then none else current)
  | some value => (convert value).map some

def readInt [Numerals R] (least : Int) (value : Value R) : Option Int :=
  value.toInt?.map (max · least)

/-- The assignments of `_load_from_disk`, in their order. -/
def readSteps [Numerals R] (data : List (String × Value R)) :
    List (Scheduling R → Option (Scheduling R)) :=
  [fun s => (readField (readInt 1) false data "freshness_half_life_seconds"
      s.freshnessHalfLifeSeconds).map fun v => { s with freshnessHalfLifeSeconds := v },
   fun s => (readField (fun value => value.toFloat?.map (max · 0)) false data
      "unknown_credit_baseline" s.unknownCreditBaseline).map
        fun v => { s with unknownCreditBaseline := v },
   fun s => (readField (readInt 1) true data "credit_workers" s.creditWorkers).map
      fun v => { s with creditWorkers := v },
   fun s => (readField (fun value => some value.truthy) true data "http_connection_pool_enabled"
      s.httpConnectionPoolEnabled).map fun v => { s with httpConnectionPoolEnabled := v },
   fun s => (readField (readInt 1) true data "credit_batch_size" s.creditBatchSize).map
      fun v => { s with creditBatchSize := v },
   fun s => (readField (readInt 0) true data "credit_batch_delay_seconds"
      s.creditBatchDelaySeconds).map fun v => { s with creditBatchDelaySeconds := v },
   fun s => (readField (readInt 1) true data "credit_refresh_check_interval_seconds"
      s.creditRefreshCheckIntervalSeconds).map
        fun v => { s with creditRefreshCheckIntervalSeconds := v },
   fun s => (readField (readInt 1) true data "credit_retry_delay_minutes"
      s.creditRetryDelayMinutes).map fun v => { s with creditRetryDelayMinutes := v },
   fun s => (readField (fun value => value.toFloat?.map (KeyPool.clamp · 0 1)) false data
      "epsilon_greedy" s.epsilonGreedy).map fun v => { s with epsilonGreedy := v }]

/-- The first exception ends the reading. -/
def readUntil : List (Scheduling R → Option (Scheduling R)) → Scheduling R → Scheduling R
  | [], s => s
  | step :: steps, s => (step s).elim s (readUntil steps)

/-- `_load_from_disk`. -/
def Scheduling.loadFromDisk [Numerals R] (s : Scheduling R) (path : String) (disk : Disk R) :
    Scheduling R :=
  match disk path with
  | some (some (.obj raw)) =>
    let data :=
      match Value.get? raw "overrides" with
      | some (.obj overrides) => overrides
      | _ => raw
    readUntil (readSteps data) s
  | _ => s

/-- What `_save_to_disk_unlocked` writes. -/
def Scheduling.payload (s : Scheduling R) : Value R :=
  .obj [("version", .int 1), ("overrides", .obj (overridesDict s))]

end RuntimeSettings

open RuntimeSettings

/-- `RuntimeSettings`. -/
structure RuntimeSettings (R : Type) where
  persistPath : Option String
  scheduling : Scheduling R

namespace RuntimeSettings

variable {R : Type} [Field R] [LinearOrder R]

/-- What the constructor takes from the configuration file. -/
def Scheduling.ofConfig (base : SchedulingConfig R) (httpConnectionPoolEnabled : Option Bool) :
    Scheduling R where
  freshnessHalfLifeSeconds := some base.freshnessHalfLifeSeconds
  unknownCreditBaseline := some base.unknownCreditBaseline
  httpConnectionPoolEnabled
  epsilonGreedy := some (KeyPool.orElse base.epsilonGreedy 0.1)

/-- `RuntimeSettings.__init__`. -/
def make [Numerals R] (scheduling : SchedulingConfig R) (httpConnectionPoolEnabled : Option Bool)
    (persistPath : Option String) (loadPersisted : Bool) (disk : Disk R) : RuntimeSettings R :=
  let s := Scheduling.ofConfig scheduling httpConnectionPoolEnabled
  { persistPath
    scheduling :=
      match persistPath with
      | some path => if loadPersisted then s.loadFromDisk path disk else s
      | none => s }

/-- `_save_to_disk_unlocked`; a write that fails is logged. -/
def saveToDisk (settings : RuntimeSettings R) (writes : Bool) (disk : Disk R) : Disk R :=
  match settings.persistPath with
  | none => disk
  | some path =>
    if writes then Function.update disk path (some (some settings.scheduling.payload)) else disk

/-- `patch_scheduling`. -/
def patchScheduling (patch : Patch R) (persist writes : Bool)
    (state : RuntimeSettings R × Disk R) : RuntimeSettings R × Disk R :=
  let settings := { state.1 with scheduling := state.1.scheduling.patch patch }
  (settings, if persist then settings.saveToDisk writes state.2 else state.2)

end RuntimeSettings

end FcamGateway
