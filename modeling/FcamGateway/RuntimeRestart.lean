import FcamGateway.RuntimeSettings
import Mathlib.Algebra.CharZero.AddMonoidHom
import Mathlib.Algebra.Order.Ring.Cast
import Mathlib.Data.Int.CharZero
import Mathlib.Tactic.Linarith
import Mathlib.Tactic.Positivity

/-! What a restart makes of the overrides. A field that has a value is in the file and
comes back within its bounds; one that has none is not in the file, and the constructor
decides. -/
namespace FcamGateway.RuntimeSettings

variable {R : Type}

/-! ## The file -/

theorem get?_cons (member : String × Value R) (members : List (String × Value R)) (name : String) :
    Value.get? (member :: members) name =
      (Value.get? members name).or (if member.1 = name then some member.2 else none) := by
  simp only [Value.get?, List.reverse_cons, List.find?_append]
  cases List.find? (fun member => member.1 == name) members.reverse with
  | some found => rfl
  | none =>
    by_cases same : member.1 = name
    · simp [same]
    · simp [same, beq_false_of_ne same]

theorem get?_absent {fields : List (String × Option (Value R))} {name : String}
    (absent : name ∉ fields.map Prod.fst) : Value.get? (given fields) name = none := by
  induction fields with
  | nil => rfl
  | cons field fields ih =>
    simp only [List.map_cons, List.mem_cons, not_or] at absent
    have rest := ih absent.2
    cases there : field.2 with
    | none => simpa [given, there] using rest
    | some value =>
      have cons : given (field :: fields) = (field.1, value) :: given fields := by
        simp [given, there]
      rw [cons, get?_cons, rest, if_neg (Ne.symm absent.1), Option.none_or]

/-- A dictionary without nulls gives back each of its fields. -/
theorem get?_given {fields : List (String × Option (Value R))} {name : String}
    {value : Option (Value R)} (distinct : (fields.map Prod.fst).Nodup)
    (listed : (name, value) ∈ fields) : Value.get? (given fields) name = value := by
  induction fields with
  | nil => cases listed
  | cons field fields ih =>
    rw [List.map_cons, List.nodup_cons] at distinct
    rcases List.mem_cons.mp listed with rfl | later
    · have rest := get?_absent distinct.1
      cases value with
      | none => simpa [given] using rest
      | some value =>
        have cons : given ((name, some value) :: fields) = (name, value) :: given fields := by
          simp [given]
        rw [cons, get?_cons, rest, if_pos rfl, Option.none_or]
    · have rest := ih distinct.2 later
      cases there : field.2 with
      | none => simpa [given, there] using rest
      | some first =>
        have other : field.1 ≠ name := by
          rintro rfl
          exact distinct.1 (List.mem_map.mpr ⟨_, later, rfl⟩)
        have cons : given (field :: fields) = (field.1, first) :: given fields := by
          simp [given, there]
        rw [cons, get?_cons, rest, if_neg other, Option.or_none]

theorem persistFields_distinct (s : Scheduling R) : ((persistFields s).map Prod.fst).Nodup := by
  simp [persistFields]

/-- A field that the file holds as it was written. -/
theorem readField_written {Kind : Type} {convert : Value R → Option Kind} {nullable : Bool}
    {data : List (String × Value R)} {name : String} {current written : Option Kind}
    {print : Kind → Value R} {bounded : Kind → Kind}
    (converts : ∀ x, convert (print x) = some (bounded x)) (apparent : ∀ x, print x ≠ .null)
    (there : Value.get? data name = written.map print) :
    readField convert nullable data name current = some ((written.map bounded).or current) := by
  cases written with
  | none => simp only [readField, there, Option.map_none, Option.none_or]
  | some x =>
    simp only [readField, there, Option.map_some, Option.some_or]
    have converted := converts x
    cases shape : print x with
    | null => exact absurd shape (apparent x)
    | _ =>
      rw [shape] at converted
      simp only [converted, Option.map_some]

theorem get?_overridesDict (s : Scheduling R) :
    ∀ field ∈ persistFields s, Value.get? (overridesDict s) field.1 = field.2 :=
  fun _ listed => get?_given (persistFields_distinct s) listed

/-! ## What a field holds -/

/-- A field is empty or at least `least`. -/
def Least {Kind : Type} [LE Kind] (least : Kind) (field : Option Kind) : Prop :=
  ∀ value, field = some value → least ≤ value

/-- A patch takes a field to its bound, and leaves it where it gives no value. -/
theorem patched_least_iff {Kind : Type} [LinearOrder Kind] {given current : Option Kind}
    {least : Kind} :
    Least least (patched false given (max · least) current) ↔
      Least least current ∨ given ≠ none := by
  cases given with
  | none => simp [patched]
  | some value =>
    simp only [Least, patched, Bool.false_eq_true, if_false, Option.map_some, Option.some_or,
      Option.some.injEq, forall_eq', le_max_right, ne_eq, reduceCtorEq, not_false_eq_true, or_true]

theorem patched_least {clear : Bool} {given current : Option Int} {least : Int}
    (kept : Least least current) : Least least (patched clear given (max · least) current) := by
  cases clear with
  | true => exact fun _ none => by cases none
  | false => exact patched_least_iff.mpr (.inl kept)

theorem patched_there {Kind : Type} {given current : Option Kind} {bounded : Kind → Kind}
    (kept : current ≠ none) : patched false given bounded current ≠ none := by
  cases given with
  | none => simpa [patched] using kept
  | some other => simp [patched]

theorem readField_there {Kind : Type} {convert : Value R → Option Kind}
    {data : List (String × Value R)} {name : String} {current next : Option Kind}
    (kept : current ≠ none)
    (read : readField convert false data name current = some next) : next ≠ none := by
  rw [readField] at read
  split at read
  · cases read
    exact kept
  · cases read
    exact kept
  · obtain ⟨value, -, rfl⟩ := Option.map_eq_some_iff.mp read
    exact Option.some_ne_none value

/-- What every step keeps, the reading keeps, wherever it ends. -/
theorem readUntil_keeps (holds : Scheduling R → Prop)
    {steps : List (Scheduling R → Option (Scheduling R))} {s : Scheduling R}
    (each : ∀ step ∈ steps, ∀ s next, holds s → step s = some next → holds next)
    (start : holds s) : holds (readUntil steps s) := by
  induction steps generalizing s with
  | nil => exact start
  | cons step steps ih =>
    rw [readUntil]
    cases done : step s with
    | none => exact start
    | some next =>
      apply ih (fun other member => each other (List.mem_cons_of_mem _ member))
      exact each step List.mem_cons_self s next start done

variable [Numerals R]

theorem readInt_written {least : Int} {nullable : Bool} {data : List (String × Value R)}
    {name : String} {current written : Option Int}
    (there : Value.get? data name = written.map .int) :
    readField (readInt least) nullable data name current =
      some ((written.map (max · least)).or current) :=
  readField_written (fun _ => rfl) (by simp) there

theorem readInt_least {least : Int} {nullable : Bool} {data : List (String × Value R)}
    {name : String} {current next : Option Int} (kept : Least least current)
    (read : readField (readInt least) nullable data name current = some next) :
    Least least next := by
  rw [readField] at read
  split at read
  · cases read
    exact kept
  · cases nullable with
    | true =>
      cases read
      exact fun _ none => by cases none
    | false =>
      cases read
      exact kept
  · rename_i value _ _
    simp only [readInt, Option.map_eq_some_iff] at read
    obtain ⟨_, ⟨number, -, rfl⟩, rfl⟩ := read
    rintro _ ⟨⟩
    omega

variable [Field R] [LinearOrder R]

/-- What a process that starts with `started` reads of what `s` was written as. -/
def reloaded (started s : Scheduling R) : Scheduling R where
  freshnessHalfLifeSeconds :=
    (s.freshnessHalfLifeSeconds.map (max · 1)).or started.freshnessHalfLifeSeconds
  unknownCreditBaseline :=
    (s.unknownCreditBaseline.map (max · 0)).or started.unknownCreditBaseline
  creditWorkers := (s.creditWorkers.map (max · 1)).or started.creditWorkers
  httpConnectionPoolEnabled := s.httpConnectionPoolEnabled.or started.httpConnectionPoolEnabled
  creditBatchSize := (s.creditBatchSize.map (max · 1)).or started.creditBatchSize
  creditBatchDelaySeconds :=
    (s.creditBatchDelaySeconds.map (max · 0)).or started.creditBatchDelaySeconds
  creditRefreshCheckIntervalSeconds :=
    (s.creditRefreshCheckIntervalSeconds.map (max · 1)).or
      started.creditRefreshCheckIntervalSeconds
  creditRetryDelayMinutes :=
    (s.creditRetryDelayMinutes.map (max · 1)).or started.creditRetryDelayMinutes
  epsilonGreedy := (s.epsilonGreedy.map (KeyPool.clamp · 0 1)).or started.epsilonGreedy

/-- No field that was written fails to be read. -/
theorem readUntil_written (started s : Scheduling R) :
    readUntil (readSteps (overridesDict s)) started = reloaded started s := by
  have written := get?_overridesDict s
  simp only [persistFields, List.forall_mem_cons] at written
  obtain ⟨half, baseline, workers, pool, size, delay, interval, retry, epsilon, -⟩ := written
  have toBaseline : ∀ current, readField (fun value => value.toFloat?.map (max · (0 : R))) false
      (overridesDict s) "unknown_credit_baseline" current =
        some ((s.unknownCreditBaseline.map (max · 0)).or current) :=
    fun _ => readField_written (fun _ => rfl) (by simp) baseline
  have toPool : ∀ current, readField (fun value => some value.truthy) true (overridesDict s)
      "http_connection_pool_enabled" current =
        some ((s.httpConnectionPoolEnabled.map fun on => on).or current) :=
    fun _ => readField_written (fun _ => rfl) (by simp) pool
  have toEpsilon : ∀ current, readField
      (fun value => value.toFloat?.map (KeyPool.clamp · (0 : R) 1)) false (overridesDict s)
      "epsilon_greedy" current =
        some ((s.epsilonGreedy.map (KeyPool.clamp · 0 1)).or current) :=
    fun _ => readField_written (fun _ => rfl) (by simp) epsilon
  simp only [readSteps, readUntil, readInt_written half, readInt_written workers,
    readInt_written size, readInt_written delay, readInt_written interval, readInt_written retry,
    toBaseline, toPool, toEpsilon, Option.map_some, Option.elim_some, Option.map_id', reloaded]

/-! ## A process -/

/-- The fields of a running process. -/
structure Sound (s : Scheduling R) : Prop where
  half : s.freshnessHalfLifeSeconds ≠ none
  baseline : s.unknownCreditBaseline ≠ none
  workers : Least 1 s.creditWorkers
  size : Least 1 s.creditBatchSize
  delay : Least 0 s.creditBatchDelaySeconds
  interval : Least 1 s.creditRefreshCheckIntervalSeconds
  retry : Least 1 s.creditRetryDelayMinutes

omit [Numerals R] in
theorem Sound.patch {s : Scheduling R} (sound : Sound s) (patch : Patch R) :
    Sound (s.patch patch) where
  half := patched_there sound.half
  baseline := patched_there sound.baseline
  workers := patched_least sound.workers
  size := patched_least sound.size
  delay := patched_least sound.delay
  interval := patched_least sound.interval
  retry := patched_least sound.retry

/-- A process that starts, has read its file or not. -/
theorem readUntil_sound {data : List (String × Value R)} {s : Scheduling R}
    (start : Sound s ∧ s.epsilonGreedy ≠ none) :
    Sound (readUntil (readSteps data) s) ∧
      (readUntil (readSteps data) s).epsilonGreedy ≠ none := by
  apply readUntil_keeps (fun s => Sound s ∧ s.epsilonGreedy ≠ none) _ start
  rintro step listed s next ⟨sound, epsilon⟩ done
  simp only [readSteps, List.mem_cons, List.not_mem_nil, or_false] at listed
  rcases listed with rfl | rfl | rfl | rfl | rfl | rfl | rfl | rfl | rfl
  all_goals obtain ⟨value, read, rfl⟩ := Option.map_eq_some_iff.mp done
  · exact ⟨{ sound with half := readField_there sound.half read }, epsilon⟩
  · exact ⟨{ sound with baseline := readField_there sound.baseline read }, epsilon⟩
  · exact ⟨{ sound with workers := readInt_least sound.workers read }, epsilon⟩
  · exact ⟨{ sound with }, epsilon⟩
  · exact ⟨{ sound with size := readInt_least sound.size read }, epsilon⟩
  · exact ⟨{ sound with delay := readInt_least sound.delay read }, epsilon⟩
  · exact ⟨{ sound with interval := readInt_least sound.interval read }, epsilon⟩
  · exact ⟨{ sound with retry := readInt_least sound.retry read }, epsilon⟩
  · exact ⟨{ sound with }, readField_there epsilon read⟩

theorem make_sound (config : SchedulingConfig R) (pool : Option Bool) (path : Option String)
    (load : Bool) (disk : Disk R) :
    Sound (make config pool path load disk).scheduling ∧
      (make config pool path load disk).scheduling.epsilonGreedy ≠ none := by
  have empty : ∀ least : Int, Least least none := fun _ _ none => by cases none
  have fresh : Sound (Scheduling.ofConfig config pool) ∧
      (Scheduling.ofConfig config pool).epsilonGreedy ≠ none :=
    ⟨⟨Option.some_ne_none _, Option.some_ne_none _, empty 1, empty 1, empty 0, empty 1, empty 1⟩,
      Option.some_ne_none _⟩
  cases path with
  | none => exact fresh
  | some path =>
    simp only [make]
    split
    · rw [Scheduling.loadFromDisk]
      split
      · exact readUntil_sound fresh
      · exact fresh
    · exact fresh

/-! ## Patches and a restart -/

/-- Patches that are all written, one after the other. -/
def patchAll (patches : List (Patch R)) (state : RuntimeSettings R × Disk R) :
    RuntimeSettings R × Disk R :=
  patches.foldl (fun state patch => patchScheduling patch true true state) state

omit [Numerals R] in
theorem patchAll_settings (patches : List (Patch R)) (settings : RuntimeSettings R)
    (disk : Disk R) :
    (patchAll patches (settings, disk)).1 =
      { settings with scheduling := patches.foldl Scheduling.patch settings.scheduling } := by
  induction patches generalizing settings disk with
  | nil => rfl
  | cons patch patches ih =>
    rw [patchAll, List.foldl_cons]
    exact ih _ _

omit [Numerals R] in
/-- The last patch leaves the file as it leaves the settings. -/
theorem patchAll_disk {patches : List (Patch R)} (made : patches ≠ [])
    {settings : RuntimeSettings R} {path : String} (there : settings.persistPath = some path)
    (disk : Disk R) :
    (patchAll patches (settings, disk)).2 path =
      some (some (patches.foldl Scheduling.patch settings.scheduling).payload) := by
  obtain ⟨earlier, last, rfl⟩ := (List.eq_nil_or_concat patches).resolve_left made
  have before := patchAll_settings earlier settings disk
  have done : patchAll (earlier ++ [last]) (settings, disk) =
      patchScheduling last true true (patchAll earlier (settings, disk)) := by
    simp only [patchAll, List.foldl_append, List.foldl_cons, List.foldl_nil]
  rw [List.concat_eq_append, done, List.foldl_append]
  simp only [List.foldl_cons, List.foldl_nil, patchScheduling, if_true, saveToDisk, before, there,
    Function.update_self]

theorem loadFromDisk_payload {disk : Disk R} {path : String} {s : Scheduling R}
    (written : disk path = some (some s.payload)) (started : Scheduling R) :
    started.loadFromDisk path disk = reloaded started s := by
  have overrides : Value.get? [("version", .int 1), ("overrides", .obj (overridesDict s))]
      "overrides" = some (.obj (overridesDict s)) := by
    simp [Value.get?]
  simp only [Scheduling.loadFromDisk, written, Scheduling.payload, overrides, readUntil_written]

/-- Two processes answer every `effective_*` alike, where what is not overridden follows
the configuration. -/
structure Alike (config : SchedulingConfig R) (one other : Scheduling R) : Prop where
  halfLife : (one.effectiveHalfLife config.freshnessHalfLifeSeconds : R) =
    other.effectiveHalfLife config.freshnessHalfLifeSeconds
  unknownBaseline : one.effectiveUnknownBaseline config.unknownCreditBaseline =
    other.effectiveUnknownBaseline config.unknownCreditBaseline
  epsilonGreedy : one.effectiveEpsilonGreedy config.epsilonGreedy =
    other.effectiveEpsilonGreedy config.epsilonGreedy
  creditWorkers : ∀ fallback,
    one.effectiveCreditWorkers fallback = other.effectiveCreditWorkers fallback
  httpConnectionPoolEnabled : ∀ fallback, one.effectiveHttpConnectionPoolEnabled fallback =
    other.effectiveHttpConnectionPoolEnabled fallback
  creditBatchSize : ∀ fallback,
    one.effectiveCreditBatchSize fallback = other.effectiveCreditBatchSize fallback
  creditBatchDelaySeconds : ∀ fallback, one.effectiveCreditBatchDelaySeconds fallback =
    other.effectiveCreditBatchDelaySeconds fallback
  creditRefreshCheckIntervalSeconds : ∀ fallback,
    one.effectiveCreditRefreshCheckIntervalSeconds fallback =
      other.effectiveCreditRefreshCheckIntervalSeconds fallback
  creditRetryDelayMinutes : ∀ fallback, one.effectiveCreditRetryDelayMinutes fallback =
    other.effectiveCreditRetryDelayMinutes fallback

/-- A patch that gives the explore probability a value. -/
def Patch.SetsEpsilon (patch : Patch R) : Prop :=
  patch.clearEpsilonGreedy = false ∧ patch.epsilonGreedy ≠ none

/-- The explore probability is cleared, and not set again. -/
def EpsilonCleared (patches : List (Patch R)) : Prop :=
  ∃ earlier patch later, patches = earlier ++ patch :: later ∧ patch.clearEpsilonGreedy = true ∧
    ∀ next ∈ later, ¬ next.SetsEpsilon

/-- What a restart after `patches` on a process that started as `started` needs: a
half-life and a baseline that the file can hold, and an explore probability that is not
left to a configured zero. -/
def Survives (config : SchedulingConfig R) (started : Scheduling R) (patches : List (Patch R)) :
    Prop :=
  patches = [] ∨
    (Least 1 started.freshnessHalfLifeSeconds ∨
        ∃ patch ∈ patches, patch.freshnessHalfLifeSeconds ≠ none) ∧
      (Least 0 started.unknownCreditBaseline ∨
        ∃ patch ∈ patches, patch.unknownCreditBaseline ≠ none) ∧
      (EpsilonCleared patches → config.epsilonGreedy ≠ 0)

omit [Numerals R] in
/-- The file gives a field back exactly where its bound leaves it. -/
theorem least_reloaded {Kind : Type} [LinearOrder Kind] {least : Kind} {field started : Option Kind}
    (kept : Least least field) (missing : field = none → started = none) :
    (field.map (max · least)).or started = field := by
  cases field with
  | none => rw [missing rfl, Option.map_none, Option.none_or]
  | some value => rw [Option.map_some, Option.some_or, max_eq_left (kept value rfl)]

variable [IsStrictOrderedRing R]

omit [Numerals R] in
theorem clamp_clamp (value : R) :
    KeyPool.clamp (KeyPool.clamp value 0 1) 0 1 = KeyPool.clamp value 0 1 := by
  have low : 0 ≤ KeyPool.clamp value 0 1 := le_min (le_max_right _ _) zero_le_one
  have high : KeyPool.clamp value 0 1 ≤ 1 := min_le_right _ _
  rw [KeyPool.clamp, max_eq_left low, min_eq_left high]

omit [Numerals R] in
/-- A configured zero is no probability to the constructor. -/
theorem orElse_alike (configured : R) :
    KeyPool.clamp configured 0 1 = KeyPool.clamp (KeyPool.orElse configured 0.1) 0 1 ↔
      configured ≠ 0 := by
  by_cases zero : configured = 0
  · have tenth : (0 : R) < 0.1 := by norm_num
    have below : (0.1 : R) ≤ 1 := by norm_num
    simp only [zero, KeyPool.orElse, KeyPool.clamp, if_true, max_self, ne_eq, not_true_eq_false,
      iff_false]
    rw [min_eq_left zero_le_one, max_eq_left tenth.le, min_eq_left below]
    exact tenth.ne
  · simp [KeyPool.orElse, zero]

omit [Numerals R] in
/-- A restart keeps every field but the three that the constructor may decide otherwise. -/
theorem reloaded_alike (config : SchedulingConfig R) {s : Scheduling R} (sound : Sound s) :
    Alike config s (reloaded (.ofConfig config none) s) ↔
      Least 1 s.freshnessHalfLifeSeconds ∧ Least 0 s.unknownCreditBaseline ∧
        (s.epsilonGreedy = none → config.epsilonGreedy ≠ 0) := by
  constructor
  · intro alike
    refine ⟨?_, ?_, ?_⟩
    · intro half there
      have same := alike.halfLife
      simp only [Scheduling.effectiveHalfLife, reloaded, there, Option.map_some, Option.some_or,
        Option.getD_some, Int.cast_inj] at same
      omega
    · intro baseline there
      have same := alike.unknownBaseline
      simp only [Scheduling.effectiveUnknownBaseline, reloaded, there, Option.map_some,
        Option.some_or, Option.getD_some] at same
      exact same ▸ le_max_right _ _
    · intro cleared
      have same := alike.epsilonGreedy
      simp only [Scheduling.effectiveEpsilonGreedy, reloaded, cleared, Option.map_none,
        Option.none_or, Scheduling.ofConfig, Option.getD_some, Option.getD_none] at same
      exact (orElse_alike _).mp same
  · rintro ⟨half, baseline, epsilon⟩
    have halfLife : (reloaded (.ofConfig config none) s).freshnessHalfLifeSeconds =
        s.freshnessHalfLifeSeconds := least_reloaded half fun none => absurd none sound.half
    have unknown : (reloaded (.ofConfig config none) s).unknownCreditBaseline =
        s.unknownCreditBaseline := least_reloaded baseline fun none => absurd none sound.baseline
    have workers : (reloaded (.ofConfig config none) s).creditWorkers = s.creditWorkers :=
      least_reloaded sound.workers fun _ => rfl
    have size : (reloaded (.ofConfig config none) s).creditBatchSize = s.creditBatchSize :=
      least_reloaded sound.size fun _ => rfl
    have delay : (reloaded (.ofConfig config none) s).creditBatchDelaySeconds =
        s.creditBatchDelaySeconds := least_reloaded sound.delay fun _ => rfl
    have interval : (reloaded (.ofConfig config none) s).creditRefreshCheckIntervalSeconds =
        s.creditRefreshCheckIntervalSeconds := least_reloaded sound.interval fun _ => rfl
    have retry : (reloaded (.ofConfig config none) s).creditRetryDelayMinutes =
        s.creditRetryDelayMinutes := least_reloaded sound.retry fun _ => rfl
    have pool : (reloaded (.ofConfig config none) s).httpConnectionPoolEnabled =
        s.httpConnectionPoolEnabled := by
      simp only [reloaded, Scheduling.ofConfig, Option.or_none]
    constructor
    · rw [Scheduling.effectiveHalfLife, Scheduling.effectiveHalfLife, halfLife]
    · rw [Scheduling.effectiveUnknownBaseline, Scheduling.effectiveUnknownBaseline, unknown]
    · simp only [Scheduling.effectiveEpsilonGreedy, reloaded, Scheduling.ofConfig]
      cases there : s.epsilonGreedy with
      | none =>
        rw [Option.map_none, Option.none_or, Option.getD_none, Option.getD_some]
        exact (orElse_alike _).mpr (epsilon there)
      | some value =>
        rw [Option.map_some, Option.some_or, Option.getD_some, Option.getD_some, clamp_clamp]
    · intro fallback
      rw [Scheduling.effectiveCreditWorkers, Scheduling.effectiveCreditWorkers, workers]
    · intro fallback
      rw [Scheduling.effectiveHttpConnectionPoolEnabled,
        Scheduling.effectiveHttpConnectionPoolEnabled, pool]
    · intro fallback
      rw [Scheduling.effectiveCreditBatchSize, Scheduling.effectiveCreditBatchSize, size]
    · intro fallback
      rw [Scheduling.effectiveCreditBatchDelaySeconds, Scheduling.effectiveCreditBatchDelaySeconds,
        delay]
    · intro fallback
      rw [Scheduling.effectiveCreditRefreshCheckIntervalSeconds,
        Scheduling.effectiveCreditRefreshCheckIntervalSeconds, interval]
    · intro fallback
      rw [Scheduling.effectiveCreditRetryDelayMinutes, Scheduling.effectiveCreditRetryDelayMinutes,
        retry]

/-! ## A run of patches -/

omit [Numerals R] [IsStrictOrderedRing R] in
/-- What a patch brings about or keeps, patches bring about or keep. -/
theorem foldl_patch (holds : Scheduling R → Prop) (brings : Patch R → Prop)
    (step : ∀ s patch, holds (Scheduling.patch s patch) ↔ holds s ∨ brings patch)
    (patches : List (Patch R)) (s : Scheduling R) :
    holds (patches.foldl Scheduling.patch s) ↔ holds s ∨ ∃ patch ∈ patches, brings patch := by
  induction patches generalizing s with
  | nil => simp
  | cons patch patches ih =>
    rw [List.foldl_cons, ih, step, or_assoc]
    simp

omit [Numerals R] [IsStrictOrderedRing R] in
theorem foldl_sound {s : Scheduling R} (sound : Sound s) (patches : List (Patch R)) :
    Sound (patches.foldl Scheduling.patch s) := by
  induction patches generalizing s with
  | nil => exact sound
  | cons patch patches ih => exact ih (sound.patch patch)

omit [Numerals R] [IsStrictOrderedRing R] in
theorem patch_epsilon (s : Scheduling R) (patch : Patch R) :
    (s.patch patch).epsilonGreedy = none ↔
      patch.clearEpsilonGreedy = true ∨ ¬ patch.SetsEpsilon ∧ s.epsilonGreedy = none := by
  simp only [Scheduling.patch, patched, Patch.SetsEpsilon]
  cases patch.clearEpsilonGreedy with
  | true => simp
  | false => cases patch.epsilonGreedy <;> simp

omit [Field R] [LinearOrder R] [Numerals R] [IsStrictOrderedRing R] in
theorem epsilonCleared_cons (patch : Patch R) (patches : List (Patch R)) :
    EpsilonCleared (patch :: patches) ↔ EpsilonCleared patches ∨
      patch.clearEpsilonGreedy = true ∧ ∀ next ∈ patches, ¬ next.SetsEpsilon := by
  constructor
  · rintro ⟨earlier, clearing, later, split, clears, kept⟩
    cases earlier with
    | nil =>
      obtain ⟨rfl, rfl⟩ := List.cons.inj split
      exact .inr ⟨clears, kept⟩
    | cons first earlier =>
      obtain ⟨-, rfl⟩ := List.cons.inj split
      exact .inl ⟨earlier, clearing, later, rfl, clears, kept⟩
  · rintro (⟨earlier, clearing, later, rfl, clears, kept⟩ | ⟨clears, kept⟩)
    · exact ⟨patch :: earlier, clearing, later, rfl, clears, kept⟩
    · exact ⟨[], patch, patches, rfl, clears, kept⟩

omit [Numerals R] [IsStrictOrderedRing R] in
theorem foldl_epsilon (patches : List (Patch R)) (s : Scheduling R) :
    (patches.foldl Scheduling.patch s).epsilonGreedy = none ↔
      EpsilonCleared patches ∨
        (∀ next ∈ patches, ¬ next.SetsEpsilon) ∧ s.epsilonGreedy = none := by
  induction patches generalizing s with
  | nil => simp [EpsilonCleared]
  | cons patch patches ih =>
    rw [List.foldl_cons, ih, patch_epsilon, epsilonCleared_cons, List.forall_mem_cons]
    have clearing : patch.clearEpsilonGreedy = true → ¬ patch.SetsEpsilon := by
      intro clears sets
      rw [sets.1] at clears
      cases clears
    tauto

/-- After patches that were all written, a process started anew from the same
configuration and the same file answers alike exactly where the patches survive. -/
theorem restart_alike_iff (config : SchedulingConfig R) (path : String) (disk : Disk R)
    (patches : List (Patch R)) :
    let started := make config none (some path) true disk
    let ran := patchAll patches (started, disk)
    Alike config ran.1.scheduling (make config none (some path) true ran.2).scheduling ↔
      Survives config started.scheduling patches := by
  intro started ran
  obtain ⟨sound, epsilon⟩ := make_sound config none (some path) true disk
  cases made : patches with
  | nil =>
    have idle : ran = (started, disk) := by simp only [ran, made, patchAll, List.foldl_nil]
    rw [idle]
    exact ⟨fun _ => .inl rfl, fun _ => by constructor <;> intros <;> rfl⟩
  | cons first others =>
    rw [← made]
    have some_ : patches ≠ [] := made ▸ List.cons_ne_nil first others
    have settled : ran.1.scheduling = patches.foldl Scheduling.patch started.scheduling := by
      rw [patchAll_settings]
    have reread : (make config none (some path) true ran.2).scheduling =
        reloaded (.ofConfig config none) ran.1.scheduling := by
      rw [settled]
      exact loadFromDisk_payload (patchAll_disk some_ rfl disk) _
    have half : Least 1 ran.1.scheduling.freshnessHalfLifeSeconds ↔
        Least 1 started.scheduling.freshnessHalfLifeSeconds ∨
          ∃ patch ∈ patches, patch.freshnessHalfLifeSeconds ≠ none := by
      rw [settled]
      exact foldl_patch (fun s => Least 1 s.freshnessHalfLifeSeconds)
        (fun patch => patch.freshnessHalfLifeSeconds ≠ none) (fun _ _ => patched_least_iff)
        patches started.scheduling
    have baseline : Least 0 ran.1.scheduling.unknownCreditBaseline ↔
        Least 0 started.scheduling.unknownCreditBaseline ∨
          ∃ patch ∈ patches, patch.unknownCreditBaseline ≠ none := by
      rw [settled]
      exact foldl_patch (fun s => Least 0 s.unknownCreditBaseline)
        (fun patch => patch.unknownCreditBaseline ≠ none) (fun _ _ => patched_least_iff)
        patches started.scheduling
    have cleared : ran.1.scheduling.epsilonGreedy = none ↔ EpsilonCleared patches := by
      rw [settled, foldl_epsilon]
      exact or_iff_left fun none => epsilon none.2
    rw [reread, reloaded_alike config (settled ▸ foldl_sound sound patches), half, baseline,
      cleared, Survives, or_iff_right some_]

/-- Exact numbers; of the texts, those of whole numbers. -/
instance : Numerals ℚ where
  truncated value := some (if 0 ≤ value then value.floor else value.ceil)
  readFloat text := (PyText.readInt text).map Int.cast

/-- Overrides for the refresh round come back. -/
theorem refresh_patch_survives :
    ∃ config : SchedulingConfig ℚ, config.epsilonGreedy = 0 ∧
      let started := make config none (some "runtime_settings.json") true fun _ => none
      let ran := patchAll [{ creditWorkers := some 7, creditBatchDelaySeconds := some (-12) }]
        (started, fun _ => none)
      Alike config ran.1.scheduling
        (make config none (some "runtime_settings.json") true ran.2).scheduling := by
  refine ⟨⟨100, 10, 0, 19 / 20, 300, 1⟩, rfl, ?_⟩
  apply (restart_alike_iff _ _ _ _).mpr
  refine .inr ⟨.inl ?_, .inl ?_, ?_⟩
  · rintro half ⟨⟩
    decide
  · rintro baseline ⟨⟩
    norm_num
  · rintro ⟨earlier, patch, later, split, clears, -⟩
    have listed : patch ∈ earlier ++ patch :: later := by simp
    rw [← split, List.mem_singleton] at listed
    rw [listed] at clears
    cases clears

/-- With no exploration configured, a cleared explore probability is zero before the
restart and one tenth after it. -/
theorem cleared_epsilon_comes_back :
    ∃ config : SchedulingConfig ℚ, config.epsilonGreedy = 0 ∧
      let started := make config none (some "runtime_settings.json") true fun _ => none
      let ran := patchAll [{ clearEpsilonGreedy := true }] (started, fun _ => none)
      ran.1.scheduling.effectiveEpsilonGreedy config.epsilonGreedy = 0 ∧
        ¬ Alike config ran.1.scheduling
          (make config none (some "runtime_settings.json") true ran.2).scheduling := by
  refine ⟨⟨100, 10, 0, 19 / 20, 300, 1⟩, rfl, by decide +kernel, ?_⟩
  intro alike
  exact absurd alike.epsilonGreedy (by decide +kernel)

end FcamGateway.RuntimeSettings
