import FcamGateway.Selection
import FcamGateway.KeyStore

/-! Why a selection finds no key: every row of the provider was excluded, is disabled or
cooling, has no credits, or is held back by the rate limiter. What a selection commits, it
commits to rows that it does not hold back. -/
namespace FcamGateway.KeyPool

set_option linter.unusedSectionVars false

variable {R : Type} [Field R] [LinearOrder R] [ScoreMath R]
  {view : PoolView R} {weight : Weights R} {provider : String} {exclude : List Nat}
  {scan : Scan R} {key : KeyObject}

/-- The loop goes past the row without looking at its cooldown, credits or limit. -/
def Skipped (exclude : List Nat) (key : KeyObject) : Prop :=
  key.id ∈ exclude ∨ isDisabled key.current = true

instance (exclude : List Nat) (key : KeyObject) : Decidable (Skipped exclude key) :=
  inferInstanceAs (Decidable (_ ∨ _))

theorem consider_frame (key : KeyObject) :
    (consider view weight scan key).excludedSeen = scan.excludedSeen ∧
      (consider view weight scan key).disabledSeen = scan.disabledSeen ∧
      (consider view weight scan key).reactivated = scan.reactivated := by
  simp only [consider]
  split
  · exact ⟨rfl, rfl, rfl⟩
  · split
    · exact ⟨rfl, rfl, rfl⟩
    · split
      · exact ⟨rfl, rfl, rfl⟩
      · exact ⟨rfl, rfl, rfl⟩

theorem scanKey_excluded (excluded : key.id ∈ exclude) :
    scanKey view weight exclude scan key = { scan with excludedSeen := scan.excludedSeen + 1 } :=
  if_pos excluded

theorem scanKey_disabled (kept : key.id ∉ exclude) (disabled : isDisabled key.current = true) :
    scanKey view weight exclude scan key = { scan with disabledSeen := scan.disabledSeen + 1 } := by
  rw [scanKey, if_neg kept, if_pos disabled]

/-- A row that is looked at is cooling or considered. -/
theorem scanKey_looked (view : PoolView R) (weight : Weights R) (scan : Scan R)
    (looked : ¬ Skipped exclude key) :
    (∃ cooled : Option Int, scanKey view weight exclude scan key =
        { scan with coolingSeen := scan.coolingSeen + 1, coolingRetryAfter := cooled } ∧
      isCooling key.current = true ∧ 0 < remainingSeconds view key) ∨
    (scanKey view weight exclude scan key = consider view weight
        { scan with reactivated := scan.reactivated ++ [reactivate key] } (reactivate key) ∧
      isCooling key.current = true ∧ remainingSeconds view key ≤ 0) ∨
    (scanKey view weight exclude scan key = consider view weight scan key ∧
      isCooling key.current = false) := by
  have kept : key.id ∉ exclude := fun excluded => looked (.inl excluded)
  have enabled : ¬ isDisabled key.current = true := fun disabled => looked (.inr disabled)
  by_cases cooling : isCooling key.current = true
  · by_cases remaining : 0 < remainingSeconds view key
    · refine .inl ⟨?cooled, ?same, cooling, remaining⟩
      case same =>
        rw [scanKey, if_neg kept, if_neg enabled, if_pos cooling]
        exact if_pos remaining
    · refine .inr (.inl ⟨?_, cooling, not_lt.mp remaining⟩)
      simp only [scanKey, if_neg kept, if_neg enabled, if_pos cooling, if_neg remaining]
  · refine .inr (.inr ⟨?_, by simpa using cooling⟩)
    simp only [scanKey, if_neg kept, if_neg enabled, if_neg cooling]

theorem scanKey_looks (view : PoolView R) (weight : Weights R) (scan : Scan R)
    (looked : ¬ Skipped exclude key) :
    (scanKey view weight exclude scan key).excludedSeen = scan.excludedSeen ∧
      (scanKey view weight exclude scan key).disabledSeen = scan.disabledSeen := by
  rcases scanKey_looked view weight scan looked with ⟨_, same, _⟩ | ⟨same, _⟩ | ⟨same, _⟩
  · rw [same]
    exact ⟨rfl, rfl⟩
  · rw [same]
    exact ⟨(consider_frame _).1, (consider_frame _).2.1⟩
  · rw [same]
    exact ⟨(consider_frame _).1, (consider_frame _).2.1⟩

/-- The counters of excluded and of disabled rows. -/
theorem foldl_seen (view : PoolView R) (weight : Weights R) (exclude : List Nat)
    (keys : List KeyObject) (scan : Scan R) :
    (keys.foldl (scanKey view weight exclude) scan).excludedSeen =
        scan.excludedSeen + keys.countP (fun key => decide (key.id ∈ exclude)) ∧
      (keys.foldl (scanKey view weight exclude) scan).disabledSeen =
        scan.disabledSeen +
          keys.countP (fun key => decide (key.id ∉ exclude) && isDisabled key.current) := by
  induction keys generalizing scan with
  | nil => exact ⟨rfl, rfl⟩
  | cons key keys ih =>
    obtain ⟨excluded, disabled⟩ := ih (scanKey view weight exclude scan key)
    rw [List.foldl_cons, excluded, disabled, List.countP_cons, List.countP_cons]
    by_cases member : key.id ∈ exclude
    · rw [scanKey_excluded member]
      simp [member]
      omega
    · by_cases off : isDisabled key.current = true
      · rw [scanKey_disabled member off]
        simp [member, off]
        omega
      · have looked : ¬ Skipped exclude key := by
          rintro (excluded | disabled)
          · exact member excluded
          · exact off disabled
        obtain ⟨sameExcluded, sameDisabled⟩ := scanKey_looks view weight scan looked
        rw [sameExcluded, sameDisabled]
        simp [member, off]

/-- Rows that are all skipped leave the rest of the scan as it was. -/
theorem foldl_skipped (keys : List KeyObject) (scan : Scan R)
    (skipped : ∀ key ∈ keys, Skipped exclude key) :
    (keys.foldl (scanKey view weight exclude) scan).zeroCreditSeen = scan.zeroCreditSeen ∧
      (keys.foldl (scanKey view weight exclude) scan).coolingSeen = scan.coolingSeen ∧
      (keys.foldl (scanKey view weight exclude) scan).rpmBlocked = scan.rpmBlocked := by
  induction keys generalizing scan with
  | nil => exact ⟨rfl, rfl, rfl⟩
  | cons key keys ih =>
    obtain ⟨credits, cooling, blocked⟩ := ih (scanKey view weight exclude scan key)
      fun other member => skipped other (List.mem_cons_of_mem _ member)
    rw [List.foldl_cons, credits, cooling, blocked]
    by_cases excluded : key.id ∈ exclude
    · rw [scanKey_excluded excluded]
      exact ⟨rfl, rfl, rfl⟩
    · have disabled := (skipped key List.mem_cons_self).resolve_left excluded
      rw [scanKey_disabled excluded disabled]
      exact ⟨rfl, rfl, rfl⟩

theorem countP_skipped (exclude : List Nat) (keys : List KeyObject) :
    keys.countP (fun key => decide (key.id ∈ exclude)) +
        keys.countP (fun key => decide (key.id ∉ exclude) && isDisabled key.current) =
      keys.countP fun key => decide (Skipped exclude key) := by
  induction keys with
  | nil => rfl
  | cons key keys ih =>
    rw [List.countP_cons, List.countP_cons, List.countP_cons, ← ih]
    by_cases excluded : key.id ∈ exclude
    · simp [Skipped, excluded]
      omega
    · by_cases disabled : isDisabled key.current = true
      · simp [Skipped, excluded, disabled]
        omega
      · simp [Skipped, excluded, disabled]

theorem noCandidate_disabled_iff (scan : Scan R) (n : Nat) :
    (noCandidate scan n).code = "ALL_KEYS_DISABLED" ↔
      n ≤ scan.disabledSeen + scan.excludedSeen ∧ 0 < scan.disabledSeen ∧ scan.zeroCreditSeen = 0 ∧
        scan.coolingSeen = 0 ∧ scan.rpmBlocked = 0 := by
  unfold noCandidate
  by_cases disabled : n ≤ scan.disabledSeen + scan.excludedSeen ∧ 0 < scan.disabledSeen ∧
      scan.zeroCreditSeen = 0 ∧ scan.coolingSeen = 0 ∧ scan.rpmBlocked = 0
  · simp only [if_pos disabled]
    exact iff_of_true rfl disabled
  · refine iff_of_false ?_ disabled
    dsimp only
    rw [if_neg disabled]
    split
    · decide
    · split
      · exact of_decide_eq_false rfl
      · split
        · decide
        · decide

theorem scanned_skipped : (providerKeys view.keys provider).length ≤
      (scanKeys view weight provider exclude).disabledSeen +
        (scanKeys view weight provider exclude).excludedSeen ↔
    ∀ key ∈ providerKeys view.keys provider, Skipped exclude key := by
  obtain ⟨excluded, disabled⟩ :=
    foldl_seen view weight exclude (providerKeys view.keys provider) {}
  have total := countP_skipped exclude (providerKeys view.keys provider)
  have most := (providerKeys view.keys provider).countP_le_length
    (p := fun key => decide (Skipped exclude key))
  have all : (providerKeys view.keys provider).countP (fun key => decide (Skipped exclude key)) =
      (providerKeys view.keys provider).length ↔
      ∀ key ∈ providerKeys view.keys provider, Skipped exclude key := by
    simp
  rw [← all, scanKeys, excluded, disabled]
  dsimp only
  omega

theorem scanned_disabled : 0 < (scanKeys view weight provider exclude).disabledSeen ↔
    ∃ key ∈ providerKeys view.keys provider, key.id ∉ exclude ∧ isDisabled key.current = true := by
  have counted := (foldl_seen view weight exclude (providerKeys view.keys provider) {}).2
  rw [scanKeys, counted, Nat.zero_add, List.countP_pos_iff]
  simp

/-- A selection among some rows says that all keys are disabled when they are, and also when
each is disabled or excluded and one is disabled. -/
theorem decision_disabled_iff {error : FcamError}
    (decided : decision view weight provider exclude = .error error) :
    error.code = "ALL_KEYS_DISABLED" ↔ providerKeys view.keys provider ≠ [] ∧
      ((∀ key ∈ providerKeys view.keys provider, isDisabled key.current = true) ∨
        (∀ key ∈ providerKeys view.keys provider, Skipped exclude key) ∧
          ∃ key ∈ providerKeys view.keys provider,
            key.id ∉ exclude ∧ isDisabled key.current = true) := by
  simp only [decision] at decided
  split at decided
  · rename_i none
    cases decided
    simp [none]
  rename_i some
  have off : ∀ key : KeyObject, (key.current.isActive &&
      !decide (PyText.lower key.current.status ∈ disabledStatuses)) = !isDisabled key.current := by
    intro key
    rw [isDisabled]
    cases key.current.isActive <;> rfl
  simp only [off] at decided
  split at decided
  · rename_i all
    cases decided
    have disabled : ∀ key ∈ providerKeys view.keys provider, isDisabled key.current = true := by
      simpa using all
    exact iff_of_true rfl ⟨some, .inl disabled⟩
  rename_i enabled
  have awake : ¬ ∀ key ∈ providerKeys view.keys provider, isDisabled key.current = true := by
    simpa using enabled
  split at decided
  swap
  · cases decided
  cases decided
  rw [noCandidate_disabled_iff, scanned_skipped, scanned_disabled]
  constructor
  · rintro ⟨skipped, disabled, _⟩
    exact ⟨some, .inr ⟨skipped, disabled⟩⟩
  · rintro ⟨_, all | ⟨skipped, disabled⟩⟩
    · exact absurd all awake
    · exact ⟨skipped, disabled, foldl_skipped _ _ skipped⟩

theorem consider_keeps (key : KeyObject) {candidate : R × KeyObject}
    (member : candidate ∈ scan.candidates) :
    candidate ∈ (consider view weight scan key).candidates := by
  simp only [consider]
  split
  · exact member
  · split
    · exact member
    · split
      · exact member
      · exact List.mem_append_left _ member

theorem scanKey_keeps (key : KeyObject) {candidate : R × KeyObject}
    (member : candidate ∈ scan.candidates) :
    candidate ∈ (scanKey view weight exclude scan key).candidates := by
  by_cases skipped : Skipped exclude key
  · by_cases excluded : key.id ∈ exclude
    · rw [scanKey_excluded excluded]
      exact member
    · rw [scanKey_disabled excluded (skipped.resolve_left excluded)]
      exact member
  · rcases scanKey_looked view weight scan skipped with ⟨_, same, _⟩ | ⟨same, _⟩ | ⟨same, _⟩
    · rw [same]
      exact member
    · rw [same]
      exact consider_keeps _ member
    · rw [same]
      exact consider_keeps _ member

theorem foldl_keeps (keys : List KeyObject) {scan : Scan R} {candidate : R × KeyObject}
    (member : candidate ∈ scan.candidates) :
    candidate ∈ (keys.foldl (scanKey view weight exclude) scan).candidates := by
  induction keys generalizing scan with
  | nil => exact member
  | cons key keys ih => exact ih (scanKey_keeps key member)

/-- A row that has not run out of credits has a score. -/
theorem scoreKey_funded {columns : KeyColumns}
    (funded : columns.cachedRemainingCredits.any (· ≤ 0) = false) (now : Instant)
    (halfLife baseline count unit : R) :
    ∃ score, scoreKey columns now halfLife baseline count unit = some score := by
  unfold scoreKey
  cases credits : columns.cachedRemainingCredits with
  | none => exact ⟨_, rfl⟩
  | some remaining =>
    have positive : ¬ remaining ≤ 0 := by simpa [credits] using funded
    simp only [if_neg positive]
    exact ⟨_, rfl⟩

theorem consider_adds (funded : key.current.cachedRemainingCredits.any (· ≤ 0) = false)
    (allowed : rpmAllows view key.id key.current = true) :
    ∃ score, (score, key) ∈ (consider view weight scan key).candidates := by
  have unblocked : ¬ (!rpmAllows view key.id key.current) = true := by simp [allowed]
  have credits : ¬ key.current.cachedRemainingCredits.any (· ≤ 0) = true := by simp [funded]
  obtain ⟨score, found⟩ := scoreKey_funded funded view.now weight.halfLife weight.unknownBaseline
    (failureCount (view.failures key.id) (view.monotonic key.id) weight.failHalf).1 weight.failUnit
  refine ⟨score, ?_⟩
  simp only [consider, if_neg credits, if_neg unblocked, found]
  exact List.mem_append_right _ (List.mem_singleton_self _)

theorem scanKey_adds (weight : Weights R) (scan : Scan R) (eligible : Eligible view exclude key) :
    ∃ score, (score, settled key) ∈ (scanKey view weight exclude scan key).candidates := by
  have looked : ¬ Skipped exclude key := by
    rintro (excluded | disabled)
    · exact eligible.kept excluded
    · rw [eligible.enabled] at disabled
      cases disabled
  rcases scanKey_looked view weight scan looked with ⟨_, _, cooling, more⟩ |
    ⟨same, cooling, _⟩ | ⟨same, rested⟩
  · exact absurd (eligible.rested cooling) (not_le.mpr more)
  · rw [same, settled, if_pos cooling]
    exact consider_adds eligible.funded eligible.allowed
  · rw [same, settled, if_neg (by simp [rested])]
    exact consider_adds eligible.funded eligible.allowed

/-- Every eligible row of the provider is a candidate. -/
theorem eligible_candidate (weight : Weights R) (listed : key ∈ providerKeys view.keys provider)
    (eligible : Eligible view exclude key) :
    ∃ score, (score, settled key) ∈ (scanKeys view weight provider exclude).candidates := by
  obtain ⟨front, back, split⟩ := List.append_of_mem listed
  rw [scanKeys, split, List.foldl_append, List.foldl_cons]
  obtain ⟨score, added⟩ :=
    scanKey_adds weight (front.foldl (scanKey view weight exclude) {}) eligible
  exact ⟨score, foldl_keeps back added⟩

theorem decision_error_candidates {error : FcamError}
    (decided : decision view weight provider exclude = .error error)
    (listed : key ∈ providerKeys view.keys provider) : ¬ Eligible view exclude key := by
  intro eligible
  obtain ⟨score, member⟩ := eligible_candidate weight listed eligible
  simp only [decision] at decided
  split at decided
  · rename_i none
    rw [none] at listed
    cases listed
  · split at decided
    · rename_i off
      have active : key.current.isActive = true ∧
          PyText.lower key.current.status ∉ disabledStatuses := by
        have enabled := eligible.enabled
        rw [isDisabled] at enabled
        cases on : key.current.isActive with
        | false => simp [on] at enabled
        | true => simpa [on] using enabled
      simp only [Bool.not_eq_true', List.any_eq_false] at off
      have never := off key listed
      simp [active] at never
    · split at decided
      · rename_i candidates
        rw [candidates] at member
        cases member
      · cases decided

/-- The rows whose cooldown a selection clears. -/
def Rested (view : PoolView R) (exclude : List Nat) (key : KeyObject) : Prop :=
  ¬ Skipped exclude key ∧ isCooling key.current = true ∧ remainingSeconds view key ≤ 0

instance (view : PoolView R) (exclude : List Nat) (key : KeyObject) :
    Decidable (Rested view exclude key) :=
  inferInstanceAs (Decidable (_ ∧ _ ∧ _))

theorem scanKey_reactivated (view : PoolView R) (weight : Weights R) (exclude : List Nat)
    (scan : Scan R) (key : KeyObject) :
    (scanKey view weight exclude scan key).reactivated = scan.reactivated ++
      if Rested view exclude key then [reactivate key] else [] := by
  by_cases skipped : Skipped exclude key
  · rw [if_neg fun all => all.1 skipped, List.append_nil]
    by_cases excluded : key.id ∈ exclude
    · rw [scanKey_excluded excluded]
    · rw [scanKey_disabled excluded (skipped.resolve_left excluded)]
  · rcases scanKey_looked view weight scan skipped with
      ⟨_, same, _, more⟩ | ⟨same, cooling, less⟩ | ⟨same, rested⟩
    · rw [same, if_neg fun all => absurd all.2.2 (not_le.mpr more), List.append_nil]
    · rw [same, (consider_frame _).2.2, if_pos ⟨skipped, cooling, less⟩]
    · have cold : ¬ Rested view exclude key := by
        intro all
        rw [all.2.1] at rested
        cases rested
      rw [same, (consider_frame _).2.2, if_neg cold, List.append_nil]

theorem scanKeys_reactivated : (scanKeys view weight provider exclude).reactivated =
    ((providerKeys view.keys provider).filter (Rested view exclude ·)).map reactivate := by
  have fold (keys : List KeyObject) (scan : Scan R) :
      (keys.foldl (scanKey view weight exclude) scan).reactivated =
        scan.reactivated ++ (keys.filter (Rested view exclude ·)).map reactivate := by
    induction keys generalizing scan with
    | nil => exact (List.append_nil _).symm
    | cons key keys ih =>
      rw [List.foldl_cons, ih, scanKey_reactivated, List.append_assoc]
      congr 1
      by_cases rested : Rested view exclude key
      · rw [if_pos rested, List.filter_cons_of_pos (by simpa using rested)]
        rfl
      · rw [if_neg rested, List.filter_cons_of_neg (by simpa using rested)]
        rfl
  exact fold _ _

/-- The columns that a selection's commit leaves in a row. -/
def resettled (view : PoolView R) (provider : String) (exclude : List Nat) (id : Nat)
    (row : KeyColumns) : KeyColumns :=
  if row.provider = provider ∧ Rested view exclude (.fresh id row) then
    (reactivate (.fresh id row)).current
  else row

theorem providerKeys_distinct (keys : Table KeyColumns) (provider : String) :
    ((providerKeys keys provider).map KeyObject.id).Nodup := by
  have ids : ((keys.entries.filter fun entry => entry.2.provider = provider).map Prod.fst).Nodup := by
    refine (List.filter_sublist.map Prod.fst).nodup ?_
    rw [Table.entries, List.map_map]
    exact keys.nodup.map fun _ _ same => same
  rw [providerKeys, List.map_map]
  exact ids

/-- A commit of distinct objects flushes each onto its row. -/
theorem get_foldl_self (objects : List KeyObject) (keys : Table KeyColumns)
    (distinct : (objects.map KeyObject.id).Nodup) (member : key ∈ objects) :
    (objects.foldl Store.flushKey keys).get? key.id = (keys.get? key.id).map key.flush := by
  induction objects generalizing keys with
  | nil => cases member
  | cons first objects ih =>
    obtain ⟨fresh, distinct⟩ := List.nodup_cons.mp distinct
    rw [List.foldl_cons]
    rcases List.mem_cons.mp member with rfl | member
    · have others : ∀ other ∈ objects, key.id ≠ other.id := by
        intro other listed same
        exact fresh (List.mem_map.mpr ⟨other, listed, same.symm⟩)
      rw [Store.get_foldl_other _ _ others, Store.get_flushKey_self]
    · have different : key.id ≠ first.id := by
        intro same
        exact fresh (List.mem_map.mpr ⟨key, member, same⟩)
      rw [ih _ distinct member, Store.get_flushKey_other different]

/-- A selection's commit clears the cooldowns that ran out and leaves the rest. -/
theorem get_reactivated (id : Nat) :
    ((scanKeys view weight provider exclude).reactivated.foldl Store.flushKey view.keys).get? id =
      (view.keys.get? id).map (resettled view provider exclude id) := by
  have distinct : ((scanKeys view weight provider exclude).reactivated.map KeyObject.id).Nodup := by
    rw [scanKeys_reactivated, List.map_map]
    exact (List.filter_sublist.map KeyObject.id).nodup (providerKeys_distinct view.keys provider)
  have object : ∀ key ∈ (scanKeys view weight provider exclude).reactivated, ∃ row,
      view.keys.get? key.id = some row ∧ row.provider = provider ∧
        Rested view exclude (.fresh key.id row) ∧ key = reactivate (.fresh key.id row) := by
    intro key member
    rw [scanKeys_reactivated] at member
    obtain ⟨loaded, kept, rfl⟩ := List.mem_map.mp member
    obtain ⟨listed, rested⟩ := List.mem_filter.mp kept
    obtain ⟨found, current, same⟩ := mem_providerKeys.mp listed
    have fresh : loaded = .fresh loaded.id loaded.loaded := by
      rw [KeyObject.fresh, ← current]
      cases loaded
      simp only at current
      rw [current]
    refine ⟨loaded.loaded, found, same, ?_, ?_⟩
    · rw [id_reactivate, ← fresh]
      exact of_decide_eq_true rested
    · rw [id_reactivate, ← fresh]
  cases found : view.keys.get? id with
  | none =>
    rw [Store.get_foldl_other]
    · rw [found]
      rfl
    · intro key member same
      obtain ⟨row, present, _⟩ := object key member
      rw [← same, found] at present
      cases present
  | some row =>
    by_cases cleared : row.provider = provider ∧ Rested view exclude (.fresh id row)
    · have member : reactivate (.fresh id row) ∈
          (scanKeys view weight provider exclude).reactivated := by
        rw [scanKeys_reactivated]
        refine List.mem_map_of_mem (List.mem_filter.mpr ⟨?_, decide_eq_true cleared.2⟩)
        exact mem_providerKeys.mpr ⟨found, rfl, cleared.1⟩
      have flushed := get_foldl_self _ view.keys distinct member
      rw [id_reactivate] at flushed
      change _ = (view.keys.get? id).map _ at flushed
      rw [found] at flushed
      rw [show (KeyObject.fresh id row).id = id from rfl] at flushed
      rw [flushed, Option.map_some, Option.map_some, resettled, if_pos cleared]
      exact congrArg some (KeyObject.flush_loaded (reactivate (.fresh id row)))
    · rw [Store.get_foldl_other]
      · rw [found, Option.map_some, resettled, if_neg cleared]
      · intro key member same
        obtain ⟨other, present, provided, rested, _⟩ := object key member
        rw [← same, found] at present
        cases present
        rw [← same] at rested
        exact cleared ⟨provided, rested⟩

theorem disabled_reactivate (enabled : isDisabled key.current = false) :
    isDisabled (reactivate key).current = false := by
  by_cases cooling : PyText.lower key.current.status ∈ coolingStatuses
  · have active : key.current.isActive = true := by
      by_contra off
      simp [isDisabled, off] at enabled
    simp only [isDisabled, reactivate, KeyObject.current_assign, if_pos cooling, active]
    decide
  · simpa [isDisabled, reactivate, cooling] using enabled

/-- What a selection's commit leaves alone in every row. -/
theorem resettled_frame (view : PoolView R) (provider : String) (exclude : List Nat) (id : Nat)
    (row : KeyColumns) :
    (resettled view provider exclude id row).provider = row.provider ∧
      isDisabled (resettled view provider exclude id row) = isDisabled row ∧
      (resettled view provider exclude id row).cachedRemainingCredits =
        row.cachedRemainingCredits := by
  unfold resettled
  split
  · rename_i cleared
    have enabled : isDisabled row = false := by
      by_contra disabled
      exact cleared.2.1 (.inr (Bool.eq_true_of_not_eq_false disabled))
    exact ⟨rfl, (disabled_reactivate enabled).trans enabled.symm, rfl⟩
  · exact ⟨rfl, rfl, rfl⟩

/-- No test of the filter loop but the rate limiter's can reject the row any more. -/
structure Idle (provider : String) (row : KeyColumns) : Prop where
  provided : row.provider = provider
  enabled : isDisabled row = false
  rested : isCooling row = false
  funded : row.cachedRemainingCredits.any (· ≤ 0) = false

theorem idle_resettled {id : Nat} {row : KeyColumns} (idle : Idle provider row) (view : PoolView R)
    (exclude : List Nat) : Idle provider (resettled view provider exclude id row) := by
  have same : resettled view provider exclude id row = row := by
    refine if_neg fun cleared => ?_
    have cooling : isCooling row = true := cleared.2.2.1
    rw [idle.rested] at cooling
    cases cooling
  rw [same]
  exact idle

/-- After the commit of a selection an eligible row is idle. -/
theorem eligible_idle {id : Nat} {row : KeyColumns} (provided : row.provider = provider)
    (eligible : Eligible view exclude (.fresh id row)) :
    Idle provider (resettled view provider exclude id row) := by
  obtain ⟨sameProvider, sameDisabled, sameCredits⟩ :=
    resettled_frame view provider exclude id row
  refine ⟨sameProvider.trans provided, sameDisabled.trans eligible.enabled, ?_, ?_⟩
  · unfold resettled
    split
    · exact cooling_reactivate _
    · rename_i kept
      by_contra cooling
      have cooling : isCooling row = true := by simpa using cooling
      refine kept ⟨provided, ?_, cooling, eligible.rested cooling⟩
      rintro (excluded | disabled)
      · exact eligible.kept excluded
      · rw [eligible.enabled] at disabled
        cases disabled
  · rw [sameCredits]
    exact eligible.funded

end FcamGateway.KeyPool
