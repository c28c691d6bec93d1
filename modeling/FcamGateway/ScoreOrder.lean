import FcamGateway.SchedulingValues

/-! The order in which the scheduler prefers keys. A score is a product of three factors,
one for the credits, one for the age of the last credit check and one for the failures,
and each of them moves one way. -/
namespace FcamGateway.KeyPool

set_option linter.unusedSectionVars false

variable {R : Type} [Field R] [LinearOrder R] [ScoreMath R]

/-- The factor of the credits, the assumed ones where none are known. -/
def creditWeight (remaining : Option Int) (baseline : R) : R :=
  match remaining with
  | some remaining => ScoreMath.log1p ((max remaining 0 : Int) : R)
  | none => ScoreMath.log1p (max baseline 0)

/-- How long ago a check was, in microseconds. A check in the future is one of now. -/
def checkAge (checked now : Instant) : Int := max (now - checked) 0

/-- The factor of the last credit check. -/
def freshnessWeight (lastCheck : Option Instant) (now : Instant) (half : R) : R :=
  match lastCheck with
  | some checked => 1 / (1 + (checkAge checked now : R) / (1000000 : Nat) / max half 1)
  | none => (55 : Nat) / (100 : Nat)

/-- The factor of the failures. -/
def failureWeight (fails unit : R) : R := 1 / (1 + max fails 0 * max unit 0)

/-- A key scores at most what another does. No score is below every score. -/
def AtMost (low high : Option R) : Prop :=
  ∀ score, low = some score → ∃ better, high = some better ∧ score ≤ better

variable [IsStrictOrderedRing R] {key : KeyColumns} {now : Instant}
  {half baseline fails unit : R}

theorem age_scaled (checked now : Instant) :
    max (((now - checked : Int) : R) / 1000000) 0 = (checkAge checked now : R) / (1000000 : Nat) := by
  rw [checkAge, Int.cast_max, Int.cast_zero, ← max_div_div_right (Nat.cast_nonneg _), zero_div]
  norm_num

theorem failure_cases (fails unit : R) :
    (if max unit 0 ≤ 0 ∨ max fails 0 ≤ 0 then 1 else 1 / (1 + max fails 0 * max unit 0)) =
      failureWeight fails unit := by
  rw [failureWeight]
  split
  · rename_i free
    rcases free with free | free
    · rw [le_antisymm free (le_max_right _ _), mul_zero, add_zero, div_one]
    · rw [le_antisymm free (le_max_right _ _), zero_mul, add_zero, div_one]
  · rfl

/-- Known credits that are used up leave no score; any other key scores the product. -/
theorem scoreKey_eq (key : KeyColumns) (now : Instant) (half baseline fails unit : R) :
    scoreKey key now half baseline fails unit =
      if key.cachedRemainingCredits.any (· ≤ 0) then none
      else some (creditWeight key.cachedRemainingCredits baseline *
        freshnessWeight key.lastCreditCheckAt now half * failureWeight fails unit) := by
  have factors : scoreKey key now half baseline fails unit =
      (match key.cachedRemainingCredits with
        | some remaining => if remaining ≤ 0 then none else some (creditWeight (some remaining) baseline)
        | none => some (creditWeight none baseline)).map fun weight =>
          weight * freshnessWeight key.lastCreditCheckAt now half * failureWeight fails unit := by
    have unknown : (55 : R) / 100 = (55 : Nat) / (100 : Nat) := by norm_num
    rw [scoreKey, failure_cases]
    cases key.lastCreditCheckAt with
    | none =>
      simp only [unknown]
      rfl
    | some checked =>
      simp only [age_scaled]
      rfl
  rw [factors]
  cases key.cachedRemainingCredits with
  | none => rfl
  | some remaining =>
    by_cases spent : remaining ≤ 0
    · simp [spent]
    · simp [spent]

theorem log1p_le (monotone : Monotone R) {less more : R} (least : 0 ≤ less) (order : less ≤ more) :
    ScoreMath.log1p less ≤ ScoreMath.log1p more := by
  rcases order.lt_or_eq with order | rfl
  · exact (monotone.log1p_lt less more least order).le
  · exact le_refl _

theorem log1p_nonneg (monotone : Monotone R) {amount : R} (least : 0 ≤ amount) :
    0 ≤ ScoreMath.log1p amount := by
  rw [← monotone.log1p_zero]
  exact log1p_le monotone (le_refl 0) least

theorem creditWeight_nonneg (monotone : Monotone R) (remaining : Option Int) (baseline : R) :
    0 ≤ creditWeight remaining baseline := by
  cases remaining with
  | none => exact log1p_nonneg monotone (le_max_right _ _)
  | some remaining => exact log1p_nonneg monotone (Int.cast_nonneg (le_max_right _ _))

theorem creditWeight_mono (monotone : Monotone R) {less more : Int} (order : less ≤ more)
    (baseline : R) : creditWeight (some less) baseline ≤ creditWeight (some more) baseline := by
  refine log1p_le monotone (Int.cast_nonneg (le_max_right _ _)) (Int.cast_le.mpr ?_)
  exact max_le_max_right 0 order

/-- Assumed credits weigh as much as known ones. -/
theorem creditWeight_assumed (assumed : Int) (baseline : R) :
    creditWeight none (assumed : R) = creditWeight (some assumed) baseline := by
  rw [creditWeight, creditWeight, Int.cast_max, Int.cast_zero]

theorem freshnessWeight_nonneg (lastCheck : Option Instant) (now : Instant) (half : R) :
    0 ≤ freshnessWeight lastCheck now half := by
  cases lastCheck with
  | none =>
    rw [freshnessWeight]
    positivity
  | some checked =>
    have age : (0 : R) ≤ checkAge checked now := Int.cast_nonneg (le_max_right _ _)
    have positive : 0 < max half 1 := lt_max_of_lt_right one_pos
    rw [freshnessWeight]
    positivity

theorem freshnessWeight_antitone {checked older now later : Instant}
    (order : checkAge checked now ≤ checkAge older later) (half : R) :
    freshnessWeight (some older) later half ≤ freshnessWeight (some checked) now half := by
  have age : (0 : R) ≤ checkAge checked now := Int.cast_nonneg (le_max_right _ _)
  have positive : 0 < max half 1 := lt_max_of_lt_right one_pos
  have ordered : (checkAge checked now : R) ≤ checkAge older later := Int.cast_le.mpr order
  rw [freshnessWeight, freshnessWeight]
  gcongr

theorem failureWeight_nonneg (fails unit : R) : 0 ≤ failureWeight fails unit := by
  rw [failureWeight]
  positivity

theorem failureWeight_antitone {fewer more : R} (order : fewer ≤ more) (unit : R) :
    failureWeight more unit ≤ failureWeight fewer unit := by
  rw [failureWeight, failureWeight]
  gcongr

/-! ## The order -/

theorem scoreKey_none : scoreKey key now half baseline fails unit = none ↔
    ∃ remaining, key.cachedRemainingCredits = some remaining ∧ remaining ≤ 0 := by
  rw [scoreKey_eq]
  cases key.cachedRemainingCredits with
  | none => simp
  | some remaining => simp

theorem scoreKey_some {score : R} : scoreKey key now half baseline fails unit = some score ↔
    (∀ remaining, key.cachedRemainingCredits = some remaining → 0 < remaining) ∧
      creditWeight key.cachedRemainingCredits baseline *
        freshnessWeight key.lastCreditCheckAt now half * failureWeight fails unit = score := by
  rw [scoreKey_eq]
  cases key.cachedRemainingCredits with
  | none => simp
  | some remaining => simp

theorem scoreKey_nonneg (monotone : Monotone R) {score : R}
    (scored : scoreKey key now half baseline fails unit = some score) : 0 ≤ score := by
  obtain ⟨-, rfl⟩ := scoreKey_some.mp scored
  refine mul_nonneg (mul_nonneg ?_ ?_) (failureWeight_nonneg fails unit)
  · exact creditWeight_nonneg monotone _ _
  · exact freshnessWeight_nonneg _ _ _

theorem scoreKey_credits (monotone : Monotone R) {less more : Int} (order : less ≤ more) :
    AtMost (scoreKey { key with cachedRemainingCredits := some less } now half baseline fails unit)
      (scoreKey { key with cachedRemainingCredits := some more } now half baseline fails unit) := by
  intro score scored
  obtain ⟨left, rfl⟩ := scoreKey_some.mp scored
  have positive := left less rfl
  refine ⟨_, scoreKey_some.mpr ⟨?_, rfl⟩, ?_⟩
  · rintro _ ⟨⟩
    omega
  · have fresh := freshnessWeight_nonneg key.lastCreditCheckAt now half
    have failed := failureWeight_nonneg fails unit
    have credits := creditWeight_mono monotone order baseline
    exact mul_le_mul_of_nonneg_right (mul_le_mul_of_nonneg_right credits fresh) failed

theorem scoreKey_age (monotone : Monotone R) {checked older now later : Instant}
    (order : checkAge checked now ≤ checkAge older later) :
    AtMost (scoreKey { key with lastCreditCheckAt := some older } later half baseline fails unit)
      (scoreKey { key with lastCreditCheckAt := some checked } now half baseline fails unit) := by
  intro score scored
  obtain ⟨left, rfl⟩ := scoreKey_some.mp scored
  refine ⟨_, scoreKey_some.mpr ⟨left, rfl⟩, ?_⟩
  have credits := creditWeight_nonneg monotone key.cachedRemainingCredits baseline
  have failed := failureWeight_nonneg fails unit
  have fresh := freshnessWeight_antitone order half
  exact mul_le_mul_of_nonneg_right (mul_le_mul_of_nonneg_left fresh credits) failed

theorem scoreKey_future {checked : Instant} (future : now ≤ checked) :
    scoreKey { key with lastCreditCheckAt := some checked } now half baseline fails unit =
      scoreKey { key with lastCreditCheckAt := some now } now half baseline fails unit := by
  have age : checkAge checked now = checkAge now now := by
    rw [checkAge, checkAge, sub_self, max_self]
    exact max_eq_right (sub_nonpos.mpr future)
  rw [scoreKey_eq, scoreKey_eq]
  simp only [freshnessWeight, age]

theorem scoreKey_failures (monotone : Monotone R) {fewer more : R} (order : fewer ≤ more) :
    AtMost (scoreKey key now half baseline more unit)
      (scoreKey key now half baseline fewer unit) := by
  intro score scored
  obtain ⟨left, rfl⟩ := scoreKey_some.mp scored
  refine ⟨_, scoreKey_some.mpr ⟨left, rfl⟩, ?_⟩
  have credits := creditWeight_nonneg monotone key.cachedRemainingCredits baseline
  have fresh := freshnessWeight_nonneg key.lastCreditCheckAt now half
  exact mul_le_mul_of_nonneg_left (failureWeight_antitone order unit) (mul_nonneg credits fresh)

theorem scoreKey_assumed {assumed : Int} (positive : 0 < assumed) (baseline : R) :
    scoreKey { key with cachedRemainingCredits := none } now half (assumed : R) fails unit =
      scoreKey { key with cachedRemainingCredits := some assumed } now half baseline fails unit := by
  rw [scoreKey_eq, scoreKey_eq, if_neg (by simp), if_neg (by simpa using positive)]
  rw [creditWeight_assumed]

/-- The score is `none` for a key whose credits are known to be used up and for no other. It
is never negative, and it moves one way with the credits, the age of the last check and the
failures. Unknown credits count as the assumed ones. Nothing is asked of the half-life and
the unit, which the score bounds itself. -/
theorem score_order (key : KeyColumns) (half baseline unit : ℝ) :
    (∀ now (fails : ℝ), scoreKey key now half baseline fails unit = none ↔
      ∃ remaining, key.cachedRemainingCredits = some remaining ∧ remaining ≤ 0) ∧
    (∀ now (fails score : ℝ), scoreKey key now half baseline fails unit = some score → 0 ≤ score) ∧
    (∀ now (fails : ℝ) less more, less ≤ more →
      AtMost (scoreKey { key with cachedRemainingCredits := some less } now half baseline fails unit)
        (scoreKey { key with cachedRemainingCredits := some more } now half baseline fails unit)) ∧
    (∀ (fails : ℝ) checked older now later, checkAge checked now ≤ checkAge older later →
      AtMost (scoreKey { key with lastCreditCheckAt := some older } later half baseline fails unit)
        (scoreKey { key with lastCreditCheckAt := some checked } now half baseline fails unit)) ∧
    (∀ now (fails : ℝ) checked, now ≤ checked →
      scoreKey { key with lastCreditCheckAt := some checked } now half baseline fails unit =
        scoreKey { key with lastCreditCheckAt := some now } now half baseline fails unit) ∧
    (∀ now (fewer more : ℝ), fewer ≤ more → AtMost (scoreKey key now half baseline more unit)
      (scoreKey key now half baseline fewer unit)) ∧
    (∀ now (fails : ℝ) (assumed : Int), 0 < assumed →
      scoreKey { key with cachedRemainingCredits := none } now half (assumed : ℝ) fails unit =
        scoreKey { key with cachedRemainingCredits := some assumed } now half baseline fails unit) := by
  refine ⟨?_, ?_, ?_, ?_, ?_, ?_, ?_⟩
  · exact fun _ _ => scoreKey_none
  · exact fun _ _ _ => scoreKey_nonneg real_monotone
  · exact fun _ _ _ _ => scoreKey_credits real_monotone
  · exact fun _ _ _ _ _ => scoreKey_age real_monotone
  · exact fun _ _ _ => scoreKey_future
  · exact fun _ _ _ => scoreKey_failures real_monotone
  · exact fun _ _ _ positive => scoreKey_assumed positive baseline

end FcamGateway.KeyPool
