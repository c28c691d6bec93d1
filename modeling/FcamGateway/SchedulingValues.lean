import FcamGateway.RuntimeSettings
import FcamGateway.SelectionAnswers
import Mathlib.Analysis.SpecialFunctions.Log.Basic
import Mathlib.Analysis.SpecialFunctions.Pow.Real

/-! Which values of the configuration reach a selection. A zero is a value of its own to
the score and to the draw, but not to every default on the way there. -/
namespace FcamGateway.KeyPool

set_option linter.unusedSectionVars false

variable {R : Type} [Field R] [LinearOrder R] [ScoreMath R]

/-- The values that a configuration may give. -/
structure Legal (sched : SchedulingConfig R) : Prop where
  half : 0 < sched.freshnessHalfLifeSeconds
  baseline : 0 ≤ sched.unknownCreditBaseline
  epsilon : 0 ≤ sched.epsilonGreedy ∧ sched.epsilonGreedy ≤ 1
  failHalf : 0 < sched.failurePenaltyHalfLifeSeconds
  failUnit : 0 ≤ sched.failurePenaltyUnit

/-- What the score relies on of `math.log1p` and of the powers of one half. -/
structure Monotone (R : Type) [Field R] [LinearOrder R] [ScoreMath R] : Prop where
  log1p_zero : ScoreMath.log1p (0 : R) = 0
  log1p_lt : ∀ less more : R, 0 ≤ less → less < more →
    ScoreMath.log1p less < ScoreMath.log1p more
  halfPower_zero : ScoreMath.halfPower (0 : R) = 1

/-- The weights as they are configured. -/
def configured (sched : SchedulingConfig R) (nearRatio : R) : Weights R where
  halfLife := (sched.freshnessHalfLifeSeconds : R)
  unknownBaseline := sched.unknownCreditBaseline
  epsilon := sched.epsilonGreedy
  nearRatio
  failHalf := sched.failurePenaltyHalfLifeSeconds
  failUnit := sched.failurePenaltyUnit

/-- Selections score every candidate with the configured values, and explore only on a
draw below the configured probability. -/
structure Honoured (config : AppConfig R) (runtime : Option (RuntimeScheduling R)) : Prop where
  scores : ∀ view provider exclude,
    ∀ candidate ∈ (scanKeys view (weights config runtime) provider exclude).candidates,
      keyScore view (configured config.scheduling (weights config runtime).nearRatio)
        candidate.2 = some candidate.1
  explores : ∀ view provider exclude events selected,
    Prog.Ran (select config runtime provider exclude) events (.ok (.ok selected)) →
    (∀ event ∈ events, Smooth view event) →
    selected.explore = true → view.roll < config.scheduling.epsilonGreedy

variable {view : PoolView R} {weight other : Weights R} {provider : String} {exclude : List Nat}
  {config : AppConfig R} {runtime : Option (RuntimeScheduling R)}

/-- Every candidate carries its score. -/
theorem candidate_scored {candidate : R × KeyObject}
    (member : candidate ∈ (scanKeys view weight provider exclude).candidates) :
    keyScore view weight candidate.2 = some candidate.1 := by
  rw [scanKeys_candidates] at member
  obtain ⟨key, -, entered⟩ := List.mem_filterMap.mp member
  rw [entrant] at entered
  split at entered
  · obtain ⟨score, scored, rfl⟩ := Option.map_eq_some_iff.mp entered
    exact scored
  · cases entered

/-- A decision to explore was drawn. -/
theorem explored_drawn {selected : SelectedKey R}
    (decided : decision view weight provider exclude = .ok selected)
    (explored : selected.explore = true) : view.roll < weight.epsilon := by
  simp only [decision] at decided
  split at decided
  · cases decided
  split at decided
  · cases decided
  split at decided
  · cases decided
  · cases decided
    simp only [choose] at explored
    split at explored
    · rename_i drawn
      exact drawn.2.1
    · cases explored

/-- Weights that are the configured ones are honoured. -/
theorem honoured_of_configured (same : weights config runtime =
    configured config.scheduling (weights config runtime).nearRatio) :
    Honoured config runtime := by
  constructor
  · intro view provider exclude candidate member
    rw [← same]
    exact candidate_scored member
  · intro view provider exclude events selected ran smooth explored
    rcases select_decides ran smooth with ⟨error, unsaved, -, ended⟩ | ⟨chosen, decided, ended⟩
    · cases ended
    · cases ended
      have drawn := explored_drawn decided explored
      rw [same] at drawn
      exact drawn

theorem orElse_of_ne {value fallback : R} (some_ : value ≠ 0) : orElse value fallback = value :=
  if_neg some_

theorem orElse_zero (fallback : R) : orElse 0 fallback = fallback := if_pos rfl

theorem clamp_of_mem {value : R} (least : 0 ≤ value) (most : value ≤ 1) : clamp value 0 1 = value := by
  rw [clamp, max_eq_left least, min_eq_left most]

/-- Without runtime settings, a zero baseline and a zero penalty give way to defaults. -/
theorem weights_none (legal : Legal config.scheduling) : weights config none =
    { configured config.scheduling (weights config none).nearRatio with
      unknownBaseline := orElse config.scheduling.unknownCreditBaseline 50
      failUnit := orElse config.scheduling.failurePenaltyUnit 1 } := by
  have half : orDefault config.scheduling.freshnessHalfLifeSeconds (6 * 3600) =
      config.scheduling.freshnessHalfLifeSeconds := if_neg legal.half.ne'
  have failHalf : orElse config.scheduling.failurePenaltyHalfLifeSeconds 300 =
      config.scheduling.failurePenaltyHalfLifeSeconds := orElse_of_ne legal.failHalf.ne'
  have epsilon := clamp_of_mem legal.epsilon.1 legal.epsilon.2
  simp only [weights, configured, Option.bind_none, Option.getD_none, half, failHalf, epsilon]

/-- What `RuntimeSettings` holds when it is built from the configuration alone. -/
def unpatched [RuntimeSettings.Numerals R] (config : AppConfig R) (pool : Option Bool)
    (path : Option String) (load : Bool) : RuntimeScheduling R :=
  (RuntimeSettings.make config.scheduling pool path load fun _ => none).scheduling.toRuntimeScheduling

theorem unpatched_ofConfig [RuntimeSettings.Numerals R] (config : AppConfig R)
    (pool : Option Bool) (path : Option String) (load : Bool) :
    unpatched config pool path load =
      (RuntimeSettings.Scheduling.ofConfig config.scheduling pool).toRuntimeScheduling := by
  cases path with
  | none => rfl
  | some path => cases load <;> rfl

/-- With runtime settings, a zero explore probability and a zero penalty do. -/
theorem weights_unpatched [RuntimeSettings.Numerals R] (legal : Legal config.scheduling)
    (pool : Option Bool) (path : Option String) (load : Bool) :
    weights config (some (unpatched config pool path load)) =
      { configured config.scheduling
          (weights config (some (unpatched config pool path load))).nearRatio with
        epsilon := clamp (orElse config.scheduling.epsilonGreedy 0.1) 0 1
        failUnit := orElse config.scheduling.failurePenaltyUnit 1 } := by
  have failHalf : orElse config.scheduling.failurePenaltyHalfLifeSeconds 300 =
      config.scheduling.failurePenaltyHalfLifeSeconds := orElse_of_ne legal.failHalf.ne'
  simp only [weights, configured, unpatched_ofConfig, RuntimeSettings.Scheduling.ofConfig,
    Option.bind_some, Option.getD_some, failHalf]

/-! ## Pools that tell the values apart -/

/-- A pool at rest, on which every draw is the least. -/
def restingView (keys : Table KeyColumns) (failures : Option (R × R)) : PoolView R where
  keys
  now := 0
  storeRemaining _ := none
  peek _ _ := none
  failures _ := failures
  monotonic _ := 0
  cursor := 0
  roll := 0
  draw := 0

/-- Honoured scores are those of the configuration. -/
theorem honoured_score {columns : KeyColumns} {failures : Option (R × R)}
    (honoured : Honoured config runtime) (provided : columns.provider = "firecrawl")
    (eligible : Eligible (restingView (.single 1 columns) failures) [] (.fresh 1 columns))
    (warm : isCooling columns = false) :
    keyScore (restingView (.single 1 columns) failures) (weights config runtime)
        (.fresh 1 columns) =
      keyScore (restingView (.single 1 columns) failures)
        (configured config.scheduling (weights config runtime).nearRatio) (.fresh 1 columns) := by
  have listed : KeyObject.fresh 1 columns ∈
      providerKeys (restingView (R := R) (.single 1 columns) failures).keys "firecrawl" := by
    rw [mem_providerKeys]
    exact ⟨by simp [restingView, Table.single, Table.get?, KeyObject.fresh], rfl, provided⟩
  obtain ⟨score, member⟩ := eligible_candidate (weights config runtime) listed eligible
  have same : settled (KeyObject.fresh 1 columns) = .fresh 1 columns :=
    if_neg (by simpa [KeyObject.fresh] using warm)
  rw [same] at member
  rw [candidate_scored member, honoured.scores _ _ _ _ member]

variable [IsStrictOrderedRing R]

/-- A key with one credit and one failure just now. -/
theorem penalised_score (monotone : Monotone R) (weight : Weights R) :
    keyScore (restingView (.single 1 { cachedRemainingCredits := some 1 }) (some (1, 0))) weight
        (.fresh 1 { cachedRemainingCredits := some 1 }) =
      some (ScoreMath.log1p 1 * (55 / 100) *
        if max weight.failUnit 0 ≤ 0 then 1 else 1 / (1 + max weight.failUnit 0)) := by
  have counted : failureCount (some ((1 : R), (0 : R))) 0 weight.failHalf = (1, some (1, 0)) := by
    have large : ¬ (1 : R) < 5 / 100 := by
      rw [not_lt, div_le_one (by norm_num)]
      norm_num
    have fails : ¬ (1 : R) ≤ 0 := not_le.mpr zero_lt_one
    simp only [failureCount, if_neg fails, sub_self, max_self, zero_div, monotone.halfPower_zero,
      mul_one, if_neg large]
  have fails : ¬ max (1 : R) 0 ≤ 0 := by simp
  simp only [keyScore, restingView, KeyObject.fresh, counted, scoreKey]
  norm_num

/-- A key of unknown credits. -/
theorem unknown_score (weight : Weights R) :
    keyScore (restingView (.single 1 {}) none) weight (.fresh 1 {}) =
      some (ScoreMath.log1p (max weight.unknownBaseline 0) * (55 / 100)) := by
  simp only [keyScore, restingView, KeyObject.fresh, failureCount, scoreKey]
  norm_num

/-- Honoured weights have the configured penalty. -/
theorem honoured_failUnit (monotone : Monotone R) (honoured : Honoured config runtime)
    (unit : (weights config runtime).failUnit = orElse config.scheduling.failurePenaltyUnit 1) :
    config.scheduling.failurePenaltyUnit ≠ 0 := by
  intro zero
  have eligible : Eligible (restingView (R := R) (.single 1 { cachedRemainingCredits := some 1 })
      (some (1, 0))) [] (.fresh 1 { cachedRemainingCredits := some 1 }) :=
    standing_free_iff.mp rfl
  have same := honoured_score honoured rfl eligible rfl
  rw [penalised_score monotone, penalised_score monotone, Option.some.injEq, unit, zero,
    orElse_zero, configured, zero] at same
  have some_ : (0 : R) < ScoreMath.log1p 1 :=
    monotone.log1p_zero ▸ monotone.log1p_lt 0 1 (le_refl 0) zero_lt_one
  have one : max (1 : R) 0 = 1 := max_eq_left zero_le_one
  simp only [one, max_self, le_refl, if_true, if_neg (not_le.mpr (zero_lt_one : (0 : R) < 1))] at same
  have half : (1 : R) / (1 + 1) < 1 := by
    rw [div_lt_one (by norm_num)]
    norm_num
  have factor : (0 : R) < ScoreMath.log1p 1 * (55 / 100) := by positivity
  exact absurd same (mul_lt_mul_of_pos_left half factor).ne

/-- Without runtime settings, honoured weights have the configured baseline. -/
theorem honoured_baseline (monotone : Monotone R) (honoured : Honoured config runtime)
    (unknown : (weights config runtime).unknownBaseline =
      orElse config.scheduling.unknownCreditBaseline 50) :
    config.scheduling.unknownCreditBaseline ≠ 0 := by
  intro zero
  have eligible : Eligible (restingView (R := R) (.single 1 {}) none) [] (.fresh 1 {}) :=
    standing_free_iff.mp rfl
  have same := honoured_score honoured rfl eligible rfl
  rw [unknown_score, unknown_score, Option.some.injEq, unknown, zero, orElse_zero, configured,
    zero, max_self, max_eq_left (by norm_num), monotone.log1p_zero, zero_mul] at same
  have some_ : (0 : R) < ScoreMath.log1p 50 :=
    monotone.log1p_zero ▸ monotone.log1p_lt 0 50 (le_refl 0) (by norm_num)
  have factor : (0 : R) < ScoreMath.log1p 50 * (55 / 100) := by positivity
  exact factor.ne' same

/-- The exchange of a selection that explores. -/
def exploring (config : AppConfig R) (runtime : Option (RuntimeScheduling R)) (view : PoolView R)
    (provider : String) (exclude : List Nat) : List (Event (Op R) (Reply R)) :=
  let scan := scanKeys view (weights config runtime) provider exclude
  [⟨.readPool provider exclude, some view⟩, ⟨.keepFailures scan.failures, ()⟩,
    ⟨.keepCursor provider (view.cursor % scan.candidates.length + 1), ()⟩,
    ⟨.commit { site := .reactivate, keys := scan.reactivated }, true⟩]

omit [IsStrictOrderedRing R] in
theorem exploring_ran {selected : SelectedKey R}
    (decided : decision view (weights config runtime) provider exclude = .ok selected)
    (explored : selected.explore = true) :
    Prog.Ran (select config runtime provider exclude)
      (exploring config runtime view provider exclude)
      (.ok (.ok { selected with apiKey := selected.apiKey.saved })) := by
  refine .ask (.ask ?_)
  dsimp only
  rw [decided]
  simp only [explored]
  exact .ask (.ask .here)

/-- A decision is reached by some exchange. -/
theorem select_ran {selected : SelectedKey R}
    (decided : decision view (weights config runtime) provider exclude = .ok selected) :
    ∃ events, Prog.Ran (select config runtime provider exclude) events
        (.ok (.ok { selected with apiKey := selected.apiKey.saved })) ∧
      ∀ event ∈ events, Smooth view event := by
  by_cases explored : selected.explore = true
  · exact ⟨_, exploring_ran decided explored, by simp [exploring, Smooth]⟩
  · refine ⟨[⟨.readPool provider exclude, some view⟩,
      ⟨.keepFailures (scanKeys view (weights config runtime) provider exclude).failures, ()⟩,
      ⟨.commit { site := .reactivate
                 keys := (scanKeys view (weights config runtime) provider exclude).reactivated },
        true⟩], ?_, by simp [Smooth]⟩
    refine .ask (.ask ?_)
    dsimp only
    rw [decided]
    simp only [explored]
    exact .ask .here

omit [IsStrictOrderedRing R] in
/-- A draw below the probability explores where there is a choice. -/
theorem drawn_explores {first second : R × KeyObject} {rest : List (R × KeyObject)}
    (candidates : (scanKeys view weight provider exclude).candidates = first :: second :: rest)
    (some_ : 0 < weight.epsilon) (drawn : view.roll < weight.epsilon) :
    ∃ selected, decision view weight provider exclude = .ok selected ∧ selected.explore = true := by
  obtain ⟨key, listed, eligible⟩ := free_candidates.mpr (candidates ▸ List.cons_ne_nil _ _)
  cases decided : decision view weight provider exclude with
  | error error => exact absurd eligible (decision_error_candidates decided listed)
  | ok selected =>
    refine ⟨selected, rfl, ?_⟩
    simp only [decision, candidates] at decided
    split at decided
    · cases decided
    split at decided
    · cases decided
    · cases decided
      simp only [choose, if_pos (And.intro some_ (And.intro drawn (List.cons_ne_nil second rest)))]

/-- Two keys of unknown credits. -/
def twoKeys : Table KeyColumns := ((Table.single 1 {}).insert? 2 {}).getD (.single 1 {})

omit [IsStrictOrderedRing R] in
theorem twoKeys_candidates (weight : Weights R) : ∃ first second,
    (scanKeys (restingView twoKeys none) weight "firecrawl" []).candidates = [first, second] := by
  have rows : providerKeys twoKeys "firecrawl" = [.fresh 1 {}, .fresh 2 {}] := rfl
  have enters : ∀ key : KeyObject, standing (restingView (R := R) twoKeys none) [] key = .free →
      ∃ candidate, entrant (restingView twoKeys none) weight [] key = some candidate := by
    intro key free
    have funded := (standing_free_iff.mp free).funded
    rw [← credits_settled] at funded
    obtain ⟨score, scored⟩ := keyScore_funded (restingView twoKeys none) weight funded
    exact ⟨_, by rw [entrant, if_pos free, scored, Option.map_some]⟩
  obtain ⟨first, one⟩ := enters (.fresh 1 {}) rfl
  obtain ⟨second, two⟩ := enters (.fresh 2 {}) rfl
  refine ⟨first, second, ?_⟩
  rw [scanKeys_candidates]
  change List.filterMap _ (providerKeys twoKeys "firecrawl") = _
  rw [rows, List.filterMap_cons_some one, List.filterMap_cons_some two, List.filterMap_nil]

/-- With runtime settings, honoured weights have the configured explore probability. -/
theorem honoured_epsilon (honoured : Honoured config runtime)
    (probability : (weights config runtime).epsilon =
      clamp (orElse config.scheduling.epsilonGreedy 0.1) 0 1) :
    config.scheduling.epsilonGreedy ≠ 0 := by
  intro zero
  have tenth : (0 : R) < 0.1 := by norm_num
  have below : (0.1 : R) ≤ 1 := by norm_num
  rw [zero, orElse_zero, clamp_of_mem tenth.le below] at probability
  obtain ⟨first, second, candidates⟩ := twoKeys_candidates (weights config runtime)
  obtain ⟨selected, decided, explored⟩ := drawn_explores candidates (probability ▸ tenth)
    (probability ▸ tenth)
  obtain ⟨events, ran, smooth⟩ := select_ran decided
  have drawn := honoured.explores _ _ _ _ _ ran smooth explored
  rw [zero] at drawn
  exact absurd drawn (lt_irrefl _)

/-- For every configuration within its ranges, with no runtime settings or with settings
that hold the configuration alone: the values are honoured exactly where no zero is
configured that a default on the way takes for a missing value. -/
theorem honoured_iff [RuntimeSettings.Numerals R] (monotone : Monotone R)
    (legal : Legal config.scheduling) :
    (Honoured config none ↔ config.scheduling.failurePenaltyUnit ≠ 0 ∧
      config.scheduling.unknownCreditBaseline ≠ 0) ∧
    ∀ pool path load, Honoured config (some (unpatched config pool path load)) ↔
      config.scheduling.failurePenaltyUnit ≠ 0 ∧ config.scheduling.epsilonGreedy ≠ 0 := by
  constructor
  · have reached := weights_none legal
    constructor
    · intro honoured
      exact ⟨honoured_failUnit monotone honoured (congrArg Weights.failUnit reached),
        honoured_baseline monotone honoured (congrArg Weights.unknownBaseline reached)⟩
    · rintro ⟨unit, baseline⟩
      rw [orElse_of_ne unit, orElse_of_ne baseline] at reached
      exact honoured_of_configured reached
  · intro pool path load
    have reached := weights_unpatched legal pool path load
    constructor
    · intro honoured
      exact ⟨honoured_failUnit monotone honoured (congrArg Weights.failUnit reached),
        honoured_epsilon honoured (congrArg Weights.epsilon reached)⟩
    · rintro ⟨unit, epsilon⟩
      rw [orElse_of_ne unit, orElse_of_ne epsilon,
        clamp_of_mem legal.epsilon.1 legal.epsilon.2] at reached
      exact honoured_of_configured reached

/-! ## Real numbers -/

noncomputable instance : ScoreMath ℝ where
  log1p x := Real.log (1 + x)
  halfPower x := (0.5 : ℝ) ^ x

/-- Of the texts, those of whole numbers. -/
noncomputable instance : RuntimeSettings.Numerals ℝ where
  truncated value := some (if 0 ≤ value then ⌊value⌋ else ⌈value⌉)
  readFloat text := (PyText.readInt text).map Int.cast

theorem real_monotone : Monotone ℝ where
  log1p_zero := by simp [ScoreMath.log1p]
  log1p_lt := by
    intro less more positive order
    exact Real.log_lt_log (by linarith) (by linarith)
  halfPower_zero := Real.rpow_zero _

/-- The default configuration is honoured, with runtime settings and without. -/
theorem defaults_honoured : ∃ config : AppConfig ℝ, config.scheduling.unknownCreditBaseline = 50 ∧
    Honoured config none ∧ Honoured config (some (unpatched config none none true)) := by
  have legal : Legal ({} : AppConfig ℝ).scheduling := by
    constructor <;> norm_num
  obtain ⟨bare, settled⟩ := honoured_iff real_monotone legal
  refine ⟨{}, rfl, bare.mpr ⟨?_, ?_⟩, (settled none none true).mpr ⟨?_, ?_⟩⟩ <;> norm_num

/-- A penalty unit of zero is legal and not honoured. -/
theorem zero_penalty_ignored : ∃ config : AppConfig ℝ, Legal config.scheduling ∧
    config.scheduling.failurePenaltyUnit = 0 ∧ ¬ Honoured config none := by
  refine ⟨{ scheduling := { failurePenaltyUnit := 0 } }, ?_, rfl, ?_⟩
  · constructor <;> norm_num
  · intro honoured
    exact honoured_failUnit real_monotone honoured rfl rfl

end FcamGateway.KeyPool
