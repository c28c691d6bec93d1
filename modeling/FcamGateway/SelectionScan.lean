import FcamGateway.SelectionRefusals

/-! What the filter loop makes of a row, and what it has counted at its end: each row
stands in one way, and the counters and the candidates are the rows of each standing. -/
namespace FcamGateway.KeyPool

set_option linter.unusedSectionVars false

/-- How a row comes out of the filter loop. -/
inductive Standing where
  | excluded
  | disabled
  | cooling
  | unfunded
  | limited
  | free
deriving DecidableEq

variable {R : Type} [Field R] [LinearOrder R] [ScoreMath R]
  {view : PoolView R} {weight : Weights R} {provider : String} {exclude : List Nat}
  {scan : Scan R} {key : KeyObject}

/-- The first test of the loop that a row fails. -/
def standing (view : PoolView R) (exclude : List Nat) (key : KeyObject) : Standing :=
  if key.id ∈ exclude then .excluded
  else if isDisabled key.current then .disabled
  else if isCooling key.current ∧ 0 < remainingSeconds view key then .cooling
  else if key.current.cachedRemainingCredits.any (· ≤ 0) then .unfunded
  else if !rpmAllows view key.id key.current then .limited
  else .free

/-- The score of a row under the memory of its failures. -/
def keyScore (view : PoolView R) (weight : Weights R) (key : KeyObject) : Option R :=
  scoreKey key.current view.now weight.halfLife weight.unknownBaseline
    (failureCount (view.failures key.id) (view.monotonic key.id) weight.failHalf).1 weight.failUnit

/-- What a scan has counted of a standing. -/
def Scan.seen (scan : Scan R) : Standing → Nat
  | .excluded => scan.excludedSeen
  | .disabled => scan.disabledSeen
  | .cooling => scan.coolingSeen
  | .unfunded => scan.zeroCreditSeen
  | .limited => scan.rpmBlocked
  | .free => scan.candidates.length

/-- The candidate that a row makes. -/
def entrant (view : PoolView R) (weight : Weights R) (exclude : List Nat) (key : KeyObject) :
    Option (R × KeyObject) :=
  if standing view exclude key = .free then
    (keyScore view weight (settled key)).map fun score => (score, settled key)
  else none

/-- What a row that is cooling adds to the loop's least cooldown. -/
def cooled (view : PoolView R) (exclude : List Nat) (key : KeyObject) (least : Option Int) :
    Option Int :=
  if standing view exclude key = .cooling then
    some (least.elim (remainingSeconds view key) fun least =>
      min least (remainingSeconds view key))
  else least

theorem standing_free_iff : standing view exclude key = .free ↔ Eligible view exclude key := by
  unfold standing
  constructor
  · intro free
    split at free
    · cases free
    rename_i kept
    split at free
    · cases free
    rename_i enabled
    split at free
    · cases free
    rename_i rested
    split at free
    · cases free
    rename_i funded
    split at free
    · cases free
    rename_i allowed
    refine ⟨kept, by simpa using enabled, ?_, by simpa using funded, by simpa using allowed⟩
    intro cooling
    by_contra more
    exact rested ⟨cooling, not_le.mp more⟩
  · rintro ⟨kept, enabled, rested, funded, allowed⟩
    have warm : ¬ (isCooling key.current = true ∧ 0 < remainingSeconds view key) :=
      fun both => absurd (rested both.1) (not_le.mpr both.2)
    simp [kept, enabled, warm, funded, allowed]

theorem credits_settled (key : KeyObject) :
    (settled key).current.cachedRemainingCredits = key.current.cachedRemainingCredits := by
  simp only [settled]
  split <;> rfl

theorem rpmAllows_settled (view : PoolView R) (key : KeyObject) :
    rpmAllows view (settled key).id (settled key).current =
      rpmAllows view key.id key.current := by
  simp only [settled]
  split <;> rfl

theorem keyScore_funded (view : PoolView R) (weight : Weights R)
    (funded : key.current.cachedRemainingCredits.any (· ≤ 0) = false) :
    ∃ score, keyScore view weight key = some score :=
  scoreKey_funded funded _ _ _ _ _

/-- A row that is considered is without credits, limited or a candidate. -/
theorem consider_cases (view : PoolView R) (weight : Weights R) (scan : Scan R)
    (key : KeyObject) :
    (key.current.cachedRemainingCredits.any (· ≤ 0) = true ∧
      consider view weight scan key = { scan with zeroCreditSeen := scan.zeroCreditSeen + 1 }) ∨
    (key.current.cachedRemainingCredits.any (· ≤ 0) = false ∧
      rpmAllows view key.id key.current = false ∧
      consider view weight scan key = { scan with rpmBlocked := scan.rpmBlocked + 1 }) ∨
    (key.current.cachedRemainingCredits.any (· ≤ 0) = false ∧
      rpmAllows view key.id key.current = true ∧
      ∃ score failures, keyScore view weight key = some score ∧
        consider view weight scan key =
          { scan with failures, candidates := scan.candidates ++ [(score, key)] }) := by
  by_cases funded : key.current.cachedRemainingCredits.any (· ≤ 0) = true
  · exact .inl ⟨funded, by rw [consider, if_pos funded]⟩
  have credits : key.current.cachedRemainingCredits.any (· ≤ 0) = false := by simpa using funded
  by_cases allowed : rpmAllows view key.id key.current = true
  · obtain ⟨score, scored⟩ := keyScore_funded view weight credits
    have open_ : ¬ (!rpmAllows view key.id key.current) = true := by simp [allowed]
    refine .inr (.inr ⟨credits, allowed, score, scan.failures ++ [(key.id, (failureCount
      (view.failures key.id) (view.monotonic key.id) weight.failHalf).2)], scored, ?_⟩)
    rw [keyScore] at scored
    simp only [consider, if_neg funded, if_neg open_, scored]
  · have shut : (!rpmAllows view key.id key.current) = true := by simpa using allowed
    exact .inr (.inl ⟨credits, by simpa using allowed, by rw [consider, if_neg funded, if_pos shut]⟩)

/-- A scan after a row that stands in one way. -/
structure Step (view : PoolView R) (weight : Weights R) (exclude : List Nat) (scan : Scan R)
    (key : KeyObject) (next : Scan R) : Prop where
  seen : ∀ way, next.seen way = scan.seen way + if standing view exclude key = way then 1 else 0
  candidates : next.candidates = scan.candidates ++ (entrant view weight exclude key).toList
  least : next.coolingRetryAfter = cooled view exclude key scan.coolingRetryAfter

/-- A row that is neither free nor cooling is counted, and nothing else. -/
theorem Step.of_passed {next : Scan R} {way : Standing} (stands : standing view exclude key = way)
    (taken : way ≠ .free) (warm : way ≠ .cooling)
    (seen : ∀ other, next.seen other = scan.seen other + if way = other then 1 else 0)
    (candidates : next.candidates = scan.candidates)
    (least : next.coolingRetryAfter = scan.coolingRetryAfter) :
    Step view weight exclude scan key next := by
  constructor
  · rwa [stands]
  · simp [entrant, stands, taken, candidates]
  · simp [cooled, stands, warm, least]

/-- A row that is considered with its cooldown over. -/
theorem step_consider (enabled : ¬ Skipped exclude key)
    (rested : ¬ (isCooling key.current = true ∧ 0 < remainingSeconds view key))
    (like : Scan R) (sameSeen : like.seen = scan.seen) (sameCandidates : like.candidates =
      scan.candidates) (sameLeast : like.coolingRetryAfter = scan.coolingRetryAfter) :
    Step view weight exclude scan key (consider view weight like (settled key)) := by
  obtain ⟨kept, enabled⟩ := not_or.mp enabled
  have credits := credits_settled key
  have gate := rpmAllows_settled view key
  rcases consider_cases view weight like (settled key) with ⟨funded, same⟩ |
    ⟨funded, allowed, same⟩ | ⟨funded, allowed, score, failures, scored, same⟩
  · rw [credits] at funded
    have stands : standing view exclude key = .unfunded := by
      rw [standing, if_neg kept, if_neg enabled, if_neg rested, if_pos funded]
    rw [same]
    refine .of_passed stands nofun nofun (fun way => ?_) sameCandidates sameLeast
    rw [← sameSeen]
    cases way <;> rfl
  · rw [credits] at funded
    rw [gate] at allowed
    have stands : standing view exclude key = .limited := by
      simp [standing, kept, enabled, rested, funded, allowed]
    rw [same]
    refine .of_passed stands nofun nofun (fun way => ?_) sameCandidates sameLeast
    rw [← sameSeen]
    cases way <;> rfl
  · rw [credits] at funded
    rw [gate] at allowed
    have stands : standing view exclude key = .free := by
      simp [standing, kept, enabled, rested, funded, allowed]
    rw [same]
    constructor
    · intro way
      have before := congrFun sameSeen way
      rw [stands, ← before]
      cases way <;> simp [Scan.seen]
    · simp [entrant, stands, scored, sameCandidates]
    · simpa [cooled, stands] using sameLeast

theorem scanKey_step (view : PoolView R) (weight : Weights R) (exclude : List Nat) (scan : Scan R)
    (key : KeyObject) :
    Step view weight exclude scan key (scanKey view weight exclude scan key) := by
  by_cases excluded : key.id ∈ exclude
  · have stands : standing view exclude key = .excluded := if_pos excluded
    rw [scanKey_excluded excluded]
    exact .of_passed stands nofun nofun (fun way => by cases way <;> rfl) rfl rfl
  by_cases disabled : isDisabled key.current = true
  · have stands : standing view exclude key = .disabled := by
      rw [standing, if_neg excluded, if_pos disabled]
    rw [scanKey_disabled excluded disabled]
    exact .of_passed stands nofun nofun (fun way => by cases way <;> rfl) rfl rfl
  have looked : ¬ Skipped exclude key := not_or.mpr ⟨excluded, disabled⟩
  by_cases cooling : isCooling key.current = true
  · by_cases more : 0 < remainingSeconds view key
    · have stands : standing view exclude key = .cooling := by
        rw [standing, if_neg excluded, if_neg disabled, if_pos ⟨cooling, more⟩]
      simp only [scanKey, if_neg excluded, if_neg disabled, if_pos cooling, if_pos more]
      constructor
      · intro way
        rw [stands]
        cases way <;> rfl
      · simp [entrant, stands]
      · simp only [cooled, stands, if_true]
        cases scan.coolingRetryAfter <;> rfl
    · have same : settled key = reactivate key := if_pos cooling
      simp only [scanKey, if_neg excluded, if_neg disabled, if_pos cooling, if_neg more]
      rw [← same]
      exact step_consider looked (fun both => more both.2) _ rfl rfl rfl
  · have same : settled key = key := if_neg cooling
    have considered : scanKey view weight exclude scan key =
        consider view weight scan (settled key) := by
      rw [same, scanKey, if_neg excluded, if_neg disabled, if_neg cooling]
    rw [considered]
    exact step_consider looked (fun both => cooling both.1) _ rfl rfl rfl

/-- The rows of the provider that stand in one way. -/
def standingRows (view : PoolView R) (provider : String) (exclude : List Nat) (way : Standing) :
    List KeyObject :=
  (providerKeys view.keys provider).filter fun key => standing view exclude key = way

theorem foldl_candidates (keys : List KeyObject) (scan : Scan R) :
    (keys.foldl (scanKey view weight exclude) scan).candidates =
      scan.candidates ++ keys.filterMap (entrant view weight exclude) := by
  induction keys generalizing scan with
  | nil => simp
  | cons key keys ih =>
    rw [List.foldl_cons, ih, (scanKey_step view weight exclude scan key).candidates]
    cases made : entrant view weight exclude key with
    | none => simp [made]
    | some candidate => simp [made]

/-- The loop's candidates are the free rows with their scores, in the order of the rows. -/
theorem scanKeys_candidates : (scanKeys view weight provider exclude).candidates =
    (providerKeys view.keys provider).filterMap (entrant view weight exclude) := by
  rw [scanKeys, foldl_candidates]
  exact List.nil_append _

theorem foldl_standing (keys : List KeyObject) (scan : Scan R) (way : Standing) :
    (keys.foldl (scanKey view weight exclude) scan).seen way =
      scan.seen way + (keys.filter fun key => standing view exclude key = way).length := by
  induction keys generalizing scan with
  | nil => simp
  | cons key keys ih =>
    rw [List.foldl_cons, ih, (scanKey_step view weight exclude scan key).seen way]
    by_cases stands : standing view exclude key = way
    · rw [if_pos stands, List.filter_cons_of_pos (by simpa using stands), List.length_cons]
      omega
    · rw [if_neg stands, List.filter_cons_of_neg (by simpa using stands)]
      omega

/-- The counters count the rows of each standing. -/
theorem scanKeys_seen (way : Standing) : (scanKeys view weight provider exclude).seen way =
    (standingRows view provider exclude way).length := by
  rw [scanKeys, foldl_standing]
  cases way <;> exact Nat.zero_add _

theorem min?_append (numbers : List Int) (last : Int) :
    (numbers ++ [last]).min? = some (numbers.min?.elim last fun least => min least last) := by
  cases numbers with
  | nil => rfl
  | cons first numbers =>
    rw [List.cons_append, List.min?_cons', List.min?_cons', List.foldl_append]
    rfl

/-- The loop keeps the least of the cooldowns it has seen. -/
theorem scanKeys_least : (scanKeys view weight provider exclude).coolingRetryAfter =
    ((standingRows view provider exclude .cooling).map (remainingSeconds view)).min? := by
  rw [scanKeys, standingRows]
  induction providerKeys view.keys provider using List.reverseRecOn with
  | nil => rfl
  | append_singleton keys key ih =>
    rw [List.foldl_append, List.foldl_cons, List.foldl_nil,
      (scanKey_step view weight exclude _ key).least, ih, cooled, List.filter_append]
    by_cases cooling : standing view exclude key = .cooling
    · rw [if_pos cooling, List.filter_cons_of_pos (by simpa using cooling), List.filter_nil,
        List.map_append, List.map_singleton, min?_append]
    · rw [if_neg cooling, List.filter_cons_of_neg (by simpa using cooling), List.filter_nil,
        List.append_nil]

/-- Every row is counted once. -/
theorem standing_total (view : PoolView R) (exclude : List Nat) (keys : List KeyObject) :
    (keys.filter fun key => standing view exclude key = .excluded).length +
      (keys.filter fun key => standing view exclude key = .disabled).length +
      (keys.filter fun key => standing view exclude key = .cooling).length +
      (keys.filter fun key => standing view exclude key = .unfunded).length +
      (keys.filter fun key => standing view exclude key = .limited).length +
      (keys.filter fun key => standing view exclude key = .free).length = keys.length := by
  induction keys with
  | nil => rfl
  | cons key keys ih =>
    rw [List.length_cons, ← ih]
    cases stands : standing view exclude key <;> simp [stands] <;> omega

end FcamGateway.KeyPool
