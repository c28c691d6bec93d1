import FcamGateway.SelectionScan

/-! What a selection answers: a free row of the provider where there is one, and otherwise
the error that says what holds the rows back. -/
namespace FcamGateway.KeyPool

set_option linter.unusedSectionVars false

variable {R : Type} [Field R] [LinearOrder R] [ScoreMath R]
  {view : PoolView R} {weight : Weights R} {provider : String} {exclude : List Nat}
  {config : AppConfig R} {runtime : Option (RuntimeScheduling R)}

def noKeyConfigured : FcamError :=
  { statusCode := 503, code := "NO_KEY_CONFIGURED", message := "No key configured" }

/-- The error of a selection that finds no free row. -/
def refusal (view : PoolView R) (provider : String) (exclude : List Nat) : FcamError :=
  let rows := providerKeys view.keys provider
  if rows.isEmpty then noKeyConfigured
  else if rows.all (fun key => isDisabled key.current) ||
      rows.all (fun key => decide (Skipped exclude key)) &&
        rows.any (fun key => decide (key.id ∉ exclude) && isDisabled key.current) then
    allKeysDisabled
  else
    match ((standingRows view provider exclude .cooling).map (remainingSeconds view)).min? with
    | some least =>
      { statusCode := 429, code := "ALL_KEYS_COOLING", message := "All keys cooling"
        retryAfter := some least }
    | none =>
      if !(standingRows view provider exclude .limited).isEmpty then
        { statusCode := 429, code := "ALL_KEYS_RATE_LIMITED"
          message := "All keys rate-limited (RPM)", retryAfter := some 1 }
      else if !(standingRows view provider exclude .unfunded).isEmpty then
        { statusCode := 503, code := "ALL_KEYS_NO_CREDITS"
          message := "All keys have zero remaining credits" }
      else { statusCode := 503, code := "NO_KEY_AVAILABLE", message := "No key available" }

/-- Where the counters cover every row, the order of the tests is this. -/
theorem noCandidate_counted {scan : Scan R} {n : Nat}
    (total : scan.excludedSeen + scan.disabledSeen + scan.coolingSeen + scan.zeroCreditSeen +
      scan.rpmBlocked = n) :
    noCandidate scan n =
      if (n ≤ scan.disabledSeen + scan.excludedSeen) ∧ 0 < scan.disabledSeen then allKeysDisabled
      else if 0 < scan.coolingSeen then
        { statusCode := 429, code := "ALL_KEYS_COOLING", message := "All keys cooling"
          retryAfter := scan.coolingRetryAfter }
      else if 0 < scan.rpmBlocked then
        { statusCode := 429, code := "ALL_KEYS_RATE_LIMITED"
          message := "All keys rate-limited (RPM)", retryAfter := some 1 }
      else if 0 < scan.zeroCreditSeen then
        { statusCode := 503, code := "ALL_KEYS_NO_CREDITS"
          message := "All keys have zero remaining credits" }
      else { statusCode := 503, code := "NO_KEY_AVAILABLE", message := "No key available" } := by
  unfold noCandidate
  dsimp only
  by_cases off : (n ≤ scan.disabledSeen + scan.excludedSeen) ∧ 0 < scan.disabledSeen
  · rw [if_pos off, if_pos (by omega)]
  rw [if_neg off, if_neg (by omega)]
  by_cases cooling : 0 < scan.coolingSeen
  · rw [if_pos cooling, if_neg (by omega), if_pos (by omega)]
  rw [if_neg cooling]
  by_cases limited : 0 < scan.rpmBlocked
  · rw [if_pos limited, if_neg (by omega), if_neg (by omega), if_pos (by omega)]
  rw [if_neg limited]
  by_cases unfunded : 0 < scan.zeroCreditSeen
  · rw [if_pos unfunded, if_pos (by omega)]
  · rw [if_neg unfunded, if_neg (by omega), if_neg (by omega), if_neg (by omega)]

/-- With no candidate, the counters pick the error. -/
theorem noCandidate_refusal (some_ : providerKeys view.keys provider ≠ [])
    (enabled : ∃ key ∈ providerKeys view.keys provider, isDisabled key.current = false)
    (none : (scanKeys view weight provider exclude).candidates = []) :
    noCandidate (scanKeys view weight provider exclude)
      (providerKeys view.keys provider).length = refusal view provider exclude := by
  have seen : ∀ way, (scanKeys view weight provider exclude).seen way =
      (standingRows view provider exclude way).length := fun way => scanKeys_seen way
  have total := standing_total view exclude (providerKeys view.keys provider)
  have free : (standingRows view provider exclude .free).length = 0 := by
    rw [← seen .free, Scan.seen, none, List.length_nil]
  have cooling : (scanKeys view weight provider exclude).coolingSeen = _ := seen .cooling
  have limited : (scanKeys view weight provider exclude).rpmBlocked = _ := seen .limited
  have unfunded : (scanKeys view weight provider exclude).zeroCreditSeen = _ := seen .unfunded
  have excluded : (scanKeys view weight provider exclude).excludedSeen = _ := seen .excluded
  have disabled : (scanKeys view weight provider exclude).disabledSeen = _ := seen .disabled
  have off : ((providerKeys view.keys provider).length ≤
      (scanKeys view weight provider exclude).disabledSeen +
        (scanKeys view weight provider exclude).excludedSeen ∧
      0 < (scanKeys view weight provider exclude).disabledSeen) ↔
      ((providerKeys view.keys provider).all (fun key => isDisabled key.current) ||
        (providerKeys view.keys provider).all (fun key => decide (Skipped exclude key)) &&
          (providerKeys view.keys provider).any
            (fun key => decide (key.id ∉ exclude) && isDisabled key.current)) = true := by
    rw [scanned_skipped, scanned_disabled, Bool.or_eq_true, Bool.and_eq_true]
    have awake : ¬ (providerKeys view.keys provider).all (fun key => isDisabled key.current) =
        true := by
      intro all
      obtain ⟨key, listed, on⟩ := enabled
      rw [List.all_eq_true.mp all key listed] at on
      cases on
    rw [or_iff_right awake]
    simp
  rw [noCandidate_counted]
  · have filled : ¬ (providerKeys view.keys provider).isEmpty = true := by simpa using some_
    rw [refusal, if_neg filled]
    by_cases disabled : (providerKeys view.keys provider).length ≤
      (scanKeys view weight provider exclude).disabledSeen +
        (scanKeys view weight provider exclude).excludedSeen ∧
      0 < (scanKeys view weight provider exclude).disabledSeen
    · rw [if_pos disabled, if_pos (off.mp disabled)]
    rw [if_neg disabled, if_neg fun all => disabled (off.mpr all), scanKeys_least, cooling, limited,
      unfunded]
    cases rows : standingRows view provider exclude .cooling with
    | cons first others =>
      rw [if_pos (by simp), List.map_cons, List.min?_cons']
    | nil =>
      rw [if_neg (by simp), List.map_nil, List.min?_nil]
      dsimp only
      cases standingRows view provider exclude .limited with
      | cons first others => rfl
      | nil =>
        cases standingRows view provider exclude .unfunded with
        | cons first others => rfl
        | nil => rfl
  · rw [excluded, disabled, cooling, unfunded, limited, ← total]
    simp only [standingRows] at free ⊢
    omega

theorem free_candidates : (∃ key ∈ providerKeys view.keys provider, Eligible view exclude key) ↔
    (scanKeys view weight provider exclude).candidates ≠ [] := by
  constructor
  · rintro ⟨key, listed, eligible⟩ none
    obtain ⟨score, member⟩ := eligible_candidate weight listed eligible
    rw [none] at member
    cases member
  · intro some_
    obtain ⟨candidate, member⟩ := List.exists_mem_of_ne_nil _ some_
    obtain ⟨key, listed, -, eligible⟩ := candidate_eligible member
    exact ⟨key, listed, eligible⟩

/-- With no free row the decision is the refusal. -/
theorem decision_refusal
    (held : ∀ key ∈ providerKeys view.keys provider, ¬ Eligible view exclude key) :
    decision view weight provider exclude = .error (refusal view provider exclude) := by
  have none : (scanKeys view weight provider exclude).candidates = [] := by
    by_contra some_
    obtain ⟨key, listed, eligible⟩ := free_candidates.mpr some_
    exact held key listed eligible
  unfold decision
  by_cases empty : providerKeys view.keys provider = []
  · rw [if_pos empty, refusal, if_pos (by simp [empty])]
    rfl
  rw [if_neg empty]
  have awake : ∀ key : KeyObject, (key.current.isActive &&
      !decide (PyText.lower key.current.status ∈ disabledStatuses)) = !isDisabled key.current := by
    intro key
    rw [isDisabled]
    cases key.current.isActive <;> rfl
  simp only [awake]
  by_cases off : ∀ key ∈ providerKeys view.keys provider, isDisabled key.current = true
  · have all : (providerKeys view.keys provider).all (fun key => isDisabled key.current) = true :=
      List.all_eq_true.mpr off
    rw [if_pos (by simpa using off), refusal, if_neg (by simpa using empty), if_pos (by simp [all])]
  · have enabled : ∃ key ∈ providerKeys view.keys provider, isDisabled key.current = false := by
      simpa using off
    rw [if_neg (by simpa using enabled)]
    simp only [none]
    rw [noCandidate_refusal empty enabled none]

/-- Surroundings in which the pool reads as `view` and every commit succeeds. -/
def Smooth (view : PoolView R) : Event (Op R) (Reply R) → Prop
  | ⟨.readPool _ _, reply⟩ => reply = some view
  | ⟨.commit _, reply⟩ => reply = true
  | _ => True

/-- What a selection returns on a reading. -/
def Answered (view : PoolView R) (provider : String) (exclude : List Nat)
    (result : Except Unselected (SelectedKey R)) : Prop :=
  ((∃ key ∈ providerKeys view.keys provider, Eligible view exclude key) →
    ∃ selected key, result = .ok selected ∧ key ∈ providerKeys view.keys provider ∧
      Eligible view exclude key ∧ selected.apiKey = (settled key).saved) ∧
  ((∀ key ∈ providerKeys view.keys provider, ¬ Eligible view exclude key) →
    ∃ unsaved, result = .error ⟨refusal view provider exclude, unsaved⟩)

theorem answered_ok {selected : SelectedKey R}
    (decided : decision view weight provider exclude = .ok selected) :
    Answered view provider exclude
      (.ok { selected with apiKey := selected.apiKey.saved }) := by
  obtain ⟨-, key, listed, chosen, eligible⟩ := decision_eligible decided
  constructor
  · intro _
    exact ⟨_, key, rfl, listed, eligible, congrArg KeyObject.saved chosen⟩
  · intro held
    exact absurd eligible (held key listed)

theorem answered_error {error : FcamError} (unsaved : List KeyObject)
    (decided : decision view weight provider exclude = .error error) :
    Answered view provider exclude (.error ⟨error, unsaved⟩) := by
  constructor
  · rintro ⟨key, listed, eligible⟩
    exact absurd eligible (decision_error_candidates decided listed)
  · intro held
    have same := decided.symm.trans (decision_refusal held)
    cases same
    exact ⟨unsaved, rfl⟩

/-- A selection returns what it decides on its reading. -/
def Decides (config : AppConfig R) (runtime : Option (RuntimeScheduling R)) (view : PoolView R)
    (provider : String) (exclude : List Nat)
    (outcome : Except Exn (Except Unselected (SelectedKey R))) : Prop :=
  (∃ error unsaved, decision view (weights config runtime) provider exclude = .error error ∧
    outcome = .ok (.error ⟨error, unsaved⟩)) ∨
  ∃ selected, decision view (weights config runtime) provider exclude = .ok selected ∧
    outcome = .ok (.ok { selected with apiKey := selected.apiKey.saved })

theorem select_decides {events : List (Event (Op R) (Reply R))}
    {outcome : Except Exn (Except Unselected (SelectedKey R))}
    (ran : Prog.Ran (select config runtime provider exclude) events outcome)
    (smooth : ∀ event ∈ events, Smooth view event) :
    Decides config runtime view provider exclude outcome := by
  let monitor : Prog.Monitor Unit (Op R) (Reply R) :=
    ⟨fun _ _ => True, fun _ event _ => Smooth view event⟩
  have followed : Prog.Follows monitor.moves () events () := by
    clear ran
    induction events with
    | nil => exact .nil
    | cons event events ih =>
      exact .cons (smooth event List.mem_cons_self)
        (ih fun other member => smooth other (List.mem_cons_of_mem _ member))
  have settles : ∀ selected : SelectedKey R,
      decision view (weights config runtime) provider exclude = .ok selected →
      ((query (.commit { site := .reactivate, keys := (scanKeys view (weights config runtime)
          provider exclude).reactivated })).bind fun written =>
        if written then (.done (.ok { selected with apiKey := selected.apiKey.saved }) :
            Gateway R (Except Unselected (SelectedKey R)))
        else (rollback selected.apiKey).bind fun _ => .done (.error { error := dbUnavailable })).wp
      monitor (fun outcome _ => Decides config runtime view provider exclude outcome) () := by
    intro selected decided
    refine ⟨trivial, ?_⟩
    rintro written last moved
    have succeeded : written = true := moved
    subst succeeded
    exact .inr ⟨selected, decided, rfl⟩
  have met : (select config runtime provider exclude).wp monitor
      (fun outcome _ => Decides config runtime view provider exclude outcome) () := by
    unfold select
    refine ⟨trivial, ?_⟩
    rintro found last moved
    have read : found = some view := moved
    subst read
    refine ⟨trivial, fun _ _ _ => ?_⟩
    dsimp only
    split
    · rename_i error decided
      exact .inl ⟨error, _, decided, rfl⟩
    · rename_i selected decided
      split
      · refine ⟨trivial, fun _ _ _ => ?_⟩
        exact settles selected decided
      · exact settles selected decided
  exact Prog.wp_ran ran followed met

/-- Soundness and completeness of a selection: whatever the rows, the clock, the stores, the
limiter and the draws, it returns a free row of the provider where there is one, and
otherwise the error that the standings of the rows decide. -/
theorem select_answers {events : List (Event (Op R) (Reply R))}
    {outcome : Except Exn (Except Unselected (SelectedKey R))}
    (ran : Prog.Ran (select config runtime provider exclude) events outcome)
    (smooth : ∀ event ∈ events, Smooth view event) :
    ∃ result, outcome = .ok result ∧ Answered view provider exclude result := by
  rcases select_decides ran smooth with ⟨error, unsaved, decided, rfl⟩ | ⟨selected, decided, rfl⟩
  · exact ⟨_, rfl, answered_error unsaved decided⟩
  · exact ⟨_, rfl, answered_ok decided⟩

/-- A pool of one key, which is cooling for a minute and a half. -/
def coldView : PoolView ℚ where
  keys := .single 7 { status := "cooling", cooldownUntil := some 90000000 }
  now := 0
  storeRemaining _ := none
  peek _ _ := none
  failures _ := none
  monotonic _ := 0
  cursor := 0
  roll := 0
  draw := 0

theorem coldView_ran (config : AppConfig ℚ) :
    Prog.Ran (select config none "firecrawl" [])
      [⟨.readPool "firecrawl" [], some coldView⟩, ⟨.keepFailures [], ()⟩]
      (.ok (.error { error := refusal coldView "firecrawl" [] })) := .ask (.ask .here)

/-- The pool's one key is cooling, and the caller is told for how long. -/
theorem coldView_answered : ∃ config : AppConfig ℚ, ∃ events outcome,
    Prog.Ran (select config none "firecrawl" []) events outcome ∧
      (∃ result, outcome = .ok result ∧ Answered coldView "firecrawl" [] result) ∧
      (refusal coldView "firecrawl" []).retryAfter = some 90 := by
  refine ⟨{}, _, _, coldView_ran {}, ?_, rfl⟩
  apply select_answers (coldView_ran {})
  intro event member
  rcases List.mem_cons.mp member with rfl | member
  · rfl
  · rw [List.mem_singleton.mp member]
    trivial

end FcamGateway.KeyPool
