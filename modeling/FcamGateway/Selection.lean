import FcamGateway.KeyPool
import Mathlib.Algebra.Order.Field.Rat

/-! What a selection can return: only a row of the provider that no part of the
filter loop rejects, as the loop left it. -/
namespace FcamGateway.KeyPool

private theorem headD_mem {near all : List Item} {best : Item}
    (subset : ∀ x ∈ near, x ∈ all) (member : best ∈ all) : near.headD best ∈ all := by
  cases near with
  | nil => exact member
  | cons first rest => exact subset first List.mem_cons_self

private theorem getD_mem {near all : List Item} {best : Item} {index : Nat}
    (subset : ∀ x ∈ near, x ∈ all) (member : best ∈ all) : near.getD index best ∈ all := by
  rw [List.getD_eq_getElem?_getD]
  cases found : near[index]? with
  | none => exact member
  | some item => exact subset item (List.mem_of_getElem? found)

set_option linter.unusedSectionVars false

variable {R : Type} [Field R] [LinearOrder R] [ScoreMath R]
  {view : PoolView R} {weight : Weights R} {provider : String} {exclude : List Nat}

/-- No test of the filter loop rejects the row. -/
structure Eligible (view : PoolView R) (exclude : List Nat) (key : KeyObject) : Prop where
  kept : key.id ∉ exclude
  enabled : isDisabled key.current = false
  rested : isCooling key.current = true → remainingSeconds view key ≤ 0
  funded : key.current.cachedRemainingCredits.any (· ≤ 0) = false
  allowed : rpmAllows view key.id key.current = true

/-- The row object as the loop passes it on. -/
def settled (key : KeyObject) : KeyObject :=
  if isCooling key.current then reactivate key else key

@[simp] theorem id_reactivate (key : KeyObject) : (reactivate key).id = key.id := rfl

@[simp] theorem id_settled (key : KeyObject) : (settled key).id = key.id := by
  simp only [settled]
  split <;> rfl

theorem loaded_settled (key : KeyObject) : (settled key).loaded = key.loaded := by
  simp only [settled]
  split <;> rfl

theorem cooling_reactivate (key : KeyObject) : isCooling (reactivate key).current = false := by
  by_cases cooling : PyText.lower key.current.status ∈ coolingStatuses
  · simp only [isCooling, reactivate, KeyObject.current_assign, if_pos cooling]
    decide
  · simp [isCooling, reactivate, cooling]

theorem mem_providerKeys {keys : Table KeyColumns} {key : KeyObject} :
    key ∈ providerKeys keys provider ↔ keys.get? key.id = some key.loaded ∧
      key.current = key.loaded ∧ key.loaded.provider = provider := by
  simp only [providerKeys, List.mem_map, List.mem_filter, decide_eq_true_eq, Prod.exists,
    Table.mem_entries]
  constructor
  · rintro ⟨id, columns, ⟨found, same⟩, rfl⟩
    exact ⟨found, rfl, same⟩
  · rintro ⟨found, current, same⟩
    refine ⟨key.id, key.loaded, ⟨found, same⟩, ?_⟩
    cases key
    simp_all [KeyObject.fresh]

private theorem consider_mem {scan : Scan R} {key : KeyObject} {candidate : R × KeyObject}
    (member : candidate ∈ (consider view weight scan key).candidates) :
    candidate ∈ scan.candidates ∨ (candidate.2 = key ∧
      key.current.cachedRemainingCredits.any (· ≤ 0) = false ∧
      rpmAllows view key.id key.current = true) := by
  simp only [consider] at member
  split at member
  · exact .inl member
  · rename_i funded
    split at member
    · exact .inl member
    · rename_i allowed
      split at member
      · exact .inl member
      · rcases List.mem_append.mp member with earlier | last
        · exact .inl earlier
        · cases List.mem_singleton.mp last
          exact .inr ⟨rfl, by simpa using funded, by simpa using allowed⟩

private theorem scanKey_mem {scan : Scan R} {key : KeyObject} {candidate : R × KeyObject}
    (member : candidate ∈ (scanKey view weight exclude scan key).candidates) :
    candidate ∈ scan.candidates ∨ (candidate.2 = settled key ∧ Eligible view exclude key) := by
  simp only [scanKey] at member
  split at member
  · exact .inl member
  · rename_i kept
    split at member
    · exact .inl member
    · rename_i enabled
      have enabled : isDisabled key.current = false := by simpa using enabled
      split at member
      · rename_i cooling
        split at member
        · exact .inl member
        · rename_i rested
          rcases consider_mem member with earlier | ⟨same, funded, allowed⟩
          · exact .inl earlier
          · refine .inr ⟨by rw [same, settled, if_pos cooling], ?_⟩
            exact ⟨kept, enabled, fun _ => not_lt.mp rested, funded, allowed⟩
      · rename_i cooling
        rcases consider_mem member with earlier | ⟨same, funded, allowed⟩
        · exact .inl earlier
        · refine .inr ⟨by rw [same, settled, if_neg cooling], ?_⟩
          exact ⟨kept, enabled, fun cooled => absurd cooled cooling, funded, allowed⟩

private theorem foldl_mem (keys : List KeyObject) {scan : Scan R} {candidate : R × KeyObject}
    (member : candidate ∈ (keys.foldl (scanKey view weight exclude) scan).candidates) :
    candidate ∈ scan.candidates ∨
      ∃ key ∈ keys, candidate.2 = settled key ∧ Eligible view exclude key := by
  induction keys generalizing scan with
  | nil => exact .inl member
  | cons key keys ih =>
    rcases ih member with earlier | ⟨other, listed, same, eligible⟩
    · rcases scanKey_mem earlier with before | ⟨same, eligible⟩
      · exact .inl before
      · exact .inr ⟨key, List.mem_cons_self, same, eligible⟩
    · exact .inr ⟨other, List.mem_cons_of_mem _ listed, same, eligible⟩

/-- Every candidate is an eligible row of the provider. -/
theorem candidate_eligible {candidate : R × KeyObject}
    (member : candidate ∈ (scanKeys view weight provider exclude).candidates) :
    ∃ key ∈ providerKeys view.keys provider,
      candidate.2 = settled key ∧ Eligible view exclude key := by
  rcases foldl_mem _ member with none | found
  · cases none
  · exact found

theorem pickWeighted_mem {draw acc : R} {near : List (R × KeyObject)}
    {picked : R × KeyObject} (found : pickWeighted draw acc near = some picked) :
    picked ∈ near := by
  induction near generalizing acc with
  | nil => cases found
  | cons first rest ih =>
    obtain ⟨score, key⟩ := first
    simp only [pickWeighted] at found
    split at found
    · cases found
      exact List.mem_cons_self
    · exact List.mem_cons_of_mem _ (ih found)

private theorem exploit_mem {first : R × KeyObject} {rest : List (R × KeyObject)} :
    exploit view weight first rest ∈ first :: rest := by
  simp only [exploit]
  split
  · exact List.mem_cons_self
  · rename_i best others sorted
    have sortedMem : ∀ x ∈ best :: others, x ∈ first :: rest := by
      intro x listed
      rw [← sorted] at listed
      exact (List.mem_insertionSort _).mp listed
    generalize filtered : (best :: others).filter
      (fun candidate => best.1 * weight.nearRatio ≤ candidate.1) = near
    have nearMem : ∀ x ∈ near, x ∈ first :: rest := by
      intro x listed
      rw [← filtered] at listed
      exact sortedMem x (List.mem_of_mem_filter listed)
    have top := headD_mem nearMem (sortedMem best List.mem_cons_self)
    split
    · exact top
    · split
      · exact top
      · generalize drawn : pickWeighted (R := R) _ _ near = picked
        cases picked with
        | none => exact top
        | some choice => exact nearMem _ (pickWeighted_mem drawn)

theorem choose_mem {first : R × KeyObject} {rest : List (R × KeyObject)} :
    (choose view weight first rest).1 ∈ first :: rest := by
  simp only [choose]
  split
  · exact getD_mem (fun x listed => (List.mem_insertionSort _).mp listed) List.mem_cons_self
  · exact exploit_mem

/-- What a selection returns is one of the candidates. -/
theorem decision_candidate {selected : SelectedKey R}
    (decided : decision view weight provider exclude = .ok selected) :
    selected.now = view.now ∧
      ∃ candidate ∈ (scanKeys view weight provider exclude).candidates, selected.apiKey = candidate.2 := by
  simp only [decision] at decided
  split at decided
  · cases decided
  · split at decided
    · cases decided
    · split at decided
      · cases decided
      · rename_i first rest candidates
        cases decided
        refine ⟨rfl, (choose view weight first rest).1, ?_, rfl⟩
        rw [candidates]
        exact choose_mem

/-- A selection returns an eligible row of the provider, with the cooldown that
ran out cleared. -/
theorem decision_eligible {selected : SelectedKey R}
    (decided : decision view weight provider exclude = .ok selected) :
    selected.now = view.now ∧ ∃ key ∈ providerKeys view.keys provider,
      selected.apiKey = settled key ∧ Eligible view exclude key := by
  obtain ⟨clock, candidate, member, chosen⟩ := decision_candidate decided
  obtain ⟨key, listed, same, eligible⟩ := candidate_eligible member
  exact ⟨clock, key, listed, chosen.trans same, eligible⟩

/-- The codes of a selection that finds no key. -/
def selectionCodes : List String :=
  ["NO_KEY_CONFIGURED", "ALL_KEYS_DISABLED", "ALL_KEYS_NO_CREDITS", "ALL_KEYS_COOLING",
   "ALL_KEYS_RATE_LIMITED", "NO_KEY_AVAILABLE"]

theorem decision_error {error : FcamError}
    (decided : decision view weight provider exclude = .error error) :
    error.code ∈ selectionCodes := by
  simp only [decision] at decided
  split at decided
  · cases decided
    simp [selectionCodes]
  · split at decided
    · cases decided
      simp [selectionCodes, allKeysDisabled]
    · split at decided
      · cases decided
        simp only [noCandidate]
        repeat' split
        all_goals simp [selectionCodes, allKeysDisabled]
      · cases decided

private theorem consider_reactivated (scan : Scan R) (key : KeyObject) :
    (consider view weight scan key).reactivated = scan.reactivated := by
  simp only [consider]
  split
  · rfl
  · split
    · rfl
    · split <;> rfl

/-- A candidate that lost its cooldown is among the row objects left to be written. -/
theorem candidate_written {candidate : R × KeyObject}
    (member : candidate ∈ (scanKeys view weight provider exclude).candidates) :
    candidate.2.current = candidate.2.loaded ∨
      candidate.2 ∈ (scanKeys view weight provider exclude).reactivated := by
  suffices fold : ∀ (keys : List KeyObject) (scan : Scan R),
      (∀ key ∈ keys, key.current = key.loaded) →
      (∀ candidate ∈ scan.candidates, candidate.2.current = candidate.2.loaded ∨
        candidate.2 ∈ scan.reactivated) →
      ∀ candidate ∈ (keys.foldl (scanKey view weight exclude) scan).candidates,
        candidate.2.current = candidate.2.loaded ∨
          candidate.2 ∈ (keys.foldl (scanKey view weight exclude) scan).reactivated by
    apply fold _ _ _ _ candidate member
    · exact fun key listed => (mem_providerKeys.mp listed).2.1
    · exact fun candidate none => absurd none List.not_mem_nil
  intro keys
  induction keys with
  | nil => exact fun scan _ held => held
  | cons first keys ih =>
    intro scan clean held
    apply ih _ fun key listed => clean key (List.mem_cons_of_mem _ listed)
    intro candidate member
    unfold scanKey at member ⊢
    split
    · rename_i excluded
      rw [if_pos excluded] at member
      exact held candidate member
    · rename_i included
      rw [if_neg included] at member
      split
      · rename_i disabled
        rw [if_pos disabled] at member
        exact held candidate member
      · rename_i enabled
        rw [if_neg enabled] at member
        split
        · rename_i cooling
          rw [if_pos cooling] at member
          dsimp only at member ⊢
          split
          · rename_i remaining
            rw [if_pos remaining] at member
            exact held candidate member
          · rename_i rested
            rw [if_neg rested] at member
            rw [consider_reactivated]
            rcases consider_mem member with earlier | ⟨same, -⟩
            · exact (held candidate earlier).imp_right (List.mem_append_left _)
            · rw [same]
              exact .inr (List.mem_append_right _ (List.mem_singleton_self _))
        · rename_i awake
          rw [if_neg awake] at member
          rw [consider_reactivated]
          rcases consider_mem member with earlier | ⟨same, -⟩
          · exact held candidate earlier
          · rw [same]
            exact .inl (clean first List.mem_cons_self)

/-- The row objects a selection leaves to be written are eligible apart from
their credits and limit: each lost a cooldown that had run out. -/
theorem reactivated_rested {key : KeyObject}
    (member : key ∈ (scanKeys view weight provider exclude).reactivated) :
    ∃ loaded ∈ providerKeys view.keys provider, key = reactivate loaded ∧
      loaded.id ∉ exclude ∧ isDisabled loaded.current = false ∧
      isCooling loaded.current = true ∧ remainingSeconds view loaded ≤ 0 := by
  suffices fold : ∀ (keys : List KeyObject) (scan : Scan R),
      key ∈ (keys.foldl (scanKey view weight exclude) scan).reactivated →
      key ∈ scan.reactivated ∨ ∃ loaded ∈ keys, key = reactivate loaded ∧
        loaded.id ∉ exclude ∧ isDisabled loaded.current = false ∧
        isCooling loaded.current = true ∧ remainingSeconds view loaded ≤ 0 by
    rcases fold _ _ member with none | found
    · cases none
    · exact found
  intro keys
  induction keys with
  | nil => exact fun scan member => .inl member
  | cons first keys ih =>
    intro scan member
    rcases ih _ member with earlier | ⟨loaded, listed, facts⟩
    · simp only [scanKey] at earlier
      split at earlier
      · exact .inl earlier
      · rename_i included
        split at earlier
        · exact .inl earlier
        · rename_i enabled
          split at earlier
          · rename_i cooling
            split at earlier
            · exact .inl earlier
            · rename_i rested
              rw [consider_reactivated] at earlier
              rcases List.mem_append.mp earlier with before | last
              · exact .inl before
              · refine .inr ⟨first, List.mem_cons_self, List.mem_singleton.mp last, included, ?_,
                  cooling, not_lt.mp rested⟩
                simpa using enabled
          · rw [consider_reactivated] at earlier
            exact .inl earlier
    · exact .inr ⟨loaded, List.mem_cons_of_mem _ listed, facts⟩

/-- `math.log1p` as a double at the default baseline of a key whose credits are
unknown. No failure is on record here, so no power of one half is taken. -/
instance : ScoreMath ℚ where
  log1p x := if x = 50 then 39318256327243257 / 10 ^ 16 else x
  halfPower _ := 1

end FcamGateway.KeyPool
