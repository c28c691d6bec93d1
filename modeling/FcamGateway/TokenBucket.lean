import Mathlib.Algebra.BigOperators.Ring.List
import Mathlib.Algebra.Order.Field.Basic
import Mathlib.Tactic.Linarith

/-! Token buckets over an ordered field, and how far a sequence of clock readings
moves. A bucket is refilled up to its capacity and then gives one token if it
holds one; it never gives more than it held and was refilled with. -/
namespace FcamGateway.TokenBucket

variable {K : Type} [Field K] [LinearOrder K]

/-- What a request leaves of a level. -/
def remaining (level : K) : K := if 1 ≤ level then level - 1 else level

/-- How many of the requests are granted that find the bucket refilled by `gains`. -/
def granted (capacity : K) : K → List K → Nat
  | _, [] => 0
  | tokens, gain :: gains =>
    let level := min capacity (tokens + gain)
    granted capacity (remaining level) gains + if 1 ≤ level then 1 else 0

/-- How far a clock that is read `late` after `early` has moved forward. -/
def ahead (early late : K) : K := max (late - early) 0

/-- What lies between each member of a list and the next. -/
def gaps {Member : Type} (gap : Member → Member → K) : List Member → List K
  | first :: second :: rest => gap first second :: gaps gap (second :: rest)
  | _ => []

/-- How far the readings move forward altogether. -/
def forward (readings : List K) : K := (gaps ahead readings).sum

/-- The distance of the least from the greatest reading. -/
def spread : List K → K
  | [] => 0
  | first :: later => later.foldl max first - later.foldl min first

theorem ahead_nonneg (early late : K) : 0 ≤ ahead early late := le_max_right _ _

theorem gaps_nonneg {Member : Type} {gap : Member → Member → K}
    (positive : ∀ first second, 0 ≤ gap first second) (members : List Member) :
    ∀ between ∈ gaps gap members, 0 ≤ between := by
  induction members with
  | nil => simp [gaps]
  | cons first later ih =>
    cases later with
    | nil => simp [gaps]
    | cons second rest =>
      intro between member
      rcases List.mem_cons.mp member with rfl | later
      · exact positive first second
      · exact ih between later

/-- One more reading adds its distance from the last. -/
theorem forward_concat {last : K} (readings : List K) (ends : readings.getLast? = some last)
    (late : K) : forward (readings ++ [late]) = forward readings + ahead last late := by
  induction readings with
  | nil => cases ends
  | cons first later ih =>
    cases later with
    | nil =>
      cases ends
      simp [forward, gaps]
    | cons second rest =>
      rw [List.getLast?_cons_cons] at ends
      have more := ih ends
      simp only [forward, List.cons_append, gaps, List.sum_cons] at more ⊢
      rw [more, add_assoc]

/-- The least reading is no later than the first. -/
theorem foldl_min_le {Reading : Type} [LinearOrder Reading] (first : Reading)
    (later : List Reading) : later.foldl min first ≤ first := by
  induction later generalizing first with
  | nil => exact le_refl first
  | cons second later ih => exact le_trans (ih _) (min_le_left first second)

variable [IsStrictOrderedRing K] {capacity tokens : K} {gains readings : List K}

theorem remaining_nonneg {level : K} (filled : 0 ≤ level) : 0 ≤ remaining level := by
  rw [remaining]
  split
  · rename_i enough
    linarith
  · exact filled

theorem granted_le (filled : 0 ≤ tokens) (positive : ∀ gain ∈ gains, 0 ≤ gain)
    (room : 0 ≤ capacity) : (granted capacity tokens gains : K) ≤ tokens + gains.sum := by
  induction gains generalizing tokens with
  | nil => simpa [granted] using filled
  | cons gain gains ih =>
    have here : 0 ≤ gain := positive gain List.mem_cons_self
    have filled : 0 ≤ min capacity (tokens + gain) := le_min room (by linarith)
    have level : min capacity (tokens + gain) ≤ tokens + gain := min_le_right _ _
    have rest := ih (remaining_nonneg filled)
      fun gain member => positive gain (List.mem_cons_of_mem _ member)
    rw [List.sum_cons, granted]
    by_cases enough : 1 ≤ min capacity (tokens + gain)
    · simp only [remaining, if_pos enough] at rest ⊢
      push_cast
      linarith
    · simp only [remaining, if_neg enough] at rest ⊢
      push_cast
      linarith

/-- Whatever the bucket held before the first of its requests, it grants no more than
its capacity and the refills between them. -/
theorem granted_remaining_le {level rate : K} (filled : 0 ≤ level) (room : level ≤ capacity)
    (steady : 0 ≤ rate) (positive : ∀ gain ∈ gains, 0 ≤ gain) :
    ((granted capacity (remaining level) (gains.map (· * rate)) +
      if 1 ≤ level then 1 else 0 : Nat) : K) ≤ capacity + gains.sum * rate := by
  have scaled : ∀ gain ∈ gains.map (· * rate), 0 ≤ gain := by
    intro gain member
    obtain ⟨base, listed, rfl⟩ := List.mem_map.mp member
    exact mul_nonneg (positive base listed) steady
  have rest := granted_le (remaining_nonneg filled) scaled (filled.trans room)
  rw [List.sum_map_mul_right, List.map_id'] at rest
  by_cases enough : 1 ≤ level
  · simp only [remaining, if_pos enough] at rest ⊢
    push_cast
    linarith
  · simp only [remaining, if_neg enough] at rest ⊢
    push_cast
    linarith

/-- Readings that never go back move forward by their spread. -/
theorem forward_of_ascending (ascending : readings.Pairwise (· ≤ ·)) :
    forward readings ≤ spread readings := by
  cases readings with
  | nil => simp [forward, gaps, spread]
  | cons first later =>
    have least : later.foldl min first ≤ first := foldl_min_le first later
    have greatest : forward (first :: later) = later.foldl max first - first := by
      clear least
      induction later generalizing first with
      | nil => simp [forward, gaps]
      | cons second later ih =>
        have order : first ≤ second := List.rel_of_pairwise_cons ascending List.mem_cons_self
        have rest := ih second ascending.of_cons
        simp only [forward, gaps, List.sum_cons] at rest ⊢
        rw [List.foldl_cons, max_eq_right order, rest, ahead, max_eq_left (by linarith)]
        linarith
    rw [greatest, spread]
    linarith

end FcamGateway.TokenBucket
