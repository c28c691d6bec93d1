import FcamGateway.Models
import Mathlib.Data.Int.Init

/-! The civil calendar. A day of an era of 400 years splits into centuries, spans of four years,
years and days; from the split the day of the year is read off, and that the day of the month counts
up by one until it starts again. So the first day of a month is the last one that the count started
at, and the first day of the next month comes after every day of this one. -/
namespace FcamGateway.Instant

/-- A day of an era as `century` hundreds of years, `span` fours, `year` years and `rest` days. -/
structure Split (day century span year rest : Int) : Prop where
  whole : day = 36524 * century + 1461 * span + 365 * year + rest
  century_nonneg : 0 ≤ century
  century_le : century ≤ 3
  span_nonneg : 0 ≤ span
  span_le : span ≤ 24
  year_nonneg : 0 ≤ year
  year_le : year ≤ 3
  rest_nonneg : 0 ≤ rest
  rest_le : rest ≤ 364 ∨ (rest = 365 ∧ year = 3 ∧ (span ≤ 23 ∨ century = 3))

def yearOfEra (day : Int) : Int := (day - day / 1460 + day / 36524 - day / 146096) / 365

def dayOfYear (day : Int) : Int :=
  day - (365 * yearOfEra day + yearOfEra day / 4 - yearOfEra day / 100)

/-- The day of the month of a day of a year that begins in March. -/
def dayOfMonth (day : Int) : Int := day - (153 * ((5 * day + 2) / 153) + 2) / 5 + 1

/-- The day of the month of a day number. -/
def monthDay (days : Int) : Int := dayOfMonth (dayOfYear ((days + 719468) % 146097))

theorem civil_day (days : Int) : (civil days).2.2 = monthDay days := rfl

variable {day century span year rest days : Int}

theorem split_exists (first : 0 ≤ day) (last : day ≤ 146096) :
    ∃ century span year rest, Split day century span year rest := by
  obtain ⟨century, inside, least, most, zero, whole, same⟩ : ∃ century inside, 0 ≤ century ∧
      century ≤ 3 ∧ 0 ≤ inside ∧ (inside ≤ 36523 ∨ (inside = 36524 ∧ century = 3)) ∧
        day = 36524 * century + inside :=
    ⟨min (day / 36524) 3, day - 36524 * min (day / 36524) 3, by omega, by omega, by omega, by omega,
      by omega⟩
  obtain ⟨span, within, low, high, begin_, end_, equal⟩ : ∃ span within, 0 ≤ span ∧ span ≤ 24 ∧
      0 ≤ within ∧ within ≤ 1460 ∧ inside = 1461 * span + within :=
    ⟨inside / 1461, inside % 1461, by omega, by omega, by omega, by omega, by omega⟩
  exact ⟨century, span, min (within / 365) 3, within - 365 * min (within / 365) 3,
    by omega, by omega, by omega, by omega, by omega, by omega, by omega, by omega, by omega⟩

theorem Split.yearOfEra (split : Split day century span year rest) :
    yearOfEra day = 100 * century + 4 * span + year := by
  obtain ⟨whole, _, _, _, _, _, _, _, short⟩ := split
  have spans : day / 1460 =
      25 * century + span + (24 * century + span + 365 * year + rest) / 1460 := by omega
  have carried : (24 * century + span + 365 * year + rest) / 1460 = 0 ∨
      (24 * century + span + 365 * year + rest) / 1460 = 1 := by omega
  have centuries : day / 36524 = century ∨ (day / 36524 = century + 1 ∧ day = 146096) := by omega
  have last : day / 146096 = 0 ∨ (day / 146096 = 1 ∧ day = 146096) := by omega
  unfold Instant.yearOfEra
  rcases carried with carried | carried <;> rcases centuries with centuries | centuries <;>
    rcases last with last | last <;> omega

theorem Split.dayOfYear (split : Split day century span year rest) : dayOfYear day = rest := by
  have number := split.yearOfEra
  obtain ⟨whole, _, _, _, _, _, _, _, _⟩ := split
  unfold Instant.dayOfYear
  omega

/-- The next day of an era is the next of its year or the first of a year. -/
theorem dayOfYear_succ (first : 0 ≤ day) (last : day + 1 ≤ 146096) :
    dayOfYear (day + 1) = dayOfYear day + 1 ∨ dayOfYear (day + 1) = 0 := by
  obtain ⟨century, span, year, rest, split⟩ := split_exists first (by omega)
  obtain ⟨number, part, place, left, next⟩ := split_exists (by omega) last
  rw [split.dayOfYear, next.dayOfYear]
  obtain ⟨whole, _, _, _, _, _, _, _, short⟩ := split
  obtain ⟨sum, _, _, _, _, _, _, _, brief⟩ := next
  have centuries : number = century ∨ number = century + 1 := by omega
  rcases centuries with rfl | rfl
  · have spans : part = span ∨ part = span + 1 := by omega
    rcases spans with rfl | rfl
    · omega
    · omega
  · omega

theorem dayOfMonth_range (day : Int) : 1 ≤ dayOfMonth day ∧ dayOfMonth day ≤ 31 := by
  unfold dayOfMonth
  omega

theorem dayOfMonth_succ (day : Int) :
    dayOfMonth (day + 1) = dayOfMonth day + 1 ∨ dayOfMonth (day + 1) = 1 := by
  have months : (5 * (day + 1) + 2) / 153 = (5 * day + 2) / 153 ∨
      (5 * (day + 1) + 2) / 153 = (5 * day + 2) / 153 + 1 := by omega
  unfold dayOfMonth
  rcases months with same | next
  · left
    rw [same]
    omega
  · right
    omega

theorem monthDay_range (days : Int) : 1 ≤ monthDay days ∧ monthDay days ≤ 31 :=
  dayOfMonth_range _

/-- The day of the month counts up by one until it starts again. -/
theorem monthDay_succ (days : Int) :
    monthDay (days + 1) = monthDay days + 1 ∨ monthDay (days + 1) = 1 := by
  have era : (days + 1 + 719468) % 146097 = (days + 719468) % 146097 + 1 ∨
      (days + 1 + 719468) % 146097 = 0 := by omega
  unfold monthDay
  rcases era with same | new
  · rw [same]
    have first : 0 ≤ (days + 719468) % 146097 := by omega
    have last : (days + 719468) % 146097 + 1 ≤ 146096 := by omega
    rcases dayOfYear_succ first last with next | start
    · rw [next]
      exact dayOfMonth_succ _
    · right
      rw [start]
      rfl
  · right
    rw [new]
    rfl

/-- The first day of the month of a day. -/
def firstOfMonth (days : Int) : Int := days - monthDay days + 1

theorem firstOfMonth_le (days : Int) : firstOfMonth days ≤ days := by
  have range := monthDay_range days
  unfold firstOfMonth
  omega

theorem firstOfMonth_mono {days later : Int} (since : days ≤ later) :
    firstOfMonth days ≤ firstOfMonth later := by
  induction later, since using Int.leInduction with
  | base => exact Int.le_refl _
  | succ day _ ih =>
    have range := monthDay_range day
    refine ih.trans ?_
    unfold firstOfMonth
    rcases monthDay_succ day with next | start <;> omega

/-- The count of the month starts at its first day. -/
theorem monthDay_firstOfMonth (days : Int) : monthDay (firstOfMonth days) = 1 := by
  suffices back : ∀ (count : Nat) (days : Int), monthDay days = count + 1 →
      monthDay (days - count) = 1 by
    have range := monthDay_range days
    have first := back (monthDay days - 1).toNat days (by omega)
    have same : days - ((monthDay days - 1).toNat : Int) = firstOfMonth days := by
      unfold firstOfMonth
      omega
    rwa [same] at first
  intro count
  induction count with
  | zero =>
    intro days start
    simpa using start
  | succ count ih =>
    intro days counted
    have step := monthDay_succ (days - 1)
    rw [Int.sub_add_cancel] at step
    have earlier := ih (days - 1) (by omega)
    have same : days - ((count + 1 : Nat) : Int) = days - 1 - count := by omega
    rwa [same]

/-- From the first day of a month on, 32 days lead into a later month. -/
theorem lt_firstOfMonth (days : Int) : days < firstOfMonth (firstOfMonth days + 32) := by
  by_contra early
  have later := firstOfMonth_mono (Int.not_lt.mp early)
  have start := monthDay_firstOfMonth (firstOfMonth days + 32)
  have range := monthDay_range (firstOfMonth days + 32)
  have same : firstOfMonth (firstOfMonth (firstOfMonth days + 32)) =
      firstOfMonth (firstOfMonth days + 32) := by
    rw [firstOfMonth, start]
    omega
  rw [same] at later
  unfold firstOfMonth at later
  unfold firstOfMonth at range
  omega

theorem lt_startOfNextMonth {instant next : Instant}
    (found : startOfNextMonth? instant = some next) : instant < next := by
  obtain ⟨moved, within, rfl⟩ := Option.map_eq_some_iff.mp found
  have place : startOfMonth instant = firstOfMonth (instant / dayLength) * dayLength := rfl
  have reached : moved = (firstOfMonth (instant / dayLength) + 32) * dayLength := by
    simp only [addSeconds?] at within
    split at within
    · cases within
      rw [place, Int.add_mul]
      rfl
    · cases within
  have positive : (0 : Int) < dayLength := by decide
  have later := lt_firstOfMonth (instant / dayLength)
  have start : startOfMonth moved =
      firstOfMonth (firstOfMonth (instant / dayLength) + 32) * dayLength := by
    rw [reached]
    unfold startOfMonth
    rw [Int.mul_ediv_cancel _ (by decide)]
    rfl
  rw [start]
  calc instant < (instant / dayLength + 1) * dayLength :=
        Int.lt_ediv_add_one_mul_self instant positive
    _ ≤ _ := Int.mul_le_mul_of_nonneg_right (by omega) positive.le

end FcamGateway.Instant
