import FcamGateway.LogQueries
import FcamGateway.QuotaClock
import Mathlib.Data.List.Range

/-! The chart of the last day. Its hours are those of a clock on the wall, its labels are instants,
and a row is counted under the hour that the clock showed when it was written. -/
namespace FcamGateway.DashboardChart
open DataPlane (Zone)
open LogQueries (RequestLog validationError)

/-- A zone that also reads wall times. Of a time that the clock shows twice it takes the earlier
one, and a time that the clock skips keeps the offset from before. -/
structure ZoneInfo extends Zone where
  utcoffset : Int → Int
  first : ∀ time, ∃ t, (∀ u, u < t → toZone.wall u < time) ∧
    (toZone.wall t = time ∧ utcoffset time = offset t ∨
      time < toZone.wall t ∧ utcoffset time = offset (t - 1))

def hour : Int := 3600 * Instant.second

/-- `replace(minute=0, second=0, microsecond=0)`. -/
def hourOf (time : Int) : Int := time / hour * hour

/-- `astimezone(timezone.utc)`. A date that comes out of a sum has no fold, so it is the earlier
one of two. -/
def ZoneInfo.toUtc (zone : ZoneInfo) (time : Int) : Instant :=
  time - zone.utcoffset time * Instant.second

def endHour (zone : ZoneInfo) (now : Instant) : Int := hourOf (zone.wall now)

def startHour (zone : ZoneInfo) (now : Instant) : Int := endHour zone now - 23 * hour

/-- What the clock shows when a bucket starts. -/
def bucketHour (zone : ZoneInfo) (now : Instant) (i : Nat) : Int := startHour zone now + i * hour

def labelAt (zone : ZoneInfo) (now : Instant) (i : Nat) : Instant := zone.toUtc (bucketHour zone now i)

def pad (width : Nat) (number : Int) : String :=
  let text := (toString number.toNat).toList
  String.ofList (List.replicate (width - text.length) '0' ++ text)

/-- `isoformat` in UTC, with a `Z`, of an instant on a whole second. -/
def utcText (t : Instant) : String :=
  let seconds := t / Instant.second
  let date := Instant.civil (seconds / 86400)
  let clock := seconds % 86400
  pad 4 date.1 ++ "-" ++ pad 2 date.2.1 ++ "-" ++ pad 2 date.2.2 ++ "T" ++ pad 2 (clock / 3600) ++
    ":" ++ pad 2 (clock / 60 % 60) ++ ":" ++ pad 2 (clock % 60) ++ "Z"

structure Stored where
  clients : Table ClientColumns
  logs : Table RequestLog

/-- The rows that the query finds. -/
def Stored.rows (stored : Stored) (zone : ZoneInfo) (now : Instant) (clientId : Option Nat) :
    List RequestLog :=
  let startUtc := zone.toUtc (startHour zone now)
  let endExclusiveUtc := zone.toUtc (endHour zone now + hour)
  (stored.logs.entries.map Prod.snd).filter fun row =>
    startUtc ≤ row.createdAt && row.createdAt < endExclusiveUtc &&
      row.clientId.any (fun id => (stored.clients.get? id).any ClientColumns.isActive) &&
      clientId.all fun id => row.clientId = some id

/-- Both hours are of one zone, so their difference is that of the clock. -/
def bucketIndex (zone : ZoneInfo) (now createdAt : Instant) : Int :=
  (hourOf (zone.wall createdAt) - startHour zone now) / hour

structure Counts where
  success : List Nat
  failed : List Nat

/-- The body of the loop over the rows. -/
def Counts.row (zone : ZoneInfo) (now : Instant) (counts : Counts) (row : RequestLog) : Counts :=
  let idx := bucketIndex zone now row.createdAt
  if idx < 0 ∨ 24 ≤ idx then counts
  else if row.success = some true then
    { counts with success := counts.success.modify idx.toNat (· + 1) }
  else { counts with failed := counts.failed.modify idx.toNat (· + 1) }

def tally (zone : ZoneInfo) (now : Instant) (rows : List RequestLog) : Counts :=
  rows.foldl (Counts.row zone now) ⟨List.replicate 24 0, List.replicate 24 0⟩

structure Dataset where
  label : String
  color : String
  data : List Nat

structure Chart where
  range : String
  bucket : String
  tz : String
  labels : List String
  datasets : List Dataset

/-- `dashboard_chart`. Without what is stored the query raises. The first and the last day of the
calendar are left out. -/
def dashboardChart (zones : String → Option ZoneInfo) (now : Instant) (stored : Option Stored)
    (range bucket : String) (clientId : Option Nat) (tz : String) : Except FcamError Chart :=
  if range ≠ "24h" then .error (validationError "Unsupported range")
  else if bucket ≠ "hour" then .error (validationError "Unsupported bucket")
  else
    match zones tz with
    | none => .error (validationError "Invalid tz")
    | some zone =>
      match stored with
      | none => .error dbUnavailable
      | some stored =>
        let counts := tally zone now (stored.rows zone now clientId)
        .ok {
          range := "24h"
          bucket := "hour"
          tz
          labels := (List.range 24).map fun i => utcText (labelAt zone now i)
          datasets := [⟨"success", "#43e97b", counts.success⟩, ⟨"failed", "#f5576c", counts.failed⟩] }

/-- What both lines show for a bucket. -/
def Chart.count (chart : Chart) (i : Nat) : Nat :=
  (chart.datasets.map fun dataset => dataset.data.getD i 0).sum

def Chart.total (chart : Chart) : Nat := (chart.datasets.map fun dataset => dataset.data.sum).sum

variable {zone : ZoneInfo} {now t : Instant} {rows seen : List RequestLog}
  {counts : Counts} {i : Nat}

/-- The bucket of a row is that of the hour which the clock shows. -/
theorem bucketIndex_iff : bucketIndex zone now t = i ↔
    bucketHour zone now i ≤ zone.wall t ∧ zone.wall t < bucketHour zone now i + hour := by
  simp only [bucketIndex, bucketHour, startHour, endHour, hourOf, hour, Instant.second]
  omega

/-- A row has a bucket where the clock shows one of the hours. -/
theorem bucketIndex_range : 0 ≤ bucketIndex zone now t ∧ bucketIndex zone now t < 24 ↔
    startHour zone now ≤ zone.wall t ∧ zone.wall t < endHour zone now + hour := by
  simp only [bucketIndex, startHour, endHour, hourOf, hour, Instant.second]
  omega

theorem sum_modify (numbers : List Nat) (within : i < numbers.length) :
    (numbers.modify i (· + 1)).sum = numbers.sum + 1 := by
  induction numbers generalizing i with
  | nil => cases within
  | cons number numbers ih =>
    cases i with
    | zero =>
      simp
      omega
    | succ i =>
      have rest := ih (Nat.lt_of_succ_lt_succ within)
      simp [rest]
      omega

/-- What the counters hold after some rows. -/
structure Tallied (zone : ZoneInfo) (now : Instant) (rows : List RequestLog) (counts : Counts) :
    Prop where
  success : counts.success.length = 24
  failed : counts.failed.length = 24
  each : ∀ i < 24, counts.success.getD i 0 + counts.failed.getD i 0 =
    rows.countP fun row => bucketIndex zone now row.createdAt = i
  total : counts.success.sum + counts.failed.sum =
    rows.countP fun row => 0 ≤ bucketIndex zone now row.createdAt ∧
      bucketIndex zone now row.createdAt < 24

theorem getD_modify (numbers : List Nat) (place : Nat) (within : i < numbers.length) :
    (numbers.modify place (· + 1)).getD i 0 = numbers.getD i 0 + if place = i then 1 else 0 := by
  simp only [List.getD_eq_getElem?_getD, List.getElem?_modify, List.getElem?_eq_getElem within]
  split <;> rfl

theorem Tallied.row (tallied : Tallied zone now seen counts) (row : RequestLog) :
    Tallied zone now (seen ++ [row]) (counts.row zone now row) := by
  obtain ⟨success, failed, each, total⟩ := tallied
  simp only [Counts.row]
  split
  · rename_i outside
    refine ⟨success, failed, fun i within => ?_, ?_⟩
    · have other : bucketIndex zone now row.createdAt ≠ i := by omega
      simpa [List.countP_append, other] using each i within
    · have other : ¬(0 ≤ bucketIndex zone now row.createdAt ∧
          bucketIndex zone now row.createdAt < 24) := by omega
      rw [List.countP_append, List.countP_singleton, if_neg (by simpa using other)]
      exact total
  · rename_i inside
    obtain ⟨place, found⟩ : ∃ place : Nat, bucketIndex zone now row.createdAt = place :=
      Int.eq_ofNat_of_zero_le (by omega)
    have range : place < 24 := by omega
    -- Either line counts the row, in the one place.
    have more (i : Nat) : (seen ++ [row]).countP (fun row => bucketIndex zone now row.createdAt = i) =
        (seen.countP fun row => bucketIndex zone now row.createdAt = i) +
          if place = i then 1 else 0 := by
      simp [List.countP_append, found]
    have whole : (seen ++ [row]).countP (fun row => 0 ≤ bucketIndex zone now row.createdAt ∧
        bucketIndex zone now row.createdAt < 24) = counts.success.sum + counts.failed.sum + 1 := by
      rw [List.countP_append, ← total]
      simp [found, range]
    rw [found, Int.toNat_natCast]
    split
    · refine ⟨by simpa using success, failed, fun i within => ?_, ?_⟩ <;> dsimp only
      · rw [getD_modify _ _ (by omega), more, ← each i within]
        omega
      · rw [sum_modify _ (by omega), whole]
        omega
    · refine ⟨success, by simpa using failed, fun i within => ?_, ?_⟩ <;> dsimp only
      · rw [getD_modify _ _ (by omega), more, ← each i within]
        omega
      · rw [sum_modify _ (by omega), whole]
        omega

theorem Tallied.loop (rows : List RequestLog) (tallied : Tallied zone now seen counts) :
    Tallied zone now (seen ++ rows) (rows.foldl (Counts.row zone now) counts) := by
  induction rows generalizing seen counts with
  | nil => rwa [List.append_nil]
  | cons row rows ih =>
    rw [List.append_cons]
    exact ih (tallied.row row)

/-- The two lines together count the rows of each hour. -/
theorem tally_tallied (rows : List RequestLog) : Tallied zone now rows (tally zone now rows) := by
  have start : Tallied zone now [] ⟨List.replicate 24 0, List.replicate 24 0⟩ := by
    refine ⟨rfl, rfl, fun i within => ?_, rfl⟩
    rw [List.getD_eq_getElem?_getD, List.getElem?_replicate, if_pos within]
    rfl
  exact start.loop rows

/-- The buckets are what the labels say, and hold every row. -/
structure Truthful (zone : ZoneInfo) (now : Instant) (rows : List RequestLog) (chart : Chart) :
    Prop where
  labels : chart.labels = (List.range 24).map fun i => utcText (labelAt zone now i)
  increasing : ((List.range 24).map (labelAt zone now)).Pairwise (· < ·)
  counted : ∀ i < 24, chart.count i =
    rows.countP fun row => bucketIndex zone now row.createdAt = i
  once : ∀ row ∈ rows, ∃ i < 24, bucketIndex zone now row.createdAt = (i : Nat)
  within : ∀ row ∈ rows, ∀ i : Nat, i < 24 → bucketIndex zone now row.createdAt = i →
    labelAt zone now i ≤ row.createdAt ∧ row.createdAt < labelAt zone now i + hour
  total : chart.total = rows.length

/-- How far the clock has been moved at an instant since the start of an hour. -/
def moved (zone : ZoneInfo) (now : Instant) (i : Nat) (t : Instant) : Int :=
  (zone.offset t - zone.utcoffset (bucketHour zone now i)) * Instant.second

/-- From one hour to the next the clock is set forward by less than an hour. Where a row is written
the clock shows one of the hours; it has been set forward by no more than what it shows of this
hour, and back by less than what is left of it. -/
structure Aligned (zone : ZoneInfo) (now : Instant) (rows : List RequestLog) : Prop where
  hours : ∀ i < 23, (zone.utcoffset (bucketHour zone now (i + 1)) -
    zone.utcoffset (bucketHour zone now i)) * Instant.second < hour
  rows : ∀ row ∈ rows, ∃ i < 24,
    let past := zone.wall row.createdAt - bucketHour zone now i
    0 ≤ past ∧ past < hour ∧ moved zone now i row.createdAt ≤ past ∧
      past < hour + moved zone now i row.createdAt

theorem bucketHour_succ (i : Nat) : bucketHour zone now (i + 1) = bucketHour zone now i + hour := by
  simp only [bucketHour, hour, Instant.second]
  omega

/-- A label is as long before a row as the clock says, but for how far it has been moved. -/
theorem labelAt_eq (i : Nat) (t : Instant) :
    t - labelAt zone now i = zone.wall t - bucketHour zone now i - moved zone now i t := by
  rw [labelAt, ZoneInfo.toUtc, moved, Zone.wall, sub_mul]
  linarith

theorem labelAt_succ_iff : labelAt zone now i < labelAt zone now (i + 1) ↔
    (zone.utcoffset (bucketHour zone now (i + 1)) - zone.utcoffset (bucketHour zone now i)) *
      Instant.second < hour := by
  rw [labelAt, labelAt, ZoneInfo.toUtc, ZoneInfo.toUtc, bucketHour_succ, sub_mul]
  constructor <;> intro less <;> linarith

/-- Labels ascend where each is below the next one. -/
theorem labels_increasing_iff : ((List.range 24).map (labelAt zone now)).Pairwise (· < ·) ↔
    ∀ i < 23, labelAt zone now i < labelAt zone now (i + 1) := by
  rw [← List.isChain_iff_pairwise, List.isChain_map, List.isChain_range]

variable {zones : String → Option ZoneInfo} {stored : Stored} {range bucket tz : String}
  {clientId : Option Nat} {chart : Chart}

/-- What is drawn where nothing is refused. -/
theorem dashboardChart_ok (found : zones tz = some zone)
    (answered : dashboardChart zones now (some stored) range bucket clientId tz = .ok chart) :
    chart.labels = ((List.range 24).map fun i => utcText (labelAt zone now i)) ∧
      ∃ counts, Tallied zone now (stored.rows zone now clientId) counts ∧
        chart.datasets = [⟨"success", "#43e97b", counts.success⟩,
          ⟨"failed", "#f5576c", counts.failed⟩] := by
  rw [dashboardChart, found] at answered
  split at answered
  · cases answered
  · split at answered
    · cases answered
    · cases answered
      exact ⟨rfl, _, tally_tallied _, rfl⟩

/-- A row lies in its bucket where the clock has not been moved too far since the hour began. -/
theorem within_iff : labelAt zone now i ≤ t ∧ t < labelAt zone now i + hour ↔
    moved zone now i t ≤ zone.wall t - bucketHour zone now i ∧
      zone.wall t - bucketHour zone now i < hour + moved zone now i t := by
  have same := @labelAt_eq zone now i t
  constructor <;> rintro ⟨least, less⟩ <;> constructor <;> linarith

/-- The buckets hold what their labels say exactly where the offsets of the zone agree. -/
theorem truthful_iff (found : zones tz = some zone)
    (answered : dashboardChart zones now (some stored) range bucket clientId tz = .ok chart) :
    Truthful zone now (stored.rows zone now clientId) chart ↔
      Aligned zone now (stored.rows zone now clientId) := by
  obtain ⟨labels, counts, tallied, drawn⟩ := dashboardChart_ok found answered
  constructor
  · intro truthful
    refine ⟨fun i before => ?_, fun row member => ?_⟩
    · exact labelAt_succ_iff.mp (labels_increasing_iff.mp truthful.increasing i before)
    · obtain ⟨i, range, counted⟩ := truthful.once row member
      have shown := bucketIndex_iff.mp counted
      have past := within_iff.mp (truthful.within row member i range counted)
      exact ⟨i, range, by linarith, by linarith, past⟩
  · intro aligned
    have placed : ∀ row ∈ stored.rows zone now clientId, ∃ i < 24,
        bucketIndex zone now row.createdAt = (i : Nat) := by
      intro row member
      obtain ⟨i, range, least, less, _⟩ := aligned.rows row member
      exact ⟨i, range, bucketIndex_iff.mpr ⟨by linarith, by linarith⟩⟩
    refine ⟨labels, ?_, fun i range => ?_, placed, fun row member i range counted => ?_, ?_⟩
    · exact labels_increasing_iff.mpr fun i before => labelAt_succ_iff.mpr (aligned.hours i before)
    · rw [← tallied.each i range, Chart.count, drawn]
      simp
    · obtain ⟨other, _, least, less, past⟩ := aligned.rows row member
      have same : bucketIndex zone now row.createdAt = other :=
        bucketIndex_iff.mpr ⟨by linarith, by linarith⟩
      obtain rfl : i = other := by omega
      exact within_iff.mpr past
    · have total : chart.total = counts.success.sum + counts.failed.sum := by
        rw [Chart.total, drawn]
        simp
      rw [total, tallied.total, List.countP_eq_length]
      intro row member
      obtain ⟨i, range, counted⟩ := placed row member
      simp only [decide_eq_true_eq]
      omega

/-- A clock that has not been moved for two days reads a wall time with its one offset. -/
theorem utcoffset_steady {offset time : Int}
    (steady : ∀ t, time - offset * Instant.second - 2 * DataPlane.day ≤ t →
      t ≤ time - offset * Instant.second → zone.offset t = offset) : zone.utcoffset time = offset := by
  obtain ⟨t, before, reached⟩ := zone.first time
  have shows : time ≤ zone.wall t := by
    rcases reached with ⟨shown, _⟩ | ⟨skipped, _⟩
    · exact shown.ge
    · exact skipped.le
  have here := steady (time - offset * Instant.second)
    (by simp only [DataPlane.day, Instant.second]; omega) (le_refl _)
  have shown : zone.wall (time - offset * Instant.second) = time := by
    rw [Zone.wall, here]
    omega
  -- The clock shows the time here, so it has not shown it for the first time later.
  have early : t ≤ time - offset * Instant.second := by
    by_contra late
    have below := before _ (not_le.mp late)
    omega
  have bounds := zone.bounded t
  have limits := zone.bounded (time - offset * Instant.second)
  rw [here] at limits
  have recent : time - offset * Instant.second - 2 * DataPlane.day ≤ t := by
    simp only [Zone.wall, DataPlane.day, Instant.second] at shows ⊢
    omega
  have equal := steady t recent early
  rcases reached with ⟨_, same⟩ | ⟨skipped, _⟩
  · exact same.trans equal
  · rw [Zone.wall, equal] at skipped
    linarith

/-- On a day without a change of the clock, and the two days before, every row has its bucket. -/
theorem steady_aligned {offset : Int} (steady : ∀ t,
      startHour zone now - offset * Instant.second - 2 * DataPlane.day ≤ t →
      t ≤ endHour zone now + hour - offset * Instant.second → zone.offset t = offset)
    (stored : Stored) (clientId : Option Nat) : Aligned zone now (stored.rows zone now clientId) := by
  have hours (i : Nat) (range : i ≤ 24) : zone.utcoffset (bucketHour zone now i) = offset := by
    refine utcoffset_steady fun t least most => steady t ?_ ?_
    · simp only [bucketHour, hour, Instant.second] at least ⊢
      omega
    · simp only [bucketHour, startHour, hour, Instant.second] at most ⊢
      omega
  refine ⟨fun i before => ?_, fun row member => ?_⟩
  · rw [hours _ (by omega), hours _ (by omega), sub_self, zero_mul]
    decide
  · have last := hours 24 (le_refl _)
    have ends : bucketHour zone now 24 = endHour zone now + hour := by
      simp only [bucketHour, startHour, hour, Instant.second]
      omega
    have starts : bucketHour zone now 0 = startHour zone now := by simp [bucketHour]
    simp only [Stored.rows, List.mem_filter, Bool.and_eq_true, decide_eq_true_eq] at member
    obtain ⟨_, ⟨⟨since, upTo⟩, _⟩, _⟩ := member
    rw [ZoneInfo.toUtc, ← starts, hours 0 (by omega), starts] at since
    rw [ZoneInfo.toUtc, ← ends, last, ends] at upTo
    have same : zone.offset row.createdAt = offset := by
      refine steady _ ?_ upTo.le
      have positive : 0 < DataPlane.day := by decide
      linarith
    have shown : zone.wall row.createdAt = row.createdAt + offset * Instant.second := by
      rw [Zone.wall, same]
    have range := @bucketIndex_range zone now row.createdAt |>.mpr ⟨by linarith, by linarith⟩
    obtain ⟨i, found⟩ := Int.eq_ofNat_of_zero_le range.1
    have hourly := bucketIndex_iff.mp found
    have still : moved zone now i row.createdAt = 0 := by
      rw [moved, same, hours i (by omega), sub_self, zero_mul]
    exact ⟨i, by omega, by linarith, by linarith, by linarith, by linarith⟩

/-- An offset that changes once. -/
def changed (change before after t : Int) : Int := if t < change then before else after

variable {change before after time : Int}

theorem changed_early (early : t < change) : changed change before after t = before := if_pos early

theorem changed_late (late : ¬t < change) : changed change before after t = after := if_neg late

/-- The clock is moved where it shows the later of the two times at the change. -/
theorem changed_first (change before after time : Int) :
    ∃ t, (∀ u, u < t → u + changed change before after u * Instant.second < time) ∧
      (t + changed change before after t * Instant.second = time ∧
          changed (change + max before after * Instant.second) before after time =
            changed change before after t ∨
        time < t + changed change before after t * Instant.second ∧
          changed (change + max before after * Instant.second) before after time =
            changed change before after (t - 1)) := by
  have later : max before after * Instant.second =
      max (before * Instant.second) (after * Instant.second) := max_mul_of_nonneg _ _ (by decide)
  by_cases old : time < change + before * Instant.second
  · have here : time - before * Instant.second < change := by omega
    have moved : time < change + max before after * Instant.second := by omega
    refine ⟨time - before * Instant.second, fun u less => ?_, .inl ⟨?_, ?_⟩⟩
    · rw [changed_early (less.trans here)]
      omega
    · rw [changed_early here]
      omega
    · rw [changed_early here, changed_early moved]
  · by_cases skipped : time < change + after * Instant.second
    · have moved : time < change + max before after * Instant.second := by omega
      refine ⟨change, fun u less => ?_, .inr ⟨?_, ?_⟩⟩
      · rw [changed_early less]
        omega
      · rw [changed_late (lt_irrefl change)]
        exact skipped
      · rw [changed_early (sub_one_lt change), changed_early moved]
    · have here : ¬time - after * Instant.second < change := by omega
      have moved : ¬time < change + max before after * Instant.second := by omega
      refine ⟨time - after * Instant.second, fun u less => ?_, .inl ⟨?_, ?_⟩⟩
      · by_cases early : u < change
        · rw [changed_early early]
          omega
        · rw [changed_late early]
          omega
      · rw [changed_late here]
        omega
      · rw [changed_late here, changed_late moved]

/-- A zone whose clock is moved once. -/
def ZoneInfo.changing (change : Instant) (before after : Int)
    (early : -86400 < before ∧ before < 86400) (late : -86400 < after ∧ after < 86400) :
    ZoneInfo where
  offset := changed change before after
  bounded t := by
    unfold changed
    split
    · exact early
    · exact late
  utcoffset := changed (change + max before after * Instant.second) before after
  first := changed_first change before after

/-- Central Europe, around the end of summer time in 2024. -/
def autumn : ZoneInfo := .changing (1729990800 * Instant.second) 7200 3600 (by decide) (by decide)

/-- Central Europe, around the start of summer time in 2024. -/
def spring : ZoneInfo := .changing (1711846800 * Instant.second) 3600 7200 (by decide) (by decide)

/-- One client, and a row of its. -/
def logged (createdAt : Instant) : Stored where
  clients := .single 1 {}
  logs := .single 1
    { requestId := "r", clientId := some 1, endpoint := "scrape", method := "POST",
      success := some true, createdAt }

def charted (zone : ZoneInfo) (now createdAt : Instant) : Except FcamError Chart :=
  dashboardChart (fun _ => some zone) now (some (logged createdAt)) "24h" "hour" none "Europe/Berlin"

/-- A week before the clock is moved, a row of the last hour has its bucket. -/
theorem quiet_truthful : ∃ chart,
    charted autumn (1729341000 * Instant.second) (1729340000 * Instant.second) = .ok chart ∧
      Truthful autumn (1729341000 * Instant.second) ((logged (1729340000 * Instant.second)).rows autumn
        (1729341000 * Instant.second) none) chart := by
  obtain ⟨chart, drawn⟩ : ∃ chart,
      charted autumn (1729341000 * Instant.second) (1729340000 * Instant.second) = .ok chart := ⟨_, rfl⟩
  refine ⟨chart, drawn, (truthful_iff rfl drawn).mpr (@steady_aligned _ _ 7200 (fun t _ most => ?_) _ _)⟩
  exact changed_early (lt_of_le_of_lt most (by decide))

/-- Half past two shows twice. The second time, a row is counted under a label that is an hour and a
half before it. Half a year before, two buckets have one label. -/
theorem hours_misplaced :
    (∃ chart, charted autumn (1730032200 * Instant.second) (1729992600 * Instant.second) = .ok chart ∧
      chart.count 12 = 1 ∧ chart.labels[12]? = some "2024-10-27T00:00:00Z" ∧
      ¬Truthful autumn (1730032200 * Instant.second) ((logged (1729992600 * Instant.second)).rows autumn
        (1730032200 * Instant.second) none) chart) ∧
    ∃ chart, charted spring (1711888200 * Instant.second) (1711886400 * Instant.second) = .ok chart ∧
      chart.labels[11]? = some "2024-03-31T01:00:00Z" ∧
      chart.labels[12]? = some "2024-03-31T01:00:00Z" ∧
      ¬Truthful spring (1711888200 * Instant.second) ((logged (1711886400 * Instant.second)).rows spring
        (1711888200 * Instant.second) none) chart := by
  constructor
  · refine ⟨_, rfl, by decide +kernel, by decide +kernel, fun truthful => ?_⟩
    have listed : (logged (1729992600 * Instant.second)).rows autumn (1730032200 * Instant.second) none =
        [(logged (1729992600 * Instant.second)).logs.row 1] := rfl
    rw [listed] at truthful
    have placed := truthful.within _ List.mem_cons_self 12 (by decide) (by decide +kernel)
    exact absurd placed.2 (by decide +kernel)
  · refine ⟨_, rfl, by decide +kernel, by decide +kernel, fun truthful => ?_⟩
    have ascending := labels_increasing_iff.mp truthful.increasing 11 (by decide)
    exact absurd ascending (by decide +kernel)

end FcamGateway.DashboardChart
