import Mathlib.Tactic.Linarith
import FcamGateway.DataPlaneCourse

/-! The wall clock behind the daily quota: the date in the configured zone, the
hint that a refusal gives, and when a client that follows the hint finds itself
in the next date. -/
namespace FcamGateway.DataPlane
open Prog

/-- A day of wall time. -/
def day : Int := 86400 * Instant.second

/-- A time zone: its offset from UTC in seconds at every instant. -/
structure Zone where
  offset : Instant → Int
  bounded : ∀ t, -86400 < offset t ∧ offset t < 86400

namespace Zone

def utc : Zone := ⟨fun _ => 0, fun _ => by decide⟩

/-- `datetime.now(tz)` without its zone. -/
def wall (zone : Zone) (t : Instant) : Int := t + zone.offset t * Instant.second

/-- `datetime.now(tz).date()` as a day number. -/
def date (zone : Zone) (t : Instant) : Int := zone.wall t / day

/-- The wall time that is left of the date. -/
def left (zone : Zone) (t : Instant) : Int := day - zone.wall t % day

end Zone

section
variable (zones : String → Option Zone)

/-- `_tzinfo`, where the library knows the zone. -/
def tzinfo (name : String) : Option Zone :=
  if name.toUpper = "UTC" then some .utc else zones name

/-- `today_in_timezone`. -/
def todayInTimezone (name : String) (t : Instant) : Option Int :=
  (tzinfo zones name).map fun zone => zone.date t

/-- `seconds_until_next_midnight`. Two times of one zone are subtracted as wall
times. The last day of the calendar, which has no next one, is left out. -/
def secondsUntilNextMidnight (name : String) (t : Instant) : Option Int :=
  (tzinfo zones name).map fun zone =>
    let now := zone.wall t
    let tomorrow := (now + day) / day
    let nextMidnight := tomorrow * day
    max (Instant.secondsBetween nextMidnight now) 0

end

variable {zones : String → Option Zone} {zone : Zone} {t : Instant}

theorem left_bounds (zone : Zone) (t : Instant) : 0 < zone.left t ∧ zone.left t ≤ day := by
  have positive : 0 < day := by decide
  have := Int.emod_nonneg (zone.wall t) positive.ne'
  have := Int.emod_lt_of_pos (zone.wall t) positive
  unfold Zone.left
  omega

/-- The hint is the wall time left, cut to whole seconds. -/
theorem secondsUntilNextMidnight_eq (found : tzinfo zones name = some zone) :
    secondsUntilNextMidnight zones name t = some (zone.left t / Instant.second) := by
  have positive : 0 < day := by decide
  have bounds := left_bounds zone t
  have ahead : (zone.wall t + day) / day * day - zone.wall t = zone.left t := by
    rw [Int.add_ediv_of_dvd_right (dvd_refl day), Int.ediv_self positive.ne', add_mul, one_mul]
    have split := Int.mul_ediv_add_emod (zone.wall t) day
    rw [mul_comm] at split
    unfold Zone.left
    omega
  simp only [secondsUntilNextMidnight, found, Option.map_some, Instant.secondsBetween, ahead]
  rw [Int.tdiv_eq_ediv_of_nonneg bounds.1.le, max_eq_left]
  exact Int.ediv_nonneg bounds.1.le (by decide)

/-- The date is later once the wall shows what was left. -/
theorem date_later_iff (u : Instant) :
    zone.date t < zone.date u ↔
      zone.left t ≤ u - t + (zone.offset u - zone.offset t) * Instant.second := by
  have positive : 0 < day := by decide
  have split := Int.mul_ediv_add_emod (zone.wall t) day
  have next : zone.date t < zone.date u ↔ (zone.date t + 1) * day ≤ zone.wall u :=
    Int.lt_iff_add_one_le.trans (Int.le_ediv_iff_mul_le positive)
  rw [next, add_mul, one_mul, mul_comm, Zone.date]
  unfold Zone.left Zone.wall at *
  rw [sub_mul]
  omega

/-- A client that waits as long as it is told finds a later date, and has not
waited for more than a second of it. -/
def HintHolds (zone : Zone) (t : Instant) (seconds : Int) : Prop :=
  zone.date t < zone.date (t + seconds * Instant.second) ∧
    ∀ u, t ≤ u → zone.date t < zone.date u → t + seconds * Instant.second ≤ u + Instant.second

/-- The offsets of the zone make up for the fraction that the hint drops, and
have not moved the wall past what was left of it more than a second before. -/
def OffsetsAllow (zone : Zone) (t : Instant) : Prop :=
  let fraction := zone.left t % Instant.second
  let end_ := t + zone.left t - fraction
  fraction ≤ (zone.offset end_ - zone.offset t) * Instant.second ∧
    ∀ u, t ≤ u → u + Instant.second < end_ →
      (zone.offset u - zone.offset t) * Instant.second < zone.left t - (u - t)

theorem hintHolds_iff : HintHolds zone t (zone.left t / Instant.second) ↔ OffsetsAllow zone t := by
  have whole : t + zone.left t / Instant.second * Instant.second =
      t + zone.left t - zone.left t % Instant.second := by
    have split := Int.mul_ediv_add_emod (zone.left t) Instant.second
    linarith
  unfold HintHolds OffsetsAllow
  simp only [whole, date_later_iff]
  apply and_congr
  · constructor <;> intro enough <;> linarith
  · apply forall_congr'
    intro u
    apply imp_congr_right
    intro _
    constructor
    · intro holds early
      by_contra moved
      linarith [holds (by linarith)]
    · intro holds later
      by_contra early
      linarith [holds (by linarith)]

/-- In a zone whose offset does not change within the day, the hint is right
exactly on whole seconds. -/
theorem steady_offsetsAllow_iff
    (steady : ∀ u, t ≤ u → u ≤ t + zone.left t → zone.offset u = zone.offset t) :
    OffsetsAllow zone t ↔ zone.left t % Instant.second = 0 := by
  have bounds := left_bounds zone t
  have positive : 0 < Instant.second := by decide
  have low := Int.emod_nonneg (zone.left t) positive.ne'
  have high : zone.left t % Instant.second ≤ zone.left t := by
    have split := Int.mul_ediv_add_emod (zone.left t) Instant.second
    have whole := mul_nonneg positive.le (Int.ediv_nonneg bounds.1.le positive.le)
    linarith
  have same := steady (t + zone.left t - zone.left t % Instant.second) (by linarith) (by linarith)
  simp only [OffsetsAllow, same, sub_self, zero_mul]
  constructor
  · rintro ⟨none, _⟩
    exact le_antisymm none low
  · intro none
    refine ⟨none.le, fun u later before => ?_⟩
    rw [steady u later (by linarith)]
    linarith

/-! ## The refusal that gives the hint -/

variable {R : Type}

/-- The replies of a clock that stands at `t`. -/
def ClockAt (zones : String → Option Zone) (t : Instant) :
    Event (DataOp R) (DataReply R) → Prop
  | ⟨.today name, reply⟩ => reply = todayInTimezone zones name t
  | ⟨.untilMidnight name, reply⟩ => reply = secondsUntilNextMidnight zones name t
  | _ => True

/-- The quota part of `enforce_client_governance` refuses a client at `t` and
tells it to retry after the given seconds. -/
def RefusedAt (R : Type) (zones : String → Option Zone) (quota : QuotaConfig) (t : Instant)
    (seconds : Int) : Prop :=
  ∃ (client : ClientObject) (events : DataEvents R),
    Ran (enforceQuota quota client) events (.error (.fcam (clientQuotaExceeded seconds))) ∧
      ∀ event ∈ events, ClockAt zones t event

abbrev clockwork (zones : String → Option Zone) (t : Instant) :
    Monitor Unit (DataOp R) (DataReply R) where
  demands _ _ := True
  moves _ event _ := ClockAt zones t event

theorem follows_clockwork {events : DataEvents R} (kept : ∀ event ∈ events, ClockAt zones t event) :
    Follows (clockwork zones t).moves () events () := by
  induction events with
  | nil => exact .nil
  | cons event events ih =>
    exact .cons (kept event (by simp)) (ih fun later member => kept later (by simp [member]))

theorem wp_told {post : Except Exn Value → Unit → Prop} (op : DataOp R)
    (rest : DataReply R op → Part R Value)
    (told : ∀ reply, ClockAt zones t ⟨op, reply⟩ → (rest reply).wp (clockwork zones t) post ()) :
    ((put op).bind rest).wp (clockwork zones t) post () :=
  ⟨trivial, fun reply _ kept => told reply kept⟩

/-- Whenever the quota part ends with its refusal, the hint is the clock's. -/
def HintFromClock (zones : String → Option Zone) (quota : QuotaConfig) (t : Instant)
    (outcome : Except Exn Value) (_ : Unit) : Prop :=
  ∀ seconds, outcome = .error (.fcam (clientQuotaExceeded seconds)) →
    secondsUntilNextMidnight zones quota.timezone t = some seconds

theorem unavailable_hint : HintFromClock zones quota t
    (.error (.fcam dbUnavailable) : Except Exn Value) () := by
  intro seconds same
  simp [dbUnavailable, clientQuotaExceeded] at same

theorem wp_releaseAnd_hint {error : FcamError} {client : ClientObject}
    (hint : HintFromClock zones quota t (.error (.fcam error) : Except Exn Value) ()) :
    (releaseAnd client error : Part R Value).wp (clockwork zones t)
      (HintFromClock zones quota t) () :=
  ⟨trivial, fun _ _ _ => hint⟩

theorem wp_quotaCheckFailed_hint {client : ClientObject} :
    (quotaCheckFailed client : Part R Value).wp (clockwork zones t)
      (HintFromClock zones quota t) () := by
  refine ⟨trivial, fun logged _ _ => ?_⟩
  cases logged with
  | true => exact wp_releaseAnd_hint unavailable_hint
  | false => exact fun seconds same => by cases same

theorem wp_enforceQuota_hint {client : ClientObject} :
    (enforceQuota quota client : Part R ClientObject).wp (clockwork zones t)
      (HintFromClock zones quota t) () := by
  have through (governed : ClientObject) :
      HintFromClock zones quota t (.ok governed) () := fun _ same => by cases same
  unfold enforceQuota commitReset
  cases client.current.dailyQuota with
  | none => exact through _
  | some dailyQuota =>
    dsimp only
    split
    · exact through _
    · refine wp_told _ _ fun today _ => ?_
      cases today with
      | none => exact wp_releaseAnd_hint unavailable_hint
      | some today =>
        dsimp only
        split
        · refine wp_told _ _ fun left told => ?_
          cases left with
          | none => exact wp_releaseAnd_hint unavailable_hint
          | some retryAfter =>
            have hint : HintFromClock zones quota t
                (.error (.fcam (clientQuotaExceeded retryAfter)) : Except Exn ClientObject) () := by
              intro seconds same
              obtain rfl : retryAfter = seconds := by simpa [clientQuotaExceeded] using same
              exact told.symm
            dsimp only
            split
            · refine wp_told _ _ fun written _ => ?_
              cases written with
              | true => exact wp_releaseAnd_hint hint
              | false =>
                refine wp_told _ _ fun undone _ => ?_
                cases undone with
                | true => exact wp_releaseAnd_hint hint
                | false => exact wp_quotaCheckFailed_hint
            · exact wp_releaseAnd_hint hint
        · split
          · refine wp_told _ _ fun written _ => ?_
            cases written with
            | true => exact through _
            | false => exact wp_quotaCheckFailed_hint
          · exact through _

/-- A client without any quota, counted on the given day. -/
def exhausted (today : Int) : ClientObject :=
  .fresh 1 { dailyQuota := some 0, quotaResetAt := some today }

theorem refusedAt_exhausted (checked : quota.enableQuotaCheck = true)
    (found : tzinfo zones quota.timezone = some zone) :
    RefusedAt R zones quota t (zone.left t / Instant.second) := by
  have dated : todayInTimezone zones quota.timezone t = some (zone.date t) := by
    simp [todayInTimezone, found]
  have hint := secondsUntilNextMidnight_eq (t := t) found
  refine ⟨exhausted (zone.date t), [⟨.today quota.timezone, some (zone.date t)⟩,
    ⟨.untilMidnight quota.timezone, some (zone.left t / Instant.second)⟩, ⟨.release 1, ()⟩], ?_, ?_⟩
  · simp only [enforceQuota, exhausted, ClientObject.fresh, checked, Bool.not_true,
      Bool.false_eq_true, ↓reduceIte]
    refine .ask ?_
    simp only [Prog.bind, ClientObject.assign, resetUsage, ↓reduceIte, le_refl]
    refine .ask ?_
    simp only [Prog.bind, ne_eq, not_true_eq_false, ↓reduceIte]
    exact .ask .here
  · simp [ClockAt, dated, hint]

theorem hint_of_refused (found : tzinfo zones quota.timezone = some zone)
    (refused : RefusedAt R zones quota t seconds) : seconds = zone.left t / Instant.second := by
  obtain ⟨client, events, ran, kept⟩ := refused
  have told := wp_ran ran (follows_clockwork kept) wp_enforceQuota_hint seconds rfl
  rw [secondsUntilNextMidnight_eq found] at told
  exact (Option.some.inj told).symm

/-- The hint of every quota refusal at an instant leads into the next date, and
not a second past its beginning, exactly when the offsets of the zone allow it. -/
theorem retry_hint_iff (R : Type) (zone : Zone) (t : Instant) :
    (∀ zones quota seconds, tzinfo zones quota.timezone = some zone →
      RefusedAt R zones quota t seconds → HintHolds zone t seconds) ↔ OffsetsAllow zone t := by
  rw [← hintHolds_iff]
  constructor
  · intro holds
    have known : tzinfo (fun _ => some zone) "local" = some zone := if_neg fun upper => by
      have spelled := congrArg String.toList upper
      simp [String.toUpper, String.toList_map] at spelled
    exact holds (fun _ => some zone) { timezone := "local", enableQuotaCheck := true } _ known
      (refusedAt_exhausted rfl known)
  · intro holds zones quota seconds found refused
    rw [hint_of_refused found refused]
    exact holds

/-- Half a second before midnight in UTC. -/
theorem retry_hint_short :
    RefusedAt ℚ (fun _ => none) { enableQuotaCheck := true } 86399500000 0 ∧
      ¬ HintHolds .utc 86399500000 0 := by
  have upper : "UTC".toUpper = "UTC" := by
    apply String.toList_inj.mp
    simp [String.toUpper, String.toList_map]
  have known : tzinfo (fun _ => none)
      ({ enableQuotaCheck := true } : QuotaConfig).timezone = some .utc := if_pos upper
  refine ⟨?_, fun holds => absurd holds.1 (by decide)⟩
  exact refusedAt_exhausted rfl known

end FcamGateway.DataPlane
