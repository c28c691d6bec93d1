import FcamGateway.Forwarder
import FcamGateway.KeyStore
import FcamGateway.Selection
import Mathlib.Algebra.Order.Field.Rat
import Mathlib.Logic.Function.Basic
import Mathlib.Tactic.Linarith

/-! The threshold of transient failures: what the count of a key and the start
of its window say of the key's failures, over whole sequences of calls for many
keys. -/
namespace FcamGateway.Forwarder
open Prog Credits Upstream

set_option linter.unusedSectionVars false

/-! ## One key -/

variable {settings : FirecrawlConfig}

def Reached (settings : FirecrawlConfig) (entry : Option (Int × Instant)) (time : Instant) : Prop :=
  settings.failureThreshold ≤ (failureWindow settings entry time).1

instance : Decidable (Reached settings entry time) :=
  inferInstanceAs (Decidable (settings.failureThreshold ≤ (failureWindow settings entry time).1))

/-- Each failure with whether it reaches the threshold. -/
def verdicts (settings : FirecrawlConfig) :
    Option (Int × Instant) → List Instant → List (Instant × Bool)
  | _, [] => []
  | entry, time :: later =>
    (time, decide (Reached settings entry time)) ::
      verdicts settings (some (failureWindow settings entry time)) later

/-- The count is of failures since the start of the window, one of them at its
start. -/
def Counted (times : List Instant) : Option (Int × Instant) → Prop
  | none => times = []
  | some (count, first) =>
    first ∈ times ∧ 0 < count ∧ count ≤ (times.filter fun time => first ≤ time).length

/-- How many of the failures fall into an interval. -/
def within (first last : Instant) (times : List Instant) : Nat :=
  (times.filter fun time => first ≤ time ∧ time ≤ last).length

/-- No failure in the interval reaches the threshold. -/
def Spared (settings : FirecrawlConfig) (first last : Instant) (entry : Option (Int × Instant))
    (times : List Instant) : Prop :=
  ∀ verdict ∈ verdicts settings entry times, first ≤ verdict.1 → verdict.1 ≤ last →
    verdict.2 = false

section
variable {first last : Instant} {times : List Instant}
  (short : last - first ≤ settings.failureWindowSeconds * Instant.second)
include short

end

/-! ## Runs over many keys -/

variable {R : Type} [Field R] [LinearOrder R] [ScoreMath R]

/-- The clock of one call and the memory of windows, which no other key's calls
and nothing else reaches. -/
def windowMoves (time : Instant) (windows : Nat → Option (Int × Instant)) :
    Event (Op R) (Reply R) → (Nat → Option (Int × Instant)) → Prop
  | ⟨.now, reply⟩, after => reply = time ∧ after = windows
  | ⟨.readWindow id, reply⟩, after => reply = windows id ∧ after = windows
  | ⟨.keepWindow id count firstAt, _⟩, after =>
    after = Function.update windows id (some (count, firstAt))
  | _, after => after = windows

/-- The call sets the status `failed`: it asks to commit the row with it, or
rolls it back because the end of the cooldown is no date. -/
def marksFailed (events : List (Event (Op R) (Reply R))) : Bool :=
  events.any fun
    | ⟨.commit batch, _⟩ => batch.keys.any (·.current.status = "failed")
    | ⟨.reload _, _⟩ => true
    | _ => false

theorem marksFailed_append (front back : List (Event (Op R) (Reply R))) :
    marksFailed (front ++ back) = (marksFailed front || marksFailed back) := List.any_append

/-- The score's own memory is none of the windows. -/
theorem wp_scoreFailure {time : Instant} {windows : Nat → Option (Int × Instant)} (keyId : Nat)
    (reason : String) (statusCode : Option Int) :
    (KeyPool.recordFailure keyId reason statusCode : Gateway R Unit).wp
      (.logging (windowMoves time))
      (fun outcome after => outcome = .ok () ∧ after.1 = windows ∧ marksFailed after.2 = false)
      (windows, []) := by
  unfold KeyPool.recordFailure
  split
  · refine (wp_logged _ _).mpr fun now _ moved => ?_
    obtain rfl := moved
    refine (wp_logged _ _).mpr fun entry _ moved => ?_
    obtain rfl := moved
    refine (wp_logged _ _).mpr fun kept _ moved => ?_
    obtain rfl := moved
    exact ⟨rfl, rfl, rfl⟩
  · exact ⟨rfl, rfl, rfl⟩

theorem wp_rollback_marked {time : Instant} {windows : Nat → Option (Int × Instant)}
    (key : KeyObject) (seen : List (Event (Op R) (Reply R))) :
    (rollback key : Gateway R KeyObject).wp (.logging (windowMoves time))
      (fun _ after => after.1 = windows ∧ marksFailed after.2 = true) (windows, seen) := by
  refine (wp_logged _ _).mpr fun row _ moved => ?_
  obtain rfl := moved
  have marked : marksFailed (seen ++ [(⟨.reload key.id, row⟩ : Event (Op R) (Reply R))]) = true := by
    rw [marksFailed_append]
    exact Bool.or_true _
  cases row <;> exact ⟨rfl, marked⟩

theorem wp_commitKey_marked {time : Instant} {windows : Nat → Option (Int × Instant)}
    {key : KeyObject} (failed : key.current.status = "failed")
    (seen : List (Event (Op R) (Reply R))) :
    (commitKey .failed key : Gateway R KeyObject).wp (.logging (windowMoves time))
      (fun _ after => after.1 = windows ∧ marksFailed after.2 = true) (windows, seen) := by
  refine (wp_logged _ _).mpr fun written _ moved => ?_
  obtain rfl := moved
  cases written with
  | true =>
    refine ⟨rfl, ?_⟩
    rw [marksFailed_append]
    simp [marksFailed, failed]
  | false => exact wp_rollback_marked key _

/-- What one call does: the key's window moves, and the key is marked exactly
where its count reaches the threshold. -/
theorem wp_recordFailure {setup : Setup R} {key : KeyObject} {time : Instant}
    {windows : Nat → Option (Int × Instant)}
    (enabled : key.current.isActive = true ∧ key.current.status ≠ "disabled")
    (reason : String) (statusCode : Option Int) :
    (recordFailure setup key reason statusCode).wp (.logging (windowMoves time))
      (fun _ after =>
        after.1 = Function.update windows key.id
          (some (failureWindow setup.config.firecrawl (windows key.id) time)) ∧
        (marksFailed after.2 = true ↔ Reached setup.config.firecrawl (windows key.id) time))
      (windows, []) := by
  unfold recordFailure
  rw [if_neg (by simp [enabled])]
  refine (wp_bind _).mpr (wp_mono ?_ (wp_scoreFailure key.id reason statusCode))
  rintro outcome ⟨standing, seen⟩ ⟨rfl, rfl, clean⟩
  refine (wp_logged _ _).mpr fun now after moved => ?_
  obtain ⟨rfl, same⟩ := moved
  rw [same]
  refine (wp_logged _ _).mpr fun entry after moved => ?_
  obtain ⟨rfl, same⟩ := moved
  rw [same]
  refine (wp_logged _ _).mpr fun kept after moved => ?_
  rw [show after = Function.update standing key.id (some _) from moved]
  replace clean : marksFailed (seen ++ [(⟨.now, now⟩ : Event (Op R) (Reply R))] ++
      [⟨.readWindow key.id, standing key.id⟩] ++ [⟨.keepWindow key.id _ _, kept⟩]) = false := by
    rw [marksFailed_append, marksFailed_append, marksFailed_append, show marksFailed seen = false from clean]
    rfl
  dsimp only [Prog.bind]
  split
  case isTrue below =>
    exact ⟨rfl, iff_of_false (by simpa using clean) (not_le.mpr below)⟩
  case isFalse enough =>
    have reached : Reached setup.config.firecrawl (standing key.id) now := not_lt.mp enough
    split
    · refine wp_mono ?_ (wp_rollback_marked key _)
      exact fun _ after marked => ⟨marked.1, iff_of_true marked.2 reached⟩
    · refine wp_mono ?_ (wp_commitKey_marked rfl _)
      exact fun _ after marked => ⟨marked.1, iff_of_true marked.2 reached⟩

/-- One call for an enabled key, at its instant, with all that it asked. -/
structure FailureCall (R : Type) where
  key : KeyObject
  reason : String
  statusCode : Option Int
  time : Instant
  events : List (Event (Op R) (Reply R))
  outcome : Except Exn KeyObject

variable {setup : Setup R} {windows final : Nat → Option (Int × Instant)}
  {calls : List (FailureCall R)}

/-- The calls happen one after the other. -/
def InOrder (calls : List (FailureCall R)) : Prop :=
  calls.Pairwise fun earlier later => earlier.time ≤ later.time

end FcamGateway.Forwarder
