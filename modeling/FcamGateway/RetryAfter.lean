import FcamGateway.Upstream

/-! How long a rate-limit answer asks its key to rest, and for how long the gateway can put it to
rest: it reads integers up to a number of digits only, and writes dates of a finite range. -/
namespace FcamGateway.RateLimitCooling
open Upstream

/-- The sign of an integer literal, and its digits. -/
def signedDigits : List Char → Option (Bool × List Nat)
  | '-' :: rest => (PyText.readDigits false rest).map fun digits => (true, digits)
  | '+' :: rest => (PyText.readDigits false rest).map fun digits => (false, digits)
  | rest => (PyText.readDigits false rest).map fun digits => (false, digits)

/-- The number that digits stand for. -/
def decimal (digits : List Nat) : Nat := digits.foldl (fun value digit => 10 * value + digit) 0

/-- The digits of a positive integer in the `Retry-After` header, however many they are. -/
def positiveDigits (headers : List (String × String)) : Option (List Nat) :=
  (header headers "retry-after").bind fun raw =>
    (signedDigits (PyText.stripChars raw.toList)).bind fun (negative, digits) =>
      if negative = false ∧ 0 < decimal digits then some digits else none

/-- The seconds that an answer asks for: the header's value if it is a positive integer, else the
configured cooldown. -/
def claimedSeconds (headers : List (String × String)) (configured : Int) : Int :=
  match positiveDigits headers with
  | some digits => decimal digits
  | none => configured

/-- A positive integer in the header has more digits than the language reads. -/
def Overlong (headers : List (String × String)) : Prop :=
  ∃ digits, positiveDigits headers = some digits ∧ PyText.maxStrDigits < digits.length

/-- A date that the language can write. -/
def Dated (date : Instant) : Prop := Instant.earliest ≤ date ∧ date ≤ Instant.latest

/-- The cooldown ends on a date, and a header too long to be read asks for no more than is
configured. -/
def Restable (configured : Int) (resp : UpstreamResponse) (now : Instant) : Prop :=
  (¬Overlong resp.headers ∧
    Dated (now + claimedSeconds resp.headers configured * Instant.second)) ∨
  (Overlong resp.headers ∧ claimedSeconds resp.headers configured ≤ configured ∧
    Dated (now + configured * Instant.second))

/-- How the language reads the header. -/
theorem readInt_eq (text : String) : PyText.readInt text =
    (signedDigits (PyText.stripChars text.toList)).bind fun (negative, digits) =>
      if digits.length ≤ PyText.maxStrDigits then
        some (if negative then -(decimal digits : Int) else decimal digits)
      else none := by
  have reads (rest : List Char) : PyText.readNat rest = (PyText.readDigits false rest).bind
      fun digits => if digits.length ≤ PyText.maxStrDigits then some (decimal digits) else none := by
    unfold PyText.readNat
    cases PyText.readDigits false rest <;> rfl
  have signed (negative : Bool) (rest : List Char) (sign : Int → Int)
      (same : ∀ n, sign n = if negative then -n else n) :
      (do let n ← PyText.readNat rest; pure (n : Int)).map sign =
        ((PyText.readDigits false rest).map
        fun digits => (negative, digits)).bind fun (negative, digits) =>
          if digits.length ≤ PyText.maxStrDigits then
            some (if negative then -(decimal digits : Int) else decimal digits)
          else none := by
    rw [reads]
    cases PyText.readDigits false rest with
    | none => rfl
    | some digits =>
      simp only [Option.bind_some, Option.map_some]
      split
      · exact congrArg some (same _)
      · rfl
  unfold PyText.readInt
  generalize PyText.stripChars text.toList = stripped
  split
  · exact signed true _ _ fun _ => rfl
  · exact signed false _ _ fun _ => rfl
  · rename_i minus plus
    have unsigned : signedDigits stripped =
        (PyText.readDigits false stripped).map fun digits => (false, digits) := by
      unfold signedDigits
      split
      · exact (minus _ rfl).elim
      · exact (plus _ rfl).elim
      · rfl
    rw [unsigned]
    exact signed false _ _ fun _ => rfl

/-- The cooldown that the gateway applies: the one that is asked for, if it can read it. -/
theorem cooldownSeconds_eq (headers : List (String × String)) (configured : Int) :
    (¬Overlong headers → cooldownSeconds headers configured = claimedSeconds headers configured) ∧
      (Overlong headers → cooldownSeconds headers configured = configured) := by
  unfold Overlong claimedSeconds positiveDigits cooldownSeconds parseRetryAfter
  cases header headers "retry-after" with
  | none => simp
  | some raw =>
    simp only [Option.bind_some]
    by_cases empty : raw = ""
    · subst empty
      have nothing : signedDigits (PyText.stripChars "".toList) = none := rfl
      rw [nothing]
      simp
    · rw [if_neg empty, readInt_eq]
      cases signedDigits (PyText.stripChars raw.toList) with
      | none => simp
      | some read =>
        obtain ⟨negative, digits⟩ := read
        simp only [Option.bind_some]
        by_cases short : digits.length ≤ PyText.maxStrDigits
        · rw [if_pos short, Option.map_some]
          cases negative with
          | true => simp [orDefault]
          | false =>
            by_cases positive : 0 < decimal digits
            · have other : decimal digits ≠ 0 := by omega
              simp [positive, orDefault, other, Nat.not_lt.mpr short]
            · have zero : decimal digits = 0 := by omega
              simp [zero, orDefault]
        · rw [if_neg short, Option.map_none]
          have long : PyText.maxStrDigits < digits.length := by omega
          by_cases positive : negative = false ∧ 0 < decimal digits
          · simp [positive, long]
          · simp [positive]

/-- What is restable can be put to rest, for long enough. -/
theorem restable_iff (configured : Int) (resp : UpstreamResponse) (now : Instant) :
    Restable configured resp now ↔
      claimedSeconds resp.headers configured ≤ cooldownSeconds resp.headers configured ∧
        Dated (now + cooldownSeconds resp.headers configured * Instant.second) := by
  obtain ⟨read, unread⟩ := cooldownSeconds_eq resp.headers configured
  unfold Restable
  by_cases overlong : Overlong resp.headers
  · simp [overlong, unread overlong]
  · simp [overlong, read overlong]

instance (date : Instant) : Decidable (Dated date) := inferInstanceAs (Decidable (_ ∧ _))

theorem addSeconds_dated (now : Instant) (seconds : Int) :
    now.addSeconds? seconds =
      if Dated (now + seconds * Instant.second) then some (now + seconds * Instant.second)
      else none := rfl

end FcamGateway.RateLimitCooling
