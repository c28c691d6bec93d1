import FcamGateway.CooldownDebts

/-! Rate-limit answers over whole runs of a forward: what is owed is paid wherever the handling
of an answer is over, so the key rests as long as it was asked to, if that can be written. A
pinned key whose credits are never checked shows that nothing else is. -/
namespace FcamGateway.RateLimitCooling
open Prog Credits Upstream Forwarder KeyVerdicts

set_option linter.unusedSectionVars false

variable {R : Type} [Field R] [LinearOrder R] [ScoreMath R] {configured : Int}
  {resp : UpstreamResponse}

/-- The database may answer so, and accepts what it is given to write. -/
def accepting (store : Store) (event : Event (Op R) (Reply R)) (last : Store) : Prop :=
  store.moves event last ∧ Accepted event

/-- An event of the handling of an answer: no credit check refuses the key, and no other attempt
begins. -/
def Handling : Event (Op R) (Reply R) → Prop
  | ⟨.request _ _, _⟩ => False
  | ⟨.readPool _ _, _⟩ => False
  | ⟨.allow _ _, _⟩ => False
  | ⟨.probe _ _, reply⟩ => refusesKey reply = false
  | _ => True

/-- The handling of an answer is over: the program ends, or begins another attempt. -/
def Over : Gateway R Value → Prop
  | .ask (.request _ _) _ => True
  | .ask (.readPool _ _) _ => True
  | .ask (.allow _ _) _ => True
  | .ask _ _ => False
  | _ => True

/-- What the clock read last. -/
def lastReading : Exchange R → Option Instant
  | [] => none
  | ⟨.now, reading⟩ :: rest => (lastReading rest).or (some reading)
  | _ :: rest => lastReading rest

/-- Whenever a forward gets the response for a key that may rest, and the clock reads the instant
when the key is put to rest, the key is left cooling until the date that the response asks for. -/
def CoolsAlways (R : Type) [Field R] [LinearOrder R] [ScoreMath R] (configured : Int)
    (resp : UpstreamResponse) (now : Instant) : Prop :=
  ∀ (setup : Setup R) (call : Call) (store middle last : Store) (front handled : Exchange R)
    (id : Nat) (sent : UpstreamRequest) (left : Gateway R (ForwardResult R)),
    setup.config.cooldownSeconds = configured →
    Reaches (forward setup call) (front ++ ⟨.request id sent, .response resp⟩ :: handled) left →
    Follows accepting store front middle →
    Follows accepting middle (⟨.request id sent, .response resp⟩ :: handled) last →
    (middle.keys.get? id).any coolable = true → (∀ event ∈ handled, Handling event) → Over left →
    (∀ reading, lastReading handled = some reading → reading = now) →
    Rested last.keys id (restDate configured resp now)

/-- Along any exchange the monitor keeps what is owed. -/
theorem follows_limiting {store last : Store} {events : Exchange R}
    (followed : Follows accepting store events last) (owed : Option Owed) :
    ∃ after, Follows (limiting configured).moves (store, owed) events (last, after) := by
  induction followed generalizing owed with
  | nil => exact ⟨owed, .nil⟩
  | @cons store event middle events last moved _ ih =>
    obtain ⟨after, followed⟩ := ih (owe store owed event)
    have step : (limiting configured).moves (store, owed) event (middle, owe store owed event) :=
      ⟨moved.1, moved.2, rfl⟩
    exact ⟨after, .cons step followed⟩

/-- One event of the handling. -/
theorem owe_handling {store : Store} {debt : Owed} {event : Event (Op R) (Reply R)}
    (handling : Handling event) : owe store (some debt) event =
      some { debt with clock := (lastReading [event]).or debt.clock } := by
  obtain ⟨op, reply⟩ := event
  cases op with
  | request keyId sent => exact handling.elim
  | readPool provider exclude => exact handling.elim
  | allow keyId rate => exact handling.elim
  | probe keyId secret =>
    have fine : refusesKey reply = false := handling
    simp [owe, lastReading, fine]
  | _ => rfl

theorem lastReading_cons (event : Event (Op R) (Reply R)) (events : Exchange R) :
    lastReading (event :: events) = (lastReading events).or (lastReading [event]) := by
  obtain ⟨op, reply⟩ := event
  cases op <;> simp [lastReading]

/-- Over the handling the debt stands, with the clock as it was read last. -/
theorem owed_handling {debt : Owed} {handled : Exchange R} {state last : Store × Option Owed}
    (followed : Follows (limiting configured).moves state handled last)
    (handling : ∀ event ∈ handled, Handling event) (owes : state.2 = some debt) :
    last.2 = some { debt with clock := (lastReading handled).or debt.clock } := by
  induction followed generalizing debt with
  | nil => exact owes
  | @cons state event middle events last moved _ ih =>
    have next := moved.2.2
    rw [owes, owe_handling (handling _ List.mem_cons_self)] at next
    have more := ih (fun other listed => handling other (List.mem_cons_of_mem _ listed)) next
    have read := lastReading_cons event events
    rw [more, read, Option.or_assoc]

/-- Where the handling is over the key is paid. -/
theorem paid_of_over {left : Gateway R (ForwardResult R)} (settles : Settles configured left state)
    (finished : Over left) : Paid configured state := by
  cases left with
  | done result => exact settles
  | raise error => exact settles
  | ask op next =>
    have demands := settles.1
    cases op <;> first | exact demands | exact finished.elim

/-- What can be put to rest is. -/
theorem cools_of_restable {now : Instant} (limited : classifyUpstreamOutcome resp = .rateLimit)
    (restable : Restable configured resp now) : CoolsAlways R configured resp now := by
  rintro setup call store middle last front handled id sent left rfl reached before after coolable_
    handling finished reads
  obtain ⟨owed, early⟩ : ∃ owed, Follows (limiting setup.config.cooldownSeconds).moves
    (store, none) front (middle, owed) := follows_limiting before none
  obtain ⟨later, late⟩ := follows_limiting after owed
  have settles := wp_reaches reached ((follows_append _ _).mpr ⟨_, early, late⟩)
    (wp_forward setup call rfl)
  obtain _ | ⟨answered, handles⟩ := late
  have owes := answered.2.2.trans (if_pos ⟨limited, coolable_⟩)
  have debt := owed_handling handles handling owes
  obtain refused | ⟨reading, clock, rested⟩ := paid_of_over settles finished _ debt
  · cases refused
  · have clock : (lastReading handled).or none = some reading := clock
    rw [Option.or_none] at clock
    obtain rfl := reads reading clock
    exact rested restable

/-- A pinned key of the provider whose credits are never checked. -/
def exaRow : KeyColumns := { provider := "exa" }

def exaStore : Store := { keys := .single 1 exaRow, clients := .empty {} }

def exaSetup {R : Type} [Field R] (config : AppConfig R) (configured : Int) : Setup R :=
  { foreign := openCipher
    config := { config with
      cooldownSeconds := configured
      providers := { exa := { enabled := true, baseUrl := "", authMode := "x-api-key" } } }
    runtime := none, masterKey := some [] }

def exaCall : Call :=
  { requestId := "", client := ClientObject.fresh 1 { maxRetries := 0 }, method := "GET"
    upstreamPath := "/search", jsonBody := none, inboundHeaders := [], pinnedApiKeyId := some 1
    provider := "exa" }

/-- The exchange with the key up to its request. -/
def exaFront (R : Type) : Exchange R :=
  [⟨.findKey 1, some (some exaRow)⟩, ⟨.allow 1 exaRow.rateLimitPerMin, some (true, 0)⟩,
    ⟨.acquire 1 exaRow.maxConcurrent, some true⟩]

def exaRequest {R : Type} [Field R] (config : AppConfig R) (configured : Int) : UpstreamRequest :=
  upstreamRequest (exaSetup config configured) exaCall "secret"

/-- The exchange after the answer up to the cooldown. -/
def exaCheck (R : Type) [Field R] : Exchange R :=
  [⟨.release 1, ()⟩, ⟨.monotonic, 0⟩, ⟨.readFailure 1, none⟩,
    ⟨.keepFailures [(1, some (0 + 1, 0))], ()⟩]

/-- With a rate-limit answer the forward comes to the cooldown, and returns after it. -/
theorem exa_reaches (config : AppConfig R) {configured : Int} {events : Exchange R} {after : KeyObject}
    (limited : classifyUpstreamOutcome resp = .rateLimit)
    (ran : Ran (markCooling (KeyObject.fresh 1 exaRow) (cooldownSeconds resp.headers configured))
      events (.ok after)) :
    ∃ result, Reaches (forward (exaSetup config configured) exaCall) (exaFront R ++
      ⟨.request 1 (exaRequest config configured), .response resp⟩ :: (exaCheck R ++ events))
        (.done result) := by
  have whole : events = events ++ [] ++ [] ++ [] := by simp only [List.append_nil]
  apply Exists.intro
  change Reaches (.ask (Op.findKey 1) _) _ _
  apply Reaches.ask
  change Reaches (.ask (Op.allow 1 exaRow.rateLimitPerMin) _) _ _
  apply Reaches.ask
  change Reaches (.ask (Op.acquire 1 exaRow.maxConcurrent) _) _ _
  apply Reaches.ask
  change Reaches (.ask (Op.request 1 (exaRequest config configured)) _) _ _
  apply Reaches.ask
  change Reaches (.ask (Op.release 1) _) _ _
  apply Reaches.ask
  simp only [Prog.bind]
  rw [limited]
  change Reaches (.ask Op.monotonic _) _ _
  apply Reaches.ask
  change Reaches (.ask (Op.readFailure 1) _) _ _
  apply Reaches.ask
  change Reaches (.ask (Op.keepFailures [(1, some (0 + 1, 0))]) _) _ _
  apply Reaches.ask
  change Reaches (((((markCooling (KeyObject.fresh 1 exaRow)
    (cooldownSeconds resp.headers configured)).bind _).bind _).bind _)) events _
  rw [whole]
  exact reaches_bind (reaches_bind (reaches_bind ran .here) .here) .here

/-- The cooldown of the row object, where it ends on a date. -/
def exaCooled (seconds : Int) (now : Instant) : KeyObject :=
  (KeyObject.fresh 1 exaRow).assign fun columns =>
    { columns with status := "cooling", cooldownUntil := some (now + seconds * Instant.second) }

theorem exa_rests {seconds : Int} {now : Instant} (dated : Dated (now + seconds * Instant.second)) :
    Ran (markCooling (R := R) (KeyObject.fresh 1 exaRow) seconds)
      [⟨.now, now⟩, ⟨.commit { site := .cooling seconds, keys := [exaCooled seconds now] }, true⟩,
        ⟨.setCooldown 1 seconds, ()⟩] (.ok (exaCooled seconds now).saved) := by
  change Reaches (.ask Op.now _) _ _
  apply Reaches.ask
  simp only [Prog.bind]
  rw [addSeconds_dated, if_pos dated]
  exact .ask (.ask .here)

theorem exa_rolls_back {seconds : Int} {now : Instant}
    (undated : ¬Dated (now + seconds * Instant.second)) :
    Ran (markCooling (R := R) (KeyObject.fresh 1 exaRow) seconds)
      [⟨.now, now⟩, ⟨.reload 1, some exaRow⟩] (.ok (KeyObject.fresh 1 exaRow)) := by
  change Reaches (.ask Op.now _) _ _
  apply Reaches.ask
  simp only [Prog.bind]
  rw [addSeconds_dated, if_neg undated]
  exact .ask .here

/-- A cooldown that always rests the key can be written, and is long enough. -/
theorem restable_of_cools {now : Instant} (limited : classifyUpstreamOutcome resp = .rateLimit)
    (cools : CoolsAlways R configured resp now) : Restable configured resp now := by
  have front : Follows (accepting (R := R)) exaStore (exaFront R) exaStore :=
    .cons ⟨⟨rfl, .inr rfl⟩, trivial⟩ (.cons ⟨rfl, trivial⟩ (.cons ⟨rfl, trivial⟩ .nil))
  have check {events : Exchange R} {last : Store} (followed : Follows accepting exaStore events last) :
      Follows accepting exaStore (⟨.request 1 (exaRequest (R := R) {} configured), .response resp⟩ ::
        (exaCheck R ++ events)) last :=
    .cons ⟨rfl, trivial⟩ (.cons ⟨rfl, trivial⟩ (.cons ⟨rfl, trivial⟩ (.cons ⟨rfl, trivial⟩
      (.cons ⟨rfl, trivial⟩ followed))))
  have handles {events : Exchange R} (handling : ∀ event ∈ events, Handling event) :
      ∀ event ∈ exaCheck R ++ events, Handling event := by
    intro event listed
    rcases List.mem_append.mp listed with early | late
    · simp only [exaCheck, List.mem_cons, List.not_mem_nil, or_false] at early
      rcases early with rfl | rfl | rfl | rfl <;> trivial
    · exact handling event late
  have rested {events : Exchange R} {last : Store} {after : KeyObject}
      (ran : Ran (markCooling (KeyObject.fresh 1 exaRow) (cooldownSeconds resp.headers configured))
        events (.ok after)) (followed : Follows accepting exaStore events last)
      (handling : ∀ event ∈ events, Handling event)
      (reads : lastReading (exaCheck R ++ events) = some now) :
      Rested last.keys 1 (restDate configured resp now) := by
    obtain ⟨result, reached⟩ := exa_reaches {} limited ran
    apply cools _ _ _ _ _ _ _ _ _ _ rfl reached front (check followed) (by decide) (handles handling)
    · trivial
    · intro reading read
      exact Option.some.inj (read.symm.trans reads)
  apply (restable_iff configured resp now).mpr
  by_cases dated : Dated (now + cooldownSeconds resp.headers configured * Instant.second)
  · have present : exaStore.Present
        { site := .cooling (cooldownSeconds resp.headers configured)
          keys := [exaCooled (cooldownSeconds resp.headers configured) now] } := by
      intro key listed _
      rw [List.mem_singleton.mp listed]
      exact List.mem_singleton_self 1
    obtain ⟨row, until_, found, -, -, resting, enough⟩ := rested (exa_rests dated)
      (.cons ⟨.inl ⟨rfl, present, rfl⟩, rfl⟩ (.cons ⟨rfl, trivial⟩ .nil) |> .cons ⟨rfl, trivial⟩)
      (by simp [Handling]) rfl
    have flushed : (Store.flushKey exaStore.keys
        (exaCooled (cooldownSeconds resp.headers configured) now)).get? 1 =
          some (exaCooled (cooldownSeconds resp.headers configured) now).current :=
      Store.get_flushKey_loaded rfl
    cases found.symm.trans flushed
    cases resting
    have within := Int.le_of_add_le_add_left enough
    exact ⟨Int.le_of_mul_le_mul_right within (by decide), dated⟩
  · obtain ⟨row, until_, found, -, status, -⟩ := rested (exa_rolls_back dated)
      (.cons ⟨rfl, trivial⟩ (.cons ⟨⟨rfl, .inr rfl⟩, trivial⟩ .nil)) (by simp [Handling]) rfl
    have same : exaRow = row := Option.some.inj found
    rw [← same] at status
    exact absurd status (by decide)

/-- Rate-limit answers put their keys to rest for as long as they ask for exactly if the gateway
can read how long that is and write the date. -/
theorem cools_iff_restable {now : Instant} (limited : classifyUpstreamOutcome resp = .rateLimit) :
    CoolsAlways R configured resp now ↔ Restable configured resp now :=
  ⟨restable_of_cools limited, cools_of_restable limited⟩

/-- A rate-limit answer with the header given. -/
def limitedFor (retryAfter : String) : UpstreamResponse :=
  { statusCode := 429, headers := [("Retry-After", retryAfter)], content := [] }

/-- Two minutes are rested. -/
theorem two_minutes_rested : CoolsAlways ℚ 60 (limitedFor "120") 0 :=
  (cools_iff_restable (by decide +kernel)).mpr
    ((restable_iff _ _ _).mpr ⟨by decide +kernel, by decide +kernel⟩)

/-- A header that asks for more seconds than there are dates leaves its key as it was. -/
theorem endless_cooldown_lost : ¬ ∀ resp, classifyUpstreamOutcome resp = .rateLimit →
    CoolsAlways ℚ 60 resp 0 := by
  intro cools
  have limited : classifyUpstreamOutcome (limitedFor "999999999999") = .rateLimit := by
    decide +kernel
  have dated := ((restable_iff _ _ _).mp (restable_of_cools limited (cools _ limited))).2
  exact absurd dated (by decide +kernel)

end FcamGateway.RateLimitCooling
