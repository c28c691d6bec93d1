import FcamGateway.DataPlaneCourse

/-! The daily quota of a client over a sequential run of its requests: how many requests of a day
can succeed, and when a request is refused for the quota. -/
namespace FcamGateway.DataPlane
open Prog Credits Upstream Forwarder ForwardEffects

set_option linter.unusedSectionVars false

variable {R : Type} [Field R] [LinearOrder R] [ScoreMath R]

/-- A request that was served, with its exchange and its end. -/
structure Served (R : Type) where
  request : ProxyRequest
  events : DataEvents R
  outcome : Except Exn (Option UpstreamResponse)

/-- Requests of one client, each begun with the row that the one before it left, in which every
commit succeeded. -/
inductive Sequential (setup : Setup R) (id : Nat) :
    ClientColumns → List (Served R) → ClientColumns → Prop where
  | nil : Sequential setup id row [] row
  | cons (served : Served R)
      (ran : (serve setup served.request (ClientObject.fresh id row)).Ran served.events
        served.outcome)
      (committed : ¬ Faulted (database served.events))
      (rest : Sequential setup id (rowAfter id row served.events) later last) :
      Sequential setup id row (served :: later) last

/-- The requests of the day that were admitted and succeeded. -/
def successes (run : List (Served R)) (day : Int) : Nat :=
  run.countP fun served =>
    dayOf served.events = some day && admitted served.events && succeeded served.events

/-- The request was refused for the quota on the day. -/
def RefusedOn (served : Served R) (day : Int) : Prop :=
  dayOf served.events = some day ∧ admitted served.events = false ∧
    ∃ retryAfter, served.outcome = .error (.fcam (clientQuotaExceeded retryAfter))

/-- The quota is a cap on every day, and no request is refused for it on a new day before that many
requests of the day have succeeded. -/
structure Caps (quota : Int) (start : ClientColumns) (run : List (Served R)) : Prop where
  capped : ∀ day, (successes run day : Int) ≤ quota
  fair : ∀ front served back day, run = front ++ served :: back → RefusedOn served day →
    start.quotaResetAt ≠ some day → quota ≤ 0 ∨ quota ≤ successes front day

variable {setup : Setup R} {id : Nat} {row start : ClientColumns} {quota : Int}
  {front : List (Served R)} {served : Served R}

/-- What holds after requests of a client, by the row that they leave. -/
structure Kept (setup : Setup R) (quota : Int) (start : ClientColumns) (front : List (Served R))
    (row : ClientColumns) : Prop where
  limited : row.dailyQuota = some quota
  grown : 0 ≤ row.dailyUsage
  past : ∀ served ∈ front, admitted served.events = true → ∀ day, dayOf served.events = some day →
    ∃ latest ∈ front, ∃ current, dayOf latest.events = some current ∧
      row.quotaResetAt = some current ∧ day ≤ current
  fair : ∀ day, row.quotaResetAt = some day → start.quotaResetAt ≠ some day →
    row.dailyUsage ≤ successes front day
  counts : setup.config.quota.countMode = "success" → ∀ day, row.quotaResetAt = some day →
    (successes front day : Int) ≤ row.dailyUsage
  capped : setup.config.quota.countMode = "success" → ∀ day, (successes front day : Int) ≤ quota
  unspent : quota ≤ 0 → ∀ day, successes front day = 0

theorem successes_snoc (front : List (Served R)) (served : Served R) (day : Int) :
    successes (front ++ [served]) day = successes front day +
      if dayOf served.events = some day ∧ admitted served.events = true ∧
        succeeded served.events = true then 1 else 0 := by
  simp only [successes, List.countP_append, List.countP_singleton, Bool.and_eq_true,
    decide_eq_true_eq, and_assoc]

theorem successes_outside (outside : admitted served.events = false) (day : Int) :
    successes (front ++ [served]) day = successes front day := by
  rw [successes_snoc, if_neg fun counts => Bool.false_ne_true (outside.symm.trans counts.2.1)]
  rfl

theorem resetUsage_grown (today : Int) (grown : 0 ≤ row.dailyUsage) :
    0 ≤ (resetUsage today row).dailyUsage := by
  simp only [resetUsage]
  split
  · exact grown
  · exact le_refl 0

/-- No request of the day was admitted before the usage is counted anew on it. -/
theorem Kept.unseen (kept : Kept setup quota start front row) {today : Int}
    (ordered : ∀ earlier ∈ front, ∀ day, dayOf earlier.events = some day → day ≤ today)
    (renewed : row.quotaResetAt ≠ some today) : successes front today = 0 := by
  refine List.countP_eq_zero.mpr fun served member counts => renewed ?_
  simp only [Bool.and_eq_true, decide_eq_true_eq] at counts
  obtain ⟨⟨day, inside⟩, _⟩ := counts
  obtain ⟨latest, listed, current, dated, reset, later⟩ := kept.past served member inside today day
  have earlier := ordered latest listed current dated
  rw [reset, le_antisymm earlier later]

/-- The usage of the day against the requests of the day, once it is counted on it. -/
theorem Kept.reset (kept : Kept setup quota start front row) {today : Int}
    (ordered : ∀ earlier ∈ front, ∀ day, dayOf earlier.events = some day → day ≤ today) :
    (start.quotaResetAt ≠ some today → (resetUsage today row).dailyUsage ≤ successes front today) ∧
      (setup.config.quota.countMode = "success" →
        (successes front today : Int) ≤ (resetUsage today row).dailyUsage) := by
  simp only [resetUsage]
  split
  · rename_i current
    exact ⟨kept.fair today current, fun mode => kept.counts mode today current⟩
  · rename_i renewed
    have none := kept.unseen ordered renewed
    constructor
    · intro _
      simp [none]
    · intro _
      simp [none]

/-- A row whose usage is counted on the day of the latest request. -/
theorem latest_past {next : ClientColumns} {today : Int}
    (ordered : ∀ earlier ∈ front, ∀ day, dayOf earlier.events = some day → day ≤ today)
    (dated : dayOf served.events = some today) (counted : next.quotaResetAt = some today)
    {earlier : Served R} (member : earlier ∈ front ++ [served]) {day : Int}
    (known : dayOf earlier.events = some day) :
    ∃ latest ∈ front ++ [served], ∃ current, dayOf latest.events = some current ∧
      next.quotaResetAt = some current ∧ day ≤ current := by
  refine ⟨served, List.mem_append_right _ (List.mem_singleton_self _), today, dated, counted, ?_⟩
  rcases List.mem_append.mp member with member | member
  · exact ordered earlier member day known
  · rw [List.mem_singleton.mp member, dated] at known
    exact (Option.some.inj known).ge

/-- One more request. -/
theorem Kept.step (kept : Kept setup quota start front row)
    (ordered : ∀ earlier ∈ front, ∀ day, dayOf earlier.events = some day →
      ∀ today, dayOf served.events = some today → day ≤ today)
    (course : Course setup id quota row served.outcome served.events) :
    Kept setup quota start (front ++ [served]) (rowAfter id row served.events) := by
  cases course with
  | away outside unchanged other =>
    rw [unchanged]
    constructor
    case limited => exact kept.limited
    case grown => exact kept.grown
    case past =>
      intro earlier member inside day dated
      rcases List.mem_append.mp member with member | member
      · obtain ⟨latest, listed, rest⟩ := kept.past earlier member inside day dated
        exact ⟨latest, List.mem_append_left _ listed, rest⟩
      · rw [List.mem_singleton.mp member, outside] at inside
        cases inside
    case fair => simpa only [successes_outside outside] using kept.fair
    case counts => simpa only [successes_outside outside] using kept.counts
    case capped => simpa only [successes_outside outside] using kept.capped
    case unspent => simpa only [successes_outside outside] using kept.unspent
  | refused today dated outside reset spent =>
    have renewed (earlier : Served R) (member : earlier ∈ front) (day : Int)
        (known : dayOf earlier.events = some day) : day ≤ today :=
      ordered earlier member day known today dated
    obtain ⟨fair, counts⟩ := kept.reset renewed
    rw [reset]
    constructor
    case limited => exact (resetUsage_quota today row).trans kept.limited
    case grown => exact resetUsage_grown _ kept.grown
    case past =>
      intro earlier member _ day known
      exact latest_past renewed dated (resetUsage_day today row) member known
    case fair =>
      intro day current
      obtain rfl : today = day := Option.some.inj ((resetUsage_day today row).symm.trans current)
      simpa only [successes_outside outside] using fair
    case counts =>
      intro mode day current
      obtain rfl : today = day := Option.some.inj ((resetUsage_day today row).symm.trans current)
      simpa only [successes_outside outside] using counts mode
    case capped => simpa only [successes_outside outside] using kept.capped
    case unspent => simpa only [successes_outside outside] using kept.unspent
  | entered today dated inside left columns usage =>
    have renewed (earlier : Served R) (member : earlier ∈ front) (day : Int)
        (known : dayOf earlier.events = some day) : day ≤ today :=
      ordered earlier member day known today dated
    obtain ⟨fair, counts⟩ := kept.reset renewed
    have grown := resetUsage_grown today kept.grown
    have added (day : Int) : successes (front ++ [served]) day = successes front day +
        if today = day ∧ succeeded served.events = true then 1 else 0 := by
      rw [successes_snoc, dated, inside]
      simp only [Option.some.injEq, true_and]
    generalize rowAfter id row served.events = next at columns usage ⊢
    obtain ⟨limited, counted⟩ := columns
    constructor
    case limited => exact limited.trans kept.limited
    case grown =>
      rw [usage]
      split <;> omega
    case past =>
      intro earlier member _ day known
      exact latest_past renewed dated counted member known
    case fair =>
      intro day current new
      obtain rfl : today = day := Option.some.inj (counted.symm.trans current)
      have before := fair new
      rw [usage, added]
      by_cases success : succeeded served.events = true
      · rw [if_pos (show today = today ∧ succeeded served.events = true from ⟨rfl, success⟩)]
        split <;> push_cast <;> omega
      · rw [if_neg fun counts => success counts.1, if_neg fun counts => success counts.2]
        omega
    case counts =>
      intro mode day current
      obtain rfl : today = day := Option.some.inj (counted.symm.trans current)
      have before := counts mode
      rw [usage, added]
      simp only [mode, and_true, true_and]
      split
      · push_cast
        omega
      · omega
    case capped =>
      intro mode day
      have before := counts mode
      rw [added]
      split
      · rename_i same
        obtain ⟨rfl, _⟩ := same
        push_cast
        omega
      · exact kept.capped mode day
    case unspent => exact fun none => absurd left (by omega)

theorem sequential_append {first last : ClientColumns} (front back : List (Served R)) :
    Sequential setup id first (front ++ back) last ↔
      ∃ middle, Sequential setup id first front middle ∧ Sequential setup id middle back last := by
  induction front generalizing first with
  | nil =>
    constructor
    · exact fun back => ⟨first, .nil, back⟩
    · rintro ⟨_, ⟨⟩, back⟩
      exact back
  | cons served front ih =>
    constructor
    · rintro (_ | ⟨_, ran, committed, rest⟩)
      obtain ⟨middle, one, two⟩ := ih.mp rest
      exact ⟨middle, .cons served ran committed one, two⟩
    · rintro ⟨middle, _ | ⟨_, ran, committed, rest⟩, two⟩
      exact .cons served ran committed (ih.mpr ⟨middle, rest, two⟩)

/-- The days of a run never go back. -/
abbrev Ordered (run : List (Served R)) : Prop :=
  (run.filterMap fun served => dayOf served.events).Pairwise (· ≤ ·)

theorem ordered_front {back : List (Served R)} (ordered : Ordered (front ++ back)) :
    Ordered front := by
  rw [Ordered, List.filterMap_append] at ordered
  exact (List.pairwise_append.mp ordered).1

theorem ordered_latest {back : List (Served R)} (ordered : Ordered (front ++ served :: back))
    (earlier : Served R) (member : earlier ∈ front) (day : Int)
    (known : dayOf earlier.events = some day) (today : Int)
    (dated : dayOf served.events = some today) : day ≤ today := by
  rw [Ordered, List.filterMap_append] at ordered
  refine (List.pairwise_append.mp ordered).2.2 day ?_ today ?_
  · exact List.mem_filterMap.mpr ⟨earlier, member, known⟩
  · exact List.mem_filterMap.mpr ⟨served, List.mem_cons_self, dated⟩

section

variable {run : List (Served R)} {final : ClientColumns}

/-- What holds after every sequential run. -/
theorem kept_run (enabled : setup.config.quota.enableQuotaCheck = true) (valid : 0 ≤ quota)
    (given : start.dailyQuota = some quota) (grown : 0 ≤ start.dailyUsage)
    (sequential : Sequential setup id start run final) (ordered : Ordered run) :
    Kept setup quota start run final := by
  induction run using List.reverseRecOn generalizing final with
  | nil =>
    cases sequential
    refine ⟨given, grown, fun _ => nofun, fun day same new => absurd same new, ?_, ?_, ?_⟩
    · exact fun _ _ _ => grown
    · exact fun _ _ => valid
    · exact fun _ _ => rfl
  | append_singleton front served ih =>
    obtain ⟨middle, before, one⟩ := (sequential_append front _).mp sequential
    obtain _ | ⟨_, ran, committed, rest⟩ := one
    cases rest
    have kept := ih before (ordered_front ordered)
    exact kept.step (ordered_latest ordered) (serve_course kept.limited enabled ran committed)

/-- A request is refused for the quota on a new day only after that many successes of the day. -/
theorem fair_run (enabled : setup.config.quota.enableQuotaCheck = true) (valid : 0 ≤ quota)
    (given : start.dailyQuota = some quota) (grown : 0 ≤ start.dailyUsage)
    (sequential : Sequential setup id start run final) (ordered : Ordered run)
    (front : List (Served R)) (served : Served R) (back : List (Served R)) (day : Int)
    (split : run = front ++ served :: back) (refused : RefusedOn served day)
    (new : start.quotaResetAt ≠ some day) : quota ≤ successes front day := by
  subst split
  obtain ⟨middle, before, rest⟩ := (sequential_append front _).mp sequential
  obtain _ | ⟨_, ran, committed, _⟩ := rest
  have kept := kept_run enabled valid given grown before (ordered_front ordered)
  obtain ⟨dated, outside, retryAfter, ended⟩ := refused
  cases serve_course kept.limited enabled ran committed with
  | away _ _ other => exact absurd ended (other retryAfter)
  | refused today known _ _ spent =>
    obtain rfl : day = today := Option.some.inj (dated.symm.trans known)
    refine spent.trans ((kept.reset fun earlier member day' known' => ?_).1 new)
    exact ordered_latest ordered earlier member day' known' day dated
  | entered _ _ inside _ _ _ =>
    rw [outside] at inside
    cases inside

/-- Where successes are counted, or nothing may be used, the quota caps every run. -/
theorem caps_run (enabled : setup.config.quota.enableQuotaCheck = true) (valid : 0 ≤ quota)
    (given : start.dailyQuota = some quota) (grown : 0 ≤ start.dailyUsage)
    (sequential : Sequential setup id start run final) (ordered : Ordered run)
    (counting : setup.config.quota.countMode = "success" ∨ quota ≤ 0) : Caps quota start run := by
  have kept := kept_run enabled valid given grown sequential ordered
  refine ⟨fun day => ?_, fun front served back day split refused new => .inr ?_⟩
  · rcases counting with mode | none
    · exact kept.capped mode day
    · rw [kept.unspent none day]
      exact valid
  · exact fair_run enabled valid given grown sequential ordered front served back day split
      refused new

end

section

variable (config : AppConfig R) (client : ClientObject)

/-- A forwarder that can decrypt every key. -/
def openSetup : Setup R :=
  { foreign := openCipher, config, runtime := none, masterKey := some [] }

/-- A request for the status of a job that was created with key 1. -/
def statusRequest : ProxyRequest :=
  { requestId := "", method := "GET", primaryPath := "/v1/crawl/1" }

def statusCall : Call := statusRequest.call client statusRequest.primaryPath (some 1)

/-- A row with a quota and without retries, used on no request of day 0 yet. -/
def meteredRow (quota : Int) : ClientColumns :=
  { dailyQuota := some quota, quotaResetAt := some 0, maxRetries := 0 }

def foundResponse : UpstreamResponse := { statusCode := 200, headers := [], content := [] }

/-- The exchange of the forward of a status request that succeeds. -/
def statusExchange : Exchange R :=
  [⟨.findKey 1, some (some {})⟩, ⟨.allow 1 60, some (true, 0)⟩, ⟨.acquire 1 5, some true⟩,
   ⟨.request 1 (upstreamRequest (openSetup config) (statusCall client) "secret"),
     .response foundResponse⟩,
   ⟨.release 1, ()⟩, ⟨.keepFailures [(1, none)], ()⟩]

def statusResult : ForwardResult R :=
  { response := toFastapiResponse foundResponse, upstreamStatusCode := some 200
    apiKeyId := some 1, retryCount := 0, switchReasons := [], selectionScore := none }

def statusHandled : DataEvents R :=
  ⟨.prepare, .ok (.go (some 1))⟩ ::
    ((statusExchange config client).map embed ++ [⟨.conclude, .ok ()⟩])

/-- The exchange of a status request on day 0. -/
def statusEvents (id : Nat) (quota : Int) : DataEvents R :=
  ⟨.acquire id 10, some true⟩ :: ⟨.allow id 60, some (true, 0)⟩ ::
    ⟨.today config.quota.timezone, some 0⟩ ::
      (statusHandled config (ClientObject.fresh id (meteredRow quota)) ++ [⟨.release id, ()⟩])

def statusServed (id : Nat) (quota : Int) : Served R :=
  { request := statusRequest, events := statusEvents config id quota
    outcome := .ok (some (toFastapiResponse foundResponse)) }

/-- Where successes are not counted, the forward of a status request writes nothing. -/
theorem status_ran (mode : config.quota.countMode ≠ "success")
    (once : clientRetryBudget client.current = 1) :
    (forward (openSetup config) (statusCall client)).Ran (statusExchange config client)
      (.ok statusResult) := by
  have base : providerBaseUrl config "firecrawl" = .ok config.firecrawl.baseUrl := if_pos rfl
  have classified : classifyUpstreamOutcome foundResponse = .ok := by decide
  have settled : isSuccess foundResponse.statusCode = true := by decide
  have unestimated : estimatedRemaining openCipher config.creditMonitoring "GET" "/v1/crawl/1" {}
      foundResponse = none := by simp [estimatedRemaining]
  unfold forward
  simp only [openSetup, statusCall, statusRequest, ProxyRequest.call, base]
  unfold pinnedBranch
  refine .ask ?_
  simp only [once]
  refine .ask (.ask (.ask (.ask ?_)))
  simp only [Prog.bind, classified, settleResponse, settled, ↓reduceIte, countUsage, mode,
    KeyObject.fresh, unestimated, Option.isSome, once]
  rw [if_neg (by decide : Outcome.ok ≠ Outcome.credit), if_neg Bool.false_ne_true]
  exact .ask .here

theorem ran_within {program : Gateway R Value} {inner : Exchange R} {outcome : Except Exn Value}
    (ran : program.Ran inner outcome) : (within program).Ran (inner.map embed) outcome := by
  induction program generalizing inner with
  | done other =>
    obtain ⟨rfl, rfl⟩ := ran_done ran
    exact .here
  | raise error =>
    obtain ⟨rfl, rfl⟩ := ran_raise ran
    exact .here
  | ask op next ih =>
    obtain ⟨reply, later, rfl, onward⟩ := ran_ask ran
    exact .ask (ih reply onward)

theorem status_handled (mode : config.quota.countMode ≠ "success")
    (once : clientRetryBudget client.current = 1) :
    (handle (openSetup config) statusRequest client).Ran (statusHandled config client)
      (.ok (some (toFastapiResponse foundResponse))) := by
  have forwarded : (forwardWithFallback (openSetup config) statusRequest client (some 1)).Ran
      ((statusExchange config client).map embed) (.ok statusResult) := by
    rw [← List.append_nil ((statusExchange config client).map embed)]
    exact reaches_bind (ran_within (status_ran config client mode once)) .here
  refine .ask ?_
  change Reaches ((forwardWithFallback (openSetup config) statusRequest client (some 1)).bind _) _ _
  exact reaches_bind forwarded (.ask .here)

theorem status_served (mode : config.quota.countMode ≠ "success")
    (enabled : config.quota.enableQuotaCheck = true) (id : Nat) {quota : Int}
    (positive : 0 < quota) :
    (serve (openSetup config) statusRequest (ClientObject.fresh id (meteredRow quota))).Ran
      (statusEvents config id quota) (.ok (some (toFastapiResponse foundResponse))) := by
  have checked : (openSetup config).config.quota.enableQuotaCheck = true := enabled
  have governed : (ClientObject.fresh id (meteredRow quota)).assign (resetUsage 0) =
      ClientObject.fresh id (meteredRow quota) := rfl
  have left : ¬ quota ≤ (ClientObject.fresh id (meteredRow quota)).current.dailyUsage :=
    not_le.mpr positive
  have clean : ¬ (ClientObject.fresh id (meteredRow quota)).current.quotaResetAt ≠ some 0 :=
    not_not.mpr rfl
  unfold serve enforceClientGovernance
  refine .ask (.ask ?_)
  simp only [enforceQuota, checked]
  refine .ask ?_
  simp only [Prog.bind, governed]
  rw [if_neg left, if_neg clean]
  exact reaches_ensuring (status_handled config (ClientObject.fresh id (meteredRow quota)) mode rfl)
    (.ask .here)

theorem status_sequential (mode : config.quota.countMode ≠ "success")
    (enabled : config.quota.enableQuotaCheck = true) (id : Nat) {quota : Int}
    (positive : 0 < quota) (n : Nat) :
    Sequential (openSetup config) id (meteredRow quota)
      (List.replicate n (statusServed config id quota)) (meteredRow quota) := by
  induction n with
  | zero => exact .nil
  | succ n ih =>
    refine .cons _ (status_served config mode enabled id positive) ?_ ih
    rintro ⟨batch, member⟩
    have whole : database (statusServed config id quota).events =
        statusExchange config (ClientObject.fresh id (meteredRow quota)) := rfl
    rw [whole] at member
    simp [statusExchange] at member

/-- Any number of such requests are served on one day. -/
theorem status_successes (id : Nat) (quota : Int) (n : Nat) :
    successes (List.replicate n (statusServed config id quota)) 0 = n := by
  have succeeds : Succeeds (.response foundResponse) = true := by decide
  simp only [successes, List.countP_replicate]
  exact if_pos rfl

theorem status_ordered (id : Nat) (quota : Int) (n : Nat) :
    Ordered (List.replicate n (statusServed config id quota)) := by
  have days : (List.replicate n (statusServed config id quota)).filterMap
      (fun served => dayOf served.events) = List.replicate n 0 := List.filterMap_replicate_of_some rfl
  rw [Ordered, days, List.pairwise_replicate]
  exact .inr (le_refl 0)

end

/-- The daily quota is a cap on every sequential run of requests, and no request is refused for it
too early, exactly where the mode counts successes or the quota allows nothing. -/
theorem quota_caps_iff (config : AppConfig R) (quota : Int)
    (enabled : config.quota.enableQuotaCheck = true) (valid : 0 ≤ quota) :
    (∀ (setup : Setup R) (id : Nat) (start final : ClientColumns) (run : List (Served R)),
      setup.config = config → start.dailyQuota = some quota → 0 ≤ start.dailyUsage →
        Sequential setup id start run final → Ordered run → Caps quota start run) ↔
      config.quota.countMode = "success" ∨ quota ≤ 0 := by
  constructor
  · intro caps
    by_contra uncounted
    obtain ⟨mode, positive⟩ := not_or.mp uncounted
    have positive := not_le.mp positive
    have capped := (caps (openSetup config) 1 (meteredRow quota) (meteredRow quota) _ rfl rfl
      (le_refl 0) (status_sequential config mode enabled 1 positive (quota.toNat + 1))
      (status_ordered config 1 quota _)).capped 0
    rw [status_successes] at capped
    omega
  · rintro counting setup id start final run rfl given grown sequential ordered
    exact caps_run enabled valid given grown sequential ordered counting

/-- The default mode, in which a quota of one is a cap. -/
theorem success_mode_caps : ∃ config : AppConfig ℚ, config.quota.enableQuotaCheck = true ∧
    ∀ (setup : Setup ℚ) (id : Nat) (start final : ClientColumns) (run : List (Served ℚ)),
      setup.config = config → start.dailyQuota = some 1 → 0 ≤ start.dailyUsage →
        Sequential setup id start run final → Ordered run → Caps 1 start run :=
  ⟨{ quota := { enableQuotaCheck := true } }, rfl,
    (quota_caps_iff { quota := { enableQuotaCheck := true } } 1 rfl (by decide)).mpr (.inl rfl)⟩

/-- Where attempts are to be counted, nothing is: two requests of a day succeed under a quota of
one. -/
theorem attempts_uncounted : ∃ config : AppConfig ℚ, config.quota.enableQuotaCheck = true ∧
    config.quota.countMode = "attempt" ∧ ∃ (setup : Setup ℚ) (start final : ClientColumns)
      (run : List (Served ℚ)), setup.config = config ∧ start.dailyQuota = some 1 ∧
        start.dailyUsage = 0 ∧ Sequential setup 1 start run final ∧ Ordered run ∧
        successes run 0 = 2 ∧ ¬ Caps 1 start run := by
  refine ⟨{ quota := { enableQuotaCheck := true, countMode := "attempt" } }, rfl, rfl, openSetup _,
    meteredRow 1, meteredRow 1, List.replicate 2 (statusServed _ 1 1), rfl, rfl, rfl,
    status_sequential _ (by decide) rfl 1 (by decide) 2, status_ordered _ 1 1 2,
    status_successes _ 1 1 2, fun caps => ?_⟩
  have capped := caps.capped 0
  rw [status_successes] at capped
  exact absurd capped (by decide)

end FcamGateway.DataPlane
