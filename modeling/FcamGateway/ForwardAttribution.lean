import FcamGateway.ForwardPinned
import FcamGateway.KeyStore
import Mathlib.Data.List.DropRight
import Mathlib.Algebra.Order.Field.Rat

/-! To whom the result of a pool run is attributed: the key, status, score and
retry count a result carries against the exchange it came from. The loop
variables follow the last selection, the response the last proxied request; the
two part where a key is selected and skipped after the last response. -/
namespace FcamGateway.Forwarder
open Prog Credits Upstream

set_option linter.unusedSectionVars false

variable {R : Type} [Field R] [LinearOrder R] [ScoreMath R] {history : Exchange R}

/-- The last proxied request of an exchange: the response it got, the key it went
to, the selection that chose the key, the keys taken before and what followed. -/
structure Answered (setup : Setup R) (call : Call) (events : Exchange R) where
  early : Exchange R
  exclude : List Nat
  view : PoolView R
  mid : Exchange R
  key : Nat
  sent : UpstreamRequest
  resp : UpstreamResponse
  late : Exchange R
  score : R
  whole : events = early ++ ⟨.readPool call.provider exclude, some view⟩ ::
    (mid ++ ⟨.request key sent, .response resp⟩ :: late)
  alone : selections mid = []
  last : sends late = []
  decided : ∃ selected, KeyPool.decision view (KeyPool.weights setup.config setup.runtime)
    call.provider exclude = .ok selected ∧ selected.apiKey.id = key ∧ selected.score = score

variable {setup : Setup R} {call : Call}

/-- The keys selected and abandoned before the one that was answered. -/
def Answered.abandoned {events : Exchange R} (answer : Answered setup call events) : List Nat :=
  taken answer.early

/-- Later events that send nothing leave the last answer as it is. -/
theorem Answered.extend {before after : Exchange R} (answer : Answered setup call before)
    {added : List Nat} (grown : before <+: after) (unsent : sends after = sends before)
    (takes : taken after = taken before ++ added) :
    ∃ later : Answered setup call after, later.key = answer.key ∧ later.resp = answer.resp ∧
      later.score = answer.score ∧ later.abandoned = answer.abandoned ∧
      taken later.late = taken answer.late ++ added := by
  obtain ⟨more, rfl⟩ := grown
  rw [sends_append, List.append_right_eq_self] at unsent
  rw [taken_append, List.append_cancel_left_eq] at takes
  refine ⟨{ answer with
      late := answer.late ++ more
      whole := by simp [answer.whole]
      last := by simp [answer.last, unsent] }, rfl, rfl, rfl, rfl, ?_⟩
  rw [taken_append, takes]

theorem Answered.last_sent {events : Exchange R} (answer : Answered setup call events) :
    (sends events).getLast? = some answer.key := by
  have sent := congrArg (fun events => (sends events).getLast?) answer.whole
  simpa [answer.last] using sent

/-- The result says whose response it carries. -/
def Attributed (setup : Setup R) (call : Call) (events : Exchange R) (result : ForwardResult R) :
    Prop :=
  ∃ answer : Answered setup call events,
    result.response = toFastapiResponse answer.resp ∧
    result.apiKeyId = some answer.key ∧
    result.upstreamStatusCode = some answer.resp.statusCode ∧
    result.selectionScore = some answer.score ∧
    result.retryCount = answer.abandoned.length

/-- The keys taken after the last proxied request. -/
def skippedLast (events : Exchange R) : List Nat :=
  taken (events.rtakeWhile fun event => (sends [event]).isEmpty)

theorem Answered.skipped {events : Exchange R} (answer : Answered setup call events) :
    skippedLast events = taken answer.late := by
  have unsent : ∀ event ∈ answer.late.reverse, (sends [event]).isEmpty = true := by
    intro event member
    have none := List.filterMap_eq_nil_iff.mp answer.last event (List.mem_reverse.mp member)
    simp [sends, none]
  have after := congrArg (fun events => events.rtakeWhile fun event => (sends [event]).isEmpty)
    answer.whole
  simp only [List.rtakeWhile, List.reverse_append, List.reverse_cons, List.append_assoc,
    List.cons_append, List.nil_append] at after
  rw [List.takeWhile_append_of_pos unsent, List.takeWhile_cons_of_neg (by simp), List.append_nil,
    List.reverse_reverse] at after
  rw [skippedLast, List.rtakeWhile, after]

/-- What loop variables or a result say about the last answer: all of it as long
as no key was taken since, and then another key. -/
def Tells {events : Exchange R} (answer : Answered setup call events) (key : Option Nat)
    (score : Option R) (retries : Int) : Prop :=
  (taken answer.late = [] →
    key = some answer.key ∧ score = some answer.score ∧ retries = answer.abandoned.length) ∧
  (taken answer.late ≠ [] → key ≠ some answer.key)

/-- The invariant at the head of the pool loop. -/
structure Following (setup : Setup R) (call : Call) (events : Exchange R) (progress : Progress R) :
    Prop where
  counted : progress.retryCount = (taken events).length
  answered : ∀ resp, progress.lastErrorResponse = some resp →
    ∃ answer : Answered setup call events, answer.resp = resp ∧
      progress.lastUpstreamStatus = some resp.statusCode ∧ answer.key ∈ progress.triedKeyIds ∧
      Tells answer progress.lastApiKeyId progress.selectionScore (progress.retryCount - 1)

/-- What a result of the pool loop says. -/
def ResultOf (setup : Setup R) (call : Call) (result : ForwardResult R) (events : Exchange R) :
    Prop :=
  ∃ answer : Answered setup call events,
    result.response = toFastapiResponse answer.resp ∧
    result.upstreamStatusCode = some answer.resp.statusCode ∧
    Tells answer result.apiKeyId result.selectionScore result.retryCount

theorem ResultOf.attributed_iff {result : ForwardResult R} {events : Exchange R}
    (stated : ResultOf setup call result events) :
    Attributed setup call events result ↔ skippedLast events = [] := by
  obtain ⟨answer, response, status, told, untold⟩ := stated
  rw [answer.skipped]
  constructor
  · rintro ⟨other, _, key, _⟩
    by_contra skipped
    have same := other.last_sent.symm.trans answer.last_sent
    exact untold skipped (key.trans same)
  · intro settled
    obtain ⟨key, score, retries⟩ := told settled
    exact ⟨answer, response, key, status, score, retries⟩

/-- What the invariant says after events that send nothing and take no key. -/
theorem Following.extend {before after : Exchange R} {progress : Progress R}
    (follows : Following setup call before progress) (grown : before <+: after)
    (unsent : sends after = sends before) (untaken : taken after = taken before) :
    Following setup call after progress := by
  refine ⟨untaken ▸ follows.counted, fun resp found => ?_⟩
  obtain ⟨answer, rfl, status, tried, told, untold⟩ := follows.answered resp found
  obtain ⟨later, key, resp, score, abandoned, late⟩ :=
    answer.extend grown unsent (untaken.trans (List.append_nil _).symm)
  rw [List.append_nil] at late
  refine ⟨later, resp, status, key ▸ tried, ?_, ?_⟩
  · rw [late, key, score, abandoned]
    exact told
  · rw [late, key]
    exact untold

/-- A key that is skipped after its selection. -/
theorem Following.skip {before after : Exchange R} {progress next : Progress R} {id : Nat}
    (follows : Following setup call before progress) (grown : before <+: after)
    (unsent : sends after = sends before) (takes : taken after = taken before ++ [id])
    (fresh : id ∉ progress.triedKeyIds) (counted : next.retryCount = progress.retryCount + 1)
    (tried : next.triedKeyIds = id :: progress.triedKeyIds)
    (response : next.lastErrorResponse = progress.lastErrorResponse)
    (status : next.lastUpstreamStatus = progress.lastUpstreamStatus)
    (key : next.lastApiKeyId = some id) : Following setup call after next := by
  refine ⟨?_, fun resp found => ?_⟩
  · rw [counted, follows.counted, takes, List.length_append]
    rfl
  · obtain ⟨answer, rfl, was, among, _⟩ := follows.answered resp (response ▸ found)
    obtain ⟨later, sameKey, resp, _, _, late⟩ := answer.extend grown unsent takes
    refine ⟨later, resp, status.trans was, ?_, ?_, ?_⟩
    · rw [sameKey, tried]
      exact List.mem_cons_of_mem _ among
    · simp [late]
    · intro _ same
      rw [key, sameKey] at same
      cases same
      exact fresh among

/-- A result made of the loop variables when no further key is taken. -/
theorem Following.result {events : Exchange R} {progress : Progress R} {resp : UpstreamResponse}
    (follows : Following setup call events progress)
    (found : progress.lastErrorResponse = some resp) (unsaved : List KeyObject) :
    ResultOf setup call { progress.result resp (max (progress.retryCount - 1) 0) with unsaved }
      events := by
  obtain ⟨answer, rfl, status, _, told, untold⟩ := follows.answered resp found
  refine ⟨answer, rfl, status, fun settled => ?_, untold⟩
  obtain ⟨key, score, retries⟩ := told settled
  refine ⟨key, score, ?_⟩
  simp only [Progress.result]
  omega

/-- How a turn of the pool loop ends. -/
def TurnFollows (setup : Setup R) (call : Call) :
    Except Exn (Turn (ForwardResult R) (Progress R)) → Exchange R → Prop
  | .error _, _ => True
  | .ok (.leave result), events => ResultOf setup call result events
  | .ok (.again next), events => Following setup call events next

/-- The turn from the upstream response on. -/
private theorem wp_answeredFollows (progress : Progress R) (key : KeyObject)
    (resp : UpstreamResponse) (answer : Answered setup call history)
    (same : answer.key = key.id) (response : answer.resp = resp) (late : taken answer.late = [])
    (takes : taken history = answer.abandoned ++ [key.id])
    (status : progress.lastUpstreamStatus = some resp.statusCode)
    (last : progress.lastApiKeyId = some key.id)
    (score : progress.selectionScore = some answer.score)
    (counted : progress.retryCount = answer.abandoned.length) :
    (poolResponse setup call progress key resp).wp seen (TurnFollows setup call) history := by
  have later {events : Exchange R} (silent : Silent history events) :
      ∃ later : Answered setup call events, later.key = key.id ∧ later.resp = resp ∧
        later.score = answer.score ∧ later.abandoned = answer.abandoned ∧ taken later.late = [] := by
    obtain ⟨later, sameKey, sameResp, sameScore, sameAbandoned, sameLate⟩ :=
      answer.extend silent.grown silent.sent (silent.took.trans (List.append_nil _).symm)
    exact ⟨later, sameKey.trans same, sameResp.trans response, sameScore, sameAbandoned,
      by rw [sameLate, late, List.append_nil]⟩
  refine wp_poolResponse setup call progress key resp (fun _ _ _ _ => trivial) ?_ ?_
  · intro events silent _
    obtain ⟨later, sameKey, sameResp, sameScore, sameAbandoned, sameLate⟩ := later silent
    simp only [failOver]
    split
    · refine ⟨later, by rw [sameResp]; rfl, by rw [sameResp]; exact status, fun _ => ?_, ?_⟩
      · rw [sameKey, sameScore, sameAbandoned]
        exact ⟨last, score, by simp [Progress.result, Progress.skip, counted]⟩
      · exact fun skipped => absurd sameLate skipped
    · refine ⟨?_, fun _ found => ?_⟩
      · rw [silent.took, takes, List.length_append]
        simp [Progress.skip, counted]
      · cases found
        refine ⟨later, sameResp, status, sameKey ▸ List.mem_cons_self, fun _ => ?_, ?_⟩
        · rw [sameKey, sameScore, sameAbandoned]
          exact ⟨last, score, by simp [Progress.skip, counted]⟩
        · exact fun skipped => absurd sameLate skipped
  · intro events silent _
    obtain ⟨later, sameKey, sameResp, sameScore, sameAbandoned, sameLate⟩ := later silent
    refine ⟨later, by rw [sameResp]; rfl, by rw [sameResp]; exact status, fun _ => ?_, ?_⟩
    · rw [sameKey, sameScore, sameAbandoned]
      exact ⟨last, score, counted⟩
    · exact fun skipped => absurd sameLate skipped

/-- The turn from the selection on. -/
private theorem wp_selectedFollows (masterKey : Bytes) (progress : Progress R) (key : KeyObject)
    (score : R) (start read : Exchange R) (exclude : List Nat) (view : PoolView R)
    (follows : Following setup call start progress)
    (silent : Silent (start ++ [⟨.readPool call.provider exclude, some view⟩]) read)
    (decided : ∃ selected, KeyPool.decision view (KeyPool.weights setup.config setup.runtime)
      call.provider exclude = .ok selected ∧ selected.apiKey.id = key.id ∧ selected.score = score)
    (fresh : key.id ∉ progress.triedKeyIds) :
    (selectedTurn setup call masterKey
      { progress with selectionScore := some score, lastApiKeyId := some key.id } key).wp seen
        (TurnFollows setup call) read := by
  have grown : start <+: read := (List.prefix_append _ _).trans silent.grown
  have unsent : sends read = sends start := by simp [silent.sent]
  have untaken : taken read = taken start := by simp [silent.took]
  have skipped {events : Exchange R} {next : Progress R} (rate : Int)
      (limited : Option (Bool × Int)) (same : Silent (read ++ [⟨.allow key.id rate, limited⟩]) events)
      (counted : next.retryCount = progress.retryCount + 1)
      (tried : next.triedKeyIds = key.id :: progress.triedKeyIds)
      (response : next.lastErrorResponse = progress.lastErrorResponse)
      (status : next.lastUpstreamStatus = progress.lastUpstreamStatus)
      (last : next.lastApiKeyId = some key.id) : TurnFollows setup call (.ok (.again next)) events := by
    refine follows.skip ?_ ?_ ?_ fresh counted tried response status last
    · exact grown.trans ((List.prefix_append _ _).trans same.grown)
    · simp [same.sent, unsent]
    · simp [same.took, untaken]
  refine (wp_query _ _).mpr fun allowed => ?_
  rcases allowed with _ | ⟨_ | _, wait⟩
  · trivial
  · exact skipped _ _ (Silent.refl _) rfl rfl rfl rfl rfl
  refine (wp_query _ _).mpr fun granted => ?_
  have leasing := (Silent.refl (read ++ [⟨.allow key.id key.current.rateLimitPerMin,
    some (true, wait)⟩])).asked (.acquire key.id key.current.maxConcurrent) granted trivial
  rcases granted with _ | _ | _
  · trivial
  · exact skipped _ _ leasing rfl rfl rfl rfl rfl
  refine (wp_bind _).mpr (wp_poolRequest setup call masterKey key ?_ ?_ ?_ ?_)
  · exact fun events same => skipped _ _ (leasing.trans same) rfl rfl rfl rfl rfl
  · intro sent resp events same
    obtain ⟨before, split⟩ := silent.grown
    obtain ⟨late, whole⟩ := same.grown
    have unread : selections before = [] := by
      simpa [← split] using silent.selected
    have unsentLate : sends late = [] :=
      List.append_right_eq_self.mp ((sends_append _ _).symm.trans (whole ▸ same.sent))
    have untakenLate : taken late = [] :=
      List.append_right_eq_self.mp ((taken_append _ _).symm.trans (whole ▸ same.took))
    let answer : Answered setup call events :=
      { early := start, exclude, view, key := key.id, sent, resp, late, score
        mid := before ++ [⟨.allow key.id key.current.rateLimitPerMin, some (true, wait)⟩,
          ⟨.acquire key.id key.current.maxConcurrent, some true⟩]
        whole := by simp [← whole, ← split]
        alone := by
          rw [selections_append, unread]
          rfl
        last := unsentLate, decided }
    refine wp_answeredFollows _ key resp answer rfl rfl untakenLate ?_ rfl rfl rfl follows.counted
    rw [same.took, taken_requested, leasing.took, taken_append, untaken]
    rfl
  · exact fun _ _ _ _ => trivial
  · exact fun _ _ _ _ _ _ => trivial

private theorem wp_turnFollows (masterKey : Bytes) (progress : Progress R)
    (follows : Following setup call history progress) :
    (poolTurn setup call masterKey progress).wp seen (TurnFollows setup call) history := by
  refine (wp_bind _).mpr (wp_select setup.config setup.runtime call.provider _ ?_ ?_ ?_)
  · intro reply last unselected same _
    have follows := follows.extend ((List.prefix_append _ _).trans same.grown)
      (by simp [same.sent]) (by simp [same.took])
    simp only [thenPost]
    split
    · trivial
    · split
      · rename_i found
        split
        · exact follows.result found _
        · trivial
      · trivial
  · intro view last selected same decided
    obtain ⟨_, key, _, chosen, eligible⟩ := KeyPool.decision_eligible decided
    have fresh : selected.apiKey.id ∉ progress.triedKeyIds := by
      rw [chosen, KeyPool.id_settled]
      exact eligible.kept
    exact wp_selectedFollows masterKey progress selected.apiKey.saved selected.score history last _
      view follows same ⟨selected, decided, rfl, rfl⟩ fresh
  · exact fun _ _ _ => trivial

/-- What a run of the pool loop returns, it tells of the last answer. -/
private theorem wp_loopFollows (masterKey : Bytes) (left : Nat) (progress : Progress R)
    (follows : Following setup call history progress) :
    (poolLoop setup call masterKey left progress).wp seen (fun outcome events =>
      ∀ result, outcome = .ok result → ResultOf setup call result events) history := by
  have ended {history : Exchange R} {progress : Progress R}
      (follows : Following setup call history progress) :
      (afterPool setup call progress).wp seen (fun outcome events =>
        ∀ result, outcome = .ok result → ResultOf setup call result events) history := by
    unfold afterPool
    split
    · intro result same
      cases same
    · split
      · rename_i found
        rintro _ ⟨⟩
        exact follows.result found []
      · intro result same
        cases same
  induction left generalizing history progress with
  | zero => exact ended follows
  | succ left ih =>
    simp only [poolLoop, bind_eq, pure_eq]
    split
    · refine (wp_bind _).mpr (wp_mono ?_ (wp_turnFollows masterKey progress follows))
      rintro (error | result | next) last met
      · intro result same
        cases same
      · rintro _ ⟨⟩
        exact met
      · exact ih next met
    · exact ended follows

/-- A result of the pool loop is attributed to the key whose response it carries
exactly when no key was selected and skipped after the last response. -/
theorem forward_attributed_iff (setup : Setup R) (call : Call) (events : Exchange R)
    (result : ForwardResult R) (ran : (forward setup call).Ran events (.ok result))
    (free : ∀ id, ¬PinnedTo call id events) :
    Attributed setup call events result ↔ skippedLast events = [] := by
  have met : (forward setup call).wp seen (fun outcome events =>
      (∀ id, ¬PinnedTo call id events) → ∀ result, outcome = .ok result →
        ResultOf setup call result events) [] := by
    refine wp_forward setup call (fun _ _ _ _ => nofun) ?_ ?_
    · exact fun outcome events id pinned _ _ free => absurd pinned (free id)
    · intro masterKey start _ unpinned
      refine wp_mono (fun _ _ stated _ => stated) (wp_loopFollows masterKey _ {} ⟨?_, nofun⟩)
      simp [unpinned.untaken]
  exact (wp_history ran met free result rfl).attributed_iff

/-- Two fresh keys, an upstream that refuses every request with 429, and a limiter
with no room for the keys given. -/
def refusingUpstream (full : List Nat) (store : Store) : (op : Op ℚ) → Reply ℚ op × Store
  | .request _ _ => (.response { statusCode := 429, headers := [], content := [] }, store)
  | .allow id _ => (some (!full.contains id, 1), store)
  | op => store.answer 0 op

def twoKeys : Store :=
  { keys := ⟨[1, 2], by decide, fun _ => {}⟩, clients := Table.empty {} }

def plainSetup (config : AppConfig ℚ) : Setup ℚ :=
  { foreign := openCipher, config, runtime := none, masterKey := some [] }

def plainCall : Call :=
  { requestId := "", client := ClientObject.fresh 1 {}, method := "GET", upstreamPath := "/v1/scrape"
    jsonBody := none, inboundHeaders := [] }

/-- The exchange of a forward over two keys and how it ends. -/
def refusedRun (config : AppConfig ℚ) (full : List Nat) :
    Exchange ℚ × Except Exn (ForwardResult ℚ) :=
  let ran := (forward (plainSetup config) plainCall).execute (refusingUpstream full) twoKeys
  (ran.1, ran.2.1)

def returnedKey : Except Exn (ForwardResult R) → Option Nat
  | .ok result => result.apiKeyId
  | .error _ => none

theorem refused_ran (config : AppConfig ℚ) (full : List Nat) (key : Nat)
    (returned : returnedKey (refusedRun config full).2 = some key) :
    ∃ result, (forward (plainSetup config) plainCall).Ran (refusedRun config full).1 (.ok result) ∧
      result.apiKeyId = some key := by
  have ran : (forward (plainSetup config) plainCall).Ran (refusedRun config full).1
      (refusedRun config full).2 := execute_ran (refusingUpstream full) _ twoKeys
  cases ended : (refusedRun config full).2 with
  | error error => simp [ended, returnedKey] at returned
  | ok result =>
    rw [ended] at ran returned
    exact ⟨result, ran, returned⟩

/-- Both keys answer 429 and the second answer is returned. -/
theorem refused_run_attributed :
    ∃ result, Attributed (plainSetup {}) plainCall (refusedRun {} []).1 result := by
  obtain ⟨result, ran, _⟩ := refused_ran {} [] 2 (by decide +kernel)
  have settled : skippedLast (refusedRun {} []).1 = [] := by decide +kernel
  exact ⟨result, (forward_attributed_iff (plainSetup {}) plainCall _ result ran
    fun _ pinned => nomatch pinned.1).mpr settled⟩

/-- The first key answers 429, the second is skipped because it is rate limited,
and its id is returned with the first key's answer. -/
theorem skipped_key_misattributed :
    ¬ ∀ events result, (forward (plainSetup {}) plainCall).Ran events (.ok result) →
      (∀ id, ¬PinnedTo plainCall id events) →
        Attributed (plainSetup {}) plainCall events result := by
  intro attributed
  obtain ⟨result, ran, second⟩ := refused_ran {} [2] 2 (by decide +kernel)
  obtain ⟨answer, _, key, _⟩ := attributed _ result ran fun _ pinned => nomatch pinned.1
  have only : sends (refusedRun {} [2]).1 = [1] := by decide +kernel
  have last := answer.last_sent
  rw [only, ← key, second] at last
  exact absurd last (by decide)

end FcamGateway.Forwarder
