import FcamGateway.JobKeys

/-! What a client is told of its request. Every error that leaves a handler, its governance or a
forward has the status of an HTTP error, and a request is told of a success exactly when the
upstream's last answer was one, unless a write failed. -/
namespace FcamGateway.Endpoints
open Prog Upstream Forwarder DataPlane ForwardEffects

set_option linter.unusedSectionVars false

variable {R : Type} [Field R] [LinearOrder R] [ScoreMath R]

/-- The status of an HTTP error. -/
def FcamError.Failing (error : FcamError) : Prop := 400 ≤ error.statusCode ∧ error.statusCode < 600

/-- A gateway error that is an HTTP error, or an exception of another kind. -/
def Refusal : Exn → Prop
  | .fcam error => FcamError.Failing error
  | .other => True

/-- Whatever is asked, what is raised is a refusal. -/
abbrev Refuses {Op : Type} {Reply : Op → Type} (program : Prog Op Reply Exn Value)
    (returns : Value → Prop) : Prop :=
  program.Asks (fun _ => True) Refusal returns

theorem failing_dbUnavailable : FcamError.Failing dbUnavailable := by
  constructor <;> decide

theorem failing_stateUnavailable : FcamError.Failing stateUnavailable := by
  constructor <;> decide

theorem refuses_of {Op : Type} {Reply : Op → Type} {program : Prog Op Reply Exn Value}
    {allowed : Op → Prop} {fails : Exn → Prop} {returns : Value → Prop}
    (means : ∀ error, fails error → Refusal error) (asks : program.Asks allowed fails returns) :
    Refuses program returns := by
  induction program with
  | done value => exact asks
  | raise error => exact means error asks
  | ask op next ih => exact ⟨trivial, fun reply => ih reply (asks.2 reply)⟩

/-- A mild error is a refusal. -/
theorem refuses_mild {program : Gateway R Value} {allowed : Op R → Prop} {returns : Value → Prop}
    (asks : program.Asks allowed Mild returns) : Refuses program returns := by
  refine refuses_of (fun error mild => ?_) asks
  rcases mild with rfl | rfl
  · trivial
  · exact failing_dbUnavailable

theorem refuses_ensuring {Op : Type} {Reply : Op → Type} {program : Prog Op Reply Exn Value}
    {final : Prog Op Reply Exn Unit} {returns : Value → Prop} (body : Refuses program returns)
    (last : final.Asks (fun _ => True) (fun _ => False) fun _ => True) :
    Refuses (program.ensuring final) returns := by
  have ended (outcome : Except Exn Value)
      (met : Refuses (leaf outcome : Prog Op Reply Exn Value) returns) :
      Refuses (final.bind fun _ => leaf outcome) returns := by
    induction final with
    | done value => exact met
    | raise error => exact last.elim
    | ask op next ih => exact ⟨trivial, fun reply => ih reply (last.2 reply)⟩
  induction program with
  | done value => exact ended (.ok value) body
  | raise error => exact ended (.error error) body
  | ask op next ih => exact ⟨trivial, fun reply => ih reply (body.2 reply)⟩

variable {setup : Setup R} {call : Forwarder.Call} {masterKey : Bytes} {key : KeyObject}

/-! ### A forward -/

theorem failing_decision {view : PoolView R} {weight : KeyPool.Weights R} {provider : String}
    {exclude : List Nat} {error : FcamError}
    (decided : KeyPool.decision view weight provider exclude = .error error) :
    FcamError.Failing error := by
  simp only [KeyPool.decision] at decided
  split at decided
  · cases decided
    simp [FcamError.Failing]
  · split at decided
    · cases decided
      simp [FcamError.Failing, KeyPool.allKeysDisabled]
    · split at decided
      · cases decided
        simp only [KeyPool.noCandidate]
        repeat' split
        all_goals simp [FcamError.Failing, KeyPool.allKeysDisabled]
      · cases decided

theorem refuses_written (selected : KeyPool.SelectedKey R) (written : Bool) :
    Refuses ((if written then return .ok { selected with apiKey := selected.apiKey.saved } else do
        let _ ← rollback selected.apiKey
        return .error { error := dbUnavailable } :
      Gateway R (Except KeyPool.Unselected (KeyPool.SelectedKey R)))) fun decided =>
        ∀ failed, decided = .error failed → FcamError.Failing failed.error := by
  split
  · intro failed same
    cases same
  · refine asks_bind (refuses_mild (about_rollback selected.apiKey)) fun _ _ => ?_
    rintro _ ⟨⟩
    exact failing_dbUnavailable

theorem refuses_select (config : AppConfig R) (runtime : Option (RuntimeScheduling R))
    (provider : String) (exclude : List Nat) :
    Refuses (KeyPool.select config runtime provider exclude) fun decided =>
      ∀ failed, decided = .error failed → FcamError.Failing failed.error := by
  refine ⟨trivial, fun found => ?_⟩
  cases found with
  | none =>
    rintro _ ⟨⟩
    exact failing_dbUnavailable
  | some view =>
    refine ⟨trivial, fun _ => ?_⟩
    dsimp only [Prog.bind]
    split
    · rename_i decided
      rintro _ ⟨⟩
      exact failing_decision decided
    · rename_i selected decided
      split
      · exact ⟨trivial, fun _ => ⟨trivial, refuses_written selected⟩⟩
      · exact ⟨trivial, refuses_written selected⟩

theorem failing_upstreamTimeout : FcamError.Failing (upstreamTimeout setup call) := by
  simp [FcamError.Failing, upstreamTimeout]

theorem failing_upstreamUnavailable (text : String) :
    FcamError.Failing (upstreamUnavailable setup call text) := by
  simp [FcamError.Failing, upstreamUnavailable]

theorem failing_keyDecryptFailed : FcamError.Failing keyDecryptFailed := by
  constructor <;> decide

theorem failing_allKeysBusyPinned (keyId : Nat) (retryAfter : Option Int) :
    FcamError.Failing (allKeysBusyPinned setup call keyId retryAfter) := by
  simp [FcamError.Failing, allKeysBusyPinned]

theorem failing_allKeysBusy : FcamError.Failing (allKeysBusy setup call) := by
  simp [FcamError.Failing, allKeysBusy]

theorem failing_trailingUnavailable (progress : Progress R) :
    FcamError.Failing (trailingUnavailable setup call progress) := by
  simp [FcamError.Failing, trailingUnavailable]

theorem refuses_sendUpstream (secret : String) :
    Refuses (sendUpstream setup call key secret) fun _ => True := by
  refine ⟨trivial, fun reply => ?_⟩
  rcases reply with resp | _ | text | _
  · trivial
  · dsimp only [Prog.bind]
    exact asks_bind (refuses_mild (about_recordFailure setup key _ _)) fun _ _ =>
      failing_upstreamTimeout
  · dsimp only [Prog.bind]
    exact asks_bind (refuses_mild (about_recordFailure setup key _ _)) fun _ _ =>
      failing_upstreamUnavailable text
  · trivial

/-- The release that ends a request raises nothing. -/
theorem asks_released (id : Nat) :
    (query (R := R) (.release id)).Asks (fun _ => True) (fun _ => False) fun _ => True :=
  ⟨trivial, fun _ => trivial⟩

theorem refuses_pinnedRequest :
    Refuses (pinnedRequest setup call masterKey key) fun _ => True := by
  refine refuses_ensuring ?_ (asks_released key.id)
  split
  · exact asks_bind (refuses_mild (asks_disableKeyDecryptFailed key)) fun _ _ =>
      failing_keyDecryptFailed
  · exact refuses_sendUpstream _

theorem refuses_pinnedTurn (attempt : Nat) (loop : KeyObject × Progress R) :
    Refuses (pinnedTurn setup call masterKey attempt loop) fun _ => True := by
  obtain ⟨key, progress⟩ := loop
  refine ⟨trivial, fun allowed => ?_⟩
  rcases allowed with _ | ⟨_ | _, retryAfter⟩
  · exact failing_stateUnavailable
  · exact failing_allKeysBusyPinned key.id (some retryAfter)
  refine ⟨trivial, fun granted => ?_⟩
  rcases granted with _ | _ | _
  · exact failing_stateUnavailable
  · exact failing_allKeysBusyPinned key.id none
  dsimp only [Prog.bind]
  refine asks_bind refuses_pinnedRequest fun resp _ => ?_
  have refreshed (statusCode : Int) := refuses_mild (about_refreshCreditsOn4xx setup key statusCode)
  split
  · refine asks_bind (refreshed 429) fun fresh _ => ?_
    refine asks_bind (refuses_mild (about_markCooling fresh _)) fun _ _ => ?_
    split <;> trivial
  · refine asks_bind (refreshed _) fun fresh _ => ?_
    exact asks_bind (refuses_mild (about_disableKey fresh)) fun _ _ => trivial
  · exact asks_bind (refuses_mild (about_recordFailure setup key _ _)) fun _ _ => trivial
  · have settled : Refuses (settleResponse setup call key resp) fun _ => True :=
      refuses_mild (asks_settleResponse setup call key resp)
    split
    · refine asks_bind (refreshed _) fun fresh _ => ?_
      refine asks_bind (refuses_mild (about_zeroCredits fresh)) fun _ _ => ?_
      exact asks_bind settled fun _ _ => trivial
    · exact asks_bind settled fun _ _ => trivial

theorem refuses_pinnedLoop (left : Nat) (loop : KeyObject × Progress R) :
    Refuses (pinnedLoop setup call masterKey left loop) fun _ => True := by
  induction left generalizing loop with
  | zero => trivial
  | succ left ih =>
    refine asks_bind (refuses_pinnedTurn _ loop) fun turn _ => ?_
    cases turn with
    | leave result => trivial
    | again next => exact ih next

theorem refuses_pinnedBranch : Refuses (pinnedBranch setup call masterKey) fun _ => True := by
  unfold pinnedBranch
  split
  · trivial
  · refine ⟨trivial, fun found => ?_⟩
    rcases found with _ | _ | row
    · exact failing_dbUnavailable
    · trivial
    · dsimp only [Prog.bind]
      split
      · exact refuses_pinnedLoop _ _
      · trivial

theorem refuses_poolRequest : Refuses (poolRequest setup call masterKey key) fun _ => True := by
  refine refuses_ensuring ?_ (asks_released key.id)
  split
  · exact asks_bind (refuses_mild (asks_disableKeyDecryptFailed key)) fun _ _ => trivial
  · exact asks_bind (refuses_sendUpstream _) fun _ _ => trivial

theorem refuses_poolResponse (progress : Progress R) (resp : UpstreamResponse) :
    Refuses (poolResponse setup call progress key resp) fun _ => True := by
  have refreshed (statusCode : Int) := refuses_mild (about_refreshCreditsOn4xx setup key statusCode)
  unfold poolResponse
  split
  · refine asks_bind (refreshed _) fun fresh _ => ?_
    exact asks_bind (refuses_mild (about_markCooling fresh _)) fun _ _ => trivial
  · refine asks_bind (refreshed _) fun fresh _ => ?_
    exact asks_bind (refuses_mild (about_zeroCredits fresh)) fun _ _ => trivial
  · refine asks_bind (refreshed _) fun fresh _ => ?_
    exact asks_bind (refuses_mild (about_disableKey fresh)) fun _ _ => trivial
  · exact asks_bind (refuses_mild (about_recordFailure setup key _ _)) fun _ _ => trivial
  · exact asks_bind (refuses_mild (asks_settleResponse setup call key resp)) fun _ _ => trivial

theorem refuses_selectedTurn (progress : Progress R) :
    Refuses (selectedTurn setup call masterKey progress key) fun _ => True := by
  refine ⟨trivial, fun allowed => ?_⟩
  rcases allowed with _ | ⟨_ | _, retryAfter⟩
  · exact failing_stateUnavailable
  · trivial
  refine ⟨trivial, fun granted => ?_⟩
  rcases granted with _ | _ | _
  · exact failing_stateUnavailable
  · trivial
  dsimp only [Prog.bind]
  refine asks_bind refuses_poolRequest fun reply _ => ?_
  cases reply with
  | none => trivial
  | some resp => exact refuses_poolResponse _ resp

theorem refuses_poolTurn (progress : Progress R) :
    Refuses (poolTurn setup call masterKey progress) fun _ => True := by
  refine asks_bind (refuses_select _ _ _ _) fun decided unselected => ?_
  cases decided with
  | ok selected => exact refuses_selectedTurn _
  | error failed =>
    have failing := unselected failed rfl
    dsimp only
    split
    · exact failing_keyDecryptFailed
    · split
      · split
        · trivial
        · exact failing
      · exact failing

theorem refuses_poolLoop (left : Nat) (progress : Progress R) :
    Refuses (poolLoop setup call masterKey left progress) fun _ => True := by
  have ended (progress : Progress R) : Refuses (afterPool setup call progress) fun _ => True := by
    unfold afterPool
    split
    · exact failing_allKeysBusy
    · split
      · trivial
      · exact failing_trailingUnavailable progress
  induction left generalizing progress with
  | zero => exact ended progress
  | succ left ih =>
    unfold poolLoop
    split
    · refine asks_bind (refuses_poolTurn progress) fun turn _ => ?_
      cases turn with
      | leave result => trivial
      | again next => exact ih next
    · exact ended progress

theorem failing_providerBaseUrl {config : AppConfig R} {provider : String} {error : FcamError}
    (unknown : providerBaseUrl config provider = .error error) : FcamError.Failing error := by
  simp only [providerBaseUrl] at unknown
  split at unknown
  · cases unknown
  · split at unknown
    · cases unknown
      simp [FcamError.Failing]
    · split at unknown
      · cases unknown
      · cases unknown
        simp [FcamError.Failing]

theorem refuses_forward : Refuses (forward setup call) fun _ => True := by
  unfold forward
  split
  · simp [Prog.Asks, reject, Refusal, FcamError.Failing]
  · split
    · rename_i unknown
      exact failing_providerBaseUrl unknown
    · refine asks_bind refuses_pinnedBranch fun turn _ => ?_
      cases turn with
      | leave result => trivial
      | again progress => exact refuses_poolLoop _ progress

/-! ### A handler -/

variable {app : AppState R} {endpoint : Endpoint} {inbound : Inbound} {client : ClientObject}

theorem refuses_within {program : Gateway R Value} {returns : Value → Prop}
    (asks : Refuses program returns) : Refuses (within program) returns := by
  rw [ForwardOrigin.within_eq]
  exact asks_embed asks

theorem refuses_forwardWithFallback (request : ProxyRequest) (pinnedApiKeyId : Option Nat) :
    Refuses (forwardWithFallback setup request client pinnedApiKeyId) fun _ => True := by
  refine asks_bind (refuses_within refuses_forward) fun result _ => ?_
  split
  · trivial
  · split
    · exact refuses_within refuses_forward
    · trivial

theorem refuses_releaseAnd {returns : Value → Prop} {error : FcamError}
    (failing : FcamError.Failing error) : Refuses (releaseAnd (R := R) client error) returns :=
  ⟨trivial, fun _ => failing⟩

theorem refuses_quotaCheckFailed {returns : Value → Prop} :
    Refuses (quotaCheckFailed client : Part R Value) returns := by
  refine ⟨trivial, fun read => ?_⟩
  cases read with
  | true => exact refuses_releaseAnd failing_dbUnavailable
  | false => trivial

theorem failing_clientQuotaExceeded (retryAfter : Int) :
    FcamError.Failing (clientQuotaExceeded retryAfter) := by
  simp [FcamError.Failing, clientQuotaExceeded]

theorem refuses_enforceQuota (quota : QuotaConfig) :
    Refuses (enforceQuota (R := R) quota client) fun _ => True := by
  unfold enforceQuota
  split
  · trivial
  split
  · trivial
  refine ⟨trivial, fun found => ?_⟩
  cases found with
  | none => exact refuses_releaseAnd failing_dbUnavailable
  | some today =>
    dsimp only [Prog.bind]
    split
    · refine ⟨trivial, fun wait => ?_⟩
      cases wait with
      | none => exact refuses_releaseAnd failing_dbUnavailable
      | some retryAfter =>
        have exceeded := failing_clientQuotaExceeded retryAfter
        dsimp only [Prog.bind]
        split
        · refine ⟨trivial, fun written => ?_⟩
          cases written with
          | true => exact refuses_releaseAnd exceeded
          | false =>
            refine ⟨trivial, fun undone => ?_⟩
            cases undone with
            | true => exact refuses_releaseAnd exceeded
            | false => exact refuses_quotaCheckFailed
        · exact refuses_releaseAnd exceeded
    · split
      · refine ⟨trivial, fun written => ?_⟩
        cases written with
        | true => trivial
        | false => exact refuses_quotaCheckFailed
      · trivial

theorem refuses_enter (quota : QuotaConfig) :
    Refuses (enter (R := R) quota client) fun _ => True := by
  refine ⟨trivial, fun slot => ?_⟩
  rcases slot with _ | _ | _
  · exact failing_stateUnavailable
  · simp [Prog.Asks, Prog.bind, refuse, Refusal, FcamError.Failing, clientConcurrencyLimited]
  refine ⟨trivial, fun limited => ?_⟩
  rcases limited with _ | ⟨_ | _, retryAfter⟩
  · exact failing_stateUnavailable
  · refine refuses_releaseAnd ?_
    simp [FcamError.Failing, clientRateLimited]
  · exact refuses_enforceQuota quota

theorem refuses_startOrReplay (config : IdempotencyConfig) (codec : Idempotency.Codec)
    (request : Idempotency.Incoming) (depth : Nat) :
    Refuses (Idempotency.startOrReplay config codec request depth) fun _ => True := by
  induction depth with
  | zero => trivial
  | succ depth ih =>
    unfold Idempotency.startOrReplay
    split
    · trivial
    · split
      · split <;> trivial
      · refine ⟨trivial, fun now => ⟨trivial, fun _ => ?_⟩⟩
        dsimp only
        split
        · trivial
        · refine ⟨trivial, fun inserted => ?_⟩
          rcases inserted with id | _ | _
          · exact ⟨trivial, fun read => by cases read <;> trivial⟩
          · refine ⟨trivial, fun found => ?_⟩
            rcases found with _ | _ | ⟨id, existing⟩
            · trivial
            · trivial
            · dsimp only [Prog.bind]
              split
              · exact ⟨trivial, fun deleted => by cases deleted <;> trivial⟩
              · trivial
              · split <;> trivial
              · trivial
          · trivial

theorem refuses_lookupBoundKeyId (query : ResourceBinding.Query) :
    Refuses (ResourceBinding.lookupBoundKeyId query) fun _ => True := by
  unfold ResourceBinding.lookupBoundKeyId
  split
  · trivial
  · refine ⟨trivial, fun found => ?_⟩
    rcases found with _ | _ | ⟨own, row⟩
    · trivial
    · trivial
    · dsimp only [Prog.bind]
      split
      · trivial
      · refine ⟨trivial, fun now => ?_⟩
        dsimp only [Prog.bind]
        split
        · exact ⟨trivial, fun deleted => by cases deleted <;> trivial⟩
        · trivial

theorem refuses_proceed (ctx : Option Nat) :
    Refuses (proceed app endpoint inbound client ctx) fun _ => True := by
  have looked : Refuses (lookUp (R := R) endpoint client) fun _ => True := by
    unfold lookUp
    split
    · trivial
    · exact asks_embed (refuses_lookupBoundKeyId _)
  have completed (response : UpstreamResponse) :
      Refuses (Idempotency.complete app.setup.config.idempotency app.codec ctx response)
        fun _ => True :=
    refuses_of (fun _ => False.elim) (asks_completes _ _ _ _)
  refine asks_bind looked fun pinned _ => ?_
  refine asks_bind (asks_embed (refuses_forwardWithFallback _ pinned)) fun result _ => ?_
  refine asks_bind (refuses_of (fun _ => False.elim) (unrecorded_maybeBind result)) fun _ _ => ?_
  exact asks_bind (asks_embed (completed result.response)) fun _ _ => trivial

theorem refuses_held (clientId : Nat) :
    Refuses (held app endpoint inbound clientId client) fun _ => True := by
  have claimed : Refuses (claim app endpoint inbound client) fun _ => True := by
    unfold claim
    split
    · trivial
    · exact asks_embed (refuses_startOrReplay _ _ _ _)
  refine refuses_ensuring (asks_bind claimed ?_) ⟨trivial, fun _ => trivial⟩
  rintro ⟨ctx, _ | replay⟩ -
  · exact refuses_proceed ctx
  · trivial

/-! ### A request -/

variable {arrival : Arrival} {events : HandlerEvents R}

/-- No answer of the upstream was a success. -/
def Barren (events : Exchange R) : Prop := ∀ entry ∈ replies events, Succeeds entry.2 = false

/-- What a client is told agrees with what the upstream answered. -/
inductive Truthful (events : Exchange R) : Except Exn (Answered R) → Prop where
  | refused (error : Exn) (barren : Barren events ∨ Faulted events) :
      Truthful events (.error error)
  | unsent (response : UpstreamResponse) (none : replies events = []) :
      Truthful events (.ok { response })
  | failed (result : ForwardResult R) (failure : isSuccess result.response.statusCode = false)
      (barren : Barren events) :
      Truthful events (.ok { response := result.response, result := some result })
  | succeeded (result : ForwardResult R) (success : isSuccess result.response.statusCode = true)
      (carries : ForwardOrigin.Carries result events)
      (once : (replies events).countP (fun entry => Succeeds entry.2) = 1) :
      Truthful events (.ok { response := result.response, result := some result })

/-- What comes before the first request does not matter. -/
theorem Truthful.after {front back : Exchange R} {outcome : Except Exn (Answered R)}
    (truthful : Truthful back outcome) (unsent : replies front = []) :
    Truthful (front ++ back) outcome := by
  have same : replies (front ++ back) = replies back := by
    rw [replies_append, unsent, List.nil_append]
  cases truthful with
  | refused error ends =>
    refine .refused error (ends.imp ?_ ?_)
    · exact fun barren entry member => barren entry (same ▸ member)
    · exact fun ⟨batch, member⟩ => ⟨batch, List.mem_append_right front member⟩
  | unsent response none => exact .unsent response (same.trans none)
  | failed result failure barren =>
    exact .failed result failure fun entry member => barren entry (same ▸ member)
  | succeeded result success carries once =>
    obtain ⟨before, id, resp, whole, named⟩ := carries
    exact .succeeded result success ⟨before, id, resp, same.trans whole, named⟩ (same ▸ once)

/-- A part that asks nothing of sessions and raises is truthful. -/
theorem truthful_aside {program : Handling R Value} {returns : Value → Prop} {error : Exn}
    (asks : program.Asks Aside (fun _ => True) returns) (ran : program.Ran events (.error error)) :
    Truthful (R := R) (forwarded events) (.error error) := by
  refine .refused error (.inl ?_)
  rw [forwarded_aside asks ran]
  exact List.forall_mem_nil _

theorem forwards_truthful {pinned : Option Nat} {outcome : Except Exn (ForwardResult R)}
    (ran : (onData (forwardWithFallback app.setup (endpoint.proxied inbound) client pinned)).Ran
      events outcome) :
    Truthful (forwarded events) (outcome.map fun result =>
      { response := result.response, result := some result }) := by
  have alone := ran_onData ran
  obtain ⟨path, front, inner, whole, fruitless, last⟩ := ForwardOrigin.fallback_last alone
  have ends := forward_ends last
  cases outcome with
  | error error =>
    refine .refused error ?_
    rw [forwarded, whole]
    rcases ends with none | ⟨batch, member⟩
    · exact .inl (fruitless_append fruitless none).failed
    · exact .inr ⟨batch, List.mem_append_right front member⟩
  | ok result =>
    have credited := (ForwardOrigin.fallback_credited alone).2
    simp only [Ends] at ends
    split at ends
    · rename_i success
      refine .succeeded result success (credited success) ?_
      rw [forwarded, whole, replies_append, List.countP_append, ends.succeeded]
      have none := List.countP_eq_zero.mpr fun entry member =>
        Bool.eq_false_iff.mp (fruitless.failed entry member)
      rw [none]
    · rename_i failure
      refine .failed result (eq_false_of_ne_true failure) ?_
      rw [forwarded, whole]
      exact (fruitless_append fruitless ends).failed

theorem proceed_truthful {ctx : Option Nat} {outcome : Except Exn (Answered R)}
    (ran : (proceed app endpoint inbound client ctx).Ran events outcome) :
    Truthful (forwarded events) outcome := by
  rcases ran_bind ran with ⟨error, rfl, looked⟩ | ⟨pinned, front, back, rfl, looked, ran⟩
  · exact truthful_aside (asks_lookUp _ _) looked
  rw [forwarded_append, forwarded_aside (asks_lookUp _ _) looked, List.nil_append]
  rcases ran_bind ran with ⟨error, rfl, sent⟩ | ⟨result, middle, rest, rfl, sent, ran⟩
  · exact forwards_truthful sent
  -- what follows the forwards raises nothing and asks nothing of sessions
  rcases ran_bind ran with ⟨error, -, bound⟩ | ⟨_, early, late, rfl, bound, ran⟩
  · exact (asks_reaches bound (unrecorded_maybeBind result)).elim
  rcases ran_bind ran with ⟨error, -, kept⟩ | ⟨_, first, last, rfl, kept, ended⟩
  · obtain ⟨completing, -, completed⟩ := ran_embed kept
    exact (asks_reaches completed (asks_completes _ _ _ _)).elim
  obtain ⟨rfl, rfl⟩ := ran_done ended
  have same : forwarded (middle ++ (early ++ (first ++ []))) = forwarded middle := by
    simp only [forwarded_append, forwarded_aside (asks_maybeBind result) bound,
      forwarded_aside (asks_complete _ _ _) kept]
    exact List.append_nil _
  rw [same]
  exact forwards_truthful sent

theorem answer_truthful {outcome : Except Exn (Answered R)}
    (ran : (answer app endpoint inbound client).Ran events outcome) :
    Truthful (forwarded events) outcome := by
  rcases ran_bind ran with ⟨error, rfl, claimed⟩ | ⟨⟨ctx, replay⟩, front, back, rfl, claimed, ran⟩
  · exact truthful_aside (asks_claim _ _ _ _) claimed
  rw [forwarded_append, forwarded_aside (asks_claim _ _ _ _) claimed, List.nil_append]
  cases replay with
  | some response =>
    obtain ⟨rfl, rfl⟩ := ran_done ran
    exact .unsent response rfl
  | none => exact proceed_truthful ran

theorem failing_strayed {error : FcamError} (stray : strayed app arrival = .error error) :
    FcamError.Failing error := by
  simp only [strayed] at stray
  split at stray
  · cases stray
  · rename_i other refused
    cases stray
    simp only [unrouted] at refused
    split at refused
    · cases refused
      simp [FcamError.Failing, methodNotAllowed]
    · split at refused
      · cases refused
      · cases refused
        simp [FcamError.Failing, notFound]

theorem refuses_serve : Refuses (serve app arrival) fun _ => True := by
  unfold serve
  split
  · split
    · trivial
    · rename_i error stray
      exact failing_strayed stray
  · exact asks_bind (asks_embed (refuses_enter _)) fun governed _ => refuses_held _

/-- Whatever is replied, a client is refused with an HTTP error or by an unexpected exception, and
what it is told agrees with what the upstream answered. The result of a forward that is a success is
the last answer, with its key, and the only success; otherwise no answer was a success, unless a
write failed and the request was refused. -/
theorem serve_truthful {outcome : Except Exn (Answered R)}
    (ran : (serve app arrival).Ran events outcome) :
    (∀ error, outcome = .error error → Refusal error) ∧ Truthful (forwarded events) outcome := by
  constructor
  · rintro error rfl
    exact asks_reaches ran refuses_serve
  cases routed : arrival.endpoint app with
  | none =>
    simp only [serve, routed] at ran
    split at ran
    · obtain ⟨rfl, rfl⟩ := ran_done ran
      exact .unsent _ rfl
    · obtain ⟨rfl, rfl⟩ := ran_raise ran
      exact .refused _ (.inl (List.forall_mem_nil _))
  | some endpoint =>
    have enters : (onData (enter (R := R) app.setup.config.quota arrival.client)).Asks Harmless
        (fun _ => True) fun governed => governed.id = arrival.client.id :=
      asks_embed (asks_enter _ _)
    obtain ⟨error, rfl, entered⟩ | ⟨governed, front, middle, rfl, entered, answered⟩ :=
      serve_parts routed ran
    · refine .refused error (.inl ?_)
      rw [Barren, unanswered (asks_every enters entered)]
      exact List.forall_mem_nil _
    · have released : forwarded (front ++ (middle ++
          [(⟨.data (.release arrival.client.id), ()⟩ : Event (HandlerOp R) (HandlerReply R))])) =
          forwarded front ++ forwarded middle := by
        rw [forwarded_append, forwarded_append]
        exact congrArg _ (List.append_nil _)
      rw [released]
      exact (answer_truthful answered).after (unanswered (asks_every enters entered))

theorem opened_truthful : sends (forwarded (openedAlone {}).1) = [1] ∧
    Truthful (forwarded (openedAlone {}).1) (openedAlone {}).2.1 := by
  have sent : sends (forwarded (openedAlone {}).1) = [1] := by decide +kernel
  have alone : (serve (sessionApp {}) (sessionArrivals true)).Ran (openedAlone {}).1
      (openedAlone {}).2.1 := execute_ran sessionAnswer _ .empty
  exact ⟨sent, (serve_truthful alone).2⟩

end FcamGateway.Endpoints
