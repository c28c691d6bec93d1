import FcamGateway.DataPlaneCourse
import FcamGateway.Embedding

/-! Where a response comes from. A success that a forward returns is the answer to its last request
and names the key of that request; and a forward that is bound to a key it may use sends with no
other. -/
namespace FcamGateway.ForwardOrigin
open Prog Credits Upstream Forwarder ForwardEffects DataPlane

set_option linter.unusedSectionVars false

variable {R : Type} [Field R] [LinearOrder R] [ScoreMath R] {setup : Setup R}
  {call : Forwarder.Call} {history : Exchange R}

/-- The result is the answer to the last request and names its key. -/
def Carries (result : ForwardResult R) (events : Exchange R) : Prop :=
  ∃ front id resp, replies events = front ++ [(id, .response resp)] ∧
    result.apiKeyId = some id ∧ result.response = toFastapiResponse resp

/-- What a result that is a success says. -/
def Credited (result : ForwardResult R) (events : Exchange R) : Prop :=
  isSuccess result.response.statusCode = true → Carries result events

/-- The response that the loop would fall back on is no success. -/
def Unsuccessful (progress : Progress R) : Prop :=
  ∀ resp, progress.lastErrorResponse = some resp → isSuccess resp.statusCode = false

/-- How a turn of the pool loop ends. -/
def Turned : Except Exn (Turn (ForwardResult R) (Progress R)) → Exchange R → Prop
  | .error _, _ => True
  | .ok (.leave result), events => Credited result events
  | .ok (.again next), _ => Unsuccessful next

theorem same_replies {before after : Exchange R} (same : Same before after) :
    replies after = replies before := by
  obtain ⟨more, rfl⟩ := same.grown
  have unsent := same.sent
  rw [sends_append, List.append_right_eq_self, sends_eq_replies, List.map_eq_nil_iff] at unsent
  rw [replies_append, unsent, List.append_nil]

/-- A fallback is not credited. -/
theorem Unsuccessful.credited {progress : Progress R} {resp : UpstreamResponse}
    (unsuccessful : Unsuccessful progress) (found : progress.lastErrorResponse = some resp)
    (retryCount : Int) (unsaved : List KeyObject) (events : Exchange R) :
    Credited { progress.result resp retryCount with unsaved } events := by
  intro success
  have failed := unsuccessful resp found
  exact absurd (success.symm.trans failed) (by decide)

theorem wp_answered (progress : Progress R) (key : KeyObject) (resp : UpstreamResponse)
    (last : ∃ front, replies history = front ++ [(key.id, .response resp)])
    (named : progress.lastApiKeyId = some key.id) :
    (poolResponse setup call progress key resp).wp seen Turned history := by
  refine wp_poolResponse setup call progress key resp (fun _ _ _ _ => trivial) ?_ ?_
  · intro events _ held
    have fails : Succeeds (.response resp) = false := HeldAgainst.fails held
    have failed : isSuccess resp.statusCode = false := fails
    simp only [failOver]
    split
    · exact fun success => absurd (success.symm.trans failed) (by decide)
    · rintro _ ⟨⟩
      exact failed
  · intro events silent _ _
    obtain ⟨front, whole⟩ := last
    exact ⟨front, key.id, resp, (same_replies silent.toSame).trans whole, named, rfl⟩

theorem wp_selectedTurn (masterKey : Bytes) (progress : Progress R) (key : KeyObject)
    (unsuccessful : Unsuccessful progress) (named : progress.lastApiKeyId = some key.id) :
    (selectedTurn setup call masterKey progress key).wp seen Turned history := by
  refine (wp_query _ _).mpr fun allowed => ?_
  rcases allowed with _ | ⟨_ | _, wait⟩
  · trivial
  · exact unsuccessful
  refine (wp_query _ _).mpr fun granted => ?_
  rcases granted with _ | _ | _
  · trivial
  · exact unsuccessful
  refine (wp_bind _).mpr (wp_poolRequest setup call masterKey key ?_ ?_ ?_ ?_)
  · exact fun _ _ => unsuccessful
  · intro sent resp events silent
    have last := (same_replies silent.toSame).trans (replies_requested _ _ _ _)
    exact wp_answered _ key resp ⟨_, last⟩ named
  · exact fun _ _ _ _ => trivial
  · exact fun _ _ _ _ _ _ => trivial

theorem wp_poolTurn (masterKey : Bytes) (progress : Progress R)
    (unsuccessful : Unsuccessful progress) :
    (poolTurn setup call masterKey progress).wp seen Turned history := by
  refine (wp_bind _).mpr (wp_select setup.config setup.runtime call.provider _ ?_ ?_ ?_)
  · intro reply last unselected _ _
    simp only [thenPost]
    split
    · trivial
    · split
      · rename_i found
        split
        · exact unsuccessful.credited found _ _ _
        · trivial
      · trivial
  · exact fun view last selected _ _ =>
      wp_selectedTurn masterKey _ selected.apiKey.saved unsuccessful rfl
  · exact fun _ _ _ => trivial

theorem wp_poolLoop (masterKey : Bytes) (left : Nat) (progress : Progress R)
    (unsuccessful : Unsuccessful progress) :
    (poolLoop setup call masterKey left progress).wp seen (fun outcome events =>
      ∀ result, outcome = .ok result → Credited result events) history := by
  have ended {history : Exchange R} {progress : Progress R} (unsuccessful : Unsuccessful progress) :
      (afterPool setup call progress).wp seen (fun outcome events =>
        ∀ result, outcome = .ok result → Credited result events) history := by
    unfold afterPool
    split
    · intro result same
      cases same
    · split
      · rename_i found
        rintro _ ⟨⟩
        exact unsuccessful.credited found _ [] _
      · intro result same
        cases same
  induction left generalizing history progress with
  | zero => exact ended unsuccessful
  | succ left ih =>
    simp only [poolLoop, bind_eq, pure_eq]
    split
    · refine (wp_bind _).mpr (wp_mono ?_ (wp_poolTurn masterKey progress unsuccessful))
      rintro (error | result | next) last met
      · intro result same
        cases same
      · rintro _ ⟨⟩
        exact met
      · exact ih next met
    · exact ended unsuccessful

/-- An attempt goes on with the pinned key, which it names. -/
structure Going (loop : KeyObject × Progress R) : Prop where
  named : loop.2.lastApiKeyId = some loop.1.id
  unsuccessful : Unsuccessful loop.2

/-- How an attempt with the pinned key ends. -/
def Attempted : Except Exn (Turn (ForwardResult R) (KeyObject × Progress R)) → Exchange R → Prop
  | .error _, _ => True
  | .ok (.leave result), events => Carries result events
  | .ok (.again next), _ => Going next

theorem wp_pinnedRequest (masterKey : Bytes) (key : KeyObject) :
    (pinnedRequest setup call masterKey key).wp seen (fun outcome events => ∀ resp,
      outcome = .ok resp → ∃ front, replies events = front ++ [(key.id, .response resp)])
        history := by
  have raised {last : Exchange R} (error : Exn) : ((query (R := R) (.release key.id)).bind fun _ =>
      leaf (.error error)).wp seen (fun outcome events => ∀ resp, outcome = .ok resp →
        ∃ front, replies events = front ++ [(key.id, .response resp)]) last :=
    wp_release key.id _ fun _ _ resp same => by cases same
  refine (wp_ensuring _).mpr ?_
  split
  · refine (wp_bind _).mpr (wp_quiet (asks_disableKeyDecryptFailed key) ?_ ?_)
    · exact fun _ _ _ _ => raised _
    · exact fun error _ _ _ => raised error
  · refine wp_sendUpstream setup call key _ ?_ ?_
    · refine fun sent resp last silent => wp_release key.id _ fun final later => ?_
      rintro _ ⟨⟩
      have same := (silent.trans later).toSame
      exact ⟨_, (same_replies same).trans (replies_requested _ _ _ _)⟩
    · exact fun _ _ error _ _ _ => raised error

theorem wp_pinnedTurn (masterKey : Bytes) (attempt : Nat) (loop : KeyObject × Progress R)
    (going : Going loop) :
    (pinnedTurn setup call masterKey attempt loop).wp seen Attempted history := by
  refine (wp_query _ _).mpr fun allowed => ?_
  rcases allowed with _ | ⟨_ | _, wait⟩
  · trivial
  · trivial
  refine (wp_query _ _).mpr fun granted => ?_
  rcases granted with _ | _ | _
  · trivial
  · trivial
  refine (wp_bind _).mpr (wp_mono ?_ (wp_pinnedRequest masterKey loop.1))
  rintro (error | resp) last answered
  · trivial
  obtain ⟨front, whole⟩ := answered resp rfl
  have raised (error : Exn) (final : Exchange R) (_ : Silent last final) (_ : Mild error) :
      Attempted (R := R) (.error error) final := trivial
  have carried {result : ForwardResult R} {final : Exchange R} (silent : Silent last final)
      (same : result.response = toFastapiResponse resp)
      (credit : result.apiKeyId = loop.2.lastApiKeyId) :
      Attempted (.ok (.leave result)) final :=
    ⟨front, loop.1.id, resp, (same_replies silent.toSame).trans whole, credit.trans going.named,
      same⟩
  simp only [thenPost, bind_eq, pure_eq]
  split
  · refine (wp_bind _).mpr
      (wp_quiet (quiet_of_about (about_refreshCreditsOn4xx setup loop.1 _)) ?_ raised)
    intro key middle silent own
    refine (wp_bind _).mpr (wp_quiet (quiet_of_about (about_markCooling key _)) ?_ ?_)
    · intro cooled final later kept
      simp only [thenPost]
      split
      · exact carried (silent.trans later) rfl rfl
      · exact ⟨going.named.trans (congrArg some (kept.trans own).symm), going.unsuccessful⟩
    · exact fun error final later mild => raised error final (silent.trans later) mild
  · refine (wp_bind _).mpr
      (wp_quiet (quiet_of_about (about_refreshCreditsOn4xx setup loop.1 _)) ?_ raised)
    refine fun key middle silent _ => (wp_bind _).mpr
      (wp_quiet (quiet_of_about (about_disableKey key)) ?_ ?_)
    · exact fun _ final later _ => carried (silent.trans later) rfl rfl
    · exact fun error final later mild => raised error final (silent.trans later) mild
  · refine (wp_bind _).mpr
      (wp_quiet (quiet_of_about (about_recordFailure setup loop.1 _ _)) ?_ raised)
    exact fun _ final silent _ => carried silent rfl rfl
  · have settled := asks_settleResponse setup call loop.1 resp
    split
    · refine (wp_bind _).mpr
        (wp_quiet (quiet_of_about (about_refreshCreditsOn4xx setup loop.1 _)) ?_ raised)
      refine fun key middle silent _ => (wp_bind _).mpr
        (wp_quiet (quiet_of_about (about_zeroCredits key)) ?_ ?_)
      · refine fun _ next later _ => (wp_bind _).mpr (wp_quiet settled ?_ ?_)
        · exact fun _ final latest _ => carried ((silent.trans later).trans latest) rfl rfl
        · exact fun error final latest mild =>
            raised error final ((silent.trans later).trans latest) mild
      · exact fun error final later mild => raised error final (silent.trans later) mild
    · refine (wp_bind _).mpr (wp_quiet settled ?_ raised)
      exact fun _ final silent _ => carried silent rfl rfl

theorem wp_pinnedLoop (masterKey : Bytes) (left : Nat) (loop : KeyObject × Progress R)
    (going : Going loop) : (pinnedLoop setup call masterKey left loop).wp seen Turned history := by
  induction left generalizing history loop with
  | zero => exact going.unsuccessful
  | succ left ih =>
    refine (wp_bind _).mpr (wp_mono ?_ (wp_pinnedTurn masterKey _ loop going))
    rintro (error | result | next) last met
    · trivial
    · exact fun _ => met
    · exact ih next met

theorem wp_pinnedBranch (masterKey : Bytes) :
    (pinnedBranch setup call masterKey).wp seen Turned history := by
  have free : Unsuccessful ({} : Progress R) := fun _ found => by cases found
  unfold pinnedBranch
  split
  · exact free
  · refine (wp_query _ _).mpr fun found => ?_
    rcases found with _ | _ | row
    · trivial
    · exact free
    · dsimp only
      split
      · exact wp_pinnedLoop masterKey _ _ ⟨rfl, fun _ found => by cases found⟩
      · exact free

/-- A success that a forward returns is the answer to its last request, with the key that it
names. -/
theorem forward_credited {events : Exchange R} {result : ForwardResult R}
    (ran : (forward setup call).Ran events (.ok result)) : Credited result events := by
  have met : (forward setup call).wp seen (fun outcome events =>
      ∀ result, outcome = .ok result → Credited result events) [] := by
    unfold forward
    split
    · intro result same
      cases same
    split
    · intro result same
      cases same
    refine (wp_bind _).mpr (wp_mono ?_ (wp_pinnedBranch _))
    rintro (error | result | progress) last met
    · intro result same
      cases same
    · rintro _ ⟨⟩
      exact met
    · exact wp_poolLoop _ _ progress met
  exact wp_history ran met result rfl

/-- The success among the answers to a forward is the response that it returns. -/
theorem success_returned {events : Exchange R} {result : ForwardResult R} {id : Nat}
    {resp : UpstreamResponse} (ran : (forward setup call).Ran events (.ok result))
    (answered : (id, .response resp) ∈ replies events)
    (success : isSuccess resp.statusCode = true) :
    result.apiKeyId = some id ∧ result.response = toFastapiResponse resp := by
  have ends : Ends setup call (.ok result) events := forward_ends ran
  simp only [Ends] at ends
  split at ends
  · rename_i returned
    obtain ⟨front, last, other, whole, named, carried⟩ := forward_credited ran returned
    have counts : Succeeds (last, UpstreamReply.response other).2 = true := by
      rw [carried] at returned
      exact returned
    -- the last answer is the only success
    have once := ends.succeeded
    rw [whole, List.countP_append, List.countP_singleton, if_pos counts] at once
    have none := List.countP_eq_zero.mp (Nat.succ.inj once)
    rw [whole, List.mem_append, List.mem_singleton] at answered
    rcases answered with earlier | same
    · exact absurd success (none _ earlier)
    · cases same
      exact ⟨named, carried⟩
  · exact absurd (success.symm.trans (ends.failed _ answered)) (by decide)

theorem within_eq (program : Gateway R Value) : within program = program.embed .session := by
  induction program with
  | done value => rfl
  | raise error => rfl
  | ask op next ih => exact congrArg (Prog.ask _) (funext ih)

theorem ran_within {program : Gateway R Value} {data : DataEvents R} {outcome : Except Exn Value}
    (ran : (within program).Ran data outcome) : program.Ran (database data) outcome := by
  rw [within_eq] at ran
  obtain ⟨inner, rfl, alone⟩ := ran_embed ran
  exact (database_embed inner).symm ▸ alone

/-- A run of a forward with its fallback ends as its last forward does, and what went before that
brought nothing. -/
theorem fallback_last {request : ProxyRequest} {client : ClientObject} {pinned : Option Nat}
    {data : DataEvents R} {outcome : Except Exn (ForwardResult R)}
    (ran : (forwardWithFallback setup request client pinned).Ran data outcome) :
    ∃ path front inner, database data = front ++ inner ∧ Fruitless front ∧
      (forward setup (request.call client path pinned)).Ran inner outcome := by
  have alone : Fruitless ([] : Exchange R) := ⟨(fun _ member => by cases member), rfl⟩
  rcases ran_bind ran with ⟨error, rfl, sent⟩ | ⟨first, front, back, rfl, sent, ran⟩
  · exact ⟨request.primaryPath, [], database data, rfl, alone, ran_within sent⟩
  have one := ran_within sent
  split at ran
  · obtain ⟨rfl, rfl⟩ := ran_done ran
    rw [List.append_nil]
    exact ⟨request.primaryPath, [], database front, rfl, alone, one⟩
  · rename_i path given
    split at ran
    · rename_i missing
      have failed : isSuccess first.response.statusCode = false := by
        rcases List.mem_cons.mp missing with same | rest
        · rw [same]
          decide
        · rw [List.mem_singleton.mp rest]
          decide
      have fruitless : Fruitless (database front) := by
        have ends : Ends setup _ (.ok first) (database front) := forward_ends one
        simp only [Ends, failed] at ends
        exact ends
      exact ⟨path, database front, database back, database_append front back, fruitless,
        ran_within ran⟩
    · obtain ⟨rfl, rfl⟩ := ran_done ran
      rw [List.append_nil]
      exact ⟨request.primaryPath, [], database front, rfl, alone, one⟩

/-- The result of a forward with its fallback is the success among the answers, if there is one, and
a result that is a success is the last of the answers. -/
theorem fallback_credited {request : ProxyRequest} {client : ClientObject} {pinned : Option Nat}
    {data : DataEvents R} {result : ForwardResult R}
    (ran : (forwardWithFallback setup request client pinned).Ran data (.ok result)) :
    (∀ key resp, (key, .response resp) ∈ replies (database data) →
      isSuccess resp.statusCode = true →
        result.apiKeyId = some key ∧ result.response = toFastapiResponse resp) ∧
    Credited result (database data) := by
  obtain ⟨path, front, inner, whole, fruitless, last⟩ := fallback_last ran
  rw [whole]
  constructor
  · intro key resp answered success
    rw [replies_append] at answered
    rcases List.mem_append.mp answered with earlier | later
    · exact absurd (success.symm.trans (fruitless.failed _ earlier)) (by decide)
    · exact success_returned last later success
  · intro success
    obtain ⟨before, key, resp, ends, same⟩ := forward_credited last success
    refine ⟨replies front ++ before, key, resp, ?_, same⟩
    rw [replies_append, ends, List.append_assoc]

/-! ### A bound key -/

theorem replied (op : Op R) : Nonempty (Reply R op) := by
  cases op with
  | monotonic => exact ⟨(0 : R)⟩
  | request keyId sent => exact ⟨UpstreamReply.other⟩
  | probe keyId secret => exact ⟨ProbeReply.timeout⟩
  | probeAll workers secrets => exact ⟨fun _ => (0, ProbeReply.timeout)⟩
  | _ => exact ⟨default⟩

/-- The key that the call is bound to was found so that it may be used, as often as it was asked
for. -/
def Usable (call : Forwarder.Call) (id : Nat) (events : Exchange R) : Prop :=
  ∀ reply, ⟨.findKey id, reply⟩ ∈ events →
    ∃ row, reply = some (some row) ∧ usablePinned call.provider row = true

/-- A forward that is bound to a key asks for it first. -/
theorem found_first {id other : Nat} {sent : UpstreamRequest} {events : Exchange R}
    {next : UpstreamReply → Gateway R (ForwardResult R)} (bound : call.pinnedApiKeyId = some id)
    (reached : Reaches (forward setup call) events (.ask (.request other sent) next)) :
    ∃ reply rest, events = ⟨.findKey id, reply⟩ :: rest := by
  unfold forward at reached
  split at reached
  · cases reached
  · split at reached
    · cases reached
    · simp only [pinnedBranch, bound] at reached
      cases reached with
      | ask later => exact ⟨_, _, rfl⟩

/-- A forward that is bound to a key it may use sends with no other. -/
theorem bound_sends {id other : Nat} {sent : UpstreamRequest} {events : Exchange R}
    {next : UpstreamReply → Gateway R (ForwardResult R)} (bound : call.pinnedApiKeyId = some id)
    (reached : Reaches (forward setup call) events (.ask (.request other sent) next))
    (usable : Usable call id events) : other = id := by
  obtain ⟨reply, rest, rfl⟩ := found_first bound reached
  obtain ⟨row, rfl, may⟩ := usable reply List.mem_cons_self
  have sending : Reaches (forward setup call) (⟨.findKey id, some (some row)⟩ :: rest ++
      [⟨.request other sent, .other⟩]) (next .other) := reaches_trans reached (.ask .here)
  obtain ⟨more, outcome, ran⟩ := reaches_ends replied sending
  have pinned : PinnedTo call id (⟨.findKey id, some (some row)⟩ :: rest ++
      [⟨.request other sent, .other⟩] ++ more) := ⟨bound, row, _, rfl, may⟩
  have alone := ((wp_history ran (wp_budgeted setup call)).pinned id pinned).1
  exact alone other (by simp [sends])

end FcamGateway.ForwardOrigin
