import FcamGateway.ForwardQuiet
import FcamGateway.Selection

/-! The exchange of a forward: the selections it made and the proxied requests
it sent, and one rule for each part of the forwarder that says what the part adds
to them and how it ends. -/
namespace FcamGateway.Forwarder
open Prog Credits Upstream

set_option linter.unusedSectionVars false

variable {R : Type} [Field R] [LinearOrder R] [ScoreMath R]

abbrev Exchange (R : Type) := List (Event (Op R) (Reply R))

/-- The keys of the proxied requests, in the order they were sent. -/
def sends (events : Exchange R) : List Nat :=
  events.filterMap fun event => match event.op with
    | .request id _ => some id
    | _ => none

/-- The keys of the pool that were read for selections, one list for each. -/
def selections (events : Exchange R) : List (List Nat) :=
  events.filterMap fun event => match event.op with
    | .readPool _ exclude => some exclude
    | _ => none

/-- The selected keys in their order: each is put to the rate limiter at once. -/
def taken (events : Exchange R) : List Nat :=
  events.filterMap fun event => match event.op with
    | .allow id _ => some id
    | _ => none

@[simp] theorem sends_append (front back : Exchange R) :
    sends (front ++ back) = sends front ++ sends back := List.filterMap_append

@[simp] theorem selections_append (front back : Exchange R) :
    selections (front ++ back) = selections front ++ selections back := List.filterMap_append

@[simp] theorem taken_append (front back : Exchange R) :
    taken (front ++ back) = taken front ++ taken back := List.filterMap_append

section

variable (events : Exchange R) (id : Nat) (sent : UpstreamRequest) (reply : UpstreamReply)
  (provider : String) (exclude : List Nat) (read : Option (PoolView R)) (rate : Int)
  (limited : Option (Bool × Int))

@[simp] theorem sends_nil : sends ([] : Exchange R) = [] := rfl
@[simp] theorem selections_nil : selections ([] : Exchange R) = [] := rfl
@[simp] theorem taken_nil : taken ([] : Exchange R) = [] := rfl

@[simp] theorem sends_request :
    sends (⟨.request id sent, reply⟩ :: events) = id :: sends events := rfl

@[simp] theorem selections_request :
    selections (⟨.request id sent, reply⟩ :: events) = selections events := rfl

@[simp] theorem taken_request : taken (⟨.request id sent, reply⟩ :: events) = taken events := rfl

theorem sends_requested :
    sends (events ++ [⟨.request id sent, reply⟩]) = sends events ++ [id] := sends_append _ _

theorem selections_requested :
    selections (events ++ [⟨.request id sent, reply⟩]) = selections events :=
  (selections_append _ _).trans (List.append_nil _)

theorem taken_requested : taken (events ++ [⟨.request id sent, reply⟩]) = taken events :=
  (taken_append _ _).trans (List.append_nil _)

@[simp] theorem sends_readPool :
    sends (⟨.readPool provider exclude, read⟩ :: events) = sends events := rfl

@[simp] theorem selections_readPool :
    selections (⟨.readPool provider exclude, read⟩ :: events) = exclude :: selections events := rfl

@[simp] theorem taken_readPool :
    taken (⟨.readPool provider exclude, read⟩ :: events) = taken events := rfl

@[simp] theorem sends_allow : sends (⟨.allow id rate, limited⟩ :: events) = sends events := rfl

@[simp] theorem selections_allow :
    selections (⟨.allow id rate, limited⟩ :: events) = selections events := rfl

@[simp] theorem taken_allow :
    taken (⟨.allow id rate, limited⟩ :: events) = id :: taken events := rfl

end

/-- Later events that add neither a selection nor a proxied request. -/
structure Same (before after : Exchange R) : Prop where
  sent : sends after = sends before
  selected : selections after = selections before
  grown : before <+: after

/-- Later events that put no key to the limiter either. -/
structure Silent (before after : Exchange R) : Prop extends Same before after where
  took : taken after = taken before

instance {before after : Exchange R} : Coe (Silent before after) (Same before after) :=
  ⟨Silent.toSame⟩

theorem Same.refl (events : Exchange R) : Same events events := ⟨rfl, rfl, List.prefix_refl _⟩

theorem Same.trans {first second third : Exchange R} (one : Same first second)
    (two : Same second third) : Same first third :=
  ⟨two.sent.trans one.sent, two.selected.trans one.selected, one.grown.trans two.grown⟩

theorem Silent.refl (events : Exchange R) : Silent events events := ⟨Same.refl events, rfl⟩

theorem Silent.trans {first second third : Exchange R} (one : Silent first second)
    (two : Silent second third) : Silent first third :=
  ⟨one.toSame.trans two.toSame, two.took.trans one.took⟩

/-- A quiet question and its reply. -/
theorem Silent.asked {before middle : Exchange R} (same : Silent before middle) (op : Op R)
    (reply : Reply R op) (quiet : Quiet op) : Silent before (middle ++ [⟨op, reply⟩]) := by
  have added : sends [⟨op, reply⟩] = [] ∧ selections [⟨op, reply⟩] = [] ∧ taken [⟨op, reply⟩] = [] := by
    cases op <;> first | exact absurd quiet id | exact ⟨rfl, rfl, rfl⟩
  exact same.trans ⟨⟨by simp [added], by simp [added], List.prefix_append _ _⟩, by simp [added]⟩

theorem Same.asked {before middle : Exchange R} (same : Same before middle) (op : Op R)
    (reply : Reply R op) (quiet : Quiet op) : Same before (middle ++ [⟨op, reply⟩]) :=
  same.trans ((Silent.refl middle).asked op reply quiet)

/-- A key put to the limiter, with the reply. -/
theorem Same.allowed {before middle : Exchange R} (same : Same before middle) (id : Nat)
    (rate : Int) (reply : Option (Bool × Int)) :
    Same before (middle ++ [⟨.allow id rate, reply⟩]) :=
  same.trans ⟨by simp, by simp, List.prefix_append _ _⟩

abbrev seen : Monitor (Exchange R) (Op R) (Reply R) := .history (Op R) (Reply R)

variable {history : Exchange R}

theorem wp_query {post : Except Exn Value → Exchange R → Prop} (op : Op R)
    (rest : Reply R op → Gateway R Value) :
    ((query op).bind rest).wp seen post history ↔
      ∀ reply, (rest reply).wp seen post (history ++ [⟨op, reply⟩]) :=
  wp_asked op _

/-- Quiet programs leave the selections and requests as they were. -/
theorem wp_quiet {program : Gateway R Value} {returns : Value → Prop}
    {post : Except Exn Value → Exchange R → Prop} (asks : program.Asks Quiet Mild returns)
    (returned : ∀ value last, Silent history last → returns value → post (.ok value) last)
    (raised : ∀ error last, Silent history last → Mild error → post (.error error) last) :
    program.wp seen post history := by
  have keeps (op : Op R) (quiet : Quiet op) :
      (seen : Monitor (Exchange R) (Op R) (Reply R)).Keeps (Silent history) op := by
    refine fun state held => ⟨trivial, fun reply last moved => ?_⟩
    rw [show last = state ++ [⟨op, reply⟩] from moved]
    exact held.asked op reply quiet
  refine wp_mono ?_ (wp_asks asks keeps (Silent.refl history))
  rintro (error | value) last ⟨same, ended⟩
  · exact raised error last same ended
  · exact returned value last same ended

/-- What a selection does: it reads the pool once and returns what it decides on
that reading. -/
theorem wp_select {post : Except Exn (Except KeyPool.Unselected (KeyPool.SelectedKey R)) →
      Exchange R → Prop}
    (config : AppConfig R) (runtime : Option (RuntimeScheduling R)) (provider : String)
    (exclude : List Nat)
    (failed : ∀ reply last unselected,
      Silent (history ++ [⟨.readPool provider exclude, reply⟩]) last →
      unselected.error = dbUnavailable ∨ unselected.error.code ∈ KeyPool.selectionCodes →
      post (.ok (.error unselected)) last)
    (chosen : ∀ view last selected,
      Silent (history ++ [⟨.readPool provider exclude, some view⟩]) last →
      KeyPool.decision view (KeyPool.weights config runtime) provider exclude = .ok selected →
      post (.ok (.ok { selected with apiKey := selected.apiKey.saved })) last)
    (raised : ∀ reply last, Silent (history ++ [⟨.readPool provider exclude, reply⟩]) last →
      post (.error .other) last) :
    (KeyPool.select config runtime provider exclude).wp seen post history := by
  have commit (view : PoolView R) (selected : KeyPool.SelectedKey R) {middle : Exchange R}
      (same : Silent (history ++ [⟨.readPool provider exclude, some view⟩]) middle)
      (decided : KeyPool.decision view (KeyPool.weights config runtime) provider exclude =
        .ok selected) :
      ((query (.commit { site := .reactivate, keys :=
          (KeyPool.scanKeys view (KeyPool.weights config runtime) provider exclude).reactivated })).bind
        fun ok => if ok = true then
            (done (.ok { selected with apiKey := selected.apiKey.saved }) :
              Gateway R (Except KeyPool.Unselected (KeyPool.SelectedKey R)))
          else (rollback selected.apiKey).bind fun _ => done (.error { error := dbUnavailable })).wp
        seen post middle := by
    refine (wp_query _ _).mpr fun ok => ?_
    have same := same.asked (.commit { site := .reactivate, keys :=
      (KeyPool.scanKeys view (KeyPool.weights config runtime) provider exclude).reactivated }) ok trivial
    cases ok with
    | true => exact chosen view _ selected same decided
    | false =>
      refine (wp_query _ _).mpr fun reply => ?_
      have same := same.asked (.reload selected.apiKey.id) reply trivial
      cases reply with
      | none => exact raised (some view) _ same
      | some row => exact failed (some view) _ _ same (.inl rfl)
  refine (wp_query _ _).mpr fun reply => ?_
  cases reply with
  | none => exact failed none _ _ (Silent.refl _) (.inl rfl)
  | some view =>
    refine (wp_query _ _).mpr fun reply => ?_
    have same := (Silent.refl (history ++ [⟨.readPool provider exclude, some view⟩])).asked
      (.keepFailures (KeyPool.scanKeys view (KeyPool.weights config runtime) provider
        exclude).failures) reply trivial
    dsimp only
    split
    · rename_i decided
      exact failed (some view) _ _ same (.inr (KeyPool.decision_error decided))
    · rename_i selected decided
      split
      · refine (wp_query _ _).mpr fun reply => ?_
        exact commit view selected (same.asked (.keepCursor provider _) reply trivial) decided
      · exact commit view selected same decided

/-- What a transport error raises, or what the database part may. -/
def Interrupted (setup : Setup R) (call : Call) (error : Exn) : Prop :=
  Mild error ∨ error = .fcam (upstreamTimeout setup call) ∨
    ∃ text, error = .fcam (upstreamUnavailable setup call text)

theorem wp_sendUpstream {post : Except Exn UpstreamResponse → Exchange R → Prop}
    (setup : Setup R) (call : Call) (key : KeyObject) (secret : String)
    (answered : ∀ sent resp last,
      Silent (history ++ [⟨.request key.id sent, .response resp⟩]) last → post (.ok resp) last)
    (failed : ∀ sent reply error last, Silent (history ++ [⟨.request key.id sent, reply⟩]) last →
      Interrupted setup call error → post (.error error) last) :
    (sendUpstream setup call key secret).wp seen post history := by
  refine (wp_query _ _).mpr fun reply => ?_
  cases reply with
  | response resp => exact answered _ resp _ (Silent.refl _)
  | other => exact failed _ _ _ _ (Silent.refl _) (.inl (.inl rfl))
  | timeout =>
    refine (wp_bind _).mpr (wp_quiet (quiet_of_about (about_recordFailure setup key _ _)) ?_ ?_)
    · exact fun _ last same _ => failed _ _ _ last same (.inr (.inl rfl))
    · exact fun error last same mild => failed _ _ _ last same (.inl mild)
  | httpError text =>
    refine (wp_bind _).mpr (wp_quiet (quiet_of_about (about_recordFailure setup key _ _)) ?_ ?_)
    · exact fun _ last same _ => failed _ _ _ last same (.inr (.inr ⟨text, rfl⟩))
    · exact fun error last same mild => failed _ _ _ last same (.inl mild)

theorem wp_release {post : Except Exn Value → Exchange R → Prop} (keyId : Nat)
    (outcome : Except Exn Value)
    (rest : ∀ last, Silent history last → post outcome last) :
    ((query (R := R) (.release keyId)).bind fun _ => leaf outcome).wp seen post history := by
  refine (wp_query _ _).mpr fun reply => ?_
  have same := (Silent.refl history).asked (.release keyId) reply trivial
  cases outcome <;> exact rest _ same

theorem wp_poolRequest {post : Except Exn (Option UpstreamResponse) → Exchange R → Prop}
    (setup : Setup R) (call : Call) (masterKey : Bytes) (key : KeyObject)
    (undecryptable : ∀ last, Silent history last → post (.ok none) last)
    (answered : ∀ sent resp last,
      Silent (history ++ [⟨.request key.id sent, .response resp⟩]) last → post (.ok (some resp)) last)
    (unsent : ∀ error last, Silent history last → Mild error → post (.error error) last)
    (failed : ∀ sent reply error last, Silent (history ++ [⟨.request key.id sent, reply⟩]) last →
      Interrupted setup call error → post (.error error) last) :
    (poolRequest setup call masterKey key).wp seen post history := by
  refine (wp_ensuring _).mpr ?_
  split
  · refine (wp_bind _).mpr (wp_quiet (asks_disableKeyDecryptFailed key) ?_ ?_)
    · exact fun _ last same _ => wp_release key.id _ fun last later =>
        undecryptable last (same.trans later)
    · exact fun error last same mild => wp_release key.id _ fun last later =>
        unsent error last (same.trans later) mild
  · refine (wp_bind _).mpr (wp_sendUpstream setup call key _ ?_ ?_)
    · exact fun sent resp last same => wp_release key.id _ fun last later =>
        answered sent resp last (same.trans later)
    · exact fun sent reply error last same why => wp_release key.id _ fun last later =>
        failed sent reply error last (same.trans later) why

/-- The parts that handle a response end quietly, with the turn described. -/
theorem wp_poolResponse {post : Except Exn (Turn (ForwardResult R) (Progress R)) → Exchange R → Prop}
    (setup : Setup R) (call : Call) (progress : Progress R) (key : KeyObject)
    (resp : UpstreamResponse)
    (raised : ∀ error last, Silent history last → Mild error → post (.error error) last)
    (failedOver : ∀ last, Silent history last →
      classifyUpstreamOutcome resp ∈ [Outcome.rateLimit, .credit, .invalidKey] →
      post (.ok (failOver call progress key.id resp)) last)
    (passed : ∀ last, Silent history last →
      classifyUpstreamOutcome resp ∉ [Outcome.rateLimit, .credit, .invalidKey] →
      post (.ok (.leave (progress.result resp progress.retryCount))) last) :
    (poolResponse setup call progress key resp).wp seen post history := by
  have refreshed {Middle : Type} {rest : KeyObject → Gateway R Middle}
      {returns : KeyObject → Middle → Prop}
      (statusCode : Int) (asks : ∀ key, (rest key).Asks Quiet Mild (returns key))
      (outcome : classifyUpstreamOutcome resp ∈ [Outcome.rateLimit, .credit, .invalidKey]) :
      ((refreshCreditsOn4xx setup key statusCode).bind fun refreshed => (rest refreshed).bind fun _ =>
        (done (failOver call progress key.id resp) :
          Gateway R (Turn (ForwardResult R) (Progress R)))).wp seen post history := by
    refine (wp_bind _).mpr (wp_quiet (quiet_of_about (about_refreshCreditsOn4xx setup key _)) ?_ raised)
    refine fun key last same _ => (wp_bind _).mpr (wp_quiet (asks key) ?_ ?_)
    · exact fun _ last later _ => failedOver last (same.trans later) outcome
    · exact fun error last later mild => raised error last (same.trans later) mild
  unfold poolResponse
  split <;> rename_i outcome
  · exact refreshed _ (fun key => quiet_of_about (about_markCooling key _)) (by simp [outcome])
  · exact refreshed _ (fun key => quiet_of_about (about_zeroCredits key)) (by simp [outcome])
  · exact refreshed _ (fun key => quiet_of_about (about_disableKey key)) (by simp [outcome])
  · refine (wp_bind _).mpr (wp_quiet (quiet_of_about (about_recordFailure setup key _ _)) ?_ raised)
    exact fun _ last same _ => passed last same (by simp [outcome])
  · refine (wp_bind _).mpr (wp_quiet (asks_settleResponse setup call key resp) ?_ raised)
    exact fun _ last same _ => passed last same (by
      cases other : classifyUpstreamOutcome resp <;> simp_all)

/-- The error at the end of `forward` that no run reaches. -/
def Trailing (setup : Setup R) (call : Call) (error : Exn) : Prop :=
  ∃ progress, error = .fcam (trailingUnavailable setup call progress)

theorem mild_not_trailing {setup : Setup R} {call : Call} {error : Exn} (mild : Mild error) :
    ¬Trailing setup call error := by
  rintro ⟨progress, rfl⟩
  rcases mild with same | same
  · cases same
  · simp [trailingUnavailable, dbUnavailable] at same

theorem interrupted_not_trailing {setup : Setup R} {call : Call} {error : Exn}
    (why : Interrupted setup call error) : ¬Trailing setup call error := by
  rcases why with mild | rfl | ⟨text, rfl⟩
  · exact mild_not_trailing mild
  · rintro ⟨progress, same⟩
    simp [trailingUnavailable, upstreamTimeout] at same
  · rintro ⟨progress, same⟩
    simp [trailingUnavailable, upstreamUnavailable] at same

end FcamGateway.Forwarder
