import FcamGateway.ForwardBudget

/-! The pinned branch keeps to the one key, and with it the bounds hold for a
whole forward, whichever of its two loops it runs. -/
namespace FcamGateway.Forwarder
open Prog Credits Upstream

set_option linter.unusedSectionVars false

variable {R : Type} [Field R] [LinearOrder R] [ScoreMath R] {history : Exchange R}

/-- The run found its pinned key and may use it. -/
def PinnedTo (call : Call) (id : Nat) (events : Exchange R) : Prop :=
  call.pinnedApiKeyId = some id ∧ ∃ row rest,
    events = ⟨.findKey id, some (some row)⟩ :: rest ∧ usablePinned call.provider row = true

/-- So far the pinned key was used alone, at most so many times. -/
structure Alone (id allowed : Nat) (events : Exchange R) : Prop where
  only : ∀ other ∈ sends events, other = id
  budget : (sends events).length ≤ allowed
  unread : selections events = []

theorem Alone.same {id allowed more : Nat} {before after : Exchange R}
    (alone : Alone id allowed before) (same : Same before after) (fewer : allowed ≤ more) :
    Alone id more after where
  only other member := alone.only other (same.sent ▸ member)
  budget := same.sent ▸ alone.budget.trans fewer
  unread := same.selected.trans alone.unread

theorem Alone.request {id allowed : Nat} {before after : Exchange R} {sent : UpstreamRequest}
    {reply : UpstreamReply} (alone : Alone id allowed before)
    (same : Same (before ++ [⟨.request id sent, reply⟩]) after) : Alone id (allowed + 1) after := by
  refine Alone.same ⟨fun other member => ?_, ?_, ?_⟩ same (Nat.le_refl _)
  · rw [sends_requested] at member
    rcases List.mem_append.mp member with earlier | last
    · exact alone.only other earlier
    · exact List.mem_singleton.mp last
  · rw [sends_requested, List.length_append]
    exact Nat.add_le_add_right alone.budget 1
  · rw [selections_requested]
    exact alone.unread

private theorem wp_pinnedRequest {post : Except Exn UpstreamResponse → Exchange R → Prop}
    (setup : Setup R) (call : Call) (masterKey : Bytes) (key : KeyObject)
    (answered : ∀ sent resp last,
      Silent (history ++ [⟨.request key.id sent, .response resp⟩]) last → post (.ok resp) last)
    (unsent : ∀ error last, Silent history last → ¬Trailing setup call error →
      post (.error error) last)
    (failed : ∀ sent reply error last, Silent (history ++ [⟨.request key.id sent, reply⟩]) last →
      Interrupted setup call error → post (.error error) last) :
    (pinnedRequest setup call masterKey key).wp seen post history := by
  have undecryptable : ¬Trailing setup call (.fcam keyDecryptFailed) := by
    simp [Trailing, keyDecryptFailed, trailingUnavailable]
  refine (wp_ensuring _).mpr ?_
  split
  · refine (wp_bind _).mpr (wp_quiet (asks_disableKeyDecryptFailed key) ?_ ?_)
    · exact fun _ last same _ => wp_release key.id _ fun last later =>
        unsent _ last (same.trans later) undecryptable
    · exact fun error last same mild => wp_release key.id _ fun last later =>
        unsent error last (same.trans later) (mild_not_trailing mild)
  · refine wp_sendUpstream setup call key _ ?_ ?_
    · exact fun sent resp last same => wp_release key.id _ fun last later =>
        answered sent resp last (same.trans later)
    · exact fun sent reply error last same why => wp_release key.id _ fun last later =>
        failed sent reply error last (same.trans later) why

/-- What an attempt with the pinned key does: one request at most, and it goes
on only where another attempt is left. -/
def AttemptEnds (setup : Setup R) (call : Call) (id attempt : Nat) :
    Except Exn (Turn (ForwardResult R) (KeyObject × Progress R)) → Exchange R → Prop
  | .error error, events => Alone id (attempt + 1) events ∧ ¬Trailing setup call error
  | .ok (.leave _), events => Alone id (attempt + 1) events
  | .ok (.again loop), events => Alone id (attempt + 1) events ∧ loop.1.id = id ∧
    attempt + 1 < clientRetryBudget call.client.current

private theorem wp_pinnedTurn (setup : Setup R) (call : Call) (masterKey : Bytes)
    (attempt : Nat) (loop : KeyObject × Progress R) (alone : Alone loop.1.id attempt history) :
    (pinnedTurn setup call masterKey attempt loop).wp seen
      (AttemptEnds setup call loop.1.id attempt) history := by
  have refused {last : Exchange R} {error : FcamError} (same : Same history last)
      (unlike : error.code ≠ "UPSTREAM_UNAVAILABLE") :
      AttemptEnds setup call loop.1.id attempt (.error (.fcam error)) last := by
    refine ⟨alone.same same (Nat.le_succ _), ?_⟩
    rintro ⟨progress, equal⟩
    cases equal
    exact unlike rfl
  refine (wp_query _ _).mpr fun allowed => ?_
  have allowing := (Same.refl history).allowed loop.1.id loop.1.current.rateLimitPerMin
    allowed
  rcases allowed with _ | ⟨_ | _, _⟩
  · exact refused allowing (by decide)
  · exact refused allowing (by simp [allKeysBusyPinned])
  refine (wp_query _ _).mpr fun granted => ?_
  have leasing := allowing.asked (.acquire loop.1.id loop.1.current.maxConcurrent) granted trivial
  rcases granted with _ | _ | _
  · exact refused leasing (by decide)
  · exact refused leasing (by simp [allKeysBusyPinned])
  have alone := alone.same leasing (Nat.le_refl _)
  refine (wp_bind _).mpr (wp_pinnedRequest setup call masterKey loop.1 ?_ ?_ ?_)
  · intro sent resp last same
    have used := alone.request same.toSame
    have left {final : Exchange R} (same : Silent last final) : Alone loop.1.id (attempt + 1) final :=
      used.same same (Nat.le_refl _)
    have raised (error : Exn) (final : Exchange R) (same : Silent last final) (mild : Mild error) :
        AttemptEnds setup call loop.1.id attempt (.error error) final :=
      ⟨left same, mild_not_trailing mild⟩
    have settled {program : Gateway R Unit} {result : ForwardResult R} {before : Exchange R}
        (quiet : QuietUnit program) (earlier : Silent last before) :
        (program.bind fun _ => (done (.leave result) :
          Gateway R (Turn (ForwardResult R) (KeyObject × Progress R)))).wp seen
            (AttemptEnds setup call loop.1.id attempt) before := by
      refine (wp_bind _).mpr (wp_quiet quiet ?_ ?_)
      · exact fun _ final later _ => left (earlier.trans later)
      · exact fun error final later mild => raised error final (earlier.trans later) mild
    simp only [thenPost, bind_eq, pure_eq]
    split
    · refine (wp_bind _).mpr
        (wp_quiet (quiet_of_about (about_refreshCreditsOn4xx setup loop.1 _)) ?_ raised)
      intro key middle same id
      refine (wp_bind _).mpr (wp_quiet (quiet_of_about (about_markCooling key _)) ?_ ?_)
      · intro cooled final later sameId
        simp only [thenPost]
        split
        · exact left (same.trans later)
        · rename_i more
          exact ⟨left (same.trans later), sameId.trans id, Nat.not_le.mp more⟩
      · exact fun error final later mild => raised error final (same.trans later) mild
    · refine (wp_bind _).mpr
        (wp_quiet (quiet_of_about (about_refreshCreditsOn4xx setup loop.1 _)) ?_ raised)
      refine fun key middle same _ => (wp_bind _).mpr
        (wp_quiet (quiet_of_about (about_disableKey key)) ?_ ?_)
      · exact fun _ final later _ => left (same.trans later)
      · exact fun error final later mild => raised error final (same.trans later) mild
    · refine (wp_bind _).mpr
        (wp_quiet (quiet_of_about (about_recordFailure setup loop.1 _ _)) ?_ raised)
      exact fun _ final later _ => left later
    · split
      · refine (wp_bind _).mpr
          (wp_quiet (quiet_of_about (about_refreshCreditsOn4xx setup loop.1 _)) ?_ raised)
        refine fun key middle same _ => (wp_bind _).mpr
          (wp_quiet (quiet_of_about (about_zeroCredits key)) ?_ ?_)
        · exact fun _ final later _ =>
            settled (asks_settleResponse setup call loop.1 resp) (same.trans later)
        · exact fun error final later mild => raised error final (same.trans later) mild
      · exact settled (asks_settleResponse setup call loop.1 resp) (Silent.refl _)
  · exact fun error last same unlike => ⟨alone.same same (Nat.le_succ _), unlike⟩
  · exact fun sent reply error last same why =>
      ⟨alone.request same.toSame, interrupted_not_trailing why⟩

/-- The attempts with the pinned key never run out without a result. -/
private theorem wp_pinnedLoop (setup : Setup R) (call : Call) (masterKey : Bytes) (left : Nat)
    (loop : KeyObject × Progress R) (some_left : 0 < left)
    (within : left ≤ clientRetryBudget call.client.current)
    (alone : Alone loop.1.id (clientRetryBudget call.client.current - left) history) :
    (pinnedLoop setup call masterKey left loop).wp seen (fun outcome events =>
      Alone loop.1.id (clientRetryBudget call.client.current) events ∧
      (∀ error, outcome = .error error → ¬Trailing setup call error) ∧
      ∀ progress, outcome ≠ .ok (.again progress)) history := by
  induction left generalizing history loop with
  | zero => omega
  | succ left ih =>
    have all {events : Exchange R}
        (used : Alone loop.1.id (clientRetryBudget call.client.current - (left + 1) + 1) events) :
        Alone loop.1.id (clientRetryBudget call.client.current) events :=
      used.same (Same.refl _) (by omega)
    refine (wp_bind _).mpr (wp_mono ?_ (wp_pinnedTurn setup call masterKey _ loop alone))
    rintro (error | result | next) last
    · rintro ⟨used, unlike⟩
      exact ⟨all used, fun _ same => by cases same; exact unlike, nofun⟩
    · exact fun used => ⟨all used, nofun, nofun⟩
    · rintro ⟨used, id, more⟩
      rw [← id] at used ⊢
      exact ih next (by omega) (by omega) (used.same (Same.refl _) (by omega))

theorem clientRetryBudget_pos (client : ClientColumns) : 0 < clientRetryBudget client := by
  simp only [clientRetryBudget]
  omega

private theorem pinned_first {call : Call} {id other : Nat} {reply : Option (Option KeyColumns)}
    {events : Exchange R} (started : [⟨.findKey id, reply⟩] <+: events)
    (pinned : PinnedTo call other events) :
    other = id ∧ ∃ row, reply = some (some row) ∧ usablePinned call.provider row = true := by
  obtain ⟨_, row, rest, rfl, usable⟩ := pinned
  obtain ⟨back, same⟩ := started
  cases same
  exact ⟨rfl, row, rfl, usable⟩

/-- A run that found no pinned key to use and has not touched the pool. -/
structure Unpinned (call : Call) (start : Exchange R) : Prop where
  unsent : sends start = []
  unread : selections start = []
  untaken : taken start = []
  early : start = [] ∨ ∃ id reply, start = [⟨.findKey id, reply⟩]
  free : ∀ events, start <+: events → ∀ id, ¬PinnedTo call id events

private theorem unpinned_found {call : Call} {id : Nat} {reply : Option (Option KeyColumns)}
    (unusable : ∀ row, reply = some (some row) → usablePinned call.provider row = false) :
    Unpinned (R := R) call [⟨.findKey id, reply⟩] := by
  refine ⟨rfl, rfl, rfl, .inr ⟨id, reply, rfl⟩, fun events grown other pinned => ?_⟩
  obtain ⟨_, row, found, usable⟩ := pinned_first grown pinned
  simp [unusable row found] at usable

/-- The call has a master key and a configured provider. -/
def Ready (setup : Setup R) (call : Call) : Prop :=
  setup.masterKey ≠ none ∧ ∃ url, providerBaseUrl setup.config call.provider = .ok url

/-- A run that ends before it uses a pinned key or the pool: the call is not ready, or its
pinned key cannot be read. -/
structure RefusedAtOnce (setup : Setup R) (call : Call) (error : FcamError) (events : Exchange R) :
    Prop where
  unsent : sends events = []
  unread : selections events = []
  free : ∀ id, ¬PinnedTo call id events
  code : error.code ∈ ["NOT_READY", "PROVIDER_NOT_CONFIGURED", "DB_UNAVAILABLE"]
  early : (¬ Ready setup call ∧ events = []) ∨ ∃ id, events = [⟨.findKey id, none⟩]

theorem RefusedAtOnce.unlike {setup : Setup R} {call : Call} {error : FcamError}
    {events : Exchange R} (refused : RefusedAtOnce setup call error events) :
    error.code ≠ "UPSTREAM_UNAVAILABLE" := by
  intro same
  have code := refused.code
  rw [same] at code
  exact absurd code (by decide)

/-- What a forward does: it is refused at the start, keeps to its pinned key, or
runs the pool loop. -/
theorem wp_forward {post : Except Exn (ForwardResult R) → Exchange R → Prop} (setup : Setup R)
    (call : Call)
    (refused : ∀ error events, RefusedAtOnce setup call error events →
      post (.error (.fcam error)) events)
    (pinned : ∀ outcome events id, PinnedTo call id events →
      Alone id (clientRetryBudget call.client.current) events →
      (∀ error, outcome = .error error → ¬Trailing setup call error) → post outcome events)
    (pool : ∀ masterKey start, Ready setup call → Unpinned call start →
      (poolLoop setup call masterKey (maxSelectionTries call) {}).wp seen post start) :
    (forward setup call).wp seen post [] := by
  have empty (id : Nat) : ¬PinnedTo (R := R) call id [] := by
    rintro ⟨_, row, rest, none, _⟩
    cases none
  unfold forward
  split
  · rename_i unset
    exact refused _ _ ⟨rfl, rfl, empty, by decide, .inl ⟨fun ready => ready.1 unset, rfl⟩⟩
  rename_i masterKey keyed
  split
  · rename_i error refusal
    refine refused _ _ ⟨rfl, rfl, empty, ?_, .inl ⟨?_, rfl⟩⟩
    · simp only [providerBaseUrl] at refusal
      repeat' split at refusal
      all_goals cases refusal
      all_goals simp
    · rintro ⟨_, url, configured⟩
      rw [refusal] at configured
      cases configured
  rename_i url configured
  have ready : Ready setup call := ⟨by simp [keyed], url, configured⟩
  refine (wp_bind _).mpr ?_
  unfold pinnedBranch
  split
  · rename_i unset
    refine pool masterKey [] ready ⟨rfl, rfl, rfl, .inl rfl, ?_⟩
    rintro events _ id ⟨set, _⟩
    simp [unset] at set
  rename_i id chosen
  refine (wp_query _ _).mpr fun reply => ?_
  rcases reply with _ | _ | row
  · have free : Unpinned (R := R) call [⟨.findKey id, none⟩] :=
      unpinned_found fun _ same => by cases same
    exact refused _ _ ⟨rfl, rfl, free.free _ (List.prefix_refl _), by decide, .inr ⟨id, rfl⟩⟩
  · exact pool masterKey _ ready (unpinned_found fun _ same => by cases same)
  dsimp only
  split
  · rename_i usable
    have start : Alone id (clientRetryBudget call.client.current -
        clientRetryBudget call.client.current)
        ([] ++ [⟨.findKey id, some (some row)⟩] : Exchange R) := by
      refine ⟨?_, ?_, rfl⟩ <;> simp [sends]
    have found {events : Exchange R} (grown : [] ++ [⟨.findKey id, some (some row)⟩] <+: events) :
        PinnedTo call id events := by
      obtain ⟨rest, whole⟩ := grown
      exact ⟨chosen, row, rest, whole.symm, usable⟩
    refine wp_mono ?_ (wp_grown (List.prefix_refl _) (wp_pinnedLoop setup call masterKey _
      (KeyObject.fresh id row, _) (clientRetryBudget_pos _) (Nat.le_refl _) start))
    rintro (error | result | progress) events ⟨grown, alone, reached, left⟩
    · exact pinned _ events id (found grown) alone fun _ same => by cases same; exact reached _ rfl
    · exact pinned _ events id (found grown) alone fun _ same => by cases same
    · exact absurd rfl (left progress)
  · rename_i unusable
    exact pool masterKey _ ready (unpinned_found fun _ same => by cases same; simpa using unusable)

/-- What holds of every run of a forward. -/
structure Budgeted (setup : Setup R) (call : Call) (outcome : Except Exn (ForwardResult R))
    (events : Exchange R) : Prop where
  budget : (sends events).length ≤ clientRetryBudget call.client.current
  selected : (selections events).length ≤ maxSelectionTries call
  pool : (∀ id, ¬PinnedTo call id events) →
    (sends events).Nodup ∧ ∀ id ∈ sends events, Offered call.provider events id
  pinned : ∀ id, PinnedTo call id events → (∀ other ∈ sends events, other = id) ∧
    selections events = []
  reached : ∀ error, outcome = .error error → ¬Trailing setup call error

theorem PinnedTo.unique {call : Call} {id other : Nat} {events : Exchange R}
    (one : PinnedTo call id events) (two : PinnedTo call other events) : other = id :=
  Option.some.inj (two.1.symm.trans one.1)

theorem wp_budgeted (setup : Setup R) (call : Call) :
    (forward setup call).wp seen (Budgeted setup call) [] := by
  refine wp_forward setup call ?_ ?_ ?_
  · intro error events refused
    refine ⟨by simp [refused.unsent], by simp [refused.unread], fun _ => by simp [refused.unsent],
      fun id pinned => absurd pinned (refused.free id), ?_⟩
    rintro _ ⟨⟩ ⟨progress, equal⟩
    cases equal
    exact refused.unlike rfl
  · intro outcome events id pinned alone reached
    refine ⟨alone.budget, by simp [alone.unread], fun free => absurd pinned (free id), ?_, reached⟩
    intro other same
    cases pinned.unique same
    exact ⟨alone.only, alone.unread⟩
  · intro masterKey start _ unpinned
    have inv : PoolInv call start ({} : Progress R) := by
      refine ⟨⟨?_, ?_, ?_⟩, ?_, ?_, fun attempted => absurd rfl attempted⟩ <;>
        simp [unpinned.unsent]
    refine wp_mono ?_ (wp_grown (List.prefix_refl _) (wp_poolLoop setup call masterKey _ {} inv))
    rintro outcome events ⟨grown, ends⟩
    have within := ends.selected
    rw [unpinned.unread, List.length_nil, Nat.zero_add] at within
    exact ⟨ends.bounded.budget, within, fun _ => ⟨ends.bounded.distinct, ends.bounded.offered⟩,
      fun id pinned => absurd pinned (unpinned.free events grown id), ends.reached⟩

/-- A forward ends however its surroundings answer, every turn of its pool loop
leaves or tries a new key, and every run keeps to its bounds. -/
theorem forward_budgeted (setup : Setup R) (call : Call) :
    (∀ {World : Type} (answer : World → (op : Op R) → Reply R op × World) (world : World),
      ∃ events outcome last, (forward setup call).Ran events outcome ∧
        Follows (Monitor.answering answer).moves world events last) ∧
    (∀ masterKey progress events next,
      (poolTurn setup call masterKey progress).Ran events (.ok (.again next)) →
        ∃ id, id ∉ progress.triedKeyIds ∧ next.triedKeyIds = id :: progress.triedKeyIds) ∧
    ∀ events outcome, (forward setup call).Ran events outcome →
      Budgeted setup call outcome events := by
  refine ⟨?_, ?_, ?_⟩
  · intro World answer world
    exact ⟨_, _, _, execute_ran answer _ world, execute_follows (fun _ _ => rfl) _ world⟩
  · intro masterKey progress events next ran
    exact asks_reaches ran (poolTurn_grows setup call masterKey progress)
  · exact fun events outcome ran => wp_history ran (wp_budgeted setup call)

end FcamGateway.Forwarder
