import FcamGateway.ForwardExchange

/-! The bounds of a forward: how many proxied requests it sends, with which
keys, and when it ends. The pool loop is followed turn by turn; its invariant
ties the loop variables to the requests sent so far. -/
namespace FcamGateway.Forwarder
open Prog Credits Upstream

set_option linter.unusedSectionVars false

variable {R : Type} [Field R] [LinearOrder R] [ScoreMath R] {history : Exchange R}

/-- A selection read the key among the rows of the provider. -/
def Offered (provider : String) (events : Exchange R) (id : Nat) : Prop :=
  ∃ exclude, ∃ view : PoolView R, ∃ row,
    (⟨.readPool provider exclude, some view⟩ : Event (Op R) (Reply R)) ∈ events ∧
      view.keys.get? id = some row ∧ row.provider = provider

theorem Offered.mono {provider : String} {before after : Exchange R} {id : Nat}
    (offered : Offered provider before id) (grown : before <+: after) :
    Offered provider after id := by
  obtain ⟨exclude, view, row, member, facts⟩ := offered
  exact ⟨exclude, view, row, grown.subset member, facts⟩

/-- What the requests of a pool run obey at every point. -/
structure Bounded (call : Call) (events : Exchange R) : Prop where
  distinct : (sends events).Nodup
  budget : (sends events).length ≤ clientRetryBudget call.client.current
  offered : ∀ id ∈ sends events, Offered call.provider events id

/-- The invariant at the head of the pool loop. -/
structure PoolInv (call : Call) (events : Exchange R) (progress : Progress R) : Prop where
  bounded : Bounded call events
  tried : ∀ id ∈ sends events, id ∈ progress.triedKeyIds
  counted : (sends events).length = progress.upstreamAttempts
  kept : progress.upstreamAttempts ≠ 0 → progress.lastErrorResponse ≠ none

theorem Bounded.same {call : Call} {before after : Exchange R} (bounded : Bounded call before)
    (same : Same before after) : Bounded call after where
  distinct := same.sent ▸ bounded.distinct
  budget := same.sent ▸ bounded.budget
  offered id member := (bounded.offered id (same.sent ▸ member)).mono same.grown

/-- A request with a key that was offered and not used keeps the bounds. -/
theorem Bounded.request {call : Call} {before after : Exchange R} {id : Nat}
    (bounded : Bounded call before) (sent : sends after = sends before ++ [id])
    (grown : before <+: after) (unused : id ∉ sends before)
    (below : (sends before).length < clientRetryBudget call.client.current)
    (offered : Offered call.provider before id) : Bounded call after where
  distinct := by
    rw [sent]
    exact List.nodup_append.mpr ⟨bounded.distinct, List.nodup_singleton id, fun a member b last => by
      cases List.mem_singleton.mp last
      exact fun same => unused (same ▸ member)⟩
  budget := by
    rw [sent, List.length_append, List.length_singleton]
    omega
  offered other member := by
    rw [sent] at member
    rcases List.mem_append.mp member with earlier | last
    · exact (bounded.offered other earlier).mono grown
    · cases List.mem_singleton.mp last
      exact offered.mono grown

/-- What one turn of the pool loop does: it selects once and keeps the bounds,
and where it goes on, the invariant. -/
def TurnEnds (setup : Setup R) (call : Call) (before : Exchange R) :
    Except Exn (Turn (ForwardResult R) (Progress R)) → Exchange R → Prop
  | .error error, events => Bounded call events ∧ ¬Trailing setup call error ∧
    (selections events).length = (selections before).length + 1
  | .ok (.leave _), events => Bounded call events ∧
    (selections events).length = (selections before).length + 1
  | .ok (.again next), events => PoolInv call events next ∧
    (selections events).length = (selections before).length + 1

theorem PoolInv.selected {call : Call} {progress : Progress R} {before after : Exchange R}
    {provider : String} {exclude : List Nat} {reply : Option (PoolView R)}
    (inv : PoolInv call before progress)
    (same : Same (before ++ [⟨.readPool provider exclude, reply⟩]) after) :
    PoolInv call after progress ∧ (selections after).length = (selections before).length + 1 := by
  have sent : sends after = sends before := by simp [same.sent]
  have grown : before <+: after := (List.prefix_append _ _).trans same.grown
  refine ⟨⟨⟨?_, ?_, ?_⟩, ?_, ?_, inv.kept⟩, by simp [same.selected]⟩
  · exact sent ▸ inv.bounded.distinct
  · exact sent ▸ inv.bounded.budget
  · exact fun id member => (inv.bounded.offered id (sent ▸ member)).mono grown
  · exact fun id member => inv.tried id (sent ▸ member)
  · exact sent ▸ inv.counted

theorem PoolInv.same {call : Call} {progress : Progress R} {before after : Exchange R}
    (inv : PoolInv call before progress) (same : Same before after) : PoolInv call after progress :=
  ⟨inv.bounded.same same, fun id member => inv.tried id (same.sent ▸ member),
    same.sent ▸ inv.counted, inv.kept⟩

/-- A key that is skipped is one more key tried. -/
theorem PoolInv.skip {call : Call} {progress next : Progress R} {events : Exchange R} {id : Nat}
    (inv : PoolInv call events progress) (tried : next.triedKeyIds = id :: progress.triedKeyIds)
    (attempts : next.upstreamAttempts = progress.upstreamAttempts)
    (response : next.lastErrorResponse = progress.lastErrorResponse) :
    PoolInv call events next := by
  refine ⟨inv.bounded, fun other member => ?_, attempts ▸ inv.counted, ?_⟩
  · rw [tried]
    exact List.mem_cons_of_mem _ (inv.tried other member)
  · rw [attempts, response]
    exact inv.kept

/-- The turn from the upstream response on. -/
private theorem wp_answeredTurn (setup : Setup R) (call : Call) (progress settled : Progress R)
    (before : Exchange R) (key : KeyObject) (resp : UpstreamResponse)
    (bounded : Bounded call history)
    (tried : settled.triedKeyIds = progress.triedKeyIds)
    (counted : (sends history).length = settled.upstreamAttempts)
    (used : ∀ id ∈ sends history, id ∈ key.id :: progress.triedKeyIds)
    (once : (selections history).length = (selections before).length + 1) :
    (poolResponse setup call settled key resp).wp seen
      (TurnEnds setup call before) history := by
  refine wp_poolResponse setup call settled key resp ?_ ?_ ?_
  · exact fun error last same mild =>
      ⟨bounded.same same, mild_not_trailing mild, same.selected ▸ once⟩
  · intro last same _
    simp only [failOver]
    split
    · exact ⟨bounded.same same, same.selected ▸ once⟩
    · refine ⟨⟨bounded.same same, ?_, same.sent ▸ counted, fun _ => nofun⟩, same.selected ▸ once⟩
      intro id member
      simp only [Progress.skip, tried]
      exact used id (same.sent ▸ member)
  · exact fun last same _ => ⟨bounded.same same, same.selected ▸ once⟩

private theorem wp_selectedTurn (setup : Setup R) (call : Call) (masterKey : Bytes)
    (progress : Progress R) (before : Exchange R) (key : KeyObject)
    (inv : PoolInv call history progress)
    (below : progress.upstreamAttempts < clientRetryBudget call.client.current)
    (fresh : key.id ∉ progress.triedKeyIds) (offered : Offered call.provider history key.id)
    (once : (selections history).length = (selections before).length + 1) :
    (selectedTurn setup call masterKey progress key).wp seen
      (TurnEnds setup call before) history := by
  have skipped {last : Exchange R} {next : Progress R} (same : Same history last)
      (tried : next.triedKeyIds = key.id :: progress.triedKeyIds)
      (attempts : next.upstreamAttempts = progress.upstreamAttempts)
      (response : next.lastErrorResponse = progress.lastErrorResponse) :
      TurnEnds setup call before (.ok (.again next)) last :=
    ⟨(inv.same same).skip tried attempts response, same.selected ▸ once⟩
  have raised {last : Exchange R} (same : Same history last) :
      TurnEnds setup call before (.error (.fcam stateUnavailable)) last :=
    ⟨inv.bounded.same same, by simp [Trailing, stateUnavailable, trailingUnavailable],
      same.selected ▸ once⟩
  refine (wp_query _ _).mpr fun allowed => ?_
  have allowing := (Same.refl history).allowed key.id key.current.rateLimitPerMin allowed
  rcases allowed with _ | ⟨_ | _, _⟩
  · exact raised allowing
  · exact skipped allowing rfl rfl rfl
  · refine (wp_query _ _).mpr fun granted => ?_
    have leasing := allowing.asked (.acquire key.id key.current.maxConcurrent) granted trivial
    rcases granted with _ | _ | _
    · exact raised leasing
    · exact skipped leasing rfl rfl rfl
    · have inv := inv.same leasing
      have once := leasing.selected ▸ once
      have unused := fun member => fresh (inv.tried key.id member)
      have sentOnce {final : Exchange R} {sent : UpstreamRequest} {reply : UpstreamReply}
          (same : Silent (_ ++ [⟨.request key.id sent, reply⟩]) final) : Bounded call final :=
        inv.bounded.request (by rw [same.sent, sends_requested])
          ((List.prefix_append _ _).trans same.grown) unused
          (inv.counted ▸ below) (offered.mono leasing.grown)
      refine (wp_bind _).mpr (wp_poolRequest setup call masterKey key ?_ ?_ ?_ ?_)
      · exact fun last same => skipped (leasing.trans same) rfl rfl rfl
      · intro sent resp last same
        refine wp_answeredTurn setup call progress _ before key resp (sentOnce same) rfl ?_ ?_ ?_
        · rw [same.sent, sends_requested, List.length_append, inv.counted]
          rfl
        · intro id member
          rw [same.sent, sends_requested] at member
          rcases List.mem_append.mp member with earlier | recent
          · exact List.mem_cons_of_mem _ (inv.tried id earlier)
          · cases List.mem_singleton.mp recent
            exact List.mem_cons_self
        · rw [same.selected, selections_requested]
          exact once
      · exact fun error last same mild =>
          ⟨inv.bounded.same same, mild_not_trailing mild, same.selected ▸ once⟩
      · intro sent reply error last same why
        refine ⟨sentOnce same, interrupted_not_trailing why, ?_⟩
        rw [same.selected, selections_requested]
        exact once

theorem wp_poolTurn (setup : Setup R) (call : Call) (masterKey : Bytes) (progress : Progress R)
    (inv : PoolInv call history progress)
    (below : progress.upstreamAttempts < clientRetryBudget call.client.current) :
    (poolTurn setup call masterKey progress).wp seen
      (TurnEnds setup call history) history := by
  refine (wp_bind _).mpr (wp_select setup.config setup.runtime call.provider _ ?_ ?_ ?_)
  · intro reply last unselected same why
    obtain ⟨inv, once⟩ := inv.selected same.toSame
    have unlike : ¬Trailing setup call (.fcam unselected.error) := by
      rintro ⟨_, equal⟩
      have code := congrArg FcamError.code (Exn.fcam.inj equal)
      rcases why with failed | listed
      · rw [failed] at code
        simp [dbUnavailable, trailingUnavailable] at code
      · rw [code] at listed
        simp [trailingUnavailable, KeyPool.selectionCodes] at listed
    simp only [thenPost]
    split
    · exact ⟨inv.bounded, by simp [Trailing, keyDecryptFailed, trailingUnavailable], once⟩
    · split
      · split
        · exact ⟨inv.bounded, once⟩
        · exact ⟨inv.bounded, unlike, once⟩
      · exact ⟨inv.bounded, unlike, once⟩
  · intro view last selected same decided
    obtain ⟨_, key, listed, chosen, eligible⟩ := KeyPool.decision_eligible decided
    obtain ⟨found, _, provider⟩ := KeyPool.mem_providerKeys.mp listed
    have id : selected.apiKey.id = key.id := by rw [chosen, KeyPool.id_settled]
    have fresh : selected.apiKey.id ∉ progress.triedKeyIds := id ▸ eligible.kept
    have offered : Offered call.provider last selected.apiKey.id :=
      ⟨_, view, key.loaded, same.grown.subset (List.mem_append_right _ (List.mem_singleton_self _)),
        id ▸ found, provider⟩
    obtain ⟨inv, once⟩ := inv.selected same.toSame
    have inv : PoolInv call last { progress with
        selectionScore := some selected.score, lastApiKeyId := some selected.apiKey.id } :=
      ⟨inv.bounded, inv.tried, inv.counted, inv.kept⟩
    exact wp_selectedTurn setup call masterKey _ history selected.apiKey.saved inv below fresh offered
      once
  · intro reply last same
    obtain ⟨inv, once⟩ := inv.selected same.toSame
    exact ⟨inv.bounded, by simp [Trailing], once⟩

/-- What follows the pool loop. -/
private theorem wp_afterPool (setup : Setup R) (call : Call) (progress : Progress R)
    (inv : PoolInv call history progress) :
    (afterPool setup call progress).wp seen (fun outcome events => events = history ∧
      ∀ error, outcome = .error error → ¬Trailing setup call error) history := by
  unfold afterPool
  split
  · refine ⟨rfl, fun error same => ?_⟩
    cases same
    simp [Trailing, allKeysBusy, trailingUnavailable]
  · rename_i attempted
    obtain ⟨resp, last⟩ := Option.ne_none_iff_exists'.mp (inv.kept attempted)
    simp only [last]
    refine ⟨rfl, fun error same => ?_⟩
    cases same

/-- What the pool loop obeys when it ends. -/
structure PoolEnds (setup : Setup R) (call : Call) (tries : Nat)
    (outcome : Except Exn (ForwardResult R)) (events : Exchange R) : Prop where
  bounded : Bounded call events
  selected : (selections events).length ≤ tries
  reached : ∀ error, outcome = .error error → ¬Trailing setup call error

/-- The pool loop: each turn keeps the invariant and costs one try. -/
theorem wp_poolLoop (setup : Setup R) (call : Call) (masterKey : Bytes) (left : Nat)
    (progress : Progress R) (inv : PoolInv call history progress) :
    (poolLoop setup call masterKey left progress).wp seen
      (PoolEnds setup call ((selections history).length + left)) history := by
  have ended (tries : Nat) {history : Exchange R} {progress : Progress R}
      (inv : PoolInv call history progress) (within : (selections history).length ≤ tries) :
      (afterPool setup call progress).wp seen (PoolEnds setup call tries) history := by
    refine wp_mono ?_ (wp_afterPool setup call progress inv)
    rintro outcome _ ⟨rfl, reached⟩
    exact ⟨inv.bounded, within, reached⟩
  induction left generalizing history progress with
  | zero => exact ended _ inv (Nat.le_add_right _ _)
  | succ left ih =>
    simp only [poolLoop, bind_eq, pure_eq]
    split
    · rename_i below
      refine (wp_bind _).mpr (wp_mono ?_ (wp_poolTurn setup call masterKey progress inv below))
      rintro (error | result | next) last
      · rintro ⟨bounded, unlike, once⟩
        exact ⟨bounded, by omega, fun _ same => by cases same; exact unlike⟩
      · rintro ⟨bounded, once⟩
        exact ⟨bounded, by omega, fun _ same => nomatch same⟩
      · rintro ⟨inv, once⟩
        refine wp_mono ?_ (ih next inv)
        exact fun outcome events ends => ⟨ends.bounded, by have := ends.selected; omega, ends.reached⟩
    · exact ended _ inv (Nat.le_add_right _ _)

/-- A turn that goes on has tried one key more. -/
def Grown (tried : List Nat) : Turn (ForwardResult R) (Progress R) → Prop
  | .leave _ => True
  | .again next => ∃ id, id ∉ tried ∧ next.triedKeyIds = id :: tried

private abbrev Always (program : Gateway R Value) (returns : Value → Prop) : Prop :=
  program.Asks (fun _ => True) (fun _ => True) returns

private theorem select_fresh (config : AppConfig R) (runtime : Option (RuntimeScheduling R))
    (provider : String) (exclude : List Nat) :
    Always (KeyPool.select config runtime provider exclude)
      fun selection => ∀ selected, selection = .ok selected → selected.apiKey.id ∉ exclude := by
  have refused (error : KeyPool.Unselected) (selected : KeyPool.SelectedKey R) :
      (Except.error error : Except KeyPool.Unselected _) = .ok selected →
        selected.apiKey.id ∉ exclude := nofun
  refine ⟨trivial, fun reply => ?_⟩
  cases reply with
  | none => exact refused _
  | some view =>
    refine ⟨trivial, fun _ => ?_⟩
    simp only [Prog.bind]
    split
    · exact refused _
    · rename_i selected decided
      obtain ⟨_, key, _, chosen, eligible⟩ := KeyPool.decision_eligible decided
      have kept : selected.apiKey.id ∉ exclude := by
        rw [chosen, KeyPool.id_settled]
        exact eligible.kept
      have commit : Always ((query (.commit { site := .reactivate, keys :=
          (KeyPool.scanKeys view (KeyPool.weights config runtime) provider exclude).reactivated })).bind
        fun ok => if ok = true then
            (done (.ok { selected with apiKey := selected.apiKey.saved }) :
              Gateway R (Except KeyPool.Unselected (KeyPool.SelectedKey R)))
          else (rollback selected.apiKey).bind fun _ => done (.error { error := dbUnavailable }))
          fun selection => ∀ selected, selection = .ok selected → selected.apiKey.id ∉ exclude := by
        refine ⟨trivial, fun ok => ?_⟩
        cases ok with
        | true =>
          rintro _ ⟨⟩
          exact kept
        | false =>
          simp only [Prog.bind]
          exact asks_bind (asks_any _) fun _ _ => refused _
      split
      · exact ⟨trivial, fun _ => commit⟩
      · exact commit

private theorem failOver_grows (call : Call) (progress : Progress R) (key : Nat)
    (resp : UpstreamResponse) {tried : List Nat} (same : progress.triedKeyIds = tried)
    (fresh : key ∉ tried) : Grown tried (failOver call progress key resp) := by
  simp only [failOver]
  split
  · trivial
  · exact ⟨key, fresh, by simp [Progress.skip, same]⟩

private theorem poolResponse_grows (setup : Setup R) (call : Call) (progress : Progress R)
    (key : KeyObject) (resp : UpstreamResponse) {tried : List Nat}
    (same : progress.triedKeyIds = tried) (fresh : key.id ∉ tried) :
    Always (poolResponse setup call progress key resp) (Grown tried) := by
  have failed := failOver_grows call progress key.id resp same fresh
  unfold poolResponse
  split
  · exact asks_bind (asks_any _) fun _ _ => asks_bind (asks_any _) fun _ _ => failed
  · exact asks_bind (asks_any _) fun _ _ => asks_bind (asks_any _) fun _ _ => failed
  · exact asks_bind (asks_any _) fun _ _ => asks_bind (asks_any _) fun _ _ => failed
  · exact asks_bind (asks_any _) fun _ _ => trivial
  · exact asks_bind (asks_any _) fun _ _ => trivial

/-- Every turn of the pool loop leaves or has tried one key more, whatever the
loop variables are. -/
theorem poolTurn_grows (setup : Setup R) (call : Call) (masterKey : Bytes) (progress : Progress R) :
    Always (poolTurn setup call masterKey progress) (Grown progress.triedKeyIds) := by
  refine asks_bind (select_fresh setup.config setup.runtime call.provider _) fun selection fresh => ?_
  cases selection with
  | error failed =>
    dsimp only
    split
    · trivial
    · split
      · split <;> trivial
      · trivial
  | ok selected =>
    have fresh := fresh selected rfl
    have skipped (next : Progress R) (same : next.triedKeyIds = progress.triedKeyIds) :
        Grown progress.triedKeyIds
          (.again (next.skip selected.apiKey.id) : Turn (ForwardResult R) (Progress R)) :=
      ⟨_, fresh, by simp [Progress.skip, same]⟩
    refine ⟨trivial, fun allowed => ?_⟩
    rcases allowed with _ | ⟨_ | _, _⟩
    · trivial
    · exact skipped _ rfl
    · refine ⟨trivial, fun granted => ?_⟩
      rcases granted with _ | _ | _
      · trivial
      · exact skipped _ rfl
      · simp only [Prog.bind]
        refine asks_bind (asks_any _) fun answered _ => ?_
        cases answered with
        | none => exact skipped _ rfl
        | some resp => exact poolResponse_grows setup call _ _ resp rfl fresh

end FcamGateway.Forwarder
