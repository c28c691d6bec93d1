import FcamGateway.HttpPool

/-! Who closes a client that is in use. A client of an acquire's own has no other holder and is
in no list of clients to close; a shared one is open for as long as the pool holds it. -/
namespace FcamGateway.HttpPool
open Runs

variable {Call : Type} [DecidableEq Call]

/-- The clients that a call has in hand. -/
def Phase.clients : Phase → List Client
  | .ephemeral client | .pooled client => [client]
  | .closing clients => clients
  | _ => []

/-- The client that is the call's own. -/
def Phase.own : Phase → List Client
  | .ephemeral client => [client]
  | _ => []

/-- The clients that the call is to close. -/
def Phase.leaving : Phase → List Client
  | .closing clients => clients
  | _ => []

/-- The step gives up the client: the switch to short-lived clients, or a shutdown, takes it out
of the pool in order to close it. -/
def GivesUp (state : State Call) (action : Action Call) (client : Client) : Prop :=
  client ∈ state.pool.values ∧
    ((∃ call, action = .setEnabled call false ∧ state.pool.enabled = true) ∨
      ∃ call, action = .close call)

/-- What one step can do. -/
inductive Moved (state : State Call) : Action Call → State Call → Prop
  | bare {action : Action Call} {call : Call} {phase : Phase} (enabled : Bool)
      (empty : phase.clients = []) :
      Moved state action
        ({ state with pool := { state.pool with enabled } }.move call phase)
  | own {call : Call} {baseUrl : String} :
      Moved state (.choose call) ({ state with made := state.made + 1 }.move call
        (.ephemeral ⟨state.made, rstrip baseUrl⟩))
  | shared {call : Call} {client : Client} (found : client ∈ state.pool.values) :
      Moved state (.getPooled call) ({ state with made := state.made + 1 }.move call
        (.pooled client))
  | created {call : Call} {key : String}
      (missing : ∀ client, state.pool.clients.lookup key = some client → client ∈ state.closed) :
      Moved state (.getPooled call)
        ({ state with pool := state.pool.store key ⟨state.made, key⟩, made := state.made + 1 }.move
          call (.pooled ⟨state.made, key⟩))
  | exited {call : Call} {client : Client} (held : state.calls call = .ephemeral client) :
      Moved state (.exit call)
        ({ state with closed := client :: state.closed }.move call .done)
  | collected {action : Action Call} {call : Call} {enabled : Bool}
      (gives : ∀ client ∈ state.pool.values, GivesUp state action client) :
      Moved state action
        ({ state with pool := { state.pool with enabled, clients := [] } }.move call
          (.closing state.pool.values))
  | closed {call : Call} {client : Client} {rest : List Client}
      (held : state.calls call = .closing (client :: rest)) :
      Moved state (.closeNext call)
        ({ state with closed := client :: state.closed }.move call (.closing rest))

/-- Every client is the pool's, or is one acquire's own, or is given up. -/
structure Sound (state : State Call) : Prop where
  pooled : ∀ client ∈ state.pool.values, client.id < state.made ∧ client ∉ state.closed
  closed : ∀ client ∈ state.closed, client.id < state.made
  held : ∀ call, ∀ client ∈ (state.calls call).clients, client.id < state.made
  leaving : ∀ call, ∀ client ∈ (state.calls call).leaving, client ∉ state.pool.values
  own : ∀ call, ∀ client ∈ (state.calls call).own, client ∉ state.closed ∧
    client ∉ state.pool.values ∧ ∀ other, other ≠ call → client ∉ (state.calls other).clients

variable {state next last : State Call} {action : Action Call} {call other : Call}
  {client : Client} {phase : Phase} {key : String}

/-- After one call has moved, a phase is that call's new one or is as it was. -/
theorem move_cases (holds : Phase → Prop)
    (inside : holds ((state.move call phase).calls other)) :
    other = call ∧ holds phase ∨ other ≠ call ∧ holds (state.calls other) := by
  by_cases same : other = call
  · subst same
    simp only [State.move, Function.update_self] at inside
    exact .inl ⟨rfl, inside⟩
  · simp only [State.move, Function.update_of_ne same] at inside
    exact .inr ⟨same, inside⟩

theorem mem_own {phase : Phase} (inside : client ∈ phase.own) : phase = .ephemeral client := by
  cases phase with
  | ephemeral other => rw [List.mem_singleton.mp inside]
  | _ => cases inside

theorem mem_leaving {phase : Phase} (inside : client ∈ phase.leaving) :
    client ∈ phase.clients := by
  cases phase with
  | closing => exact inside
  | _ => cases inside

theorem mem_lookup {clients : List (String × Client)} (found : clients.lookup key = some client) :
    client ∈ clients.map Prod.snd := by
  induction clients with
  | nil => cases found
  | cons entry clients ih =>
    rw [List.lookup_cons] at found
    split at found
    · cases found
      exact List.mem_cons_self
    · exact List.mem_cons_of_mem _ (ih found)

theorem step_moved (taken : step state action = some next) : Moved state action next := by
  cases action with
  | acquire call baseUrl =>
    simp only [step] at taken
    split at taken
    · cases taken
      exact .bare state.pool.enabled rfl
    · cases taken
  | choose call =>
    simp only [step] at taken
    split at taken
    · split at taken
      · cases taken
        exact .own
      · cases taken
        exact .bare state.pool.enabled rfl
    · cases taken
  | getPooled call =>
    simp only [step] at taken
    split at taken
    · rename_i baseUrl _
      simp only [UpstreamHttpPool.getPooled] at taken
      split at taken
      · rename_i client there
        cases taken
        exact .shared (mem_lookup (Option.filter_eq_some_iff.mp there).1)
      · rename_i gone
        cases taken
        apply Moved.created
        intro client found
        rw [found] at gone
        by_contra opened
        simp [Option.filter, opened] at gone
    · cases taken
  | fail call =>
    simp only [step] at taken
    split at taken
    · cases taken
      exact .bare state.pool.enabled rfl
    · cases taken
      exact .bare state.pool.enabled rfl
    · cases taken
  | exit call =>
    simp only [step] at taken
    split at taken
    · rename_i client held
      cases taken
      exact .exited held
    · cases taken
      exact .bare state.pool.enabled rfl
    · cases taken
  | setEnabled call want =>
    simp only [step] at taken
    split at taken
    · simp only [UpstreamHttpPool.setEnabled] at taken
      split at taken
      · cases taken
        exact .bare state.pool.enabled rfl
      split at taken
      · cases taken
        exact .bare want rfl
      · rename_i differs off
        cases taken
        apply Moved.collected
        intro client there
        obtain rfl : want = false := by simpa using off
        exact ⟨there, .inl ⟨call, rfl, by simpa using differs⟩⟩
    · cases taken
  | close call =>
    simp only [step] at taken
    split at taken
    · cases taken
      exact .collected fun client there => ⟨there, .inr ⟨call, rfl⟩⟩
    · cases taken
  | closeNext call =>
    simp only [step] at taken
    split at taken
    · rename_i client rest held
      cases taken
      exact .closed held
    · cases taken


omit [DecidableEq Call] in
theorem mem_store (missing : state.pool.clients.lookup key = none) {fresh : Client} :
    client ∈ (state.pool.store key fresh).values ↔ client ∈ state.pool.values ∨ client = fresh := by
  simp [UpstreamHttpPool.store, UpstreamHttpPool.values, missing]

omit [DecidableEq Call] in
/-- A pool makes a client only for a key that it has none for. -/
theorem Sound.unmapped (sound : Sound state)
    (missing : ∀ client, state.pool.clients.lookup key = some client → client ∈ state.closed) :
    state.pool.clients.lookup key = none := by
  cases found : state.pool.clients.lookup key with
  | none => rfl
  | some client => exact absurd (missing client found) (sound.pooled client (mem_lookup found)).2

omit [DecidableEq Call] in
theorem sound_start (enabled transport : Bool) :
    Sound (State.start enabled transport : State Call) where
  pooled _ there := absurd there List.not_mem_nil
  closed _ there := absurd there List.not_mem_nil
  held _ _ inside := absurd inside List.not_mem_nil
  leaving _ _ inside := absurd inside List.not_mem_nil
  own _ _ inside := absurd inside List.not_mem_nil

/-- One call moves on. What the others have in hand stays as it is, so only what changes in the
pool and what the call has in hand now need a look. -/
theorem Sound.move (sound : Sound state) (middle : State Call) (calls : middle.calls = state.calls)
    (pooled : ∀ client ∈ middle.pool.values, client.id < middle.made ∧ client ∉ middle.closed)
    (closed : ∀ client ∈ middle.closed, client.id < middle.made)
    (made : state.made ≤ middle.made)
    (held : ∀ client ∈ phase.clients, client.id < middle.made)
    (leaving : ∀ client ∈ phase.leaving, client ∉ middle.pool.values)
    (own : ∀ client ∈ phase.own, client ∉ middle.closed ∧ client ∉ middle.pool.values ∧
      ∀ other, other ≠ call → client ∉ (state.calls other).clients)
    (others : ∀ other, other ≠ call →
      (∀ client ∈ (state.calls other).leaving, client ∉ middle.pool.values) ∧
      ∀ client ∈ (state.calls other).own, client ∉ middle.closed ∧ client ∉ middle.pool.values ∧
        client ∉ phase.clients) :
    Sound (middle.move call phase) := by
  refine ⟨pooled, closed, ?_, ?_, ?_⟩
  · intro other client inside
    rcases move_cases (_ ∈ Phase.clients ·) inside with ⟨_, inside⟩ | ⟨_, inside⟩
    · exact held client inside
    · exact (sound.held other client (calls ▸ inside)).trans_le made
  · intro other client inside
    rcases move_cases (_ ∈ Phase.leaving ·) inside with ⟨_, inside⟩ | ⟨different, inside⟩
    · exact leaving client inside
    · exact (others other different).1 client (calls ▸ inside)
  · intro other client inside
    rcases move_cases (_ ∈ Phase.own ·) inside with ⟨rfl, new⟩ | ⟨different, inside⟩
    · obtain ⟨opened, unpooled, alone⟩ := own client new
      refine ⟨opened, unpooled, fun third apart inside => ?_⟩
      rcases move_cases (_ ∈ Phase.clients ·) inside with ⟨same, _⟩ | ⟨_, inside⟩
      · exact apart same
      · exact alone third apart (calls ▸ inside)
    · rw [calls] at inside
      obtain ⟨opened, unpooled, free⟩ := (others other different).2 client inside
      refine ⟨opened, unpooled, fun third apart inside' => ?_⟩
      rcases move_cases (_ ∈ Phase.clients ·) inside' with ⟨_, inside'⟩ | ⟨_, inside'⟩
      · exact free inside'
      · exact (sound.own other client inside).2.2 third apart (calls ▸ inside')

omit [DecidableEq Call] in
/-- The number of a new client is no other's. -/
theorem Sound.fresh (sound : Sound state) (key : String) : ⟨state.made, key⟩ ∉ state.closed ∧
    ⟨state.made, key⟩ ∉ state.pool.values ∧
    ∀ call, ⟨state.made, key⟩ ∉ (state.calls call).clients :=
  ⟨fun inside => (sound.closed _ inside).false, fun inside => (sound.pooled _ inside).1.false,
    fun call inside => (sound.held call _ inside).false⟩

omit [DecidableEq Call] in
theorem own_clients (inside : client ∈ (state.calls call).own) :
    client ∈ (state.calls call).clients := by
  rw [mem_own inside]
  exact List.mem_cons_self

omit [DecidableEq Call] in
/-- One more client is made. -/
theorem Sound.pooled_made (sound : Sound state) :
    ∀ client ∈ state.pool.values, client.id < state.made + 1 ∧ client ∉ state.closed :=
  fun client there => ⟨Nat.lt_succ_of_lt (sound.pooled client there).1, (sound.pooled client there).2⟩

omit [DecidableEq Call] in
theorem Sound.closed_made (sound : Sound state) :
    ∀ client ∈ state.closed, client.id < state.made + 1 :=
  fun client there => Nat.lt_succ_of_lt (sound.closed client there)

theorem Sound.moved (sound : Sound state) (moved : Moved state action next) : Sound next := by
  cases moved with
  | @bare _ call phase enabled empty =>
    have nothing : ∀ client, client ∉ phase.clients := by
      intro client inside
      rw [empty] at inside
      cases inside
    apply sound.move { state with pool := { state.pool with enabled } } rfl sound.pooled
      sound.closed le_rfl
    · exact fun client inside => absurd inside (nothing client)
    · exact fun client inside => absurd (mem_leaving inside) (nothing client)
    · intro client inside
      rw [mem_own inside] at nothing
      exact absurd List.mem_cons_self (nothing client)
    · intro other _
      refine ⟨sound.leaving other, fun client inside => ?_⟩
      obtain ⟨opened, unpooled, _⟩ := sound.own other client inside
      exact ⟨opened, unpooled, nothing client⟩
  | @own call baseUrl =>
    have fresh := sound.fresh (rstrip baseUrl)
    apply sound.move { state with made := state.made + 1 } rfl sound.pooled_made
      sound.closed_made (Nat.le_succ _)
    · intro client inside
      rw [List.mem_singleton.mp inside]
      exact Nat.lt_succ_self _
    · exact fun client inside => absurd inside List.not_mem_nil
    · intro client inside
      rw [List.mem_singleton.mp inside]
      exact ⟨fresh.1, fresh.2.1, fun other _ => fresh.2.2 other⟩
    · intro other _
      refine ⟨sound.leaving other, fun client inside => ?_⟩
      obtain ⟨opened, unpooled, _⟩ := sound.own other client inside
      refine ⟨opened, unpooled, fun same => fresh.2.2 other ?_⟩
      rw [← List.mem_singleton.mp same]
      exact own_clients inside
  | @shared call client found =>
    apply sound.move { state with made := state.made + 1 } rfl sound.pooled_made
      sound.closed_made (Nat.le_succ _)
    · intro other inside
      rw [List.mem_singleton.mp inside]
      exact Nat.lt_succ_of_lt (sound.pooled client found).1
    · exact fun other inside => absurd inside List.not_mem_nil
    · exact fun other inside => absurd inside List.not_mem_nil
    · intro other _
      refine ⟨sound.leaving other, fun third inside => ?_⟩
      obtain ⟨opened, unpooled, _⟩ := sound.own other third inside
      refine ⟨opened, unpooled, fun same => unpooled ?_⟩
      rw [List.mem_singleton.mp same]
      exact found
  | @created call key missing =>
    have fresh := sound.fresh key
    have unmapped := sound.unmapped missing
    apply sound.move { state with
      pool := state.pool.store key ⟨state.made, key⟩, made := state.made + 1 } rfl
    · intro client there
      rcases (mem_store unmapped).mp there with there | rfl
      · exact sound.pooled_made client there
      · exact ⟨Nat.lt_succ_self _, fresh.1⟩
    · exact sound.closed_made
    · exact Nat.le_succ _
    · intro client inside
      rw [List.mem_singleton.mp inside]
      exact Nat.lt_succ_self _
    · exact fun client inside => absurd inside List.not_mem_nil
    · exact fun client inside => absurd inside List.not_mem_nil
    · intro other _
      -- the new client is in nobody's hands
      have apart : ∀ client, client ∈ (state.calls other).clients → client ≠ ⟨state.made, key⟩ := by
        rintro client inside rfl
        exact fresh.2.2 other inside
      refine ⟨fun client inside there => ?_, fun client inside => ?_⟩
      · rcases (mem_store unmapped).mp there with there | same
        · exact sound.leaving other client inside there
        · exact apart client (mem_leaving inside) same
      · obtain ⟨opened, unpooled, _⟩ := sound.own other client inside
        have different := apart client (own_clients inside)
        refine ⟨opened, fun there => ?_, fun same => different (List.mem_singleton.mp same)⟩
        rcases (mem_store unmapped).mp there with there | same
        · exact unpooled there
        · exact different same
  | @exited call client held =>
    obtain ⟨_, unpooled, alone⟩ := sound.own call client (by rw [held]; exact List.mem_cons_self)
    apply sound.move { state with closed := client :: state.closed } rfl
    · intro other there
      refine ⟨(sound.pooled other there).1, fun inside => ?_⟩
      rcases List.mem_cons.mp inside with rfl | inside
      · exact unpooled there
      · exact (sound.pooled other there).2 inside
    · intro other inside
      rcases List.mem_cons.mp inside with rfl | inside
      · exact sound.held call other (by rw [held]; exact List.mem_cons_self)
      · exact sound.closed other inside
    · exact le_rfl
    · exact fun other inside => absurd inside List.not_mem_nil
    · exact fun other inside => absurd inside List.not_mem_nil
    · exact fun other inside => absurd inside List.not_mem_nil
    · intro other different
      refine ⟨sound.leaving other, fun third inside => ?_⟩
      obtain ⟨opened, unpooled, _⟩ := sound.own other third inside
      refine ⟨fun closed => ?_, unpooled, List.not_mem_nil⟩
      rcases List.mem_cons.mp closed with rfl | closed
      · exact alone other different (own_clients inside)
      · exact opened closed
  | @collected _ call enabled gives =>
    apply sound.move { state with pool := { state.pool with enabled, clients := [] } } rfl
    · exact fun client there => absurd there List.not_mem_nil
    · exact sound.closed
    · exact le_rfl
    · exact fun client inside => (sound.pooled client inside).1
    · exact fun client _ => List.not_mem_nil
    · exact fun client inside => absurd inside List.not_mem_nil
    · intro other _
      refine ⟨fun client _ => List.not_mem_nil, fun client inside => ?_⟩
      obtain ⟨opened, unpooled, _⟩ := sound.own other client inside
      exact ⟨opened, List.not_mem_nil, unpooled⟩
  | @closed call client rest held =>
    have inside : ∀ other ∈ client :: rest, other ∈ (state.calls call).leaving := by
      rw [held]
      exact fun other inside => inside
    apply sound.move { state with closed := client :: state.closed } rfl
    · intro other there
      refine ⟨(sound.pooled other there).1, fun closed => ?_⟩
      rcases List.mem_cons.mp closed with rfl | closed
      · exact sound.leaving call other (inside other List.mem_cons_self) there
      · exact (sound.pooled other there).2 closed
    · intro other closed
      rcases List.mem_cons.mp closed with rfl | closed
      · exact sound.held call other (mem_leaving (inside other List.mem_cons_self))
      · exact sound.closed other closed
    · exact le_rfl
    · exact fun other later =>
        sound.held call other (mem_leaving (inside other (List.mem_cons_of_mem _ later)))
    · exact fun other later =>
        sound.leaving call other (inside other (List.mem_cons_of_mem _ later))
    · exact fun other own => absurd own List.not_mem_nil
    · intro other different
      refine ⟨sound.leaving other, fun third own => ?_⟩
      obtain ⟨opened, unpooled, alone⟩ := sound.own other third own
      -- what is given up is in no acquire's hands alone
      have elsewhere : third ∉ client :: rest := fun listed =>
        alone call different.symm (mem_leaving (inside third listed))
      refine ⟨fun closed => ?_, unpooled, fun later => elsewhere (List.mem_cons_of_mem _ later)⟩
      rcases List.mem_cons.mp closed with rfl | closed
      · exact elsewhere List.mem_cons_self
      · exact opened closed

/-- A client leaves the pool only when the pool gives it up. -/
theorem Moved.kept (moved : Moved state action next) (sound : Sound state)
    (there : client ∈ state.pool.values) :
    client ∈ next.pool.values ∨ GivesUp state action client := by
  cases moved with
  | created missing => exact .inl ((mem_store (sound.unmapped missing)).mpr (.inl there))
  | collected gives => exact .inr (gives client there)
  | _ => exact .inl there

/-- A shared client comes from the pool. -/
theorem Moved.found (moved : Moved state action next) (sound : Sound state)
    (holds : next.calls call = .pooled client) :
    state.calls call = .pooled client ∨ client ∈ next.pool.values := by
  cases moved with
  | bare enabled empty =>
    rcases move_cases (· = .pooled client) holds with ⟨_, rfl⟩ | ⟨_, holds⟩
    · cases empty
    · exact .inl holds
  | shared found =>
    rcases move_cases (· = .pooled client) holds with ⟨_, same⟩ | ⟨_, holds⟩
    · cases same
      exact .inr found
    · exact .inl holds
  | created missing =>
    rcases move_cases (· = .pooled client) holds with ⟨_, same⟩ | ⟨_, holds⟩
    · cases same
      exact .inr ((mem_store (sound.unmapped missing)).mpr (.inr rfl))
    · exact .inl holds
  | _ =>
    rcases move_cases (· = .pooled client) holds with ⟨_, same⟩ | ⟨_, holds⟩
    · cases same
    · exact .inl holds

/-- Somewhere in the run the pool gave up the client while the call had it. -/
def GivenUp (start : State Call) (actions : List (Action Call)) (call : Call) (client : Client) :
    Prop :=
  ∃ front action back middle, actions = front ++ action :: back ∧
    run step start front = some middle ∧ middle.calls call = .pooled client ∧
      GivesUp middle action client

theorem GivenUp.more {start : State Call} {front : List (Action Call)}
    (given : GivenUp start front call client) (action : Action Call) :
    GivenUp start (front ++ [action]) call client := by
  obtain ⟨early, taken, back, middle, rfl, ran, had, gives⟩ := given
  exact ⟨early, taken, back ++ [action], middle, by simp, ran, had, gives⟩

/-- A shared client in use is the pool's, or the pool has given it up since. -/
theorem pooled_or_given {start : State Call} {actions : List (Action Call)} (sound : Sound start)
    (unused : ∀ call client, start.calls call ≠ .pooled client)
    (ran : run step start actions = some last) (holds : last.calls call = .pooled client) :
    client ∈ last.pool.values ∨ GivenUp start actions call client := by
  induction actions using List.reverseRecOn generalizing last with
  | nil =>
    cases ran
    exact absurd holds (unused call client)
  | append_singleton front action ih =>
    rw [run_append] at ran
    obtain ⟨middle, before, taken⟩ := Option.bind_eq_some_iff.mp ran
    obtain ⟨next, taken, ended⟩ := run_cons taken
    cases ended
    have reached : Sound middle :=
      run_preserves (fun _ _ _ sound taken => sound.moved (step_moved taken)) front sound before
    have moved := step_moved taken
    rcases moved.found reached holds with had | there
    · rcases ih before had with there | given
      · rcases moved.kept reached there with kept | gives
        · exact .inl kept
        · exact .inr ⟨front, action, [], middle, rfl, before, had, gives⟩
      · exact .inr (given.more action)
    · exact .inl there

/-- An acquire's own client is open until its context exits, and a shared one is unless, after
the acquire got it, the pool was switched off or shut down with the client in it. -/
theorem open_in_use {enabled transport : Bool} {actions : List (Action Call)}
    (ran : run step (State.start enabled transport) actions = some last) :
    (∀ call client, last.calls call = .ephemeral client → client ∉ last.closed) ∧
      ∀ call client, last.calls call = .pooled client → client ∈ last.closed →
        GivenUp (State.start enabled transport) actions call client := by
  have start : Sound (State.start enabled transport : State Call) := sound_start enabled transport
  have sound : Sound last :=
    run_preserves (fun _ _ _ sound taken => sound.moved (step_moved taken)) actions start ran
  refine ⟨fun call client holds => ?_, fun call client holds closed => ?_⟩
  · have own : client ∈ (last.calls call).own := by
      rw [holds]
      exact List.mem_cons_self
    exact (sound.own call client own).1
  · rcases pooled_or_given start (fun _ _ => nofun) ran holds with there | given
    · exact absurd closed (sound.pooled client there).2
    · exact given

/-- One call gets the shared client, another one switches the pool off and closes the client. -/
def switchedOff : List (Action Nat) :=
  [.acquire 0 "https://api.firecrawl.dev/", .choose 0, .getPooled 0, .setEnabled 1 false,
    .closeNext 1]

theorem closed_in_use : ∃ last client, run step (State.start true false) switchedOff = some last ∧
    last.calls 0 = .pooled client ∧ client ∈ last.closed :=
  ⟨_, ⟨0, "https://api.firecrawl.dev"⟩, rfl, by decide, by decide⟩

theorem switched_off_given : ∃ last, run step (State.start true false) switchedOff = some last ∧
    ∀ call client, last.calls call = .pooled client → client ∈ last.closed →
      GivenUp (State.start true false) switchedOff call client :=
  ⟨_, rfl, (open_in_use (show run step _ switchedOff = some _ from rfl)).2⟩

end FcamGateway.HttpPool
