import FcamGateway.ClientAdmin
import FcamGateway.DataPlaneQuota
import FcamGateway.KeyTasks
import FcamGateway.KeyWrites

/-! The usage counters of clients and keys under requests that overlap. A request reads its client's
row when it is authenticated and a key's row when the key is selected, and writes each counter as
one more than it read, after the upstream has answered. -/
namespace FcamGateway.UsageCounters
open Prog Credits Upstream Forwarder ForwardEffects DataPlane

set_option linter.unusedSectionVars false

variable {R : Type} [Field R] [LinearOrder R] [ScoreMath R]

/-- A question of a request from the lookup of its client on. -/
inductive RequestOp (R : Type) where
  | findClient (id : Nat)
  | part (op : DataOp R)

abbrev RequestReply (R : Type) : RequestOp R → Type
  | .findClient _ => Option (Option ClientColumns)
  | .part op => DataReply R op

abbrev RequestEvent (R : Type) := Event (RequestOp R) (RequestReply R)

abbrev Request (R : Type) := Prog (RequestOp R) (RequestReply R) Exn

/-- A part of a request as a request. -/
def wholly : Part R Value → Request R Value
  | .done value => .done value
  | .raise error => .raise error
  | .ask op next => .ask (.part op) fun reply => wholly (next reply)

def findClient (id : Nat) : Request R (Option (Option ClientColumns)) :=
  Prog.query (RequestOp.findClient id)

/-- What a request of the data plane comes with: its token names the client. -/
structure ClientRequest where
  clientId : Nat
  request : ProxyRequest

/-- `require_client`, and the request behind it. -/
def ClientRequest.program (setup : Setup R) (given : ClientRequest) :
    Request R (Option UpstreamResponse) := do
  match ← findClient given.clientId with
  | none => .raise (.fcam dbUnavailable)
  | some none => .raise (.fcam ClientAdmin.unauthorized)
  | some (some row) =>
    if row.isActive then
      wholly (serve setup given.request (ClientObject.fresh given.clientId row))
    else .raise (.fcam ClientAdmin.clientDisabled)

/-- The store may answer so, and stands in the last state afterwards. -/
def moves (store : Store) : RequestEvent R → Store → Prop
  | ⟨.findClient id, reply⟩, last =>
    last = store ∧ (reply = none ∨ reply = some (store.clients.get? id))
  | ⟨.part (.session op), reply⟩, last => store.moves ⟨op, reply⟩ last
  | ⟨.part _, _⟩, last => last = store

/-- The event of a session with the database or the upstream. -/
def sessionEvent : RequestEvent R → Option (Event (Op R) (Reply R))
  | ⟨.part (.session op), reply⟩ => some ⟨op, reply⟩
  | _ => none

def exchange (events : List (RequestEvent R)) : Exchange R := events.filterMap sessionEvent

/-- A successful commit that writes the client's row. -/
def writesClient (id : Nat) : RequestEvent R → Bool
  | ⟨.part (.session (.commit batch)), true⟩ => batch.client.any (·.id = id)
  | _ => false

/-- A successful commit that counts a success of a client. -/
def countsClient (id : Nat) : RequestEvent R → Bool
  | ⟨.part (.session (.commit batch)), true⟩ =>
    batch.site = .quota && batch.client.any (·.id = id)
  | _ => false

/-- A successful commit that counts a success of a key. -/
def countsKey (id : Nat) : RequestEvent R → Bool
  | ⟨.part (.session (.commit batch)), true⟩ => batch.site = .quota && batch.keys.any (·.id = id)
  | _ => false

/-- A 2xx response to a request forwarded with the key. -/
def succeedsWith (id : Nat) : RequestEvent R → Bool
  | ⟨.part (.session (.request keyId _)), .response resp⟩ => keyId = id && isSuccess resp.statusCode
  | _ => false

/-- A 2xx response to a forwarded request. -/
def succeeds : RequestEvent R → Bool
  | ⟨.part (.session (.request _ _)), .response resp⟩ => isSuccess resp.statusCode
  | _ => false

/-- The reading that brings the client's row. -/
def readsClient (id : Nat) : RequestEvent R → Bool
  | ⟨.findClient other, some (some _)⟩ => other = id
  | _ => false

/-- A reading that brings the key's row. -/
def readsKey (id : Nat) (event : RequestEvent R) : Bool :=
  ((sessionEvent event).bind (KeyVerdicts.loadedRow id)).isSome

/-- The row of the client as the request's session keeps it. -/
def keepClient (row : Option ClientColumns) : RequestEvent R → Option ClientColumns
  | ⟨.findClient _, some (some found)⟩ => some found
  | ⟨.part (.session (.commit batch)), true⟩ => (batch.client.map ClientObject.current).or row
  | _ => row

def clientRow (events : List (RequestEvent R)) : Option ClientColumns :=
  events.foldl keepClient none

/-- How a commit changes the row of a client: usage is counted anew on a day, or a success is
counted on a row that is of the day where the quota is checked. -/
inductive Accounts (setup : Setup R) (events : List (RequestEvent R)) (batch : Commit)
    (client : ClientObject) : Prop where
  | reset (today : Int) (site : batch.site = .quotaReset) (keys : batch.keys = [])
      (enabled : setup.config.quota.enableQuotaCheck = true)
      (limited : client.loaded.dailyQuota.isSome = true)
      (asked : ⟨.part (.today setup.config.quota.timezone), some today⟩ ∈ events)
      (other : client.loaded.quotaResetAt ≠ some today)
      (written : client.current = resetUsage today client.loaded)
  | success (usedAt : Instant) (site : batch.site = .quota) (keys : ∃ key, batch.keys = [key])
      (written : client = counted (ClientObject.fresh client.id client.loaded) usedAt)
      (current : setup.config.quota.enableQuotaCheck = true →
        client.loaded.dailyQuota.isSome = true → ∃ today, ⟨.part (.today setup.config.quota.timezone), some today⟩ ∈ events ∧
          client.loaded.quotaResetAt = some today)

/-- What a request of the client may ask after its exchange so far. -/
def Watched (setup : Setup R) (id : Nat) (events : List (RequestEvent R)) : RequestOp R → Prop
  | .part (.session (.commit batch)) => KeyWrites.Demand (exchange events) (.commit batch) ∧
    (batch.client.isSome = true → batch.site ∈ [.quota, .quotaReset]) ∧
    ∀ client, batch.client = some client → client.id = id ∧ clientRow events = some client.loaded ∧
      Accounts setup events batch client
  | .findClient other => other = id
  | _ => True

/-- A row object of the client as the session keeps the row, without changes, and of the day where
the quota is checked. -/
structure ClientHand (setup : Setup R) (id : Nat) (events : List (RequestEvent R))
    (client : ClientObject) : Prop where
  owner : client.id = id
  kept : clientRow events = some client.loaded
  clean : client.current = client.loaded
  current : setup.config.quota.enableQuotaCheck = true → client.loaded.dailyQuota.isSome = true →
    ∃ today, ⟨.part (.today setup.config.quota.timezone), some today⟩ ∈ events ∧
      client.loaded.quotaResetAt = some today

variable {setup : Setup R} {id : Nat} {events : List (RequestEvent R)} {client : ClientObject}
  {call : Call} {request : ProxyRequest} {inner : Exchange R}

abbrev watching (setup : Setup R) (id : Nat) :
    Monitor (List (RequestEvent R)) (RequestOp R) (RequestReply R) :=
  .checking (Watched setup id)

/-- A gateway event as an event of a request. -/
def session (event : Event (Op R) (Reply R)) : RequestEvent R :=
  ⟨.part (.session event.op), event.reply⟩

@[simp] theorem exchange_append (front back : List (RequestEvent R)) :
    exchange (front ++ back) = exchange front ++ exchange back := List.filterMap_append

@[simp] theorem exchange_session (inner : Exchange R) : exchange (inner.map session) = inner := by
  induction inner with
  | nil => rfl
  | cons event inner ih => exact congrArg (event :: ·) ih

theorem clientRow_append (front back : List (RequestEvent R)) :
    clientRow (front ++ back) = back.foldl keepClient (clientRow front) := List.foldl_append

/-- A forward that accounts for nothing leaves the client's row as the session keeps it. -/
theorem clientRow_unaccounted (events : List (RequestEvent R)) (none : accounts inner = []) :
    clientRow (events ++ inner.map session) = clientRow events := by
  rw [clientRow_append]
  generalize clientRow events = row
  induction inner generalizing row with
  | nil => rfl
  | cons event inner ih =>
    obtain ⟨op, reply⟩ := event
    have same : keepClient row (session ⟨op, reply⟩) = row ∧ accounts inner = [] := by
      cases op with
      | commit batch =>
        rw [accounts_commit] at none
        obtain ⟨alone, rest⟩ := List.append_eq_nil_iff.mp none
        have alone : batch.client = .none := Option.toList_eq_nil_iff.mp alone
        refine ⟨?_, rest⟩
        cases reply with
        | false => rfl
        | true => simp [keepClient, session, alone]
      | _ => exact ⟨rfl, none⟩
    rw [List.map_cons, List.foldl_cons, same.1]
    exact ih same.2 row

theorem ClientHand.grown (hand : ClientHand setup id events client)
    (more : List (RequestEvent R)) (kept : clientRow (events ++ more) = clientRow events) :
    ClientHand setup id (events ++ more) client := by
  refine ⟨hand.owner, kept.trans hand.kept, hand.clean, fun enabled limited => ?_⟩
  obtain ⟨today, asked, day⟩ := hand.current enabled limited
  exact ⟨today, List.mem_append_left _ asked, day⟩

theorem ClientHand.fresh (hand : ClientHand setup id events client) :
    client = ClientObject.fresh client.id client.loaded := by
  have clean := hand.clean
  cases client
  exact congrArg _ clean

/-- A part of a request, and what its outcome leads to. -/
theorem wholly_bind (program : Part R Value) (rest : Value → Part R Other) :
    wholly (program.bind rest) = (wholly program).bind fun value => wholly (rest value) := by
  induction program with
  | done value => rfl
  | raise error => rfl
  | ask op next ih =>
    simp only [Prog.bind, wholly]
    congr 1
    funext reply
    exact ih reply

theorem wholly_ensuring (program : Part R Value) (final : Part R Unit) :
    wholly (program.ensuring final) = (wholly program).ensuring (wholly final) := by
  induction program with
  | done value =>
    simp only [Prog.ensuring, wholly, wholly_bind]
  | raise error =>
    simp only [Prog.ensuring, wholly, wholly_bind]
  | ask op next ih =>
    simp only [Prog.ensuring, wholly]
    congr 1
    funext reply
    exact ih reply

/-- A question that writes no row of a client. -/
theorem wp_put {post : Except Exn Value → List (RequestEvent R) → Prop} (op : DataOp R)
    (rest : DataReply R op → Part R Value) (met : Watched setup id events (.part op))
    (next : ∀ reply, (wholly (rest reply)).wp (watching setup id) post
      (events ++ [⟨.part op, reply⟩])) :
    (wholly ((put op).bind rest)).wp (watching setup id) post events :=
  (wp_check _ _).mpr ⟨met, next⟩

/-- A commit of a forward that writes a client counts the success of the last request. -/
theorem accounted_of_due {masterKey : Bytes} {batch : Commit}
    (due : Due setup call masterKey inner (.commit batch)) (given : batch.client = some client) :
    batch.site = .quota ∧ accounts inner = [] ∧ (∃ usedAt, client = counted call.client usedAt) ∧
      ∃ key resp, batch.keys = [key] ∧ isSuccess resp.statusCode = true ∧
        (replies inner).getLast? = some (key.id, .response resp) := by
  cases due with
  | idle idle => exact idle.elim
  | reactivation => cases given
  | undecryptable => cases given
  | answered _ about => cases about.2.1.symm.trans given
  | accounting usedAt _ unaccounted last success =>
    cases given
    exact ⟨rfl, unaccounted, ⟨usedAt, rfl⟩, _, _, rfl, success, last⟩

/-- What a forward commits is watched, and its exchange is one that it has alone. -/
theorem wp_forwarding (hand : ClientHand setup id events call.client) :
    (wholly (within (forward setup call))).wp (watching setup id) (fun outcome last =>
      ∃ inner, last = events ++ inner.map session ∧ (forward setup call).Ran inner outcome)
      events := by
  have known (other : Bytes) (given : setup.masterKey = some other) : other = master setup := by
    rw [master, given]
    rfl
  suffices part : ∀ (program : Gateway R (ForwardResult R)) (inner : Exchange R),
      Reaches (forward setup call) inner program →
      program.wp KeyWrites.watching (fun _ _ => True) (exchange events ++ inner) →
      program.wp (ForwardEffects.watching setup call (master setup)) (fun _ _ => True) inner →
      (wholly (within program)).wp (watching setup id) (fun outcome last =>
        ∃ inner, last = events ++ inner.map session ∧ (forward setup call).Ran inner outcome)
        (events ++ inner.map session) by
    have started := part (forward setup call) [] .here
      (by rw [List.append_nil]; exact wp_mono (fun _ _ _ => trivial) (KeyWrites.wp_forward setup call))
      (wp_mono (fun _ _ _ => trivial) (wp_forward setup call known))
    rwa [List.map_nil, List.append_nil] at started
  intro program
  induction program with
  | done value => exact fun inner reached _ _ => ⟨inner, rfl, reached⟩
  | raise error => exact fun inner reached _ _ => ⟨inner, rfl, reached⟩
  | ask op next ih =>
    intro inner reached writes effects
    obtain ⟨demand, writing⟩ := (wp_check op next).mp writes
    obtain ⟨due, effect⟩ := (wp_check op next).mp effects
    refine (wp_check _ _).mpr ⟨?_, fun reply => ?_⟩
    · cases op with
      | commit batch =>
        refine ⟨by rw [exchange_append, exchange_session]; exact demand, fun some => ?_,
          fun client given => ?_⟩
        · obtain ⟨client, given⟩ := Option.isSome_iff_exists.mp some
          rw [(accounted_of_due due given).1]
          exact List.mem_cons_self
        · obtain ⟨site, unaccounted, ⟨usedAt, rfl⟩, key, _, keys, _⟩ := accounted_of_due due given
          have hand := hand.grown (inner.map session) (clientRow_unaccounted events unaccounted)
          refine ⟨hand.owner, hand.kept, .success usedAt site ⟨key, keys⟩ ?_ hand.current⟩
          exact congrArg (counted · usedAt) hand.fresh
      | _ => trivial
    · have onward := ih reply (inner ++ [⟨op, reply⟩]) (reaches_trans reached (.ask .here))
        (by rw [← List.append_assoc]; exact writing reply) (effect reply)
      rw [List.map_append, ← List.append_assoc] at onward
      exact onward

/-- A successful commit that counts a success. -/
def countsSuccess : RequestEvent R → Bool
  | ⟨.part (.session (.commit batch)), true⟩ => batch.site = .quota
  | _ => false

/-- Every success was counted, for the key that obtained it. -/
structure Tallied (events : List (RequestEvent R)) : Prop where
  keys : ∀ id, events.countP (succeedsWith id) = events.countP (countsKey id)
  all : events.countP succeeds = events.countP countsSuccess

theorem countP_succeedsWith (id : Nat) (inner : Exchange R) :
    (inner.map session).countP (succeedsWith id) =
      (replies inner).countP fun entry => entry.1 = id && Succeeds entry.2 := by
  induction inner with
  | nil => rfl
  | cons event inner ih =>
    obtain ⟨op, reply⟩ := event
    rw [List.map_cons, List.countP_cons, ih]
    cases op with
    | request key sent =>
      rw [replies_request, List.countP_cons]
      cases reply <;> simp [succeedsWith, session, Succeeds]
    | _ => rfl

theorem countP_succeeds (inner : Exchange R) :
    (inner.map session).countP succeeds = (replies inner).countP fun entry => Succeeds entry.2 := by
  induction inner with
  | nil => rfl
  | cons event inner ih =>
    obtain ⟨op, reply⟩ := event
    rw [List.map_cons, List.countP_cons, ih]
    cases op with
    | request key sent =>
      rw [replies_request, List.countP_cons]
      cases reply <;> rfl
    | _ => rfl

/-- A commit that counts a success writes a client. -/
def Counting : Op R → Prop
  | .commit batch => batch.site = .quota → batch.client.isSome = true
  | _ => True

theorem counting_accounts {outcome : Except Exn (ForwardResult R)}
    (ran : (forward setup call).Ran inner outcome) : ∀ event ∈ inner, Counting event.op := by
  have fixed (rows : Exchange R) (op : Op R) (demand : KeyWrites.Demand rows op) : Counting op := by
    cases op with
    | commit batch => exact demand.counts
    | _ => trivial
  exact wp_every fixed ran (follows_checking _ inner []) (KeyWrites.wp_forward setup call)

/-- Without an account no commit counts. -/
theorem uncounted (counting : ∀ event ∈ inner, Counting event.op) (none : accounts inner = []) :
    (∀ id, (inner.map session).countP (countsKey id) = 0) ∧
      (inner.map session).countP countsSuccess = 0 := by
  have quiet : ∀ event ∈ inner.map session, (∀ id, countsKey id event = false) ∧
      countsSuccess event = false := by
    intro event member
    obtain ⟨⟨op, reply⟩, inside, rfl⟩ := List.mem_map.mp member
    cases op with
    | commit batch =>
      have other : batch.site ≠ .quota := by
        intro site
        obtain ⟨client, given⟩ := Option.isSome_iff_exists.mp (counting _ inside site)
        cases given.symm.trans (List.filterMap_eq_nil_iff.mp none _ inside)
      cases reply <;> simp [countsKey, countsSuccess, session, other]
    | _ => exact ⟨fun _ => rfl, rfl⟩
  constructor
  · exact fun id => List.countP_eq_zero.mpr fun event member => by simp [(quiet event member).1 id]
  · exact List.countP_eq_zero.mpr fun event member => by simp [(quiet event member).2]

/-- Where a forward writes a client it counts the success of its last request. -/
theorem accounting_at {front back : Exchange R} {batch : Commit} {reply : Bool}
    {outcome : Except Exn (ForwardResult R)}
    (ran : (forward setup call).Ran (front ++ ⟨.commit batch, reply⟩ :: back) outcome)
    (given : batch.client = some client) :
    batch.site = .quota ∧ ∃ key resp, batch.keys = [key] ∧ isSuccess resp.statusCode = true ∧
      (replies front).getLast? = some (key.id, .response resp) := by
  have known (other : Bytes) (given : setup.masterKey = some other) : other = master setup := by
    rw [master, given]
    rfl
  obtain ⟨middle, reached, onward⟩ := reaches_append ran
  cases onward with
  | ask _ =>
    obtain ⟨site, _, _, key, resp, facts⟩ :=
      accounted_of_due (wp_checked reached (wp_forward setup call known)) given
    exact ⟨site, key, resp, facts⟩

/-- A forward counts each success that it obtains, for the key that it was obtained with. -/
theorem forward_tallied {outcome : Except Exn (ForwardResult R)}
    (mode : setup.config.quota.countMode = "success")
    (ran : (forward setup call).Ran inner outcome) (committed : ¬ Faulted inner) :
    Tallied (inner.map session) := by
  have counting := counting_accounts ran
  have ended : Fruitless inner ∨ Fruitful setup call inner := by
    have ends := forward_ends ran
    cases outcome with
    | error error => exact .inl (ends.resolve_right committed)
    | ok result =>
      simp only [Ends] at ends
      split at ends
      · exact .inr ends
      · exact .inl ends
  rcases ended with fruitless | fruitful
  · obtain ⟨keys, all⟩ := uncounted counting fruitless.unaccounted
    refine ⟨fun id => ?_, ?_⟩
    · rw [keys, countP_succeedsWith]
      exact List.countP_eq_zero.mpr fun entry member => by simp [fruitless.failed entry member]
    · rw [all, countP_succeeds]
      exact List.countP_eq_zero.mpr fun entry member => by simp [fruitless.failed entry member]
  · have accounted := fruitful.accounted
    rw [if_pos mode] at accounted
    obtain ⟨usedAt, accounted⟩ := accounted
    obtain ⟨front, ⟨op, reply⟩, back, rfl, early, account, late⟩ :=
      List.filterMap_eq_cons_iff.mp accounted
    cases op with
    | commit batch =>
      obtain rfl : reply = true := by
        cases reply with
        | true => rfl
        | false => exact absurd ⟨batch, by simp⟩ committed
      obtain ⟨site, key, resp, keys, success, last⟩ := accounting_at ran account
      have before := uncounted (fun event member => counting event (List.mem_append_left _ member))
        (List.filterMap_eq_nil_iff.mpr early)
      have after := uncounted (fun event member =>
        counting event (List.mem_append_right _ (List.mem_cons_of_mem _ member))) late
      obtain ⟨earlier, whole⟩ := List.getLast?_eq_some_iff.mp last
      have succeeds : Succeeds (key.id, UpstreamReply.response resp).2 = true := success
      have only := fruitful.succeeded
      rw [replies_append, replies_commit, whole, List.countP_append, List.countP_append,
        List.countP_singleton, if_pos succeeds] at only
      have none (entries : List (Nat × UpstreamReply))
          (fails : entries.countP (fun entry => Succeeds entry.2) = 0) (id : Nat) :
          entries.countP (fun entry => entry.1 = id && Succeeds entry.2) = 0 :=
        Nat.le_zero.mp (fails ▸ List.countP_mono_left fun entry _ both => by simp_all)
      refine ⟨fun id => ?_, ?_⟩
      · rw [countP_succeedsWith, replies_append, replies_commit, whole, List.countP_append,
          List.countP_append, List.countP_singleton, none earlier (by omega), none _ (by omega),
          List.map_append, List.map_cons, List.countP_append, List.countP_cons, before.1, after.1]
        simp [succeeds, countsKey, session, site, keys]
      · rw [countP_succeeds, fruitful.succeeded, List.map_append, List.map_cons, List.countP_append,
          List.countP_cons, before.2, after.2]
        simp [countsSuccess, session, site]
    | _ => cases account

/-- Every commit of a request succeeded. -/
def Committed (events : List (RequestEvent R)) : Prop :=
  ∀ batch, (⟨.part (.session (.commit batch)), false⟩ : RequestEvent R) ∉ events

/-- A request whose commits succeeded has counted its success. -/
def Settled (_ : Except Exn Value) (last : List (RequestEvent R)) : Prop :=
  Committed last → Tallied last

/-- An event that neither obtains nor counts a success. -/
def Neutral (event : RequestEvent R) : Prop :=
  (∀ id, succeedsWith id event = false ∧ countsKey id event = false) ∧
    succeeds event = false ∧ countsSuccess event = false

theorem tallied_nil : Tallied ([] : List (RequestEvent R)) := ⟨fun _ => rfl, rfl⟩

theorem Tallied.append {front back : List (RequestEvent R)} (one : Tallied front)
    (two : Tallied back) : Tallied (front ++ back) := by
  constructor
  · intro id
    rw [List.countP_append, List.countP_append, one.keys, two.keys]
  · rw [List.countP_append, List.countP_append, one.all, two.all]

theorem Tallied.then {event : RequestEvent R} (tallied : Tallied events) (neutral : Neutral event) :
    Tallied (events ++ [event]) := by
  refine tallied.append ⟨fun id => ?_, ?_⟩
  · rw [List.countP_singleton, List.countP_singleton, (neutral.1 id).1, (neutral.1 id).2]
  · rw [List.countP_singleton, List.countP_singleton, neutral.2.1, neutral.2.2]

theorem Committed.back (committed : Committed (events ++ inner.map session)) : ¬ Faulted inner := by
  rintro ⟨batch, member⟩
  exact committed batch (List.mem_append_right _ (List.mem_map_of_mem member))

theorem Committed.front {back : List (RequestEvent R)} (committed : Committed (events ++ back)) :
    Committed events :=
  fun batch member => committed batch (List.mem_append_left _ member)

/-- A question of the governance or the handler. -/
def Outside : DataOp R → Prop
  | .session _ => False
  | _ => True

theorem neutral_outside (op : DataOp R) (outside : Outside op) (reply : DataReply R op) :
    Neutral (⟨.part op, reply⟩ : RequestEvent R) := by
  cases op <;> first | exact outside.elim | exact ⟨fun _ => ⟨rfl, rfl⟩, rfl, rfl⟩

theorem clientRow_outside (events : List (RequestEvent R)) {op : DataOp R} (outside : Outside op)
    (reply : DataReply R op) :
    clientRow (events ++ [⟨.part op, reply⟩]) = clientRow events := by
  rw [clientRow_append]
  cases op <;> first | exact outside.elim | rfl

theorem watched_outside {op : DataOp R} (outside : Outside op) :
    Watched setup id events (.part op) := by
  cases op <;> first | exact outside.elim | trivial

/-- A question of the governance or the handler: nothing is counted or written. -/
theorem wp_outside {post : Except Exn Value → List (RequestEvent R) → Prop} (op : DataOp R)
    (rest : DataReply R op → Part R Value) (outside : Outside op) (tallied : Tallied events)
    (next : ∀ reply, Tallied (events ++ [⟨.part op, reply⟩]) →
      clientRow (events ++ [⟨.part op, reply⟩]) = clientRow events →
      (wholly (rest reply)).wp (watching setup id) post (events ++ [⟨.part op, reply⟩])) :
    (wholly ((put op).bind rest)).wp (watching setup id) post events :=
  wp_put op rest (watched_outside outside) fun reply =>
    next reply (tallied.then (neutral_outside op outside reply))
      (clientRow_outside events outside reply)

theorem wp_forwardWithFallback (mode : setup.config.quota.countMode = "success")
    (pinnedApiKeyId : Option Nat) (hand : ClientHand setup id events client)
    (tallied : Tallied events) :
    (wholly (forwardWithFallback setup request client pinnedApiKeyId)).wp (watching setup id)
      Settled events := by
  unfold forwardWithFallback
  rw [bind_eq, wholly_bind]
  refine (wp_bind _).mpr (wp_mono ?_ (wp_forwarding hand))
  rintro outcome last ⟨inner, rfl, ran⟩
  have settled (committed : Committed (events ++ inner.map session)) :
      Tallied (events ++ inner.map session) :=
    tallied.append (forward_tallied mode ran committed.back)
  cases outcome with
  | error error => exact settled
  | ok result =>
    simp only [thenPost]
    split
    · exact settled
    · split
      · rename_i path _ unknown
        -- an unknown path is no success, so the session keeps the client's row as it was
        have unaccounted : accounts inner = [] := by
          have ends := forward_ends ran
          simp only [Ends] at ends
          split at ends
          · rename_i success
            rcases List.mem_cons.mp unknown with same | same
            · simp [isSuccess, same] at success
            · simp [isSuccess, List.mem_singleton.mp same] at success
          · exact ends.unaccounted
        have hand := hand.grown (inner.map session) (clientRow_unaccounted events unaccounted)
        refine wp_mono ?_ (wp_forwarding hand)
        rintro outcome last ⟨again, rfl, ran⟩ committed
        exact (settled committed.front).append (forward_tallied mode ran committed.back)
      · exact settled

theorem wp_handle (mode : setup.config.quota.countMode = "success")
    (hand : ClientHand setup id events client) (tallied : Tallied events) :
    (wholly (handle setup request client)).wp (watching setup id) Settled events := by
  unfold handle
  refine wp_outside .prepare _ trivial tallied fun prepared tallied same => ?_
  have hand := hand.grown _ same
  rcases prepared with error | _ | pinnedApiKeyId
  · exact fun _ => tallied
  · exact fun _ => tallied
  · simp only [bind_eq, wholly_bind]
    refine (wp_bind _).mpr (wp_mono ?_ (wp_forwardWithFallback mode pinnedApiKeyId hand tallied))
    rintro (error | result) last settled
    · exact settled
    · refine wp_put .conclude _ trivial fun concluded => ?_
      have ended (committed : Committed (last ++ [⟨.part .conclude, concluded⟩])) :
          Tallied (last ++ [⟨.part .conclude, concluded⟩]) :=
        (settled committed.front).then (neutral_outside .conclude trivial concluded)
      rcases concluded with error | ⟨⟩ <;> exact ended

/-- How the quota check ends. -/
def Governed (setup : Setup R) (id : Nat) : Except Exn ClientObject → List (RequestEvent R) → Prop
  | .ok governed, last => ClientHand setup id last governed ∧ Tallied last
  | .error _, last => Tallied last

theorem wp_releaseAnd {post : Except Exn Value → List (RequestEvent R) → Prop}
    (client : ClientObject) (error : FcamError) (tallied : Tallied events)
    (ended : ∀ last, Tallied last → post (.error (.fcam error)) last) :
    (wholly (releaseAnd client error : Part R Value)).wp (watching setup id) post events :=
  wp_outside (.release client.id) _ trivial tallied fun _ tallied _ => ended _ tallied

theorem wp_quotaCheckFailed (client : ClientObject) (tallied : Tallied events) :
    (wholly (quotaCheckFailed client : Part R ClientObject)).wp (watching setup id)
      (Governed setup id) events := by
  refine wp_outside (.logClient client.id) _ trivial tallied fun read tallied _ => ?_
  cases read with
  | false => exact tallied
  | true => exact wp_releaseAnd _ _ tallied fun _ tallied => tallied

section

variable {row : ClientColumns} {today : Int}

/-- The commit of usage that is counted anew. -/
theorem wp_commitReset {post : Except Exn ClientObject → List (RequestEvent R) → Prop}
    (rest : Bool → Part R ClientObject) (enabled : setup.config.quota.enableQuotaCheck = true)
    (limited : row.dailyQuota.isSome = true) (kept : clientRow events = some row)
    (asked : ⟨.part (.today setup.config.quota.timezone), some today⟩ ∈ events)
    (dirty : row.quotaResetAt ≠ some today) (tallied : Tallied events)
    (written : ∀ last, Tallied last →
      ClientHand setup id last ((ClientObject.fresh id row).assign (resetUsage today)).saved →
      (wholly (rest true)).wp (watching setup id) post last)
    (failed : ∀ last, Tallied last → (wholly (rest false)).wp (watching setup id) post last) :
    (wholly ((commitReset ((ClientObject.fresh id row).assign (resetUsage today))).bind rest)).wp
      (watching setup id) post events := by
  have watched : Watched setup id events (.part (.session (.commit
      { site := .quotaReset, keys := []
        client := some ((ClientObject.fresh id row).assign (resetUsage today)) }))) := by
    refine ⟨KeyWrites.writable_keyless nofun rfl, fun _ => ?_, ?_⟩
    · exact List.mem_cons_of_mem _ List.mem_cons_self
    · rintro _ ⟨⟩
      exact ⟨rfl, kept, .reset today rfl rfl enabled limited asked dirty rfl⟩
  refine wp_put _ _ watched fun reply => ?_
  have neutral : Neutral (⟨.part (.session (.commit
      { site := .quotaReset, keys := []
        client := some ((ClientObject.fresh id row).assign (resetUsage today)) })), reply⟩ :
      RequestEvent R) := by
    cases reply <;> exact ⟨fun _ => ⟨rfl, rfl⟩, rfl, rfl⟩
  have tallied := tallied.then neutral
  cases reply with
  | false => exact failed _ tallied
  | true =>
    refine written _ tallied ⟨rfl, ?_, rfl, fun _ _ => ?_⟩
    · rw [clientRow_append]
      rfl
    · exact ⟨today, List.mem_append_left _ asked, resetUsage_day today row⟩

theorem wp_enforceQuota (kept : clientRow events = some row) (tallied : Tallied events) :
    (wholly (enforceQuota setup.config.quota (ClientObject.fresh id row))).wp (watching setup id)
      (Governed setup id) events := by
  have plain (unlimited : setup.config.quota.enableQuotaCheck = true →
      row.dailyQuota.isSome = true → False) :
      ClientHand setup id events (ClientObject.fresh id row) :=
    ⟨rfl, kept, rfl, fun enabled limited => (unlimited enabled limited).elim⟩
  unfold enforceQuota
  split
  · rename_i none
    have none : row.dailyQuota = .none := none
    exact ⟨plain fun _ limited => by simp [none] at limited, tallied⟩
  · rename_i dailyQuota given
    have limited : row.dailyQuota.isSome = true := by
      have given : row.dailyQuota = some dailyQuota := given
      rw [given]
      rfl
    split
    · rename_i unchecked
      exact ⟨plain fun enabled _ => by simp [enabled] at unchecked, tallied⟩
    · rename_i checked
      have enabled : setup.config.quota.enableQuotaCheck = true := by simpa using checked
      refine wp_outside (.today _) _ trivial tallied fun found tallied same => ?_
      have kept := same.trans kept
      cases found with
      | none => exact wp_releaseAnd _ _ tallied fun _ tallied => tallied
      | some today =>
        have asked : (⟨.part (.today setup.config.quota.timezone), some today⟩ : RequestEvent R) ∈
            events ++ [⟨.part (.today setup.config.quota.timezone), some today⟩] :=
          List.mem_append_right _ (List.mem_singleton_self _)
        generalize events ++ [(⟨.part (.today setup.config.quota.timezone), some today⟩ :
          RequestEvent R)] = dayed at tallied kept asked
        dsimp only
        split
        · refine wp_outside (.untilMidnight _) _ trivial tallied fun left tallied same => ?_
          cases left with
          | none => exact wp_releaseAnd _ _ tallied fun _ tallied => tallied
          | some retryAfter =>
            dsimp only
            split
            · rename_i dirty
              refine wp_commitReset _ enabled limited (same.trans kept)
                (List.mem_append_left _ asked) dirty tallied (fun last tallied _ => ?_)
                fun last tallied => ?_
              · exact wp_releaseAnd _ _ tallied fun _ tallied => tallied
              · refine wp_outside .rollback _ trivial tallied fun undone tallied _ => ?_
                cases undone with
                | false => exact wp_quotaCheckFailed _ tallied
                | true => exact wp_releaseAnd _ _ tallied fun _ tallied => tallied
            · exact wp_releaseAnd _ _ tallied fun _ tallied => tallied
        · split
          · rename_i dirty
            refine wp_commitReset _ enabled limited kept asked dirty tallied
              (fun last tallied hand => ⟨hand, tallied⟩) fun last tallied => ?_
            exact wp_quotaCheckFailed _ tallied
          · rename_i clean
            have current : row.quotaResetAt = some today := not_not.mp clean
            have same : resetUsage today row = row := if_pos current
            refine ⟨⟨rfl, kept, same, fun _ _ => ⟨today, asked, current⟩⟩, tallied⟩

end

/-- Every question of a request from the governance on is watched. -/
theorem wp_serve (mode : setup.config.quota.countMode = "success") {row : ClientColumns}
    (kept : clientRow events = some row) (tallied : Tallied events) :
    (wholly (serve setup request (ClientObject.fresh id row))).wp (watching setup id) Settled
      events := by
  unfold serve enforceClientGovernance
  refine wp_outside (.acquire _ _) _ trivial tallied fun slot tallied same => ?_
  have kept := same.trans kept
  rcases slot with _ | _ | _
  · exact fun _ => tallied
  · exact fun _ => tallied
  refine wp_outside (.allow _ _) _ trivial tallied fun limited tallied same => ?_
  have kept := same.trans kept
  rcases limited with _ | ⟨_ | _, retryAfter⟩
  · exact fun _ => tallied
  · exact wp_releaseAnd _ _ tallied fun _ tallied _ => tallied
  simp only [bind_eq, wholly_bind]
  refine (wp_bind _).mpr (wp_mono ?_ (wp_enforceQuota kept tallied))
  rintro (error | governed) middle checked
  · exact fun _ => checked
  · obtain ⟨hand, tallied⟩ := checked
    simp only [thenPost, wholly_ensuring]
    refine (wp_ensuring _).mpr (wp_mono ?_ (wp_handle mode hand tallied))
    intro outcome last settled
    refine (wp_check _ _).mpr ⟨trivial, fun reply => ?_⟩
    have ended (committed : Committed (last ++ [⟨.part (.release id), reply⟩])) :
        Tallied (last ++ [⟨.part (.release id), reply⟩]) :=
      (settled committed.front).then (neutral_outside (.release id) trivial reply)
    cases outcome <;> exact ended

/-- Every question of a request is watched, and its success is counted in the end. -/
theorem wp_program (mode : setup.config.quota.countMode = "success") (given : ClientRequest) :
    (given.program setup).wp (watching setup given.clientId) Settled [] := by
  unfold ClientRequest.program
  refine (wp_check _ _).mpr ⟨rfl, fun reply => ?_⟩
  have tallied : Tallied ([] ++ [(⟨.findClient given.clientId, reply⟩ : RequestEvent R)]) :=
    ⟨fun _ => rfl, rfl⟩
  rcases reply with _ | _ | row
  · exact fun _ => tallied
  · exact fun _ => tallied
  · change (if row.isActive = true then
      wholly (serve setup given.request (ClientObject.fresh given.clientId row))
      else .raise (.fcam ClientAdmin.clientDisabled)).wp _ _ _
    split
    · exact wp_serve mode rfl tallied
    · exact fun _ => tallied

end FcamGateway.UsageCounters
