import FcamGateway.KeyWrites
import FcamGateway.LeaseReturns
import FcamGateway.ForwardAttribution

/-! How a forward conducts itself towards the limiters and the upstream. It takes a lease of a key
only when it holds none and right after the key's rate limit let it through; it sends a request only
right after that, with the secret of the key's row as its session read it; and it gives the lease
back before it goes on. -/
namespace FcamGateway.ForwardConduct
open Prog Credits Upstream Forwarder
open KeyWrites (InHand rows)
open LeaseReturns (Lease lent)

set_option linter.unusedSectionVars false

variable {R : Type} [Field R] [LinearOrder R] [ScoreMath R]

/-- The leases held after an exchange. -/
def leases (events : Exchange R) : List Lease := events.foldl lent []

/-- The key's rate limit let the forward through, and then its concurrency limit. -/
def Passed (events : Exchange R) (id : Nat) (row : KeyColumns) : Prop :=
  ∃ front retryAfter, leases front = [] ∧ events = front ++
    [(⟨.allow id row.rateLimitPerMin, some (true, retryAfter)⟩ : Event (Op R) (Reply R)),
      ⟨.acquire id row.maxConcurrent, some true⟩]

/-- A header of a sent request that is not the key's: the request's id, or one of three that the
client may send. -/
def Forwardable (call : Call) (entry : String × String) : Prop :=
  entry = ("x-request-id", call.requestId) ∨
    (entry.1 ∈ ["accept", "content-type", "user-agent"] ∧
      header call.inboundHeaders entry.1 = some entry.2)

/-- The request is the client's with the secret of the row: of the client's headers it has none
that is about credentials, the connection or the way the request came. -/
def Dressed (setup : Setup R) (call : Call) (row : KeyColumns) (sent : UpstreamRequest) : Prop :=
  ∃ masterKey secret kept, setup.masterKey = some masterKey ∧
    setup.foreign.decryptApiKey masterKey row.apiKeyCiphertext = .ok secret ∧
    sent.method = call.method ∧ sent.url = call.upstreamPath ∧ sent.json = call.jsonBody ∧
    sent.headers = kept ++ providerAuthHeader setup.config call.provider secret ∧
    ∀ entry ∈ kept, Forwardable call entry ∧ PyText.lower entry.1 ∉ dropRequestHeaders

/-- What must have gone before a question. -/
def Due (setup : Setup R) (call : Call) (events : Exchange R) : Op R → Prop
  | .acquire id maximum => ∃ front row retryAfter, leases front = [] ∧ events = front ++
    [(⟨.allow id row.rateLimitPerMin, some (true, retryAfter)⟩ : Event (Op R) (Reply R))] ∧
      rows events id = some row ∧ maximum = row.maxConcurrent
  | .request id sent => ∃ row, Passed events id row ∧ rows events id = some row ∧
    Dressed setup call row sent
  | .release id => leases events = [.key id]
  | _ => True

/-- The conduct of a forward that has had the exchange and stands at `left`. -/
structure Conducted (setup : Setup R) (call : Call) (events : Exchange R)
    (left : Gateway R (ForwardResult R)) : Prop where
  due : ∀ front event back, events = front ++ event :: back → Due setup call front event.op
  returned : ∀ outcome, left = leaf outcome → leases events = []

variable {setup : Setup R} {call : Call} {masterKey : Bytes} {history last : Exchange R}
  {key : KeyObject}

theorem leases_concat (events : Exchange R) (event : Event (Op R) (Reply R)) :
    leases (events ++ [event]) = lent (leases events) event := by
  rw [leases, List.foldl_append]
  rfl

theorem leases_other (events : Exchange R) (op : Op R) (reply : Reply R op)
    (unleased : LeaseReturns.Unleased op) : leases (events ++ [⟨op, reply⟩]) = leases events := by
  rw [leases_concat]
  cases op with
  | acquire id maximum => exact unleased.elim
  | release id => exact unleased.elim
  | _ => rfl

/-- A question without limiters and without a proxied request. -/
def Plain : Op R → Prop
  | .allow _ _ => False
  | .acquire _ _ => False
  | .release _ => False
  | .request _ _ => False
  | _ => True

theorem Plain.due {op : Op R} (plain : Plain op) (events : Exchange R) : Due setup call events op := by
  cases op with
  | allow id rate => exact trivial
  | acquire id maximum => exact plain.elim
  | release id => exact plain.elim
  | request id sent => exact plain.elim
  | _ => trivial

theorem Plain.unleased {op : Op R} (plain : Plain op) : LeaseReturns.Unleased op := by
  cases op with
  | acquire id maximum => exact plain.elim
  | release id => exact plain.elim
  | _ => trivial

abbrev conducting (setup : Setup R) (call : Call) : Monitor (Exchange R) (Op R) (Reply R) :=
  .checking (Due setup call)

theorem wp_tell {post : Except Exn Value → Exchange R → Prop} (op : Op R)
    (rest : Reply R op → Gateway R Value) (due : Due setup call history op)
    (next : ∀ reply, (rest reply).wp (conducting setup call) post (history ++ [⟨op, reply⟩])) :
    ((query op).bind rest).wp (conducting setup call) post history :=
  (wp_check op _).mpr ⟨due, next⟩

/-- What a part without limiters does is known from its writes, and the leases stay. -/
theorem wp_plain {program : Gateway R Value} {post : Except Exn Value → Exchange R → Prop}
    {fails : Exn → Prop} {returns : Value → Prop} (asks : program.Asks Plain fails returns)
    (written : program.wp KeyWrites.watching post history) :
    program.wp (conducting setup call)
      (fun outcome last => post outcome last ∧ leases last = leases history) history := by
  induction program generalizing history with
  | done value => exact ⟨written, rfl⟩
  | raise error => exact ⟨written, rfl⟩
  | ask op next ih =>
    refine (wp_check op next).mpr ⟨asks.1.due history, fun reply => ?_⟩
    have rest := ih reply (asks.2 reply) (((wp_check op next).mp written).2 reply)
    rwa [leases_other history op reply asks.1.unleased] at rest

theorem plain_of_about {id : Nat} {program : Gateway R Value} {returns : Value → Prop}
    (asks : program.Asks (About id) Mild returns) : program.Asks Plain Mild returns := by
  refine asks_mono (fun op about => ?_) asks
  cases op <;> trivial

/-- A part about the key in hand, between leases. -/
theorem wp_handled {program : Gateway R KeyObject} {rest : KeyObject → Gateway R Value}
    {post : Except Exn Value → Exchange R → Prop} {id : Nat}
    (asks : program.Asks Plain Mild fun key => key.id = id)
    (handles : KeyWrites.Handles history id program)
    (next : ∀ key last, InHand last key → leases last = leases history →
      (rest key).wp (conducting setup call) post last)
    (raised : ∀ error last, leases last = leases history → post (.error error) last) :
    (program.bind rest).wp (conducting setup call) post history := by
  refine (wp_bind _).mpr (wp_mono ?_ (wp_plain asks handles))
  rintro (error | key) last ⟨returned, same⟩
  · exact raised error last same
  · exact next key last returned.2 same

theorem plain_select (config : AppConfig R) (runtime : Option (RuntimeScheduling R))
    (provider : String) (exclude : List Nat) :
    (KeyPool.select config runtime provider exclude).Asks Plain (fun _ => True) fun _ => True := by
  have undone (key : KeyObject) (error : KeyPool.Unselected) : ((rollback (R := R) key).bind fun _ =>
      .done (.error error : Except _ (KeyPool.SelectedKey R))).Asks Plain (fun _ => True)
        fun _ => True := by
    refine ⟨trivial, fun reply => ?_⟩
    cases reply <;> trivial
  unfold KeyPool.select
  refine ⟨trivial, fun found => ?_⟩
  cases found with
  | none => trivial
  | some view =>
    refine ⟨trivial, fun stored => ?_⟩
    simp only [Prog.bind]
    split
    · trivial
    · split
      · refine ⟨trivial, fun stored => ⟨trivial, fun written => ?_⟩⟩
        cases written with
        | true => trivial
        | false => exact undone _ _
      · refine ⟨trivial, fun written => ?_⟩
        cases written with
        | true => trivial
        | false => exact undone _ _

theorem plain_settleResponse (resp : UpstreamResponse) :
    (settleResponse setup call key resp).Asks Plain (fun _ => True) fun _ => True := by
  have consumed (client : ClientObject) (key : KeyObject) :
      (consumeQuotaOnSuccess (R := R) client key).Asks Plain (fun _ => True) fun _ => True := by
    refine ⟨trivial, fun usedAt => ⟨trivial, fun keyUsedAt => ⟨trivial, fun ok => ?_⟩⟩⟩
    cases ok with
    | true => trivial
    | false =>
      refine ⟨trivial, fun reply => ?_⟩
      cases reply <;> trivial
  unfold settleResponse countUsage
  split
  · refine asks_bind ?_ fun _ (_ : True) => ⟨trivial, fun _ => trivial⟩
    split
    · exact consumed _ _
    · split
      · refine ⟨trivial, fun ok => ?_⟩
        cases ok with
        | true => trivial
        | false =>
          refine ⟨trivial, fun reply => ?_⟩
          cases reply <;> trivial
      · trivial
  · trivial

/-- A free forward: it holds no lease. -/
abbrev Free (events : Exchange R) : Prop := leases events = []

/-- The part leaves no lease behind. -/
abbrev Frees (setup : Setup R) (call : Call) (history : Exchange R) (program : Gateway R Value) :
    Prop :=
  program.wp (conducting setup call) (fun _ last => Free last) history

theorem frees_settleResponse (resp : UpstreamResponse) (hand : InHand history key)
    (free : Free history) {rest : Unit → Gateway R Value}
    (next : ∀ last, Free last → Frees setup call last (rest ())) :
    Frees setup call history ((settleResponse setup call key resp).bind rest) := by
  refine (wp_bind _).mpr (wp_mono ?_ (wp_plain (plain_settleResponse resp)
    (KeyWrites.wp_settleResponse setup call resp hand)))
  rintro (error | _) last ⟨_, same⟩
  · exact same.trans free
  · exact next last (same.trans free)

theorem frees_poolResponse (progress : Progress R) (resp : UpstreamResponse)
    (hand : InHand history key) (free : Free history) :
    Frees setup call history (poolResponse setup call progress key resp) := by
  have refused {rest : KeyObject → Gateway R (Turn (ForwardResult R) (Progress R))} (status : Int)
      (next : ∀ key last, InHand last key → Free last → Frees setup call last (rest key)) :
      Frees setup call history ((refreshCreditsOn4xx setup key status).bind rest) :=
    wp_handled (plain_of_about (about_refreshCreditsOn4xx setup key status))
      (KeyWrites.wp_refreshCreditsOn4xx setup status hand)
      (fun key last hand same => next key last hand (same.trans free)) fun _ _ same => same.trans free
  unfold poolResponse
  split
  · refine refused _ fun key last hand free => ?_
    exact wp_handled (plain_of_about (about_markCooling key _)) (KeyWrites.wp_markCooling _ hand)
      (fun _ _ _ same => same.trans free) fun _ _ same => same.trans free
  · refine refused _ fun key last hand free => ?_
    refine (wp_bind _).mpr (wp_mono ?_ (wp_plain (plain_of_about (about_zeroCredits key))
      (KeyWrites.wp_zeroCredits hand)))
    rintro (error | _) stop ⟨_, same⟩ <;> exact same.trans free
  · refine refused _ fun key last hand free => ?_
    exact wp_handled (plain_of_about (about_disableKey key)) (KeyWrites.wp_disableKey hand)
      (fun _ _ _ same => same.trans free) fun _ _ same => same.trans free
  · exact wp_handled (plain_of_about (about_recordFailure setup key _ _))
      (KeyWrites.wp_recordFailure setup _ _ hand) (fun _ _ _ same => same.trans free)
      fun _ _ same => same.trans free
  · exact frees_settleResponse resp hand free fun _ free => free

theorem forwardable_sanitized {entry : String × String}
    (member : entry ∈ sanitizedRequestHeaders call.inboundHeaders call.requestId) :
    Forwardable call entry := by
  rcases List.mem_cons.mp member with rfl | kept
  · exact .inl rfl
  · obtain ⟨name, listed, read⟩ := List.mem_filterMap.mp kept
    split at read
    · rename_i value found
      split at read
      · cases read
      · cases read
        exact .inr ⟨listed, found⟩
    · cases read

theorem Forwardable.undropped {entry : String × String} (allowed : Forwardable call entry) :
    PyText.lower entry.1 ∉ dropRequestHeaders := by
  have names : ∀ name ∈ ["x-request-id", "accept", "content-type", "user-agent"],
      PyText.lower name ∉ dropRequestHeaders := by
    decide
  refine names entry.1 ?_
  rcases allowed with rfl | ⟨listed, _⟩
  · exact List.mem_cons_self
  · exact List.mem_cons_of_mem _ listed

/-- The key's header is not dropped, and of the kept ones none is. -/
theorem headers_upstream (config : AppConfig R) (provider secret : String) (call : Call) :
    upstreamHeaders (sanitizedRequestHeaders call.inboundHeaders call.requestId)
        (providerAuthHeader config provider secret) =
      (sanitizedRequestHeaders call.inboundHeaders call.requestId).filter
          (fun entry => (providerAuthHeader config provider secret).all (·.1 ≠ entry.1)) ++
        providerAuthHeader config provider secret := by
  rw [upstreamHeaders, List.filter_eq_self]
  intro entry member
  rcases List.mem_append.mp member with kept | own
  · have undropped := (forwardable_sanitized (List.mem_filter.mp kept).1).undropped
    simp [undropped]
  · have name : entry.1 = "authorization" ∨ entry.1 = "x-api-key" := by
      unfold providerAuthHeader at own
      split at own
      · exact .inl (congrArg Prod.fst (List.mem_singleton.mp own))
      · split at own
        · split at own
          · exact .inr (congrArg Prod.fst (List.mem_singleton.mp own))
          · exact .inl (congrArg Prod.fst (List.mem_singleton.mp own))
        · exact .inl (congrArg Prod.fst (List.mem_singleton.mp own))
    rcases name with same | same <;> rw [same] <;> decide

/-- The lease of the key is held, and nothing was asked since it was granted. -/
structure Ready (setup : Setup R) (masterKey : Bytes) (events : Exchange R) (key : KeyObject) :
    Prop where
  hand : InHand events key
  passed : Passed events key.id key.current
  held : leases events = [.key key.id]
  known : setup.masterKey = some masterKey

/-- A key that passes both limits is ready to be used. -/
theorem ready_acquired (hand : InHand history key) (free : Free history) (retryAfter : Int)
    (known : setup.masterKey = some masterKey) :
    Ready setup masterKey (history ++
      [(⟨.allow key.id key.current.rateLimitPerMin, some (true, retryAfter)⟩ :
        Event (Op R) (Reply R))] ++ [⟨.acquire key.id key.current.maxConcurrent, some true⟩]) key := by
  refine ⟨(hand.then (.allow _ _) _ trivial).then (.acquire _ _) _ trivial,
    ⟨history, retryAfter, free, List.append_assoc _ _ _⟩, ?_, known⟩
  rw [leases_concat, leases_other _ (.allow _ _) _ trivial, free]
  rfl

theorem due_acquire (hand : InHand history key) (free : Free history) (retryAfter : Int) :
    Due setup call (history ++ [(⟨.allow key.id key.current.rateLimitPerMin,
      some (true, retryAfter)⟩ : Event (Op R) (Reply R))])
      (.acquire key.id key.current.maxConcurrent) := by
  refine ⟨history, key.current, retryAfter, free, rfl, ?_, rfl⟩
  rw [hand.clean]
  exact (hand.then (.allow _ _) _ trivial).kept

/-- A transport error is recorded under the lease. -/
def Lent (key : KeyObject) : Except Exn Value → Exchange R → Prop
  | .ok _, last => InHand last key ∧ leases last = [.key key.id]
  | .error _, last => leases last = [.key key.id]

theorem dressed_upstreamRequest {row : KeyColumns} {secret : String}
    (known : setup.masterKey = some masterKey)
    (opened : setup.foreign.decryptApiKey masterKey row.apiKeyCiphertext = .ok secret) :
    Dressed setup call row (upstreamRequest setup call secret) := by
  refine ⟨masterKey, secret, _, known, opened, rfl, rfl, rfl, headers_upstream .., ?_⟩
  intro entry member
  have allowed := forwardable_sanitized (List.mem_filter.mp member).1
  exact ⟨allowed, allowed.undropped⟩

theorem wp_sendUpstream {secret : String} (ready : Ready setup masterKey history key)
    (opened : setup.foreign.decryptApiKey masterKey key.current.apiKeyCiphertext = .ok secret) :
    (sendUpstream setup call key secret).wp (conducting setup call) (Lent key) history := by
  unfold sendUpstream
  refine wp_tell _ _ ⟨key.current, ready.passed, ?_, dressed_upstreamRequest ready.known opened⟩
    fun reply => ?_
  · rw [ready.hand.kept, ready.hand.clean]
  · have hand := ready.hand.then (.request key.id (upstreamRequest setup call secret)) reply trivial
    have held := (leases_other history (.request key.id (upstreamRequest setup call secret)) reply
      trivial).trans ready.held
    have recorded (reason : String) (error : FcamError) :
        ((recordFailure setup key reason none).bind fun _ =>
          (reject error : Gateway R UpstreamResponse)).wp (conducting setup call) (Lent key)
          (history ++ [⟨.request key.id (upstreamRequest setup call secret), reply⟩]) :=
      wp_handled (plain_of_about (about_recordFailure setup key reason none))
        (KeyWrites.wp_recordFailure setup reason none hand) (fun _ _ _ same => same.trans held)
        fun _ _ same => same.trans held
    cases reply with
    | response resp => exact ⟨hand, held⟩
    | timeout => exact recorded "timeout" _
    | httpError text => exact recorded "http_error" _
    | other => exact held

/-- The lease is given back, whether or not its part raises. -/
theorem wp_released {program : Gateway R Value} {post : Except Exn Value → Exchange R → Prop}
    {id : Nat} (met : program.wp (conducting setup call)
      (fun outcome last => leases last = [.key id] ∧
        ∀ reply, Free (last ++ [⟨.release id, reply⟩]) →
          post outcome (last ++ [⟨.release id, reply⟩])) history) :
    (program.ensuring (query (.release id))).wp (conducting setup call) post history := by
  refine (wp_ensuring _).mpr (wp_mono ?_ met)
  rintro outcome last ⟨held, ended⟩
  refine wp_tell _ _ held fun reply => ?_
  have free : Free (last ++ [⟨.release id, reply⟩]) := by
    unfold Free
    rw [leases_concat, held]
    exact List.erase_cons_head ..
  have done := ended reply free
  cases outcome <;> exact done

/-- An attempt under its lease: afterwards the key is in hand where there was a response. -/
def Tried (key : KeyObject) (answered : Value → Prop) : Except Exn Value → Exchange R → Prop
  | .ok value, last => Free last ∧ (answered value → InHand last key)
  | .error _, last => Free last

theorem wp_disableKeyDecryptFailed {rest : KeyObject → Gateway R Value}
    {post : Except Exn Value → Exchange R → Prop} (ready : Ready setup masterKey history key)
    (next : ∀ key last, leases last = leases history →
      (rest key).wp (conducting setup call) post last)
    (raised : ∀ error last, leases last = leases history → post (.error error) last) :
    ((disableKeyDecryptFailed key).bind rest).wp (conducting setup call) post history := by
  have asks : (disableKeyDecryptFailed (R := R) key).Asks Plain Mild fun next => next.id = key.id := by
    refine ⟨trivial, fun reply => ?_⟩
    cases reply
    · exact plain_of_about (about_rollback _)
    · rfl
  exact wp_handled asks (KeyWrites.wp_disableKeyDecryptFailed ready.hand)
    (fun key last _ same => next key last same) raised

theorem wp_pinnedRequest (ready : Ready setup masterKey history key) :
    (pinnedRequest setup call masterKey key).wp (conducting setup call) (Tried key fun _ => True)
      history := by
  unfold pinnedRequest
  refine wp_released ?_
  split
  · refine wp_disableKeyDecryptFailed ready (fun _ _ same => ?_) fun _ _ same => ?_ <;>
      exact ⟨same.trans ready.held, fun _ free => free⟩
  · rename_i secret opened
    refine wp_mono ?_ (wp_sendUpstream ready opened)
    rintro (error | resp) last answered
    · exact ⟨answered, fun _ free => free⟩
    · exact ⟨answered.2, fun reply free =>
        ⟨free, fun _ => answered.1.then (.release key.id) reply trivial⟩⟩

theorem wp_poolRequest (ready : Ready setup masterKey history key) :
    (poolRequest setup call masterKey key).wp (conducting setup call)
      (Tried key fun found => found.isSome = true) history := by
  unfold poolRequest
  refine wp_released ?_
  split
  · refine wp_disableKeyDecryptFailed ready (fun _ _ same => ?_) fun _ _ same => ?_
    · exact ⟨same.trans ready.held, fun _ free => ⟨free, nofun⟩⟩
    · exact ⟨same.trans ready.held, fun _ free => free⟩
  · rename_i secret opened
    refine (wp_bind _).mpr (wp_mono ?_ (wp_sendUpstream ready opened))
    rintro (error | resp) last answered
    · exact ⟨answered, fun _ free => free⟩
    · exact ⟨answered.2, fun reply free =>
        ⟨free, fun _ => answered.1.then (.release key.id) reply trivial⟩⟩

theorem frees_selectedTurn (progress : Progress R) (hand : InHand history key) (free : Free history)
    (known : setup.masterKey = some masterKey) :
    Frees setup call history (selectedTurn setup call masterKey progress key) := by
  unfold selectedTurn
  refine wp_tell _ _ trivial fun limited => ?_
  have still := (leases_other history (.allow key.id key.current.rateLimitPerMin) limited
    trivial).trans free
  rcases limited with _ | ⟨_ | _, retryAfter⟩
  · exact still
  · exact still
  · refine wp_tell _ _ (due_acquire hand free retryAfter) fun slot => ?_
    rcases slot with _ | _ | _
    · exact (leases_concat _ _).trans still
    · exact (leases_concat _ _).trans still
    · refine (wp_bind _).mpr (wp_mono ?_ (wp_poolRequest (ready_acquired hand free retryAfter known)))
      rintro (error | _ | resp) last tried
      · exact tried
      · exact tried.1
      · exact frees_poolResponse _ resp (tried.2 rfl) tried.1

theorem frees_poolTurn (progress : Progress R) (free : Free history)
    (known : setup.masterKey = some masterKey) :
    Frees setup call history (poolTurn setup call masterKey progress) := by
  unfold poolTurn
  refine (wp_bind _).mpr (wp_mono ?_ (wp_plain (plain_select setup.config setup.runtime call.provider _)
    (KeyWrites.wp_select setup.config setup.runtime call.provider _)))
  rintro (error | failed | selected) last ⟨found, same⟩
  · exact same.trans free
  · have free : Free last := same.trans free
    simp only [thenPost]
    split
    · exact free
    · split
      · split <;> exact free
      · exact free
  · exact frees_selectedTurn _ found (same.trans free) known

theorem frees_afterPool (progress : Progress R) (free : Free history) :
    Frees setup call history (afterPool setup call progress) := by
  unfold afterPool
  split
  · exact free
  · split <;> exact free

theorem frees_poolLoop (left : Nat) (progress : Progress R) (free : Free history)
    (known : setup.masterKey = some masterKey) :
    Frees setup call history (poolLoop setup call masterKey left progress) := by
  induction left generalizing progress history with
  | zero => exact frees_afterPool progress free
  | succ left ih =>
    unfold poolLoop
    split
    · refine (wp_bind _).mpr (wp_mono ?_ (frees_poolTurn progress free known))
      rintro (error | result | progress) last free
      · exact free
      · exact free
      · exact ih progress free
    · exact frees_afterPool progress free

/-- A pinned attempt that goes on has its key in hand. -/
def Attempted : Except Exn (Turn (ForwardResult R) (KeyObject × Progress R)) → Exchange R → Prop
  | .ok (.again loop), last => Free last ∧ InHand last loop.1
  | _, last => Free last

theorem wp_pinnedTurn (attempt : Nat) (progress : Progress R) (hand : InHand history key)
    (free : Free history) (known : setup.masterKey = some masterKey) :
    (pinnedTurn setup call masterKey attempt (key, progress)).wp (conducting setup call) Attempted
      history := by
  unfold pinnedTurn
  refine wp_tell _ _ trivial fun limited => ?_
  have still := (leases_other history (.allow key.id key.current.rateLimitPerMin) limited
    trivial).trans free
  rcases limited with _ | ⟨_ | _, retryAfter⟩
  · exact still
  · exact still
  refine wp_tell _ _ (due_acquire hand free retryAfter) fun slot => ?_
  rcases slot with _ | _ | _
  · exact (leases_concat _ _).trans still
  · exact (leases_concat _ _).trans still
  refine (wp_bind _).mpr (wp_mono ?_ (wp_pinnedRequest (ready_acquired hand free retryAfter known)))
  rintro (error | resp) middle tried
  · exact tried
  obtain ⟨free, hand⟩ := tried
  have hand := hand trivial
  have refused {rest : KeyObject → Gateway R (Turn (ForwardResult R) (KeyObject × Progress R))}
      (status : Int) (next : ∀ key last, InHand last key → Free last →
        (rest key).wp (conducting setup call) Attempted last) :
      ((refreshCreditsOn4xx setup key status).bind rest).wp (conducting setup call) Attempted
        middle :=
    wp_handled (plain_of_about (about_refreshCreditsOn4xx setup key status))
      (KeyWrites.wp_refreshCreditsOn4xx setup status hand)
      (fun key last hand same => next key last hand (same.trans free)) fun _ _ same => same.trans free
  simp only [thenPost]
  split
  · refine refused _ fun cooled last hand free => ?_
    refine wp_handled (plain_of_about (about_markCooling cooled _)) (KeyWrites.wp_markCooling _ hand)
      (fun rested stop hand same => ?_) fun _ _ same => same.trans free
    split
    · exact same.trans free
    · exact ⟨same.trans free, hand⟩
  · refine refused _ fun refreshed last hand free => ?_
    exact wp_handled (plain_of_about (about_disableKey refreshed)) (KeyWrites.wp_disableKey hand)
      (fun _ _ _ same => same.trans free) fun _ _ same => same.trans free
  · exact wp_handled (plain_of_about (about_recordFailure setup key _ _))
      (KeyWrites.wp_recordFailure setup _ _ hand) (fun _ _ _ same => same.trans free)
      fun _ _ same => same.trans free
  · split
    · rename_i credit
      -- a response about missing credits is no success, so nothing is counted for it
      have failed : ¬ isSuccess resp.statusCode = true := by
        intro success
        rw [(classify_ok_iff resp).mpr success] at credit
        cases credit
      refine refused _ fun refreshed last hand free => ?_
      refine (wp_bind _).mpr (wp_mono ?_ (wp_plain (plain_of_about (about_zeroCredits refreshed))
        (KeyWrites.wp_zeroCredits hand)))
      rintro (error | _) stop ⟨_, same⟩
      · exact same.trans free
      · simp only [thenPost, settleResponse, failed]
        exact same.trans free
    · refine (wp_bind _).mpr (wp_mono ?_ (wp_plain (plain_settleResponse resp)
        (KeyWrites.wp_settleResponse setup call resp hand)))
      rintro (error | _) last ⟨_, same⟩ <;> exact same.trans free

theorem frees_pinnedLoop (left : Nat) (progress : Progress R) (hand : InHand history key)
    (free : Free history) (known : setup.masterKey = some masterKey) :
    Frees setup call history (pinnedLoop setup call masterKey left (key, progress)) := by
  induction left generalizing key progress history with
  | zero => exact free
  | succ left ih =>
    unfold pinnedLoop
    refine (wp_bind _).mpr (wp_mono ?_ (wp_pinnedTurn _ progress hand free known))
    rintro (error | result | loop) last attempted
    · exact attempted
    · exact attempted
    · exact ih loop.2 attempted.2 attempted.1

theorem frees_pinnedBranch (free : Free history) (known : setup.masterKey = some masterKey) :
    Frees setup call history (pinnedBranch setup call masterKey) := by
  unfold pinnedBranch
  split
  · exact free
  · rename_i id _
    refine wp_tell _ _ trivial fun found => ?_
    have still := (leases_other history (.findKey id) found trivial).trans free
    rcases found with _ | _ | row
    · exact still
    · exact still
    · dsimp only
      split
      · exact frees_pinnedLoop _ _ (KeyWrites.hand_found id row) still known
      · exact still

/-- A forward asks for nothing before it is due, and holds nothing once it has ended. -/
theorem frees_forward (setup : Setup R) (call : Call) : Frees setup call [] (forward setup call) := by
  unfold forward
  split
  · rfl
  · rename_i masterKey known
    split
    · rfl
    · refine (wp_bind _).mpr (wp_mono ?_ (frees_pinnedBranch rfl known))
      rintro (error | result | progress) last free
      · exact free
      · exact free
      · exact frees_poolLoop _ progress free known

/-- In every exchange of a forward each lease is taken when none is held and right after the key's
rate limit, each request is sent right after both limits with the secret of the key's row, and each
lease is given back before the next question about limits; at its end the forward holds none. -/
theorem forward_conducted {left : Gateway R (ForwardResult R)}
    (reached : Reaches (forward setup call) events left) : Conducted setup call events left := by
  have met := frees_forward setup call
  constructor
  · rintro front ⟨op, reply⟩ back rfl
    exact wp_demands reached (follows_checking (Due setup call) front []) met
  · rintro outcome rfl
    exact wp_history reached met

/-- Both keys are tried and answer 429. -/
theorem refused_run_conducted : sends (refusedRun {} []).1 = [1, 2] ∧
    Conducted (plainSetup {}) plainCall (refusedRun {} []).1 (leaf (refusedRun {} []).2) :=
  ⟨by decide +kernel, forward_conducted (execute_ran (refusingUpstream []) _ twoKeys)⟩

end FcamGateway.ForwardConduct
