import FcamGateway.ForwardExchange

/-! What a forward writes, and after which answers. A commit reactivates keys that a selection
has just read, says that a key does not decrypt, follows an answer to the key's own request, or
is the one accounting of a success; a request is sent only while every answer so far was held
against the key that got it. -/
namespace FcamGateway.ForwardEffects
open Prog Credits Upstream Forwarder

set_option linter.unusedSectionVars false

variable {R : Type} [Field R] [LinearOrder R] [ScoreMath R]

/-- The replies to the proxied requests, each with the key of its request, in their order. -/
def replies (events : Exchange R) : List (Nat × UpstreamReply) :=
  events.filterMap fun
    | ⟨.request id _, reply⟩ => some (id, reply)
    | _ => none

/-- The client objects of the commits. -/
def accounts (events : Exchange R) : List ClientObject :=
  events.filterMap fun event => match event.op with
    | .commit batch => batch.client
    | _ => none

/-- The keys that a commit said do not decrypt. -/
def undecrypted (events : Exchange R) : List Nat :=
  events.flatMap fun event => match event.op with
    | .commit batch => if batch.site = .decryptFailed then batch.keys.map KeyObject.id else []
    | _ => []

/-- A response that is held against the key that got it. -/
def HeldAgainst : UpstreamReply → Prop
  | .response resp => classifyUpstreamOutcome resp ∈ [.rateLimit, .credit, .invalidKey]
  | _ => False

def Succeeds : UpstreamReply → Bool
  | .response resp => isSuccess resp.statusCode
  | _ => false

def PassesThrough : UpstreamReply → Prop
  | .response resp => classifyUpstreamOutcome resp = .passthrough
  | _ => False

/-- A commit did not succeed. -/
def Faulted (events : Exchange R) : Prop :=
  ∃ batch, (⟨.commit batch, false⟩ : Event (Op R) (Reply R)) ∈ events

/-- Every answer so far was held against its key, and nothing was accounted. -/
structure Going (events : Exchange R) : Prop where
  refused : ∀ entry ∈ replies events, HeldAgainst entry.2
  unaccounted : accounts events = []

/-- A request with the key was answered otherwise than by a response about the request. -/
def Answerable (events : Exchange R) (id : Nat) : Prop :=
  ∃ reply, (id, reply) ∈ replies events ∧ ¬ PassesThrough reply

/-- A statement that changes rows. -/
def Writes : Op R → Prop
  | .commit _ => True
  | .clearRefresh _ => True
  | _ => False

/-- The view is the last reading of the pool, and no row has been written since. -/
def Fresh (events : Exchange R) (view : PoolView R) : Prop :=
  ∃ early late provider exclude, events = early ++ ⟨.readPool provider exclude, some view⟩ :: late ∧
    ∀ event ∈ late, ¬ Writes event.op

/-- A question that changes no row and no memory of failures. -/
def Idle : Op R → Prop
  | .now => True
  | .monotonic => True
  | .readPool _ _ => True
  | .keepCursor _ _ => True
  | .findKey _ => True
  | .reload _ => True
  | .allow _ _ => True
  | .acquire _ _ => True
  | .release _ => True
  | _ => False

/-- The client object as the accounting of a success changes it. -/
def counted (client : ClientObject) (usedAt : Instant) : ClientObject :=
  client.assign fun columns =>
    { columns with
      dailyUsage := if columns.dailyQuota.isSome then columns.dailyUsage + 1 else columns.dailyUsage
      lastUsedAt := some usedAt }

/-- What a forward may ask after an exchange. -/
inductive Due (setup : Setup R) (call : Call) (masterKey : Bytes) (events : Exchange R) :
    Op R → Prop where
  | idle {op : Op R} (idle : Idle op) : Due setup call masterKey events op
  | decay {view : PoolView R} (weights : KeyPool.Weights R) (provider : String) (exclude : List Nat)
      (fresh : Fresh events view) : Due setup call masterKey events
        (.keepFailures (KeyPool.scanKeys view weights provider exclude).failures)
  | reactivation {view : PoolView R} (weights : KeyPool.Weights R) (provider : String)
      (exclude : List Nat) (fresh : Fresh events view) : Due setup call masterKey events
        (.commit { site := .reactivate
                   keys := (KeyPool.scanKeys view weights provider exclude).reactivated })
  | request {id : Nat} (sent : UpstreamRequest) (going : Going events)
      (sealed : id ∉ undecrypted events) : Due setup call masterKey events (.request id sent)
  | undecryptable {key : KeyObject} {error : String} (going : Going events)
      (failed : setup.foreign.decryptApiKey masterKey key.current.apiKeyCiphertext = .error error) :
      Due setup call masterKey events (.commit { site := .decryptFailed, keys := [key] })
  | answered {op : Op R} {id : Nat} (answerable : Answerable events id) (about : About id op) :
      Due setup call masterKey events op
  | accounting {key : KeyObject} {resp : UpstreamResponse} (usedAt : Instant)
      (mode : setup.config.quota.countMode = "success") (unaccounted : accounts events = [])
      (last : (replies events).getLast? = some (key.id, .response resp))
      (success : isSuccess resp.statusCode = true) : Due setup call masterKey events
        (.commit { site := .quota, keys := [key], client := some (counted call.client usedAt) })

/-- A question that is no request, and no commit that accounts or says that a key does not
decrypt. -/
def Plain : Op R → Prop
  | .request _ _ => False
  | .commit batch => batch.site ≠ .decryptFailed ∧ batch.client = none
  | _ => True

/-- More events, all plain. -/
structure Still (before after : Exchange R) : Prop where
  replied : replies after = replies before
  accounted : accounts after = accounts before
  sealed : undecrypted after = undecrypted before

variable {before middle after history last : Exchange R} {id : Nat} {key : KeyObject}
  {setup : Setup R} {call : Call} {masterKey : Bytes}

@[simp] theorem replies_append (front back : Exchange R) :
    replies (front ++ back) = replies front ++ replies back := List.filterMap_append

@[simp] theorem accounts_append (front back : Exchange R) :
    accounts (front ++ back) = accounts front ++ accounts back := List.filterMap_append

@[simp] theorem undecrypted_append (front back : Exchange R) :
    undecrypted (front ++ back) = undecrypted front ++ undecrypted back := List.flatMap_append

@[simp] theorem replies_nil : replies ([] : Exchange R) = [] := rfl

@[simp] theorem accounts_nil : accounts ([] : Exchange R) = [] := rfl

@[simp] theorem undecrypted_nil : undecrypted ([] : Exchange R) = [] := rfl

@[simp] theorem replies_request (id : Nat) (sent : UpstreamRequest) (reply : UpstreamReply)
    (events : Exchange R) :
    replies (⟨.request id sent, reply⟩ :: events) = (id, reply) :: replies events := rfl

theorem replies_requested (events : Exchange R) (id : Nat) (sent : UpstreamRequest)
    (reply : UpstreamReply) :
    replies (events ++ [⟨.request id sent, reply⟩]) = replies events ++ [(id, reply)] :=
  replies_append _ _

@[simp] theorem replies_commit (events : Exchange R) (batch : Commit) (written : Bool) :
    replies (⟨.commit batch, written⟩ :: events) = replies events := rfl

@[simp] theorem accounts_commit (events : Exchange R) (batch : Commit) (written : Bool) :
    accounts (⟨.commit batch, written⟩ :: events) = batch.client.toList ++ accounts events := by
  cases client : batch.client <;> simp [accounts, client]

/-- The requests of an exchange are those that got a reply. -/
theorem sends_eq_replies (events : Exchange R) : sends events = (replies events).map Prod.fst := by
  simp only [sends, replies, List.map_filterMap]
  congr 1
  funext event
  obtain ⟨op, reply⟩ := event
  cases op <;> rfl

theorem Still.refl (events : Exchange R) : Still events events := ⟨rfl, rfl, rfl⟩

theorem Still.trans (one : Still before middle) (two : Still middle after) : Still before after :=
  ⟨two.replied.trans one.replied, two.accounted.trans one.accounted, two.sealed.trans one.sealed⟩

/-- A plain question and its reply. -/
theorem Still.then (still : Still before middle) (op : Op R) (reply : Reply R op) (plain : Plain op) :
    Still before (middle ++ [⟨op, reply⟩]) := by
  have added : replies [⟨op, reply⟩] = [] ∧ accounts [⟨op, reply⟩] = [] ∧
      undecrypted [⟨op, reply⟩] = [] := by
    cases op with
    | request id sent => exact False.elim plain
    | commit batch =>
      obtain ⟨site, none⟩ := plain
      simp [replies, accounts, undecrypted, site, none]
    | _ => exact ⟨rfl, rfl, rfl⟩
  exact still.trans ⟨by simp [added], by simp [added], by simp [added]⟩

theorem plain_of_about {op : Op R} (about : About id op) : Plain op := by
  cases op with
  | request id sent => exact False.elim about
  | commit batch => exact ⟨about.1, about.2.1⟩
  | _ => trivial

theorem Going.still (going : Going before) (still : Still before after) : Going after :=
  ⟨by rw [still.replied]; exact going.refused, still.accounted.trans going.unaccounted⟩

theorem Answerable.still (answerable : Answerable before id) (still : Still before after) :
    Answerable after id := by
  obtain ⟨reply, member, against⟩ := answerable
  exact ⟨reply, still.replied ▸ member, against⟩

/-- A success is not held against its key. -/
theorem HeldAgainst.fails {reply : UpstreamReply} (held : HeldAgainst reply) :
    Succeeds reply = false := by
  cases reply with
  | response resp =>
    by_contra success
    have ok := (classify_ok_iff resp).mpr (eq_true_of_ne_false success)
    simp [HeldAgainst, ok] at held
  | _ => cases held

/-- Nothing succeeded and nothing was accounted. -/
structure Fruitless (events : Exchange R) : Prop where
  failed : ∀ entry ∈ replies events, Succeeds entry.2 = false
  unaccounted : accounts events = []

/-- One request succeeded, and it was accounted in the mode that counts successes. -/
structure Fruitful (setup : Setup R) (call : Call) (events : Exchange R) : Prop where
  succeeded : (replies events).countP (fun entry => Succeeds entry.2) = 1
  accounted : if setup.config.quota.countMode = "success"
    then ∃ usedAt, accounts events = [counted call.client usedAt] else accounts events = []

/-- The last request was with the key and got the response. -/
structure Answered (id : Nat) (resp : UpstreamResponse) (events : Exchange R) : Prop where
  earlier : ∃ front, replies events = front ++ [(id, .response resp)] ∧
    ∀ entry ∈ front, HeldAgainst entry.2
  unaccounted : accounts events = []

theorem Going.fruitless (going : Going history) : Fruitless history :=
  ⟨fun entry member => (going.refused entry member).fails, going.unaccounted⟩

section

variable {resp : UpstreamResponse}

theorem Answered.still (answered : Answered id resp before) (still : Still before after) :
    Answered id resp after := by
  obtain ⟨front, whole, held⟩ := answered.earlier
  exact ⟨⟨front, still.replied.trans whole, held⟩, still.accounted.trans answered.unaccounted⟩

theorem Answered.answerable (answered : Answered id resp history)
    (against : classifyUpstreamOutcome resp ≠ .passthrough) : Answerable history id := by
  obtain ⟨front, whole, _⟩ := answered.earlier
  exact ⟨.response resp, by simp [whole], against⟩

theorem Answered.going (answered : Answered id resp history) (held : HeldAgainst (.response resp)) :
    Going history := by
  obtain ⟨front, whole, earlier⟩ := answered.earlier
  refine ⟨fun entry member => ?_, answered.unaccounted⟩
  rw [whole, List.mem_append, List.mem_singleton] at member
  rcases member with member | rfl
  · exact earlier entry member
  · exact held

theorem Answered.fruitless (answered : Answered id resp history)
    (failed : isSuccess resp.statusCode = false) : Fruitless history := by
  obtain ⟨front, whole, earlier⟩ := answered.earlier
  refine ⟨fun entry member => ?_, answered.unaccounted⟩
  rw [whole, List.mem_append, List.mem_singleton] at member
  rcases member with member | rfl
  · exact (earlier entry member).fails
  · exact failed

theorem Answered.succeeded (answered : Answered id resp history)
    (success : isSuccess resp.statusCode = true) :
    (replies history).countP (fun entry => Succeeds entry.2) = 1 := by
  obtain ⟨front, whole, earlier⟩ := answered.earlier
  have none : front.countP (fun entry => Succeeds entry.2) = 0 :=
    List.countP_eq_zero.mpr fun entry member => by simp [(earlier entry member).fails]
  have last : Succeeds (id, UpstreamReply.response resp).2 = true := success
  rw [whole, List.countP_append, none, List.countP_singleton, if_pos last]

end

/-- The monitor that checks each question against the exchange before it. -/
abbrev watching (setup : Setup R) (call : Call) (masterKey : Bytes) :
    Monitor (Exchange R) (Op R) (Reply R) :=
  .checking (Due setup call masterKey)

theorem wp_put {post : Except Exn Value → Exchange R → Prop} (op : Op R)
    (rest : Reply R op → Gateway R Value) (due : Due setup call masterKey history op)
    (next : ∀ reply, (rest reply).wp (watching setup call masterKey) post
      (history ++ [⟨op, reply⟩])) :
    ((query op).bind rest).wp (watching setup call masterKey) post history :=
  (wp_check op _).mpr ⟨due, next⟩

/-- What is about one key may follow an answer to a request with it. -/
theorem wp_about {program : Gateway R Value} {returns : Value → Prop}
    {post : Except Exn Value → Exchange R → Prop} (asks : program.Asks (About id) Mild returns)
    (answerable : Answerable history id)
    (returned : ∀ value last, Still history last → returns value → post (.ok value) last)
    (raised : ∀ error last, Still history last → post (.error error) last) :
    program.wp (watching setup call masterKey) post history := by
  have keeps (op : Op R) (about : About id op) :
      (watching setup call masterKey).Keeps (Still history) op := by
    refine fun state still => ⟨.answered (answerable.still still) about, fun reply last moved => ?_⟩
    rw [show last = _ from moved]
    exact still.then op reply (plain_of_about about)
  refine wp_mono ?_ (wp_asks asks keeps (Still.refl history))
  rintro (error | value) last ended
  · exact raised error last ended.1
  · exact returned value last ended.1 ended.2

/-- How a request with a key ends that is sent while the forward is going. -/
def Sent (history : Exchange R) (id : Nat) : Except Exn UpstreamResponse → Exchange R → Prop
  | .ok resp, last => Answered id resp last ∧ undecrypted last = undecrypted history
  | .error _, last => Fruitless last

theorem wp_sendUpstream (key : KeyObject) (secret : String) (going : Going history)
    (sealed : key.id ∉ undecrypted history) :
    (sendUpstream setup call key secret).wp (watching setup call masterKey) (Sent history key.id)
      history := by
  unfold sendUpstream
  refine wp_put _ _ (.request _ going sealed) fun reply => ?_
  have whole : replies (history ++ [⟨.request key.id (upstreamRequest setup call secret), reply⟩]) =
      replies history ++ [(key.id, reply)] := replies_requested _ _ _ _
  have unaccounted : accounts (history ++
      [⟨.request key.id (upstreamRequest setup call secret), reply⟩]) = [] := by
    rw [accounts_append, going.unaccounted]
    rfl
  have fruitless (failed : Succeeds reply = false) : Fruitless (history ++
      [⟨.request key.id (upstreamRequest setup call secret), reply⟩]) := by
    refine ⟨fun entry member => ?_, unaccounted⟩
    rw [whole, List.mem_append, List.mem_singleton] at member
    rcases member with member | rfl
    · exact (going.refused entry member).fails
    · exact failed
  have recorded (reason : String) (error : FcamError) (against : ¬ PassesThrough reply)
      (failed : Succeeds reply = false) :
      ((recordFailure setup key reason none).bind fun _ => reject error).wp
        (watching setup call masterKey) (Sent history key.id)
        (history ++ [⟨.request key.id (upstreamRequest setup call secret), reply⟩]) := by
    have answerable : Answerable (history ++
        [⟨.request key.id (upstreamRequest setup call secret), reply⟩]) key.id :=
      ⟨reply, by simp [whole], against⟩
    have ended (last : Exchange R) (still : Still (history ++
        [⟨.request key.id (upstreamRequest setup call secret), reply⟩]) last) : Fruitless last :=
      ⟨by rw [still.replied]; exact (fruitless failed).failed, still.accounted.trans unaccounted⟩
    refine (wp_bind _).mpr (wp_about (about_recordFailure setup key reason none) answerable ?_ ?_)
    · exact fun _ last still _ => ended last still
    · exact fun _ last still => ended last still
  cases reply with
  | response resp =>
    refine ⟨⟨⟨replies history, whole, going.refused⟩, unaccounted⟩, ?_⟩
    exact (undecrypted_append _ _).trans (List.append_nil _)
  | timeout => exact recorded "timeout" _ id rfl
  | httpError text => exact recorded "http_error" _ id rfl
  | other => exact fruitless rfl

/-- The lease is released whatever the outcome is. -/
theorem wp_released {program : Gateway R Value} {post : Except Exn Value → Exchange R → Prop}
    (keyId : Nat) (met : program.wp (watching setup call masterKey)
      (fun outcome last => ∀ reply, post outcome (last ++ [⟨.release keyId, reply⟩])) history) :
    (program.ensuring (query (.release keyId))).wp (watching setup call masterKey) post
      history := by
  refine (wp_ensuring _).mpr (wp_mono ?_ met)
  intro outcome last holds
  refine wp_put _ _ (.idle trivial) fun reply => ?_
  have ended := holds reply
  cases outcome <;> exact ended

/-- The key that does not decrypt is remembered. -/
theorem wp_disableKeyDecryptFailed {post : Except Exn KeyObject → Exchange R → Prop} {error : String}
    (going : Going history)
    (failed : setup.foreign.decryptApiKey masterKey key.current.apiKeyCiphertext = .error error)
    (ended : ∀ outcome last, Going last → undecrypted last = undecrypted history ++ [key.id] →
      post outcome last) :
    (disableKeyDecryptFailed (R := R) key).wp (watching setup call masterKey) post history := by
  refine wp_put _ _ (.undecryptable going failed) fun written => ?_
  generalize same : history ++ [⟨.commit _, written⟩] = middle
  have again : Going middle := by
    subst same
    exact ⟨by simpa using going.refused, by simp [going.unaccounted]⟩
  have sealed : undecrypted middle = undecrypted history ++ [key.id] := by
    subst same
    exact undecrypted_append _ _
  cases written with
  | true => exact ended _ _ again sealed
  | false =>
    refine wp_put _ _ (.idle trivial) fun row => ?_
    have still := (Still.refl middle).then (.reload key.id) row trivial
    cases row with
    | none => exact ended _ _ (again.still still) (still.sealed.trans sealed)
    | some row => exact ended _ _ (again.still still) (still.sealed.trans sealed)

theorem wp_pinnedRequest (key : KeyObject) (going : Going history)
    (sealed : key.id ∉ undecrypted history) :
    (pinnedRequest setup call masterKey key).wp (watching setup call masterKey)
      (Sent history key.id) history := by
  unfold pinnedRequest
  refine wp_released key.id ?_
  split
  · rename_i error failed
    refine (wp_bind _).mpr (wp_disableKeyDecryptFailed going failed ?_)
    rintro (error | disabled) last going _ reply
    · exact (going.still ((Still.refl last).then _ reply trivial)).fruitless
    · exact (going.still ((Still.refl last).then _ reply trivial)).fruitless
  · rename_i secret opened
    refine wp_mono ?_ (wp_sendUpstream key secret going sealed)
    rintro (error | resp) last sent reply
    · have still := (Still.refl last).then (.release key.id) reply trivial
      exact ⟨by rw [still.replied]; exact sent.failed, still.accounted.trans sent.unaccounted⟩
    · have still := (Still.refl last).then (.release key.id) reply trivial
      exact ⟨sent.1.still still, still.sealed.trans sent.2⟩

/-- How the request of the pool ends. -/
def Polled (history : Exchange R) (id : Nat) :
    Except Exn (Option UpstreamResponse) → Exchange R → Prop
  | .ok none, last => Going last ∧ undecrypted last = undecrypted history ++ [id]
  | .ok (some resp), last => Sent history id (.ok resp) last
  | .error _, last => Fruitless last

theorem wp_poolRequest (key : KeyObject) (going : Going history)
    (sealed : key.id ∉ undecrypted history) :
    (poolRequest setup call masterKey key).wp (watching setup call masterKey)
      (Polled history key.id) history := by
  unfold poolRequest
  refine wp_released key.id ?_
  split
  · rename_i error failed
    refine (wp_bind _).mpr (wp_disableKeyDecryptFailed going failed ?_)
    rintro (error | disabled) last going remembered reply
    · exact (going.still ((Still.refl last).then _ reply trivial)).fruitless
    · have still := (Still.refl last).then (.release key.id) reply trivial
      exact ⟨going.still still, still.sealed.trans remembered⟩
  · rename_i secret opened
    refine (wp_bind _).mpr (wp_mono ?_ (wp_sendUpstream key secret going sealed))
    rintro (error | resp) last sent reply
    · have still := (Still.refl last).then (.release key.id) reply trivial
      exact ⟨by rw [still.replied]; exact sent.failed, still.accounted.trans sent.unaccounted⟩
    · have still := (Still.refl last).then (.release key.id) reply trivial
      exact ⟨sent.1.still still, still.sealed.trans sent.2⟩

/-- What a forward has done for its client when it ends. -/
def Ends (setup : Setup R) (call : Call) : Except Exn (ForwardResult R) → Exchange R → Prop
  | .ok result, last =>
    if isSuccess result.response.statusCode then Fruitful setup call last else Fruitless last
  | .error _, last => Fruitless last ∨ Faulted last

theorem Faulted.grown (faulted : Faulted before) (more : Exchange R) :
    Faulted (before ++ more) := by
  obtain ⟨batch, member⟩ := faulted
  exact ⟨batch, List.mem_append_left _ member⟩

theorem faulted_committed (events : Exchange R) (batch : Commit) :
    Faulted (events ++ [⟨.commit batch, false⟩]) :=
  ⟨batch, List.mem_append_right _ (List.mem_singleton_self _)⟩

theorem wp_rollback (key : KeyObject) (faulted : Faulted history) :
    (rollback (R := R) key).wp (watching setup call masterKey) (fun _ last => Faulted last)
      history := by
  refine wp_put _ _ (.idle trivial) fun row => ?_
  have faulted := faulted.grown [⟨.reload key.id, row⟩]
  cases row <;> exact faulted

/-- How the accounting of a success ends. -/
def Accounted (setup : Setup R) (call : Call) (id : Nat) : Except Exn Value → Exchange R → Prop
  | .ok _, last => Fruitful setup call last ∧ Answerable last id
  | .error _, last => Faulted last

section

variable {resp : UpstreamResponse}

/-- A success is an answer that may count for its key. -/
theorem Answered.counts (answered : Answered id resp history)
    (success : isSuccess resp.statusCode = true) : Answerable history id := by
  refine answered.answerable ?_
  rw [(classify_ok_iff resp).mpr success]
  decide

theorem wp_consumeQuotaOnSuccess {columns : KeyColumns}
    (mode : setup.config.quota.countMode = "success") (answered : Answered key.id resp history)
    (success : isSuccess resp.statusCode = true) :
    (consumeQuotaOnSuccess (R := R) call.client { key with current := columns }).wp
      (watching setup call masterKey) (Accounted setup call key.id) history := by
  unfold consumeQuotaOnSuccess
  refine wp_put _ _ (.idle trivial) fun usedAt => wp_put _ _ (.idle trivial) fun keyUsedAt => ?_
  have still := ((Still.refl history).then .now usedAt trivial).then .now keyUsedAt trivial
  have answered := answered.still still
  generalize history ++ [⟨.now, usedAt⟩] ++ [⟨.now, keyUsedAt⟩] = middle at answered ⊢
  have last : (replies middle).getLast? = some (key.id, .response resp) := by
    obtain ⟨front, whole, _⟩ := answered.earlier
    rw [whole, List.getLast?_append]
    rfl
  refine wp_put _ _ (.accounting usedAt mode answered.unaccounted last success) fun written => ?_
  cases written with
  | true =>
    obtain ⟨reply, member, against⟩ := answered.counts success
    refine ⟨⟨by simpa using answered.succeeded success, ?_⟩, reply, by simpa using member, against⟩
    rw [if_pos mode]
    exact ⟨usedAt, by simp only [accounts_append, answered.unaccounted]; rfl⟩
  | false =>
    refine (wp_bind _).mpr (wp_mono ?_ (wp_rollback _ (faulted_committed middle _)))
    rintro (error | row) last faulted <;> exact faulted

theorem Answered.uncounted (answered : Answered id resp history)
    (mode : setup.config.quota.countMode ≠ "success") (success : isSuccess resp.statusCode = true) :
    Fruitful setup call history ∧ Answerable history id := by
  refine ⟨⟨answered.succeeded success, ?_⟩, answered.counts success⟩
  rw [if_neg mode]
  exact answered.unaccounted

/-- Where successes are not counted, the estimate alone is committed. -/
theorem wp_localCredits {columns : KeyColumns}
    (mode : setup.config.quota.countMode ≠ "success") (answered : Answered key.id resp history)
    (success : isSuccess resp.statusCode = true) :
    (commitKey (R := R) .localCredits { key with current := columns }).wp
      (watching setup call masterKey) (Accounted setup call key.id) history := by
  refine wp_put _ _ (.answered (answered.counts success) (about_commit _ _ nofun)) fun written => ?_
  have still := (Still.refl history).then (.commit
    { site := .localCredits, keys := [{ key with current := columns }] }) written ⟨nofun, rfl⟩
  cases written with
  | true => exact (answered.still still).uncounted mode success
  | false =>
    refine wp_put _ _ (.idle trivial) fun row => ?_
    cases row with
    | none => exact (faulted_committed history _).grown _
    | some row =>
      have still := still.then (.reload key.id) (some row) trivial
      exact (answered.still still).uncounted mode success

theorem wp_countUsage (estimate : Option Int) (answered : Answered key.id resp history)
    (success : isSuccess resp.statusCode = true) :
    (countUsage setup call.client key estimate).wp (watching setup call masterKey)
      (Accounted setup call key.id) history := by
  unfold countUsage
  split
  · rename_i mode
    cases estimate with
    | none => exact wp_consumeQuotaOnSuccess mode answered success
    | some remaining => exact wp_consumeQuotaOnSuccess mode answered success
  · rename_i mode
    cases estimate with
    | none => exact answered.uncounted mode success
    | some remaining =>
      refine (wp_bind _).mpr (wp_mono ?_ (wp_localCredits mode answered success))
      rintro (error | saved) last accounted <;> exact accounted

/-- How the part of a turn ends that follows a response not held against the key. -/
def Settled (setup : Setup R) (call : Call) (success : Bool) : Except Exn Unit → Exchange R → Prop
  | .ok _, last => if success then Fruitful setup call last else Fruitless last
  | .error _, last => Faulted last

theorem Fruitful.still (fruitful : Fruitful setup call before) (still : Still before after) :
    Fruitful setup call after := by
  refine ⟨by rw [still.replied]; exact fruitful.succeeded, ?_⟩
  rw [still.accounted]
  exact fruitful.accounted

theorem wp_settleResponse (answered : Answered key.id resp history) :
    (settleResponse setup call key resp).wp (watching setup call masterKey)
      (Settled setup call (isSuccess resp.statusCode)) history := by
  unfold settleResponse
  split
  · rename_i success
    refine (wp_bind _).mpr (wp_mono ?_ (wp_countUsage _ answered success))
    rintro (error | _) last accounted
    · exact accounted
    obtain ⟨fruitful, answerable⟩ := accounted
    have about : About (R := R) key.id (.keepFailures [(key.id, none)]) :=
      fun update member => congrArg Prod.fst (List.mem_singleton.mp member)
    refine wp_put _ _ (.answered answerable about) fun reply => ?_
    rw [success]
    exact fruitful.still ((Still.refl last).then (.keepFailures [(key.id, none)]) reply trivial)
  · rename_i failed
    have failed : isSuccess resp.statusCode = false := by simpa using failed
    rw [failed]
    exact answered.fruitless failed

/-- A forward whose response is no success has done nothing for its client. -/
theorem ends_fruitless {result : ForwardResult R}
    (failed : isSuccess result.response.statusCode = false) (fruitless : Fruitless last) :
    Ends setup call (.ok result) last := by
  simp only [Ends, failed]
  exact fruitless

/-- The head of the pool loop. -/
structure Open (progress : Progress R) (events : Exchange R) : Prop where
  going : Going events
  tried : ∀ id ∈ undecrypted events, id ∈ progress.triedKeyIds
  failed : ∀ resp, progress.lastErrorResponse = some resp → isSuccess resp.statusCode = false

/-- How a turn of the pool loop ends. -/
def Turned (setup : Setup R) (call : Call) :
    Except Exn (Turn (ForwardResult R) (Progress R)) → Exchange R → Prop
  | .ok (.leave result), last => Ends setup call (.ok result) last
  | .ok (.again progress), last => Open progress last
  | .error error, last => Ends setup call (.error error) last

theorem turned_failOver {progress : Progress R} (going : Going last)
    (held : HeldAgainst (.response resp)) (keyId : Nat)
    (tried : ∀ id ∈ undecrypted last, id ∈ progress.triedKeyIds) :
    Turned setup call (.ok (failOver call progress keyId resp)) last := by
  have failed : isSuccess resp.statusCode = false := held.fails
  unfold failOver
  dsimp only
  split
  · exact ends_fruitless failed going.fruitless
  · refine ⟨going, fun id member => List.mem_cons_of_mem _ (tried id member), ?_⟩
    rintro _ ⟨⟩
    exact failed

/-- A part of a turn about the key that answered, after which the forward fails over. -/
theorem wp_refused {program : Gateway R (Turn (ForwardResult R) (Progress R))}
    {progress : Progress R} (answered : Answered id resp history)
    (held : HeldAgainst (.response resp))
    (tried : ∀ id ∈ undecrypted history, id ∈ progress.triedKeyIds)
    (asks : program.Asks (About id) Mild (· = failOver call progress id resp)) :
    program.wp (watching setup call masterKey) (Turned setup call) history := by
  have against : classifyUpstreamOutcome resp ≠ .passthrough := by
    intro through
    simp [HeldAgainst, through] at held
  refine wp_about asks (answered.answerable against) ?_ ?_
  · rintro _ last still rfl
    refine turned_failOver ((answered.going held).still still) held id ?_
    rw [still.sealed]
    exact tried
  · exact fun error last still => .inl ((answered.going held).still still).fruitless

theorem wp_poolResponse (progress : Progress R) (answered : Answered key.id resp history)
    (tried : ∀ id ∈ undecrypted history, id ∈ progress.triedKeyIds) :
    (poolResponse setup call progress key resp).wp (watching setup call masterKey)
      (Turned setup call) history := by
  have refreshed (statusCode : Int)
      {rest : KeyObject → Gateway R (Turn (ForwardResult R) (Progress R))}
      {returns : Turn (ForwardResult R) (Progress R) → Prop}
      (next : ∀ refreshed, (rest refreshed).Asks (About refreshed.id) Mild returns) :
      ((refreshCreditsOn4xx setup key statusCode).bind rest).Asks (About key.id) Mild returns :=
    asks_bind (about_refreshCreditsOn4xx setup key statusCode) fun other same => same ▸ next other
  unfold poolResponse
  split
  · rename_i limited
    refine wp_refused answered (by simp [HeldAgainst, limited]) tried ?_
    exact refreshed _ fun other => asks_bind (about_markCooling other _) fun _ _ => rfl
  · rename_i credit
    refine wp_refused answered (by simp [HeldAgainst, credit]) tried ?_
    exact refreshed _ fun other => asks_bind (about_zeroCredits other) fun _ _ => rfl
  · rename_i invalid
    refine wp_refused answered (by simp [HeldAgainst, invalid]) tried ?_
    exact refreshed _ fun other => asks_bind (about_disableKey other) fun _ _ => rfl
  · rename_i broken
    have failed : isSuccess resp.statusCode = false := by
      by_contra success
      have ok := (classify_ok_iff resp).mpr (eq_true_of_ne_false success)
      rw [ok] at broken
      cases broken
    have fruitless (last : Exchange R) (still : Still history last) : Fruitless last :=
      (answered.still still).fruitless failed
    refine (wp_bind _).mpr (wp_about (about_recordFailure setup key _ _)
      (answered.answerable (by rw [broken]; decide)) ?_ ?_)
    · exact fun _ last still _ => ends_fruitless failed (fruitless last still)
    · exact fun error last still => .inl (fruitless last still)
  · refine (wp_bind _).mpr (wp_mono ?_ (wp_settleResponse answered))
    rintro (error | _) last settled
    · exact .inr settled
    · exact settled

theorem wp_selectedTurn {progress : Progress R} (opened : Open progress history)
    (sealed : key.id ∉ undecrypted history) :
    (selectedTurn setup call masterKey progress key).wp (watching setup call masterKey)
      (Turned setup call) history := by
  unfold selectedTurn
  refine wp_put _ _ (.idle trivial) fun limited => ?_
  have still := (Still.refl history).then (.allow key.id key.current.rateLimitPerMin) limited trivial
  have skipped (last : Exchange R) (still : Still history last) :
      Open (progress.skip key.id) last := by
    refine ⟨opened.going.still still, fun id member => ?_, opened.failed⟩
    exact List.mem_cons_of_mem _ (opened.tried id (still.sealed ▸ member))
  rcases limited with _ | ⟨_ | _, retryAfter⟩
  · exact .inl (opened.going.still still).fruitless
  · exact skipped _ still
  refine wp_put _ _ (.idle trivial) fun slot => ?_
  have still := still.then (.acquire key.id key.current.maxConcurrent) slot trivial
  rcases slot with _ | _ | _
  · exact .inl (opened.going.still still).fruitless
  · exact skipped _ still
  refine (wp_bind _).mpr (wp_mono ?_ (wp_poolRequest key (opened.going.still still)
    (by rw [still.sealed]; exact sealed)))
  rintro (error | _ | resp) last polled
  · exact .inl polled
  · obtain ⟨going, remembered⟩ := polled
    refine ⟨going, fun id member => ?_, opened.failed⟩
    rw [remembered, still.sealed, List.mem_append, List.mem_singleton] at member
    rcases member with member | rfl
    · exact List.mem_cons_of_mem _ (opened.tried id member)
    · exact List.mem_cons_self
  · obtain ⟨answered, remembered⟩ := polled
    refine wp_poolResponse _ answered fun id member => opened.tried id ?_
    rw [← still.sealed, ← remembered]
    exact member

end

section

variable {view : PoolView R} {config : AppConfig R} {runtime : Option (RuntimeScheduling R)}
  {provider : String} {exclude : List Nat}

theorem fresh_read (history : Exchange R) (provider : String) (exclude : List Nat)
    (view : PoolView R) : Fresh (history ++ [⟨.readPool provider exclude, some view⟩]) view :=
  ⟨history, [], provider, exclude, rfl, fun _ => nofun⟩

theorem Fresh.then (fresh : Fresh before view) (op : Op R) (reply : Reply R op)
    (quiet : ¬ Writes op) : Fresh (before ++ [⟨op, reply⟩]) view := by
  obtain ⟨early, late, provider, exclude, rfl, unwritten⟩ := fresh
  refine ⟨early, late ++ [⟨op, reply⟩], provider, exclude, by simp, fun event member => ?_⟩
  rcases List.mem_append.mp member with member | member
  · exact unwritten event member
  · rw [List.mem_singleton.mp member]
    exact quiet

/-- How a selection ends: a key it returns was not excluded. -/
def Selected (history : Exchange R) (exclude : List Nat) :
    Except Exn (Except KeyPool.Unselected (KeyPool.SelectedKey R)) → Exchange R → Prop
  | .ok (.ok selected), last => Still history last ∧ selected.apiKey.id ∉ exclude
  | _, last => Still history last

theorem wp_reactivated {selected : KeyPool.SelectedKey R} (still : Still before history)
    (fresh : Fresh history view)
    (decided : KeyPool.decision view (KeyPool.weights config runtime) provider exclude =
      .ok selected) :
    ((query (.commit { site := .reactivate, keys := (KeyPool.scanKeys view
        (KeyPool.weights config runtime) provider exclude).reactivated })).bind fun written =>
      if written then (.done (.ok { selected with apiKey := selected.apiKey.saved }) :
          Gateway R (Except KeyPool.Unselected (KeyPool.SelectedKey R)))
      else (rollback selected.apiKey).bind fun _ => .done (.error { error := dbUnavailable })).wp
      (watching setup call masterKey) (Selected before exclude) history := by
  refine wp_put _ _ (.reactivation _ provider exclude fresh) fun written => ?_
  have still := still.then (.commit { site := .reactivate, keys := (KeyPool.scanKeys view
    (KeyPool.weights config runtime) provider exclude).reactivated }) written ⟨nofun, rfl⟩
  cases written with
  | true =>
    refine ⟨still, ?_⟩
    obtain ⟨_, chosen, _, same, eligible⟩ := KeyPool.decision_eligible decided
    rw [KeyObject.id_saved, same, KeyPool.id_settled]
    exact eligible.kept
  | false =>
    refine wp_put _ _ (.idle trivial) fun row => ?_
    have still := still.then (.reload selected.apiKey.id) row trivial
    cases row <;> exact still

theorem wp_select (config : AppConfig R) (runtime : Option (RuntimeScheduling R)) (provider : String)
    (exclude : List Nat) :
    (KeyPool.select config runtime provider exclude).wp (watching setup call masterKey)
      (Selected history exclude) history := by
  unfold KeyPool.select
  refine wp_put _ _ (.idle trivial) fun found => ?_
  have still := (Still.refl history).then (.readPool provider exclude) found trivial
  cases found with
  | none => exact still
  | some view =>
    have fresh := fresh_read history provider exclude view
    refine wp_put _ _ (.decay _ provider exclude fresh) fun kept => ?_
    have still := still.then (.keepFailures (KeyPool.scanKeys view (KeyPool.weights config runtime)
      provider exclude).failures) kept trivial
    have fresh := fresh.then (.keepFailures (KeyPool.scanKeys view (KeyPool.weights config runtime)
      provider exclude).failures) kept id
    split
    · exact still
    · rename_i selected decided
      split
      · refine wp_put _ _ (.idle trivial) fun kept => ?_
        exact wp_reactivated (still.then (.keepCursor provider _) kept trivial)
          (fresh.then (.keepCursor provider _) kept id) decided
      · exact wp_reactivated still fresh decided

end

/-- One turn of the pool loop. -/
theorem wp_poolTurn {progress : Progress R} (opened : Open progress history) :
    (poolTurn setup call masterKey progress).wp (watching setup call masterKey)
      (Turned setup call) history := by
  unfold poolTurn
  refine (wp_bind _).mpr (wp_mono ?_ (wp_select setup.config setup.runtime call.provider
    progress.triedKeyIds))
  rintro (error | failed | selected) last found
  · exact .inl (opened.going.still found).fruitless
  · have fruitless := (opened.going.still found).fruitless
    simp only [thenPost]
    split
    · exact .inl fruitless
    · split
      · rename_i resp kept
        split
        · exact ends_fruitless (opened.failed resp kept) fruitless
        · exact .inl fruitless
      · exact .inl fruitless
  · obtain ⟨still, kept⟩ := found
    have opened : Open { progress with
        selectionScore := some selected.score, lastApiKeyId := some selected.apiKey.id } last :=
      ⟨opened.going.still still, fun id member => opened.tried id (still.sealed ▸ member),
        opened.failed⟩
    exact wp_selectedTurn opened fun member => kept (opened.tried _ member)

theorem wp_afterPool {progress : Progress R} (opened : Open progress history) :
    (afterPool setup call progress).wp (watching setup call masterKey) (Ends setup call)
      history := by
  have fruitless := opened.going.fruitless
  unfold afterPool
  split
  · exact .inl fruitless
  · split
    · rename_i resp kept
      exact ends_fruitless (opened.failed resp kept) fruitless
    · exact .inl fruitless

theorem wp_poolLoop (left : Nat) {progress : Progress R} (opened : Open progress history) :
    (poolLoop setup call masterKey left progress).wp (watching setup call masterKey)
      (Ends setup call) history := by
  induction left generalizing progress history with
  | zero => exact wp_afterPool opened
  | succ left ih =>
    unfold poolLoop
    split
    · refine (wp_bind _).mpr (wp_mono ?_ (wp_poolTurn opened))
      rintro (error | result | progress) last turned
      · exact turned
      · exact turned
      · exact ih turned
    · exact wp_afterPool opened

/-- The head of the loop over the pinned key. -/
structure Pinned (progress : Progress R) (events : Exchange R) : Prop where
  opened : Open progress events
  sealed : undecrypted events = []

/-- How an attempt with the pinned key ends. -/
def Attempted (setup : Setup R) (call : Call) :
    Except Exn (Turn (ForwardResult R) (KeyObject × Progress R)) → Exchange R → Prop
  | .ok (.leave result), last => Ends setup call (.ok result) last
  | .ok (.again loop), last => Pinned loop.2 last
  | .error error, last => Ends setup call (.error error) last

section

variable {resp : UpstreamResponse} {progress : Progress R}

theorem wp_pinnedTurn (attempt : Nat) (pinned : Pinned progress history) :
    (pinnedTurn setup call masterKey attempt (key, progress)).wp (watching setup call masterKey)
      (Attempted setup call) history := by
  have going := pinned.opened.going
  unfold pinnedTurn
  refine wp_put _ _ (.idle trivial) fun limited => ?_
  have still := (Still.refl history).then (.allow key.id key.current.rateLimitPerMin) limited trivial
  rcases limited with _ | ⟨_ | _, retryAfter⟩
  · exact .inl (going.still still).fruitless
  · exact .inl (going.still still).fruitless
  refine wp_put _ _ (.idle trivial) fun slot => ?_
  have still := still.then (.acquire key.id key.current.maxConcurrent) slot trivial
  rcases slot with _ | _ | _
  · exact .inl (going.still still).fruitless
  · exact .inl (going.still still).fruitless
  have sealed := still.sealed.trans pinned.sealed
  refine (wp_bind _).mpr (wp_mono ?_ (wp_pinnedRequest key (going.still still)
    (by rw [sealed]; exact List.not_mem_nil)))
  rintro (error | resp) middle sent
  · exact .inl sent
  obtain ⟨answered, remembered⟩ := sent
  have sealed := remembered.trans sealed
  have fails (other : classifyUpstreamOutcome resp ≠ .ok) : isSuccess resp.statusCode = false :=
    eq_false_of_ne_true fun success => other ((classify_ok_iff resp).mpr success)
  have fruitless (other : classifyUpstreamOutcome resp ≠ .ok) (last : Exchange R)
      (still : Still middle last) : Fruitless last := (answered.still still).fruitless (fails other)
  simp only [thenPost]
  split
  · rename_i limited
    have other : classifyUpstreamOutcome resp ≠ .ok := by simp [limited]
    have again (last : Exchange R) (still : Still middle last) : Open progress last := by
      have held : HeldAgainst (.response resp) := by simp [HeldAgainst, limited]
      refine ⟨(answered.still still).going held, fun id member => ?_, pinned.opened.failed⟩
      rw [still.sealed, sealed] at member
      exact absurd member List.not_mem_nil
    refine (wp_bind _).mpr (wp_about (about_refreshCreditsOn4xx setup key 429)
      (answered.answerable (by simp [limited])) (fun refreshed last still same => ?_) ?_)
    · refine (wp_bind _).mpr (wp_about (same ▸ about_markCooling refreshed _)
        ((answered.still still).answerable (by simp [limited])) (fun cooled stop more _ => ?_) ?_)
      · simp only [thenPost]
        have still := still.trans more
        split
        · exact ends_fruitless (fails other) (fruitless other stop still)
        · have opened := again stop still
          exact ⟨⟨opened.going, opened.tried, opened.failed⟩, still.sealed.trans sealed⟩
      · exact fun error stop more => .inl (fruitless other stop (still.trans more))
    · exact fun error last still => .inl (fruitless other last still)
  · rename_i invalid
    have other : classifyUpstreamOutcome resp ≠ .ok := by simp [invalid]
    refine wp_about (asks_bind (about_refreshCreditsOn4xx setup key _) fun refreshed same =>
      asks_bind (same ▸ about_disableKey refreshed) fun _ _ => rfl)
      (answered.answerable (by simp [invalid])) ?_ ?_
    · rintro _ last still rfl
      exact ends_fruitless (fails other) (fruitless other last still)
    · exact fun error last still => .inl (fruitless other last still)
  · rename_i broken
    have other : classifyUpstreamOutcome resp ≠ .ok := by simp [broken]
    refine (wp_bind _).mpr (wp_about (about_recordFailure setup key _ _)
      (answered.answerable (by simp [broken])) ?_ ?_)
    · exact fun _ last still _ => ends_fruitless (fails other) (fruitless other last still)
    · exact fun error last still => .inl (fruitless other last still)
  · have settles {last : Exchange R} (still : Still middle last) (progress : Progress R) :
        ((settleResponse setup call key resp).bind fun _ =>
          (.done (.leave (progress.result resp progress.retryCount)) :
            Gateway R (Turn (ForwardResult R) (KeyObject × Progress R)))).wp
          (watching setup call masterKey) (Attempted setup call) last := by
      refine (wp_bind _).mpr (wp_mono ?_ (wp_settleResponse (answered.still still)))
      rintro (error | _) stop settled
      · exact .inr settled
      · exact settled
    split
    · rename_i credit
      have other : classifyUpstreamOutcome resp ≠ .ok := by simp [credit]
      refine (wp_bind _).mpr (wp_about (about_refreshCreditsOn4xx setup key _)
        (answered.answerable (by simp [credit])) (fun refreshed last still same => ?_) ?_)
      · refine (wp_bind _).mpr (wp_about (same ▸ about_zeroCredits refreshed)
          ((answered.still still).answerable (by simp [credit])) (fun _ stop more _ => ?_) ?_)
        · exact settles (still.trans more) _
        · exact fun error stop more => .inl (fruitless other stop (still.trans more))
      · exact fun error last still => .inl (fruitless other last still)
    · exact settles (Still.refl middle) _

theorem wp_pinnedLoop (left : Nat) (pinned : Pinned progress history) :
    (pinnedLoop setup call masterKey left (key, progress)).wp (watching setup call masterKey)
      (Turned setup call) history := by
  induction left generalizing key progress history with
  | zero => exact pinned.opened
  | succ left ih =>
    unfold pinnedLoop
    refine (wp_bind _).mpr (wp_mono ?_ (wp_pinnedTurn _ pinned))
    rintro (error | result | loop) last attempted
    · exact attempted
    · exact attempted
    · exact ih attempted

end

theorem wp_pinnedBranch :
    (pinnedBranch setup call masterKey).wp (watching setup call masterKey) (Turned setup call)
      [] := by
  have opened (events : Exchange R) (still : Still [] events) (lastApiKeyId : Option Nat) :
      Open ({ lastApiKeyId } : Progress R) events := by
    refine ⟨⟨fun entry member => ?_, still.accounted⟩, fun id member => ?_, nofun⟩
    · rw [still.replied] at member
      exact absurd member List.not_mem_nil
    · rw [still.sealed] at member
      exact absurd member List.not_mem_nil
  unfold pinnedBranch
  split
  · exact opened [] (Still.refl []) none
  · rename_i id _
    refine wp_put _ _ (.idle trivial) fun found => ?_
    have still := (Still.refl ([] : Exchange R)).then (.findKey id) found trivial
    rcases found with _ | _ | row
    · exact .inl (opened _ still none).going.fruitless
    · exact opened _ still none
    · dsimp only
      split
      · exact wp_pinnedLoop _ ⟨opened _ still _, still.sealed⟩
      · exact opened _ still none

/-- Each question of a forward is due where it is put, and the client is accounted as the
requests went. -/
theorem wp_forward (setup : Setup R) (call : Call)
    (known : ∀ other, setup.masterKey = some other → other = masterKey) :
    (forward setup call).wp (watching setup call masterKey) (Ends setup call) [] := by
  have fruitless : Fruitless ([] : Exchange R) := ⟨fun entry => nofun, rfl⟩
  unfold forward
  split
  · exact .inl fruitless
  · rename_i given same
    obtain rfl := known given same
    split
    · exact .inl fruitless
    · refine (wp_bind _).mpr (wp_mono ?_ wp_pinnedBranch)
      rintro (error | result | progress) last turned
      · exact turned
      · exact turned
      · exact wp_poolLoop _ turned

end FcamGateway.ForwardEffects
