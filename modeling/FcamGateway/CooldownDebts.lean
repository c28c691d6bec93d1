import FcamGateway.ForwardIsolation
import FcamGateway.KeyVerdicts
import FcamGateway.RetryAfter

/-! What a forward owes to the keys that answer with a rate limit. The handling of such an answer
checks the key's credits and then puts the key to rest, in a database that accepts every write.
The monitor keeps what is owed until the next attempt begins: a row that rests as long as the
answer asks for, unless there is no such date or the header cannot be read. -/
namespace FcamGateway.RateLimitCooling
open Prog Credits Upstream Forwarder KeyVerdicts

set_option linter.unusedSectionVars false

variable {R : Type} [Field R] [LinearOrder R] [ScoreMath R]

/-- A key that may be put to rest. -/
def coolable (row : KeyColumns) : Bool := row.isActive && row.status ≠ "disabled"

/-- The credit endpoint refuses the key. -/
def refusesKey : ProbeReply → Bool
  | .response statusCode _ _ => statusCode = 401 || statusCode = 403
  | _ => false

/-- A rate-limit answer of a key that may rest, the last reading of the clock since, and whether
a credit check refused the key since. -/
structure Owed where
  id : Nat
  resp : UpstreamResponse
  clock : Option Instant := none
  refused : Bool := false

/-- What is owed after an event. The next attempt begins with a selection or a limiter. -/
def owe (store : Store) (owed : Option Owed) : Event (Op R) (Reply R) → Option Owed
  | ⟨.request id _, .response resp⟩ =>
    if classifyUpstreamOutcome resp = .rateLimit ∧ (store.keys.get? id).any coolable then
      some { id, resp }
    else none
  | ⟨.request _ _, _⟩ => none
  | ⟨.readPool _ _, _⟩ => none
  | ⟨.allow _ _, _⟩ => none
  | ⟨.now, reading⟩ => owed.map fun owed => { owed with clock := some reading }
  | ⟨.probe _ _, reply⟩ => owed.map fun owed =>
    { owed with refused := owed.refused || refusesKey reply }
  | _ => owed

/-- The database accepts what it is given to write. -/
def Accepted : Event (Op R) (Reply R) → Prop
  | ⟨.commit _, written⟩ => written = true
  | ⟨.flushSnapshot _, id⟩ => id ≠ none
  | _ => True

/-- The key is enabled and cools until the date at least. -/
def Rested (keys : Table KeyColumns) (id : Nat) (date : Instant) : Prop :=
  ∃ row until_, keys.get? id = some row ∧ row.isActive = true ∧ row.status = "cooling" ∧
    row.cooldownUntil = some until_ ∧ date ≤ until_

/-- The date that an answer asks for. -/
def restDate (configured : Int) (resp : UpstreamResponse) (now : Instant) : Instant :=
  now + claimedSeconds resp.headers configured * Instant.second

/-- Nothing is owed to a key, unless a credit check refused it. -/
def Paid (configured : Int) (state : Store × Option Owed) : Prop :=
  ∀ owed, state.2 = some owed → owed.refused = true ∨ ∃ now, owed.clock = some now ∧
    (Restable configured owed.resp now →
      Rested state.1.keys owed.id (restDate configured owed.resp now))

/-- The next attempt begins when the last answer's key is paid. -/
def limiting (configured : Int) : Monitor (Store × Option Owed) (Op R) (Reply R) where
  demands state
    | .request _ _ => Paid configured state
    | .readPool _ _ => Paid configured state
    | .allow _ _ => Paid configured state
    | _ => True
  moves state event last :=
    state.1.moves event last.1 ∧ Accepted event ∧ last.2 = owe state.1 state.2 event

/-- A row object as its row is, without changes. -/
structure Synced (store : Store) (key : KeyObject) : Prop where
  found : store.keys.get? key.id = some key.loaded
  clean : key.current = key.loaded

/-- What is owed is owed to the key for the response, and the key may still rest, unless a credit
check refused it. -/
def Due (resp : UpstreamResponse) (key : KeyObject) (owed : Option Owed) : Prop :=
  ∀ debt, owed = some debt → debt.id = key.id ∧ debt.resp = resp ∧
    (debt.refused = true ∨ coolable key.current = true)

variable {configured : Int} {state : Store × Option Owed} {key : KeyObject}
  {resp : UpstreamResponse}

theorem Synced.saved {columns : KeyColumns} (synced : Synced store key)
    (stored : last = store.apply { site, keys := [{ key with current := columns }] }) :
    Synced last (KeyObject.saved { key with current := columns }) := by
  subst stored
  exact ⟨Store.get_flushKey_loaded synced.found, rfl⟩

/-- The clock is read on. -/
theorem Due.ticked {owed : Option Owed} (due : Due resp key owed) (reading : Instant) :
    Due resp key (owed.map fun debt => { debt with clock := some reading }) := by
  rintro debt same
  obtain ⟨before, owed, rfl⟩ := Option.map_eq_some_iff.mp same
  exact due before owed

/-- A credit check is answered. -/
theorem Due.probed {owed : Option Owed} (due : Due resp key owed) (reply : ProbeReply) :
    Due resp key (owed.map fun debt => { debt with refused := debt.refused || refusesKey reply }) := by
  rintro debt same
  obtain ⟨before, owed, rfl⟩ := Option.map_eq_some_iff.mp same
  obtain ⟨own, answer, rest⟩ := due before owed
  refine ⟨own, answer, ?_⟩
  rcases rest with refused | rests
  · exact .inl (by simp [refused])
  · exact .inr rests

theorem wp_flushed {post : Except Exn Nat → Store × Option Owed → Prop} (snapshot : CreditSnapshot)
    (flushed : ∀ id, post (.ok id) state) :
    (flushSnapshot (R := R) snapshot).wp (limiting configured) post state := by
  refine ⟨trivial, fun reply last step => ?_⟩
  obtain ⟨moved, accepted, owed⟩ := step
  have same : last = state := Prod.ext moved owed
  cases reply with
  | none => exact absurd rfl accepted
  | some id =>
    rw [same]
    exact flushed id

/-- The clock is read while the store stands. -/
theorem wp_ticked {post : Except Exn Value → Store × Option Owed → Prop}
    {rest : Instant → Gateway R Value}
    (next : ∀ now, (rest now).wp (limiting configured) post
      (state.1, state.2.map fun debt => { debt with clock := some now })) :
    ((query .now).bind rest).wp (limiting configured) post state := by
  refine ⟨trivial, fun now last step => ?_⟩
  obtain ⟨moved, _, owed⟩ := step
  have same : last = (state.1, state.2.map fun debt => { debt with clock := some now }) :=
    Prod.ext moved owed
  rw [same]
  exact next now

/-- A commit is accepted. It leaves what is owed. -/
theorem wp_committed {post : Except Exn Value → Store × Option Owed → Prop} {batch : Commit}
    {rest : Bool → Gateway R Value}
    (next : ∀ last : Store × Option Owed, last.1 = state.1.apply batch → last.2 = state.2 →
      (rest true).wp (limiting configured) post last) :
    ((query (.commit batch)).bind rest).wp (limiting configured) post state := by
  refine ⟨trivial, fun written last step => ?_⟩
  obtain ⟨moved, accepted, owed⟩ := step
  obtain rfl : written = true := accepted
  obtain ⟨-, -, stored⟩ | ⟨failed, -⟩ := moved
  · exact next last stored owed
  · cases failed

/-- A credit result is applied: its writes are accepted. -/
theorem wp_applied {post : Except Exn KeyObject → Store × Option Owed → Prop}
    {holds : Option Owed → Prop} (config : AppConfig R) (result : CreditFetchResult)
    (held : holds state.2)
    (ticks : ∀ owed now, holds owed → holds (owed.map fun debt => { debt with clock := some now }))
    (ok : ∀ columns owed, holds owed → Applied result key.current columns →
      post (.ok { key with current := columns }) (state.1, owed)) :
    (applyCreditFetchResult config key result).wp (limiting configured) post state := by
  have fixed (now : Instant) (owed : Option Owed) (held : holds owed)
      (read : ∀ fetchedAt, result.fetchedAt = some fetchedAt → now = fetchedAt) :
      (applyFetchedAt config key result now).wp (limiting configured) post (state.1, owed) := by
    unfold applyFetchedAt
    split <;> rename_i kind <;> apply (wp_bind _).mpr <;> apply wp_flushed <;> intro id
    · exact ok _ _ held (.decryptFailed kind)
    · exact ok _ _ held (.invalid kind)
    · exact ok _ _ held (.cooling kind now read)
    · apply wp_ticked
      intro clock
      exact ok _ _ (ticks _ clock held) (.success kind id now _)
    · exact ok _ _ held (.error kind)
  unfold applyCreditFetchResult
  split
  · rename_i fetchedAt fetched
    apply fixed fetchedAt _ held
    intro other same
    exact Option.some.inj (fetched.symm.trans same)
  · rename_i missing
    apply wp_ticked
    intro now
    apply fixed now _ (ticks _ now held)
    intro other same
    rw [missing] at same
    cases same

/-- The row object in the hands of the handling. -/
def Handled (resp : UpstreamResponse) (id : Nat) :
    Except Exn KeyObject → Store × Option Owed → Prop
  | .ok key, last => key.id = id ∧ Synced last.1 key ∧ Due resp key last.2
  | .error _, _ => False

/-- What a result assigns lets the key rest, if it could and was not refused. -/
theorem coolable_applied {result : CreditFetchResult} {columns : KeyColumns}
    (applied : Applied result key.current columns) (opened : result.kind ≠ .decryptFailed)
    (fine : result.kind ≠ .invalid) (open_ : coolable key.current = true) :
    coolable columns = true := by
  simp only [coolable, Bool.and_eq_true] at open_ ⊢
  cases applied with
  | decryptFailed kind => exact absurd kind opened
  | invalid kind => exact absurd kind fine
  | cooling kind now read => exact ⟨open_.1, show decide ("cooling" ≠ "disabled") = true by decide⟩
  | success kind snapshotId now next => exact open_
  | error kind => exact open_

theorem wp_applyAndCommit (config : AppConfig R) (result : CreditFetchResult)
    (synced : Synced state.1 key) (due : Due resp key state.2)
    (opened : result.kind ≠ .decryptFailed)
    (refused : result.kind = .invalid → ∀ debt, state.2 = some debt → debt.refused = true) :
    (applyAndCommit config key result).wp (limiting configured) (Handled resp key.id) state := by
  have kept (owed : Option Owed) (now : Instant)
      (holds : Due resp key owed ∧
        (result.kind = .invalid → ∀ debt, owed = some debt → debt.refused = true)) :
      Due resp key (owed.map fun debt => { debt with clock := some now }) ∧
        (result.kind = .invalid → ∀ debt,
          (owed.map fun debt => { debt with clock := some now }) = some debt → debt.refused = true) := by
    refine ⟨holds.1.ticked now, fun invalid debt same => ?_⟩
    obtain ⟨before, owed, rfl⟩ := Option.map_eq_some_iff.mp same
    exact holds.2 invalid before owed
  unfold applyAndCommit
  simp only [bind_eq, pure_eq]
  apply (wp_bind _).mpr
  apply (wp_attempt _).mpr
  apply (wp_bind _).mpr
  apply wp_applied config result ⟨due, refused⟩ kept
  intro columns owed ⟨due, refused⟩ applied
  refine wp_committed fun last stored same => ?_
  refine ⟨rfl, synced.saved stored, fun debt owes => ?_⟩
  have owes : owed = some debt := same.symm.trans owes
  obtain ⟨own, answer, rest⟩ := due debt owes
  refine ⟨own, answer, ?_⟩
  by_cases invalid : result.kind = .invalid
  · exact .inl (refused invalid debt owes)
  · rcases rest with refused | rests
    · exact .inl refused
    · exact .inr (coolable_applied applied opened invalid rests)

/-- A question about the limiters' leases and the shared memory. -/
def Idle : Op R → Prop
  | .monotonic => True
  | .keepFailures _ => True
  | .keepCursor _ _ => True
  | .readFailure _ => True
  | .acquire _ _ => True
  | .release _ => True
  | .setCooldown _ _ => True
  | .readRefresh _ => True
  | .keepRefresh _ _ => True
  | _ => False

/-- Such a question leaves the rows and what is owed. -/
theorem wp_idle {post : Except Exn Value → Store × Option Owed → Prop} {op : Op R}
    {rest : Reply R op → Gateway R Value} (idle : Idle op)
    (next : ∀ reply, (rest reply).wp (limiting configured) post state) :
    ((query op).bind rest).wp (limiting configured) post state := by
  have quiet : (limiting configured).demands state op ∧ ∀ reply last,
      (limiting configured).moves state ⟨op, reply⟩ last → last = state := by
    cases op <;> first
      | exact idle.elim
      | exact ⟨trivial, fun reply last ⟨moved, _, owed⟩ => Prod.ext moved owed⟩
  refine ⟨quiet.1, fun reply last moved => ?_⟩
  rw [quiet.2 reply last moved]
  exact next reply

theorem handled_same (synced : Synced state.1 key) (due : Due resp key state.2) :
    Handled resp key.id (.ok key) state :=
  ⟨rfl, synced, due⟩

theorem refused_of_unauthorized {reply : ProbeReply} (refuses : Unauthorized reply) :
    refusesKey reply = true := by
  cases reply with
  | response statusCode json text =>
    simp only [refusesKey, Bool.or_eq_true, decide_eq_true_eq]
    exact refuses
  | timeout => exact refuses.elim
  | failed text => exact refuses.elim

/-- The credit check that follows the answer of a key that decrypts. -/
theorem wp_refreshCreditsAfter4xx {foreign : Foreign} {masterKey : Bytes} {secret : String}
    (config : AppConfig R) (synced : Synced state.1 key) (due : Due resp key state.2)
    (opened : foreign.decryptApiKey masterKey key.current.apiKeyCiphertext = .ok secret) :
    (refreshCreditsAfter4xx foreign config (some masterKey) key).wp (limiting configured)
      (Handled resp key.id) state := by
  unfold refreshCreditsAfter4xx
  simp only [bind_eq, pure_eq]
  split
  · exact handled_same synced due
  split
  · exact handled_same synced due
  refine wp_idle trivial fun now => wp_idle trivial fun last => ?_
  split
  · exact handled_same synced due
  refine wp_idle trivial fun _ => ?_
  rw [opened]
  apply wp_ticked
  intro clock
  have due := due.ticked clock
  refine ⟨trivial, fun reply last step => ?_⟩
  obtain ⟨moved, _, owed⟩ := step
  have same : last = (state.1, (state.2.map fun debt => { debt with clock := some clock }).map
      fun debt => { debt with refused := debt.refused || refusesKey reply }) :=
    Prod.ext moved owed
  subst same
  have due := due.probed reply
  simp only [Prog.bind]
  split
  · exact handled_same synced due
  · rename_i result read
    refine wp_applyAndCommit config result synced due (readProbe_decrypted read) ?_
    intro invalid debt same
    obtain ⟨before, _, rfl⟩ := Option.map_eq_some_iff.mp same
    simp [refused_of_unauthorized (readProbe_invalid read invalid)]

theorem wp_refreshCreditsOn4xx {setup : Setup R} {masterKey : Bytes} {secret : String}
    (statusCode : Int) (synced : Synced state.1 key) (due : Due resp key state.2)
    (given : setup.masterKey = some masterKey)
    (opened : setup.foreign.decryptApiKey masterKey key.current.apiKeyCiphertext = .ok secret) :
    (refreshCreditsOn4xx setup key statusCode).wp (limiting configured) (Handled resp key.id)
      state := by
  have refreshed : (refreshCreditsAfter4xx setup.foreign setup.config (some masterKey) key).wp
      (limiting configured) (Handled resp key.id) state :=
    wp_refreshCreditsAfter4xx setup.config synced due opened
  unfold refreshCreditsOn4xx
  simp only [bind_eq]
  rw [given]
  unfold KeyPool.recordFailure
  split
  · exact wp_idle trivial fun now => wp_idle trivial fun entry => wp_idle trivial fun _ => refreshed
  · exact refreshed

/-- The answer's key was put to rest. -/
def Rests (configured : Int) (id : Nat) : Except Exn KeyObject → Store × Option Owed → Prop
  | .ok key, last => key.id = id ∧ Synced last.1 key ∧ Paid configured last
  | .error _, last => Paid configured last

/-- A row object read again is as its row is. -/
theorem wp_rolledBack {post : Except Exn KeyObject → Store × Option Owed → Prop}
    (found : state.1.keys.get? key.id = some row) (raised : post (.error .other) state)
    (read : post (.ok (KeyObject.fresh key.id row)) state) :
    (rollback (R := R) key).wp (limiting configured) post state := by
  unfold rollback
  refine ⟨trivial, fun reply last step => ?_⟩
  obtain ⟨⟨still, answered⟩, _, owed⟩ := step
  rw [show last = state from Prod.ext still owed]
  rcases answered with rfl | rfl
  · exact raised
  · rw [found]
    exact read

/-- What is owed after the clock was read tells its reading. -/
theorem clock_ticked {owed : Option Owed} {now : Instant} {debt : Owed}
    (owes : (owed.map fun debt => { debt with clock := some now }) = some debt) :
    debt.clock = some now := by
  obtain ⟨before, _, rfl⟩ := Option.map_eq_some_iff.mp owes
  rfl

/-- The key is put to rest, or was refused before, or there is no date to put it to rest until. -/
theorem wp_markCooling {seconds : Int} (synced : Synced state.1 key) (due : Due resp key state.2)
    (applied : seconds = cooldownSeconds resp.headers configured) :
    (markCooling (R := R) key seconds).wp (limiting configured) (Rests configured key.id) state := by
  unfold markCooling
  split
  · rename_i closed
    refine ⟨rfl, synced, fun debt owes => .inl ?_⟩
    obtain ⟨-, -, refused | rests⟩ := due debt owes
    · exact refused
    · exfalso
      simp only [coolable, Bool.and_eq_true] at rests
      simp [rests.1] at closed
      simp [closed] at rests
  rename_i closed
  have enabled : key.current.isActive = true := by
    simp only [Bool.or_eq_true, not_or, Bool.not_eq_true, Bool.not_eq_false'] at closed
    exact closed.1
  apply wp_ticked
  intro now
  have due := due.ticked now
  rw [addSeconds_dated]
  by_cases dated : Dated (now + seconds * Instant.second)
  · rw [if_pos dated]
    refine wp_committed fun last stored same => ?_
    have synced := synced.saved stored
    refine wp_idle trivial fun _ => ⟨rfl, synced, fun debt owes => .inr ⟨now, ?_, fun restable => ?_⟩⟩
    · exact clock_ticked (same.symm.trans owes)
    · obtain ⟨own, answer, -⟩ := due debt (same.symm.trans owes)
      rw [own]
      refine ⟨_, _, synced.found, enabled, rfl, rfl, ?_⟩
      rw [answer] at restable ⊢
      have enough := ((restable_iff configured resp now).mp restable).1
      unfold restDate
      rw [applied]
      exact Int.add_le_add_left (Int.mul_le_mul_of_nonneg_right enough (by decide)) now
  · rw [if_neg dated]
    have unpaid (state : Store × Option Owed) (due : Due resp key state.2)
        (read : ∀ debt, state.2 = some debt → debt.clock = some now) : Paid configured state := by
      intro debt owes
      refine .inr ⟨now, read debt owes, fun restable => ?_⟩
      rw [(due debt owes).2.1] at restable
      rw [applied] at dated
      exact absurd ((restable_iff configured resp now).mp restable).2 dated
    refine wp_rolledBack synced.found ?_ ?_
    · exact unpaid _ due fun debt owes => clock_ticked owes
    · exact ⟨rfl, ⟨synced.found, rfl⟩, unpaid _ due fun debt owes => clock_ticked owes⟩

/-- The handling of a rate-limit answer, in the pinned branch as in the pool. -/
theorem wp_handling {setup : Setup R} {masterKey : Bytes} {secret : String} (statusCode : Int)
    {post : Except Exn Value → Store × Option Owed → Prop} {rest : KeyObject → Gateway R Value}
    (synced : Synced state.1 key) (due : Due resp key state.2)
    (given : setup.masterKey = some masterKey)
    (opened : setup.foreign.decryptApiKey masterKey key.current.apiKeyCiphertext = .ok secret)
    (raised : ∀ error last, Paid setup.config.cooldownSeconds last → post (.error error) last)
    (next : ∀ after last, Synced last.1 after → Paid setup.config.cooldownSeconds last →
      (rest after).wp (limiting setup.config.cooldownSeconds) post last) :
    ((refreshCreditsOn4xx setup key statusCode).bind fun key =>
      (markCooling key (cooldownSeconds resp.headers setup.config.cooldownSeconds)).bind rest).wp
      (limiting setup.config.cooldownSeconds) post state := by
  apply (wp_bind _).mpr
  apply wp_mono _ (wp_refreshCreditsOn4xx statusCode synced due given opened)
  rintro (error | refreshed) last handled
  · exact handled.elim
  · obtain ⟨-, synced, due⟩ := handled
    apply (wp_bind _).mpr
    apply wp_mono _ (wp_markCooling synced due rfl)
    rintro (error | after) last rested
    · exact raised error last rested
    · exact next after last rested.2.1 rested.2.2

theorem paid_of_free (free : state.2 = none) : Paid configured state := by
  intro debt owes
  rw [free] at owes
  cases owes

/-- While nothing is owed, a quiet part owes nothing. -/
theorem wp_quiet {program : Gateway R Value} {returns : Value → Prop}
    (asks : program.Asks Quiet Mild returns) (free : state.2 = none) :
    program.wp (limiting configured) (Ended (fun last => last.2 = none) Mild returns) state := by
  have keeps (op : Op R) (quiet : Quiet op) :
      (limiting configured).Keeps (fun state : Store × Option Owed => state.2 = none) op := by
    intro state free
    have free : state.2 = none := free
    constructor
    · cases op <;> trivial
    · rintro reply last ⟨_, _, owed⟩
      rw [owed, free]
      cases op with
      | request keyId sent => exact absurd quiet not_false
      | _ => rfl
  exact wp_asks asks keeps free

/-- A quiet part ends with nothing owed. -/
theorem wp_quietly {program : Gateway R Value} {returns : Value → Prop}
    (asks : program.Asks Quiet Mild returns) (free : state.2 = none) :
    program.wp (limiting configured) (fun _ last => last.2 = none) state := by
  apply wp_mono _ (wp_quiet asks free)
  rintro (error | value) last ended
  · exact ended.1
  · exact ended.1

/-- How a request with the key ends. -/
def Sent (key : KeyObject) (store : Store) :
    Except Exn UpstreamResponse → Store × Option Owed → Prop
  | .ok resp, last => last.1 = store ∧ Due resp key last.2 ∧
    (classifyUpstreamOutcome resp ≠ .rateLimit → last.2 = none)
  | .error _, last => last.2 = none

theorem wp_sendUpstream (setup : Setup R) (call : Call) (secret : String)
    (synced : Synced state.1 key) (free : state.2 = none) :
    (sendUpstream setup call key secret).wp (limiting configured) (Sent key state.1) state := by
  unfold sendUpstream
  refine ⟨paid_of_free free, fun reply last step => ?_⟩
  obtain ⟨moved, _, owed⟩ := step
  have recorded (reason : String) (error : FcamError) (owed : last.2 = none) :
      ((recordFailure setup key reason none).bind fun _ => reject error).wp (limiting configured)
        (Sent key state.1) last := by
    apply (wp_bind _).mpr
    apply wp_mono _ (wp_quietly (quiet_of_about (about_recordFailure setup key reason none)) owed)
    rintro (error | after) last free
    · exact free
    · exact free
  cases reply with
  | response resp =>
    have owed : last.2 = if classifyUpstreamOutcome resp = .rateLimit ∧
        (state.1.keys.get? key.id).any coolable then some { id := key.id, resp } else none := owed
    rw [synced.found, ← synced.clean] at owed
    refine ⟨moved, fun debt owes => ?_, fun other => ?_⟩
    · rw [owed] at owes
      split at owes
      · rename_i limited
        cases owes
        exact ⟨rfl, rfl, .inr limited.2⟩
      · cases owes
    · rw [owed, if_neg fun limited => other limited.1]
  | timeout => exact recorded "timeout" _ owed
  | httpError text => exact recorded "http_error" _ owed
  | other => exact owed

/-- The lease is released whatever the outcome is. -/
theorem wp_released {program : Gateway R Value}
    {post : Except Exn Value → Store × Option Owed → Prop} (keyId : Nat)
    (met : program.wp (limiting configured) post state) :
    (program.ensuring (query (.release keyId))).wp (limiting configured) post state := by
  apply (wp_ensuring _).mpr
  apply wp_mono _ met
  intro outcome last holds
  refine wp_idle trivial fun _ => ?_
  cases outcome <;> exact holds

theorem wp_pinnedRequest (setup : Setup R) (call : Call) (masterKey : Bytes)
    (synced : Synced state.1 key) (free : state.2 = none) :
    (pinnedRequest setup call masterKey key).wp (limiting configured) (fun outcome last =>
      Sent key state.1 outcome last ∧ ∀ resp, outcome = .ok resp → ∃ secret,
        setup.foreign.decryptApiKey masterKey key.current.apiKeyCiphertext = .ok secret) state := by
  unfold pinnedRequest
  apply wp_released key.id
  split
  · apply (wp_bind _).mpr
    apply wp_mono _ (wp_quietly (asks_disableKeyDecryptFailed key) free)
    rintro (error | disabled) last free
    · exact ⟨free, fun resp ended => by cases ended⟩
    · exact ⟨free, fun resp ended => by cases ended⟩
  · rename_i secret opened
    apply wp_mono _ (wp_sendUpstream setup call secret synced free)
    exact fun outcome last sent => ⟨sent, fun resp _ => ⟨secret, opened⟩⟩

/-- How the request of the pool ends. -/
def Polled (setup : Setup R) (masterKey : Bytes) (key : KeyObject) (store : Store) :
    Except Exn (Option UpstreamResponse) → Store × Option Owed → Prop
  | .ok (some resp), last => Sent key store (.ok resp) last ∧ ∃ secret,
    setup.foreign.decryptApiKey masterKey key.current.apiKeyCiphertext = .ok secret
  | _, last => last.2 = none

theorem wp_poolRequest (setup : Setup R) (call : Call) (masterKey : Bytes)
    (synced : Synced state.1 key) (free : state.2 = none) :
    (poolRequest setup call masterKey key).wp (limiting configured)
      (Polled setup masterKey key state.1) state := by
  unfold poolRequest
  apply wp_released key.id
  split
  · apply (wp_bind _).mpr
    apply wp_mono _ (wp_quietly (asks_disableKeyDecryptFailed key) free)
    rintro (error | disabled) last free
    · exact free
    · exact free
  · rename_i secret opened
    apply (wp_bind _).mpr
    apply wp_mono _ (wp_sendUpstream setup call secret synced free)
    rintro (error | resp) last sent
    · exact sent
    · exact ⟨sent, secret, opened⟩

/-- A commit writes an object that it holds, if all its objects of that row are this one. -/
theorem get_foldl_mem {objects : List KeyObject} {keys : Table KeyColumns} (member : key ∈ objects)
    (same : ∀ other ∈ objects, other.id = key.id → other = key)
    (found : keys.get? key.id = some key.loaded) :
    (objects.foldl Store.flushKey keys).get? key.id = some key.current := by
  obtain ⟨front, back, rfl⟩ := List.append_of_mem member
  have own (other : KeyObject) (listed : other ∈ front) :=
    same other (List.mem_append_left _ listed)
  have later (other : KeyObject) (listed : other ∈ back) :=
    same other (List.mem_append_right _ (List.mem_cons_of_mem _ listed))
  rw [List.foldl_append, List.foldl_cons]
  have written : (Store.flushKey (front.foldl Store.flushKey keys) key).get? key.id =
      some key.current := by
    rw [Store.get_flushKey_self]
    rcases ForwardEffects.get_foldl_same front keys own (.inl found) with kept | kept
    · rw [kept, found, Option.map_some, KeyObject.flush_loaded]
    · rw [kept, Option.map_some, ForwardEffects.flush_current]
  rcases ForwardEffects.get_foldl_same back _ later (.inr written) with kept | kept
  · exact kept.trans written
  · exact kept

/-- The chosen row object is as its row is once the reactivated objects are written. -/
theorem get_selected {view : PoolView R} {weights : KeyPool.Weights R} {provider : String}
    {exclude : List Nat} {selected : KeyPool.SelectedKey R}
    (decided : KeyPool.decision view weights provider exclude = .ok selected) :
    ((KeyPool.scanKeys view weights provider exclude).reactivated.foldl Store.flushKey
      view.keys).get? selected.apiKey.id = some selected.apiKey.current := by
  obtain ⟨_, key, listed, chosen, _⟩ := KeyPool.decision_eligible decided
  obtain ⟨_, candidate, member, picked⟩ := KeyPool.decision_candidate decided
  obtain ⟨found, clean, _⟩ := KeyPool.mem_providerKeys.mp listed
  have written := KeyPool.candidate_written member
  rw [← picked] at written
  have same : selected.apiKey.id = key.id := by rw [chosen, KeyPool.id_settled]
  have loaded : selected.apiKey.loaded = key.loaded := by rw [chosen, KeyPool.loaded_settled]
  by_cases left : ∃ other ∈ (KeyPool.scanKeys view weights provider exclude).reactivated,
      other.id = selected.apiKey.id
  · -- the row was cooling, so the object that is written is the chosen one
    have whole (other : KeyObject)
        (listed : other ∈ (KeyPool.scanKeys view weights provider exclude).reactivated)
        (own : other.id = selected.apiKey.id) : other = selected.apiKey := by
      obtain ⟨row, row_found, cooling, _, made⟩ := ForwardEffects.mem_reactivated listed
      rw [own, same, found] at row_found
      cases row_found
      have fresh : KeyObject.fresh key.id key.loaded = key := by
        cases key
        cases clean
        rfl
      rw [chosen, KeyPool.settled, if_pos (clean ▸ cooling), made, own, same, fresh]
    obtain ⟨other, listed, own⟩ := left
    obtain rfl := whole other listed own
    exact get_foldl_mem listed whole (by rw [same, loaded]; exact found)
  · rw [Store.get_foldl_other _ _ fun other listed own => left ⟨other, listed, own.symm⟩]
    rcases written with clean | listed
    · rw [same, clean, loaded]
      exact found
    · exact absurd ⟨_, listed, rfl⟩ left

/-- How a selection ends. -/
def Selected : Except Exn (Except KeyPool.Unselected (KeyPool.SelectedKey R)) →
    Store × Option Owed → Prop
  | .ok (.ok selected), last => Synced last.1 selected.apiKey ∧ last.2 = none
  | _, last => last.2 = none

theorem wp_select (config : AppConfig R) (runtime : Option (RuntimeScheduling R)) (provider : String)
    (exclude : List Nat) (paid : Paid configured state) :
    (KeyPool.select config runtime provider exclude).wp (limiting configured) Selected state := by
  unfold KeyPool.select
  refine ⟨paid, fun found last step => ?_⟩
  obtain ⟨⟨still, shown⟩, _, owed⟩ := step
  have free : last.2 = none := owed
  simp only [Prog.bind]
  cases found with
  | none => exact free
  | some view =>
    have shown : view.keys = last.1.keys := (shown view rfl).trans (congrArg Store.keys still.symm)
    simp only [bind_eq, pure_eq]
    refine wp_idle trivial fun _ => ?_
    split
    · exact free
    · rename_i selected decided
      have committed : ((query (.commit { site := .reactivate, keys := (KeyPool.scanKeys view
          (KeyPool.weights config runtime) provider exclude).reactivated })).bind fun written =>
          if written then (.done (.ok { selected with apiKey := selected.apiKey.saved }) :
              Gateway R (Except KeyPool.Unselected (KeyPool.SelectedKey R)))
          else (rollback selected.apiKey).bind fun _ => .done (.error { error := dbUnavailable })).wp
          (limiting configured) Selected last := by
        refine wp_committed fun next stored owed => ⟨⟨?_, rfl⟩, owed.trans free⟩
        rw [stored, Store.apply, ← shown]
        have row := get_selected decided
        exact row
      split
      · exact wp_idle trivial fun _ => committed
      · exact committed

/-- The turn ends with nothing owed to a key. -/
abbrev Settles (configured : Int) (program : Gateway R Value) (state : Store × Option Owed) : Prop :=
  program.wp (limiting configured) (fun _ last => Paid configured last) state

theorem settles_quiet {program : Gateway R Value} {returns : Value → Prop}
    (asks : program.Asks Quiet Mild returns) (free : state.2 = none) :
    Settles configured program state :=
  wp_mono (fun _ _ free => paid_of_free free) (wp_quietly asks free)

theorem wp_poolResponse {setup : Setup R} {masterKey : Bytes} {secret : String} (call : Call)
    (progress : Progress R) {store : Store} (sent : Sent key store (.ok resp) state)
    (synced : Synced store key) (given : setup.masterKey = some masterKey)
    (opened : setup.foreign.decryptApiKey masterKey key.current.apiKeyCiphertext = .ok secret) :
    Settles setup.config.cooldownSeconds (poolResponse setup call progress key resp) state := by
  obtain ⟨same, due, other⟩ := sent
  have synced : Synced state.1 key := same ▸ synced
  have refresh (statusCode : Int) : (refreshCreditsOn4xx setup key statusCode).Asks Quiet Mild
      fun after => after.id = key.id := quiet_of_about (about_refreshCreditsOn4xx setup key statusCode)
  unfold poolResponse
  cases outcome : classifyUpstreamOutcome resp with
  | rateLimit =>
    apply wp_handling (refusalStatus resp) synced due given opened
    · exact fun error last paid => paid
    · exact fun after last _ paid => paid
  | credit =>
    apply settles_quiet _ (other (by rw [outcome]; nofun))
    · exact fun _ => True
    · exact asks_bind (refresh _) fun after _ =>
        asks_bind (quiet_of_about (about_zeroCredits after)) fun _ _ => trivial
  | invalidKey =>
    apply settles_quiet _ (other (by rw [outcome]; nofun))
    · exact fun _ => True
    · exact asks_bind (refresh _) fun after _ =>
        asks_bind (quiet_of_about (about_disableKey after)) fun _ _ => trivial
  | upstream5xx =>
    apply settles_quiet _ (other (by rw [outcome]; nofun))
    · exact fun _ => True
    · exact asks_bind (quiet_of_about (about_recordFailure setup key _ _)) fun _ _ => trivial
  | ok =>
    apply settles_quiet _ (other (by rw [outcome]; nofun))
    · exact fun _ => True
    · exact asks_bind (asks_settleResponse setup call key resp) fun _ _ => trivial
  | passthrough =>
    apply settles_quiet _ (other (by rw [outcome]; nofun))
    · exact fun _ => True
    · exact asks_bind (asks_settleResponse setup call key resp) fun _ _ => trivial

theorem wp_selectedTurn {setup : Setup R} {masterKey : Bytes} (call : Call) (progress : Progress R)
    (synced : Synced state.1 key) (free : state.2 = none)
    (given : setup.masterKey = some masterKey) :
    Settles setup.config.cooldownSeconds (selectedTurn setup call masterKey progress key) state := by
  unfold selectedTurn
  refine ⟨paid_of_free free, fun limited last step => ?_⟩
  obtain ⟨moved, _, owed⟩ := step
  have same : last = state := Prod.ext moved (owed.trans free.symm)
  subst same
  simp only [Prog.bind]
  rcases limited with _ | ⟨_ | _, retryAfter⟩
  · exact paid_of_free free
  · exact paid_of_free free
  refine wp_idle trivial fun slot => ?_
  rcases slot with _ | _ | _
  · exact paid_of_free free
  · exact paid_of_free free
  apply (wp_bind _).mpr
  apply wp_mono _ (wp_poolRequest setup call masterKey synced free)
  rintro (error | _ | resp) next polled
  · exact paid_of_free polled
  · exact paid_of_free polled
  · obtain ⟨sent, secret, opened⟩ := polled
    exact wp_poolResponse call _ sent synced given opened

theorem wp_poolTurn {setup : Setup R} {masterKey : Bytes} (call : Call) (progress : Progress R)
    (paid : Paid setup.config.cooldownSeconds state) (given : setup.masterKey = some masterKey) :
    Settles setup.config.cooldownSeconds (poolTurn setup call masterKey progress) state := by
  unfold poolTurn
  apply (wp_bind _).mpr
  apply wp_mono _ (wp_select setup.config setup.runtime call.provider progress.triedKeyIds paid)
  rintro (error | failed | selected) last found
  · exact paid_of_free found
  · have free : last.2 = none := found
    simp only [thenPost]
    split
    · exact paid_of_free free
    · split
      · split
        · exact paid_of_free free
        · exact paid_of_free free
      · exact paid_of_free free
  · exact wp_selectedTurn call _ found.1 found.2 given

theorem settles_afterPool (setup : Setup R) (call : Call) (progress : Progress R)
    (paid : Paid configured state) : Settles configured (afterPool setup call progress) state := by
  unfold afterPool
  split
  · exact paid
  · split
    · exact paid
    · exact paid

theorem wp_poolLoop {setup : Setup R} {masterKey : Bytes} (call : Call) (left : Nat)
    (progress : Progress R) (paid : Paid setup.config.cooldownSeconds state)
    (given : setup.masterKey = some masterKey) :
    Settles setup.config.cooldownSeconds (poolLoop setup call masterKey left progress) state := by
  induction left generalizing progress state with
  | zero => exact settles_afterPool setup call progress paid
  | succ left ih =>
    unfold poolLoop
    split
    · apply (wp_bind _).mpr
      apply wp_mono _ (wp_poolTurn call progress paid given)
      rintro (error | result | next) last paid
      · exact paid
      · exact paid
      · exact ih next paid
    · exact settles_afterPool setup call progress paid

/-- How an attempt with the pinned key ends. -/
def Attempted (configured : Int) :
    Except Exn (Turn (ForwardResult R) (KeyObject × Progress R)) → Store × Option Owed → Prop
  | .ok (.again (key, _)), last => Synced last.1 key ∧ Paid configured last
  | _, last => Paid configured last

theorem wp_pinnedTurn {setup : Setup R} {masterKey : Bytes} (call : Call) (attempt : Nat)
    (progress : Progress R) (synced : Synced state.1 key)
    (paid : Paid setup.config.cooldownSeconds state) (given : setup.masterKey = some masterKey) :
    (pinnedTurn setup call masterKey attempt (key, progress)).wp
      (limiting setup.config.cooldownSeconds) (Attempted setup.config.cooldownSeconds) state := by
  unfold pinnedTurn
  refine ⟨paid, fun limited last step => ?_⟩
  obtain ⟨moved, _, owed⟩ := step
  have free : last.2 = none := owed
  have synced : Synced last.1 key := by
    rw [show last.1 = state.1 from moved]
    exact synced
  simp only [Prog.bind]
  rcases limited with _ | ⟨_ | _, retryAfter⟩
  · exact paid_of_free free
  · exact paid_of_free free
  refine wp_idle trivial fun slot => ?_
  rcases slot with _ | _ | _
  · exact paid_of_free free
  · exact paid_of_free free
  apply (wp_bind _).mpr
  apply wp_mono _ (wp_pinnedRequest setup call masterKey synced free)
  rintro (error | resp) next ⟨sent, decrypts⟩
  · exact paid_of_free sent
  obtain ⟨same, due, other⟩ := sent
  obtain ⟨secret, opened⟩ := decrypts resp rfl
  have synced : Synced next.1 key := same ▸ synced
  have quiet {program : Gateway R (Turn (ForwardResult R) (KeyObject × Progress R))}
      (asks : program.Asks Quiet Mild fun turn => ∃ result, turn = .leave result)
      (unlimited : classifyUpstreamOutcome resp ≠ .rateLimit) :
      program.wp (limiting setup.config.cooldownSeconds) (Attempted setup.config.cooldownSeconds)
        next := by
    apply wp_mono _ (wp_quiet asks (other unlimited))
    rintro (error | turn) last ended
    · exact paid_of_free ended.1
    · obtain ⟨result, rfl⟩ := ended.2
      exact paid_of_free ended.1
  have refresh (statusCode : Int) : QuietKey key.id (refreshCreditsOn4xx setup key statusCode) :=
    quiet_of_about (about_refreshCreditsOn4xx setup key statusCode)
  simp only [thenPost, bind_eq, pure_eq]
  cases outcome : classifyUpstreamOutcome resp with
  | rateLimit =>
    apply wp_handling 429 synced due given opened
    · exact fun error last paid => paid
    · intro after last synced paid
      split
      · exact paid
      · exact ⟨synced, paid⟩
  | credit =>
    apply quiet _ (by simp [outcome])
    refine asks_bind (refresh _) fun after _ =>
      asks_bind (quiet_of_about (about_zeroCredits after)) fun _ _ => ?_
    exact asks_bind (asks_settleResponse setup call key resp) fun _ _ => ⟨_, rfl⟩
  | invalidKey =>
    apply quiet _ (by simp [outcome])
    exact asks_bind (refresh _) fun after _ =>
      asks_bind (quiet_of_about (about_disableKey after)) fun _ _ => ⟨_, rfl⟩
  | upstream5xx =>
    apply quiet _ (by simp [outcome])
    exact asks_bind (quiet_of_about (about_recordFailure setup key _ _)) fun _ _ => ⟨_, rfl⟩
  | ok =>
    apply quiet _ (by simp [outcome])
    exact asks_bind (asks_settleResponse setup call key resp) fun _ _ => ⟨_, rfl⟩
  | passthrough =>
    apply quiet _ (by simp [outcome])
    exact asks_bind (asks_settleResponse setup call key resp) fun _ _ => ⟨_, rfl⟩

theorem wp_pinnedLoop {setup : Setup R} {masterKey : Bytes} (call : Call) (left : Nat)
    (loop : KeyObject × Progress R) (synced : Synced state.1 loop.1)
    (paid : Paid setup.config.cooldownSeconds state) (given : setup.masterKey = some masterKey) :
    Settles setup.config.cooldownSeconds (pinnedLoop setup call masterKey left loop) state := by
  induction left generalizing loop state with
  | zero => exact paid
  | succ left ih =>
    unfold pinnedLoop
    apply (wp_bind _).mpr
    apply wp_mono _ (wp_pinnedTurn call _ loop.2 synced paid given)
    rintro (error | result | next) last attempted
    · exact attempted
    · exact attempted
    · exact ih next attempted.1 attempted.2

/-- Every rate-limit answer of a forward is paid before the next attempt and at the end. -/
theorem wp_forward (setup : Setup R) (call : Call) (free : state.2 = none) :
    Settles setup.config.cooldownSeconds (forward setup call) state := by
  unfold forward
  split
  · exact paid_of_free free
  · rename_i masterKey given
    split
    · exact paid_of_free free
    · apply (wp_bind _).mpr
      have branch : Settles setup.config.cooldownSeconds (pinnedBranch setup call masterKey) state := by
        unfold pinnedBranch
        split
        · exact paid_of_free free
        · rename_i id _
          refine ⟨trivial, fun found last step => ?_⟩
          obtain ⟨⟨still, answered⟩, _, owed⟩ := step
          have free : last.2 = none := owed.trans free
          simp only [Prog.bind]
          rcases answered with rfl | rfl
          · exact paid_of_free free
          · cases found : state.1.keys.get? id with
            | none => exact paid_of_free free
            | some row =>
              dsimp only
              split
              · refine wp_pinnedLoop call _ _ ⟨?_, rfl⟩ (paid_of_free free) given
                rw [still]
                exact found
              · exact paid_of_free free
      apply wp_mono _ branch
      rintro (error | result | progress) last paid
      · exact paid
      · exact paid
      · exact wp_poolLoop call _ progress paid given

end FcamGateway.RateLimitCooling
