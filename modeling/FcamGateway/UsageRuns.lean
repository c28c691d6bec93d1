import FcamGateway.UsageCounters

/-! Requests whose steps interleave over one store. A counter is written as one more than was read,
so a request loses the successes that others have counted since its reading, and a run whose
requests do not overlap there counts every success. -/
namespace FcamGateway.UsageCounters
open Prog Credits Upstream Forwarder ForwardEffects DataPlane

set_option linter.unusedSectionVars false

variable {R : Type} [Field R] [LinearOrder R] [ScoreMath R] {setup : Setup R} {id : Nat}

section Runs

variable {Thread : Type} [DecidableEq Thread] {requests : Thread → ClientRequest}
  {start store before after last : Store}
  {trace front : Trace Thread (RequestOp R) (RequestReply R)} {thread other : Thread}
  {event : RequestEvent R} {day : Int}

abbrev programs (setup : Setup R) (requests : Thread → ClientRequest) (thread : Thread) :
    Request R (Option UpstreamResponse) :=
  (requests thread).program setup

/-- The quota is checked on one day. -/
def OneDay (day : Int) (trace : Trace Thread (RequestOp R) (RequestReply R)) : Prop :=
  ∀ entry ∈ trace, ∀ timezone today,
    entry.2 = (⟨.part (.today timezone), some today⟩ : RequestEvent R) → today = day

/-- Another request has counted a success of the key since the request read the key's row. -/
def KeyOvertaken (id : Nat) (thread : Thread)
    (trace : Trace Thread (RequestOp R) (RequestReply R)) : Prop :=
  Overtaken (fun event => readsKey id event = true) (fun event => countsKey id event = true) thread
    trace

/-- Another request has counted a success of the client since the request read the client's row. -/
def ClientOvertaken (id : Nat) (thread : Thread)
    (trace : Trace Thread (RequestOp R) (RequestReply R)) : Prop :=
  Overtaken (fun event => readsClient id event = true) (fun event => countsClient id event = true)
    thread trace

/-- Requests that count do not overlap: none writes the counter of a key, or the usage of a client
with a daily quota, after another has counted on it since the row was read. -/
structure Apart (start : Store) (trace : Trace Thread (RequestOp R) (RequestReply R)) : Prop where
  keys : ∀ front thread event back id, trace = front ++ (thread, event) :: back →
    countsKey id event = true → ¬ KeyOvertaken id thread front
  clients : ∀ front thread event back id row, trace = front ++ (thread, event) :: back →
    start.clients.get? id = some row → row.dailyQuota.isSome = true →
    writesClient id event = true → ¬ ClientOvertaken id thread front

theorem OneDay.earlier {back : Trace Thread (RequestOp R) (RequestReply R)}
    (oneDay : OneDay day (front ++ back)) : OneDay day front :=
  fun entry member => oneDay entry (List.mem_append_left _ member)

theorem Apart.earlier {back : Trace Thread (RequestOp R) (RequestReply R)}
    (apart : Apart start (front ++ back)) : Apart start front := by
  constructor
  · rintro early thread event late id rfl
    exact apart.keys early thread event (late ++ back) id (by simp)
  · rintro early thread event late id row rfl
    exact apart.clients early thread event (late ++ back) id row (by simp)

/-- What a request asks in a run is watched. -/
theorem asking_watched (mode : setup.config.quota.countMode = "success") {op : RequestOp R}
    (asking : Asking (programs setup requests) front thread op) :
    Watched setup (requests thread).clientId (own thread front) op :=
  asking.checked (wp_program mode (requests thread))

/-- A commit that succeeds. -/
abbrev accepted (R : Type) (batch : Commit) : RequestEvent R :=
  ⟨.part (.session (.commit batch)), true⟩

/-- What an event changes in the tables, unless it commits: no counter and no client. -/
theorem moves_uncommitted (moved : moves store event last)
    (uncommitted : ∀ batch, event ≠ ⟨.part (.session (.commit batch)), true⟩) :
    last.clients = store.clients ∧ ∀ id row, store.keys.get? id = some row →
      ∃ kept, last.keys.get? id = some kept ∧ kept.totalRequests = row.totalRequests := by
  have same (equal : last = store) : last.clients = store.clients ∧ ∀ id row,
      store.keys.get? id = some row →
        ∃ kept, last.keys.get? id = some kept ∧ kept.totalRequests = row.totalRequests := by
    subst equal
    exact ⟨rfl, fun id row found => ⟨row, found, rfl⟩⟩
  obtain ⟨id | op, reply⟩ := event
  · exact same moved.1
  · cases op with
    | session op =>
      cases op with
      | listKeys => exact same moved.1
      | findKey id => exact same moved.1
      | reload id => exact same moved.1
      | readPool provider exclude => exact same moved.1
      | commit batch =>
        obtain ⟨yes, _⟩ | ⟨_, equal⟩ := moved
        · obtain rfl : reply = true := yes
          exact absurd rfl (uncommitted batch)
        · exact same equal
      | clearRefresh ids =>
        obtain ⟨_, rfl⟩ | ⟨_, equal⟩ := moved
        · refine ⟨rfl, fun id row found => ?_⟩
          simp only [Store.get_clearRefresh, found, Option.map_some, Option.some.injEq,
            exists_eq_left']
          split <;> rfl
        · exact same equal
      | _ => exact same moved
    | _ => exact same moved

/-- A key's counter stands at what it was and the successes counted since, and a request that was
not overtaken holds the counter as it stands. -/
structure KeyKept (id : Nat) (first : KeyColumns) (store : Store)
    (trace : Trace Thread (RequestOp R) (RequestReply R)) (row : KeyColumns) : Prop where
  found : store.keys.get? id = some row
  counted : row.totalRequests =
    first.totalRequests + (trace.countP fun entry => countsKey id entry.2 : Nat)
  held : ∀ thread held, KeyWrites.rows (exchange (own thread trace)) id = some held →
    ¬ KeyOvertaken id thread trace → held.totalRequests = row.totalRequests

/-- No commit but the accounting of a success changes the counter. -/
theorem rewritten_total {site : Site} {row columns : KeyColumns}
    {chilled : Prop} (rewritten : KeyWrites.Rewritten chilled site row columns) :
    columns.totalRequests = row.totalRequests + if site = .quota then 1 else 0 := by
  cases rewritten with
  | quota => rfl
  | creditResult result applied => cases applied <;> simp
  | reactivate key => simp [KeyPool.reactivate]
  | _ => simp

/-- The flush of an object writes the counter where the object changed it. -/
theorem flush_total (key : KeyObject) (row : KeyColumns) : (key.flush row).totalRequests =
    if key.current.totalRequests = key.loaded.totalRequests then row.totalRequests
    else key.current.totalRequests := rfl

/-- Objects that leave the counter alone leave it in every row. -/
theorem foldl_flush_total (objects : List KeyObject) (keys : Table KeyColumns)
    (alone : ∀ key ∈ objects, key.current.totalRequests = key.loaded.totalRequests) {id : Nat}
    {row : KeyColumns} (found : keys.get? id = some row) :
    ∃ kept, (objects.foldl Store.flushKey keys).get? id = some kept ∧
      kept.totalRequests = row.totalRequests := by
  induction objects generalizing keys row with
  | nil => exact ⟨row, found, rfl⟩
  | cons key objects ih =>
    have next : ∃ kept, (Store.flushKey keys key).get? id = some kept ∧
        kept.totalRequests = row.totalRequests := by
      by_cases same : id = key.id
      · subst same
        refine ⟨key.flush row, by rw [Store.get_flushKey_self, found]; rfl, ?_⟩
        rw [flush_total, if_pos (alone key List.mem_cons_self)]
      · exact ⟨row, by rw [Store.get_flushKey_other same, found], rfl⟩
    obtain ⟨kept, there, same⟩ := next
    obtain ⟨stop, ended, still⟩ :=
      ih _ (fun other member => alone other (List.mem_cons_of_mem _ member)) there
    exact ⟨stop, ended, still.trans same⟩

/-- The session keeps a row as it is over an event that neither reads nor writes it. -/
theorem keep_unread {event : Event (Op R) (Reply R)} {rows : Nat → Option KeyColumns}
    {held : KeyColumns} (unread : KeyVerdicts.loadedRow id event = none)
    (uncommitted : ∀ batch, event ≠ ⟨.commit batch, true⟩)
    (kept : KeyWrites.keep rows event id = some held) : rows id = some held := by
  obtain ⟨op, reply⟩ := event
  cases op with
  | readPool provider exclude =>
    cases reply with
    | none => exact kept
    | some view => cases unread.symm.trans kept
  | listKeys =>
    cases reply with
    | none => exact kept
    | some keys => cases unread.symm.trans kept
  | findKey other =>
    cases reply with
    | none => exact kept
    | some found =>
      simp only [KeyVerdicts.loadedRow, KeyWrites.keep] at unread kept
      split at kept
      · rename_i same
        rw [if_pos same] at unread
        cases unread.symm.trans kept
      · exact kept
  | reload other =>
    cases reply with
    | none => exact kept
    | some row =>
      simp only [KeyVerdicts.loadedRow, KeyWrites.keep] at unread kept
      split at kept
      · rename_i same
        rw [if_pos same] at unread
        cases unread
      · exact kept
  | commit batch =>
    cases reply with
    | true => exact absurd rfl (uncommitted batch)
    | false => exact kept
  | _ => exact kept

/-- A row that an event brings is the one that the session keeps afterwards. -/
theorem keep_read {event : Event (Op R) (Reply R)} {row : KeyColumns}
    (loaded : KeyVerdicts.loadedRow id event = some row) (rows : Nat → Option KeyColumns) :
    KeyWrites.keep rows event id = some row := by
  obtain ⟨op, reply⟩ := event
  cases op with
  | readPool provider exclude =>
    cases reply with
    | none => cases loaded
    | some view => exact loaded
  | listKeys =>
    cases reply with
    | none => cases loaded
    | some keys => exact loaded
  | findKey other =>
    cases reply with
    | none => cases loaded
    | some found =>
      simp only [KeyVerdicts.loadedRow, KeyWrites.keep] at loaded ⊢
      split at loaded
      · rename_i same
        rw [if_pos same]
        exact loaded
      · cases loaded
  | reload other =>
    simp only [KeyVerdicts.loadedRow] at loaded
    split at loaded
    · rename_i same
      subst loaded
      exact if_pos same
    · cases loaded
  | _ => cases loaded

theorem exchange_concat (events : List (RequestEvent R)) (event : RequestEvent R) :
    exchange (events ++ [event]) = exchange events ++ (sessionEvent event).toList := by
  rw [exchange_append]
  rfl

/-- Where a request is not overtaken after an event of another one, it was not before. -/
theorem not_overtaken_other {reads writes : RequestEvent R → Prop} (different : other ≠ thread)
    (still : ¬ Overtaken reads writes thread (front ++ [(other, event)])) :
    ¬ Overtaken reads writes thread front ∧ ¬ writes event :=
  ⟨fun before => still (overtaken_concat.mpr (.inr ⟨before, fun same => absurd same different⟩)),
    fun wrote => still (overtaken_concat.mpr (.inl ⟨different, wrote⟩))⟩

theorem not_overtaken_own {reads writes : RequestEvent R → Prop} (unread : ¬ reads event)
    (still : ¬ Overtaken reads writes thread (front ++ [(thread, event)])) :
    ¬ Overtaken reads writes thread front :=
  fun before => still (overtaken_concat.mpr (.inr ⟨before, fun _ => unread⟩))

section Keys

variable {first row : KeyColumns}

theorem countP_concat (count : RequestEvent R → Bool) :
    (front ++ [(thread, event)]).countP (fun entry => count entry.2) =
      (front.countP fun entry => count entry.2) + if count event = true then 1 else 0 := by
  rw [List.countP_append, List.countP_singleton]

/-- An event that commits nothing. -/
theorem KeyKept.uncommitted (kept : KeyKept id first before front row)
    (moved : moves before event after)
    (uncommitted : ∀ batch, event ≠ ⟨.part (.session (.commit batch)), true⟩) :
    ∃ next, KeyKept id first after (front ++ [(thread, event)]) next := by
  obtain ⟨next, found, same⟩ := (moves_uncommitted moved uncommitted).2 id row kept.found
  have uncounted : countsKey id event = false := by
    obtain ⟨other | op, reply⟩ := event
    · rfl
    · cases op with
      | session op =>
        cases op with
        | commit batch =>
          cases reply with
          | false => rfl
          | true => exact absurd rfl (uncommitted batch)
        | _ => rfl
      | _ => rfl
  refine ⟨next, found, ?_, fun other held keeps still => ?_⟩
  · rw [same, kept.counted, countP_concat, uncounted]
    simp
  · rw [same]
    rw [own_append] at keeps
    by_cases owner : thread = other
    · subst owner
      rw [own_self, own_nil, exchange_concat] at keeps
      cases found : sessionEvent event with
      | none =>
        rw [found, Option.toList_none, List.append_nil] at keeps
        exact kept.held thread held keeps
          (not_overtaken_own (by simp [readsKey, found]) still)
      | some asked =>
        rw [found, Option.toList_some, KeyWrites.rows_concat] at keeps
        have shown : event = session asked := by
          obtain ⟨other | op, reply⟩ := event
          · cases found
          · cases op <;> cases found
            rfl
        subst shown
        cases loaded : KeyVerdicts.loadedRow id asked with
        | some brought =>
          have here := (KeyTasks.moves_loaded loaded moved).1
          rw [kept.found] at here
          cases here
          rw [keep_read loaded] at keeps
          cases keeps
          rfl
        | none =>
          have keeps := keep_unread loaded
            (fun batch equal => uncommitted batch (by rw [equal]; rfl)) keeps
          exact kept.held thread held keeps
            (not_overtaken_own (by simp [readsKey, found, loaded]) still)
    · rw [own_other owner, own_nil, List.append_nil] at keeps
      exact kept.held other held keeps (not_overtaken_other owner still).1

/-- A commit that counts a success of the key. -/
theorem KeyKept.counting {batch : Commit} {key : KeyObject}
    (kept : KeyKept id first before front row)
    (moved : moves before (accepted R batch) after)
    (site : batch.site = .quota) (alone : batch.keys = [key]) (same : key.id = id)
    (loaded : KeyWrites.rows (exchange (own thread front)) key.id = some key.loaded)
    {chilled : Prop} (rewritten : KeyWrites.Rewritten chilled batch.site key.loaded key.current)
    (apart : ¬ KeyOvertaken id thread front) :
    KeyKept id first after
      (front ++ [(thread, (accepted R batch))])
      (key.flush row) := by
  subst same
  obtain ⟨-, -, rfl⟩ | ⟨failed, -⟩ := moved
  swap
  · cases failed
  have counts : countsKey key.id (accepted R batch) = true := by
    simp [countsKey, site, alone]
  have grown : key.current.totalRequests = key.loaded.totalRequests + 1 := by
    rw [rewritten_total rewritten, if_pos site]
  have current := kept.held thread key.loaded loaded apart
  have written : (key.flush row).totalRequests = key.current.totalRequests := by
    rw [flush_total, if_neg (by omega)]
  refine ⟨?_, ?_, fun other held keeps still => ?_⟩
  · simp only [Store.apply, alone, List.foldl_cons, List.foldl_nil]
    rw [Store.get_flushKey_self, kept.found]
    rfl
  · rw [written, grown, current, kept.counted, countP_concat, if_pos counts]
    omega
  · by_cases owner : thread = other
    · subst owner
      rw [own_append, own_self, own_nil, exchange_concat] at keeps
      change KeyWrites.rows (exchange (own thread front) ++ [⟨.commit batch, true⟩]) key.id = _
        at keeps
      rw [KeyWrites.rows_concat] at keeps
      simp only [KeyWrites.keep, alone, List.find?_cons, decide_true, Option.map_some,
        Option.some_or, Option.some.injEq] at keeps
      rw [← keeps, written]
    · exact absurd counts (not_overtaken_other owner still).2

/-- A commit that counts no success of the key. -/
theorem KeyKept.unrelated {batch : Commit} (kept : KeyKept id first before front row)
    (moved : moves before (accepted R batch) after)
    (writable : KeyWrites.Writable (exchange (own thread front)) batch)
    (other : batch.site = .quota → ∀ key ∈ batch.keys, key.id ≠ id) :
    ∃ next, KeyKept id first after
      (front ++ [(thread, (accepted R batch))]) next := by
  obtain ⟨-, -, rfl⟩ | ⟨failed, -⟩ := moved
  swap
  · cases failed
  have uncounted : countsKey id (accepted R batch) = false := by
    by_cases site : batch.site = .quota
    · simpa [countsKey, site] using other site
    · simp [countsKey, site]
  have alone (key : KeyObject) (member : key ∈ batch.keys) (same : key.id = id) :
      key.current.totalRequests = key.loaded.totalRequests := by
    rw [rewritten_total (writable.rewritten key member), if_neg fun site => other site key member same]
    omega
  obtain ⟨next, found, same⟩ : ∃ next, (before.apply batch).keys.get? id = some next ∧
      next.totalRequests = row.totalRequests := by
    by_cases site : batch.site = .quota
    · refine ⟨row, ?_, rfl⟩
      rw [← kept.found]
      exact Store.get_foldl_other _ _ fun key member => (other site key member).symm
    · refine foldl_flush_total batch.keys before.keys (fun key member => ?_) kept.found
      rw [rewritten_total (writable.rewritten key member), if_neg site]
      omega
  refine ⟨next, found, ?_, fun reader held keeps still => ?_⟩
  · rw [same, kept.counted, countP_concat, uncounted]
    simp
  rw [same]
  by_cases owner : thread = reader
  · subst owner
    have still := not_overtaken_own (by simp [readsKey, sessionEvent, KeyVerdicts.loadedRow]) still
    rw [own_append, own_self, own_nil, exchange_concat] at keeps
    change KeyWrites.rows (exchange (own thread front) ++ [⟨.commit batch, true⟩]) id = _ at keeps
    rw [KeyWrites.rows_concat] at keeps
    simp only [KeyWrites.keep] at keeps
    cases search : batch.keys.find? fun key => key.id = id with
    | none =>
      rw [search] at keeps
      exact kept.held thread held keeps still
    | some key =>
      rw [search] at keeps
      cases keeps
      have member := List.mem_of_find?_eq_some search
      have equal : key.id = id := by simpa using List.find?_some search
      rw [alone key member equal]
      exact kept.held thread key.loaded (equal ▸ writable.kept key member) still
  · rw [own_append, own_other owner, own_nil, List.append_nil] at keeps
    exact kept.held reader held keeps (not_overtaken_other owner still).1

theorem KeyKept.step (kept : KeyKept id first before front row)
    (watched : Watched setup (requests thread).clientId (own thread front) event.op)
    (moved : moves before event after)
    (apart : countsKey id event = true → ¬ KeyOvertaken id thread front) :
    ∃ next, KeyKept id first after (front ++ [(thread, event)]) next := by
  by_cases commits : ∃ batch, event = ⟨.part (.session (.commit batch)), true⟩
  · obtain ⟨batch, rfl⟩ := commits
    obtain ⟨writable, _, clients⟩ := watched
    by_cases counting : batch.site = .quota ∧ ∃ key ∈ batch.keys, key.id = id
    · obtain ⟨site, key, member, same⟩ := counting
      obtain ⟨client, given⟩ := Option.isSome_iff_exists.mp (writable.counts site)
      have alone : batch.keys = [key] := by
        obtain ⟨_, _, accounted⟩ := clients client given
        cases accounted with
        | reset _ reset => cases site.symm.trans reset
        | success _ _ keys =>
          obtain ⟨only, keys⟩ := keys
          rw [keys, List.mem_singleton] at member
          rw [keys, member]
      refine ⟨_, kept.counting moved site alone same (writable.kept key member)
        (writable.rewritten key member) (apart ?_)⟩
      simp [countsKey, site, alone, same]
    · exact kept.unrelated moved writable fun site key member same =>
        counting ⟨site, key, member, same⟩
  · exact kept.uncommitted moved fun batch same => commits ⟨batch, same⟩

end Keys

/-- The usage of a client on the day. -/
def usageOn (setup : Setup R) (day : Int) (row : ClientColumns) : Int :=
  if setup.config.quota.enableQuotaCheck then (resetUsage day row).dailyUsage else row.dailyUsage

section Clients

variable {first row : ClientColumns}

/-- A row of the client is as it was, or of the day. -/
def Dated (day : Int) (first row : ClientColumns) : Prop :=
  row.quotaResetAt = some day ∨
    (row.quotaResetAt = first.quotaResetAt ∧ row.dailyUsage = first.dailyUsage)

/-- What a request of the client holds of its row. -/
structure HeldRow (setup : Setup R) (day : Int) (first row held : ClientColumns) : Prop where
  limited : held.dailyQuota = first.dailyQuota
  dated : setup.config.quota.enableQuotaCheck = true →
    (held.quotaResetAt = some day ∧ row.quotaResetAt = some day) ∨
      (held.quotaResetAt = first.quotaResetAt ∧ held.dailyUsage = first.dailyUsage)

/-- A client's usage of the day stands at what it was and the successes counted since, and a request
that was not overtaken holds the usage as it stands. -/
structure ClientKept (setup : Setup R) (requests : Thread → ClientRequest) (day : Int) (id : Nat)
    (first : ClientColumns) (store : Store) (trace : Trace Thread (RequestOp R) (RequestReply R))
    (row : ClientColumns) : Prop where
  found : store.clients.get? id = some row
  limited : row.dailyQuota = first.dailyQuota
  dated : setup.config.quota.enableQuotaCheck = true → Dated day first row
  counted : usageOn setup day row =
    usageOn setup day first + (trace.countP fun entry => countsClient id entry.2 : Nat)
  held : ∀ thread held, (requests thread).clientId = id →
    clientRow (own thread trace) = some held → HeldRow setup day first row held ∧
      (¬ ClientOvertaken id thread trace → usageOn setup day held = usageOn setup day row)

/-- An event that leaves the client's row, in the table and in its request, unless it brings it. -/
theorem ClientKept.unrelated (kept : ClientKept setup requests day id first before front row)
    (same : after.clients.get? id = before.clients.get? id)
    (uncounted : countsClient id event = false)
    (keeps : (requests thread).clientId = id →
      (keepClient (clientRow (own thread front)) event = clientRow (own thread front) ∧
        readsClient id event = false) ∨
      keepClient (clientRow (own thread front)) event = some row) :
    ClientKept setup requests day id first after (front ++ [(thread, event)]) row := by
  refine ⟨same.trans kept.found, kept.limited, kept.dated, ?_, fun reader held mine holds => ?_⟩
  · rw [kept.counted, countP_concat, uncounted]
    simp
  · rw [own_append] at holds
    by_cases owner : thread = reader
    · subst owner
      rw [own_self, own_nil, clientRow_append] at holds
      change keepClient (clientRow (own thread front)) event = some held at holds
      rcases keeps mine with ⟨still, unread⟩ | brought
      · obtain ⟨heldRow, current⟩ := kept.held thread held mine (still.symm.trans holds)
        exact ⟨heldRow, fun apart => current (not_overtaken_own (by simp [unread]) apart)⟩
      · cases brought.symm.trans holds
        refine ⟨⟨kept.limited, fun enabled => ?_⟩, fun _ => rfl⟩
        rcases kept.dated enabled with today | untouched
        · exact .inl ⟨today, today⟩
        · exact .inr untouched
    · rw [own_other owner, own_nil, List.append_nil] at holds
      obtain ⟨heldRow, current⟩ := kept.held reader held mine holds
      exact ⟨heldRow, fun apart => current (not_overtaken_other owner apart).1⟩

/-- The flush of a client's object, in the columns of its usage. -/
theorem flush_usage (client : ClientObject) (row : ClientColumns) :
    (client.flush row).dailyQuota =
        (if client.current.dailyQuota = client.loaded.dailyQuota then row.dailyQuota
          else client.current.dailyQuota) ∧
      (client.flush row).dailyUsage =
        (if client.current.dailyUsage = client.loaded.dailyUsage then row.dailyUsage
          else client.current.dailyUsage) ∧
      (client.flush row).quotaResetAt =
        if client.current.quotaResetAt = client.loaded.quotaResetAt then row.quotaResetAt
        else client.current.quotaResetAt := ⟨rfl, rfl, rfl⟩

theorem usageOn_day (current : setup.config.quota.enableQuotaCheck = true →
    row.quotaResetAt = some day) : usageOn setup day row = row.dailyUsage := by
  unfold usageOn
  split
  · rename_i enabled
    rw [resetUsage, if_pos (current enabled)]
  · rfl

/-- Usage that is of another day is counted anew. -/
theorem usageOn_other (enabled : setup.config.quota.enableQuotaCheck = true)
    (other : row.quotaResetAt ≠ some day) : usageOn setup day row = 0 := by
  rw [usageOn, if_pos enabled, resetUsage, if_neg other]

/-- The client's row after a commit of its object. -/
theorem moves_client {batch : Commit} (given : batch.client = some client)
    (moved : moves before (accepted R batch) after)
    (found : before.clients.get? client.id = some row) :
    after.clients.get? client.id = some (client.flush row) := by
  obtain ⟨-, -, rfl⟩ | ⟨failed, -⟩ := moved
  · simp only [Store.apply, given, Store.flushClient, Table.get_modify_self, found, Option.map_some]
  · cases failed

/-- What the committing request and the others hold once the client's row was written. -/
theorem held_committed {batch : Commit} {next : ClientColumns} (given : batch.client = some client)
    (kept : ClientKept setup requests day id first before front row)
    (mine : HeldRow setup day first next client.current)
    (current : usageOn setup day client.current = usageOn setup day next)
    (stays : setup.config.quota.enableQuotaCheck = true → row.quotaResetAt = some day →
      next.quotaResetAt = some day)
    (others : countsClient id (accepted R batch) = false →
      usageOn setup day row = usageOn setup day next) (reader : Thread) (held : ClientColumns)
    (owner : (requests reader).clientId = id)
    (holds : clientRow (own reader (front ++
      [(thread, (accepted R batch))])) = some held) :
    HeldRow setup day first next held ∧ (¬ ClientOvertaken id reader (front ++
      [(thread, (accepted R batch))]) →
        usageOn setup day held = usageOn setup day next) := by
  rw [own_append] at holds
  by_cases same : thread = reader
  · subst same
    rw [own_self, own_nil, clientRow_append] at holds
    simp only [List.foldl_cons, List.foldl_nil, keepClient, given, Option.map_some, Option.some_or,
      Option.some.injEq] at holds
    subst holds
    exact ⟨mine, fun _ => current⟩
  · rw [own_other same, own_nil, List.append_nil] at holds
    obtain ⟨heldRow, apart⟩ := kept.held reader held owner holds
    refine ⟨⟨heldRow.limited, fun enabled => ?_⟩, fun still => ?_⟩
    · exact (heldRow.dated enabled).imp_left fun both => ⟨both.1, stays enabled both.2⟩
    · obtain ⟨before, uncounted⟩ := not_overtaken_other same still
      exact (apart before).trans (others (eq_false_of_ne_true uncounted))

/-- Usage that is counted anew. -/
theorem ClientKept.reset {batch : Commit}
    (kept : ClientKept setup requests day id first before front row)
    (moved : moves before (accepted R batch) after)
    (given : batch.client = some client) (owner : client.id = id)
    (mine : (requests thread).clientId = id)
    (loaded : clientRow (own thread front) = some client.loaded)
    (site : batch.site = .quotaReset) (enabled : setup.config.quota.enableQuotaCheck = true)
    (other : client.loaded.quotaResetAt ≠ some day)
    (written : client.current = resetUsage day client.loaded)
    (apart : ¬ ClientOvertaken id thread front) :
    ClientKept setup requests day id first after
      (front ++ [(thread, (accepted R batch))])
      (client.flush row) := by
  obtain ⟨heldRow, current⟩ := kept.held thread client.loaded mine loaded
  have zero : usageOn setup day row = 0 := (current apart).symm.trans (usageOn_other enabled other)
  have untouched : client.loaded.quotaResetAt = first.quotaResetAt ∧
      client.loaded.dailyUsage = first.dailyUsage :=
    (heldRow.dated enabled).resolve_left fun both => other both.1
  have columns : client.current.dailyUsage = 0 ∧ client.current.quotaResetAt = some day ∧
      client.current.dailyQuota = client.loaded.dailyQuota := by
    rw [written, resetUsage, if_neg other]
    exact ⟨rfl, rfl, rfl⟩
  obtain ⟨quota, usage, date⟩ := flush_usage client row
  have dated : (client.flush row).quotaResetAt = some day := by
    rw [date, columns.2.1, if_neg (Ne.symm other)]
  have spent : (client.flush row).dailyUsage = 0 := by
    rw [usage, columns.1]
    split
    · rename_i same
      rcases kept.dated enabled with today | first
      · rw [← zero, usageOn_day fun _ => today]
      · rw [first.2, ← untouched.2, ← same]
    · rfl
  have value : usageOn setup day (client.flush row) = 0 := by
    rw [usageOn_day fun _ => dated, spent]
  have uncounted : countsClient id (accepted R batch) =
      false := by
    simp [countsClient, site]
  refine ⟨?_, ?_, fun _ => .inl dated, ?_, ?_⟩
  · subst owner
    exact moves_client given moved kept.found
  · rw [quota, if_pos columns.2.2, kept.limited]
  · rw [value, ← zero, kept.counted, countP_concat, uncounted]
    simp
  · refine held_committed given kept ⟨columns.2.2.trans heldRow.limited, fun _ => ?_⟩ ?_ ?_ ?_
    · exact .inl ⟨columns.2.1, dated⟩
    · rw [value, usageOn_day fun _ => columns.2.1, columns.1]
    · exact fun _ _ => dated
    · exact fun _ => zero.trans value.symm

/-- A success that is counted. -/
theorem ClientKept.success {batch : Commit} {usedAt : Instant}
    (kept : ClientKept setup requests day id first before front row)
    (limited : first.dailyQuota.isSome = true)
    (moved : moves before (accepted R batch) after)
    (given : batch.client = some client) (owner : client.id = id)
    (mine : (requests thread).clientId = id)
    (loaded : clientRow (own thread front) = some client.loaded) (site : batch.site = .quota)
    (written : client = ForwardEffects.counted (ClientObject.fresh client.id client.loaded) usedAt)
    (today : setup.config.quota.enableQuotaCheck = true → client.loaded.quotaResetAt = some day)
    (apart : ¬ ClientOvertaken id thread front) :
    ClientKept setup requests day id first after
      (front ++ [(thread, (accepted R batch))])
      (client.flush row) := by
  obtain ⟨heldRow, current⟩ := kept.held thread client.loaded mine loaded
  have has : client.loaded.dailyQuota.isSome = true := by rw [heldRow.limited, limited]
  have columns : client.current.dailyUsage = client.loaded.dailyUsage + 1 ∧
      client.current.quotaResetAt = client.loaded.quotaResetAt ∧
      client.current.dailyQuota = client.loaded.dailyQuota := by
    rw [written]
    exact ⟨if_pos has, rfl, rfl⟩
  have stands : setup.config.quota.enableQuotaCheck = true → row.quotaResetAt = some day := by
    intro enabled
    rcases heldRow.dated enabled with both | first
    · exact both.2
    · exact (kept.dated enabled).elim (fun current => current) fun row =>
        row.1.trans (first.1.symm.trans (today enabled))
  obtain ⟨quota, usage, date⟩ := flush_usage client row
  have dated : (client.flush row).quotaResetAt = row.quotaResetAt := by
    rw [date, if_pos columns.2.1]
  have grown : (client.flush row).dailyUsage = client.loaded.dailyUsage + 1 := by
    rw [usage, columns.1, if_neg (by omega)]
  have value : usageOn setup day (client.flush row) = usageOn setup day row + 1 := by
    rw [← current apart, usageOn_day today, usageOn_day fun enabled => dated.trans (stands enabled),
      grown]
  have counts : countsClient id (accepted R batch) = true := by
    simp [countsClient, site, given, owner]
  refine ⟨?_, ?_, fun enabled => .inl (dated.trans (stands enabled)), ?_, ?_⟩
  · subst owner
    exact moves_client given moved kept.found
  · rw [quota, if_pos columns.2.2, kept.limited]
  · rw [value, kept.counted, countP_concat, if_pos counts]
    omega
  · refine held_committed given kept ⟨columns.2.2.trans heldRow.limited, fun enabled => ?_⟩ ?_ ?_ ?_
    · exact .inl ⟨columns.2.1.trans (today enabled), dated.trans (stands enabled)⟩
    · rw [value, ← current apart, usageOn_day today,
        usageOn_day fun enabled => columns.2.1.trans (today enabled), columns.1]
    · exact fun _ row => dated.trans row
    · exact fun uncounted => absurd counts (by simp [uncounted])

theorem ClientKept.step (kept : ClientKept setup requests day id first before front row)
    (limited : first.dailyQuota.isSome = true)
    (watched : Watched setup (requests thread).clientId (own thread front) event.op)
    (moved : moves before event after) (oneDay : OneDay day front)
    (apart : writesClient id event = true → ¬ ClientOvertaken id thread front) :
    ∃ next, ClientKept setup requests day id first after (front ++ [(thread, event)]) next := by
  by_cases commits : ∃ batch client, event = ⟨.part (.session (.commit batch)), true⟩ ∧
      batch.client = some client
  · obtain ⟨batch, client, rfl, given⟩ := commits
    obtain ⟨_, _, clients⟩ := watched
    obtain ⟨owner, loaded, accounted⟩ := clients client given
    by_cases mine : (requests thread).clientId = id
    · have owner := owner.trans mine
      have apart := apart (by simp [writesClient, given, owner])
      cases accounted with
      | reset today site _ enabled _ asked other written =>
        obtain rfl := oneDay _ (mem_own.mp asked) _ _ rfl
        exact ⟨_, kept.reset moved given owner mine loaded site enabled other written apart⟩
      | success usedAt site _ written current =>
        refine ⟨_, kept.success limited moved given owner mine loaded site written ?_ apart⟩
        intro enabled
        have has : client.loaded.dailyQuota.isSome = true := by
          rw [(kept.held thread _ mine loaded).1.limited, limited]
        obtain ⟨today, asked, dated⟩ := current enabled has
        obtain rfl := oneDay _ (mem_own.mp asked) _ _ rfl
        exact dated
    · have different : client.id ≠ id := fun same => mine (owner.symm.trans same)
      refine ⟨row, kept.unrelated ?_ ?_ fun same => absurd same mine⟩
      · obtain ⟨-, -, rfl⟩ | ⟨failed, -⟩ := moved
        · simp only [Store.apply, given, Store.flushClient]
          exact Table.get_modify_other different.symm
        · cases failed
      · simp [countsClient, given, different]
  · have tables : after.clients = before.clients ∧ countsClient id event = false := by
      by_cases plain : ∃ batch, event = ⟨.part (.session (.commit batch)), true⟩
      · obtain ⟨batch, rfl⟩ := plain
        have none : batch.client = .none :=
          Option.eq_none_iff_forall_ne_some.mpr fun client given =>
            commits ⟨batch, client, rfl, given⟩
        obtain ⟨-, -, rfl⟩ | ⟨failed, -⟩ := moved
        · simp [Store.apply, none, Store.flushClient, countsClient]
        · cases failed
      · refine ⟨(moves_uncommitted moved fun batch same => plain ⟨batch, same⟩).1, ?_⟩
        obtain ⟨other | op, reply⟩ := event
        · rfl
        · cases op with
          | session op =>
            cases op with
            | commit batch =>
              cases reply with
              | false => rfl
              | true => exact absurd ⟨batch, rfl⟩ plain
            | _ => rfl
          | _ => rfl
    refine ⟨row, kept.unrelated (by rw [tables.1]) tables.2 fun mine => ?_⟩
    obtain ⟨other | op, reply⟩ := event
    · obtain rfl : other = id := Eq.trans watched mine
      obtain ⟨_, failed | found⟩ := moved
      · obtain rfl : reply = none := failed
        exact .inl ⟨rfl, rfl⟩
      · obtain rfl : reply = some (before.clients.get? other) := found
        rw [kept.found]
        exact .inr rfl
    · refine .inl ?_
      cases op with
      | session op =>
        cases op with
        | commit batch =>
          cases reply with
          | false => exact ⟨rfl, rfl⟩
          | true =>
            have none : batch.client = .none := Option.eq_none_iff_forall_ne_some.mpr
              fun client given => commits ⟨batch, client, rfl, given⟩
            simp [keepClient, none, readsClient]
        | _ => exact ⟨rfl, rfl⟩
      | _ => exact ⟨rfl, rfl⟩

end Clients

/-- Every request that began has ended. -/
def Ended (setup : Setup R) (requests : Thread → ClientRequest)
    (trace : Trace Thread (RequestOp R) (RequestReply R)) : Prop :=
  ∀ thread, own thread trace = [] ∨
    ∃ outcome, (programs setup requests thread).Ran (own thread trace) outcome

/-- The counters of keys and clients stand at what they were and the successes since. The usage of a
client is that of the day. -/
structure Counted (setup : Setup R) (requests : Thread → ClientRequest) (day : Int)
    (start last : Store) (trace : Trace Thread (RequestOp R) (RequestReply R)) : Prop where
  keys : ∀ id row, start.keys.get? id = some row → ∃ stop, last.keys.get? id = some stop ∧
    stop.totalRequests =
      row.totalRequests + (trace.countP fun entry => succeedsWith id entry.2 : Nat)
  clients : ∀ id row, start.clients.get? id = some row → row.dailyQuota.isSome = true →
    ∃ stop, last.clients.get? id = some stop ∧ usageOn setup day stop = usageOn setup day row +
      (trace.countP fun entry => (requests entry.1).clientId = id && succeeds entry.2 : Nat) ∧
    (row.quotaResetAt = some day → usageOn setup day row = row.dailyUsage ∧
      usageOn setup day stop = stop.dailyUsage)

/-- A commit that counts a success counts it for its request's client. -/
def Billing (id : Nat) : RequestOp R → Prop
  | .part (.session (.commit batch)) => (batch.site = .quota → batch.client.isSome = true) ∧
    ∀ client, batch.client = some client → client.id = id
  | _ => True

theorem run_billing (mode : setup.config.quota.countMode = "success")
    (run : Interleaved (programs setup requests) moves start trace last) (thread : Thread) :
    ∀ event ∈ own thread trace, Billing (requests thread).clientId event.op := by
  have fixed (events : List (RequestEvent R)) (op : RequestOp R)
      (watched : Watched setup (requests thread).clientId events op) :
      Billing (requests thread).clientId op := by
    cases op with
    | findClient id => trivial
    | part op =>
      cases op with
      | session op =>
        cases op with
        | commit batch => exact ⟨watched.1.counts, fun client given => (watched.2.2 client given).1⟩
        | _ => trivial
      | _ => trivial
  obtain ⟨left, reached⟩ := run.each thread
  exact wp_every fixed reached (follows_checking _ _ []) (wp_program mode (requests thread))

theorem countsClient_billing {event : RequestEvent R} {owner : Nat}
    (billing : Billing owner event.op) :
    countsClient id event = (decide (owner = id) && countsSuccess event) := by
  obtain ⟨other | op, reply⟩ := event
  · simp [countsClient, countsSuccess]
  · cases op with
    | session op =>
      cases op with
      | commit batch =>
        cases reply with
        | false => simp [countsClient, countsSuccess]
        | true =>
          by_cases site : batch.site = .quota
          · obtain ⟨client, given⟩ := Option.isSome_iff_exists.mp (billing.1 site)
            have same := billing.2 client given
            simp [countsClient, countsSuccess, site, given, same]
          · simp [countsClient, countsSuccess, site]
      | _ => simp [countsClient, countsSuccess]
    | _ => simp [countsClient, countsSuccess]

/-- What a request that ended obtained was counted. -/
theorem ended_tallied (mode : setup.config.quota.countMode = "success")
    (ended : Ended setup requests trace)
    (committed : ∀ batch, ∀ entry ∈ trace,
      entry.2 ≠ (⟨.part (.session (.commit batch)), false⟩ : RequestEvent R)) (thread : Thread) :
    Tallied (own thread trace) := by
  rcases ended thread with none | ⟨outcome, ran⟩
  · rw [none]
    exact tallied_nil
  · refine wp_history ran (wp_program mode (requests thread)) fun batch member => ?_
    exact committed batch _ (mem_own.mp member) rfl

/-- No success is lost from the counters in a run whose requests do not overlap where they count. -/
theorem usage_counted (mode : setup.config.quota.countMode = "success")
    (run : Interleaved (programs setup requests) moves start trace last)
    (ended : Ended setup requests trace)
    (committed : ∀ batch, ∀ entry ∈ trace,
      entry.2 ≠ (⟨.part (.session (.commit batch)), false⟩ : RequestEvent R))
    (oneDay : OneDay day trace) (apart : Apart start trace) :
    Counted setup requests day start last trace := by
  have tallied := ended_tallied mode ended committed
  constructor
  · intro id row found
    obtain ⟨stop, kept⟩ : ∃ stop, KeyKept id row last trace stop := by
      refine Interleaved.induct (motive := fun trace store => Apart start trace →
        ∃ stop, KeyKept id row store trace stop) ?_ ?_ run apart
      · exact fun _ => ⟨row, found, by simp, fun _ _ none => by cases none⟩
      · intro front thread event before after _ held asking moved apart
        obtain ⟨stop, kept⟩ := held apart.earlier
        exact kept.step (asking_watched mode asking) moved
          (apart.keys front thread event [] id rfl)
    refine ⟨stop, kept.found, ?_⟩
    rw [kept.counted]
    congr 2
    exact countP_own_congr (fun _ => countsKey id) (fun _ => succeedsWith id) fun thread =>
      ((tallied thread).keys id).symm
  · intro id row found limited
    obtain ⟨stop, kept⟩ : ∃ stop, ClientKept setup requests day id row last trace stop := by
      refine Interleaved.induct (motive := fun trace store => Apart start trace → OneDay day trace →
        ∃ stop, ClientKept setup requests day id row store trace stop) ?_ ?_ run apart oneDay
      · refine fun _ _ => ⟨row, found, rfl, fun _ => .inr ⟨rfl, rfl⟩, by simp, ?_⟩
        exact fun _ _ _ none => by cases none
      · intro front thread event before after _ held asking moved apart oneDay
        obtain ⟨stop, kept⟩ := held apart.earlier oneDay.earlier
        exact kept.step limited (asking_watched mode asking) moved oneDay.earlier
          (apart.clients front thread event [] id row rfl found limited)
    refine ⟨stop, kept.found, ?_, fun current => ⟨usageOn_day fun _ => current, ?_⟩⟩
    · rw [kept.counted]
      congr 2
      refine countP_own_congr (fun _ => countsClient id)
        (fun thread event => decide ((requests thread).clientId = id) && succeeds event)
        fun thread => ?_
      have billed : (own thread trace).countP (countsClient id) = (own thread trace).countP
          fun event => decide ((requests thread).clientId = id) && countsSuccess event :=
        List.countP_congr fun event member => by
          rw [countsClient_billing (run_billing mode run thread event member)]
      rw [billed]
      by_cases mine : (requests thread).clientId = id
      · simp only [mine, decide_true, Bool.true_and]
        exact (tallied thread).all.symm
      · simp [mine]
    · refine usageOn_day fun enabled => ?_
      rcases kept.dated enabled with today | untouched
      · exact today
      · exact untouched.1.trans current

/-- The keys whose counters an event writes. -/
def countedKeys : RequestEvent R → List Nat
  | ⟨.part (.session (.commit batch)), true⟩ =>
    if batch.site = .quota then batch.keys.map KeyObject.id else []
  | _ => []

/-- The clients whose rows an event writes. -/
def writtenClients : RequestEvent R → List Nat
  | ⟨.part (.session (.commit batch)), true⟩ => (batch.client.map ClientObject.id).toList
  | _ => []

theorem mem_countedKeys (counts : countsKey id event = true) : id ∈ countedKeys event := by
  unfold countsKey at counts
  split at counts
  · simp only [Bool.and_eq_true, decide_eq_true_eq, List.any_eq_true] at counts
    obtain ⟨site, key, member, same⟩ := counts
    simp only [countedKeys, if_pos site]
    exact List.mem_map.mpr ⟨key, member, same⟩
  · cases counts

theorem mem_writtenClients (writes : writesClient id event = true) : id ∈ writtenClients event := by
  unfold writesClient at writes
  split at writes
  · rename_i batch
    cases given : batch.client with
    | none => simp [given] at writes
    | some client =>
      simp only [given, Option.any_some, decide_eq_true_eq] at writes
      simp [writtenClients, given, writes]
  · cases writes

/-- At each entry, what it writes was not overtaken. -/
def Clear (front : Trace Thread (RequestOp R) (RequestReply R))
    (entry : Thread × RequestEvent R) : Prop :=
  (∀ id ∈ countedKeys entry.2, ¬ KeyOvertaken id entry.1 front) ∧
    ∀ id ∈ writtenClients entry.2, ¬ ClientOvertaken id entry.1 front

instance (id : Nat) (thread : Thread) (trace : Trace Thread (RequestOp R) (RequestReply R)) :
    Decidable (KeyOvertaken id thread trace) :=
  inferInstanceAs (Decidable (Overtaken _ _ thread trace))

instance (id : Nat) (thread : Thread) (trace : Trace Thread (RequestOp R) (RequestReply R)) :
    Decidable (ClientOvertaken id thread trace) :=
  inferInstanceAs (Decidable (Overtaken _ _ thread trace))

instance (front : Trace Thread (RequestOp R) (RequestReply R)) (entry : Thread × RequestEvent R) :
    Decidable (Clear front entry) := inferInstanceAs (Decidable (_ ∧ _))

theorem apart_of_clear (start : Store) (clear : Along Clear [] trace) : Apart start trace := by
  constructor
  · rintro front thread event back id rfl counts
    exact (along_split clear).1 id (mem_countedKeys counts)
  · rintro front thread event back id row rfl _ _ writes
    exact (along_split clear).2 id (mem_writtenClients writes)

/-- A commit that succeeds, or a date of the day, or another event. -/
def ordinary (day : Int) : RequestEvent R → Bool
  | ⟨.part (.session (.commit _)), written⟩ => written
  | ⟨.part (.today _), found⟩ => found.all (· = day)
  | _ => true

theorem ordinary_committed (ordinary : trace.all (fun entry => ordinary day entry.2) = true)
    (batch : Commit) : ∀ entry ∈ trace,
      entry.2 ≠ (⟨.part (.session (.commit batch)), false⟩ : RequestEvent R) := by
  rintro ⟨thread, event⟩ member rfl
  cases List.all_eq_true.mp ordinary _ member

theorem ordinary_oneDay (ordinary : trace.all (fun entry => ordinary day entry.2) = true) :
    OneDay day trace := by
  rintro ⟨thread, event⟩ member timezone today rfl
  exact of_decide_eq_true (List.all_eq_true.mp ordinary _ member)

end Runs

/-- A store whose statements all succeed, limiters that allow everything, and an upstream that
answers every request with success, on day 0. -/
def respond (now : Instant) (store : Store) : (op : RequestOp R) → RequestReply R op × Store
  | .findClient id => (some (store.clients.get? id), store)
  | .part (.acquire _ _) => (some true, store)
  | .part (.allow _ _) => (some (true, 0), store)
  | .part (.release _) => ((), store)
  | .part (.today _) => (some 0, store)
  | .part (.untilMidnight _) => (some 1, store)
  | .part .rollback => (true, store)
  | .part (.logClient _) => (true, store)
  | .part .prepare => (.ok (.go none), store)
  | .part .conclude => (.ok (), store)
  | .part (.session (.request _ _)) => (.response foundResponse, store)
  | .part (.session op) => store.answer now op

theorem respond_honest (now : Instant) (store : Store) (op : RequestOp R) :
    moves store ⟨op, (respond now store op).1⟩ (respond now store op).2 := by
  cases op with
  | findClient id => exact ⟨rfl, .inr rfl⟩
  | part op =>
    cases op with
    | session op =>
      have honest := store.answer_honest now op
      cases op with
      | request keyId sent => rfl
      | _ => exact honest
    | _ => rfl

/-- Two requests of one client. -/
def pair (_ : Bool) : ClientRequest :=
  { clientId := 1, request := { requestId := "r", method := "POST", primaryPath := "/v2/scrape" } }

def pairStart : Store :=
  { keys := Table.single 1 { apiKeyCiphertext := [1] }
    clients := Table.single 1 { dailyQuota := some 10, quotaResetAt := some 0 } }

/-- A configuration with the daily quota checked. -/
def pairSetup (config : AppConfig ℚ) : Setup ℚ :=
  openSetup { config with quota := { enableQuotaCheck := true } }

/-- The two requests, with their steps in the order given. -/
def pairRun (config : AppConfig ℚ) (order : List Bool) :=
  schedule (respond 0) (programs (pairSetup config) pair) pairStart order

theorem pair_interleaved (config : AppConfig ℚ) (order : List Bool) :
    Interleaved (programs (pairSetup config) pair) moves pairStart (pairRun config order).1
      (pairRun config order).2.2 :=
  schedule_interleaved (respond_honest 0) order _ _

theorem pair_ended (config : AppConfig ℚ) (order : List Bool)
    (returned : ∀ thread, ((pairRun config order).2.1 thread).returned.isSome = true) :
    Ended (pairSetup config) pair (pairRun config order).1 := by
  intro thread
  obtain ⟨value, same⟩ := Option.isSome_iff_exists.mp (returned thread)
  have reached :=
    schedule_reaches (respond 0) order (programs (pairSetup config) pair) pairStart thread
  have stands : (schedule (respond 0) (programs (pairSetup config) pair) pairStart order).2.1
      thread = .done value := returned_some same
  rw [stands] at reached
  exact .inr ⟨.ok value, reached⟩

/-- One request after the other: both are counted. -/
theorem successive_counted : Counted (pairSetup {}) pair 0 pairStart
    (pairRun {} (List.replicate 18 true ++ List.replicate 18 false)).2.2
    (pairRun {} (List.replicate 18 true ++ List.replicate 18 false)).1 := by
  have plain : ((pairRun {} (List.replicate 18 true ++ List.replicate 18 false)).1.all
      fun entry => ordinary 0 entry.2) = true := by decide +kernel
  exact usage_counted rfl (pair_interleaved _ _) (pair_ended _ _ (by decide +kernel))
    (ordinary_committed plain) (ordinary_oneDay plain)
    (apart_of_clear pairStart (by decide +kernel))

/-- Step by step in turn: one of two successes is lost from both counters. -/
theorem overlapping_lost : ∃ (requests : Bool → ClientRequest) (start last : Store)
    (trace : Trace Bool (RequestOp ℚ) (RequestReply ℚ)),
    (pairSetup {}).config.quota.countMode = "success" ∧
      Interleaved (programs (pairSetup {}) requests) moves start trace last ∧
      Ended (pairSetup {}) requests trace ∧
      (∀ batch, ∀ entry ∈ trace,
        entry.2 ≠ (⟨.part (.session (.commit batch)), false⟩ : RequestEvent ℚ)) ∧
      OneDay 0 trace ∧ ¬ Counted (pairSetup {}) requests 0 start last trace := by
  have plain : ((pairRun {} (List.replicate 18 [true, false]).flatten).1.all
      fun entry => ordinary 0 entry.2) = true := by decide +kernel
  refine ⟨pair, pairStart, (pairRun {} (List.replicate 18 [true, false]).flatten).2.2,
    (pairRun {} (List.replicate 18 [true, false]).flatten).1, rfl, pair_interleaved _ _,
    pair_ended _ _ (by decide +kernel), ordinary_committed plain, ordinary_oneDay plain, ?_⟩
  intro counted
  obtain ⟨stop, found, total⟩ := counted.keys 1 { apiKeyCiphertext := [1] } rfl
  have stands : ((pairRun {} (List.replicate 18 [true, false]).flatten).2.2.keys.get? 1).map
      KeyColumns.totalRequests = some 1 := by decide +kernel
  have obtained : (pairRun {} (List.replicate 18 [true, false]).flatten).1.countP
      (fun entry => succeedsWith 1 entry.2) = 2 := by decide +kernel
  rw [found, Option.map_some] at stands
  rw [obtained] at total
  cases total.symm.trans (Option.some.inj stands)

end FcamGateway.UsageCounters
