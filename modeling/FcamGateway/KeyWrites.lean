import FcamGateway.ForwardVerdicts

/-! What a forward writes over the rows that it read. A session keeps the rows as it last read or
wrote them; every object that a forward commits was loaded from these, and the place of the commit
names the columns that it changes. -/
namespace FcamGateway.KeyWrites
open Prog Credits Upstream Forwarder

set_option linter.unusedSectionVars false

variable {R : Type} [Field R] [LinearOrder R] [ScoreMath R]

/-- The rows of a session after an event, by those before it: a reading brings rows, a commit
leaves what it wrote. -/
def keep (rows : Nat → Option KeyColumns) : Event (Op R) (Reply R) → Nat → Option KeyColumns
  | ⟨.readPool _ _, some view⟩, id => view.keys.get? id
  | ⟨.listKeys, some keys⟩, id => keys.get? id
  | ⟨.findKey other, some found⟩, id => if other = id then found else rows id
  | ⟨.reload other, some row⟩, id => if other = id then some row else rows id
  | ⟨.commit batch, true⟩, id =>
    ((batch.keys.find? fun key => key.id = id).map KeyObject.current).or (rows id)
  | _, id => rows id

/-- The rows that a session keeps. -/
def rows (events : Exchange R) : Nat → Option KeyColumns := events.foldl keep fun _ => none

/-- The key was probed while its row was as it is loaded, and the answer was 429. -/
def Chilled (events : Exchange R) (key : KeyObject) : Prop :=
  ∃ front secret json text back, rows front key.id = some key.loaded ∧
    events = front ++
      (⟨.probe key.id secret, .response 429 json text⟩ : Event (Op R) (Reply R)) :: back

/-- The columns after a commit from a place of the source, by those before it. A cooling result
was brought by a probe. -/
inductive Rewritten (chilled : Prop) : Site → KeyColumns → KeyColumns → Prop where
  | reactivate (key : KeyObject) (enabled : KeyPool.isDisabled key.current = false) :
    Rewritten chilled .reactivate key.current (KeyPool.reactivate key).current
  | decryptFailed (row : KeyColumns) : Rewritten chilled .decryptFailed row { row with
      status := "decrypt_failed", isActive := false, nextRefreshAt := none }
  | cooling (row : KeyColumns) (seconds : Int) (until_ : Instant)
    (usable : row.isActive = true ∧ row.status ≠ "disabled") :
    Rewritten chilled (.cooling seconds) row { row with status := "cooling", cooldownUntil := some until_ }
  | failed (row : KeyColumns) (until_ : Instant)
    (usable : row.isActive = true ∧ row.status ≠ "disabled") :
    Rewritten chilled .failed row { row with status := "failed", cooldownUntil := some until_ }
  | invalid (row : KeyColumns) : Rewritten chilled .invalid row { row with
      status := "invalid", isActive := false, nextRefreshAt := none
      cachedRemainingCredits := some 0 }
  | creditResult {row columns : KeyColumns} (result : CreditFetchResult)
    (applied : Applied result row columns) (cold : result.kind = .cooling → chilled) :
    Rewritten chilled .creditResult row columns
  | zeroCredits (row : KeyColumns) :
    Rewritten chilled .zeroCredits row { row with cachedRemainingCredits := some 0 }
  | localCredits (row : KeyColumns) (remaining : Int) :
    Rewritten chilled .localCredits row { row with cachedRemainingCredits := some remaining }
  | quota (row : KeyColumns) (credits : Option Int) (usedAt : Instant) :
    Rewritten chilled .quota row { row with
      cachedRemainingCredits := credits, totalRequests := row.totalRequests + 1
      lastUsedAt := some usedAt }

/-- What may be committed after an exchange: one object for a row, as the session keeps the row.
A key's counter is written together with a client. -/
structure Writable (events : Exchange R) (batch : Commit) : Prop where
  counts : batch.site = .quota → batch.client.isSome = true
  single : ∀ one ∈ batch.keys, ∀ two ∈ batch.keys, one.id = two.id → one = two
  kept : ∀ key ∈ batch.keys, rows events key.id = some key.loaded
  rewritten : ∀ key ∈ batch.keys,
    Rewritten (Chilled events key) batch.site key.loaded key.current

def Demand (events : Exchange R) : Op R → Prop
  | .commit batch => Writable events batch
  | _ => True

/-- A question after which the session keeps the same rows. -/
def Apart : Op R → Prop
  | .readPool _ _ => False
  | .listKeys => False
  | .findKey _ => False
  | .reload _ => False
  | .commit _ => False
  | _ => True

/-- A row object as the session keeps its row, without changes. -/
structure InHand (events : Exchange R) (key : KeyObject) : Prop where
  kept : rows events key.id = some key.loaded
  clean : key.current = key.loaded

variable {history last : Exchange R} {key : KeyObject} {setup : Setup R} {masterKey : Bytes}

theorem rows_concat (events : Exchange R) (event : Event (Op R) (Reply R)) :
    rows (events ++ [event]) = keep (rows events) event := by
  rw [rows, List.foldl_append]
  rfl

theorem rows_apart (events : Exchange R) (op : Op R) (reply : Reply R op) (apart : Apart op) :
    rows (events ++ [⟨op, reply⟩]) = rows events := by
  rw [rows_concat]
  cases op <;> first | exact apart.elim | rfl

theorem InHand.then (hand : InHand history key) (op : Op R) (reply : Reply R op)
    (apart : Apart op) : InHand (history ++ [⟨op, reply⟩]) key :=
  ⟨by rw [rows_apart history op reply apart, hand.kept], hand.clean⟩

/-- The object that a lookup or a reading anew brings is in hand. -/
theorem hand_found (id : Nat) (row : KeyColumns) :
    InHand (history ++ [(⟨.findKey id, some (some row)⟩ : Event (Op R) (Reply R))])
      (KeyObject.fresh id row) := by
  refine ⟨?_, rfl⟩
  rw [rows_concat]
  exact if_pos rfl

theorem hand_reloaded (id : Nat) (row : KeyColumns) :
    InHand (history ++ [(⟨.reload id, some row⟩ : Event (Op R) (Reply R))])
      (KeyObject.fresh id row) := by
  refine ⟨?_, rfl⟩
  rw [rows_concat]
  exact if_pos rfl

/-- The monitor that checks each commit against the rows that the session keeps. -/
abbrev watching : Monitor (Exchange R) (Op R) (Reply R) := .checking Demand

theorem wp_put {post : Except Exn Value → Exchange R → Prop} (op : Op R)
    (rest : Reply R op → Gateway R Value) (met : Demand history op)
    (next : ∀ reply, (rest reply).wp watching post (history ++ [⟨op, reply⟩])) :
    ((query op).bind rest).wp watching post history :=
  (wp_check op _).mpr ⟨met, next⟩

/-- The row object that a function returns is in its hands. -/
def Returned (id : Nat) : Except Exn KeyObject → Exchange R → Prop
  | .ok next, last => next.id = id ∧ InHand last next
  | .error _, _ => True

/-- The function writes what it may and returns the object of the key. -/
abbrev Handles (history : Exchange R) (id : Nat) (program : Gateway R KeyObject) : Prop :=
  program.wp watching (Returned id) history

/-- The function writes what it may. -/
abbrev Settles (history : Exchange R) (program : Gateway R Value) : Prop :=
  program.wp watching (fun _ _ => True) history

theorem Handles.bind {program : Gateway R KeyObject} {rest : KeyObject → Gateway R Value}
    {post : Except Exn Value → Exchange R → Prop} {id : Nat} (handles : Handles history id program)
    (next : ∀ key last, key.id = id → InHand last key → (rest key).wp watching post last)
    (raised : ∀ error last, post (.error error) last) :
    (program.bind rest).wp watching post history := by
  refine (wp_bind _).mpr (wp_mono ?_ handles)
  rintro (error | key) last returned
  · exact raised error last
  · exact next key last returned.1 returned.2

theorem Handles.settles {program : Gateway R KeyObject} {rest : KeyObject → Gateway R Value}
    {id : Nat} (handles : Handles history id program)
    (next : ∀ key last, key.id = id → InHand last key → Settles last (rest key)) :
    Settles history (program.bind rest) :=
  handles.bind next fun _ _ => trivial

theorem wp_rollback : Handles history key.id (rollback (R := R) key) := by
  refine wp_put _ _ trivial fun reply => ?_
  cases reply with
  | none => trivial
  | some row => exact ⟨rfl, hand_reloaded key.id row⟩

/-- A commit without keys. -/
theorem writable_keyless {batch : Commit}
    (counts : batch.site = .quota → batch.client.isSome = true) (keyless : batch.keys = []) :
    Writable history batch := by
  have absent {key : KeyObject} {holds : Prop} (member : key ∈ batch.keys) : holds := by
    rw [keyless] at member
    cases member
  exact ⟨counts, fun _ member => absent member, fun _ member => absent member,
    fun _ member => absent member⟩

theorem demand_single {site : Site} {client : Option ClientObject} {columns : KeyColumns}
    (hand : InHand history key)
    (rewritten : Rewritten (Chilled history key) site key.loaded columns)
    (counts : site = .quota → client.isSome = true) :
    Demand history (.commit { site, keys := [{ key with current := columns }], client }) := by
  refine ⟨counts, fun one first two second _ => ?_, fun object member => ?_, fun object member => ?_⟩
  · rw [List.mem_singleton.mp first, List.mem_singleton.mp second]
  · rw [List.mem_singleton.mp member]
    exact hand.kept
  · rw [List.mem_singleton.mp member]
    exact rewritten

theorem hand_saved (site : Site) (client : Option ClientObject) (columns : KeyColumns) :
    InHand (history ++ [(⟨.commit
      { site, keys := [{ key with current := columns }], client }, true⟩ : Event (Op R) (Reply R))])
      (KeyObject.saved { key with current := columns }) := by
  refine ⟨?_, rfl⟩
  rw [rows_concat]
  simp [keep]

theorem wp_commit {post : Except Exn Value → Exchange R → Prop} (site : Site)
    (client : Option ClientObject) (key : KeyObject) {columns : KeyColumns}
    (rest : Bool → Gateway R Value)
    (hand : InHand history key)
    (rewritten : Rewritten (Chilled history key) site key.loaded columns)
    (counts : site = .quota → client.isSome = true)
    (written : ∀ last, InHand last (KeyObject.saved { key with current := columns }) →
      (rest true).wp watching post last)
    (failed : ∀ last, (rest false).wp watching post last) :
    ((query (.commit { site, keys := [{ key with current := columns }], client })).bind rest).wp
      watching post history := by
  refine wp_put _ _ (demand_single hand rewritten counts) fun reply => ?_
  cases reply with
  | true => exact written _ (hand_saved site client columns)
  | false => exact failed _

theorem wp_commitKey (site : Site) {columns : KeyColumns} (hand : InHand history key)
    (rewritten : Rewritten (Chilled history key) site key.loaded columns) (other : site ≠ .quota) :
    Handles history key.id (commitKey site { key with current := columns }) :=
  wp_commit site none key _ hand rewritten (fun same => absurd same other)
    (fun _ hand => ⟨rfl, hand⟩) fun _ => wp_rollback

theorem wp_disableKeyDecryptFailed (hand : InHand history key) :
    Handles history key.id (disableKeyDecryptFailed (R := R) key) :=
  wp_commitKey .decryptFailed hand (hand.clean ▸ .decryptFailed key.current) nofun

theorem wp_disableKey (hand : InHand history key) :
    Handles history key.id (disableKey (R := R) key) :=
  wp_commitKey .invalid hand (hand.clean ▸ .invalid key.current) nofun

/-- A key that is not skipped may be put to rest. -/
theorem usable_of_passed
    (passed : ¬ (!key.current.isActive || decide (key.current.status = "disabled")) = true) :
    key.current.isActive = true ∧ key.current.status ≠ "disabled" := by
  simpa using passed

theorem wp_markCooling (seconds : Int) (hand : InHand history key) :
    Handles history key.id (markCooling (R := R) key seconds) := by
  unfold markCooling
  split
  · exact ⟨rfl, hand⟩
  · rename_i passed
    refine wp_put _ _ trivial fun now => ?_
    have hand := hand.then .now now trivial
    dsimp only
    split
    · exact wp_rollback
    · rename_i until_ _
      have rewritten {chilled : Prop} : Rewritten chilled (.cooling seconds) key.loaded
          { key.current with status := "cooling", cooldownUntil := some until_ } :=
        hand.clean ▸ .cooling key.current seconds until_ (usable_of_passed passed)
      refine wp_commit _ none key _ hand rewritten nofun (fun last hand => ?_) fun last => ?_
      · exact wp_put _ _ trivial fun reply => ⟨rfl, hand.then (.setCooldown _ _) reply trivial⟩
      · exact wp_rollback

theorem wp_poolRecordFailure {post : Except Exn Value → Exchange R → Prop} (keyId : Nat)
    (reason : String) (statusCode : Option Int) (rest : Unit → Gateway R Value)
    (hand : InHand history key)
    (next : ∀ last, InHand last key → (rest ()).wp watching post last) :
    ((KeyPool.recordFailure (R := R) keyId reason statusCode).bind rest).wp watching post
      history := by
  unfold KeyPool.recordFailure
  split
  · refine wp_put _ _ trivial fun now => wp_put _ _ trivial fun entry => ?_
    refine wp_put _ _ trivial fun kept => ?_
    exact next _ (((hand.then .monotonic now trivial).then (.readFailure _) entry
      trivial).then (.keepFailures _) kept trivial)
  · exact next _ hand

theorem wp_recordFailure (setup : Setup R) (reason : String) (statusCode : Option Int)
    (hand : InHand history key) :
    Handles history key.id (recordFailure setup key reason statusCode) := by
  unfold recordFailure
  split
  · exact ⟨rfl, hand⟩
  · rename_i passed
    refine wp_poolRecordFailure _ _ _ _ hand fun last hand => ?_
    refine wp_put _ _ trivial fun now => wp_put _ _ trivial fun entry => ?_
    refine wp_put _ _ trivial fun kept => ?_
    have hand := ((hand.then .now now trivial).then (.readWindow _) entry
      trivial).then (.keepWindow _ _ _) kept trivial
    split
    · exact ⟨rfl, hand⟩
    · split
      · exact wp_rollback
      · rename_i until_ _
        exact wp_commitKey .failed hand
          (hand.clean ▸ .failed key.current until_ (usable_of_passed passed)) nofun

theorem wp_zeroCredits (hand : InHand history key) :
    Settles history (zeroCredits (R := R) key) := by
  unfold zeroCredits
  exact wp_commit .zeroCredits none key _ hand (hand.clean ▸ .zeroCredits key.current) nofun
    (fun _ _ => trivial) fun _ => trivial

theorem Chilled.then (chilled : Chilled history key) (more : Exchange R) :
    Chilled (history ++ more) key := by
  obtain ⟨front, secret, json, text, back, kept, rfl⟩ := chilled
  exact ⟨front, secret, json, text, back ++ more, kept, by simp⟩

/-- The result of a probe of the object in hand. -/
theorem InHand.chilled {foreign : Foreign} {secret : String} {clock : Instant} {reply : ProbeReply}
    {result : CreditFetchResult} (hand : InHand history key)
    (read : readProbe foreign key.id clock reply = .ok result) (cooling : result.kind = .cooling) :
    Chilled (history ++ [(⟨.probe key.id secret, reply⟩ : Event (Op R) (Reply R))]) key := by
  obtain ⟨json, text, rfl⟩ := KeyVerdicts.readProbe_cooling read cooling
  exact ⟨history, secret, json, text, [], hand.kept, rfl⟩

/-- The exchange has grown by questions after which the session keeps the same rows. -/
structure Still (before after : Exchange R) : Prop where
  rows : rows after = rows before
  grown : ∃ more, after = before ++ more

theorem Still.then {before after : Exchange R} (still : Still before after) (op : Op R)
    (reply : Reply R op) (apart : Apart op) : Still before (after ++ [⟨op, reply⟩]) := by
  obtain ⟨more, rfl⟩ := still.grown
  exact ⟨(rows_apart _ op reply apart).trans still.rows, _, List.append_assoc _ _ _⟩

theorem Still.hand {before after : Exchange R} (still : Still before after)
    (hand : InHand before key) : InHand after key :=
  ⟨by rw [still.rows, hand.kept], hand.clean⟩

theorem Still.chilled {before after : Exchange R} (still : Still before after)
    (chilled : Chilled before key) : Chilled after key := by
  obtain ⟨more, rfl⟩ := still.grown
  exact chilled.then more

/-- Applying a result keeps the object in hand until it is committed. -/
theorem keepsApply (before : Exchange R) :
    KeepsApply (watching (R := R)) (Still before) := by
  constructor
  · rintro events still
    refine ⟨trivial, fun reply last moved => ?_⟩
    rw [show last = _ from moved]
    exact still.then .now reply trivial
  · rintro snapshot events still
    refine ⟨trivial, fun reply last moved => ?_⟩
    rw [show last = _ from moved]
    exact still.then (.flushSnapshot snapshot) reply trivial

theorem Still.refl (events : Exchange R) : Still events events :=
  ⟨rfl, [], (List.append_nil _).symm⟩

theorem wp_applyAndCommit (config : AppConfig R) (result : CreditFetchResult)
    (hand : InHand history key) (cold : result.kind = .cooling → Chilled history key) :
    Handles history key.id (applyAndCommit config key result) := by
  unfold applyAndCommit
  simp only [bind_eq, pure_eq]
  refine (wp_bind _).mpr ?_
  rw [wp_attempt, wp_bind]
  refine wp_apply config key result (keepsApply history) (Still.refl history) ?_ ?_
  · intro columns last still applied
    have hand := still.hand hand
    have rewritten : Rewritten (Chilled last key) .creditResult key.loaded columns :=
      .creditResult result (hand.clean ▸ applied) fun cooling => still.chilled (cold cooling)
    exact wp_commitKey .creditResult hand rewritten nofun
  · exact fun last _ => wp_rollback

theorem wp_refreshCreditsAfter4xx (foreign : Foreign) (config : AppConfig R)
    (given : Option Bytes) (hand : InHand history key) :
    Handles history key.id (refreshCreditsAfter4xx foreign config given key) := by
  unfold refreshCreditsAfter4xx
  simp only [bind_eq, pure_eq]
  split
  · exact ⟨rfl, hand⟩
  split
  · exact ⟨rfl, hand⟩
  split
  · exact ⟨rfl, hand⟩
  refine wp_put _ _ trivial fun now => wp_put _ _ trivial fun last => ?_
  have hand := (hand.then .monotonic now trivial).then (.readRefresh _) last trivial
  split
  · exact ⟨rfl, hand⟩
  refine wp_put _ _ trivial fun kept => ?_
  have hand := hand.then (.keepRefresh _ _) kept trivial
  split
  · refine wp_put _ _ trivial fun clock => ?_
    exact wp_applyAndCommit config _ (hand.then .now clock trivial) nofun
  · refine wp_put _ _ trivial fun clock => wp_put _ _ trivial fun reply => ?_
    have asked := hand.then .now clock trivial
    have hand := asked.then (.probe _ _) reply trivial
    split
    · exact ⟨rfl, hand⟩
    · rename_i result read
      exact wp_applyAndCommit config _ hand (asked.chilled read)

theorem wp_refreshCreditsOn4xx (setup : Setup R) (statusCode : Int) (hand : InHand history key) :
    Handles history key.id (refreshCreditsOn4xx setup key statusCode) := by
  unfold refreshCreditsOn4xx
  exact wp_poolRecordFailure _ _ _ _ hand fun _ hand => wp_refreshCreditsAfter4xx _ _ _ hand

/-- The object in hand counts a success; its credits may have been estimated. -/
theorem wp_consumeQuotaOnSuccess (client : ClientObject) (credits : Option Int)
    (hand : InHand history key) :
    Settles history (consumeQuotaOnSuccess (R := R) client
      { key with current := { key.current with cachedRemainingCredits := credits } }) := by
  unfold consumeQuotaOnSuccess
  refine wp_put _ _ trivial fun usedAt => wp_put _ _ trivial fun keyUsedAt => ?_
  have hand := (hand.then .now usedAt trivial).then .now keyUsedAt trivial
  refine wp_commit .quota _ key _ hand (hand.clean ▸ .quota key.current credits keyUsedAt)
    (fun _ => rfl) (fun _ _ => trivial) fun last => ?_
  exact Handles.settles wp_rollback fun _ _ _ _ => trivial

theorem wp_countUsage (setup : Setup R) (client : ClientObject) (estimate : Option Int)
    (hand : InHand history key) : Settles history (countUsage setup client key estimate) := by
  unfold countUsage
  split
  · cases estimate with
    | none => exact wp_consumeQuotaOnSuccess client key.current.cachedRemainingCredits hand
    | some remaining => exact wp_consumeQuotaOnSuccess client (some remaining) hand
  · cases estimate with
    | none => trivial
    | some remaining =>
      refine Handles.settles (wp_commitKey .localCredits hand ?_ nofun) fun _ _ _ _ => trivial
      exact hand.clean ▸ .localCredits key.current remaining

theorem wp_settleResponse (setup : Setup R) (call : Call) (resp : UpstreamResponse)
    (hand : InHand history key) : Settles history (settleResponse setup call key resp) := by
  unfold settleResponse
  split
  · refine (wp_bind _).mpr (wp_mono ?_ (wp_countUsage setup call.client _ hand))
    rintro (error | _) last _
    · trivial
    · exact wp_put _ _ trivial fun _ => trivial
  · trivial

/-- A response that came back while the object was in hand. -/
def Answered (key : KeyObject) : Except Exn UpstreamResponse → Exchange R → Prop
  | .ok _, last => InHand last key
  | .error _, _ => True

theorem wp_sendUpstream (setup : Setup R) (call : Call) (secret : String)
    (hand : InHand history key) :
    (sendUpstream setup call key secret).wp watching (Answered key) history := by
  unfold sendUpstream
  refine wp_put _ _ trivial fun reply => ?_
  have hand := hand.then (.request _ _) reply trivial
  cases reply with
  | response resp => exact hand
  | timeout =>
    exact (wp_recordFailure setup _ _ hand).bind (fun _ _ _ _ => trivial) fun _ _ => trivial
  | httpError text =>
    exact (wp_recordFailure setup _ _ hand).bind (fun _ _ _ _ => trivial) fun _ _ => trivial
  | other => trivial

/-- The lease is released whatever the outcome is. -/
theorem wp_released {program : Gateway R Value} {post : Except Exn Value → Exchange R → Prop}
    (keyId : Nat) (met : program.wp watching
      (fun outcome last => ∀ reply, post outcome (last ++ [⟨.release keyId, reply⟩])) history) :
    (program.ensuring (query (.release keyId))).wp watching post history := by
  refine (wp_ensuring _).mpr (wp_mono ?_ met)
  intro outcome last holds
  refine wp_put _ _ trivial fun reply => ?_
  have ended := holds reply
  cases outcome <;> exact ended

theorem wp_pinnedRequest (setup : Setup R) (call : Call) (hand : InHand history key) :
    (pinnedRequest setup call masterKey key).wp watching (Answered key) history := by
  unfold pinnedRequest
  refine wp_released key.id ?_
  split
  · exact (wp_disableKeyDecryptFailed hand).bind (fun _ _ _ _ _ => trivial) fun _ _ _ => trivial
  · refine wp_mono ?_ (wp_sendUpstream setup call _ hand)
    rintro (error | resp) last answered reply
    · trivial
    · exact InHand.then answered (.release _) reply trivial

/-- The response to the request of the pool, where there was one. -/
def Polled (key : KeyObject) : Except Exn (Option UpstreamResponse) → Exchange R → Prop
  | .ok (some _), last => InHand last key
  | _, _ => True

theorem wp_poolRequest (setup : Setup R) (call : Call) (hand : InHand history key) :
    (poolRequest setup call masterKey key).wp watching (Polled key) history := by
  unfold poolRequest
  refine wp_released key.id ?_
  split
  · exact (wp_disableKeyDecryptFailed hand).bind (fun _ _ _ _ _ => trivial) fun _ _ _ => trivial
  · refine (wp_bind _).mpr (wp_mono ?_ (wp_sendUpstream setup call _ hand))
    rintro (error | resp) last answered reply
    · trivial
    · exact InHand.then answered (.release _) reply trivial

/-- The objects that a failed selection left changed may be committed with the session. -/
abbrev Unsaved (events : Exchange R) (objects : List KeyObject) : Prop :=
  Writable events { site := .reactivate, keys := objects }

theorem unsaved_nil (events : Exchange R) : Unsaved events [] := writable_keyless nofun rfl

/-- How a turn ends: with a result, it leaves only objects that may be committed. -/
def Left : Except Exn (Turn (ForwardResult R) (Progress R)) → Exchange R → Prop
  | .ok (.leave result), last => Unsaved last result.unsaved
  | _, _ => True

theorem left_failOver (call : Call) (progress : Progress R) (keyId : Nat) (resp : UpstreamResponse)
    (events : Exchange R) : Left (.ok (failOver call progress keyId resp)) events := by
  unfold failOver
  dsimp only
  split
  · exact unsaved_nil events
  · trivial

theorem wp_poolResponse (call : Call) (progress : Progress R) (resp : UpstreamResponse)
    (hand : InHand history key) :
    (poolResponse setup call progress key resp).wp watching Left history := by
  unfold poolResponse
  split
  · refine (wp_refreshCreditsOn4xx setup _ hand).bind
      (fun refreshed _ _ hand => ?_) fun _ _ => trivial
    exact (wp_markCooling _ hand).bind (fun _ last _ _ => left_failOver call _ _ resp last)
      fun _ _ => trivial
  · refine (wp_refreshCreditsOn4xx setup _ hand).bind
      (fun refreshed _ _ hand => ?_) fun _ _ => trivial
    refine (wp_bind _).mpr (wp_mono ?_ (wp_zeroCredits hand))
    rintro (error | _) last _
    · trivial
    · exact left_failOver call _ _ resp last
  · refine (wp_refreshCreditsOn4xx setup _ hand).bind
      (fun refreshed _ _ hand => ?_) fun _ _ => trivial
    exact (wp_disableKey hand).bind (fun _ last _ _ => left_failOver call _ _ resp last)
      fun _ _ => trivial
  · exact (wp_recordFailure setup _ _ hand).bind (fun _ last _ _ => unsaved_nil last)
      fun _ _ => trivial
  · refine (wp_bind _).mpr (wp_mono ?_ (wp_settleResponse setup call resp hand))
    rintro (error | _) last _
    · trivial
    · exact unsaved_nil last

/-- How an attempt with the pinned key ends. -/
def Attempted : Except Exn (Turn (ForwardResult R) (KeyObject × Progress R)) → Exchange R → Prop
  | .ok (.again loop), last => InHand last loop.1
  | .ok (.leave result), last => Unsaved last result.unsaved
  | .error _, _ => True

theorem wp_pinnedTurn (call : Call) (attempt : Nat) (progress : Progress R)
    (hand : InHand history key) :
    (pinnedTurn setup call masterKey attempt (key, progress)).wp watching Attempted history := by
  unfold pinnedTurn
  refine wp_put _ _ trivial fun limited => ?_
  have hand := hand.then (.allow _ _) limited trivial
  rcases limited with _ | ⟨_ | _, retryAfter⟩
  · trivial
  · trivial
  refine wp_put _ _ trivial fun slot => ?_
  have hand := hand.then (.acquire _ _) slot trivial
  rcases slot with _ | _ | _
  · trivial
  · trivial
  refine (wp_bind _).mpr (wp_mono ?_ (wp_pinnedRequest setup call hand))
  rintro (error | resp) middle answered
  · trivial
  have hand : InHand middle key := answered
  simp only [thenPost]
  split
  · refine (wp_refreshCreditsOn4xx setup _ hand).bind
      (fun refreshed _ _ hand => ?_) fun _ _ => trivial
    refine (wp_markCooling _ hand).bind (fun cooled stop _ hand => ?_) fun _ _ => trivial
    split
    · exact unsaved_nil stop
    · exact hand
  · refine (wp_refreshCreditsOn4xx setup _ hand).bind
      (fun refreshed _ _ hand => ?_) fun _ _ => trivial
    exact (wp_disableKey hand).bind (fun _ last _ _ => unsaved_nil last) fun _ _ => trivial
  · exact (wp_recordFailure setup _ _ hand).bind (fun _ last _ _ => unsaved_nil last)
      fun _ _ => trivial
  · split
    · rename_i credit
      -- a response about missing credits is no success, so nothing is counted for it
      have failed : ¬ isSuccess resp.statusCode = true := by
        intro success
        rw [(classify_ok_iff resp).mpr success] at credit
        cases credit
      refine (wp_refreshCreditsOn4xx setup _ hand).bind
        (fun refreshed _ _ hand => ?_) fun _ _ => trivial
      refine (wp_bind _).mpr (wp_mono ?_ (wp_zeroCredits hand))
      rintro (error | _) last _
      · trivial
      · simp only [thenPost, settleResponse, failed]
        exact unsaved_nil last
    · refine (wp_bind _).mpr (wp_mono ?_ (wp_settleResponse setup call resp hand))
      rintro (error | _) last _
      · trivial
      · exact unsaved_nil last

theorem wp_pinnedLoop (call : Call) (left : Nat) (progress : Progress R)
    (hand : InHand history key) :
    (pinnedLoop setup call masterKey left (key, progress)).wp watching Left history := by
  induction left generalizing key progress history with
  | zero => trivial
  | succ left ih =>
    unfold pinnedLoop
    refine (wp_bind _).mpr (wp_mono ?_ (wp_pinnedTurn call _ progress hand))
    rintro (error | result | loop) last attempted
    · trivial
    · exact attempted
    · exact ih loop.2 attempted

/-- One row has one object. -/
theorem listed_unique {keys : Table KeyColumns} {provider : String} {one two : KeyObject}
    (first : one ∈ KeyPool.providerKeys keys provider)
    (second : two ∈ KeyPool.providerKeys keys provider) (same : one.id = two.id) : one = two := by
  obtain ⟨found, clean, _⟩ := KeyPool.mem_providerKeys.mp first
  obtain ⟨there, fresh, _⟩ := KeyPool.mem_providerKeys.mp second
  rw [same, there] at found
  have columns := Option.some.inj found
  cases one
  cases two
  simp_all

/-- The objects that a scan reactivates are as the pool was read, but for their cooldown. -/
theorem demand_reactivated {view : PoolView R} {weights : KeyPool.Weights R} {provider : String}
    {exclude : List Nat} (kept : rows history = view.keys.get?) :
    Demand history (.commit
      { site := .reactivate
        keys := (KeyPool.scanKeys view weights provider exclude).reactivated }) := by
  refine ⟨nofun, fun one first two second same => ?_, fun key member => ?_, fun key member => ?_⟩
  · obtain ⟨loaded, listed, rfl, _⟩ := KeyPool.reactivated_rested first
    obtain ⟨other, among, rfl, _⟩ := KeyPool.reactivated_rested second
    exact congrArg KeyPool.reactivate (listed_unique listed among same)
  · obtain ⟨loaded, listed, rfl, _⟩ := KeyPool.reactivated_rested member
    rw [kept]
    exact (KeyPool.mem_providerKeys.mp listed).1
  · obtain ⟨loaded, listed, rfl, _, enabled, _⟩ := KeyPool.reactivated_rested member
    change Rewritten _ .reactivate loaded.loaded (KeyPool.reactivate loaded).current
    rw [← (KeyPool.mem_providerKeys.mp listed).2.1]
    exact .reactivate loaded enabled

/-- The object of a selection after the reactivated rows were committed. -/
theorem hand_selected {view : PoolView R} {weights : KeyPool.Weights R} {provider : String}
    {exclude : List Nat} {selected : KeyPool.SelectedKey R}
    (decided : KeyPool.decision view weights provider exclude = .ok selected)
    (kept : rows history = view.keys.get?) :
    InHand (history ++ [(⟨.commit
      { site := .reactivate
        keys := (KeyPool.scanKeys view weights provider exclude).reactivated }, true⟩ :
        Event (Op R) (Reply R))]) selected.apiKey.saved := by
  refine ⟨?_, rfl⟩
  obtain ⟨_, candidate, member, chosen⟩ := KeyPool.decision_candidate decided
  obtain ⟨key, listed, same, _⟩ := KeyPool.candidate_eligible member
  obtain ⟨found, clean, _⟩ := KeyPool.mem_providerKeys.mp listed
  rw [rows_concat, kept]
  change (((KeyPool.scanKeys view weights provider exclude).reactivated.find?
    fun object => object.id = selected.apiKey.id).map KeyObject.current).or
      (view.keys.get? selected.apiKey.id) = some selected.apiKey.current
  rw [chosen]
  cases search : (KeyPool.scanKeys view weights provider exclude).reactivated.find?
      fun object => object.id = candidate.2.id with
  | some object =>
    -- one row has one object, and a reactivated one was resting
    obtain ⟨loaded, other, rfl, _, _, cooling, _⟩ :=
      KeyPool.reactivated_rested (List.mem_of_find?_eq_some search)
    have equal : loaded.id = key.id := by
      have equal := List.find?_some search
      simp only [decide_eq_true_eq, same, KeyPool.id_settled] at equal
      exact equal
    obtain rfl := listed_unique other listed equal
    rw [same, KeyPool.settled, if_pos cooling]
    rfl
  | none =>
    have unwritten := List.find?_eq_none.mp search
    rcases KeyPool.candidate_written member with untouched | written
    · rw [untouched, same, KeyPool.id_settled, KeyPool.loaded_settled]
      exact found
    · exact absurd (decide_eq_true rfl) (unwritten _ written)

/-- How a selection ends. -/
def Selected : Except Exn (Except KeyPool.Unselected (KeyPool.SelectedKey R)) → Exchange R → Prop
  | .ok (.ok selected), last => InHand last selected.apiKey
  | .ok (.error failed), last => Unsaved last failed.unsaved
  | .error _, _ => True

theorem wp_select (config : AppConfig R) (runtime : Option (RuntimeScheduling R))
    (provider : String) (exclude : List Nat) :
    (KeyPool.select config runtime provider exclude).wp watching Selected history := by
  unfold KeyPool.select
  refine wp_put _ _ trivial fun found => ?_
  cases found with
  | none => exact unsaved_nil _
  | some view =>
    refine wp_put _ _ trivial fun stored => ?_
    have kept : rows (history ++ [⟨.readPool provider exclude, some view⟩] ++
        [(⟨.keepFailures (KeyPool.scanKeys view (KeyPool.weights config runtime) provider
          exclude).failures, stored⟩ : Event (Op R) (Reply R))]) = view.keys.get? := by
      rw [rows_apart _ (.keepFailures _) stored trivial, rows_concat]
      rfl
    split
    · exact demand_reactivated kept
    · rename_i selected decided
      have committed {last : Exchange R} (kept : rows last = view.keys.get?) :
          ((query (.commit { site := .reactivate, keys := (KeyPool.scanKeys view
            (KeyPool.weights config runtime) provider exclude).reactivated })).bind fun written =>
            if written then (.done (.ok { selected with apiKey := selected.apiKey.saved }) :
                Gateway R (Except KeyPool.Unselected (KeyPool.SelectedKey R)))
            else (rollback selected.apiKey).bind fun _ =>
              .done (.error { error := dbUnavailable })).wp watching Selected last := by
        refine wp_put _ _ (demand_reactivated kept) fun written => ?_
        cases written with
        | true => exact hand_selected decided kept
        | false => exact Handles.bind wp_rollback (fun _ last _ _ => unsaved_nil last) fun _ _ => trivial
      split
      · refine wp_put _ _ trivial fun stored => committed ?_
        rw [rows_apart _ (.keepCursor _ _) stored trivial, kept]
      · exact committed kept

theorem wp_selectedTurn (call : Call) (progress : Progress R) (hand : InHand history key) :
    (selectedTurn setup call masterKey progress key).wp watching Left history := by
  unfold selectedTurn
  refine wp_put _ _ trivial fun limited => ?_
  have hand := hand.then (.allow _ _) limited trivial
  rcases limited with _ | ⟨_ | _, retryAfter⟩
  · trivial
  · trivial
  refine wp_put _ _ trivial fun slot => ?_
  have hand := hand.then (.acquire _ _) slot trivial
  rcases slot with _ | _ | _
  · trivial
  · trivial
  refine (wp_bind _).mpr (wp_mono ?_ (wp_poolRequest setup call hand))
  rintro (error | _ | resp) last polled
  · trivial
  · trivial
  · exact wp_poolResponse call _ resp polled

theorem wp_poolTurn (call : Call) (progress : Progress R) :
    (poolTurn setup call masterKey progress).wp watching Left history := by
  unfold poolTurn
  refine (wp_bind _).mpr (wp_mono ?_ (wp_select setup.config setup.runtime call.provider _))
  rintro (error | failed | selected) last found
  · trivial
  · simp only [thenPost]
    split
    · trivial
    · split
      · split
        · exact found
        · trivial
      · trivial
  · exact wp_selectedTurn call _ found

/-- How a forward ends: its result leaves only objects that may be committed. -/
def Forwarded : Except Exn (ForwardResult R) → Exchange R → Prop
  | .ok result, last => Unsaved last result.unsaved
  | .error _, _ => True

theorem wp_afterPool (call : Call) (progress : Progress R) :
    (afterPool setup call progress).wp watching Forwarded history := by
  unfold afterPool
  split
  · trivial
  · split
    · exact unsaved_nil history
    · trivial

theorem wp_poolLoop (call : Call) (left : Nat) (progress : Progress R) :
    (poolLoop setup call masterKey left progress).wp watching Forwarded history := by
  induction left generalizing progress history with
  | zero => exact wp_afterPool call progress
  | succ left ih =>
    unfold poolLoop
    split
    · refine (wp_bind _).mpr (wp_mono ?_ (wp_poolTurn call progress))
      rintro (error | result | progress) last turned
      · trivial
      · exact turned
      · exact ih progress
    · exact wp_afterPool call progress

theorem wp_pinnedBranch (call : Call) :
    (pinnedBranch setup call masterKey).wp watching Left history := by
  unfold pinnedBranch
  split
  · trivial
  · rename_i id _
    refine wp_put _ _ trivial fun found => ?_
    rcases found with _ | _ | row
    · trivial
    · trivial
    · dsimp only
      split
      · exact wp_pinnedLoop call _ _ (hand_found id row)
      · trivial

/-- Every commit of a forward is made with objects as the session keeps their rows, and changes what
its place says. -/
theorem wp_forward (setup : Setup R) (call : Call) :
    (forward setup call).wp watching Forwarded history := by
  unfold forward
  split
  · trivial
  · split
    · trivial
    · refine (wp_bind _).mpr (wp_mono ?_ (wp_pinnedBranch call))
      rintro (error | result | progress) last turned
      · trivial
      · exact turned
      · exact wp_poolLoop call _ progress

end FcamGateway.KeyWrites
