import FcamGateway.ForwardQuiet
import FcamGateway.KeyAdmin
import FcamGateway.KeyStore
import FcamGateway.Selection

/-! What reviving a key repairs. A revived key that passes its test is enabled and rests no
more, but its credits are what they were: a key that was condemned was left with none, and
is passed over as before. -/
namespace FcamGateway.KeyAdmin
open Prog Upstream Forwarder KeyPool

set_option linter.unusedSectionVars false

variable {R : Type} [Field R] [LinearOrder R] [ScoreMath R]

/-- No test of the filter loop rejects the row, but perhaps that of the request rate. -/
structure Schedulable (view : PoolView R) (key : KeyObject) : Prop where
  enabled : isDisabled key.current = false
  rested : isCooling key.current = true → remainingSeconds view key ≤ 0
  funded : key.current.cachedRemainingCredits.any (· ≤ 0) = false

theorem eligible_iff {view : PoolView R} {exclude : List Nat} {key : KeyObject} :
    Eligible view exclude key ↔
      key.id ∉ exclude ∧ Schedulable view key ∧ rpmAllows view key.id key.current = true := by
  constructor
  · rintro ⟨kept, enabled, rested, funded, allowed⟩
    exact ⟨kept, ⟨enabled, rested, funded⟩, allowed⟩
  · rintro ⟨kept, ⟨enabled, rested, funded⟩, allowed⟩
    exact ⟨kept, enabled, rested, funded, allowed⟩

/-- Whenever a selection looks at the table, only the request rate can keep the key from it. -/
def Serves (R : Type) [Field R] [LinearOrder R] (keys : Table KeyColumns) (id : Nat) : Prop :=
  ∃ row, keys.get? id = some row ∧ ∀ view : PoolView R, Schedulable view (.fresh id row)

/-- What reviving leaves of a row that had these credits. -/
structure RevivedRow (credits : Option Int) (row : KeyColumns) : Prop where
  active : row.isActive = true
  status : row.status = "active"
  rested : row.cooldownUntil = none
  credits : row.cachedRemainingCredits = credits

def Revived (id : Nat) (credits : Option Int) (keys : Table KeyColumns) : Prop :=
  ∃ row, keys.get? id = some row ∧ RevivedRow credits row

theorem revivedRow_schedulable {credits : Option Int} {row : KeyColumns}
    (revived : RevivedRow credits row) (funded : credits.any (· ≤ 0) = false) (id : Nat)
    (view : PoolView R) : Schedulable view (.fresh id row) := by
  constructor
  · change isDisabled row = false
    simp only [isDisabled, revived.active, revived.status]
    decide
  · intro cooling
    change isCooling row = true at cooling
    simp only [isCooling, revived.status, revived.rested] at cooling
    exact absurd cooling (by decide)
  · exact (congrArg _ revived.credits).trans funded

/-- A revived row is served exactly if its credits are unknown or positive. -/
theorem serves_iff {credits : Option Int} {keys : Table KeyColumns} {id : Nat}
    (revived : Revived id credits keys) : Serves R keys id ↔ credits.any (· ≤ 0) = false := by
  obtain ⟨row, found, whole⟩ := revived
  constructor
  · rintro ⟨same, present, schedulable⟩
    cases found.symm.trans present
    rw [← whole.credits]
    exact (schedulable
      { keys, now := 0, storeRemaining := fun _ => none, peek := fun _ _ => none
        failures := fun _ => none, monotonic := fun _ => 0, cursor := 0, roll := 0, draw := 0 }).funded
  · exact fun funded => ⟨row, found, revivedRow_schedulable whole funded id⟩

def replySucceeds : UpstreamReply → Bool
  | .response resp => isSuccess resp.statusCode
  | _ => false

/-- The upstream answers a request with success. -/
def succeeds : Event (Op R) (Reply R) → Bool
  | ⟨.request _ _, reply⟩ => replySucceeds reply
  | _ => false

/-- The store, and whether the upstream answered with success so far. -/
def testing : Monitor (Store × Bool) (Op R) (Reply R) where
  demands _ _ := True
  moves state event last :=
    state.1.moves event last.1 ∧ last.2 = (state.2 || succeeds event)

theorem follows_testing {store last : Store} {events : List (Event (Op R) (Reply R))}
    (followed : Follows Store.moves store events last) (before : Bool) :
    Follows testing.moves (store, before) events (last, before || events.any succeeds) := by
  induction followed generalizing before with
  | nil =>
    rw [List.any_nil, Bool.or_false]
    exact .nil
  | @cons store event middle events last moved _ ih =>
    rw [List.any_cons, ← Bool.or_assoc]
    have step : testing.moves (store, before) event (middle, before || succeeds event) :=
      ⟨moved, rfl⟩
    exact .cons step (ih _)

/-- If the test succeeded, the row stands as it was revived. -/
def Stands (id : Nat) (credits : Option Int) (state : Store × Bool) : Prop :=
  state.2 = true → Revived id credits state.1.keys

variable {id : Nat} {credits : Option Int} {state : Store × Bool} {key : KeyObject}

/-- What puts no request does not make a test succeed. -/
theorem wp_unasked {program : Gateway R Value} {returns : Value → Prop}
    (asks : program.Asks Quiet Mild returns) (unseen : state.2 = false) :
    program.wp testing (fun _ last => last.2 = false) state := by
  have keeps (op : Op R) (quiet : Quiet op) :
      testing.Keeps (fun state : Store × Bool => state.2 = false) op := by
    refine fun state held => ⟨trivial, fun reply last moved => moved.2.trans ?_⟩
    have unseen : state.2 = false := held
    rw [unseen]
    cases op <;> first | rfl | exact absurd quiet not_false
  apply wp_mono _ (wp_asks asks keeps unseen)
  rintro (error | value) last ended
  · exact ended.1
  · exact ended.1

/-- A row object that is not assigned anything. -/
def Clean (id : Nat) (key : KeyObject) : Prop := key.id = id ∧ key.current = key.loaded

theorem wp_rollback_testing (key : KeyObject) :
    (rollback (R := R) key).wp testing (fun outcome last => last.1 = state.1 ∧
      ∀ after, outcome = .ok after → Clean key.id after) state := by
  refine ⟨trivial, fun row last step => ?_⟩
  obtain ⟨moved, _⟩ := step
  cases row with
  | none => exact ⟨moved.1, fun after ended => by cases ended⟩
  | some row =>
    refine ⟨moved.1, fun after ended => ?_⟩
    cases ended
    exact ⟨rfl, rfl⟩

/-- After a success the row is marked active, as it is already. -/
theorem wp_markActive_revived (found : state.1.keys.get? key.id = some key.loaded)
    (revived : RevivedRow credits key.loaded) (clean : key.current = key.loaded) :
    (markActive (R := R) key).wp testing (fun outcome last =>
      Revived key.id credits last.1.keys ∧ ∀ after, outcome = .ok after → Clean key.id after)
      state := by
  have passes : (!key.current.isActive || key.current.status = "disabled") = false := by
    rw [clean, revived.active, revived.status]
    decide
  unfold markActive
  rw [if_neg (by simp [passes])]
  refine ⟨trivial, fun written last step => ?_⟩
  obtain ⟨moved, _⟩ := step
  obtain ⟨rfl, -, same⟩ | ⟨rfl, same⟩ := moved
  · refine ⟨⟨{ key.current with status := "active", cooldownUntil := none }, ?_, ?_⟩,
      fun after ended => ?_⟩
    · rw [same]
      exact Store.get_flushKey_loaded found
    · rw [clean]
      exact ⟨revived.active, rfl, rfl, revived.credits⟩
    · cases ended
      exact ⟨rfl, rfl⟩
  · apply wp_mono _ (wp_rollback_testing _)
    rintro outcome later ⟨still, clean⟩
    refine ⟨?_, clean⟩
    rw [still, same]
    exact ⟨key.loaded, found, revived⟩

/-- How a test leaves the row and its object. -/
def TestedKey (id : Nat) (credits : Option Int) :
    Except Exn (KeyTestResult × KeyObject) → Store × Bool → Prop
  | .ok (_, key), last => Stands id credits last ∧ (last.2 = true → Clean id key)
  | .error _, last => Stands id credits last

/-- Without a success there is nothing to show. -/
theorem wp_testUnasked {program : Gateway R (KeyTestResult × KeyObject)}
    (asks : program.Asks Quiet Mild fun _ => True) (unseen : state.2 = false) :
    program.wp testing (TestedKey id credits) state := by
  apply wp_mono _ (wp_unasked asks unseen)
  intro outcome last still
  have never : last.2 ≠ true := fun seen => Bool.false_ne_true (still.symm.trans seen)
  cases outcome with
  | error error => exact fun seen => absurd seen never
  | ok value => exact ⟨fun seen => absurd seen never, fun seen => absurd seen never⟩

/-- A test that ends with one function on its row object. -/
theorem asks_tested {program : Gateway R KeyObject} (ok : Bool) (status : Option Int)
    (asks : QuietKey id program) :
    (program.bind fun key => (.done (tested key ok status) : Gateway R _)).Asks Quiet Mild
      fun _ => True :=
  asks_bind asks fun _ _ => trivial

/-- The row object of a revived row at the beginning of its test. -/
structure Underway (credits : Option Int) (store : Store) (key : KeyObject) : Prop where
  found : store.keys.get? key.id = some key.loaded
  revived : RevivedRow credits key.loaded
  clean : key.current = key.loaded

theorem wp_testActive (underway : Underway credits state.1 key) (status : Option Int) :
    ((markActive (R := R) key).bind fun key => .done (tested key true status)).wp testing
      (TestedKey key.id credits) state := by
  apply (wp_bind _).mpr
  apply wp_mono _ (wp_markActive_revived underway.found underway.revived underway.clean)
  rintro (error | after) last ⟨revived, clean⟩
  · exact fun _ => revived
  · exact ⟨fun _ => revived, fun _ => clean after rfl⟩

theorem wp_testResponse_revived (control : ControlPlane R) (resp : UpstreamResponse)
    (underway : Underway credits state.1 key) (seen : state.2 = isSuccess resp.statusCode) :
    (testResponse control key resp).wp testing (TestedKey key.id credits) state := by
  unfold testResponse
  split
  · exact wp_testActive underway _
  · next failed =>
    have unseen : state.2 = false := by simpa [seen] using failed
    split
    · exact wp_testUnasked (asks_tested false _ (quiet_of_about (about_markCooling key _))) unseen
    · split
      · exact wp_testUnasked (asks_tested false _ (quiet_of_about (about_disableKey key))) unseen
      · split
        · exact wp_testUnasked
            (asks_tested false _ (quiet_of_about (about_recordFailure control.setup key _ _))) unseen
        · apply wp_testUnasked _ unseen
          trivial

theorem wp_testResponseExa_revived (control : ControlPlane R) (resp : UpstreamResponse)
    (underway : Underway credits state.1 key) (seen : state.2 = isSuccess resp.statusCode) :
    (testResponseExa control key resp).wp testing (TestedKey key.id credits) state := by
  -- one of the tests that are made one after the other
  have about {chosen : Prop} [Decidable chosen] {current : KeyObject}
      {program : KeyObject → Gateway R KeyObject}
      {rest : KeyObject → Gateway R (KeyTestResult × KeyObject)} (same : current.id = key.id)
      (asks : ∀ current, AboutKey current.id (program current))
      (next : ∀ after, after.id = key.id → (rest after).Asks (About key.id) Mild fun _ => True) :
      (if chosen then (program current).bind rest else rest current).Asks (About key.id) Mild
        fun _ => True := by
    split
    · exact asks_bind (same ▸ asks current) next
    · exact next current same
  unfold testResponseExa
  split
  · exact wp_testActive underway _
  · next failed =>
    have unseen : state.2 = false := by simpa [seen] using failed
    apply wp_testUnasked (quiet_of_about _) unseen
    · exact key.id
    · apply about rfl fun current => about_markCooling current _
      intro current same
      apply about same fun current => about_disableKey current
      intro current same
      apply about same fun current => about_recordFailure control.setup current _ _
      intro current same
      trivial

theorem moves_request {reply : UpstreamReply} {sent : UpstreamRequest} {last : Store × Bool}
    (unseen : state.2 = false)
    (moved : testing.moves state ⟨(.request id sent : Op R), reply⟩ last) :
    last.1 = state.1 ∧ last.2 = replySucceeds reply := by
  refine ⟨moved.1, ?_⟩
  rw [moved.2, unseen]
  rfl

/-- What the requests of a test come to. -/
theorem wp_tryPaths_revived (sent : String → UpstreamRequest) (path : String) (rest : List String)
    (unseen : state.2 = false) :
    (tryPaths (R := R) id sent path rest).wp testing (fun outcome last => last.1 = state.1 ∧
      ∃ reply, outcome = .ok reply ∧ last.2 = replySucceeds reply) state := by
  induction rest generalizing path state with
  | nil =>
    refine ⟨trivial, fun reply last moved => ?_⟩
    obtain ⟨store, seen⟩ := moves_request unseen moved
    exact ⟨store, reply, rfl, seen⟩
  | cons next rest ih =>
    refine ⟨trivial, fun reply last moved => ?_⟩
    obtain ⟨store, seen⟩ := moves_request unseen moved
    cases reply with
    | response resp =>
      simp only [Prog.bind]
      split
      · next missing =>
        have still : last.2 = false := by
          rw [seen]
          rcases missing with same | same <;> simp [replySucceeds, isSuccess, same]
        rw [← store]
        exact ih next still
      · exact ⟨store, .response resp, rfl, seen⟩
    | timeout => exact ⟨store, .timeout, rfl, seen⟩
    | httpError text => exact ⟨store, .httpError text, rfl, seen⟩
    | other => exact ⟨store, .other, rfl, seen⟩

theorem wp_testKey_revived (control : ControlPlane R) (requestId mode testUrl : String)
    (underway : Underway credits state.1 key) (unseen : state.2 = false) :
    (testKey control requestId key mode testUrl).wp testing (TestedKey key.id credits) state := by
  have recorded (reason : String) {last : Store × Bool} (still : last.2 = false) :
      ((recordFailure control.setup key reason none).bind fun key =>
        .done (tested key false none)).wp testing (TestedKey key.id credits) last :=
    wp_testUnasked
      (asks_tested false none (quiet_of_about (about_recordFailure control.setup key reason none))) still
  have refused (error : Exn) : (Prog.raise error : Gateway R (KeyTestResult × KeyObject)).wp testing
      (TestedKey key.id credits) state :=
    fun seen => absurd (unseen.symm.trans seen) Bool.false_ne_true
  unfold testKey
  split
  · exact refused _
  · dsimp only
    generalize (if key.current.provider = "" then "firecrawl" else key.current.provider) = provider
    split
    · exact refused _
    split
    · exact wp_testUnasked (asks_tested false none (asks_disableKeyDecryptFailed key)) unseen
    · split
      · exact refused _
      split
      · refine ⟨trivial, fun reply last moved => ?_⟩
        obtain ⟨store, seen⟩ := moves_request unseen moved
        cases reply with
        | other => exact fun succeeded => absurd (seen.symm.trans succeeded) Bool.false_ne_true
        | timeout => exact recorded "timeout" seen
        | httpError text => exact recorded "http_error" seen
        | response resp =>
          rw [← store] at underway
          exact wp_testResponseExa_revived control resp underway seen
      · apply (wp_bind _).mpr
        apply wp_mono _ (wp_tryPaths_revived _ _ _ unseen)
        rintro outcome last ⟨store, reply, rfl, seen⟩
        cases reply with
        | other => exact fun succeeded => absurd (seen.symm.trans succeeded) Bool.false_ne_true
        | timeout => exact recorded "timeout" seen
        | httpError text => exact recorded "http_error" seen
        | response resp =>
          rw [← store] at underway
          exact wp_testResponse_revived control resp underway seen

theorem stands_flush (stands : Stands id credits state) (clean : state.2 = true → Clean id key) :
    Stands id credits ({ state.1 with keys := Store.flushKey state.1.keys key }, state.2) := by
  intro seen
  obtain ⟨row, found, whole⟩ := stands seen
  obtain ⟨rfl, unchanged⟩ := clean seen
  refine ⟨row, ?_, whole⟩
  change (Store.flushKey state.1.keys key).get? key.id = some row
  rw [Store.get_flushKey_self, found, Option.map_some, Store.flush_clean unchanged]

theorem wp_testAndCommit_revived (control : ControlPlane R) (requestId mode testUrl : String)
    (underway : Underway credits state.1 key) (unseen : state.2 = false) :
    (testAndCommit control requestId key mode testUrl).wp testing (TestedKey key.id credits)
      state := by
  unfold testAndCommit
  apply (wp_attempt _).mpr
  apply (wp_bind _).mpr
  apply wp_mono _ (wp_testKey_revived control requestId mode testUrl underway unseen)
  rintro (error | ⟨result, after⟩) last told
  · cases error <;> exact told
  · obtain ⟨stands, clean⟩ := told
    refine ⟨trivial, fun written next step => ?_⟩
    obtain ⟨moved, seen⟩ := step
    have same : next.2 = last.2 := by
      rw [seen]
      exact Bool.or_false last.2
    obtain ⟨rfl, -, store⟩ | ⟨rfl, store⟩ := moved
    · have still : Stands key.id credits next := by
        intro succeeded
        rw [same] at succeeded
        rw [store]
        exact stands_flush stands clean succeeded
      refine ⟨trivial, fun row later step => ?_⟩
      obtain ⟨moved, seen⟩ := step
      have again : later.2 = next.2 := by
        rw [seen]
        exact Bool.or_false next.2
      have stood : Stands key.id credits later := by
        intro succeeded
        rw [moved.1]
        exact still (again.symm.trans succeeded)
      cases row with
      | none => exact stood
      | some row =>
        refine ⟨stood, fun succeeded => ?_⟩
        obtain ⟨sameId, -⟩ := clean (same.symm.trans (again.symm.trans succeeded))
        exact ⟨sameId, rfl⟩
    · intro succeeded
      rw [store]
      exact stands (same.symm.trans succeeded)

/-- What reviving comes to where its test succeeds. -/
def Revives (keys : Table KeyColumns) (id : Nat) (last : Store × Bool) : Prop :=
  last.2 = true → ∃ row, keys.get? id = some row ∧ Revived id row.cachedRemainingCredits last.1.keys

theorem revives_unseen {keys : Table KeyColumns} (unseen : state.2 = false) :
    Revives keys id state :=
  fun seen => absurd (unseen.symm.trans seen) Bool.false_ne_true

theorem revives_of_stands {keys : Table KeyColumns} {columns : KeyColumns}
    (found : keys.get? id = some columns)
    (stands : Stands id columns.cachedRemainingCredits state) : Revives keys id state :=
  fun seen => ⟨columns, found, stands seen⟩

/-- `revive_key` from the commit of the revived row on. -/
def commitRevived (control : ControlPlane R) (requestId : String) (payload : ReviveKeyRequest)
    (revived : KeyObject) : Gateway R (KeyObject × Option KeyTestResult) := do
  if ← query (.commit { site := .admin, keys := [revived] }) then
    match ← query (.reload revived.id) with
    | none => reject dbUnavailable
    | some row =>
      let key := KeyObject.fresh revived.id row
      let (test, key) ← if payload.test then do
          let (result, key) ← testAndCommit control requestId key "scrape" "https://example.com"
          pure (some result, key)
        else pure (none, key)
      let _ ← query (.commit { site := .admin, keys := [key] })
      return (key, test)
  else reject dbUnavailable

theorem reviveKey_eq (control : ControlPlane R) (requestId : String) (keyId : Nat)
    (payload : ReviveKeyRequest) :
    reviveKey control requestId keyId payload = (loadKey keyId notFound).bind fun key =>
      let revived := key.assign fun columns =>
        { columns with isActive := true, status := "active", cooldownUntil := none }
      if payload.requeueRefresh then
        (query .now).bind fun now => commitRevived control requestId payload
          (revived.assign fun columns => { columns with nextRefreshAt := some now })
      else commitRevived control requestId payload revived := by
  unfold reviveKey commitRevived
  congr 1
  funext key
  dsimp only
  split
  on_goal 1 =>
    apply congrArg (Prog.bind (query Op.now))
    funext now
  all_goals
    apply congrArg (Prog.bind (query _))
    funext written
    split
    · apply congrArg (Prog.bind (query _))
      funext row
      cases row with
      | none => rfl
      | some row => dsimp only; split <;> rfl
    · rfl

/-- The reviving commit puts the row right but for its credits. -/
theorem wp_commitRevived (control : ControlPlane R) (requestId : String)
    (payload : ReviveKeyRequest) {keys : Table KeyColumns} {revived : KeyObject}
    (found : keys.get? revived.id = some revived.loaded)
    (whole : RevivedRow revived.loaded.cachedRemainingCredits revived.current)
    (same : state.1.keys = keys) (unseen : state.2 = false) :
    (commitRevived control requestId payload revived).wp testing
      (fun _ => Revives keys revived.id) state := by
  unfold commitRevived
  refine ⟨trivial, fun written last step => ?_⟩
  obtain ⟨moved, seen⟩ := step
  have still : last.2 = false := by
    rw [seen, unseen]
    rfl
  obtain ⟨rfl, -, store⟩ | ⟨rfl, -⟩ := moved
  swap
  · exact revives_unseen still
  have held : last.1.keys.get? revived.id = some revived.current := by
    rw [store]
    change (Store.flushKey state.1.keys revived).get? revived.id = _
    rw [same, Store.get_flushKey_self, found, Option.map_some, KeyObject.flush_loaded]
  refine ⟨trivial, fun reply middle step => ?_⟩
  obtain ⟨moved, seen⟩ := step
  have unseen : middle.2 = false := by
    rw [seen, still]
    rfl
  obtain none | some := moved.2
  · subst none
    exact revives_unseen unseen
  · rw [held] at some
    subst some
    simp only [Prog.bind]
    -- the last commit writes nothing where the test succeeded
    have ends {test : Option KeyTestResult} {key : KeyObject} {stop : Store × Bool}
        (stands : Stands revived.id revived.loaded.cachedRemainingCredits stop)
        (clean : stop.2 = true → Clean revived.id key) :
        ((query (.commit { site := .admin, keys := [key] })).bind fun _ =>
          .done (key, test) : Gateway R _).wp testing (fun _ => Revives keys revived.id) stop := by
      refine ⟨trivial, fun written last step => revives_of_stands found ?_⟩
      obtain ⟨moved, seen⟩ := step
      have same : last.2 = stop.2 := by
        rw [seen]
        exact Bool.or_false stop.2
      intro succeeded
      rw [same] at succeeded
      obtain ⟨-, -, store⟩ | ⟨-, store⟩ := moved
      · rw [store]
        exact stands_flush stands clean succeeded
      · rw [store]
        exact stands succeeded
    split
    · have underway : Underway revived.loaded.cachedRemainingCredits middle.1
          (KeyObject.fresh revived.id revived.current) := by
        refine ⟨?_, whole, rfl⟩
        rw [moved.1]
        exact held
      apply (wp_bind _).mpr
      apply wp_mono _ (wp_testAndCommit_revived control requestId "scrape" "https://example.com"
        underway unseen)
      rintro (error | ⟨result, key⟩) stop told
      · exact revives_of_stands found told
      · exact ends told.1 told.2
    · apply ends
      · exact fun seen => absurd (unseen.symm.trans seen) Bool.false_ne_true
      · exact fun seen => absurd (unseen.symm.trans seen) Bool.false_ne_true

theorem wp_reviveKey (control : ControlPlane R) (requestId : String) (payload : ReviveKeyRequest)
    (store : Store) :
    (reviveKey control requestId id payload).wp testing (fun _ => Revives store.keys id)
      (store, false) := by
  rw [reviveKey_eq]
  refine ⟨trivial, fun reply last step => ?_⟩
  obtain ⟨moved, seen⟩ := step
  obtain none | some := moved.2
  · subst none
    exact revives_unseen seen
  subst some
  cases found : store.keys.get? id with
  | none => exact revives_unseen seen
  | some row =>
    have same : last.1.keys = store.keys := congrArg Store.keys moved.1
    have unseen : last.2 = false := seen
    simp only [Prog.bind]
    split
    · refine ⟨trivial, fun now next step => ?_⟩
      obtain ⟨moved, seen⟩ := step
      have still : next.2 = false := by
        rw [seen, unseen]
        rfl
      have here : next.1.keys = store.keys := (congrArg Store.keys moved).trans same
      have revived := @wp_commitRevived R _ _ _ next control requestId payload store.keys
        (((KeyObject.fresh id row).assign fun columns =>
          { columns with isActive := true, status := "active", cooldownUntil := none }).assign
            fun columns => { columns with nextRefreshAt := some now })
      exact revived found ⟨rfl, rfl, rfl, rfl⟩ here still
    · exact wp_commitRevived control requestId payload found ⟨rfl, rfl, rfl, rfl⟩ same unseen

/-- After a test that succeeded, the revived key is served exactly if the row's credits were
unknown or positive when it was revived. -/
theorem revived_serves_iff (control : ControlPlane R) (requestId : String) (keyId : Nat)
    (payload : ReviveKeyRequest) (store last : Store) (events : List (Event (Op R) (Reply R)))
    (outcome : Except Exn (KeyObject × Option KeyTestResult))
    (ran : Ran (reviveKey control requestId keyId payload) events outcome)
    (followed : Follows Store.moves store events last)
    (tested : ∃ event ∈ events, succeeds event = true) :
    Serves R last.keys keyId ↔ ∃ row, store.keys.get? keyId = some row ∧
      row.cachedRemainingCredits.any (· ≤ 0) = false := by
  have seen : (false || events.any succeeds) = true := by
    rw [Bool.false_or]
    exact List.any_eq_true.mpr tested
  obtain ⟨row, found, revived⟩ := wp_ran ran (follows_testing followed false)
    (wp_reviveKey control requestId payload store) seen
  rw [serves_iff revived]
  constructor
  · exact fun funded => ⟨row, found, funded⟩
  · rintro ⟨same, present, funded⟩
    cases found.symm.trans present
    exact funded

/-- An upstream that answers every request with success. -/
def succeeding (store : Store) : (op : Op R) → Reply R op × Store
  | .request _ _ => (.response { statusCode := 200, headers := [], content := [] }, store)
  | op => store.answer 0 op

theorem succeeding_honest (store : Store) (op : Op R) :
    store.moves ⟨op, (succeeding store op).1⟩ (succeeding store op).2 := by
  cases op with
  | request keyId sent => rfl
  | _ => exact store.answer_honest 0 _

/-- The revival of the only key, which has these columns. -/
def revivalRun (config : AppConfig ℚ) (row : KeyColumns) :=
  (reviveKey (R := ℚ)
    { setup := { foreign := openCipher, config, runtime := none, masterKey := some [] } }
    "request" 1 {}).execute succeeding { keys := .single 1 row, clients := .empty {} }

/-- A key that did not decrypt, with credits left, is back after its revival. -/
theorem sealed_key_revived :
    Serves ℚ (revivalRun {} { status := "decrypt_failed", isActive := false
                              cachedRemainingCredits := some 7 }).2.2.keys 1 :=
  (revived_serves_iff _ "request" 1 {} _ _ _ _ (execute_ran succeeding _ _)
    (execute_follows succeeding_honest _ _) (by decide +kernel)).mpr ⟨_, rfl, by decide⟩

/-- The row of a key that was condemned as invalid. -/
def condemned : KeyColumns :=
  { status := "invalid", isActive := false, cachedRemainingCredits := some 0 }

/-- A key that was condemned as invalid and passes its test after its revival is not served. -/
theorem condemned_key_not_revived : ¬ ∀ (store last : Store) (events : List (Event (Op ℚ) (Reply ℚ)))
    (outcome : Except Exn (KeyObject × Option KeyTestResult)),
    Ran (reviveKey (R := ℚ)
      { setup := { foreign := openCipher, config := {}, runtime := none, masterKey := some [] } }
      "request" 1 {}) events outcome →
    Follows Store.moves store events last → (∃ event ∈ events, succeeds event = true) →
    Serves ℚ last.keys 1 := by
  intro claim
  obtain ⟨row, found, schedulable⟩ := claim _ _ _ _ (execute_ran succeeding _ _)
    (execute_follows succeeding_honest _ { keys := .single 1 condemned, clients := .empty {} })
    (by decide +kernel)
  have empty : ((revivalRun {} condemned).2.2.keys.get? 1).map (·.cachedRemainingCredits) =
      some (some 0) := by decide +kernel
  have funded := (schedulable { keys := .empty {}, now := 0, storeRemaining := fun _ => none
                                peek := fun _ _ => none, failures := fun _ => none
                                monotonic := fun _ => 0, cursor := 0, roll := 0, draw := 0 }).funded
  have same : (revivalRun {} condemned).2.2.keys.get? 1 = some row := found
  rw [same, Option.map_some, Option.some.injEq] at empty
  rw [show (KeyObject.fresh 1 row).current.cachedRemainingCredits = some 0 from empty] at funded
  cases funded

end FcamGateway.KeyAdmin
